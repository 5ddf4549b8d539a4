import Mathlib.Data.List.Perm.Basic

/-!
# Tokens

A way to prove that each of a number of callbacks is called exactly once: the callbacks are numbered
in the order of their creation, each has a token, and the invariant says that the number of tokens
`n` over all places is `1` if `n` has been created and `0` if not. A step moves tokens; the lemmas
here are about the steps of a token's way that every such proof has.

* `count_issued`: a new number gets its token.
* `taken_perm`, `mem_taken`, `count_taken`: an item is taken from a queue, wherever it stands in it.
* `count_lookup`: an item is taken by its name.
* `count_set`: the tokens of one of several places change.
-/

namespace Sdl
namespace Spec

/-- One more number has been given out. -/
theorem count_issued (k n : Nat) :
    (if n < k then 1 else 0) + (if k == n then 1 else 0) = if n < k + 1 then 1 else 0 := by
  by_cases hn : k = n
  · subst hn; simp
  · have hb : (k == n) = false := by simpa using hn
    rw [hb, if_neg Bool.false_ne_true]
    split <;> split <;> omega

section Taken

variable {α : Type} {l : List α} {i : Nat} {a : α}

theorem taken_perm (h : l[i]? = some a) : (a :: l.eraseIdx i).Perm l := by
  obtain ⟨hlt, rfl⟩ := List.getElem?_eq_some_iff.mp h
  exact List.getElem_cons_eraseIdx_perm hlt

/-- Every other item stays. -/
theorem mem_taken (h : l[i]? = some a) {b : α} (hb : b ∈ l) : b = a ∨ b ∈ l.eraseIdx i :=
  List.mem_cons.mp ((taken_perm h).mem_iff.mpr hb)

/-- The tokens of the items. -/
theorem count_taken (h : l[i]? = some a) (f : α → Option Nat) (n : Nat) :
    (l.filterMap f).count n = (f a).toList.count n + ((l.eraseIdx i).filterMap f).count n := by
  rw [← ((taken_perm h).filterMap f).count_eq n, List.filterMap_cons]
  cases f a with
  | none => simp
  | some b => simp [List.count_cons, Nat.add_comm]

end Taken

section Lookup

variable {κ : Type} {i : Nat} {c : κ}

/-- The tokens of a list of items with different names, without the one of a name. -/
theorem count_lookup (f : κ → Option Nat) (n : Nat) {l : List (Nat × κ)}
    (hnd : (l.map Prod.fst).Nodup) (hl : l.lookup i = some c) :
    (l.filterMap fun x => f x.2).count n =
      (f c).toList.count n + ((l.filter fun x => x.1 ≠ i).filterMap fun x => f x.2).count n := by
  induction l with
  | nil => cases hl
  | cons x l ih =>
    obtain ⟨j, k⟩ := x
    rw [List.map_cons, List.nodup_cons] at hnd
    have hcons : ∀ m : List (Nat × κ), (((j, k) :: m).filterMap fun x => f x.2).count n =
        (f k).toList.count n + (m.filterMap fun x => f x.2).count n := by
      intro m
      cases hk : f k <;> simp [hk, List.count_cons, Nat.add_comm]
    by_cases hij : i = j
    · subst hij
      rw [List.lookup_cons, beq_self_eq_true] at hl
      cases hl
      have hfilter : l.filter (fun x => x.1 ≠ i) = l := by
        rw [List.filter_eq_self]
        intro x hx
        have hne : x.1 ≠ i := by
          rintro rfl
          exact hnd.1 (List.mem_map.mpr ⟨x, hx, rfl⟩)
        simpa using hne
      rw [hcons, List.filter_cons_of_neg (by simp), hfilter]
    · rw [List.lookup_cons, beq_false_of_ne hij] at hl
      have := ih hnd.2 hl
      have hji : j ≠ i := fun e => hij e.symm
      rw [hcons, List.filter_cons_of_pos (by simpa using hji), hcons, this]
      omega

end Lookup

/-- One of several lists of tokens is replaced. -/
theorem count_set {α : Type} {l : List α} {j : Nat} {a : α} (h : l[j]? = some a) (b : α)
    (f : α → List Nat) (n : Nat) :
    ((l.set j b).flatMap f).count n + (f a).count n = (l.flatMap f).count n + (f b).count n := by
  induction l generalizing j with
  | nil => cases h
  | cons x l ih =>
    cases j with
    | zero =>
      cases h
      simp only [List.set_cons_zero, List.flatMap_cons, List.count_append]
      omega
    | succ j =>
      have := ih h
      simp only [List.set_cons_succ, List.flatMap_cons, List.count_append]
      omega

end Spec
end Sdl
