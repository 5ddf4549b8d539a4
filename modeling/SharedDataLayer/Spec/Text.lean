import Mathlib.Data.List.Basic
import Mathlib.Tactic.Common

/-!
# Text with separators

Loops over the positions of a separator in a text: `splitFrom` cuts the text into the pieces between
the separators, and `spliceFrom` inserts a text before each of them while it goes through the
result. Both are those of a program that works on positions of one string; `splitFrom_zero` and
`spliceFrom_zero` say what they compute, in terms of `List.splitOn`.

* `splitOn_spliced`: the pieces of a text with insertions are the pieces with the insertion
  appended.
-/

namespace Sdl
namespace Spec

variable {α : Type} [DecidableEq α]

/-- The first position of `c` in `s` that is not before `base`. -/
def findFrom (s : List α) (c : α) (base : Nat) : Option Nat :=
  ((s.drop base).findIdx? (· = c)).map (· + base)

theorem findFrom_lt {s : List α} {c : α} {base pos : Nat} (h : findFrom s c base = some pos) :
    base ≤ pos ∧ pos < s.length := by
  obtain ⟨i, hi, rfl⟩ := Option.map_eq_some_iff.mp h
  obtain ⟨hlt, -⟩ := List.findIdx?_eq_some_iff_findIdx_eq.mp hi
  rw [List.length_drop] at hlt
  omega

/-- Nothing is found in a text without `c`. -/
theorem findFrom_append_none {a s : List α} {c : α} (h : c ∉ s) :
    findFrom (a ++ s) c a.length = none := by
  simp only [findFrom, List.drop_left, Option.map_eq_none_iff, List.findIdx?_eq_none_iff,
    decide_eq_false_iff_not]
  rintro x hx rfl
  exact h hx

/-- The first `c` is found behind a text without `c`. -/
theorem findFrom_append_some {a p r : List α} {c : α} (h : c ∉ p) :
    findFrom (a ++ (p ++ c :: r)) c a.length = some (a.length + p.length) := by
  have hp : p.findIdx? (· = c) = none := by
    rw [List.findIdx?_eq_none_iff]
    rintro x hx
    exact decide_eq_false fun he => h (he ▸ hx)
  simp [findFrom, List.findIdx?_append, hp, List.findIdx?_cons, Nat.add_comm]

/-- The pieces of `s` from `base` on. -/
def splitFrom (c : α) (s : List α) (base : Nat) : List (List α) :=
  match h : findFrom s c base with
  | none => [s.drop base]
  | some pos => (s.drop base).take (pos - base) :: splitFrom c s (pos + 1)
termination_by s.length - base
decreasing_by
  have := findFrom_lt h
  omega

/-- `t` is inserted before each `c` of `s` from `base` on. The search goes on behind the `c`. -/
def spliceFrom (c : α) (t : List α) (s : List α) (base : Nat) : List α :=
  match h : findFrom s c base with
  | none => s
  | some pos => spliceFrom c t (s.take pos ++ t ++ s.drop pos) (pos + t.length + 1)
termination_by s.length - base
decreasing_by
  have := findFrom_lt h
  simp only [List.length_append, List.length_take, List.length_drop]
  omega

/-- A text has no `c`, or it is a piece without `c`, and a rest behind the first `c`. -/
theorem exists_piece (c : α) (s : List α) : c ∉ s ∨ ∃ p r, c ∉ p ∧ s = p ++ c :: r := by
  by_cases h : c ∈ s
  · obtain ⟨p, r, rfl, hp⟩ := List.eq_append_cons_of_mem h
    exact .inr ⟨p, r, hp, rfl⟩
  · exact .inl h

/-- Induction over the pieces of a text. -/
theorem pieces_induction (c : α) {motive : List α → Prop} (last : ∀ p, c ∉ p → motive p)
    (piece : ∀ p r, c ∉ p → motive r → motive (p ++ c :: r)) (s : List α) : motive s := by
  induction hn : s.length using Nat.strongRecOn generalizing s with
  | _ n ih =>
    rcases exists_piece c s with h | ⟨p, r, hp, rfl⟩
    · exact last s h
    · refine piece p r hp (ih r.length ?_ r rfl)
      simp only [List.length_append, List.length_cons] at hn
      omega

theorem splitFrom_append (c : α) (a s : List α) : splitFrom c (a ++ s) a.length = s.splitOn c := by
  induction s using pieces_induction c generalizing a with
  | last p hp =>
    rw [splitFrom]
    split
    · rw [List.drop_left, List.splitOn_eq_singleton hp]
    · rename_i hf
      rw [findFrom_append_none hp] at hf
      cases hf
  | piece p r hp ih =>
    rw [splitFrom]
    split
    · rename_i hf
      rw [findFrom_append_some hp] at hf
      cases hf
    · rename_i pos hf
      rw [findFrom_append_some hp] at hf
      cases hf
      have hr := ih (a ++ p ++ [c])
      simp only [List.append_assoc, List.singleton_append, List.length_append,
        List.length_singleton] at hr
      rw [List.drop_left, Nat.add_sub_cancel_left, List.take_left, Nat.add_assoc, hr,
        List.splitOn_append_cons_self_of_not_mem hp]

/-- The loop over the whole text. -/
theorem splitFrom_zero (c : α) (s : List α) : splitFrom c s 0 = s.splitOn c :=
  splitFrom_append c [] s

/-- The pieces with `t` before each separator. -/
def spliced (c : α) (t : List α) (s : List α) : List α :=
  s.flatMap fun x => if x = c then t ++ [x] else [x]

theorem spliced_of_not_mem {c : α} {t s : List α} (h : c ∉ s) : spliced c t s = s := by
  induction s with
  | nil => rfl
  | cons x s ih =>
    rw [List.mem_cons, not_or] at h
    rw [spliced, List.flatMap_cons, if_neg (Ne.symm h.1), ← spliced, ih h.2]
    rfl

theorem spliced_append (c : α) (t p r : List α) :
    spliced c t (p ++ r) = spliced c t p ++ spliced c t r :=
  List.flatMap_append

theorem spliced_cons_self (c : α) (t r : List α) :
    spliced c t (c :: r) = t ++ c :: spliced c t r := by
  rw [spliced, List.flatMap_cons, if_pos rfl, ← spliced, List.append_assoc]
  rfl

theorem spliceFrom_append (c : α) (t a s : List α) :
    spliceFrom c t (a ++ s) a.length = a ++ spliced c t s := by
  induction s using pieces_induction c generalizing a with
  | last p hp =>
    rw [spliceFrom]
    split
    · rw [spliced_of_not_mem hp]
    · rename_i hf
      rw [findFrom_append_none hp] at hf
      cases hf
  | piece p r hp ih =>
    rw [spliceFrom]
    split
    · rename_i hf
      rw [findFrom_append_some hp] at hf
      cases hf
    · rename_i pos hf
      rw [findFrom_append_some hp] at hf
      cases hf
      have ht : (a ++ (p ++ c :: r)).take (a.length + p.length) = a ++ p := by
        rw [← List.append_assoc, ← List.length_append, List.take_left]
      have hd : (a ++ (p ++ c :: r)).drop (a.length + p.length) = c :: r := by
        rw [← List.append_assoc, ← List.length_append, List.drop_left]
      have hr := ih (a ++ p ++ t ++ [c])
      simp only [List.append_assoc, List.singleton_append, List.length_append,
        List.length_singleton] at hr
      rw [ht, hd, spliced_append, spliced_of_not_mem hp, spliced_cons_self]
      simpa only [List.append_assoc, Nat.add_assoc] using hr

theorem spliceFrom_zero (c : α) (t s : List α) : spliceFrom c t s 0 = spliced c t s :=
  spliceFrom_append c t [] s

/-- The pieces of a text with `t` before each separator and at the end. -/
theorem splitOn_spliced {c : α} {t : List α} (ht : c ∉ t) (s : List α) :
    (spliced c t s ++ t).splitOn c = (s.splitOn c).map (· ++ t) := by
  induction s using pieces_induction c with
  | last p hp =>
    rw [spliced_of_not_mem hp, List.splitOn_eq_singleton hp, List.splitOn_eq_singleton]
    · rfl
    · simp [hp, ht]
  | piece p r hp ih =>
    have hpt : c ∉ p ++ t := by simp [hp, ht]
    rw [spliced_append, spliced_of_not_mem hp, spliced_cons_self,
      List.splitOn_append_cons_self_of_not_mem hp,
      List.map_cons, ← ih, ← List.splitOn_append_cons_self_of_not_mem hpt]
    simp only [List.append_assoc, List.cons_append]

end Spec
end Sdl
