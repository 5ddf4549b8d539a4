import Mathlib.Data.List.Basic
import Mathlib.Tactic.Common

/-!
# Positions in a list with gaps

The entries of a list that `cast` rejects are skipped, and the value at a position is taken from
what is left, or is a default. This differs from taking the value of the entry at the position
itself, which is a value only if `strict` takes it: behind a gap everything moves up.

* `Aligned`, `aligned_iff`: when both agree on the first `n` positions.
-/

namespace Sdl
namespace Spec

variable {α β : Type} {cast strict : α → Option β} {d : β}

/-- Up to the first gap each value is one of `strict`, or the default; behind it the values that can
move up to one of the first `n` positions are the default. -/
def Aligned (cast strict : α → Option β) (d : β) : Nat → List α → Prop
  | 0, _ => True
  | _ + 1, [] => True
  | n + 1, a :: l =>
    match cast a with
    | some b => (strict a = some b ∨ b = d) ∧ Aligned cast strict d n l
    | none => ∀ b ∈ (l.filterMap cast).take (n + 1), b = d

/-- An entry does not move down. -/
theorem getElem?_filterMap_le {l : List α} {i : Nat} {a : α} {b : β} (ha : l[i]? = some a)
    (hb : cast a = some b) :
    ∃ j ≤ i, (l.filterMap cast)[j]? = some b := by
  induction l generalizing i with
  | nil => simp at ha
  | cons x l ih =>
    cases i with
    | zero =>
      cases ha
      exact ⟨0, Nat.le_refl _, by simp [hb]⟩
    | succ i =>
      obtain ⟨j, hj, hget⟩ := ih ha
      cases hx : cast x with
      | none => exact ⟨j, by omega, by simpa [List.filterMap_cons, hx] using hget⟩
      | some y => exact ⟨j + 1, by omega, by simpa [List.filterMap_cons, hx] using hget⟩

/-- Behind a gap. -/
theorem gap_iff (h : ∀ a b, strict a = some b → cast a = some b) (n : Nat) (l : List α) :
    (∀ b ∈ (l.filterMap cast).take (n + 1), b = d) ↔
      ∀ i < n + 1, ((l.filterMap cast)[i]?).getD d = ((none :: l.map strict)[i]?.join).getD d := by
  -- A value at the position itself is also one of the values before it that have moved up.
  have hstrict : ∀ i : Nat, (∀ j < i, ((l.filterMap cast)[j]?).getD d = d) →
      ((none :: l.map strict)[i]?.join).getD d = d := by
    intro i hi
    cases i with
    | zero => rfl
    | succ i =>
      rw [List.getElem?_cons_succ, List.getElem?_map]
      cases ha : l[i]? with
      | none => rfl
      | some a =>
        simp only [Option.map_some, Option.join_some]
        cases hs : strict a with
        | none => rfl
        | some b =>
          obtain ⟨j, hj, hget⟩ := getElem?_filterMap_le ha (h a b hs)
          have := hi j (by omega)
          rw [hget] at this
          exact this
  have hmem : (∀ b ∈ (l.filterMap cast).take (n + 1), b = d) ↔
      ∀ i < n + 1, ((l.filterMap cast)[i]?).getD d = d := by
    constructor
    · intro hb i hi
      cases hg : (l.filterMap cast)[i]? with
      | none => rfl
      | some b => exact hb b (List.mem_of_getElem? ((List.getElem?_take_of_lt hi).trans hg))
    · intro hi b hb
      obtain ⟨i, hlt, rfl⟩ := List.getElem_of_mem hb
      rw [List.length_take] at hlt
      have := hi i (by omega)
      rw [List.getElem?_eq_getElem (by omega)] at this
      rw [List.getElem_take]
      exact this
  rw [hmem]
  constructor
  · intro hall i hi
    rw [hall i hi, hstrict i fun j hj => hall j (by omega)]
  · intro hall i
    induction i using Nat.strongRecOn with
    | _ i ih =>
      intro hi
      rw [hall i hi]
      exact hstrict i fun j hj => ih j hj (by omega)

theorem aligned_iff (h : ∀ a b, strict a = some b → cast a = some b) (n : Nat) (l : List α) :
    Aligned cast strict d n l ↔
      ∀ i < n, ((l.filterMap cast)[i]?).getD d = ((l[i]?).bind strict).getD d := by
  induction l generalizing n with
  | nil => cases n <;> simp [Aligned]
  | cons a l ih =>
    cases n with
    | zero => simp [Aligned]
    | succ n =>
      cases ha : cast a with
      | some b =>
        have hfirst : strict a = some b ∨ b = d ↔ b = (strict a).getD d := by
          cases hs : strict a with
          | none => simp
          | some c =>
            have := (h a c hs).symm.trans ha
            simp only [Option.some.injEq] at this
            simp [this]
        simp only [Aligned, ha, ih, List.filterMap_cons, hfirst]
        constructor
        · rintro ⟨h₀, hall⟩ i hi
          cases i with
          | zero => simpa using h₀
          | succ i => simpa using hall i (by omega)
        · intro hall
          exact ⟨by simpa using hall 0 (by omega),
            fun i hi => by simpa using hall (i + 1) (by omega)⟩
      | none =>
        have hs : strict a = none := by
          cases hs : strict a with
          | none => rfl
          | some b => cases (h a b hs).symm.trans ha
        simp only [Aligned, ha, List.filterMap_cons, gap_iff h]
        have hpos : ∀ i : Nat, ((none :: l.map strict)[i]?.join) = ((a :: l)[i]?).bind strict := by
          intro i
          cases i with
          | zero => simp [hs]
          | succ i =>
            rw [List.getElem?_cons_succ, List.getElem?_cons_succ, List.getElem?_map]
            cases l[i]? <;> rfl
        simp only [hpos]

end Spec
end Sdl
