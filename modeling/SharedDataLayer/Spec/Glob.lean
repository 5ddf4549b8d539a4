import Mathlib.Data.List.Infix

/-!
# Patterns of single items and stars

A pattern is a list of tokens. `one p` matches one item that satisfies `p`: a literal, a wildcard
for one item and a class are all of this form. `star` matches any list, the empty one too.

* `matches_append_lits`: literals in front of a pattern match themselves.
* `matches_star`: a final `star` matches everything.
* `matches_insert`: what the first `star` of a pattern matches can be made longer.
* `matches_length`: without a `star` a pattern matches lists of one length only.
-/

namespace Sdl
namespace Spec
namespace Glob

variable {α : Type}

/-- A token of a pattern. -/
inductive Tok (α : Type) where
  | one (p : α → Bool)
  | star

/-- `s` matches the tokens from its first to its last item. -/
def matchesToks : List (Tok α) → List α → Bool
  | [], s => s.isEmpty
  | .one _ :: _, [] => false
  | .one p :: ts, a :: s => p a && matchesToks ts s
  | .star :: ts, s => s.tails.any (matchesToks ts)

/-- The token that matches `a` only. -/
def lit [DecidableEq α] (a : α) : Tok α := .one (· == a)

@[simp] theorem matches_nil {s : List α} : matchesToks [] s = true ↔ s = [] := by
  simp [matchesToks]

@[simp] theorem matches_one_nil {p : α → Bool} {ts : List (Tok α)} :
    matchesToks (.one p :: ts) [] = false := rfl

@[simp] theorem matches_one_cons {p : α → Bool} {ts : List (Tok α)} {a : α} {s : List α} :
    matchesToks (.one p :: ts) (a :: s) = true ↔ p a = true ∧ matchesToks ts s = true := by
  simp [matchesToks]

theorem matches_star_iff {ts : List (Tok α)} {s : List α} :
    matchesToks (.star :: ts) s = true ↔ ∃ u v, s = u ++ v ∧ matchesToks ts v = true := by
  simp only [matchesToks, List.any_eq_true, List.mem_tails]
  constructor
  · rintro ⟨v, ⟨u, rfl⟩, hv⟩; exact ⟨u, v, rfl, hv⟩
  · rintro ⟨u, v, rfl, hv⟩; exact ⟨v, ⟨u, rfl⟩, hv⟩

/-- A final star matches everything. -/
@[simp] theorem matches_star {s : List α} : matchesToks [.star] s = true :=
  matches_star_iff.mpr ⟨s, [], by simp, by simp⟩

/-- Literals match themselves. -/
theorem matches_append_lits [DecidableEq α] {l : List α} {ts : List (Tok α)} {s : List α} :
    matchesToks (l.map lit ++ ts) s = true ↔ ∃ v, s = l ++ v ∧ matchesToks ts v = true := by
  induction l generalizing s with
  | nil => simp
  | cons a l ih =>
    cases s with
    | nil => simp [lit]
    | cons b s =>
      simp only [List.map_cons, List.cons_append, lit, matches_one_cons, beq_iff_eq,
        List.cons.injEq]
      rw [ih]
      constructor
      · rintro ⟨rfl, v, rfl, hv⟩; exact ⟨v, ⟨rfl, rfl⟩, hv⟩
      · rintro ⟨v, ⟨rfl, rfl⟩, hv⟩; exact ⟨rfl, v, rfl, hv⟩

/-- The tokens are all of the form `one`. -/
def Single (ts : List (Tok α)) : Prop := ∀ t ∈ ts, ∃ p, t = .one p

/-- A pattern has a first star, or none at all. -/
theorem single_or_star (ts : List (Tok α)) :
    Single ts ∨ ∃ S M, ts = S ++ .star :: M ∧ Single S := by
  induction ts with
  | nil => exact .inl (by simp [Single])
  | cons t ts ih =>
    cases t with
    | star => exact .inr ⟨[], ts, rfl, by simp [Single]⟩
    | one p =>
      rcases ih with h | ⟨S, M, rfl, hS⟩
      · exact .inl (by simpa [Single] using h)
      · exact .inr ⟨.one p :: S, M, rfl, by simpa [Single] using hS⟩

/-- Single tokens in front of a pattern match as many items. -/
theorem matches_append_single {S ts : List (Tok α)} (hS : Single S) {s : List α} :
    matchesToks (S ++ ts) s = true ↔
      ∃ x y, s = x ++ y ∧ x.length = S.length ∧ matchesToks S x = true ∧
      matchesToks ts y = true := by
  induction S generalizing s with
  | nil => simp
  | cons t S ih =>
    obtain ⟨p, rfl⟩ := hS t (by simp)
    have hS' : Single S := fun t ht => hS t (by simp [ht])
    cases s with
    | nil => simp
    | cons a s =>
      rw [List.cons_append, matches_one_cons, ih hS']
      constructor
      · rintro ⟨ha, x, y, rfl, hl, hx, hy⟩
        exact ⟨a :: x, y, rfl, by simp [hl], matches_one_cons.mpr ⟨ha, hx⟩, hy⟩
      · rintro ⟨x, y, e, hl, hx, hy⟩
        cases x with
        | nil => simp at hl
        | cons b x =>
          rw [List.cons_append, List.cons.injEq] at e
          obtain ⟨rfl, rfl⟩ := e
          obtain ⟨ha, hx⟩ := matches_one_cons.mp hx
          exact ⟨ha, x, y, rfl, by simpa using hl, hx, hy⟩

/-- Without a star, a pattern matches lists of its own length only. -/
theorem matches_length {S : List (Tok α)} (hS : Single S) {s : List α}
    (h : matchesToks S s = true) : s.length = S.length := by
  rw [← List.append_nil S, matches_append_single hS] at h
  obtain ⟨x, y, rfl, hl, -, hy⟩ := h
  rw [matches_nil] at hy
  simp [hy, hl]

/-- What the first star of a pattern matches can be made longer at its start. -/
theorem matches_insert {S M : List (Tok α)} (hS : Single S) {s : List α}
    (h : matchesToks (S ++ .star :: M) s = true) :
    ∃ x y, s = x ++ y ∧ x.length = S.length ∧
      ∀ z, matchesToks (S ++ .star :: M) (x ++ z ++ y) = true := by
  obtain ⟨x, y, rfl, hl, hx, hy⟩ := (matches_append_single hS).mp h
  obtain ⟨u, v, rfl, hv⟩ := matches_star_iff.mp hy
  refine ⟨x, u ++ v, rfl, hl, fun z => (matches_append_single hS).mpr ?_⟩
  exact ⟨x, z ++ (u ++ v), by simp, hl, hx, matches_star_iff.mpr ⟨z ++ u, v, by simp, hv⟩⟩

end Glob
end Spec
end Sdl
