import Mathlib.Logic.Basic

/-!
# Systems with guarded runs

A **system** is an initial state and a partial step function: `step s e = none` means that the
event `e` cannot happen in `s`. A property of every run is proved by an inductive invariant.

`Reach G` holds of the states that a run reaches if each of its steps meets the guard `G`, a
condition on the event and on the state before it. With the guard `Sys.always` these are all the
reachable states. A guard states under which schedules a result holds; the invariant rule is the
same with and without one (`Reach.invariant`).

* `Reach.invariant`: an invariant from the initial state and one step.
* `Sys.run`, `reach_run`: a run of a list of events, to reach a concrete state.
* `run_measure`, `run_settles`: steps that use something up come to an end.
* `holds_iff_meets`: a property holds along a run exactly if its steps meet the guard.
* `holds_and_iff`: what every step keeps can be used for it.
* `Ends`: a loop is left after a number of iterations.
* `purge`: an observer does not see the events that are not its own.
-/

namespace Sdl
namespace Spec

/-- A system: the initial state, and the step that an event makes, if it can happen. -/
structure Sys (σ ε : Type) where
  init : σ
  step : σ → ε → Option σ

namespace Sys

variable {σ ε : Type}

/-- The guard that every step meets. -/
def always : σ → ε → Prop := fun _ _ => True

instance (s : σ) (e : ε) : Decidable (always s e) := inferInstanceAs (Decidable True)

/-- The states of the runs whose steps all meet `G`. -/
inductive Reach (S : Sys σ ε) (G : σ → ε → Prop) : σ → Prop
  | init : Reach S G S.init
  | step {s s' : σ} {e : ε} : Reach S G s → G s e → S.step s e = some s' → Reach S G s'

variable {S : Sys σ ε} {G : σ → ε → Prop}

/-- An invariant of the guarded runs: it holds initially and each step that meets the guard
keeps it. -/
theorem Reach.invariant {I : σ → Prop} (h0 : I S.init)
    (hs : ∀ s e s', I s → G s e → S.step s e = some s' → I s') {s : σ} (h : S.Reach G s) : I s := by
  induction h with
  | init => exact h0
  | step _ hg hst ih => exact hs _ _ _ ih hg hst

/-- The run of a list of events, as long as each of them can happen and meets `G`. -/
def run (S : Sys σ ε) (G : σ → ε → Prop) [∀ s e, Decidable (G s e)] : σ → List ε → Option σ
  | s, [] => some s
  | s, e :: es => if G s e then (S.step s e).bind fun s' => run S G s' es else none

theorem Reach.run [∀ s e, Decidable (G s e)] {s s' : σ} {es : List ε} (hs : S.Reach G s)
    (h : S.run G s es = some s') : S.Reach G s' := by
  induction es generalizing s with
  | nil => cases h; exact hs
  | cons e es ih =>
    simp only [Sys.run] at h
    split at h
    · rename_i hg
      obtain ⟨t, ht, hr⟩ := Option.bind_eq_some_iff.mp h
      exact ih (hs.step hg ht) hr
    · cases h

/-- One more event at the end. -/
theorem run_concat [∀ s e, Decidable (G s e)] {s s' : σ} {es : List ε}
    (h : S.run G s es = some s') {e : ε} (hg : G s' e) : S.run G s (es ++ [e]) = S.step s' e := by
  induction es generalizing s with
  | nil =>
    cases h
    simp only [List.nil_append, Sys.run, if_pos hg]
    exact Option.bind_fun_some _
  | cons e' es ih =>
    simp only [Sys.run] at h
    split at h
    · rename_i hg'
      obtain ⟨t, ht, hr⟩ := Option.bind_eq_some_iff.mp h
      simp only [List.cons_append, Sys.run, if_pos hg', ht, Option.bind_some]
      exact ih hr
    · cases h

/-- A list of events that can happen one after the other reaches its last state. -/
theorem reach_run [∀ s e, Decidable (G s e)] {s : σ} (es : List ε)
    (h : S.run G S.init es = some s) : S.Reach G s :=
  Reach.init.run h

/-- The same, with what is observed of the last state. -/
theorem reach_run_map [∀ s e, Decidable (G s e)] {β : Type} (es : List ε) (f : σ → β) {b : β}
    (h : (S.run G S.init es).map f = some b) : ∃ s, S.Reach G s ∧ f s = b := by
  obtain ⟨s, hs, hb⟩ := Option.map_eq_some_iff.mp h
  exact ⟨s, reach_run es hs, hb⟩

/-! ### Runs that come to an end -/

section Measure

variable {I : σ → Prop} {μ : σ → Nat} [∀ s e, Decidable (G s e)]

/-- Runs whose steps all use up the measure are no longer than it. -/
theorem run_measure (hstep : ∀ s e s', I s → G s e → S.step s e = some s' → I s' ∧ μ s' < μ s)
    {s s' : σ} {es : List ε}
    (hs : I s) (h : S.run G s es = some s') : I s' ∧ es.length + μ s' ≤ μ s := by
  induction es generalizing s with
  | nil =>
    cases h
    exact ⟨hs, by simp⟩
  | cons e es ih =>
    simp only [Sys.run] at h
    split at h
    · rename_i hg
      obtain ⟨t, ht, hr⟩ := Option.bind_eq_some_iff.mp h
      obtain ⟨hit, hlt⟩ := hstep s e t hs hg ht
      obtain ⟨hi, hle⟩ := ih hit hr
      refine ⟨hi, ?_⟩
      rw [List.length_cons]
      omega
    · cases h

/-- There is one that ends where no such step is left. -/
theorem run_settles (hstep : ∀ s e s', I s → G s e → S.step s e = some s' → I s' ∧ μ s' < μ s)
    {s : σ} (hs : I s) :
    ∃ es s', S.run G s es = some s' ∧ ∀ e, G s' e → S.step s' e = none := by
  induction hn : μ s using Nat.strongRecOn generalizing s with
  | ind n ih =>
    by_cases hstill : ∀ e, G s e → S.step s e = none
    · exact ⟨[], s, rfl, hstill⟩
    · obtain ⟨e, he⟩ := not_forall.mp hstill
      obtain ⟨hg, hne⟩ := not_forall.mp he
      obtain ⟨t, ht⟩ := Option.ne_none_iff_exists'.mp hne
      obtain ⟨hit, hlt⟩ := hstep s e t hs hg ht
      obtain ⟨es, s', hr, hend⟩ := ih (μ t) (hn ▸ hlt) hit rfl
      refine ⟨e :: es, s', ?_, hend⟩
      simp only [Sys.run, if_pos hg, ht, Option.bind_some]
      exact hr

end Measure

/-! ### Exact guards

A run here is any list of events; it ends at the first event that cannot happen. -/

/-- `I` holds of every state of the run. -/
def Holds (S : Sys σ ε) (I : σ → Prop) : σ → List ε → Prop
  | s, [] => I s
  | s, e :: es => I s ∧ ∀ s', S.step s e = some s' → Holds S I s' es

/-- Every step of the run meets `G`. -/
def Meets (S : Sys σ ε) (G : σ → ε → Prop) : σ → List ε → Prop
  | _, [] => True
  | s, e :: es => ∀ s', S.step s e = some s' → G s e ∧ Meets S G s' es

/-- If `G` says of each step from a state with `I` whether the next state has `I`, it says for each
run whether all its states do. -/
theorem holds_iff_meets {I : σ → Prop}
    (h : ∀ s e s', I s → S.step s e = some s' → (I s' ↔ G s e)) {s : σ} (hs : I s) (es : List ε) :
    S.Holds I s es ↔ S.Meets G s es := by
  induction es generalizing s with
  | nil => exact iff_of_true hs trivial
  | cons e es ih =>
    constructor
    · rintro ⟨-, hh⟩ s' hst
      have hi : I s' := by
        cases es with
        | nil => exact hh s' hst
        | cons _ _ => exact (hh s' hst).1
      exact ⟨(h s e s' hs hst).mp hi, (ih hi).mp (hh s' hst)⟩
    · intro hm
      refine ⟨hs, fun s' hst => ?_⟩
      obtain ⟨hg, hm⟩ := hm s' hst
      exact (ih ((h s e s' hs hst).mpr hg)).mpr hm

/-- What every step keeps can be used along the run. -/
theorem holds_and_iff {I A : σ → Prop} (hA : ∀ s e s', A s → S.step s e = some s' → A s')
    {s : σ} (hs : A s) (es : List ε) : S.Holds (fun s => I s ∧ A s) s es ↔ S.Holds I s es := by
  induction es generalizing s with
  | nil => exact ⟨fun h => h.1, fun h => ⟨h, hs⟩⟩
  | cons e es ih =>
    constructor
    · rintro ⟨⟨hi, -⟩, hh⟩
      exact ⟨hi, fun s' hst => (ih (hA s e s' hs hst)).mp (hh s' hst)⟩
    · rintro ⟨hi, hh⟩
      exact ⟨⟨hi, hs⟩, fun s' hst => (ih (hA s e s' hs hst)).mpr (hh s' hst)⟩

end Sys

/-! ### Loops

A loop is a partial step: `step s = none` means that its condition does not hold in `s`. -/

section Loops

variable {σ : Type} {step : σ → Option σ}

/-- The loop is left in `t`, after `n` iterations from `s`. -/
inductive Ends (step : σ → Option σ) : σ → Nat → σ → Prop
  | left {s : σ} : step s = none → Ends step s 0 s
  | iteration {s s' t : σ} {n : Nat} : step s = some s' → Ends step s' n t → Ends step s (n + 1) t

/-- A loop is left in one state only, if it is left at all. -/
theorem Ends.unique {s t t' : σ} {n n' : Nat} (h : Ends step s n t) (h' : Ends step s n' t') :
    n = n' ∧ t = t' := by
  induction h generalizing n' with
  | left hs =>
    cases h' with
    | left _ => exact ⟨rfl, rfl⟩
    | iteration hs' _ =>
      rw [hs] at hs'
      cases hs'
  | iteration hs _ ih =>
    cases h' with
    | left hs' =>
      rw [hs] at hs'
      cases hs'
    | iteration hs' h' =>
      rw [hs] at hs'
      cases hs'
      obtain ⟨rfl, rfl⟩ := ih h'
      exact ⟨rfl, rfl⟩

end Loops

/-! ### Purged runs

`R` relates the states that look the same to an observer. -/

/-- If the events of others keep the view of the observer, and its own events agree on states with
the same view, a run looks like the run of its own events alone. -/
theorem purge {σ ε : Type} {step : σ → ε → σ} {R : σ → σ → Prop} {own : ε → Bool} {es : List ε}
    (hown : ∀ s t, ∀ e ∈ es, own e = true → R s t → R (step s e) (step t e))
    (hother : ∀ s t, ∀ e ∈ es, own e = false → R s t → R (step s e) t) {s t : σ} (h : R s t) :
    R (es.foldl step s) ((es.filter own).foldl step t) := by
  induction es generalizing s t with
  | nil => exact h
  | cons e es ih =>
    have ih : ∀ s t, R s t → R (es.foldl step s) ((es.filter own).foldl step t) := fun s t hst =>
      ih (fun s t e' he' => hown s t e' (List.mem_cons_of_mem _ he'))
        (fun s t e' he' => hother s t e' (List.mem_cons_of_mem _ he')) hst
    cases he : own e with
    | true =>
      rw [List.filter_cons_of_pos he, List.foldl_cons, List.foldl_cons]
      exact ih _ _ (hown s t e (List.mem_cons_self ..) he h)
    | false =>
      rw [List.filter_cons_of_neg (by rw [he]; exact Bool.false_ne_true), List.foldl_cons]
      exact ih _ _ (hother s t e (List.mem_cons_self ..) he h)

end Spec
end Sdl
