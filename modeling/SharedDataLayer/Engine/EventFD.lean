import SharedDataLayer.Spec.Sys
import Mathlib.Data.List.Nodup

/-!
# The callback queue of the engine (`src/eventfd.cpp`)

Any number of threads post callbacks, and one of them, the thread of the engine, calls
`handleEvents`. An event is an atomic step: the push or the swap under the mutex, and a read or a
write of the eventfd. A thread that has pushed a callback and has not written yet is in `posting`.
The thread of the engine posts from inside a callback, and from the handlers of other descriptors
while `handleEvents` is not running.

Callbacks are numbered in the order of their pushes. `call` is the number of the calls of
`handleEvents` so far; a callback records it at its push, with whether a batch was running then.
`post` of a null callback ends the process and is left out.

* `Inv`: nothing is lost or executed twice, and nobody sleeps while a callback is queued.
* `Inv.stuck`, `run_due`: the engine has a step to make, and executes a callback after a bounded
  number of its steps.
* `callbacks_executed_once`: both, for every run.
-/

namespace Sdl
namespace EventFD

open Spec

inductive Thread where
  | engine
  | other (i : Nat)
  deriving DecidableEq

structure Callback where
  number : Nat
  /-- The calls of `handleEvents` at the push. -/
  call : Nat
  /-- Whether a batch was running at the push. -/
  duringBatch : Bool
  deriving DecidableEq

/-- Where the thread of the engine stands in `handleEvents`: not in it, between the read and the
swap, or in `executeCallbacks` with the rest of the batch. `inside` says whether a callback is being
executed. -/
inductive Phase where
  | idle
  | read
  | running (batch : List Callback) (inside : Bool)
  deriving DecidableEq

structure World where
  callbacks : List Callback
  /-- The counter of the eventfd. -/
  fd : Nat
  posting : List Thread
  phase : Phase
  call : Nat
  pushed : List Callback
  /-- The callbacks that were executed, with the number of the call. -/
  executed : List (Callback × Nat)

namespace World

/-- The eventfd is readable. -/
def readable (w : World) : Prop := 0 < w.fd

instance (w : World) : Decidable w.readable := inferInstanceAs (Decidable (0 < w.fd))

/-- The callbacks of the batch that are not executed yet. -/
def batch (w : World) : List Callback :=
  match w.phase with
  | .running batch _ => batch
  | _ => []

/-- Whether a batch has been extracted. -/
def inBatch (w : World) : Bool :=
  match w.phase with
  | .running _ _ => true
  | _ => false

/-- The thread of the engine runs other code than that of `EventFD`. -/
def engineFree (w : World) : Bool :=
  match w.phase with
  | .idle | .running _ true => true
  | _ => false

/-- The thread `t` pushes its callback. -/
def push (w : World) (t : Thread) : World :=
  let c := ⟨w.pushed.length, w.call, w.inBatch⟩
  { w with callbacks := w.callbacks ++ [c], posting := t :: w.posting, pushed := w.pushed ++ [c] }

end World

inductive Event where
  /-- `atomicPushBack` of `post`. -/
  | atomicPushBack (t : Thread)
  /-- `write` of `post`. -/
  | write (t : Thread)
  /-- `handleEvents` is called, and reads. -/
  | handleEvents
  | atomicPopAll
  /-- `popAndExecuteFirstCallback`: the callback begins. -/
  | executeFirst
  /-- The callback returns. -/
  | returned
  /-- `handleEvents` returns. -/
  | handled

def step (w : World) : Event → Option World
  | .atomicPushBack t =>
    if t ∉ w.posting ∧ (t = .engine → w.engineFree = true) then some (w.push t) else none
  | .write t =>
    if t ∈ w.posting then some { w with fd := w.fd + 1, posting := w.posting.erase t } else none
  -- A read of a counter that is zero fails with `EAGAIN`, which `System::read` ignores.
  | .handleEvents =>
    if w.phase = .idle ∧ .engine ∉ w.posting then some { w with fd := 0, phase := .read,
                                                                call := w.call + 1 }
    else none
  | .atomicPopAll =>
    if w.phase = .read then some { w with callbacks := [], phase := .running w.callbacks false }
    else none
  | .executeFirst =>
    match w.phase with
    | .running (c :: batch) false =>
      some { w with phase := .running batch true, executed := w.executed ++ [(c, w.call)] }
    | _ => none
  | .returned =>
    match w.phase with
    | .running batch true => if .engine ∉ w.posting then
      some { w with phase := .running batch false } else none
    | _ => none
  | .handled => if w.phase = .running [] false then some { w with phase := .idle } else none

def sys : Sys World Event where
  init := ⟨[], 0, [], .idle, 0, [], []⟩
  step := step

/-! ## The invariant -/

/-- A callback of the queue that was posted during a batch was so in an earlier call, or in the
present one whose swap is over. -/
def Queued (w : World) (c : Callback) : Prop :=
  c.duringBatch = true → c.call ≤ w.call ∧ (w.phase = .read → c.call < w.call)

structure Inv (w : World) : Prop where
  pushed : w.executed.map Prod.fst ++ w.batch ++ w.callbacks = w.pushed
  number : w.pushed.map Callback.number = List.range w.pushed.length
  awake : w.callbacks ≠ [] → w.posting ≠ [] ∨ w.readable ∨ w.phase = .read
  queued : ∀ c ∈ w.callbacks, Queued w c
  batch : ∀ c ∈ w.batch, c.duringBatch = true → c.call < w.call
  executed : ∀ x ∈ w.executed, x.1.duringBatch = true → x.1.call < x.2

section Steps

variable {w w' : World}

/-- What each event does where it can happen. -/
inductive Step (w : World) : Event → World → Prop
  | atomicPushBack (t : Thread) (ht : t ∉ w.posting) : Step w (.atomicPushBack t) (w.push t)
  | write (t : Thread) (ht : t ∈ w.posting) :
    Step w (.write t) { w with fd := w.fd + 1, posting := w.posting.erase t }
  | handleEvents (hp : w.phase = .idle) (ht : .engine ∉ w.posting) :
    Step w .handleEvents { w with fd := 0, phase := .read, call := w.call + 1 }
  | atomicPopAll (hp : w.phase = .read) :
    Step w .atomicPopAll { w with callbacks := [], phase := .running w.callbacks false }
  | executeFirst (c : Callback) (batch : List Callback) (hp : w.phase =
    .running (c :: batch) false) :
    Step w .executeFirst { w with phase := .running batch true,
                                  executed := w.executed ++ [(c, w.call)] }
  | returned (batch : List Callback) (hp : w.phase = .running batch true)
    (ht : .engine ∉ w.posting) :
    Step w .returned { w with phase := .running batch false }
  | handled (hp : w.phase = .running [] false) : Step w .handled { w with phase := .idle }

theorem step_cases {e : Event} (hs : step w e = some w') : Step w e w' := by
  cases e with
  | atomicPushBack t =>
    obtain ⟨h, hw⟩ := Option.ite_none_right_eq_some.mp hs
    cases hw
    exact .atomicPushBack t h.1
  | write t =>
    obtain ⟨h, hw⟩ := Option.ite_none_right_eq_some.mp hs
    cases hw
    exact .write t h
  | handleEvents =>
    obtain ⟨h, hw⟩ := Option.ite_none_right_eq_some.mp hs
    cases hw
    exact .handleEvents h.1 h.2
  | atomicPopAll =>
    obtain ⟨h, hw⟩ := Option.ite_none_right_eq_some.mp hs
    cases hw
    exact .atomicPopAll h
  | executeFirst =>
    simp only [step] at hs
    split at hs <;> cases hs
    exact .executeFirst _ _ ‹_›
  | returned =>
    simp only [step] at hs
    split at hs
    · obtain ⟨h, hw⟩ := Option.ite_none_right_eq_some.mp hs
      cases hw
      exact .returned _ ‹_› h
    · cases hs
  | handled =>
    obtain ⟨h, hw⟩ := Option.ite_none_right_eq_some.mp hs
    cases hw
    exact .handled h

theorem batch_running {batch : List Callback} {inside : Bool}
    (h : w.phase = .running batch inside) :
    w.batch = batch := by
  rw [World.batch, h]

theorem Inv.atomicPushBack (h : Inv w) (t : Thread) : Inv (w.push t) := by
  refine ⟨?_, ?_, fun _ => .inl (by simp [World.push]), fun c hc hd => ?_, h.batch, h.executed⟩
  · show w.executed.map Prod.fst ++ w.batch ++ (w.callbacks ++ _) = _
    rw [← List.append_assoc, h.pushed]
    rfl
  · simp only [World.push, List.map_append, h.number, List.length_append,
      List.length_singleton, List.range_succ]
    rfl
  · rcases List.mem_append.mp hc with hc | hc
    · exact h.queued c hc hd
    · rw [List.mem_singleton.mp hc] at hd ⊢
      refine ⟨Nat.le_refl _, fun hr => ?_⟩
      -- Between the read and the swap no batch is running.
      have hb : w.inBatch = true := hd
      have hr : w.phase = .read := hr
      rw [World.inBatch, hr] at hb
      cases hb

theorem Inv.handleEvents (h : Inv w) (hp : w.phase = .idle) :
    Inv { w with fd := 0, phase := .read, call := w.call + 1 } := by
  have hpushed := h.pushed
  rw [World.batch, hp] at hpushed
  refine ⟨hpushed, h.number, fun _ => .inr (.inr rfl), fun c hc hd => ?_,
    fun c hc => (by cases hc), h.executed⟩
  have := (h.queued c hc hd).1
  exact ⟨Nat.le_succ_of_le this, fun _ => Nat.lt_succ_of_le this⟩

theorem Inv.atomicPopAll (h : Inv w) (hp : w.phase = .read) :
    Inv { w with callbacks := [], phase := .running w.callbacks false } := by
  have hpushed := h.pushed
  rw [World.batch, hp, List.append_nil] at hpushed
  refine ⟨?_, h.number, fun hn => absurd rfl hn, fun c hc => (by cases hc),
    fun c hc hd => ?_, h.executed⟩
  · show w.executed.map Prod.fst ++ w.callbacks ++ [] = _
    rw [List.append_nil, hpushed]
  · exact (h.queued c hc hd).2 hp

/-- Somebody is awake in another phase than before, if that is not the one between read and swap. -/
theorem Inv.awake_of_ne (h : Inv w) (hp : w.phase ≠ .read) (hn : w.callbacks ≠ []) :
    w.posting ≠ [] ∨ w.readable := by
  rcases h.awake hn with ha | ha | ha
  · exact .inl ha
  · exact .inr ha
  · exact absurd ha hp

theorem Inv.executeFirst (h : Inv w) {c : Callback} {batch : List Callback}
    (hp : w.phase = .running (c :: batch) false) :
    Inv { w with phase := .running batch true, executed := w.executed ++ [(c, w.call)] } := by
  have hb := batch_running hp
  have hpushed := h.pushed
  rw [hb] at hpushed
  refine ⟨?_, h.number, fun hn => (h.awake_of_ne (by simp [hp]) hn).imp_right .inl,
    fun c hc hd => ⟨(h.queued c hc hd).1, fun hr => by cases hr⟩, fun c hc => ?_, fun x hx => ?_⟩
  · show (w.executed ++ [(c, w.call)]).map Prod.fst ++ batch ++ w.callbacks = _
    rw [← hpushed]
    simp
  · exact h.batch c (by rw [hb]; exact List.mem_cons_of_mem _ hc)
  · rcases List.mem_append.mp hx with hx | hx
    · exact h.executed x hx
    · rw [List.mem_singleton.mp hx]
      exact h.batch c (by rw [hb]; exact List.mem_cons_self)

/-- The steps between callbacks change the phase only. -/
theorem Inv.of_phase (h : Inv w) {p : Phase}
    (hb : World.batch { w with phase := p } = w.batch) (hr : p ≠ .read)
    (hw : w.phase ≠ .read) : Inv { w with phase := p } := by
  refine ⟨?_, h.number, fun hn => (h.awake_of_ne hw hn).imp_right .inl,
    fun c hc hd => ⟨(h.queued c hc hd).1, fun he => absurd he hr⟩, ?_, h.executed⟩
  · rw [hb]
    exact h.pushed
  · rw [hb]
    exact h.batch

theorem Inv.step {e : Event} (h : Inv w) (hs : step w e = some w') : Inv w' := by
  cases step_cases hs with
  | atomicPushBack t => exact h.atomicPushBack t
  | write t => exact ⟨h.pushed, h.number, fun _ => .inr (.inl (Nat.succ_pos _)), h.queued,
    h.batch, h.executed⟩
  | handleEvents hp => exact h.handleEvents hp
  | atomicPopAll hp => exact h.atomicPopAll hp
  | executeFirst c batch hp => exact h.executeFirst hp
  | returned batch hp => exact h.of_phase (batch_running hp).symm (by simp) (by simp [hp])
  | handled hp => exact h.of_phase (batch_running hp).symm (by simp) (by simp [hp])

theorem Inv.of_reach (h : sys.Reach Sys.always w) : Inv w :=
  h.invariant ⟨rfl, rfl, fun h => absurd rfl h, fun c hc => (by cases hc),
    fun c hc => (by cases hc),
    fun x hx => (by cases hx)⟩ fun _ _ _ hi _ => hi.step

theorem Inv.run {es : List Event} (h : Inv w)
    (hr : sys.run Sys.always w es = some w') : Inv w' := by
  induction es generalizing w with
  | nil => cases hr; exact h
  | cons e es ih =>
    simp only [Sys.run] at hr
    split at hr
    · obtain ⟨v, hv, hr⟩ := Option.bind_eq_some_iff.mp hr
      exact ih (h.step hv) hr
    · cases hr

/-! ## Progress -/

/-- A step that no client decides: a poster goes on to its write, and the thread of the engine goes
on. The engine calls `handleEvents` when the eventfd is readable. -/
def Forced (w : World) : Event → Prop
  | .atomicPushBack _ => False
  | .handleEvents => w.readable
  | _ => True

/-- A step of `handleEvents`. -/
def Event.ofHandler : Event → Bool
  | .atomicPushBack _ | .write _ => false
  | _ => true

/-- A bound for the steps of `handleEvents` until the first `n` callbacks are executed. Each of them
takes two; a batch that does not reach them all is followed by one more call. -/
def World.due (w : World) (n : Nat) : Nat :=
  2 * (n - w.executed.length) + match w.phase with
    | .idle => 2
    | .read => 1
    | .running batch inside => inside.toNat + if w.executed.length + batch.length < n then 3 else 0

theorem step_due {e : Event} {n : Nat} (h : Inv w) (hn : n ≤ w.pushed.length)
    (hs : step w e = some w') :
    n ≤ w'.executed.length ∨ w'.due n + e.ofHandler.toNat ≤ w.due n := by
  by_cases hd : n ≤ w'.executed.length
  · exact .inl hd
  refine .inr ?_
  cases step_cases hs with
  | atomicPushBack t => exact Nat.le_refl _
  | write t => exact Nat.le_refl _
  | handleEvents hp =>
    simp only [World.due, hp, Event.ofHandler, Bool.toNat_true]
    omega
  | atomicPopAll hp =>
    -- The swap takes everything that was pushed so far.
    have hl : w.executed.length + w.callbacks.length = w.pushed.length := by
      rw [← h.pushed]
      simp [World.batch, hp]
    simp only [World.due, hp, Event.ofHandler, Bool.toNat_true, Bool.toNat_false]
    split <;> omega
  | executeFirst c batch hp =>
    have hl : (w.executed ++ [(c, w.call)]).length = w.executed.length + 1 := by simp
    have he : w.executed.length + 1 + batch.length = w.executed.length +
      (batch.length + 1) := by omega
    simp only [hl] at hd
    simp only [World.due, hp, Event.ofHandler, Bool.toNat_true, Bool.toNat_false, hl, he,
      List.length_cons]
    omega
  | returned batch hp =>
    simp only [World.due, hp, Event.ofHandler, Bool.toNat_true, Bool.toNat_false]
    omega
  | handled hp =>
    have hlt : w.executed.length < n := Nat.lt_of_not_le hd
    simp only [World.due, hp, Event.ofHandler, Bool.toNat_true, Bool.toNat_false, List.length_nil]
    split <;> omega

/-- Executed callbacks stay so, and so do pushed ones. -/
theorem step_grows {e : Event} (hs : step w e = some w') :
    w.executed.length ≤ w'.executed.length ∧ w.pushed <+: w'.pushed := by
  cases step_cases hs with
  | atomicPushBack t => exact ⟨Nat.le_refl _, List.prefix_append _ _⟩
  | executeFirst c batch => exact ⟨by simp, List.prefix_refl _⟩
  | _ => exact ⟨Nat.le_refl _, List.prefix_refl _⟩

theorem run_grows {es : List Event} (hr : sys.run Sys.always w es = some w') :
    w.executed.length ≤ w'.executed.length ∧ w.pushed <+: w'.pushed := by
  induction es generalizing w with
  | nil =>
    cases hr
    exact ⟨Nat.le_refl _, List.prefix_refl _⟩
  | cons e es ih =>
    simp only [Sys.run] at hr
    split at hr
    · obtain ⟨v, hv, hr⟩ := Option.bind_eq_some_iff.mp hr
      obtain ⟨he, hp⟩ := step_grows hv
      obtain ⟨he', hp'⟩ := ih hr
      exact ⟨Nat.le_trans he he', hp.trans hp'⟩
    · cases hr

/-- Along every run, whatever else is posted. -/
theorem run_due {n : Nat} {es : List Event} (h : Inv w) (hn : n ≤ w.pushed.length)
    (hr : sys.run Sys.always w es = some w') :
    n ≤ w'.executed.length ∨ w'.due n + es.countP Event.ofHandler ≤ w.due n := by
  induction es generalizing w with
  | nil =>
    cases hr
    exact .inr (Nat.le_refl _)
  | cons e es ih =>
    simp only [Sys.run] at hr
    split at hr
    · obtain ⟨v, hv, hr⟩ := Option.bind_eq_some_iff.mp hr
      obtain ⟨-, hp⟩ := step_grows hv
      have hi := ih (h.step hv) (Nat.le_trans hn hp.length_le) hr
      rcases step_due h hn hv with hd | hd
      · exact .inl (Nat.le_trans hd (run_grows hr).1)
      · refine hi.imp_right fun hi => ?_
        rw [List.countP_cons]
        cases hc : e.ofHandler <;> simp [hc] at hd ⊢ <;> omega
    · cases hr

/-- Where no forced step is possible everything is executed. -/
theorem Inv.stuck (h : Inv w) (hs : ∀ e, Forced w e → EventFD.step w e = none) :
    w.executed.map Prod.fst = w.pushed := by
  have hposting : w.posting = [] := by
    refine List.eq_nil_iff_forall_not_mem.mpr fun t ht => ?_
    have := hs (.write t) trivial
    simp [EventFD.step, ht] at this
  have hidle : w.phase = .idle := by
    cases hp : w.phase with
    | idle => rfl
    | read =>
      have := hs .atomicPopAll trivial
      simp [EventFD.step, hp] at this
    | running batch inside =>
      cases inside with
      | true =>
        have := hs .returned trivial
        simp [EventFD.step, hp, hposting] at this
      | false =>
        cases batch with
        | nil =>
          have := hs .handled trivial
          simp [EventFD.step, hp] at this
        | cons c batch =>
          have := hs .executeFirst trivial
          simp [EventFD.step, hp] at this
  have hfd : ¬ w.readable := fun hr => by
    have := hs .handleEvents hr
    simp [EventFD.step, hidle, hposting] at this
  -- Nobody would ever execute a callback that is still queued now.
  have hcallbacks : w.callbacks = [] := by
    by_contra hn
    rcases h.awake hn with ha | ha | ha
    · exact ha hposting
    · exact hfd ha
    · rw [hidle] at ha
      cases ha
  have := h.pushed
  rw [World.batch, hidle, hcallbacks] at this
  simpa using this

/-- All that was pushed before is executed after so many steps of `handleEvents`. -/
theorem Inv.prefix_executed {es : List Event} (h : Inv w) (hr : sys.run Sys.always w es = some w')
    (hd : w.due w.pushed.length ≤ es.countP Event.ofHandler) :
    w.pushed <+: w'.executed.map Prod.fst := by
  have hl : w.pushed.length ≤ w'.executed.length := by
    rcases run_due h (Nat.le_refl _) hr with hl | hl
    · exact hl
    · simp only [World.due] at hd hl
      omega
  have hp := (run_grows hr).2
  rw [← (h.run hr).pushed, List.append_assoc] at hp
  exact List.prefix_of_prefix_length_le hp (List.prefix_append _ _) (by simpa using hl)

end Steps

/-! ## Every run -/

/-- **The callback queue**, in every reachable state. The callbacks were executed in the order of
their pushes, each once, and those that were not are in the batch or in the queue; one that was
posted while a batch was running was executed in a later call. While a callback is queued, the
eventfd is readable, unless a poster stands between its push and its write or `handleEvents` between
its read and its swap. As long as not all is executed, a poster can go on to its write, or the
engine has a step to make; and whatever else is posted, after `due` steps of `handleEvents` all that
was pushed before is executed. -/
theorem callbacks_executed_once (w : World) (h : sys.Reach Sys.always w) :
    w.executed.map Prod.fst ++ w.batch ++ w.callbacks = w.pushed ∧ w.pushed.Nodup ∧
    (∀ x ∈ w.executed, x.1.duringBatch = true → x.1.call < x.2) ∧
    (w.callbacks ≠ [] → w.posting = [] → w.phase ≠ .read → w.readable) ∧
    (w.executed.map Prod.fst ≠ w.pushed → ∃ e w', Forced w e ∧ step w e = some w') ∧
    ∀ es w', sys.run Sys.always w es = some w' → w.due w.pushed.length ≤ es.countP Event.ofHandler →
      w.pushed <+: w'.executed.map Prod.fst := by
  have hi := Inv.of_reach h
  refine ⟨hi.pushed, ?_, hi.executed, fun hn hp hr => ?_, fun hne => ?_,
    fun es w' hr hd => hi.prefix_executed hr hd⟩
  · have hn : (w.pushed.map Callback.number).Nodup := hi.number ▸ List.nodup_range
    exact hn.of_map _
  · rcases hi.awake hn with ha | ha | ha
    · exact absurd hp ha
    · exact ha
    · exact absurd ha hr
  · by_contra hno
    refine hne (hi.stuck fun e hf => ?_)
    cases hs : step w e with
    | none => rfl
    | some w' => exact absurd ⟨e, w', hf, hs⟩ hno

/-- A callback that posts another one: both are executed, in two calls. -/
theorem callbacks_executed_once_reposted : ∃ w, sys.Reach Sys.always w ∧
    w.executed.map (fun x => (x.1.number, x.1.duringBatch, x.2)) = [(0, false, 1),
      (1, true, 2)] ∧ w.pushed.Nodup ∧
    w.executed.map Prod.fst ++ w.batch ++ w.callbacks = w.pushed := by
  obtain ⟨w, hw, hb⟩ := Sys.reach_run_map (S := sys) (G := Sys.always)
    [.atomicPushBack (.other 0), .write (.other 0), .handleEvents, .atomicPopAll, .executeFirst,
      .atomicPushBack .engine, .write .engine, .returned, .handled, .handleEvents,
      .atomicPopAll, .executeFirst]
    (fun w => w.executed.map fun x => (x.1.number, x.1.duringBatch, x.2))
    (b := [(0, false, 1), (1, true, 2)]) (by decide)
  obtain ⟨hp, hn, -⟩ := callbacks_executed_once w hw
  exact ⟨w, hw, hb, hn, hp⟩

/-- Between the read and the swap a callback is queued, no poster is under way, and the eventfd is
not readable. -/
theorem eventfd_not_readable : ∃ w, sys.Reach Sys.always w ∧ w.callbacks ≠ [] ∧ w.posting = [] ∧
    ¬ w.readable := by
  obtain ⟨w, hw, hb⟩ := Sys.reach_run_map (S := sys) (G := Sys.always)
    [.atomicPushBack (.other 0), .write (.other 0), .handleEvents]
    (fun w => decide (w.callbacks ≠ [] ∧ w.posting = [] ∧ ¬ w.readable)) (b := true) (by decide)
  exact ⟨w, hw, of_decide_eq_true hb⟩

end EventFD
end Sdl
