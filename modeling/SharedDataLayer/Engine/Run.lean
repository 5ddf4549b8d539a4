import SharedDataLayer.Engine.EventFD

/-!
# The loop of the engine (`run` and `stop` of `src/engineimpl.cpp`)

`run` waits for events and handles them until a callback that `stop` has posted has set `stopped`;
then it resets `stopped` and returns. `stop` may be called by any thread, before `run`, during it,
or from inside a handler, and `handleEvents` may execute the callback before `run` is called.

The callback queue is that of `Engine/EventFD.lean`: its eventfd is one of the monitored
descriptors, and at most `others` descriptors are monitored beside it. `epoll_wait` has place for
all of them, so that it returns the eventfd exactly if it is readable. A signal interrupts it, and
then `epollWait` returns without an event. The handlers of the other descriptors are code of the
client: they post, and delete descriptors. Neither they nor the callbacks call `run` or
`handleEvents`.

The queue is made by the first post, in `getEventFD` and without a lock. Two threads that make the
first posts make two of them, and `run` before there is one throws if nothing else is monitored
(`Engine`). What is proved holds if one thread makes the first post before `run` is called and
before another thread posts (`OneFirstPost`).

* `Inv`: what `stopped` says about the callbacks since the last return.
* `step_measure`: a step of the engine in a `run` that is being stopped uses up a measure.
* `engine_reach`: the queue is there once and for all.
* `run_stops`: all of it, for every run.
-/

namespace Sdl
namespace EngineRun

open Spec EventFD

/-- A descriptor that `epoll_wait` returns. -/
inductive Source where
  | eventFD
  | other (fd : Nat)
  deriving DecidableEq

/-- Where the thread of the engine stands: in code outside of the engine, in `run` at the condition
of the loop, in the `epoll_wait` of `run`, or in the loop over the events, in `run` or in
`handleEvents`, with the events that are left. `inHandler` says whether the handler of another
descriptor is running. -/
inductive Place where
  | outside
  | condition
  | waiting
  | batch (inRun : Bool) (rest : List Source) (inHandler : Bool)
  deriving DecidableEq

structure World where
  ev : EventFD.World
  /-- The numbers of the callbacks that `stop` has posted. -/
  stops : List Nat
  stopped : Bool
  place : Place
  /-- The callbacks that were executed since the last return of `run`. -/
  since : List Nat
  /-- For each return of `run`, those that were executed since the one before. -/
  returns : List (List Nat)

namespace World

/-- The thread of the engine runs code of the client. -/
def inClient (w : World) : Bool :=
  match w.place, w.ev.phase with
  | .outside, _ | .batch _ _ true, _ | .batch _ _ false, .running _ true => true
  | _, _ => false

/-- `run` has been called, and has not returned. -/
def inRun (w : World) : Bool :=
  match w.place with
  | .outside => false
  | .condition | .waiting => true
  | .batch inRun _ _ => inRun

/-- What `epoll_wait` may return. -/
def Ready (others : Nat) (w : World) (ready : List Source) : Prop :=
  ready.Nodup ∧ (.eventFD ∈ ready ↔ w.ev.readable) ∧ ready.length ≤ others + 1

instance (others : Nat) (w : World) (ready : List Source) : Decidable (w.Ready others ready) :=
  inferInstanceAs (Decidable (_ ∧ _ ∧ _))

/-- The condition of the loop of `run`, and what follows the loop. -/
def condition (w : World) : World :=
  if w.stopped then
    { w with stopped := false, place := .outside, since := [], returns := w.returns ++ [w.since] }
  else { w with place := .waiting }

/-- The next event of `epollWait`, or the end of its loop. -/
def turn (w : World) (inRun : Bool) : List Source → Option World
  | [] => some { w with place := if inRun then .condition else .outside }
  | .other _ :: rest => some { w with place := .batch inRun rest true }
  | .eventFD :: rest => (EventFD.step w.ev .handleEvents).map fun ev =>
    { w with ev := ev, place := .batch inRun rest false }

/-- The callback `n` is executed. One of `stop` sets `stopped`. -/
def execute (w : World) (n : Nat) : World :=
  { w with stopped := w.stopped || decide (n ∈ w.stops), since := w.since ++ [n] }

end World

inductive Event where
  /-- A thread posts a callback, by `stop` or otherwise: the push. -/
  | post (t : Thread) (isStop : Bool)
  /-- The write of `post`. -/
  | write (t : Thread)
  /-- `deleteMonitoredFD` in a handler or a callback. -/
  | deleteMonitoredFD (fd : Nat)
  | run
  | handleEvents (ready : List Source)
  | condition
  /-- `epoll_wait` returns in `run`: after a signal, or with events. -/
  | interrupted
  | ready (ready : List Source)
  | turn
  /-- The handler of another descriptor returns. -/
  | handlerReturned
  | atomicPopAll
  | executeFirst
  /-- A callback returns. -/
  | returned
  /-- The handler of the eventfd returns. -/
  | handled

def step (others : Nat) (w : World) : Event → Option World
  | .post t isStop =>
    if t = .engine → w.inClient = true then
      (EventFD.step w.ev (.atomicPushBack t)).map fun ev =>
        { w with ev := ev, stops := if isStop then w.stops ++ [w.ev.pushed.length] else w.stops }
    else none
  | .write t => (EventFD.step w.ev (.write t)).map fun ev => { w with ev := ev }
  | .deleteMonitoredFD fd =>
    match w.place, w.inClient with
    | .batch inRun rest inHandler, true =>
      some { w with place := .batch inRun (rest.erase (.other fd)) inHandler }
    | _, _ => none
  | .run => if w.place = .outside ∧ .engine ∉ w.ev.posting then
    some { w with place := .condition } else none
  | .handleEvents ready =>
    if w.place = .outside ∧ .engine ∉ w.ev.posting ∧ w.Ready others ready then
      some { w with place := .batch false ready false }
    else none
  | .condition => if w.place = .condition then some w.condition else none
  | .interrupted => if w.place = .waiting then some { w with place := .condition } else none
  | .ready ready =>
    if w.place = .waiting ∧ w.Ready others ready ∧
      ready ≠ [] then some { w with place := .batch true ready false }
    else none
  | .turn =>
    match w.place, w.ev.phase with
    | .batch inRun rest false, .idle => w.turn inRun rest
    | _, _ => none
  | .handlerReturned =>
    match w.place with
    | .batch inRun rest true => if .engine ∉ w.ev.posting then
      some { w with place := .batch inRun rest false } else none
    | _ => none
  | .atomicPopAll => (EventFD.step w.ev .atomicPopAll).map fun ev => { w with ev := ev }
  | .executeFirst =>
    match w.ev.phase with
    | .running (c :: _) false => (EventFD.step w.ev .executeFirst).map fun ev =>
      { w.execute c.number with ev := ev }
    | _ => none
  | .returned => (EventFD.step w.ev .returned).map fun ev => { w with ev := ev }
  | .handled => (EventFD.step w.ev .handled).map fun ev => { w with ev := ev }

/-- An engine that has not run yet. -/
def sys (others : Nat) : Sys World Event where
  init := ⟨EventFD.sys.init, [], false, .outside, [], []⟩
  step := step others

/-! ## Steps -/

/-- What each event does where it can happen. -/
inductive Step (others : Nat) (w : World) : Event → World → Prop
  | post (t : Thread) (isStop : Bool) {ev : EventFD.World}
    (hs : EventFD.step w.ev (.atomicPushBack t) = some ev) :
    Step others w (.post t isStop)
      { w with ev := ev, stops := if isStop then w.stops ++ [w.ev.pushed.length] else w.stops }
  | write (t : Thread) {ev : EventFD.World} (hs : EventFD.step w.ev (.write t) = some ev) :
    Step others w (.write t) { w with ev := ev }
  | deleteMonitoredFD (fd : Nat) {inRun inHandler : Bool} {rest : List Source} (hp : w.place =
    .batch inRun rest inHandler) :
    Step others w (.deleteMonitoredFD fd)
      { w with place := .batch inRun (rest.erase (.other fd)) inHandler }
  | run (hp : w.place = .outside) : Step others w .run { w with place := .condition }
  | handleEvents {ready : List Source} (hp : w.place = .outside) (hr : w.Ready others ready) :
    Step others w (.handleEvents ready) { w with place := .batch false ready false }
  | stop (hp : w.place = .condition) (hs : w.stopped = true) :
    Step others w .condition
      { w with stopped := false, place := .outside, since := [], returns := w.returns ++ [w.since] }
  | wait (hp : w.place = .condition) (hs : w.stopped = false) : Step others w .condition
    { w with place := .waiting }
  | interrupted (hp : w.place = .waiting) : Step others w .interrupted
    { w with place := .condition }
  | ready {ready : List Source} (hp : w.place = .waiting) (hr : w.Ready others ready) :
    Step others w (.ready ready) { w with place := .batch true ready false }
  | finished {inRun : Bool} (hp : w.place = .batch inRun [] false) (hi : w.ev.phase = .idle) :
    Step others w .turn { w with place := if inRun then .condition else .outside }
  | other {inRun : Bool} {fd : Nat} {rest : List Source} (hp : w.place =
    .batch inRun (.other fd :: rest) false)
    (hi : w.ev.phase = .idle) : Step others w .turn { w with place := .batch inRun rest true }
  | eventFD {inRun : Bool} {rest : List Source} (hp : w.place =
    .batch inRun (.eventFD :: rest) false)
    {ev : EventFD.World} (hs : EventFD.step w.ev .handleEvents = some ev) :
    Step others w .turn { w with ev := ev, place := .batch inRun rest false }
  | handlerReturned {inRun : Bool} {rest : List Source} (hp : w.place = .batch inRun rest true) :
    Step others w .handlerReturned { w with place := .batch inRun rest false }
  | atomicPopAll {ev : EventFD.World} (hs : EventFD.step w.ev .atomicPopAll = some ev) :
    Step others w .atomicPopAll { w with ev := ev }
  | executeFirst {c : Callback} {batch : List Callback} (hp : w.ev.phase =
    .running (c :: batch) false)
    {ev : EventFD.World} (hs : EventFD.step w.ev .executeFirst = some ev) :
    Step others w .executeFirst { w.execute c.number with ev := ev }
  | returned {ev : EventFD.World} (hs : EventFD.step w.ev .returned = some ev) :
    Step others w .returned { w with ev := ev }
  | handled {ev : EventFD.World} (hs : EventFD.step w.ev .handled = some ev) :
    Step others w .handled { w with ev := ev }

section Steps

variable {others : Nat} {w w' : World}

theorem step_cases {e : Event} (hs : step others w e = some w') : Step others w e w' := by
  cases e with
  | post t isStop =>
    obtain ⟨-, hs⟩ := Option.ite_none_right_eq_some.mp hs
    obtain ⟨ev, hev, rfl⟩ := Option.map_eq_some_iff.mp hs
    exact .post t isStop hev
  | write t =>
    obtain ⟨ev, hev, rfl⟩ := Option.map_eq_some_iff.mp hs
    exact .write t hev
  | deleteMonitoredFD fd =>
    simp only [step] at hs
    split at hs <;> cases hs
    exact .deleteMonitoredFD fd ‹_›
  | run =>
    obtain ⟨h, hw⟩ := Option.ite_none_right_eq_some.mp hs
    cases hw
    exact .run h.1
  | handleEvents ready =>
    obtain ⟨h, hw⟩ := Option.ite_none_right_eq_some.mp hs
    cases hw
    exact .handleEvents h.1 h.2.2
  | condition =>
    obtain ⟨h, hw⟩ := Option.ite_none_right_eq_some.mp hs
    cases hw
    unfold World.condition
    split
    · exact .stop h ‹_›
    · exact .wait h (Bool.eq_false_iff.mpr ‹_›)
  | interrupted =>
    obtain ⟨h, hw⟩ := Option.ite_none_right_eq_some.mp hs
    cases hw
    exact .interrupted h
  | ready ready =>
    obtain ⟨h, hw⟩ := Option.ite_none_right_eq_some.mp hs
    cases hw
    exact .ready h.1 h.2.1
  | turn =>
    simp only [step] at hs
    split at hs
    · rename_i inRun rest hp hi
      cases rest with
      | nil =>
        cases hs
        exact .finished hp hi
      | cons s rest =>
        cases s with
        | other fd =>
          cases hs
          exact .other hp hi
        | eventFD =>
          obtain ⟨ev, hev, rfl⟩ := Option.map_eq_some_iff.mp hs
          exact .eventFD hp hev
    · cases hs
  | handlerReturned =>
    simp only [step] at hs
    split at hs
    · obtain ⟨-, hw⟩ := Option.ite_none_right_eq_some.mp hs
      cases hw
      exact .handlerReturned ‹_›
    · cases hs
  | atomicPopAll =>
    obtain ⟨ev, hev, rfl⟩ := Option.map_eq_some_iff.mp hs
    exact .atomicPopAll hev
  | executeFirst =>
    simp only [step] at hs
    split at hs
    · obtain ⟨ev, hev, rfl⟩ := Option.map_eq_some_iff.mp hs
      exact .executeFirst ‹_› hev
    · cases hs
  | returned =>
    obtain ⟨ev, hev, rfl⟩ := Option.map_eq_some_iff.mp hs
    exact .returned hev
  | handled =>
    obtain ⟨ev, hev, rfl⟩ := Option.map_eq_some_iff.mp hs
    exact .handled hev

end Steps

/-! ## The invariant -/

/-- The eventfd has at most one turn in a batch. In a batch of `run` nothing has stopped the engine
before it, and nothing has when `run` waits. -/
def PlaceOk (others : Nat) (phase : Phase) (stopped : Bool) : Place → Prop
  | .outside | .condition => phase = .idle
  | .waiting => phase = .idle ∧ stopped = false
  | .batch inRun rest inHandler =>
    rest.Nodup ∧ rest.length ≤ others + 1 ∧ (inHandler = true → phase = .idle) ∧
      (phase ≠ .idle → .eventFD ∉ rest) ∧ (inRun = true → .eventFD ∈ rest → stopped = false)

structure Inv (others : Nat) (w : World) : Prop where
  ev : EventFD.Inv w.ev
  place : PlaceOk others w.ev.phase w.stopped w.place
  stops : ∀ n ∈ w.stops, n < w.ev.pushed.length
  executed : w.returns.flatten ++ w.since = w.ev.executed.map fun x => x.1.number
  stopped : w.stopped = true ↔ ∃ n ∈ w.since, n ∈ w.stops
  returns : ∀ l ∈ w.returns, ∃ n ∈ l, n ∈ w.stops

section Invariant

variable {others : Nat} {w w' : World}

/-- The callbacks are executed in the order of their numbers. -/
theorem executed_numbers {v : EventFD.World} (h : EventFD.Inv v) :
    (v.executed.map fun x => x.1.number) = List.range v.executed.length ∧
      v.executed.length + v.batch.length + v.callbacks.length = v.pushed.length := by
  have hl : v.executed.length + v.batch.length + v.callbacks.length = v.pushed.length := by
    rw [← h.pushed]
    simp [Nat.add_assoc]
  refine ⟨?_, hl⟩
  have ht := congrArg (List.take v.executed.length) h.number
  rw [← h.pushed, List.append_assoc, List.map_append, List.take_left' (by simp), List.map_map,
    List.take_range, List.length_append, List.length_map,
    Nat.min_eq_left (Nat.le_add_right _ _)] at ht
  exact ht

/-- The next callback of the batch has the next number. -/
theorem number_first {v : EventFD.World} (h : EventFD.Inv v) {c : Callback}
    {batch : List Callback} {inside : Bool}
    (hp : v.phase = .running (c :: batch) inside) : c.number = v.executed.length := by
  have hpushed := h.pushed
  rw [batch_running hp, List.append_assoc, List.cons_append] at hpushed
  have hn : (v.pushed.map Callback.number)[v.executed.length]? = some c.number := by
    rw [← hpushed, List.map_append, List.getElem?_append_right (by simp)]
    simp
  have hlt : v.executed.length < v.pushed.length := by
    rw [← hpushed]
    simp
  rw [h.number, List.getElem?_range hlt] at hn
  exact (Option.some.inj hn).symm

theorem Inv.since_lt (h : Inv others w) {n : Nat} (hn : n ∈ w.since) : n < w.ev.pushed.length := by
  have hm : n ∈ w.returns.flatten ++ w.since := List.mem_append_right _ hn
  obtain ⟨hr, hl⟩ := executed_numbers h.ev
  rw [h.executed, hr, List.mem_range] at hm
  omega

/-- The step leaves `stopped` and the executed callbacks. -/
theorem Inv.withEv (h : Inv others w) {ev : EventFD.World} {e : EventFD.Event}
    (hs : EventFD.step w.ev e = some ev)
    (hx : ev.executed = w.ev.executed) {p : Place} (hp : PlaceOk others ev.phase w.stopped p) :
    Inv others { w with ev := ev, place := p } := by
  refine ⟨h.ev.step hs, hp, fun n hn => ?_, ?_, h.stopped, h.returns⟩
  · exact Nat.lt_of_lt_of_le (h.stops n hn) (EventFD.step_grows hs).2.length_le
  · show _ = List.map _ ev.executed
    rw [hx]
    exact h.executed

theorem Inv.withPlace (h : Inv others w) {p : Place} (hp : PlaceOk others w.ev.phase w.stopped p) :
    Inv others { w with place := p } :=
  ⟨h.ev, hp, h.stops, h.executed, h.stopped, h.returns⟩

/-- The phase of the queue changes, and not to the beginning of a turn. -/
theorem PlaceOk.phase {phase phase' : Phase} {stopped : Bool} {p : Place}
    (h : PlaceOk others phase stopped p)
    (hn : phase ≠ .idle) : PlaceOk others phase' stopped p := by
  cases p with
  | outside | condition => exact absurd h hn
  | waiting => exact absurd h.1 hn
  | batch inRun rest inHandler =>
    obtain ⟨hnd, hl, hi, he, hf⟩ := h
    exact ⟨hnd, hl, fun hh => absurd (hi hh) hn, fun _ => he hn, hf⟩

/-- During the turn of the eventfd. -/
theorem Inv.place_turn (h : Inv others w) (hn : w.ev.phase ≠ .idle) :
    ∃ inRun rest, w.place = .batch inRun rest false ∧ .eventFD ∉ rest := by
  have hplace := h.place
  cases hp : w.place with
  | outside | condition => rw [hp] at hplace; exact absurd hplace hn
  | waiting => rw [hp] at hplace; exact absurd hplace.1 hn
  | batch inRun rest inHandler =>
    rw [hp] at hplace
    obtain ⟨-, -, hi, he, -⟩ := hplace
    cases inHandler with
    | true => exact absurd (hi rfl) hn
    | false => exact ⟨inRun, rest, rfl, he hn⟩

/-- A post leaves the callbacks of `stop`. -/
theorem mem_stops_post (isStop : Bool) {n m : Nat} {stops : List Nat} (hn : n ∈ stops) :
    n ∈ if isStop then stops ++ [m] else stops := by
  split
  · exact List.mem_append_left _ hn
  · exact hn

theorem Inv.post (h : Inv others w) {t : Thread} {isStop : Bool} {ev : EventFD.World}
    (hs : EventFD.step w.ev (.atomicPushBack t) = some ev) :
    Inv others { w with ev := ev, stops := if isStop then w.stops ++ [w.ev.pushed.length]
      else w.stops } := by
  have hev := h.ev.step hs
  cases EventFD.step_cases hs with
  | atomicPushBack _ ht =>
    have hlen : (w.ev.push t).pushed.length = w.ev.pushed.length + 1 := by simp [EventFD.World.push]
    have hsub : ∀ n ∈ w.stops, n ∈ if isStop then w.stops ++ [w.ev.pushed.length] else w.stops :=
      fun n => mem_stops_post isStop
    refine ⟨hev, h.place, fun n hn => ?_, h.executed, ?_, fun l hl => ?_⟩
    · show n < (w.ev.push t).pushed.length
      rw [hlen]
      simp only at hn
      split at hn
      · rcases List.mem_append.mp hn with hn | hn
        · exact Nat.lt_succ_of_lt (h.stops n hn)
        · rw [List.mem_singleton.mp hn]
          exact Nat.lt_succ_self _
      · exact Nat.lt_succ_of_lt (h.stops n hn)
    · -- The new callback is not among those that were executed.
      rw [h.stopped]
      constructor
      · rintro ⟨n, hn, hst⟩
        exact ⟨n, hn, hsub n hst⟩
      · rintro ⟨n, hn, hst⟩
        refine ⟨n, hn, ?_⟩
        simp only at hst
        split at hst
        · refine (List.mem_append.mp hst).resolve_right fun he => ?_
          have := h.since_lt hn
          rw [List.mem_singleton.mp he] at this
          exact Nat.lt_irrefl _ this
        · exact hst
    · obtain ⟨n, hn, hst⟩ := h.returns l hl
      exact ⟨n, hn, hsub n hst⟩

theorem Inv.executeFirst (h : Inv others w) {c : Callback} {batch : List Callback}
    (hp : w.ev.phase = .running (c :: batch) false) {ev : EventFD.World}
    (hs : EventFD.step w.ev .executeFirst = some ev) :
    Inv others { w.execute c.number with ev := ev } := by
  have hev := h.ev.step hs
  have hplace := h.place
  cases EventFD.step_cases hs with
  | executeFirst c' batch' hp' =>
    rw [hp] at hp'
    cases hp'
    refine ⟨hev, ?_, h.stops, ?_, ?_, h.returns⟩
    · -- The eventfd has its turn, and no further one in this batch.
      show PlaceOk others (.running batch true) (w.stopped || decide (c.number ∈ w.stops)) w.place
      obtain ⟨inRun, rest, hb, he⟩ := h.place_turn (by simp [hp])
      rw [hb] at hplace ⊢
      obtain ⟨hnd, hl, -⟩ := hplace
      exact ⟨hnd, hl, fun hh => (by cases hh), fun _ => he, fun _ hm => absurd hm he⟩
    · show w.returns.flatten ++ (w.since ++ [c.number]) = (w.ev.executed ++ [(c, w.ev.call)]).map _
      rw [← List.append_assoc, h.executed, List.map_append]
      rfl
    · show (w.stopped || decide (c.number ∈ w.stops)) = true ↔
        ∃ n ∈ w.since ++ [c.number], n ∈ w.stops
      rw [Bool.or_eq_true, h.stopped, decide_eq_true_eq]
      simp only [List.mem_append, List.mem_singleton, or_and_right, exists_or, exists_eq_left]

theorem Inv.step {e : Event} (h : Inv others w) (hs : step others w e = some w') :
    Inv others w' := by
  have hplace := h.place
  cases step_cases hs with
  | post t isStop hev => exact h.post hev
  | write t hev =>
    cases EventFD.step_cases hev with
    | write _ ht => exact h.withEv hev rfl hplace
  | deleteMonitoredFD fd hp =>
    rw [hp] at hplace
    obtain ⟨hnd, hl, hi, he, hf⟩ := hplace
    exact h.withPlace ⟨hnd.erase _, Nat.le_trans List.length_erase_le hl, hi,
      fun hn hm => he hn (List.mem_of_mem_erase hm), fun hr hm => hf hr (List.mem_of_mem_erase hm)⟩
  | run hp =>
    rw [hp] at hplace
    exact h.withPlace hplace
  | handleEvents hp hr =>
    rw [hp] at hplace
    exact h.withPlace ⟨hr.1, hr.2.2, fun hh => (by cases hh), fun hn => absurd hplace hn,
      fun hr => (by cases hr)⟩
  | stop hp hstop =>
    rw [hp] at hplace
    refine ⟨h.ev, hplace, h.stops, ?_, by simp, fun l hl => ?_⟩
    · show (w.returns ++ [w.since]).flatten ++ [] = _
      rw [List.append_nil, List.flatten_append, List.flatten_singleton]
      exact h.executed
    · rcases List.mem_append.mp hl with hl | hl
      · exact h.returns l hl
      · rw [List.mem_singleton.mp hl]
        exact h.stopped.mp hstop
  | wait hp hstop =>
    rw [hp] at hplace
    exact h.withPlace ⟨hplace, hstop⟩
  | interrupted hp =>
    rw [hp] at hplace
    exact h.withPlace hplace.1
  | ready hp hr =>
    rw [hp] at hplace
    exact h.withPlace ⟨hr.1, hr.2.2, fun hh => (by cases hh), fun hn => absurd hplace.1 hn,
      fun _ _ => hplace.2⟩
  | finished hp hi =>
    refine h.withPlace ?_
    split
    · exact hi
    · exact hi
  | other hp hi =>
    rw [hp] at hplace
    obtain ⟨hnd, hl, -, -, hf⟩ := hplace
    exact h.withPlace ⟨(List.nodup_cons.mp hnd).2, Nat.le_of_succ_le hl, fun _ => hi,
      fun hn => absurd hi hn, fun hr hm => hf hr (List.mem_cons_of_mem _ hm)⟩
  | eventFD hp hev =>
    rw [hp] at hplace
    obtain ⟨hnd, hl, -, -, hf⟩ := hplace
    have hnd := List.nodup_cons.mp hnd
    cases EventFD.step_cases hev with
    | handleEvents hi ht =>
      exact h.withEv hev rfl ⟨hnd.2, Nat.le_of_succ_le hl, fun hh => (by cases hh), fun _ => hnd.1,
        fun _ hm => absurd hm hnd.1⟩
  | handlerReturned hp =>
    rw [hp] at hplace
    obtain ⟨hnd, hl, hi, he, hf⟩ := hplace
    exact h.withPlace ⟨hnd, hl, fun hh => (by cases hh), he, hf⟩
  | atomicPopAll hev =>
    cases EventFD.step_cases hev with
    | atomicPopAll hp => exact h.withEv hev rfl (hplace.phase (by simp [hp]))
  | executeFirst hp hev => exact h.executeFirst hp hev
  | returned hev =>
    cases EventFD.step_cases hev with
    | returned batch hp => exact h.withEv hev rfl (hplace.phase (by simp [hp]))
  | handled hev =>
    cases EventFD.step_cases hev with
    | handled hp => exact h.withEv hev rfl (hplace.phase (by simp [hp]))

theorem Inv.of_reach (h : (sys others).Reach Sys.always w) : Inv others w :=
  h.invariant ⟨EventFD.Inv.of_reach .init, rfl, fun n hn => (by cases hn), rfl, by simp [sys],
      fun l hl => (by cases hl)⟩
    fun _ _ _ hi _ => hi.step

end Invariant

/-! ## Progress -/

/-- The engine has been woken for the callback `n`, or has it in its batch. A write wakes it for all
that is queued. -/
def Signalled (v : EventFD.World) (n : Nat) : Prop :=
  v.readable ∨ v.phase = .read ∨ n < v.executed.length + v.batch.length

/-- A callback of `stop` is waiting, and the engine has been woken for it. -/
def World.Pending (w : World) : Prop :=
  ∃ n ∈ w.stops, w.ev.executed.length ≤ n ∧ Signalled w.ev n

/-- A `run` that is being stopped. -/
def World.Stopping (w : World) : Prop := w.inRun = true ∧ (w.stopped = true ∨ w.Pending)

/-- A step of the thread of the engine, in its own code or back to it. -/
def Event.ofEngine : Event → Bool
  | .post _ _ | .write _ | .deleteMonitoredFD _ | .interrupted => false
  | _ => true

/-- A step that makes more work for the engine: a further callback, or a signal. -/
def Event.delays : Event → Bool
  | .post _ _ | .interrupted => true
  | _ => false

/-- The steps that the rest of a turn of the eventfd takes. -/
def restOfTurn (v : EventFD.World) : Nat :=
  match v.phase with
  | .idle => 0
  | .read => 2 * v.callbacks.length + 2
  | .running batch inside => 2 * batch.length + inside.toNat + 1

/-- The steps until `run` returns after `stopped` was set. -/
def World.toReturn (w : World) : Nat :=
  match w.place with
  | .batch _ rest inHandler => 2 * rest.length + inHandler.toNat + restOfTurn w.ev + 2
  | _ => 1

/-- The steps of the queue until it has executed what is waiting. -/
def due (v : EventFD.World) : Nat :=
  2 * (v.pushed.length - v.executed.length) + match v.phase with
    | .idle => 2
    | .read => 1
    | .running _ inside => inside.toNat + if v.callbacks = [] then 0 else 3

/-- The steps of the loop until the next turn of the eventfd. -/
def World.toTurn (others : Nat) (w : World) : Nat :=
  match w.place with
  | .outside => 0
  | .condition => 2 * others + 4
  | .waiting => 2 * others + 3
  | .batch _ rest inHandler =>
    2 * rest.length + inHandler.toNat + if .eventFD ∈ rest then 0 else 2 * others + 5

/-- A bound for the steps until `run` returns. Between two steps of the queue the loop may go round
once. -/
def World.measure (others : Nat) (w : World) : Nat :=
  if w.stopped then w.toReturn else (2 * others + 6) * due w.ev + w.toTurn others

/-- What a step that makes more work adds. -/
def delay (others : Nat) : Nat := 5 * (2 * others + 6)

section Progress

variable {others : Nat} {w w' : World}

/-- The steps of a turn of the eventfd after its read. -/
theorem phase_ne_idle {v v' : EventFD.World} {e : EventFD.Event} (hs : EventFD.step v e = some v')
    (he : e.ofHandler = true) (hne : e ≠ .handleEvents) : v.phase ≠ .idle := by
  cases EventFD.step_cases hs with
  | atomicPushBack t ht | write t ht => cases he
  | handleEvents hp ht => exact absurd rfl hne
  | atomicPopAll hp | executeFirst c batch hp | returned batch hp | handled hp => simp [hp]

theorem restOfTurn_step {v v' : EventFD.World} {e : EventFD.Event} (hs : EventFD.step v e = some v')
    (he : e.ofHandler = true) (hn : v.phase ≠ .idle) : restOfTurn v' + 1 ≤ restOfTurn v := by
  cases EventFD.step_cases hs with
  | atomicPushBack t ht | write t ht => cases he
  | handleEvents hp ht => exact absurd hp hn
  | atomicPopAll hp => simp [restOfTurn, hp]
  | executeFirst c batch hp =>
    simp only [restOfTurn, hp, List.length_cons, Bool.toNat_true, Bool.toNat_false]
    omega
  | returned batch hp =>
    simp only [restOfTurn, hp, Bool.toNat_true, Bool.toNat_false]
    omega
  | handled hp => simp [restOfTurn, hp]

/-- After `stopped` was set the loop ends. -/
theorem step_toReturn {e : Event} (h : Inv others w) (hr : w.inRun = true) (hst : w.stopped = true)
    (hs : step others w e = some w') :
    w.returns.length < w'.returns.length ∨
      (w'.inRun = true ∧ w'.stopped = true ∧ w'.returns = w.returns ∧
        w'.toReturn + e.ofEngine.toNat ≤ w.toReturn + if e.delays then 2 else 0) := by
  have hplace := h.place
  cases step_cases hs with
  | post t isStop hev =>
    cases EventFD.step_cases hev with
    | atomicPushBack _ ht =>
      refine .inr ⟨hr, hst, rfl, ?_⟩
      -- Between the read and the swap a further callback comes into the batch.
      have hq : restOfTurn (w.ev.push t) ≤ restOfTurn w.ev + 2 := by
        simp only [restOfTurn, EventFD.World.push, List.length_append, List.length_singleton]
        split <;> omega
      simp only [World.toReturn, Event.ofEngine, Event.delays, if_true, Bool.toNat_false]
      split <;> omega
  | write t hev =>
    cases EventFD.step_cases hev with
    | write _ ht => exact .inr ⟨hr, hst, rfl, Nat.le_refl _⟩
  | deleteMonitoredFD fd hp =>
    rename_i inRun inHandler rest
    have hl : (rest.erase (.other fd)).length ≤ rest.length := List.length_erase_le
    rw [World.inRun, hp] at hr
    refine .inr ⟨hr, hst, rfl, ?_⟩
    simp only [World.toReturn, hp, Event.ofEngine, Event.delays, Bool.toNat_false]
    omega
  | run hp | handleEvents hp =>
    rw [World.inRun, hp] at hr
    cases hr
  | stop hp hstop => exact .inl (by simp)
  | wait hp hstop =>
    rw [hst] at hstop
    cases hstop
  | interrupted hp | ready hp =>
    rw [hp] at hplace
    rw [hplace.2] at hst
    cases hst
  | finished hp hi =>
    rw [World.inRun, hp] at hr
    cases hr
    refine .inr ⟨rfl, hst, rfl, ?_⟩
    simp [World.toReturn, restOfTurn, hp, hi, Event.ofEngine, Event.delays]
  | other hp hi =>
    rw [World.inRun, hp] at hr
    refine .inr ⟨hr, hst, rfl, ?_⟩
    simp only [World.toReturn, hp, List.length_cons, Event.ofEngine, Event.delays, Bool.toNat_true,
      Bool.toNat_false]
    omega
  | eventFD hp hev =>
    rw [World.inRun, hp] at hr
    rw [hp] at hplace
    obtain ⟨-, -, -, -, hf⟩ := hplace
    rw [hf hr List.mem_cons_self] at hst
    cases hst
  | handlerReturned hp =>
    rw [World.inRun, hp] at hr
    refine .inr ⟨hr, hst, rfl, ?_⟩
    simp only [World.toReturn, hp, Event.ofEngine, Event.delays, Bool.toNat_true, Bool.toNat_false]
    omega
  | executeFirst hp hev =>
    obtain ⟨inRun, rest, hb, -⟩ := h.place_turn (by simp [hp])
    have hq := restOfTurn_step hev rfl (by simp [hp])
    refine .inr ⟨hr, by simp [World.execute, hst], rfl, ?_⟩
    simp only [World.toReturn, World.execute, hb, Event.ofEngine, Event.delays, Bool.toNat_true]
    omega
  | atomicPopAll hev | returned hev | handled hev =>
    have hn := phase_ne_idle hev rfl (by simp)
    obtain ⟨inRun, rest, hb, -⟩ := h.place_turn hn
    have hq := restOfTurn_step hev rfl hn
    refine .inr ⟨hr, hst, rfl, ?_⟩
    simp only [World.toReturn, hb, Event.ofEngine, Event.delays, Bool.toNat_true]
    omega

section Queue

variable {v v' : EventFD.World} {n : Nat}

/-- The engine stays woken for a callback until it has executed it. -/
theorem Signalled.step (h : Signalled v n) (hi : EventFD.Inv v) {e : EventFD.Event}
    (hs : EventFD.step v e = some v')
    (hn : n < v.pushed.length) (hx : v'.executed.length ≤ n) : Signalled v' n := by
  obtain ⟨-, hl⟩ := executed_numbers hi
  cases EventFD.step_cases hs with
  | atomicPushBack t ht => exact h
  | write t ht => exact .inl (Nat.succ_pos _)
  | handleEvents hp ht => exact .inr (.inl rfl)
  | atomicPopAll hp =>
    -- The swap takes everything that was pushed so far.
    rw [EventFD.World.batch, hp, List.length_nil] at hl
    refine .inr (.inr ?_)
    show n < v.executed.length + v.callbacks.length
    omega
  | executeFirst c batch hp =>
    rcases h with h | h | h
    · exact .inl h
    · rw [hp] at h
      cases h
    · rw [batch_running hp, List.length_cons] at h
      refine .inr (.inr ?_)
      show n < (v.executed ++ [(c, v.call)]).length + batch.length
      rw [List.length_append, List.length_singleton]
      omega
  | returned batch hp =>
    rcases h with h | h | h
    · exact .inl h
    · rw [hp] at h
      cases h
    · rw [batch_running hp] at h
      exact .inr (.inr h)
  | handled hp =>
    rcases h with h | h | h
    · exact .inl h
    · rw [hp] at h
      cases h
    · rw [batch_running hp] at h
      exact absurd h (Nat.not_lt.mpr hx)

/-- For a callback that is not executed and not in a batch the engine is woken by the eventfd. -/
theorem Signalled.readable (h : Signalled v n) (hi : v.phase = .idle)
    (hx : v.executed.length ≤ n) : v.readable := by
  rcases h with h | h | h
  · exact h
  · rw [hi] at h
    cases h
  · rw [EventFD.World.batch, hi] at h
    exact absurd h (Nat.not_lt.mpr hx)

/-- The steps of the queue use up `due` as long as a callback is waiting. -/
theorem due_step (hi : EventFD.Inv v) {e : EventFD.Event} (he : e.ofHandler = true)
    (hs : EventFD.step v e = some v')
    (hn : n < v.pushed.length) (hx : v.executed.length ≤ n) : due v' + 1 ≤ due v := by
  obtain ⟨-, hl⟩ := executed_numbers hi
  cases EventFD.step_cases hs with
  | atomicPushBack t ht | write t ht => cases he
  | handleEvents hp ht => simp [due, hp]
  | atomicPopAll hp => simp [due, hp]
  | executeFirst c batch hp =>
    simp only [due, hp, List.length_append, List.length_singleton, Bool.toNat_true,
      Bool.toNat_false]
    omega
  | returned batch hp =>
    simp only [due, hp, Bool.toNat_true, Bool.toNat_false]
    omega
  | handled hp =>
    -- The batch is empty, so the callback is in the queue.
    have hc : v.callbacks ≠ [] := fun hc => by
      rw [batch_running hp, hc] at hl
      simp only [List.length_nil] at hl
      omega
    simp only [due, hp, if_neg hc, Bool.toNat_false]
    omega

theorem due_push (t : Thread) (hi : EventFD.Inv v) : due (v.push t) ≤ due v + 5 := by
  obtain ⟨-, hl⟩ := executed_numbers hi
  have hp : (v.push t).pushed.length = v.pushed.length + 1 := by simp [EventFD.World.push]
  have hx : (v.push t).executed = v.executed := rfl
  have hph : (v.push t).phase = v.phase := rfl
  simp only [due, hp, hx, hph]
  split
  · omega
  · omega
  · split <;> split <;> omega

end Queue

/-- A step of the queue. Before the next one the loop may go round once. -/
theorem measure_of_due {k : Nat} (hst : w.stopped = false) (hst' : w'.stopped = false)
    (hd : due w'.ev + 1 ≤ due w.ev)
    (ht : w'.toTurn others + k ≤ w.toTurn others + (2 * others + 6)) :
    w'.measure others + k ≤ w.measure others := by
  have hm := Nat.mul_le_mul_left (2 * others + 6) hd
  rw [Nat.mul_succ] at hm
  simp only [World.measure, hst, hst', Bool.false_eq_true, if_false]
  omega

/-- A step of the loop. -/
theorem measure_of_turn {k d : Nat} (hst : w.stopped = false) (hst' : w'.stopped = false)
    (hd : due w'.ev = due w.ev) (ht : w'.toTurn others + k ≤ w.toTurn others + d) :
    w'.measure others + k ≤ w.measure others + d := by
  simp only [World.measure, hst, hst', Bool.false_eq_true, if_false, hd]
  omega

/-- The callback that is waiting, after a step of the queue. -/
theorem World.Pending.step (hp : w.Pending) (h : Inv others w) {e : EventFD.Event}
    {ev : EventFD.World}
    (hs : EventFD.step w.ev e = some ev) (hx : ev.executed = w.ev.executed) {w' : World}
    (hev : w'.ev = ev) (hst : ∀ n ∈ w.stops, n ∈ w'.stops) : w'.Pending := by
  obtain ⟨n, hn, hw, hsig⟩ := hp
  subst hev
  exact ⟨n, hst n hn, hx ▸ hw, hsig.step h.ev hs (h.stops n hn) (hx ▸ hw)⟩

/-- The execution of a callback. -/
theorem step_executeFirst (h : Inv others w) (hr : w.inRun = true) (hst : w.stopped = false)
    (hpend : w.Pending)
    {c : Callback} {batch : List Callback} (hp : w.ev.phase = .running (c :: batch) false)
    {ev : EventFD.World} (hs : EventFD.step w.ev .executeFirst = some ev) :
    ({ w.execute c.number with ev := ev } : World).Stopping ∧
      World.measure others { w.execute c.number with ev := ev } + 1 ≤ w.measure others := by
  obtain ⟨n, hn, hx, hsig⟩ := hpend
  have hnum := number_first h.ev hp
  obtain ⟨-, hl⟩ := executed_numbers h.ev
  rw [batch_running hp, List.length_cons] at hl
  obtain ⟨inRun, rest, hb, he⟩ := h.place_turn (by simp [hp])
  have hdue := due_step h.ev rfl hs (h.stops n hn) hx
  have hsig' := fun hx' => hsig.step h.ev hs (h.stops n hn) hx'
  cases EventFD.step_cases hs with
  | executeFirst c' batch' hp' =>
    rw [hp] at hp'
    cases hp'
    by_cases hc : c.number ∈ w.stops
    · refine ⟨⟨hr, .inl (by simp [World.execute, hc])⟩, ?_⟩
      -- The rest of the batch was part of what was waiting.
      have hd : 2 * (batch.length + 1) ≤ due w.ev := by
        simp only [due, hp]
        omega
      have hm := Nat.mul_le_mul (Nat.le_add_left 6 (2 * others)) hd
      simp only [World.measure, World.execute, hst, decide_eq_true hc, Bool.or_true,
        Bool.false_eq_true, if_true, if_false,
        World.toReturn, World.toTurn, hb, restOfTurn, if_neg he, Bool.toNat_true, Bool.toNat_false]
      omega
    · have hst' : (w.execute c.number).stopped = false := by simp [World.execute, hst, hc]
      refine ⟨⟨hr, .inr ⟨n, hn, ?_⟩⟩, measure_of_due hst hst' hdue ?_⟩
      · have hne : w.ev.executed.length ≠ n := fun hne => hc (hnum ▸ hne ▸ hn)
        have hx' : (w.ev.executed ++ [(c, w.ev.call)]).length ≤ n := by
          rw [List.length_append, List.length_singleton]
          omega
        exact ⟨hx', hsig' hx'⟩
      · show World.toTurn others w + 1 ≤ _
        omega

/-- A step before the callback of `stop` is executed, or its execution. -/
theorem step_pending {e : Event} (h : Inv others w) (hr : w.inRun = true) (hst : w.stopped = false)
    (hpend : w.Pending) (hs : step others w e = some w') :
    w'.Stopping ∧ w'.returns = w.returns ∧
      w'.measure others + e.ofEngine.toNat ≤ w.measure others + if e.delays then
      delay others else 0 := by
  have hplace := h.place
  have hpend' := hpend
  obtain ⟨n, hn, hx, hsig⟩ := hpend
  have hlt := h.stops n hn
  cases step_cases hs with
  | post t isStop hev =>
    have hsub : ∀ n ∈ w.stops, n ∈ if isStop then w.stops ++ [w.ev.pushed.length] else w.stops :=
      fun n => mem_stops_post isStop
    cases EventFD.step_cases hev with
    | atomicPushBack _ ht =>
      refine ⟨⟨hr, .inr (hpend'.step h hev rfl rfl hsub)⟩, rfl, ?_⟩
      have hm := Nat.mul_le_mul_left (2 * others + 6) (due_push t h.ev)
      rw [Nat.mul_add] at hm
      simp only [World.measure, hst, Event.ofEngine, Event.delays, delay, Bool.false_eq_true,
        if_false, if_true, Bool.toNat_false, World.toTurn]
      omega
  | write t hev =>
    cases EventFD.step_cases hev with
    | write _ ht =>
      exact ⟨⟨hr, .inr (hpend'.step h hev rfl rfl fun _ hn => hn)⟩, rfl,
        measure_of_turn hst hst rfl (Nat.le_refl _)⟩
  | deleteMonitoredFD fd hp =>
    rename_i inRun inHandler rest
    have hl : (rest.erase (.other fd)).length ≤ rest.length := List.length_erase_le
    have hm : Source.eventFD ∈ rest.erase (.other fd) ↔ .eventFD ∈ rest :=
      List.mem_erase_of_ne (by simp)
    rw [World.inRun, hp] at hr
    refine ⟨⟨hr, .inr hpend'⟩, rfl, measure_of_turn hst hst rfl ?_⟩
    simp only [World.toTurn, hp, Event.ofEngine, Event.delays, hm, Bool.toNat_false]
    omega
  | run hp | handleEvents hp =>
    rw [World.inRun, hp] at hr
    cases hr
  | stop hp hstop =>
    rw [hst] at hstop
    cases hstop
  | wait hp hstop =>
    refine ⟨⟨rfl, .inr hpend'⟩, rfl, measure_of_turn hst hst rfl ?_⟩
    simp [World.toTurn, hp, Event.ofEngine, Event.delays]
  | interrupted hp =>
    refine ⟨⟨rfl, .inr hpend'⟩, rfl, measure_of_turn hst hst rfl ?_⟩
    simp only [World.toTurn, hp, Event.ofEngine, Event.delays, delay, if_true, Bool.toNat_false]
    omega
  | ready hp hready =>
    -- The engine has been woken for the callback, so the eventfd is among the descriptors.
    rw [hp] at hplace
    have hfd := hsig.readable hplace.1 hx
    refine ⟨⟨rfl, .inr hpend'⟩, rfl, measure_of_turn hst hst rfl ?_⟩
    simp only [World.toTurn, hp, if_pos (hready.2.1.mpr hfd), Event.ofEngine,
      Event.delays, Bool.toNat_true, Bool.toNat_false]
    have := hready.2.2
    omega
  | finished hp hi =>
    rw [World.inRun, hp] at hr
    cases hr
    refine ⟨⟨rfl, .inr hpend'⟩, rfl, measure_of_turn hst hst rfl ?_⟩
    simp [World.toTurn, hp, Event.ofEngine, Event.delays]
  | other hp hi =>
    rw [World.inRun, hp] at hr
    refine ⟨⟨hr, .inr hpend'⟩, rfl, measure_of_turn hst hst rfl ?_⟩
    simp only [World.toTurn, hp, List.length_cons, List.mem_cons, reduceCtorEq, false_or,
      Event.ofEngine, Event.delays, Bool.toNat_true, Bool.toNat_false]
    omega
  | eventFD hp hev =>
    rw [World.inRun, hp] at hr
    have hdue := due_step h.ev rfl hev hlt hx
    rw [hp] at hplace
    have hrest := (List.nodup_cons.mp hplace.1).1
    cases EventFD.step_cases hev with
    | handleEvents hi ht =>
      refine ⟨⟨hr, .inr (hpend'.step h hev rfl rfl fun _ hn => hn)⟩, rfl,
        measure_of_due hst hst hdue ?_⟩
      simp only [World.toTurn, hp, if_neg hrest, List.length_cons, List.mem_cons_self,
        if_true, Event.ofEngine, Bool.toNat_true, Bool.toNat_false]
      omega
  | handlerReturned hp =>
    rw [World.inRun, hp] at hr
    refine ⟨⟨hr, .inr hpend'⟩, rfl, measure_of_turn hst hst rfl ?_⟩
    simp only [World.toTurn, hp, Event.ofEngine, Event.delays, Bool.toNat_true, Bool.toNat_false]
    omega
  | executeFirst hp hev =>
    obtain ⟨hstop, hm⟩ := step_executeFirst h hr hst hpend' hp hev
    exact ⟨hstop, rfl, hm⟩
  | atomicPopAll hev | returned hev | handled hev =>
    have hdue := due_step h.ev rfl hev hlt hx
    rename_i ev
    have hexec : ev.executed = w.ev.executed := by
      cases EventFD.step_cases hev
      rfl
    refine ⟨⟨hr, .inr (hpend'.step h hev hexec rfl fun _ hn => hn)⟩, rfl,
      measure_of_due hst hst hdue ?_⟩
    show World.toTurn others w + 1 ≤ _
    omega

/-- `run` returns, or comes nearer to it. -/
theorem step_measure {e : Event} (h : Inv others w) (hst : w.Stopping)
    (hs : step others w e = some w') :
    w.returns.length < w'.returns.length ∨
      (w'.Stopping ∧ w'.returns = w.returns ∧
        w'.measure others + e.ofEngine.toNat ≤ w.measure others + if e.delays then
        delay others else 0) := by
  obtain ⟨hr, hst⟩ := hst
  cases hstop : w.stopped with
  | true =>
    refine (step_toReturn h hr hstop hs).imp_right fun ⟨hr', hstop', hret, hm⟩ =>
      ⟨⟨hr', .inl hstop'⟩, hret, ?_⟩
    simp only [World.measure, hstop, hstop', if_true]
    refine Nat.le_trans hm (Nat.add_le_add_left ?_ _)
    unfold delay
    split <;> omega
  | false =>
    rw [hstop] at hst
    exact .inr (step_pending h hr hstop (hst.resolve_left Bool.false_ne_true) hs)

theorem step_returns {e : Event} (hs : step others w e = some w') :
    w.returns.length ≤ w'.returns.length := by
  cases step_cases hs with
  | stop hp hstop => simp
  | _ => exact Nat.le_refl _

theorem run_returns {es : List Event} (hr : (sys others).run Sys.always w es = some w') :
    w.returns.length ≤ w'.returns.length := by
  induction es generalizing w with
  | nil =>
    cases hr
    exact Nat.le_refl _
  | cons e es ih =>
    simp only [Sys.run] at hr
    split at hr
    · obtain ⟨v, hv, hr⟩ := Option.bind_eq_some_iff.mp hr
      exact Nat.le_trans (step_returns hv) (ih hr)
    · cases hr

/-- Along every run, whatever else is posted. -/
theorem run_measure {es : List Event} (h : Inv others w) (hst : w.Stopping)
    (hr : (sys others).run Sys.always w es = some w') :
    w.returns.length < w'.returns.length ∨
      w'.measure others + es.countP Event.ofEngine ≤ w.measure others +
      delay others * es.countP Event.delays := by
  induction es generalizing w with
  | nil =>
    cases hr
    exact .inr (Nat.le_refl _)
  | cons e es ih =>
    simp only [Sys.run] at hr
    split at hr
    · obtain ⟨v, hv, hr⟩ := Option.bind_eq_some_iff.mp hr
      rcases step_measure h hst hv with hret | ⟨hst', hret, hm⟩
      · exact .inl (Nat.lt_of_lt_of_le hret (run_returns hr))
      · refine (ih (h.step hv) hst' hr).imp (fun hlt => hret ▸ hlt) fun hle => ?_
        rw [List.countP_cons, List.countP_cons, Nat.mul_add]
        cases ho : e.ofEngine <;> cases hd : e.delays <;> simp [ho, hd] at hm ⊢ <;> omega
    · cases hr

/-- A step that no client decides: a poster goes on to its write, and the thread of the engine goes
on. A handler and a callback return. -/
def Forced : Event → Bool
  | .write _ => true
  | e => e.ofEngine

/-- A `run` that is being stopped has such a step. -/
theorem World.Stopping.forced (hst : w.Stopping) (h : Inv others w) :
    ∃ e w', Forced e = true ∧ step others w e = some w' := by
  obtain ⟨hr, hst⟩ := hst
  by_cases ht : Thread.engine ∈ w.ev.posting
  · exact ⟨.write .engine, _, rfl, by simp [step, EventFD.step, ht]; rfl⟩
  have hplace := h.place
  cases hph : w.ev.phase with
  | read => exact ⟨.atomicPopAll, _, rfl, by simp [step, EventFD.step, hph]; rfl⟩
  | running batch inside =>
    cases inside with
    | true => exact ⟨.returned, _, rfl, by simp [step, EventFD.step, hph, ht]; rfl⟩
    | false =>
      cases batch with
      | nil => exact ⟨.handled, _, rfl, by simp [step, EventFD.step, hph]; rfl⟩
      | cons c batch => exact ⟨.executeFirst, _, rfl, by simp [step, EventFD.step, hph]; rfl⟩
  | idle =>
    cases hp : w.place with
    | outside =>
      rw [World.inRun, hp] at hr
      cases hr
    | condition => exact ⟨.condition, _, rfl, by simp [step, hp]; rfl⟩
    | waiting =>
      -- The eventfd is readable: the callback is neither executed nor in a batch.
      rw [hp] at hplace
      rw [hplace.2] at hst
      obtain ⟨n, -, hx, hsig⟩ := hst.resolve_left Bool.false_ne_true
      have hfd := hsig.readable hph hx
      exact ⟨.ready [.eventFD], _, rfl, by simp [step, hp, World.Ready, hfd]; rfl⟩
    | batch inRun rest inHandler =>
      cases inHandler with
      | true => exact ⟨.handlerReturned, _, rfl, by simp [step, hp, ht]; rfl⟩
      | false =>
        cases rest with
        | nil => exact ⟨.turn, _, rfl, by simp [step, hp, hph, World.turn]; rfl⟩
        | cons s rest =>
          cases s with
          | other fd => exact ⟨.turn, _, rfl, by simp [step, hp, hph, World.turn]; rfl⟩
          | eventFD =>
            exact ⟨.turn, _, rfl, by simp [step, hp, hph, World.turn, EventFD.step, ht]; rfl⟩

end Progress

/-! ## The queue is made by the first post -/

/-- How an engine fails while it has no queue yet. -/
inductive Failure where
  /-- `run` with nothing to monitor: `epoll_wait` takes no empty buffer, `EINVAL` is thrown. -/
  | einval
  /-- A second `EventFD` has replaced the first one, which is destroyed with its callbacks. -/
  | replaced
  deriving DecidableEq

/-- An `EngineImpl` from its constructor on. -/
structure Engine where
  created : Bool
  /-- The threads that have found no `EventFD` in `getEventFD` and are making one. -/
  creating : List Thread
  failure : Option Failure
  core : World

inductive EngineEvent where
  /-- A thread that posts finds no `EventFD`. -/
  | getEventFD (t : Thread)
  /-- `eventFD.reset(new EventFD(..))`. -/
  | reset (t : Thread)
  | runUnmonitored
  | core (e : Event)

/-- What follows a failure is not modelled, nor what the engine does for other descriptors before
it has a queue. -/
def engineStep (others : Nat) (s : Engine) (e : EngineEvent) : Option Engine :=
  if s.failure.isSome then none else
  match e with
  | .getEventFD t =>
    if s.created = false ∧ t ∉ s.creating then some { s with creating := t :: s.creating } else none
  | .reset t =>
    if t ∈ s.creating then
      some { s with created := true, creating := s.creating.erase t
                    failure := if s.created then some .replaced else none }
    else none
  | .runUnmonitored => if s.created then none else some { s with failure := some .einval }
  | .core e =>
    if s.created then (step others s.core e).map fun w => { s with core := w } else none

def engine (others : Nat) : Sys Engine EngineEvent where
  init := ⟨false, [], none, (sys others).init⟩
  step := engineStep others

/-- The first post is made by one thread alone, and before `run` is called. -/
def OneFirstPost (s : Engine) : EngineEvent → Prop
  | .getEventFD _ => s.creating = []
  | .runUnmonitored => False
  | _ => True

instance (s : Engine) : (e : EngineEvent) → Decidable (OneFirstPost s e)
  | .getEventFD _ => inferInstanceAs (Decidable (s.creating = []))
  | .runUnmonitored => inferInstanceAs (Decidable False)
  | .reset _ | .core _ => inferInstanceAs (Decidable True)

/-- Two threads make the first posts: the one that was faster loses its callback, here a `stop`. -/
example : ((engine 0).run Sys.always (engine 0).init
    [.getEventFD (.other 0), .getEventFD (.other 1), .reset (.other 0),
      .core (.post (.other 0) true), .core (.write (.other 0)), .reset (.other 1)]).map
    (fun s => (s.core.stops, s.failure)) = some ([0], some .replaced) := by decide

/-- At most one thread makes the queue, and then it is there for all. -/
structure Single (s : Engine) : Prop where
  failure : s.failure = none
  creating : s.created = true → s.creating = []
  length : s.creating.length ≤ 1

section Creation

variable {others : Nat} {s s' : Engine}

theorem engineStep_core {e : Event} (hf : s.failure = none) (hc : s.created = true) :
    engineStep others s (.core e) = (step others s.core e).map fun w => { s with core := w } := by
  simp [engineStep, hf, hc]

theorem Single.step {e : EngineEvent} (h : Single s) (hg : OneFirstPost s e)
    (hs : engineStep others s e = some s') :
    Single s' ∧ (s.created = false ∧ s'.core = s.core ∨ s.created = true ∧ s'.created = true ∧
      ∃ e', e = .core e' ∧ step others s.core e' = some s'.core) := by
  have hf := h.failure
  unfold engineStep at hs
  rw [if_neg (by simp [hf])] at hs
  cases e with
  | getEventFD t =>
    obtain ⟨⟨hc, -⟩, hs⟩ := Option.ite_none_right_eq_some.mp hs
    cases hs
    have hempty : s.creating = [] := hg
    exact ⟨⟨hf, fun hcreated => (by cases hc.symm.trans hcreated), by simp [hempty]⟩,
      .inl ⟨hc, rfl⟩⟩
  | reset t =>
    obtain ⟨ht, hs⟩ := Option.ite_none_right_eq_some.mp hs
    cases hs
    -- The thread has found no queue, and no other one makes it.
    have hc : s.created = false := by
      rw [← Bool.not_eq_true]
      intro hcreated
      rw [h.creating hcreated] at ht
      cases ht
    obtain ⟨u, hu⟩ := List.length_eq_one_iff.mp
      (Nat.le_antisymm h.length (List.length_pos_of_mem ht))
    rw [hu] at ht
    cases List.mem_singleton.mp ht
    exact ⟨⟨by simp [hc], fun _ => by simp [hu], by simp [hu]⟩, .inl ⟨hc, rfl⟩⟩
  | runUnmonitored => exact absurd hg id
  | core e =>
    obtain ⟨hc, hs⟩ := Option.ite_none_right_eq_some.mp hs
    obtain ⟨w, hw, rfl⟩ := Option.map_eq_some_iff.mp hs
    exact ⟨⟨hf, h.creating, h.length⟩, .inr ⟨hc, hc, e, rfl, hw⟩⟩

/-- With one first post the queue is as if it had been there from the beginning. -/
theorem engine_reach (h : (engine others).Reach OneFirstPost s) :
    Single s ∧ (s.created = true ∨ s.core = (sys others).init) ∧
      (sys others).Reach Sys.always s.core := by
  refine h.invariant (I := fun s => Single s ∧ (s.created = true ∨ s.core = (sys others).init) ∧
    (sys others).Reach Sys.always s.core) ?_ fun s e s' ⟨hone, hinit, hreach⟩ hg hs => ?_
  · exact ⟨⟨rfl, fun hc => (by cases hc), Nat.zero_le _⟩, .inr rfl, .init⟩
  · obtain ⟨hone', ⟨hc, hcore⟩ | ⟨-, hc', e', -, hw⟩⟩ := hone.step hg hs
    · have hinit := hinit.resolve_left (by simp [hc])
      exact ⟨hone', .inr (hcore.trans hinit), by rwa [hcore]⟩
    · exact ⟨hone', .inl hc', hreach.step trivial hw⟩

/-- From then on the runs of the engine are those of its loop and its queue. -/
theorem engine_run (h : Single s) (hc : s.created = true) {es : List EngineEvent}
    (hr : (engine others).run OneFirstPost s es = some s') :
    ∃ es', es = es'.map .core ∧ (sys others).run Sys.always s.core es' = some s'.core := by
  induction es generalizing s with
  | nil =>
    cases hr
    exact ⟨[], rfl, rfl⟩
  | cons e es ih =>
    simp only [Sys.run] at hr
    split at hr
    · rename_i hg
      obtain ⟨t, ht, hrest⟩ := Option.bind_eq_some_iff.mp hr
      obtain ⟨hone, ⟨hc', -⟩ | ⟨-, hct, e', rfl, hw⟩⟩ := h.step hg ht
      · cases hc'.symm.trans hc
      · obtain ⟨es', rfl, hr'⟩ := ih hone hct hrest
        exact ⟨e' :: es', rfl, by simp only [Sys.run,
          if_pos (show Sys.always s.core e' from trivial),
          show (sys others).step s.core e' = some t.core from hw, Option.bind_some, hr']⟩
    · cases hr

end Creation

/-! ## Every run -/

/-- The events of the loop and of the queue, for the counts of a run. -/
def EngineEvent.ofEngine : EngineEvent → Bool
  | .core e => e.ofEngine
  | _ => false

def EngineEvent.delays : EngineEvent → Bool
  | .core e => e.delays
  | _ => false

/-- **`run` and `stop`**, in every state that is reached if the first post is made by one thread
alone and before `run` is called. The callbacks were executed in the order of their pushes, each
between two returns of `run`, and among those of every return there is one of `stop`. `stopped` is
set exactly if one of `stop` was executed since the last return, and never while `run` waits for
events. When the `write` of a thread is done, the engine has been woken for every callback of
`stop` that is not executed. Then a `run` has a step to make, and it has returned after as many
steps of the engine as `measure` says, and `delay` more for each further callback and each
signal. -/
theorem run_stops {others : Nat} {s : Engine} (h : (engine others).Reach OneFirstPost s) :
    s.failure = none ∧
      s.core.returns.flatten ++ s.core.since = List.range s.core.ev.executed.length ∧
      (∀ l ∈ s.core.returns, ∃ n ∈ l, n ∈ s.core.stops) ∧
      (s.core.stopped = true ↔ ∃ n ∈ s.core.since, n ∈ s.core.stops) ∧
      (s.core.place = .waiting → s.core.stopped = false) ∧
      (∀ t s', engineStep others s (.core (.write t)) = some s' →
        ∀ n ∈ s'.core.stops, s'.core.ev.executed.length ≤ n → s'.core.Pending) ∧
      (s.core.Stopping →
        (∃ e s', Forced e = true ∧ engineStep others s (.core e) = some s') ∧
        ∀ es s', (engine others).run OneFirstPost s es = some s' →
          s.core.measure others + delay others * es.countP EngineEvent.delays <
            es.countP EngineEvent.ofEngine →
          s.core.returns.length < s'.core.returns.length) := by
  obtain ⟨hone, hcreated, hreach⟩ := engine_reach h
  have hi := Inv.of_reach hreach
  refine ⟨hone.failure, ?_, hi.returns, hi.stopped, fun hp => ?_, fun t s' hs n hn hx => ?_,
    fun hst => ?_⟩
  · rw [hi.executed]
    exact (executed_numbers hi.ev).1
  · have hplace := hi.place
    rw [hp] at hplace
    exact hplace.2
  · obtain ⟨-, ⟨hc, -⟩ | ⟨-, -, e', he, hw⟩⟩ := hone.step (e := .core (.write t)) trivial hs
    · simp [engineStep, hone.failure, hc] at hs
    · cases he
      generalize s'.core = v at hw hn hx
      cases step_cases hw with
      | write _ hev =>
        cases EventFD.step_cases hev with
        | write _ ht => exact ⟨n, hn, hx, .inl (Nat.succ_pos _)⟩
  · have hc : s.created = true := by
      refine hcreated.resolve_right fun hinit => ?_
      have hrun := hst.1
      rw [hinit] at hrun
      cases hrun
    refine ⟨?_, fun es s' hr hlt => ?_⟩
    · obtain ⟨e, w, he, hw⟩ := hst.forced hi
      exact ⟨e, { s with core := w }, he, by rw [engineStep_core hone.failure hc, hw]; rfl⟩
    · obtain ⟨es', rfl, hr'⟩ := engine_run hone hc hr
      rw [List.countP_map, List.countP_map] at hlt
      have hlt : s.core.measure others + delay others * es'.countP Event.delays <
        es'.countP Event.ofEngine := hlt
      refine (run_measure hi hst hr').resolve_right fun hm => ?_
      omega

/-- Another thread stops a `run` that waits, and a third one has posted a callback. `run` is being
stopped, and has a step to make; later it has returned, with both callbacks executed. -/
theorem run_stops_waiting :
    ∃ s s', (engine 1).Reach OneFirstPost s ∧ s.core.Stopping ∧
      (∃ e v, Forced e = true ∧ engineStep 1 s (.core e) = some v) ∧
      (engine 1).Reach OneFirstPost s' ∧ s'.core.place = .outside ∧ s'.core.returns = [[0, 1]] ∧
      s'.core.returns.flatten ++ s'.core.since = List.range s'.core.ev.executed.length := by
  obtain ⟨s, hs, hb⟩ := Sys.reach_run_map (S := engine 1) (G := OneFirstPost)
    ([.getEventFD .engine, .reset .engine] ++ List.map .core [.run, .condition,
      .post (.other 0) false, .post (.other 1) true, .write (.other 1)])
    (fun s => (s.core.inRun, s.core.stops, s.core.ev.executed.length, decide s.core.ev.readable))
    (b := (true, [1], 0, true)) (by decide)
  obtain ⟨s', hs', hb'⟩ := Sys.reach_run_map (S := engine 1) (G := OneFirstPost)
    ([.getEventFD .engine, .reset .engine] ++ List.map .core [.run, .condition,
      .post (.other 0) false, .post (.other 1) true, .write (.other 1), .ready [.other 3, .eventFD],
      .turn, .handlerReturned, .turn, .atomicPopAll, .executeFirst, .returned, .executeFirst,
      .returned, .handled, .turn, .condition])
    (fun s => (s.core.place, s.core.returns)) (b := (.outside, [[0, 1]])) (by decide)
  obtain ⟨hrun, hb⟩ := Prod.mk.inj hb
  obtain ⟨hstops, hb⟩ := Prod.mk.inj hb
  obtain ⟨hx, hfd⟩ := Prod.mk.inj hb
  obtain ⟨hp, hret⟩ := Prod.mk.inj hb'
  have hst : s.core.Stopping :=
    ⟨hrun, .inr ⟨1, hstops ▸ List.mem_cons_self, hx ▸ Nat.zero_le _, .inl (of_decide_eq_true hfd)⟩⟩
  exact ⟨s, s', hs, hst, ((run_stops hs).2.2.2.2.2.2 hst).1, hs', hp, hret, (run_stops hs').2.1⟩

end EngineRun
end Sdl
