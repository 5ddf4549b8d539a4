import SharedDataLayer.Spec.OrdMap
import SharedDataLayer.Spec.Sys

/-!
# The events of the engine (`src/engineimpl.cpp`)

`epollWait` gets a batch of events into `ebuffer` and calls the handler of each of them;
`deleteMonitoredFD` takes the event of its descriptor out of the rest of the batch. A step is the
return of `epoll_wait`, the turn of one event, or one operation on the monitored descriptors.
Operations come from the handler that is running, or from outside while no batch is handled.

Each `addMonitoredFD` is a registration of its own, with a number; the handler of a registration is
known by that number. Of the kernel is assumed that `epoll_wait` returns descriptors of its interest
set, each at most once and no more than there is place for. A descriptor is closed only after it was
deleted (`FileDescriptor::close` does so).

`callHandler` does not copy the handler that it calls. A handler that deletes its own descriptor is
destroyed while it runs, and what it does with its captures afterwards is not modelled.

* `Inv`: what an event of the batch has become of, for each of them.
* `Inv.op`, `Inv.turn`, `Inv.epollWait`: every step keeps it.
* `batch_delivered`: which handler gets each event, in every run.
-/

namespace Sdl
namespace EngineImpl

open Spec

abbrev Fd := Nat

/-- `epoll_event`. `none` is the descriptor -1. -/
structure EpollEvent where
  fd : Option Fd
  events : Nat
  deriving DecidableEq

/-- An event that `epoll_wait` has returned, with the handler of its descriptor at that time. -/
structure Waited where
  fd : Fd
  events : Nat
  handler : Option Nat
  deriving DecidableEq

/-- The turn of an event: whether its registration had been deleted, and the call that was made. -/
structure Turn where
  event : Waited
  deleted : Bool
  call : Option (Option Nat × Nat)
  deriving DecidableEq

/-- Outside of a batch, or before the turn of the event `k`, with or without a handler that is
running. -/
inductive Phase where
  | idle
  | batch (k : Nat) (inHandler : Bool)
  deriving DecidableEq

structure World where
  /-- `none` is an empty handler. -/
  handlers : OrdMap Fd (Option Nat)
  ebuffer : List EpollEvent
  /-- The interest set of the kernel, with the event masks. -/
  interest : OrdMap Fd Nat
  phase : Phase
  nextRegistration : Nat
  /-- The registrations that were deleted. -/
  deleted : List Nat
  waited : List Waited
  turns : List Turn
  aborted : Bool

/-- An operation on the monitored descriptors. -/
inductive Op where
  | add (fd : Fd) (events : Nat)
  | modify (fd : Fd) (events : Nat)
  | delete (fd : Fd)

/-- `std::vector::resize`. -/
def resize (v : List EpollEvent) (n : Nat) : List EpollEvent :=
  v.take n ++ List.replicate (n - v.length) ⟨some 0, 0⟩

/-- The loop of `deleteMonitoredFD`: the first event of the descriptor. -/
def forget (fd : Fd) : List EpollEvent → List EpollEvent
  | [] => []
  | i :: l => if i.fd = some fd then { i with fd := none } :: l else i :: forget fd l

namespace World

def addMonitoredFD (w : World) (fd : Fd) (events : Nat) : World :=
  if (w.handlers.find fd).isSome then { w with aborted := true }
  else { w with interest := w.interest.insert fd events,
                handlers := w.handlers.insert fd (some w.nextRegistration)
                nextRegistration := w.nextRegistration + 1 }

def modifyMonitoredFD (w : World) (fd : Fd) (events : Nat) : World :=
  if (w.handlers.find fd).isSome then { w with interest := w.interest.assign fd events }
  else { w with aborted := true }

def deleteMonitoredFD (w : World) (fd : Fd) : World :=
  match w.handlers.find fd with
  | none => { w with aborted := true }
  | some handler => { w with handlers := w.handlers.erase fd, ebuffer := forget fd w.ebuffer
                             interest := w.interest.erase fd, deleted :=
                               w.deleted ++ handler.toList }

def op (w : World) : Op → World
  | .add fd events => w.addMonitoredFD fd events
  | .modify fd events => w.modifyMonitoredFD fd events
  | .delete fd => w.deleteMonitoredFD fd

/-- What the kernel may return. -/
def Ready (w : World) (batch : List (Fd × Nat)) : Prop :=
  (batch.map Prod.fst).Nodup ∧ (∀ e ∈ batch, (w.interest.find e.1).isSome) ∧
    batch.length ≤ w.handlers.toList.length

instance (w : World) (batch : List (Fd × Nat)) : Decidable (w.Ready batch) :=
  inferInstanceAs (Decidable (_ ∧ _ ∧ _))

/-- `epollWait` up to its loop. The kernel writes the batch into the buffer. -/
def epollWait (w : World) (batch : List (Fd × Nat)) : World :=
  let ebuffer := resize w.ebuffer w.handlers.toList.length
  if batch = [] then { w with ebuffer := ebuffer }
  else
    let ebuffer := batch.map (fun e => (⟨some e.1, e.2⟩ : EpollEvent)) ++ ebuffer.drop batch.length
    { w with ebuffer := resize ebuffer batch.length, phase := .batch 0 false, turns := []
             waited := batch.map fun e => ⟨e.1, e.2, (w.handlers.find e.1).join⟩ }

/-- The turn of the event `k` is over, with the call that was made. -/
def record (w : World) (k : Nat) (call : Option (Option Nat × Nat)) : World :=
  match w.waited[k]? with
  | some event => { w with turns := w.turns ++ [⟨event, event.handler.any (· ∈ w.deleted), call⟩] }
  | none => w

/-- `callHandler`. The access to the map inserts an empty handler if there is none. -/
def callHandler (w : World) (k : Nat) (fd : Fd) (events : Nat) : World :=
  let handlers := w.handlers.insert fd none
  { w.record k (some ((handlers.find fd).join, events)) with handlers := handlers,
                                                             phase := .batch (k + 1) true }

/-- The loop of `epollWait` at the event `k`. -/
def turn (w : World) (k : Nat) : World :=
  match w.ebuffer[k]? with
  | some ⟨some fd, events⟩ => w.callHandler k fd events
  | some ⟨none, _⟩ => { w.record k none with phase := .batch (k + 1) false }
  | none => { w with phase := .idle }

end World

inductive Event where
  | op (o : Op)
  | epollWait (batch : List (Fd × Nat))
  | turn

def World.step (w : World) : Event → Option World
  | .op o =>
    match w.phase with
    | .idle | .batch _ true => some (w.op o)
    | .batch _ false => none
  | .epollWait batch => if w.phase = .idle ∧ w.Ready batch then some (w.epollWait batch) else none
  | .turn =>
    match w.phase with
    | .batch k _ => some (w.turn k)
    | .idle => none

/-- An abort ends the process. -/
def sys : Sys World Event where
  init := ⟨OrdMap.empty, [], OrdMap.empty, .idle, 0, [], [], [], false⟩
  step w e := if w.aborted then none else w.step e

/-! ## What is expected -/

/-- The events of the last batch whose turn has come. -/
def World.position (w : World) : Nat :=
  match w.phase with
  | .batch k _ => k
  | .idle => w.waited.length

/-- The handlers are those of the descriptors that the kernel watches. Every event has one turn, and
is then delivered to the handler that was registered when it was returned, unless that registration
was deleted. -/
structure Delivered (w : World) : Prop where
  sameFds : ∀ fd, fd ∈ w.handlers.elems ↔ fd ∈ w.interest.elems
  turns : w.turns.map Turn.event = w.waited.take w.position
  right : ∀ t ∈ w.turns, t.event.handler ≠ none ∧
    t.call = if t.deleted then none else some (t.event.handler, t.event.events)

/-! ## The invariant -/

/-- What has become of an event: its registration was deleted and it was taken out of the buffer, or
both are as they were. -/
def Kept (w : World) (j : Nat) (e : Waited) : Prop :=
  ∃ r, e.handler = some r ∧
    ((r ∈ w.deleted ∧ ∃ events, w.ebuffer[j]? = some ⟨none, events⟩) ∨
      (r ∉ w.deleted ∧ w.ebuffer[j]? = some ⟨some e.fd, e.events⟩ ∧
        w.handlers.find e.fd = some (some r)))

/-- The buffer is that of the last batch. -/
structure Batch (w : World) : Prop where
  length : w.ebuffer.length = w.waited.length
  distinct : (w.waited.map Waited.fd).Nodup
  kept : ∀ j e, w.waited[j]? = some e → Kept w j e

structure Inv (w : World) : Prop where
  sync : ∀ fd, (w.handlers.find fd).isSome = (w.interest.find fd).isSome
  filled : ∀ fd h, w.handlers.find fd = some h → ∃ r, h = some r ∧
    r < w.nextRegistration ∧ r ∉ w.deleted
  owner : ∀ fd fd' r, w.handlers.find fd = some (some r) →
    w.handlers.find fd' = some (some r) → fd = fd'
  old : ∀ r ∈ w.deleted, r < w.nextRegistration
  batch : ∀ k b, w.phase = .batch k b → Batch w ∧ k ≤ w.waited.length
  turns : w.turns.map Turn.event = w.waited.take w.position
  right : ∀ t ∈ w.turns, t.event.handler ≠ none ∧
    t.call = if t.deleted then none else some (t.event.handler, t.event.events)

/-! ## The buffer -/

section Buffer

theorem length_forget (fd : Fd) (l : List EpollEvent) : (forget fd l).length = l.length := by
  induction l with
  | nil => rfl
  | cons i l ih =>
    unfold forget
    split
    · rfl
    · rw [List.length_cons, ih, List.length_cons]

/-- The event of another descriptor stays. -/
theorem forget_other {fd : Fd} {l : List EpollEvent} {j : Nat} {x : EpollEvent}
    (hx : l[j]? = some x) (hfd : x.fd ≠ some fd) : (forget fd l)[j]? = some x := by
  induction l generalizing j with
  | nil => cases hx
  | cons i l ih =>
    unfold forget
    cases j with
    | zero =>
      cases hx
      rw [if_neg hfd]
      rfl
    | succ j =>
      split
      · exact hx
      · exact ih hx

/-- The only event of the descriptor is taken out. -/
theorem forget_only {fd : Fd} {l : List EpollEvent} {k : Nat} {x : EpollEvent} (hx : l[k]? = some x)
    (hfd : x.fd = some fd) (honly : ∀ j y, l[j]? = some y → y.fd = some fd → j = k) :
    (forget fd l)[k]? = some { x with fd := none } := by
  induction l generalizing k with
  | nil => cases hx
  | cons i l ih =>
    unfold forget
    cases k with
    | zero =>
      cases hx
      rw [if_pos hfd]
      rfl
    | succ k =>
      have hi : i.fd ≠ some fd := fun hi => absurd (honly 0 i rfl hi) (by omega)
      rw [if_neg hi]
      refine ih hx fun j y hy hyfd => ?_
      have := honly (j + 1) y hy hyfd
      omega

/-- After the second `resize` the buffer is what the kernel has written. -/
theorem resize_append (l v : List EpollEvent) : resize (l ++ v) l.length = l := by
  rw [resize, List.take_left, List.length_append]
  simp

end Buffer

/-! ## The operations -/

section Ops

variable {w : World} {fd : Fd}

/-- What the events of the batch depend on. -/
theorem Batch.frame {w' : World} (hb : Batch w) (hbuffer : w'.ebuffer = w.ebuffer)
    (hwaited : w'.waited = w.waited)
    (hdeleted : w'.deleted = w.deleted) (hhandlers : w'.handlers = w.handlers) : Batch w' := by
  obtain ⟨hlength, hdistinct, hkept⟩ := hb
  unfold Kept at hkept
  rw [← hbuffer, ← hwaited] at hlength
  rw [← hwaited] at hdistinct
  rw [← hbuffer, ← hwaited, ← hdeleted, ← hhandlers] at hkept
  exact ⟨hlength, hdistinct, hkept⟩

theorem Inv.abort (h : Inv w) : Inv { w with aborted := true } := by
  refine ⟨h.sync, h.filled, h.owner, h.old, fun k b hphase => ?_, h.turns, h.right⟩
  obtain ⟨hb, hk⟩ := h.batch k b hphase
  exact ⟨hb.frame rfl rfl rfl rfl, hk⟩

theorem Inv.add (h : Inv w) (fd : Fd) (events : Nat) : Inv (w.addMonitoredFD fd events) := by
  unfold World.addMonitoredFD
  split
  · exact h.abort
  · rename_i hnone
    have hnone : w.handlers.find fd = none := by simpa using hnone
    have hfind : ∀ x, (w.handlers.insert fd (some w.nextRegistration)).find x =
        if x = fd then some (some w.nextRegistration) else w.handlers.find x := by
      intro x
      rw [OrdMap.find_insert, hnone]
      rfl
    have hfresh : ∀ x r, w.handlers.find x = some (some r) → r ≠ w.nextRegistration := by
      intro x r hx
      obtain ⟨r', hr', hlt, -⟩ := h.filled x _ hx
      cases hr'
      omega
    constructor
    · intro x
      show (OrdMap.find _ x).isSome = (OrdMap.find _ x).isSome
      rw [hfind, OrdMap.find_insert]
      by_cases hx : x = fd
      · simp [hx]
      · simp only [hx, if_false]
        exact h.sync x
    · intro x hd hx
      have hx : (if x = fd then some (some w.nextRegistration) else w.handlers.find x) = some hd :=
        (hfind x).symm.trans hx
      by_cases hxfd : x = fd
      · rw [if_pos hxfd] at hx
        cases hx
        refine ⟨_, rfl, Nat.lt_succ_self _, fun hm => ?_⟩
        exact absurd (h.old _ hm) (Nat.lt_irrefl _)
      · rw [if_neg hxfd] at hx
        obtain ⟨r, hr, hlt, hdel⟩ := h.filled x hd hx
        exact ⟨r, hr, Nat.lt_succ_of_lt hlt, hdel⟩
    · intro x y r hx hy
      have hx : (if x = fd then some (some w.nextRegistration)
        else w.handlers.find x) = some (some r) :=
        (hfind x).symm.trans hx
      have hy : (if y = fd then some (some w.nextRegistration)
        else w.handlers.find y) = some (some r) :=
        (hfind y).symm.trans hy
      by_cases hxfd : x = fd <;> by_cases hyfd : y = fd
      · rw [hxfd, hyfd]
      · rw [if_pos hxfd] at hx
        rw [if_neg hyfd] at hy
        cases hx
        exact absurd rfl (hfresh y _ hy)
      · rw [if_neg hxfd] at hx
        rw [if_pos hyfd] at hy
        cases hy
        exact absurd rfl (hfresh x _ hx)
      · rw [if_neg hxfd] at hx
        rw [if_neg hyfd] at hy
        exact h.owner x y r hx hy
    · exact fun r hr => Nat.lt_succ_of_lt (h.old r hr)
    · intro k b hphase
      obtain ⟨hb, hk⟩ := h.batch k b hphase
      refine ⟨⟨hb.length, hb.distinct, fun j e he => ?_⟩, hk⟩
      obtain ⟨r, hr, hkept⟩ := hb.kept j e he
      refine ⟨r, hr, hkept.imp_right fun ⟨hdel, hbuf, hfd⟩ => ⟨hdel, hbuf, ?_⟩⟩
      show OrdMap.find _ e.fd = _
      rw [hfind, if_neg]
      · exact hfd
      · rintro rfl
        rw [hnone] at hfd
        cases hfd
    · exact h.turns
    · exact h.right

theorem Inv.modify (h : Inv w) (fd : Fd) (events : Nat) : Inv (w.modifyMonitoredFD fd events) := by
  unfold World.modifyMonitoredFD
  split
  · rename_i hsome
    refine ⟨fun x => ?_, h.filled, h.owner, h.old, fun k b hphase => ?_, h.turns, h.right⟩
    · show (w.handlers.find x).isSome = ((w.interest.assign fd events).find x).isSome
      rw [OrdMap.find_assign]
      by_cases hx : x = fd
      · rw [if_pos hx, hx, hsome]
        rfl
      · rw [if_neg hx]
        exact h.sync x
    · obtain ⟨hb, hk⟩ := h.batch k b hphase
      exact ⟨hb.frame rfl rfl rfl rfl, hk⟩
  · exact h.abort

/-- The events of the batch after a registration was deleted. -/
theorem Batch.delete (hb : Batch w) (howner : ∀ fd fd' r, w.handlers.find fd = some (some r) →
    w.handlers.find fd' = some (some r) →
    fd = fd') {r : Nat} (hr : w.handlers.find fd = some (some r)) :
    Batch { w with handlers := w.handlers.erase fd, ebuffer := forget fd w.ebuffer
                   interest := w.interest.erase fd, deleted := w.deleted ++ [r] } := by
  refine ⟨(length_forget fd w.ebuffer).trans hb.length, hb.distinct, fun j e he => ?_⟩
  -- An event of the descriptor in the buffer is the one of the batch.
  have hbuffer : ∀ (i : Nat) (y : EpollEvent), w.ebuffer[i]? = some y → y.fd = some fd →
      ∃ e' : Waited, w.waited[i]? = some e' ∧ e'.fd = fd := by
    intro i y hy hyfd
    have hi : i < w.waited.length := hb.length ▸ (List.getElem?_eq_some_iff.mp hy).1
    refine ⟨_, List.getElem?_eq_getElem hi, ?_⟩
    obtain ⟨r', -, ⟨-, ev, hbuf⟩ | ⟨-, hbuf, -⟩⟩ := hb.kept i _ (List.getElem?_eq_getElem hi)
    · rw [hbuf] at hy
      cases hy
      cases hyfd
    · rw [hbuf] at hy
      cases hy
      exact Option.some.inj hyfd
  obtain ⟨r', hr', hkept⟩ := hb.kept j e he
  refine ⟨r', hr', ?_⟩
  rcases hkept with ⟨hdel, ev, hbuf⟩ | ⟨hdel, hbuf, hfd⟩
  · exact .inl ⟨List.mem_append_left _ hdel, ev, forget_other hbuf (by simp)⟩
  · by_cases hefd : e.fd = fd
    · left
      have hrr : r' = r := by
        rw [hefd, hr] at hfd
        cases hfd
        rfl
      refine ⟨List.mem_append_right _ (by rw [hrr]; exact List.mem_singleton_self r), e.events, ?_⟩
      refine forget_only hbuf (congrArg some hefd) fun i y hy hyfd => ?_
      obtain ⟨e', he', hfd'⟩ := hbuffer i y hy hyfd
      have hi := (List.getElem?_eq_some_iff.mp he').1
      have hj := (List.getElem?_eq_some_iff.mp he).1
      have hget : (w.waited.map Waited.fd)[i]? = (w.waited.map Waited.fd)[j]? := by
        rw [List.getElem?_map, List.getElem?_map, he', he, Option.map_some,
          Option.map_some, hfd', hefd]
      exact (List.getElem?_inj (by rw [List.length_map]; exact hi) hb.distinct).mp hget
    · right
      refine ⟨fun hm => ?_, forget_other hbuf fun hx => hefd (Option.some.inj hx), ?_⟩
      · rcases List.mem_append.mp hm with hm | hm
        · exact hdel hm
        · rw [List.mem_singleton.mp hm] at hfd
          exact hefd (howner _ _ _ hfd hr)
      · exact (OrdMap.find_erase_of_ne hefd).trans hfd

theorem Inv.delete (h : Inv w) (fd : Fd) : Inv (w.deleteMonitoredFD fd) := by
  unfold World.deleteMonitoredFD
  split
  · exact h.abort
  · rename_i handler hh
    obtain ⟨r, rfl, hlt, -⟩ := h.filled fd handler hh
    have hfind : ∀ x hd, (w.handlers.erase fd).find x = some hd →
      x ≠ fd ∧ w.handlers.find x = some hd := by
      intro x hd hx
      rw [OrdMap.find_erase] at hx
      by_cases hxfd : x = fd
      · rw [if_pos hxfd] at hx
        cases hx
      · rw [if_neg hxfd] at hx
        exact ⟨hxfd, hx⟩
    refine ⟨fun x => ?_, fun x hd hx => ?_, fun x y r' hx hy => ?_, fun r' hr' => ?_,
      fun k b hphase => ?_, h.turns, h.right⟩
    · show ((w.handlers.erase fd).find x).isSome = ((w.interest.erase fd).find x).isSome
      rw [OrdMap.find_erase, OrdMap.find_erase]
      by_cases hx : x = fd
      · rw [if_pos hx, if_pos hx]
        rfl
      · rw [if_neg hx, if_neg hx]
        exact h.sync x
    · obtain ⟨hxfd, hx⟩ := hfind x hd hx
      obtain ⟨r', rfl, hlt', hdel⟩ := h.filled x hd hx
      refine ⟨r', rfl, hlt', fun hm => ?_⟩
      rcases List.mem_append.mp hm with hm | hm
      · exact hdel hm
      · rw [List.mem_singleton.mp hm] at hx
        exact hxfd (h.owner _ _ _ hx hh)
    · exact h.owner x y r' (hfind x _ hx).2 (hfind y _ hy).2
    · rcases List.mem_append.mp hr' with hr' | hr'
      · exact h.old r' hr'
      · rw [List.mem_singleton.mp hr']
        exact hlt
    · obtain ⟨hb, hk⟩ := h.batch k b hphase
      exact ⟨hb.delete h.owner hh, hk⟩

theorem Inv.op (h : Inv w) (o : Op) : Inv (w.op o) := by
  cases o with
  | add fd events => exact h.add fd events
  | modify fd events => exact h.modify fd events
  | delete fd => exact h.delete fd

end Ops

/-! ## The loop -/

section Loop

variable {w : World}

theorem Inv.epollWait (h : Inv w) {batch : List (Fd × Nat)} (hready : w.Ready batch)
    (hidle : w.phase = .idle) :
    Inv (w.epollWait batch) := by
  unfold World.epollWait
  split
  · refine ⟨h.sync, h.filled, h.owner, h.old, fun k b hphase => ?_, h.turns, h.right⟩
    exact absurd (hphase.symm.trans hidle) (by simp)
  · obtain ⟨hnodup, hinterest, -⟩ := hready
    have hbuffer : resize (batch.map (fun e => (⟨some e.1, e.2⟩ : EpollEvent)) ++
        (resize w.ebuffer w.handlers.toList.length).drop batch.length) batch.length =
        batch.map fun e => ⟨some e.1, e.2⟩ := by
      have hlen : (batch.map (fun e => (⟨some e.1, e.2⟩ : EpollEvent))).length = batch.length :=
        List.length_map _
      rw [← hlen]
      exact resize_append _ _
    refine ⟨h.sync, h.filled, h.owner, h.old, fun k b hphase => ?_, rfl,
      fun t ht => absurd ht List.not_mem_nil⟩
    cases hphase
    refine ⟨⟨?_, ?_, fun j e he => ?_⟩, Nat.zero_le _⟩
    · simp only [hbuffer, List.length_map]
    · rw [List.map_map]
      exact hnodup
    · rw [List.getElem?_map] at he
      obtain ⟨⟨fd, events⟩, hj, rfl⟩ := Option.map_eq_some_iff.mp he
      -- The descriptor is in the interest set, so it has a handler.
      have hsome := hinterest _ (List.mem_of_getElem? hj)
      rw [← h.sync] at hsome
      obtain ⟨hd, hhd⟩ := Option.isSome_iff_exists.mp hsome
      obtain ⟨r, rfl, -, hdel⟩ := h.filled fd hd hhd
      refine ⟨r, ?_, .inr ⟨hdel, ?_, hhd⟩⟩
      · show (w.handlers.find fd).join = some r
        rw [hhd]
        rfl
      · simp only [hbuffer, List.getElem?_map, hj]
        rfl

/-- One more turn. -/
theorem turns_record {k : Nat} {e : Waited} {call : Option (Option Nat × Nat)}
    (he : w.waited[k]? = some e) :
    w.record k call = { w with turns := w.turns ++
                                 [⟨e, e.handler.any (· ∈ w.deleted), call⟩] } := by
  unfold World.record
  rw [he]

/-- The turn of an event is over, with the right call or none. -/
theorem Inv.next (h : Inv w) {k : Nat} {b : Bool} (hphase : w.phase = .batch k b) {e : Waited}
    (he : w.waited[k]? = some e) {call : Option (Option Nat × Nat)} (hhandler : e.handler ≠ none)
    (hcall : call = if e.handler.any (· ∈ w.deleted) then none else some (e.handler, e.events))
    (b' : Bool) :
    Inv { w with turns := w.turns ++ [⟨e, e.handler.any (· ∈ w.deleted), call⟩],
                 phase := .batch (k + 1) b' } := by
  obtain ⟨hb, -⟩ := h.batch k b hphase
  have hturns := h.turns
  rw [World.position, hphase] at hturns
  refine ⟨h.sync, h.filled, h.owner, h.old, fun k' b'' hphase' => ?_, ?_, fun t ht => ?_⟩
  · cases hphase'
    exact ⟨hb.frame rfl rfl rfl rfl, (List.getElem?_eq_some_iff.mp he).1⟩
  · show List.map Turn.event (w.turns ++ [_]) = w.waited.take (k + 1)
    rw [List.map_append, hturns, List.take_add_one, he]
    rfl
  · rcases List.mem_append.mp ht with ht | ht
    · exact h.right t ht
    · rw [List.mem_singleton.mp ht]
      exact ⟨hhandler, hcall⟩

theorem Inv.turn (h : Inv w) {k : Nat} {b : Bool} (hphase : w.phase = .batch k b) :
    Inv (w.turn k) := by
  obtain ⟨hb, hk⟩ := h.batch k b hphase
  unfold World.turn
  split
  · -- The event is still in the buffer, so its registration is the same one.
    rename_i fd events hbuf
    have hlt : k < w.waited.length := hb.length ▸ (List.getElem?_eq_some_iff.mp hbuf).1
    have he := List.getElem?_eq_getElem hlt
    obtain ⟨r, hr, ⟨-, ev, hbuf'⟩ | ⟨hdel, hbuf', hfd⟩⟩ := hb.kept k _ he
    · rw [hbuf'] at hbuf
      cases hbuf
    · generalize w.waited[k] = e at he hr hbuf' hfd
      rw [hbuf'] at hbuf
      cases hbuf
      have hsame : w.handlers.insert e.fd none = w.handlers := by
        refine OrdMap.ext_find fun x => ?_
        rw [OrdMap.find_insert, hfd]
        by_cases hx : x = e.fd
        · rw [if_pos hx, hx, hfd]
          rfl
        · rw [if_neg hx]
      unfold World.callHandler
      simp only [hsame, turns_record he, hfd]
      refine h.next hphase he ?_ ?_ true
      · rw [hr]
        simp
      · simp [hr, hdel]
  · rename_i ev hbuf
    have hlt : k < w.waited.length := hb.length ▸ (List.getElem?_eq_some_iff.mp hbuf).1
    have he := List.getElem?_eq_getElem hlt
    obtain ⟨r, hr, ⟨hdel, -⟩ | ⟨-, hbuf', -⟩⟩ := hb.kept k _ he
    · generalize w.waited[k] = e at he hr
      rw [turns_record he]
      refine h.next hphase he ?_ ?_ false
      · rw [hr]
        simp
      · simp [hr, hdel]
    · rw [hbuf'] at hbuf
      cases hbuf
  · rename_i hbuf
    have hend : w.waited.length ≤ k := hb.length ▸ List.getElem?_eq_none_iff.mp hbuf
    have hturns := h.turns
    rw [World.position, hphase] at hturns
    refine ⟨h.sync, h.filled, h.owner, h.old, fun _ _ hphase' => (by cases hphase'), ?_, h.right⟩
    show w.turns.map Turn.event = w.waited.take w.waited.length
    rw [hturns, Nat.le_antisymm hk hend]

end Loop

theorem step_inv {w w' : World} {e : Event} (h : Inv w) (hst : w.step e = some w') : Inv w' := by
  unfold World.step at hst
  cases e with
  | op o =>
    simp only at hst
    split at hst
    · cases hst
      exact h.op o
    · cases hst
      exact h.op o
    · cases hst
  | epollWait batch =>
    simp only at hst
    split at hst
    · rename_i hready
      cases hst
      exact h.epollWait hready.2 hready.1
    · cases hst
  | turn =>
    simp only at hst
    split at hst
    · rename_i k b hphase
      cases hst
      exact h.turn hphase
    · cases hst

theorem reach_inv {w : World} (h : sys.Reach Sys.always w) : Inv w := by
  refine Sys.Reach.invariant ?_ (fun w e w' hinv _ hst => ?_) h
  · refine ⟨fun _ => rfl, fun _ _ hf => ?_, fun _ _ _ hf => ?_, fun r hr => ?_, fun _ _ hp => ?_,
      rfl, fun t ht => ?_⟩
    · cases hf
    · cases hf
    · exact absurd hr List.not_mem_nil
    · cases hp
    · exact absurd ht List.not_mem_nil
  · simp only [sys] at hst
    split at hst
    · cases hst
    · exact step_inv hinv hst

/-- **Event batch delivery.** In every run, with any operations of the handlers in between, every
event of a batch is delivered once to the handler that was registered when `epoll_wait` returned it,
or dropped if that registration was deleted before its turn; and the handlers are those of the
descriptors of the interest set. -/
theorem batch_delivered (w : World) (h : sys.Reach Sys.always w) : Delivered w := by
  have hinv := reach_inv h
  refine ⟨fun fd => ?_, hinv.turns, hinv.right⟩
  rw [OrdMap.mem_elems, OrdMap.mem_elems, hinv.sync]

/-- Two events; the handler of the first one deletes the second descriptor and adds it again. -/
def readdInBatch : List Event :=
  [.op (.add 3 1), .op (.add 4 1), .epollWait [(3, 1), (4, 1)], .turn, .op (.delete 4),
    .op (.add 4 5), .turn, .turn]

/-- The second event is dropped. -/
theorem readdInBatch_delivered : ∃ w, sys.Reach Sys.always w ∧ w.phase = .idle ∧
    w.turns = [⟨⟨3, 1, some 0⟩, false, some (some 0, 1)⟩, ⟨⟨4, 1, some 1⟩, true, none⟩] ∧
    w.handlers.find 4 = some (some 2) ∧ Delivered w := by
  obtain ⟨w, hw, hv⟩ := Sys.reach_run_map (S := sys) (G := Sys.always) readdInBatch
    (fun w => (w.phase, w.turns, w.handlers.find 4))
    (b := (.idle, [⟨⟨3, 1, some 0⟩, false, some (some 0, 1)⟩, ⟨⟨4, 1, some 1⟩, true, none⟩],
      some (some 2)))
    (by decide +kernel)
  simp only [Prod.mk.injEq] at hv
  exact ⟨w, hw, hv.1, hv.2.1, hv.2.2, batch_delivered w hw⟩

end EngineImpl
end Sdl
