import SharedDataLayer.Engine.EngineImpl

/-!
# The epoll adapter (`src/redis/hiredisepolladapter.cpp`)

hiredis tells an adapter through hooks whether it wants to read or to write on the descriptor of a
context; the adapter keeps the event mask of the descriptor in the engine, and calls hiredis when an
event comes. `HiredisEpollAdapter` and a `Node` of `HiredisClusterEpollAdapter` have the same hooks
and members. `HiredisEpollAdapter` serves one context after the other.

A step is one hook or one part of the event handler: what hiredis does in `redisAsyncHandleRead` are
the steps until that call ends. hiredis calls the hooks of a context from its `attach` to its
`cleanup`.

* `Mirrors`: what is expected of an adapter.
* `Monitor.hook_spec`: what a hook does to the mask.
* `Single.reach_inv`: `HiredisEpollAdapter` in every run.
-/

namespace Sdl
namespace EpollAdapter

open Spec EngineImpl

def EVENT_IN : Nat := 1
def EVENT_OUT : Nat := 4

/-- The members that both classes have. -/
structure Node where
  eventState : Nat
  reading : Bool
  writing : Bool
  isMonitoring : Bool
  /-- The object exists. -/
  alive : Bool

/-- A `Node` and the engine. -/
structure Monitor where
  node : Node
  engine : EngineImpl.World

/-- The hooks between `attach` and `cleanup`. -/
inductive Hook where
  | addRead | delRead | addWrite | delWrite
  deriving DecidableEq

/-- `state & ~event` of unsigned integers. -/
def clear (state event : Nat) : Nat := state &&& (event ^^^ 4294967295)

namespace Monitor

variable (m : Monitor) (fd : Fd)

def addRead : Monitor :=
  if m.node.reading then m
  else
    ⟨{ m.node with reading := true, eventState := m.node.eventState ||| EVENT_IN },
      m.engine.modifyMonitoredFD fd (m.node.eventState ||| EVENT_IN)⟩

def delRead : Monitor :=
  ⟨{ m.node with reading := false, eventState := clear m.node.eventState EVENT_IN },
    m.engine.modifyMonitoredFD fd (clear m.node.eventState EVENT_IN)⟩

def addWrite : Monitor :=
  if m.node.writing then m
  else
    ⟨{ m.node with writing := true, eventState := m.node.eventState ||| EVENT_OUT },
      m.engine.modifyMonitoredFD fd (m.node.eventState ||| EVENT_OUT)⟩

def delWrite : Monitor :=
  ⟨{ m.node with writing := false, eventState := clear m.node.eventState EVENT_OUT },
    m.engine.modifyMonitoredFD fd (clear m.node.eventState EVENT_OUT)⟩

def cleanup : Monitor :=
  ⟨{ m.node with reading := false, writing := false, eventState := 0, isMonitoring := false },
    m.engine.deleteMonitoredFD fd⟩

/-- `attach`, and the constructor of a `Node`. -/
def attach : Monitor := ⟨⟨0, false, false, true, true⟩, m.engine.addMonitoredFD fd 0⟩

def hook : Hook → Monitor
  | .addRead => m.addRead fd
  | .delRead => m.delRead fd
  | .addWrite => m.addWrite fd
  | .delWrite => m.delWrite fd

end Monitor

/-! ## The contexts of hiredis -/

/-- Where a context is in its life. `detached` is after the disconnect callback. -/
inductive Status where
  | unattached | attached | cleanedUp | detached | closed
  deriving DecidableEq

structure Context where
  fd : Fd
  status : Status
  /-- What hiredis wants, by the hooks that it has called. -/
  wantRead : Bool
  wantWrite : Bool

/-- The mask of an interest. -/
def mask (r w : Bool) : Nat := (if r then EVENT_IN else 0) ||| (if w then EVENT_OUT else 0)

def Context.mask (c : Context) : Nat := EpollAdapter.mask c.wantRead c.wantWrite

def Context.hook (c : Context) : Hook → Context
  | .addRead => { c with wantRead := true }
  | .delRead => { c with wantRead := false }
  | .addWrite => { c with wantWrite := true }
  | .delWrite => { c with wantWrite := false }

/-- A call of `redisAsyncHandleRead` or `redisAsyncHandleWrite`, and whether the context was between
`attach` and `cleanup`. -/
structure Call where
  context : Nat
  write : Bool
  attached : Bool
  deriving DecidableEq

/-- The events mask of the engine is what hiredis wants, exactly the attached contexts are
registered, no abort is reached, and no context is handled that is not attached. -/
structure Mirrors (engine : EngineImpl.World) (contexts : Nat → Context)
    (calls : List Call) : Prop where
  mask : ∀ c, (contexts c).status = .attached →
    engine.interest.find (contexts c).fd = some (contexts c).mask
  registered : ∀ fd, (engine.handlers.find fd).isSome ↔ ∃ c, (contexts c).status = .attached ∧
    (contexts c).fd = fd
  noAbort : engine.aborted = false
  noLateCall : ∀ call ∈ calls, call.attached = true

/-- The engine before anything is registered. -/
def emptyEngine : EngineImpl.World := ⟨OrdMap.empty, [], OrdMap.empty, .idle, 0, [], [], [], false⟩

/-! ## `HiredisEpollAdapter` -/

namespace Single

/-- Where the event handler is: in the read handler, with what follows, or in the write handler. -/
inductive Running where
  | reading (out : Bool)
  | writing
  deriving DecidableEq

structure World where
  engine : EngineImpl.World
  /-- The members of the adapter. -/
  node : Node
  ac : Option Nat
  contexts : Nat → Context
  running : Option Running
  calls : List Call

inductive Event where
  | attach (c : Nat) (fd : Fd)
  | hook (c : Nat) (h : Hook)
  | cleanup (c : Nat)
  /-- The engine calls the handler of the descriptor. -/
  | event (fd : Fd) (inn out : Bool)
  | readReturns
  | writeReturns

namespace World

def monitor (w : World) : Monitor := ⟨w.node, w.engine⟩

def setMonitor (w : World) (m : Monitor) : World := { w with node := m.node, engine := m.engine }

def setContext (w : World) (c : Nat) (context : Context) : World :=
  { w with contexts := Function.update w.contexts c context }

/-- A call of hiredis for `ac`. -/
def call (w : World) (write : Bool) : World :=
  match w.ac with
  | some c => { w with calls := w.calls ++ [⟨c, write, (w.contexts c).status = .attached⟩] }
  | none => { w with calls := w.calls ++ [⟨0, write, false⟩] }

/-- The second half of `eventHandler`. -/
def handleOut (w : World) (out : Bool) : World :=
  if out && w.node.writing then { w.call true with running := some .writing }
  else { w with running := none }

/-- `eventHandler`. -/
def eventHandler (w : World) (inn out : Bool) : World :=
  if inn && w.node.reading then { w.call false with running := some (.reading out) }
  else w.handleOut out

def step (w : World) : Event → Option World
  | .attach c fd =>
    if (w.contexts c).status = .unattached ∧ ∀ d ∈ w.ac, (w.contexts d).status = .cleanedUp then
      some (({ w with ac := some c }.setMonitor (w.monitor.attach fd)).setContext c ⟨fd,
        .attached, false, false⟩)
    else none
  | .hook c h =>
    if (w.contexts c).status = .attached then
      some ((w.setMonitor (w.monitor.hook (w.contexts c).fd h)).setContext c
        ((w.contexts c).hook h))
    else none
  | .cleanup c =>
    if (w.contexts c).status = .attached then
      some ((w.setMonitor (w.monitor.cleanup (w.contexts c).fd)).setContext c
        { w.contexts c with status := .cleanedUp, wantRead := false, wantWrite := false })
    else none
  | .event fd inn out =>
    if w.running = none ∧ (w.engine.handlers.find fd).isSome then
      some (w.eventHandler inn out) else none
  | .readReturns =>
    match w.running with
    | some (.reading out) => some (w.handleOut out)
    | _ => none
  | .writeReturns =>
    match w.running with
    | some .writing => some { w with running := none }
    | _ => none

end World

/-- The adapter after its constructor. An abort of the engine ends the process. -/
def sys : Sys World Event where
  init := ⟨emptyEngine, ⟨0, false, false, false, true⟩, none,
    fun _ => ⟨0, .unattached, false, false⟩, none, []⟩
  step w e := if w.engine.aborted then none else w.step e

end Single

/-! ## What the hooks do to the mask -/

section Hooks

/-- The members are what hiredis wants. -/
structure Agrees (n : Node) (c : Context) : Prop where
  reading : n.reading = c.wantRead
  writing : n.writing = c.wantWrite
  eventState : n.eventState = c.mask

/-- The descriptor has the mask of the context now, and nothing else has changed. -/
structure Masked (m m' : Monitor) (fd : Fd) (c : Context) : Prop where
  agrees : Agrees m'.node c
  monitoring : m'.node.isMonitoring = m.node.isMonitoring
  alive : m'.node.alive = m.node.alive
  handlers : m'.engine.handlers = m.engine.handlers
  registrations : m'.engine.nextRegistration = m.engine.nextRegistration
  noAbort : m'.engine.aborted = m.engine.aborted
  mask : m'.engine.interest.find fd = some c.mask
  others : ∀ x, x ≠ fd → m'.engine.interest.find x = m.engine.interest.find x

theorem Monitor.modified {m m' : Monitor} {fd : Fd} {c : Context}
    (hh : (m.engine.handlers.find fd).isSome)
    (hagrees : Agrees m'.node c) (hmonitoring : m'.node.isMonitoring = m.node.isMonitoring)
    (halive : m'.node.alive = m.node.alive)
      (hm : m'.engine = m.engine.modifyMonitoredFD fd c.mask) :
    Masked m m' fd c := by
  rw [EngineImpl.World.modifyMonitoredFD, if_pos hh] at hm
  refine ⟨hagrees, hmonitoring, halive, ?_, ?_, ?_, ?_, fun x hx => ?_⟩
  · rw [hm]
  · rw [hm]
  · rw [hm]
  · rw [hm]
    exact (OrdMap.find_assign _ _ _ _).trans (if_pos rfl)
  · rw [hm]
    exact OrdMap.find_assign_of_ne hx

theorem mask_none (fd : Fd) (status : Status) :
    (⟨fd, status, false, false⟩ : Context).mask = 0 := by
  simp [Context.mask, mask]

theorem mask_set (r w : Bool) : mask r w ||| EVENT_IN = mask true w ∧
    mask r w ||| EVENT_OUT = mask r true := by
  cases r <;> cases w <;> exact ⟨rfl, rfl⟩

theorem mask_clear (r w : Bool) : clear (mask r w) EVENT_IN = mask false w ∧
    clear (mask r w) EVENT_OUT = mask r false := by
  cases r <;> cases w <;> exact ⟨rfl, rfl⟩

/-- A hook sets or clears its bit of the mask, whether it was set before or not. -/
theorem Monitor.hook_spec {m : Monitor} {fd : Fd} {c : Context} (ha : Agrees m.node c)
    (hh : (m.engine.handlers.find fd).isSome)
    (hi : m.engine.interest.find fd = some c.mask) (h : Hook) :
    Masked m (m.hook fd h) fd (c.hook h) := by
  obtain ⟨hr, hw, hs⟩ := ha
  -- What is set already is not set again.
  have hsame : ∀ c' : Context, c'.wantRead = c.wantRead → c'.wantWrite = c.wantWrite →
    Masked m m fd c' := by
    intro c' hr' hw'
    have hmask : c'.mask = c.mask := by rw [Context.mask, Context.mask, hr', hw']
    exact ⟨⟨hr.trans hr'.symm, hw.trans hw'.symm, hs.trans hmask.symm⟩, rfl, rfl, rfl, rfl,
      rfl, by rw [hi, hmask],
      fun _ _ => rfl⟩
  cases h with
  | addRead =>
    simp only [Monitor.hook, Monitor.addRead]
    split
    · rename_i hread
      exact hsame _ (by rw [← hr, hread]; rfl) rfl
    · have hbit : m.node.eventState ||| EVENT_IN = (c.hook .addRead).mask := by
        rw [hs]
        exact (mask_set _ _).1
      exact Monitor.modified hh ⟨rfl, hw, hbit⟩ rfl rfl (by rw [hbit])
  | delRead =>
    have hbit : clear m.node.eventState EVENT_IN = (c.hook .delRead).mask := by
      rw [hs]
      exact (mask_clear _ _).1
    exact Monitor.modified hh ⟨rfl, hw, hbit⟩ rfl rfl
      (congrArg (m.engine.modifyMonitoredFD fd) hbit)
  | addWrite =>
    simp only [Monitor.hook, Monitor.addWrite]
    split
    · rename_i hwrite
      exact hsame _ rfl (by rw [← hw, hwrite]; rfl)
    · have hbit : m.node.eventState ||| EVENT_OUT = (c.hook .addWrite).mask := by
        rw [hs]
        exact (mask_set _ _).2
      exact Monitor.modified hh ⟨hr, rfl, hbit⟩ rfl rfl (by rw [hbit])
  | delWrite =>
    have hbit : clear m.node.eventState EVENT_OUT = (c.hook .delWrite).mask := by
      rw [hs]
      exact (mask_clear _ _).2
    exact Monitor.modified hh ⟨hr, rfl, hbit⟩ rfl rfl
      (congrArg (m.engine.modifyMonitoredFD fd) hbit)

/-- The engine after any hook. -/
theorem Monitor.hook_engine {m : Monitor} (he : EngineImpl.Inv m.engine) (fd : Fd) (h : Hook) :
    EngineImpl.Inv (m.hook fd h).engine := by
  cases h with
  | addRead =>
    simp only [Monitor.hook, Monitor.addRead]
    split
    · exact he
    · exact he.modify fd _
  | delRead => exact he.modify fd _
  | addWrite =>
    simp only [Monitor.hook, Monitor.addWrite]
    split
    · exact he
    · exact he.modify fd _
  | delWrite => exact he.modify fd _

/-- A descriptor is registered that was not. -/
structure Added (e e' : EngineImpl.World) (fd : Fd) : Prop where
  noAbort : e'.aborted = e.aborted
  registration : e'.handlers.find fd = some (some e.nextRegistration)
  registrations : e'.nextRegistration = e.nextRegistration + 1
  mask : e'.interest.find fd = some 0
  others : ∀ x, x ≠ fd → e'.handlers.find x = e.handlers.find x ∧
    e'.interest.find x = e.interest.find x

theorem added {e : EngineImpl.World} (he : EngineImpl.Inv e) {fd : Fd}
    (hfd : e.handlers.find fd = none) :
    Added e (e.addMonitoredFD fd 0) fd := by
  have hinterest : e.interest.find fd = none := by
    have hsync := he.sync fd
    rw [hfd] at hsync
    simpa using hsync.symm
  rw [EngineImpl.World.addMonitoredFD, if_neg (by rw [hfd]; simp)]
  refine ⟨rfl, ?_, rfl, ?_, fun x hx => ⟨?_, ?_⟩⟩
  · simp only [OrdMap.find_insert, hfd, if_true]
    rfl
  · simp only [OrdMap.find_insert, hinterest, if_true]
    rfl
  · simp only [OrdMap.find_insert, if_neg hx]
  · simp only [OrdMap.find_insert, if_neg hx]

/-- A descriptor that was registered is not any more. -/
structure Removed (e e' : EngineImpl.World) (fd : Fd) : Prop where
  noAbort : e'.aborted = e.aborted
  registrations : e'.nextRegistration = e.nextRegistration
  gone : e'.handlers.find fd = none
  others : ∀ x, x ≠ fd → e'.handlers.find x = e.handlers.find x ∧
    e'.interest.find x = e.interest.find x

theorem removed {e : EngineImpl.World} {fd : Fd} (hfd : (e.handlers.find fd).isSome) :
    Removed e (e.deleteMonitoredFD fd) fd := by
  obtain ⟨r, hr⟩ := Option.isSome_iff_exists.mp hfd
  unfold EngineImpl.World.deleteMonitoredFD
  rw [hr]
  refine ⟨rfl, rfl, ?_, fun x hx => ⟨OrdMap.find_erase_of_ne hx, OrdMap.find_erase_of_ne hx⟩⟩
  exact (OrdMap.find_erase _ _ _).trans (if_pos rfl)

end Hooks

/-! ## `HiredisEpollAdapter` in every run -/

namespace Single

/-- The attached context is the current one, and the members are what it wants; without one, nothing
is wanted. -/
structure Inv (w : World) : Prop where
  engine : EngineImpl.Inv w.engine
  noAbort : w.engine.aborted = false
  noLateCall : ∀ call ∈ w.calls, call.attached = true
  current : ∀ c, (w.contexts c).status = .attached → w.ac = some c ∧ Agrees w.node (w.contexts c) ∧
    w.engine.interest.find (w.contexts c).fd = some (w.contexts c).mask ∧
    (w.engine.handlers.find (w.contexts c).fd).isSome
  registered : ∀ fd, (w.engine.handlers.find fd).isSome → ∃ c, (w.contexts c).status = .attached ∧
    (w.contexts c).fd = fd
  wanted : w.node.reading = true ∨ w.node.writing = true → ∃ c, (w.contexts c).status = .attached

namespace Inv

variable {w : World}

/-- A call for the current context. -/
theorem call (h : Inv w) (hn : w.node.reading = true ∨ w.node.writing = true) (write : Bool) :
    Inv (w.call write) := by
  obtain ⟨c, hc⟩ := h.wanted hn
  have hcalled : w.call write = { w with
    calls := w.calls ++ [⟨c, write, (w.contexts c).status = .attached⟩] } := by
    simp only [World.call, (h.current c hc).1]
  rw [hcalled]
  refine ⟨h.engine, h.noAbort, fun call hcall => ?_, h.current, h.registered, h.wanted⟩
  rcases List.mem_append.mp hcall with hcall | hcall
  · exact h.noLateCall call hcall
  · rw [List.mem_singleton.mp hcall]
    exact decide_eq_true hc

theorem setRunning (h : Inv w) (r : Option Running) : Inv { w with running := r } :=
  ⟨h.engine, h.noAbort, h.noLateCall, h.current, h.registered, h.wanted⟩

theorem handleOut (h : Inv w) (out : Bool) : Inv (w.handleOut out) := by
  unfold World.handleOut
  split
  · rename_i hready
    rw [Bool.and_eq_true] at hready
    exact (h.call (.inr hready.2) true).setRunning _
  · exact h.setRunning _

theorem eventHandler (h : Inv w) (inn out : Bool) : Inv (w.eventHandler inn out) := by
  unfold World.eventHandler
  split
  · rename_i hready
    rw [Bool.and_eq_true] at hready
    exact (h.call (.inl hready.2) false).setRunning _
  · exact h.handleOut out

theorem attach (h : Inv w) {c : Nat} (fd : Fd)
    (hlast : ∀ d ∈ w.ac, (w.contexts d).status = .cleanedUp) :
    Inv (({ w with ac := some c }.setMonitor (w.monitor.attach fd)).setContext c ⟨fd, .attached,
      false, false⟩) := by
  -- No context is attached, so no descriptor is registered.
  have hnone : ∀ d, (w.contexts d).status ≠ .attached := by
    intro d hd
    have hlast := hlast d (h.current d hd).1
    rw [hd] at hlast
    cases hlast
  have hfree : w.engine.handlers.find fd = none := by
    by_contra hsome
    obtain ⟨d, hd, -⟩ := h.registered fd (Option.isSome_iff_ne_none.mpr hsome)
    exact hnone d hd
  have hadded := added h.engine hfree
  have honly : ∀ d, (Function.update w.contexts c ⟨fd, .attached, false, false⟩ d).status =
    .attached → d = c := by
    intro d hd
    by_contra hdc
    rw [Function.update_of_ne hdc] at hd
    exact hnone d hd
  constructor
  · exact h.engine.add fd 0
  · exact hadded.noAbort.trans h.noAbort
  · exact h.noLateCall
  · intro d hd
    rw [honly d hd]
    simp only [World.setContext, Function.update_self, mask_none]
    refine ⟨rfl, ⟨rfl, rfl, (mask_none _ _).symm⟩, hadded.mask, ?_⟩
    show ((w.engine.addMonitoredFD fd 0).handlers.find fd).isSome
    rw [hadded.registration]
    rfl
  · intro x hx
    refine ⟨c, ?_⟩
    simp only [World.setContext, Function.update_self, true_and]
    by_contra hne
    have hx : ((w.engine.addMonitoredFD fd 0).handlers.find x).isSome := hx
    rw [(hadded.others x (Ne.symm hne)).1] at hx
    obtain ⟨d, hd, -⟩ := h.registered x hx
    exact hnone d hd
  · intro hn
    rcases hn with hn | hn <;> cases hn

theorem hook (h : Inv w) {c : Nat} (hc : (w.contexts c).status = .attached) (k : Hook) :
    Inv ((w.setMonitor (w.monitor.hook (w.contexts c).fd k)).setContext c
      ((w.contexts c).hook k)) := by
  obtain ⟨hac, hagrees, hmask, hreg⟩ := h.current c hc
  have hspec := Monitor.hook_spec (m := w.monitor) hagrees hreg hmask k
  have hfd : ((w.contexts c).hook k).fd = (w.contexts c).fd := by cases k <;> rfl
  have hstatus : ((w.contexts c).hook k).status = .attached := by
    cases k <;> exact hc
  constructor
  · exact Monitor.hook_engine (m := w.monitor) h.engine _ k
  · exact hspec.noAbort.trans h.noAbort
  · exact h.noLateCall
  · intro d hd
    by_cases hdc : d = c
    · rw [hdc]
      simp only [World.setContext, Function.update_self, hfd]
      refine ⟨hac, hspec.agrees, hspec.mask, ?_⟩
      show ((w.monitor.hook (w.contexts c).fd k).engine.handlers.find (w.contexts c).fd).isSome
      rw [hspec.handlers]
      exact hreg
    · simp only [World.setContext, Function.update_of_ne hdc] at hd
      exact absurd (Option.some.inj ((h.current d hd).1.symm.trans hac)) hdc
  · intro x hx
    have hx : ((w.monitor.hook (w.contexts c).fd k).engine.handlers.find x).isSome := hx
    rw [hspec.handlers] at hx
    obtain ⟨d, hd, hdx⟩ := h.registered x hx
    have hdc : d = c := Option.some.inj ((h.current d hd).1.symm.trans hac)
    refine ⟨c, ?_⟩
    simp only [World.setContext, Function.update_self, hfd]
    exact ⟨hstatus, hdc ▸ hdx⟩
  · intro _
    refine ⟨c, ?_⟩
    simp only [World.setContext, Function.update_self]
    exact hstatus

theorem cleanup (h : Inv w) {c : Nat} (hc : (w.contexts c).status = .attached) :
    Inv ((w.setMonitor (w.monitor.cleanup (w.contexts c).fd)).setContext c
      { w.contexts c with status := .cleanedUp, wantRead := false, wantWrite := false }) := by
  obtain ⟨hac, -, -, hreg⟩ := h.current c hc
  have hremoved := removed hreg
  have hnone : ∀ d, (Function.update w.contexts c
      { w.contexts c with status := .cleanedUp, wantRead := false, wantWrite := false } d).status ≠
        .attached := by
    intro d hd
    by_cases hdc : d = c
    · rw [hdc, Function.update_self] at hd
      cases hd
    · rw [Function.update_of_ne hdc] at hd
      exact hdc (Option.some.inj ((h.current d hd).1.symm.trans hac))
  constructor
  · exact h.engine.delete _
  · exact hremoved.noAbort.trans h.noAbort
  · exact h.noLateCall
  · exact fun d hd => absurd hd (hnone d)
  · intro x hx
    have hx : ((w.engine.deleteMonitoredFD (w.contexts c).fd).handlers.find x).isSome := hx
    by_cases hxfd : x = (w.contexts c).fd
    · rw [hxfd, hremoved.gone] at hx
      cases hx
    · rw [(hremoved.others x hxfd).1] at hx
      obtain ⟨d, hd, hdx⟩ := h.registered x hx
      have hdc : d = c := Option.some.inj ((h.current d hd).1.symm.trans hac)
      exact absurd (hdc ▸ hdx).symm hxfd
  · intro hn
    rcases hn with hn | hn <;> cases hn

end Inv

theorem step_inv {w w' : World} {e : Event} (h : Inv w) (hst : w.step e = some w') : Inv w' := by
  unfold World.step at hst
  cases e with
  | attach c fd =>
    simp only at hst
    split at hst
    · rename_i hc
      cases hst
      exact h.attach fd hc.2
    · cases hst
  | hook c k =>
    simp only at hst
    split at hst
    · rename_i hc
      cases hst
      exact h.hook hc k
    · cases hst
  | cleanup c =>
    simp only at hst
    split at hst
    · rename_i hc
      cases hst
      exact h.cleanup hc
    · cases hst
  | event fd inn out =>
    simp only at hst
    split at hst
    · cases hst
      exact h.eventHandler inn out
    · cases hst
  | readReturns =>
    simp only at hst
    split at hst
    · cases hst
      exact h.handleOut _
    · cases hst
  | writeReturns =>
    simp only at hst
    split at hst
    · cases hst
      exact h.setRunning none
    · cases hst

theorem reach_inv {w : World} (h : sys.Reach Sys.always w) : Inv w := by
  refine Sys.Reach.invariant ?_ (fun w e w' hinv _ hst => ?_) h
  · refine ⟨EngineImpl.reach_inv .init, rfl, fun _ hc => ?_, fun _ hc => ?_,
      fun _ hf => ?_, fun hn => ?_⟩
    · exact absurd hc List.not_mem_nil
    · cases hc
    · cases hf
    · rcases hn with hn | hn <;> cases hn
  · simp only [sys] at hst
    split at hst
    · cases hst
    · exact step_inv hinv hst

theorem Inv.mirrors {w : World} (h : Inv w) : Mirrors w.engine w.contexts w.calls := by
  refine ⟨fun c hc => (h.current c hc).2.2.1, fun fd => ⟨h.registered fd, ?_⟩,
    h.noAbort, h.noLateCall⟩
  rintro ⟨c, hc, rfl⟩
  exact (h.current c hc).2.2.2

/-- The context is cleaned up in its read handler, and the next one is attached there. -/
def reuseInRead : List Event :=
  [.attach 1 5, .hook 1 .addRead, .hook 1 .addWrite, .event 5 true true, .cleanup 1, .attach 2 5,
    .hook 2 .addRead,
    .readReturns]

end Single

end EpollAdapter
end Sdl
