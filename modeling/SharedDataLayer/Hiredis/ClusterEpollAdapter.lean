import SharedDataLayer.Hiredis.EpollAdapter

/-!
# The epoll adapter of a cluster (`src/redis/hiredisclusterepolladapter.cpp`)

`HiredisClusterEpollAdapter` has a `Node` for each context, in a map by descriptor; the engine calls
a `Node` through a pointer to it. After `cleanup` hiredis calls the disconnect callback of a context
if it was connected, and closes the descriptor last. Contexts that are open have different
descriptors.

After the read handler `Node::eventHandler` looks at its members again. If the `Node` was destroyed
in the meantime, the values are arbitrary (`garbage`).

* `Inv.update`: what a step does to one context leaves the others as they are.
* `Inv.hook`, `Inv.cleanup`, `Inv.retire`, `Inv.detach`, `Inv.attach`: every step on a context.
* `reach_inv`: the adapter in every run where the `Node` of an event survives the read handler.
* `adapters_mirror`: both adapters.
-/

namespace Sdl
namespace EpollAdapter

open Spec EngineImpl

namespace Cluster

/-- Where the event handler of the `Node` of a context is. -/
inductive Running where
  | reading (c : Nat) (out : Bool)
  | writing
  deriving DecidableEq

structure World where
  engine : EngineImpl.World
  /-- The `Node` of each context. -/
  memory : Nat → Node
  /-- The context of each `Node` of the map. -/
  nodes : OrdMap Fd Nat
  /-- The context whose `Node` made each registration. -/
  owners : List Nat
  contexts : Nat → Context
  running : Option Running
  calls : List Call
  /-- A hook of a destroyed `Node` was called. -/
  undefined : Bool

inductive Event where
  | attach (c : Nat) (fd : Fd)
  | hook (c : Nat) (h : Hook)
  | cleanup (c : Nat)
  /-- The disconnect callback. -/
  | detach (c : Nat)
  | close (c : Nat)
  /-- The engine calls the handler of the descriptor. `garbage` is what the members of a destroyed
  `Node` read as. -/
  | event (fd : Fd) (inn out garbage : Bool)
  | readReturns (garbage : Bool)
  | writeReturns

namespace World

def monitor (w : World) (c : Nat) : Monitor := ⟨w.memory c, w.engine⟩

def setMonitor (w : World) (c : Nat) (m : Monitor) : World :=
  { w with memory := Function.update w.memory c m.node, engine := m.engine
           undefined := w.undefined || !(w.memory c).alive }

def setContext (w : World) (c : Nat) (context : Context) : World :=
  { w with contexts := Function.update w.contexts c context }

/-- `Node::~Node`. -/
def destroyNode (w : World) (c : Nat) : World :=
  let w := if (w.memory c).isMonitoring then
    w.setMonitor c ((w.monitor c).cleanup (w.contexts c).fd) else w
  { w with memory := Function.update w.memory c { w.memory c with alive := false } }

/-- `detach` for a context with the descriptor. -/
def detach (w : World) (fd : Fd) : World :=
  match w.nodes.find fd with
  | some c => { w.destroyNode c with nodes := w.nodes.erase fd }
  | none => w

/-- `attach`. -/
def attach (w : World) (c : Nat) (fd : Fd) : World :=
  let w := w.detach fd
  let m := (w.monitor c).attach fd
  { w with memory := Function.update w.memory c m.node, engine := m.engine,
           owners := w.owners ++ [c]
           nodes := w.nodes.insert fd c }

/-- A call of hiredis for the context. -/
def call (w : World) (c : Nat) (write : Bool) : World :=
  { w with calls := w.calls ++ [⟨c, write, (w.contexts c).status = .attached⟩] }

/-- The second half of `Node::eventHandler`. -/
def handleOut (w : World) (c : Nat) (out garbage : Bool) : World :=
  let ready := if (w.memory c).alive then (w.memory c).writing && (w.memory c).isMonitoring
    else garbage
  if out && ready then { w.call c true with running := some .writing }
  else { w with running := none }

/-- `Node::eventHandler`. -/
def eventHandler (w : World) (c : Nat) (inn out garbage : Bool) : World :=
  let ready := if (w.memory c).alive then (w.memory c).reading && (w.memory c).isMonitoring
    else garbage
  if inn && ready then { w.call c false with running := some (.reading c out) }
  else w.handleOut c out garbage

/-- The context whose `Node` handles the events of the descriptor. -/
def handler (w : World) (fd : Fd) : Option Nat :=
  ((w.engine.handlers.find fd).join).bind fun r => w.owners[r]?

/-- No open context has the descriptor. -/
def Free (w : World) (fd : Fd) : Prop :=
  ∀ c ∈ w.owners, (w.contexts c).fd = fd → (w.contexts c).status = .closed

instance (w : World) (fd : Fd) : Decidable (w.Free fd) :=
  inferInstanceAs (Decidable (∀ c ∈ w.owners, _))

def step (w : World) : Event → Option World
  | .attach c fd =>
    if (w.contexts c).status = .unattached ∧ w.Free fd then
      some ((w.attach c fd).setContext c ⟨fd, .attached, false, false⟩)
    else none
  | .hook c h =>
    if (w.contexts c).status = .attached then
      some ((w.setMonitor c ((w.monitor c).hook (w.contexts c).fd h)).setContext c
        ((w.contexts c).hook h))
    else none
  | .cleanup c =>
    if (w.contexts c).status = .attached then
      some ((w.setMonitor c ((w.monitor c).cleanup (w.contexts c).fd)).setContext c
        { w.contexts c with status := .cleanedUp, wantRead := false, wantWrite := false })
    else none
  | .detach c =>
    if (w.contexts c).status = .cleanedUp then
      some ((w.detach (w.contexts c).fd).setContext c { w.contexts c with status := .detached })
    else none
  | .close c =>
    if (w.contexts c).status = .cleanedUp ∨ (w.contexts c).status = .detached then
      some (w.setContext c { w.contexts c with status := .closed })
    else none
  | .event fd inn out garbage =>
    match w.running, w.handler fd with
    | none, some c => some (w.eventHandler c inn out garbage)
    | _, _ => none
  | .readReturns garbage =>
    match w.running with
    | some (.reading c out) => some (w.handleOut c out garbage)
    | _ => none
  | .writeReturns =>
    match w.running with
    | some .writing => some { w with running := none }
    | _ => none

end World

/-- The adapter after its constructor. An abort of the engine ends the process. -/
def sys : Sys World Event where
  init := ⟨emptyEngine, fun _ => ⟨0, false, false, false, false⟩, OrdMap.empty, [],
    fun _ => ⟨0, .unattached, false, false⟩, none, [], false⟩
  step w e := if w.engine.aborted then none else w.step e

/-- The `Node` of an event that is also for writing exists. -/
def World.survives (w : World) : Running → Bool
  | .reading c true => (w.memory c).alive
  | _ => true

/-- When the read handler of an event that is also for writing returns, the `Node` of the event
still exists. -/
def NodeSurvives (w : World) : Event → Prop
  | .readReturns _ => ∀ r ∈ w.running, w.survives r = true
  | _ => True

instance (w : World) : (e : Event) → Decidable (NodeSurvives w e)
  | .readReturns _ => inferInstanceAs (Decidable (∀ r ∈ w.running, w.survives r = true))
  | .attach .. | .hook .. | .cleanup _ | .detach _ | .close _ | .event .. | .writeReturns =>
    inferInstanceAs (Decidable True)

/-! ## The invariant -/

/-- What there is of an attached context: its `Node` is in the map, handles the events of the
descriptor, and its members and the mask are what the context wants. -/
structure Served (w : World) (c : Nat) : Prop where
  alive : (w.memory c).alive = true
  monitoring : (w.memory c).isMonitoring = true
  agrees : Agrees (w.memory c) (w.contexts c)
  mask : w.engine.interest.find (w.contexts c).fd = some (w.contexts c).mask
  registered : (w.engine.handlers.find (w.contexts c).fd).isSome
  handler : w.handler (w.contexts c).fd = some c
  node : w.nodes.find (w.contexts c).fd = some c

/-- The descriptor of the context is not closed. -/
def Open (w : World) (c : Nat) : Prop := (w.contexts c).status ≠ .unattached ∧
    (w.contexts c).status ≠ .closed

structure Inv (w : World) : Prop where
  engine : EngineImpl.Inv w.engine
  noAbort : w.engine.aborted = false
  noLateCall : ∀ call ∈ w.calls, call.attached = true
  defined : w.undefined = false
  owners : w.owners.length = w.engine.nextRegistration
  known : ∀ c, (w.contexts c).status ≠ .unattached → c ∈ w.owners
  served : ∀ c, (w.contexts c).status = .attached → Served w c
  idle : ∀ c, (w.contexts c).status ≠ .attached → (w.memory c).isMonitoring = false
  registered : ∀ fd, (w.engine.handlers.find fd).isSome → ∃ c, (w.contexts c).status = .attached ∧
    (w.contexts c).fd = fd
  nodes : ∀ fd c, w.nodes.find fd = some c → (w.contexts c).status ≠ .unattached ∧
    (w.contexts c).fd = fd
  distinct : ∀ c d, Open w c → Open w d → (w.contexts c).fd = (w.contexts d).fd → c = d

/-- The same context, `Node` and registration as before. -/
structure Untouched (w w' : World) (c : Nat) : Prop where
  context : w'.contexts c = w.contexts c
  memory : w'.memory c = w.memory c
  interest : w'.engine.interest.find (w.contexts c).fd = w.engine.interest.find (w.contexts c).fd
  handlers : w'.engine.handlers.find (w.contexts c).fd = w.engine.handlers.find (w.contexts c).fd
  owners : ∃ l, w'.owners = w.owners ++ l
  node : w'.nodes.find (w.contexts c).fd = w.nodes.find (w.contexts c).fd

theorem Served.untouched {w w' : World} {c : Nat} (h : Served w c) (hu : Untouched w w' c) :
    Served w' c := by
  obtain ⟨hcontext, hmemory, hinterest, hhandlers, ⟨l, howners⟩, hnode⟩ := hu
  have hhandler : w'.handler (w.contexts c).fd = some c := by
    have hc := h.handler
    unfold World.handler at hc ⊢
    rw [hhandlers, howners]
    obtain ⟨r, hr, hc⟩ := Option.bind_eq_some_iff.mp hc
    rw [hr, Option.bind_some, List.getElem?_append_left (List.getElem?_eq_some_iff.mp hc).1]
    exact hc
  constructor
  · rw [hmemory]
    exact h.alive
  · rw [hmemory]
    exact h.monitoring
  · rw [hmemory, hcontext]
    exact h.agrees
  · rw [hcontext, hinterest]
    exact h.mask
  · rw [hcontext, hhandlers]
    exact h.registered
  · rw [hcontext]
    exact hhandler
  · rw [hcontext, hnode]
    exact h.node

/-- Only the context, its `Node` and what there is of its descriptor are new. -/
structure Local (w w' : World) (c : Nat) : Prop where
  others : ∀ d, d ≠ c → w'.contexts d = w.contexts d ∧ w'.memory d = w.memory d
  fd : (w.contexts c).status ≠ .unattached → (w'.contexts c).fd = (w.contexts c).fd
  engine : ∀ x, x ≠ (w'.contexts c).fd →
    w'.engine.handlers.find x = w.engine.handlers.find x ∧
    w'.engine.interest.find x = w.engine.interest.find x
  nodes : ∀ x, x ≠ (w'.contexts c).fd → w'.nodes.find x = w.nodes.find x
  owners : ∃ l, w'.owners = w.owners ++ l
  calls : w'.calls = w.calls

/-- What holds of the state beside the other contexts: the context is attached and served, or it is
not monitored any more. -/
structure After (w : World) (c : Nat) : Prop where
  status : (w.contexts c).status ≠ .unattached
  known : c ∈ w.owners
  owners : w.owners.length = w.engine.nextRegistration
  engine : EngineImpl.Inv w.engine
  noAbort : w.engine.aborted = false
  defined : w.undefined = false
  node : ∀ d, w.nodes.find (w.contexts c).fd = some d →
    (w.contexts d).status ≠ .unattached ∧ (w.contexts d).fd = (w.contexts c).fd
  served : ((w.contexts c).status = .attached ∧ Served w c) ∨
    ((w.contexts c).status ≠ .attached ∧ (w.memory c).isMonitoring = false ∧
      w.engine.handlers.find (w.contexts c).fd = none)

theorem Open.of_attached {w : World} {c : Nat}
    (hc : (w.contexts c).status = .attached) : Open w c := by
  unfold Open
  rw [hc]
  exact ⟨by simp, by simp⟩

namespace Inv

variable {w : World} {c : Nat}

theorem call (h : Inv w) (hc : (w.contexts c).status = .attached) (write : Bool) :
    Inv (w.call c write) := by
  refine ⟨h.engine, h.noAbort, fun call hcall => ?_, h.defined, h.owners, h.known, fun d hd => ?_,
    h.idle, h.registered, h.nodes, h.distinct⟩
  · rcases List.mem_append.mp hcall with hcall | hcall
    · exact h.noLateCall call hcall
    · rw [List.mem_singleton.mp hcall]
      exact decide_eq_true hc
  · exact (h.served d hd).untouched ⟨rfl, rfl, rfl, rfl, ⟨[], (List.append_nil _).symm⟩, rfl⟩

theorem setRunning (h : Inv w) (r : Option Running) : Inv { w with running := r } := by
  refine ⟨h.engine, h.noAbort, h.noLateCall, h.defined, h.owners, h.known, fun d hd => ?_,
    h.idle, h.registered, h.nodes, h.distinct⟩
  exact (h.served d hd).untouched ⟨rfl, rfl, rfl, rfl, ⟨[], (List.append_nil _).symm⟩, rfl⟩

/-- A `Node` that monitors is that of an attached context. -/
theorem attached_of_monitoring (h : Inv w) (hm : (w.memory c).isMonitoring = true) :
    (w.contexts c).status = .attached := by
  by_contra hc
  rw [h.idle c hc] at hm
  cases hm

theorem handleOut (h : Inv w) {out : Bool} (halive : out = true → (w.memory c).alive = true)
    (garbage : Bool) :
    Inv (w.handleOut c out garbage) := by
  unfold World.handleOut
  dsimp only
  generalize hready : (if (w.memory c).alive then (w.memory c).writing && (w.memory c).isMonitoring
    else garbage) = ready
  split
  · rename_i hwrite
    rw [Bool.and_eq_true] at hwrite
    obtain ⟨hout, rfl⟩ := hwrite
    rw [if_pos (halive hout), Bool.and_eq_true] at hready
    exact (h.call (h.attached_of_monitoring hready.2) true).setRunning _
  · exact h.setRunning _

/-- The engine calls the `Node` of an attached context. -/
theorem attached_of_handler (h : Inv w) {fd : Fd} (hc : w.handler fd = some c) :
    (w.contexts c).status = .attached := by
  have hsome : (w.engine.handlers.find fd).isSome := by
    by_contra hnone
    unfold World.handler at hc
    rw [Option.not_isSome_iff_eq_none.mp hnone] at hc
    cases hc
  obtain ⟨d, hd, rfl⟩ := h.registered fd hsome
  rw [(h.served d hd).handler] at hc
  cases hc
  exact hd

theorem eventHandler (h : Inv w) {fd : Fd} (hc : w.handler fd = some c) (inn out garbage : Bool) :
    Inv (w.eventHandler c inn out garbage) := by
  have hc := h.attached_of_handler hc
  unfold World.eventHandler
  dsimp only
  generalize (if (w.memory c).alive then (w.memory c).reading && (w.memory c).isMonitoring
    else garbage) = ready
  split
  · exact (h.call hc false).setRunning _
  · exact h.handleOut (fun _ => (h.served c hc).alive) garbage

/-- What a step does to one context leaves the others as they are, if its descriptor is that of no
other open one. -/
theorem update (h : Inv w) {w' : World} (hl : Local w w' c) (ha : After w' c)
    (hapart : ∀ d, d ≠ c → Open w d → (w.contexts d).fd ≠ (w'.contexts c).fd) : Inv w' := by
  obtain ⟨l, howners⟩ := hl.owners
  -- A context with another descriptor is another one.
  have hother : ∀ d, (w.contexts d).status ≠ .unattached →
    (w.contexts d).fd ≠ (w'.contexts c).fd → d ≠ c := by
    rintro d hd hfd rfl
    exact hfd (hl.fd hd).symm
  have hopen : ∀ d, d ≠ c → Open w' d → Open w d := by
    intro d hdc hd
    unfold Open at hd
    rw [(hl.others d hdc).1] at hd
    exact hd
  refine ⟨ha.engine, ha.noAbort, by rw [hl.calls]; exact h.noLateCall, ha.defined, ha.owners,
    fun d hd => ?_, fun d hd => ?_,
    fun d hd => ?_, fun fd hfd => ?_, fun fd d hd => ?_, fun d d' hd hd' hfd => ?_⟩
  · by_cases hdc : d = c
    · rw [hdc]
      exact ha.known
    · rw [(hl.others d hdc).1] at hd
      rw [howners]
      exact List.mem_append_left _ (h.known d hd)
  · by_cases hdc : d = c
    · rw [hdc] at hd ⊢
      rcases ha.served with ⟨-, hserved⟩ | ⟨hnot, -⟩
      · exact hserved
      · exact absurd hd hnot
    · rw [(hl.others d hdc).1] at hd
      have hfd := hapart d hdc (.of_attached hd)
      have hrest := hl.engine _ hfd
      exact (h.served d hd).untouched
        ⟨(hl.others d hdc).1, (hl.others d hdc).2, hrest.2, hrest.1, hl.owners, hl.nodes _ hfd⟩
  · by_cases hdc : d = c
    · rw [hdc] at hd ⊢
      rcases ha.served with ⟨hyes, -⟩ | ⟨-, hidle, -⟩
      · exact absurd hyes hd
      · exact hidle
    · rw [(hl.others d hdc).1] at hd
      rw [(hl.others d hdc).2]
      exact h.idle d hd
  · by_cases hne : fd = (w'.contexts c).fd
    · rcases ha.served with ⟨hyes, -⟩ | ⟨-, -, hgone⟩
      · exact ⟨c, hyes, hne.symm⟩
      · rw [hne, hgone] at hfd
        cases hfd
    · rw [(hl.engine fd hne).1] at hfd
      obtain ⟨d, hd, rfl⟩ := h.registered fd hfd
      refine ⟨d, ?_⟩
      rw [(hl.others d (hother d (Open.of_attached hd).1 hne)).1]
      exact ⟨hd, rfl⟩
  · by_cases hne : fd = (w'.contexts c).fd
    · rw [hne] at hd ⊢
      exact ha.node d hd
    · rw [hl.nodes fd hne] at hd
      obtain ⟨hstatus, rfl⟩ := h.nodes fd d hd
      rw [(hl.others d (hother d hstatus hne)).1]
      exact ⟨hstatus, rfl⟩
  · by_cases hdc : d = c <;> by_cases hdc' : d' = c
    · rw [hdc, hdc']
    · rw [hdc, (hl.others d' hdc').1] at hfd
      exact absurd hfd.symm (hapart d' hdc' (hopen d' hdc' hd'))
    · rw [hdc', (hl.others d hdc).1] at hfd
      exact absurd hfd (hapart d hdc (hopen d hdc hd))
    · rw [(hl.others d hdc).1, (hl.others d' hdc').1] at hfd
      exact h.distinct d d' (hopen d hdc hd) (hopen d' hdc' hd') hfd

theorem apart (h : Inv w) (hc : Open w c) : ∀ d, d ≠ c → Open w d →
    (w.contexts d).fd ≠ (w.contexts c).fd :=
  fun d hdc hd hfd => hdc (h.distinct d c hd hc hfd)

/-- The map is the same, and so is what it has of the descriptor. -/
theorem node_kept (h : Inv w) {w' : World} (hl : Local w w' c)
    (hstatus : (w'.contexts c).status ≠ .unattached) (hnodes : w'.nodes = w.nodes) (d : Nat)
    (hd : w'.nodes.find (w'.contexts c).fd = some d) :
    (w'.contexts d).status ≠ .unattached ∧ (w'.contexts d).fd = (w'.contexts c).fd := by
  by_cases hdc : d = c
  · rw [hdc]
    exact ⟨hstatus, rfl⟩
  · rw [hnodes] at hd
    rw [(hl.others d hdc).1]
    exact h.nodes _ d hd

theorem hook (h : Inv w) (hc : (w.contexts c).status = .attached) (k : Hook) :
    Inv ((w.setMonitor c ((w.monitor c).hook (w.contexts c).fd k)).setContext c
      ((w.contexts c).hook k)) := by
  have hs := h.served c hc
  have hspec := Monitor.hook_spec (m := w.monitor c) hs.agrees hs.registered hs.mask k
  have hfd : ((w.contexts c).hook k).fd = (w.contexts c).fd := by cases k <;> rfl
  have hstatus : ((w.contexts c).hook k).status = .attached := by
    cases k <;> exact hc
  generalize hw' : (w.setMonitor c ((w.monitor c).hook (w.contexts c).fd k)).setContext c
    ((w.contexts c).hook k) = w'
  have hself : w'.contexts c = (w.contexts c).hook k ∧
    w'.memory c = ((w.monitor c).hook (w.contexts c).fd k).node := by
    rw [← hw']
    exact ⟨Function.update_self .., Function.update_self ..⟩
  have hengine : w'.engine = ((w.monitor c).hook (w.contexts c).fd k).engine := by rw [← hw']; rfl
  have hhandlers : w'.engine.handlers = w.engine.handlers := by
    rw [hengine]
    exact hspec.handlers
  have howners : w'.owners = w.owners := by rw [← hw']; rfl
  have hnodes : w'.nodes = w.nodes := by rw [← hw']; rfl
  have hfd' : (w'.contexts c).fd = (w.contexts c).fd := by rw [hself.1, hfd]
  have hlive : (w'.contexts c).status ≠ .unattached := by
    rw [hself.1, hstatus]
    simp
  have hl : Local w w' c := by
    refine ⟨fun d hdc => ?_, fun _ => hfd', fun x hx => ⟨by rw [hhandlers], ?_⟩,
      fun x _ => by rw [hnodes], ⟨[], ?_⟩, ?_⟩
    · rw [← hw']
      exact ⟨Function.update_of_ne hdc .., Function.update_of_ne hdc ..⟩
    · rw [hfd'] at hx
      rw [hengine]
      exact hspec.others x hx
    · rw [howners, List.append_nil]
    · rw [← hw']
      rfl
  refine h.update hl ⟨hlive, ?_, ?_, ?_, ?_, ?_, h.node_kept hl hlive hnodes, .inl ⟨?_, ?_⟩⟩ ?_
  · rw [howners]
    exact h.known c (Open.of_attached hc).1
  · rw [howners, hengine]
    exact h.owners.trans hspec.registrations.symm
  · rw [hengine]
    exact Monitor.hook_engine (m := w.monitor c) h.engine _ k
  · rw [hengine]
    exact hspec.noAbort.trans h.noAbort
  · rw [← hw']
    show (w.undefined || !(w.memory c).alive) = false
    rw [h.defined, hs.alive]
    rfl
  · rw [hself.1, hstatus]
  · constructor
    · rw [hself.2]
      exact hspec.alive.trans hs.alive
    · rw [hself.2]
      exact hspec.monitoring.trans hs.monitoring
    · rw [hself.1, hself.2]
      exact hspec.agrees
    · rw [hself.1, hfd, hengine]
      exact hspec.mask
    · rw [hfd', hhandlers]
      exact hs.registered
    · rw [hfd', World.handler, hhandlers, howners]
      exact hs.handler
    · rw [hfd', hnodes]
      exact hs.node
  · rw [hfd']
    exact h.apart (.of_attached hc)

theorem cleanup (h : Inv w) (hc : (w.contexts c).status = .attached) :
    Inv ((w.setMonitor c ((w.monitor c).cleanup (w.contexts c).fd)).setContext c
      { w.contexts c with status := .cleanedUp, wantRead := false, wantWrite := false }) := by
  have hs := h.served c hc
  have hremoved := removed hs.registered
  generalize hw' : (w.setMonitor c ((w.monitor c).cleanup (w.contexts c).fd)).setContext c
    { w.contexts c with status := .cleanedUp, wantRead := false, wantWrite := false } = w'
  have hself : (w'.contexts c).status = .cleanedUp ∧ (w'.memory c).isMonitoring = false ∧
      (w'.contexts c).fd = (w.contexts c).fd := by
    rw [← hw']
    simp only [World.setContext, World.setMonitor, Function.update_self]
    exact ⟨trivial, rfl, trivial⟩
  have hengine : w'.engine = w.engine.deleteMonitoredFD (w.contexts c).fd := by rw [← hw']; rfl
  have howners : w'.owners = w.owners := by rw [← hw']; rfl
  have hnodes : w'.nodes = w.nodes := by rw [← hw']; rfl
  have hlive : (w'.contexts c).status ≠ .unattached := by
    rw [hself.1]
    simp
  have hl : Local w w' c := by
    refine ⟨fun d hdc => ?_, fun _ => hself.2.2, fun x hx => ?_,
      fun x _ => by rw [hnodes], ⟨[], ?_⟩, ?_⟩
    · rw [← hw']
      exact ⟨Function.update_of_ne hdc .., Function.update_of_ne hdc ..⟩
    · rw [hself.2.2] at hx
      rw [hengine]
      exact hremoved.others x hx
    · rw [howners, List.append_nil]
    · rw [← hw']
      rfl
  refine h.update hl ⟨hlive, ?_, ?_, ?_, ?_, ?_, h.node_kept hl hlive hnodes,
    .inr ⟨?_, hself.2.1, ?_⟩⟩ ?_
  · rw [howners]
    exact h.known c (Open.of_attached hc).1
  · rw [howners, hengine]
    exact h.owners.trans hremoved.registrations.symm
  · rw [hengine]
    exact h.engine.delete _
  · rw [hengine]
    exact hremoved.noAbort.trans h.noAbort
  · rw [← hw']
    show (w.undefined || !(w.memory c).alive) = false
    rw [h.defined, hs.alive]
    rfl
  · rw [hself.1]
    simp
  · rw [hself.2.2, hengine]
    exact hremoved.gone
  · rw [hself.2.2]
    exact h.apart (.of_attached hc)

/-- A context that is not attached goes on to the end of its life. -/
theorem retire (h : Inv w) (hc : Open w c) (hnot : (w.contexts c).status ≠ .attached)
    {status : Status} (hstatus : status = .detached ∨ status = .closed) :
    Inv (w.setContext c { w.contexts c with status := status }) := by
  generalize hw' : w.setContext c { w.contexts c with status := status } = w'
  have hself : w'.contexts c = { w.contexts c with status := status } := by
    rw [← hw']
    exact Function.update_self ..
  have hlive : (w'.contexts c).status ≠ .unattached ∧ (w'.contexts c).status ≠ .attached := by
    rw [hself]
    rcases hstatus with rfl | rfl <;> simp
  have hfd : (w'.contexts c).fd = (w.contexts c).fd := by rw [hself]
  have hgone : w.engine.handlers.find (w.contexts c).fd = none := by
    by_contra hsome
    obtain ⟨d, hd, hfd⟩ := h.registered _ (Option.isSome_iff_ne_none.mpr hsome)
    have hdc := h.distinct d c (.of_attached hd) hc hfd
    rw [hdc] at hd
    exact hnot hd
  have hl : Local w w' c := by
    rw [← hw'] at hfd ⊢
    exact ⟨fun d hdc => ⟨Function.update_of_ne hdc .., rfl⟩, fun _ => hfd,
      fun _ _ => ⟨rfl, rfl⟩, fun _ _ => rfl, ⟨[], (List.append_nil _).symm⟩, rfl⟩
  have hnodes : w'.nodes = w.nodes := by rw [← hw']; rfl
  have hnode := h.node_kept hl hlive.1 hnodes
  refine h.update hl ⟨hlive.1, ?_, ?_, ?_, ?_, ?_, hnode, .inr ⟨hlive.2, ?_, ?_⟩⟩ ?_
  · rw [← hw']
    exact h.known c hc.1
  · rw [← hw']
    exact h.owners
  · rw [← hw']
    exact h.engine
  · rw [← hw']
    exact h.noAbort
  · rw [← hw']
    exact h.defined
  · rw [← hw']
    exact h.idle c hnot
  · rw [hfd, ← hw']
    exact hgone
  · rw [hfd]
    exact h.apart hc

/-- No attached context has the descriptor: at most a `Node` goes that does not monitor. -/
theorem detach_eq (h : Inv w) {fd : Fd}
    (hfd : ∀ c, (w.contexts c).status = .attached → (w.contexts c).fd ≠ fd) :
    ∃ memory : Nat → Node, w.detach fd = { w with memory := memory, nodes := w.nodes.erase fd } ∧
      ∀ c, (memory c).isMonitoring = (w.memory c).isMonitoring ∧
        ((w.contexts c).status = .attached → memory c = w.memory c) := by
  unfold World.detach
  cases hnode : w.nodes.find fd with
  | none =>
    have hsame : w.nodes.erase fd = w.nodes := by
      refine OrdMap.ext_find fun x => ?_
      rw [OrdMap.find_erase]
      by_cases hx : x = fd
      · rw [if_pos hx, hx, hnode]
      · rw [if_neg hx]
    refine ⟨w.memory, ?_, fun c => ⟨rfl, fun _ => rfl⟩⟩
    rw [hsame]
  | some d =>
    have hnot : (w.contexts d).status ≠ .attached := fun hd => hfd d hd (h.nodes fd d hnode).2
    have hdestroyed : w.destroyNode d =
        { w with memory := Function.update w.memory d { w.memory d with alive := false } } := by
      unfold World.destroyNode
      simp [h.idle d hnot]
    refine ⟨Function.update w.memory d { w.memory d with alive := false }, ?_, fun c => ?_⟩
    · dsimp only
      rw [hdestroyed]
    by_cases hcd : c = d
    · rw [hcd, Function.update_self]
      exact ⟨rfl, fun hd => absurd hd hnot⟩
    · rw [Function.update_of_ne hcd]
      exact ⟨rfl, fun _ => rfl⟩

theorem detach (h : Inv w) {fd : Fd} (hfd : ∀ c, (w.contexts c).status = .attached →
    (w.contexts c).fd ≠ fd) :
    Inv (w.detach fd) := by
  obtain ⟨memory, hw', hmemory⟩ := h.detach_eq hfd
  rw [hw']
  refine ⟨h.engine, h.noAbort, h.noLateCall, h.defined, h.owners, h.known, fun c hc => ?_,
    fun c hc => ?_, h.registered, fun x c hc => ?_, h.distinct⟩
  · refine (h.served c hc).untouched ⟨rfl, (hmemory c).2 hc, rfl, rfl,
      ⟨[], (List.append_nil _).symm⟩, ?_⟩
    exact OrdMap.find_erase_of_ne (hfd c hc)
  · exact (hmemory c).1.trans (h.idle c hc)
  · have hc : (w.nodes.erase fd).find x = some c := hc
    rw [OrdMap.find_erase] at hc
    by_cases hx : x = fd
    · rw [if_pos hx] at hc
      cases hc
    · rw [if_neg hx] at hc
      exact h.nodes x c hc

/-- A new context and its `Node`, where neither the map nor the engine has the descriptor. -/
theorem insertNode (h : Inv w) {fd : Fd} (hc : (w.contexts c).status = .unattached)
    (hfree : ∀ d, Open w d → (w.contexts d).fd ≠ fd) (hnode : w.nodes.find fd = none) :
    Inv ({ w with
      memory := Function.update w.memory c ((w.monitor c).attach fd).node
      engine := ((w.monitor c).attach fd).engine
      owners := w.owners ++ [c]
      nodes := w.nodes.insert fd c }.setContext c ⟨fd, .attached, false, false⟩) := by
  have hgone : w.engine.handlers.find fd = none := by
    by_contra hsome
    obtain ⟨d, hd, hdfd⟩ := h.registered fd (Option.isSome_iff_ne_none.mpr hsome)
    exact hfree d (.of_attached hd) hdfd
  have hadded := added h.engine hgone
  generalize hw' : World.setContext _ c ⟨fd, .attached, false, false⟩ = w'
  have hself : w'.contexts c = ⟨fd, .attached, false, false⟩ ∧
    w'.memory c = ⟨0, false, false, true, true⟩ := by
    rw [← hw']
    exact ⟨Function.update_self .., Function.update_self ..⟩
  have hengine : w'.engine = w.engine.addMonitoredFD fd 0 := by rw [← hw']; rfl
  have howners : w'.owners = w.owners ++ [c] := by rw [← hw']; rfl
  have hnodes : ∀ x, w'.nodes.find x = if x = fd then some c else w.nodes.find x := by
    intro x
    rw [← hw']
    show (w.nodes.insert fd c).find x = _
    rw [OrdMap.find_insert, hnode]
    rfl
  have hl : Local w w' c := by
    refine ⟨fun d hdc => ?_, fun hlive => absurd hc hlive, fun x hx => ?_, fun x hx => ?_,
      ⟨[c], howners⟩, ?_⟩
    · rw [← hw']
      exact ⟨Function.update_of_ne hdc .., Function.update_of_ne hdc ..⟩
    · rw [hself.1] at hx
      rw [hengine]
      exact hadded.others x hx
    · rw [hself.1] at hx
      rw [hnodes, if_neg hx]
    · rw [← hw']
      rfl
  refine h.update hl ⟨?_, ?_, ?_, ?_, ?_, ?_, fun d hd => ?_, .inl ⟨?_, ?_⟩⟩ fun d _ hd => ?_
  · rw [hself.1]
    simp
  · rw [howners]
    exact List.mem_append_right _ (List.mem_singleton_self c)
  · rw [howners, hengine, hadded.registrations, ← h.owners, List.length_append]
    rfl
  · rw [hengine]
    exact h.engine.add fd 0
  · rw [hengine]
    exact hadded.noAbort.trans h.noAbort
  · rw [← hw']
    exact h.defined
  · rw [hself.1, hnodes, if_pos rfl] at hd
    cases hd
    rw [hself.1]
    exact ⟨by simp, rfl⟩
  · rw [hself.1]
  · constructor
    · rw [hself.2]
    · rw [hself.2]
    · rw [hself.1, hself.2]
      exact ⟨rfl, rfl, (mask_none _ _).symm⟩
    · rw [hself.1, mask_none, hengine]
      exact hadded.mask
    · rw [hself.1, hengine, hadded.registration]
      rfl
    · rw [hself.1, World.handler, hengine, hadded.registration, howners, ← h.owners]
      simp
    · rw [hself.1, hnodes, if_pos rfl]
  · rw [hself.1]
    exact hfree d hd

theorem attach (h : Inv w) {fd : Fd} (hc : (w.contexts c).status = .unattached)
    (hfree : w.Free fd) :
    Inv ((w.attach c fd).setContext c ⟨fd, .attached, false, false⟩) := by
  have hopen : ∀ d, Open w d → (w.contexts d).fd ≠ fd :=
    fun d hd hfd => hd.2 (hfree d (h.known d hd.1) hfd)
  have hattached : ∀ d, (w.contexts d).status = .attached → (w.contexts d).fd ≠ fd :=
    fun d hd => hopen d (.of_attached hd)
  have hdetach := h.detach hattached
  obtain ⟨memory, hw', -⟩ := h.detach_eq hattached
  unfold World.attach
  rw [hw'] at hdetach ⊢
  refine hdetach.insertNode hc hopen ?_
  exact (OrdMap.find_erase _ _ _).trans (if_pos rfl)

/-- The disconnect callback. -/
theorem disconnect (h : Inv w) (hc : (w.contexts c).status = .cleanedUp) :
    Inv ((w.detach (w.contexts c).fd).setContext c { w.contexts c with status := .detached }) := by
  have hopen : Open w c := by
    unfold Open
    rw [hc]
    exact ⟨by simp, by simp⟩
  have hattached : ∀ d, (w.contexts d).status = .attached →
    (w.contexts d).fd ≠ (w.contexts c).fd := by
    intro d hd hfd
    rw [h.distinct d c (.of_attached hd) hopen hfd, hc] at hd
    cases hd
  have hdetach := h.detach hattached
  obtain ⟨memory, hw', -⟩ := h.detach_eq hattached
  rw [hw'] at hdetach ⊢
  exact hdetach.retire hopen (by rw [hc]; simp) (.inl rfl)

end Inv

theorem step_inv {w w' : World} {e : Event} (h : Inv w) (hg : NodeSurvives w e)
    (hst : w.step e = some w') : Inv w' := by
  unfold World.step at hst
  cases e with
  | attach c fd =>
    simp only at hst
    split at hst
    · rename_i hc
      cases hst
      exact h.attach hc.1 hc.2
    · cases hst
  | hook c k =>
    simp only at hst
    split at hst
    · rename_i hc
      cases hst
      exact h.hook hc k
    · cases hst
  | cleanup c =>
    simp only at hst
    split at hst
    · rename_i hc
      cases hst
      exact h.cleanup hc
    · cases hst
  | detach c =>
    simp only at hst
    split at hst
    · rename_i hc
      cases hst
      exact h.disconnect hc
    · cases hst
  | close c =>
    simp only at hst
    split at hst
    · rename_i hc
      cases hst
      refine h.retire ⟨?_, ?_⟩ ?_ (.inr rfl)
      · rcases hc with hc | hc <;> simp [hc]
      · rcases hc with hc | hc <;> simp [hc]
      · rcases hc with hc | hc <;> simp [hc]
    · cases hst
  | event fd inn out garbage =>
    simp only at hst
    split at hst
    · rename_i c _ hc
      cases hst
      exact h.eventHandler hc inn out garbage
    · cases hst
  | readReturns garbage =>
    simp only at hst
    split at hst
    · rename_i c out hrunning
      cases hst
      refine h.handleOut (fun hout => ?_) garbage
      rw [hout] at hrunning
      exact hg _ hrunning
    · cases hst
  | writeReturns =>
    simp only at hst
    split at hst
    · cases hst
      exact h.setRunning none
    · cases hst

theorem reach_inv {w : World} (h : sys.Reach NodeSurvives w) : Inv w := by
  refine Sys.Reach.invariant ?_ (fun w e w' hinv hg hst => ?_) h
  · refine ⟨EngineImpl.reach_inv .init, rfl, fun _ hc => ?_, rfl, rfl, fun _ hc => ?_,
      fun _ hc => ?_, fun _ _ => rfl, fun _ hf => ?_, fun _ _ hf => ?_, fun _ _ hc => ?_⟩
    · exact absurd hc List.not_mem_nil
    · exact absurd rfl hc
    · cases hc
    · cases hf
    · cases hf
    · exact absurd rfl hc.1
  · simp only [sys] at hst
    split at hst
    · cases hst
    · exact step_inv hinv hg hst

theorem Inv.mirrors {w : World} (h : Inv w) : Mirrors w.engine w.contexts w.calls := by
  refine ⟨fun c hc => (h.served c hc).mask, fun fd => ⟨h.registered fd, ?_⟩,
    h.noAbort, h.noLateCall⟩
  rintro ⟨c, hc, rfl⟩
  exact (h.served c hc).registered

/-- The read handler disconnects its context, and the disconnect callback destroys the `Node`. -/
def disconnectInRead (out : Bool) : List Event :=
  [.attach 1 5, .hook 1 .addRead, .hook 1 .addWrite, .event 5 true out false, .cleanup 1, .detach 1,
    .readReturns true]

end Cluster

/-! ## Both adapters -/

/-- **Epoll adapters mirror hiredis.** In every run of `HiredisEpollAdapter`, and in every run of
`HiredisClusterEpollAdapter` where the `Node` of an event for reading and writing survives the read
handler, the mask of each attached context is what hiredis wants, exactly the descriptors of the
attached contexts are registered, the engine does not abort, and no call of hiredis is made for a
context that is not attached. -/
theorem adapters_mirror (a : Single.World) (ha : Single.sys.Reach Sys.always a) (w : Cluster.World)
    (hw : Cluster.sys.Reach Cluster.NodeSurvives w) :
    Mirrors a.engine a.contexts a.calls ∧ Mirrors w.engine w.contexts w.calls ∧
      w.undefined = false := by
  have hinv := Cluster.reach_inv hw
  exact ⟨(Single.reach_inv ha).mirrors, hinv.mirrors, hinv.defined⟩

/-- The first context is cleaned up in its read handler, for the cluster in an event that is not for
writing, and the next one takes its descriptor. -/
theorem reuse_mirrors : ∃ a w, Single.sys.Reach Sys.always a ∧
    Cluster.sys.Reach Cluster.NodeSurvives w ∧
    (a.calls = [⟨1, false, true⟩] ∧ a.engine.interest.find 5 = some EVENT_IN ∧
      Mirrors a.engine a.contexts a.calls) ∧
    (w.calls = [⟨1, false, true⟩] ∧ w.engine.interest.find 5 = some EVENT_IN ∧
      Mirrors w.engine w.contexts w.calls) := by
  obtain ⟨a, ha, hva⟩ := Sys.reach_run_map (S := Single.sys) (G := Sys.always) Single.reuseInRead
    (fun a => (a.calls, a.engine.interest.find 5)) (b := ([⟨1, false, true⟩], some EVENT_IN))
      (by decide +kernel)
  obtain ⟨w, hw, hvw⟩ := Sys.reach_run_map (S := Cluster.sys) (G := Cluster.NodeSurvives)
    (Cluster.disconnectInRead false ++ [.close 1, .attach 2 5, .hook 2 .addRead])
    (fun w => (w.calls, w.engine.interest.find 5)) (b := ([⟨1, false, true⟩], some EVENT_IN))
      (by decide +kernel)
  simp only [Prod.mk.injEq] at hva hvw
  obtain ⟨hma, hmw, -⟩ := adapters_mirror a ha w hw
  exact ⟨a, w, ha, hw, ⟨hva.1, hva.2, hma⟩, hvw.1, hvw.2, hmw⟩

/-- `Node::eventHandler` goes on with the members of the destroyed `Node`. -/
theorem disconnectInRead_late : ¬ ∀ w, Cluster.sys.Reach Sys.always w →
    Mirrors w.engine w.contexts w.calls := by
  intro hall
  obtain ⟨w, hw, hcalls⟩ := Sys.reach_run_map (S := Cluster.sys) (G := Sys.always)
    (Cluster.disconnectInRead true) (fun w => w.calls) (b := [⟨1, false, true⟩, ⟨1, true, false⟩])
    (by decide +kernel)
  have hlate := (hall w hw).noLateCall ⟨1, true, false⟩ (by rw [hcalls]; simp)
  cases hlate

end EpollAdapter
end Sdl
