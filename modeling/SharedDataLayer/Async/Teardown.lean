import SharedDataLayer.Hiredis.StateMachine
import SharedDataLayer.Sentinel.Unchanged

/-!
# Teardown

What is still called back after `disableCommandCallbacks` of a dispatcher, after
`clearStateChangedCb` of a discovery, and after the destruction of the storage that owns them. Work
can be pending in four places then: replies and null replies of hiredis, callbacks that were posted
to the engine, and armed retry timers. The timers are members and are disarmed with their owners,
and the replies meet the flag of the dispatcher. A callback that was posted does not:
`callCommandCbWithError` asks no flag, and `AsyncHiredisDatabaseDiscovery::clearStateChangedCb` is
empty.

Callbacks are numbered. `called` records each call of one, and whether it was enabled (still
registered) then; `clearedBelow` is the first number that was not registered before the last
`clearStateChangedCb`.

* `Dispatcher.Inv`, `Hiredis.Inv`, `Sentinel.Inv`: the dispatcher and the two discoveries.
* `Storage.Alive`, `Storage.Gone`: the storage with its discovery and all its dispatchers.
* `teardown_silent`: no late callback, in the runs where nothing bound is posted at the teardown,
  and nothing is called on a dispatcher that discovery has replaced.
-/

namespace Sdl
namespace Teardown

open Spec Redis Hiredis

/-- No callback was called after it was disabled. -/
def Silent (called : List (Nat × Bool)) : Prop := ∀ c ∈ called, c.2 = true

/-! ## `AsyncHiredisCommandDispatcher` -/

namespace Dispatcher

open Machine

def disableCommandCallbacks (w : World) : World := { w with clientCallbacksEnabled := false }

inductive Event where
  | run (e : Machine.Event)
  | disableCommandCallbacks

/-- The dispatcher of `Hiredis/StateMachine.lean`, whose callbacks may be disabled at any time. -/
def sys (cfg : Machine.Config) (ok : Bool) : Sys World (Env × Event) where
  init := (Machine.sys cfg ok).init
  step w e :=
    match e.2 with
    | .run ev => (Machine.sys cfg ok).step w (e.1, ev)
    | .disableCommandCallbacks => some (disableCommandCallbacks w)

/-- The failure of a command of the client. -/
def isClientFailure : Posted Nat → Bool
  | .callCommandCbWithError _ (.client _) _ => true
  | _ => false

/-- hiredis accepts the next `n` commands. -/
def Accepted (env : Env) (c : Core Nat) (n : Nat) : Prop :=
  n = 0 ∨ c.serviceState = .connected ∧ c.freeing = false ∧ ∀ i < n,
    env.accept (c.nextCb + i) = true

/-- The commands that the client dispatches in a step without a callback of a command are
accepted. -/
def Accepts (cfg : Machine.Config) (env : Env) (w : World) : Machine.Event → Prop
  | .command => Accepted env w.dispatcher.core 1
  | .connected | .timer _ =>
    cfg.usedForSentinel = true → Accepted env
    { w.dispatcher.core with serviceState := .connected } env.onConnected
  | .posted i => ∀ ack, w.posted[i]? = some (.connectAck ack) →
    Accepted env w.dispatcher.core env.onConnected
  | _ => True

/-- Callbacks are disabled while no failure is posted, and no command is refused afterwards. -/
def Quiet (cfg : Machine.Config) (w : World) (e : Env × Event) : Prop :=
  match e.2 with
  | .disableCommandCallbacks => ∀ p ∈ w.posted, isClientFailure p = false
  | .run ev => w.clientCallbacksEnabled = false → Accepts cfg e.1 w ev

section Proofs

variable {cfg : Machine.Config} {env : Env} {w : World}

/-- What a dispatcher without callbacks does to the callbacks: it calls none, and posts none of the
client. -/
structure Still (w w' : World) : Prop where
  enabled : w'.clientCallbacksEnabled = w.clientCallbacksEnabled
  called : w'.called = w.called
  posted : ∀ p ∈ w'.posted, p ∈ w.posted ∨ isClientFailure p = false

theorem Still.of_eq {w w' : World} (he : w'.clientCallbacksEnabled = w.clientCallbacksEnabled)
    (hc : w'.called = w.called) (hp : w'.posted = w.posted) : Still w w' :=
  ⟨he, hc, fun _ hm => .inl (hp ▸ hm)⟩

/-- A command that is accepted posts nothing. -/
theorem command_accepted (hs : w.dispatcher.core.serviceState = .connected)
    (hf : w.dispatcher.core.freeing = false) (ha : env.accept w.dispatcher.core.nextCb = true) :
    (command env w).posted = w.posted ∧ (command env w).dispatcher.core.serviceState = .connected ∧
      (command env w).dispatcher.core.freeing = false ∧
      (command env w).dispatcher.core.nextCb = w.dispatcher.core.nextCb + 1 := by
  simp [command, Core.dispatchAsync, hs, hf, ha]

theorem commands_still {n : Nat} (h : Accepted env w.dispatcher.core n) :
    Still w (commands env n w) := by
  obtain rfl | ⟨hs, hf, ha⟩ := h
  · exact .of_eq rfl rfl rfl
  -- The number of the next command grows with each one, so each meets its own acceptance.
  have hn : ∀ m ≤ n, (commands env m w).posted = w.posted ∧
      (commands env m w).dispatcher.core.serviceState = .connected ∧
      (commands env m w).dispatcher.core.freeing = false ∧
      (commands env m w).dispatcher.core.nextCb = w.dispatcher.core.nextCb + m := by
    intro m
    induction m with
    | zero => exact fun _ => ⟨rfl, hs, hf, rfl⟩
    | succ m ih =>
      intro hm
      obtain ⟨hp, hst, hfr, hnx⟩ := ih (by omega)
      have hacc : env.accept (commands env m w).dispatcher.core.nextCb = true := by
        rw [hnx]
        exact ha m (by omega)
      obtain ⟨hp', hst', hfr', hnx'⟩ := command_accepted hst hfr hacc
      exact ⟨hp'.trans hp, hst', hfr', by rw [commands, Nat.repeat, ← commands, hnx', hnx]; omega⟩
  have hc : ∀ m, (commands env m w).called = w.called := by
    intro m
    induction m with
    | zero => rfl
    | succ m ih => exact ih
  exact .of_eq (commands_keeps n w).enabled (hc n) (hn n (Nat.le_refl n)).1

theorem setConnected_still
    (h : Accepted env { w.dispatcher.core with serviceState := .connected } env.onConnected) :
    Still w (setConnected env w) := by
  unfold setConnected
  simp only
  split
  · have hc : Still (w.setState .connected)
      (commands env env.onConnected (w.setState .connected)) := commands_still h
    exact ⟨hc.enabled, hc.called, hc.posted⟩
  · exact .of_eq rfl rfl rfl

theorem verifyConnection_still (h : cfg.usedForSentinel = true →
    Accepted env { w.dispatcher.core with serviceState := .connected } env.onConnected) :
    Still w (verifyConnection cfg env w) := by
  unfold verifyConnection
  split
  · exact setConnected_still (h ‹_›)
  · refine ⟨rfl, rfl, fun p hp => (List.mem_append.mp hp).imp_right fun hp => ?_⟩
    simp only [Dispatcher.verifyConnection, Core.dispatchAsync] at hp
    split at hp
    · rw [List.mem_singleton.mp hp]
      rfl
    · split at hp
      · cases hp
      · rw [List.mem_singleton.mp hp]
        rfl

/-- A reply meets the flag. -/
theorem cb_disabled (hd : w.clientCallbacksEnabled = false) (i : Nat) (rr : Option RedisReply) :
    cb cfg env w i rr = w := by
  simp [cb, hd]

/-- So do the null replies of a context that is freed. -/
theorem freeContext_disabled (hd : w.clientCallbacksEnabled = false) :
    (freeContext cfg env w).clientCallbacksEnabled = false ∧
    (freeContext cfg env w).called = w.called ∧
      (freeContext cfg env w).posted = w.posted := by
  have hf : ∀ (l : List Nat) (v : World), v.clientCallbacksEnabled = false →
      let v' := l.foldl (fun w i => complete cfg env w none i) v
      v'.clientCallbacksEnabled = false ∧ v'.called = v.called ∧ v'.posted = v.posted := by
    intro l
    induction l with
    | nil => exact fun _ hv => ⟨hv, rfl, rfl⟩
    | cons i l ih =>
      intro v hv
      simp only [List.foldl_cons, complete]
      rw [cb_disabled (w := v.setCore fun c => c.completed i) hv]
      exact ih (v.setCore fun c => c.completed i) hv
  exact hf w.dispatcher.core.pending (w.setCore fun c => { c with freeing := true }) hd

/-- The failure of `COMMAND` arms the retry timer. -/
theorem runPosted_still {p : Posted Nat} (hp : isClientFailure p = false) (he : Posted.Error p)
    (ha : ∀ ack, p = .connectAck ack → Accepted env w.dispatcher.core env.onConnected) :
    Still w (runPosted env w p) := by
  cases p with
  | connectAck ack => exact commands_still (ha ack rfl)
  | callCommandCbWithError self k e =>
    cases k with
    | client k => cases hp
    | verifyConnectionReply =>
      have he : e.isError = true := he
      simp only [runPosted, callCb, verifyConnectionReply, verified_error he]
      rw [if_pos he]
      exact .of_eq rfl rfl rfl

/-- Without callbacks, and with all commands accepted, a step calls none and posts none of the
client. -/
theorem step_still {w' : World} {e : Machine.Event} (hi : Inv cfg none False w)
    (hd : w.clientCallbacksEnabled = false) (hq : ∀ p ∈ w.posted, isClientFailure p = false)
    (ha : Accepts cfg env w e) (hs : step cfg env w e = some w') : Still w w' := by
  cases e <;> simp only [step] at hs
  case command =>
    cases hs
    exact commands_still (n := 1) ha
  case waitConnectedAsync =>
    cases hs
    refine ⟨rfl, rfl, fun p hp => (List.mem_append.mp hp).imp_right fun hp => ?_⟩
    simp only [Core.waitConnectedAsync] at hp
    split at hp
    · rw [List.mem_singleton.mp hp]
      rfl
    · cases hp
  case connected =>
    split at hs <;> cases hs
    have h := verifyConnection_still (w := { w with
      dispatcher := { w.dispatcher with link := .up } }) ha
    exact ⟨h.enabled, h.called, h.posted⟩
  case connectFailed =>
    split at hs <;> cases hs
    obtain ⟨he, hc, hp⟩ := @freeContext_disabled cfg env w.setDisconnected hd
    exact .of_eq (he.trans hd.symm) hc hp
  case reply =>
    split at hs
    · obtain ⟨i, -, rfl⟩ := Option.map_eq_some_iff.mp hs
      unfold complete
      rw [cb_disabled (w := w.setCore fun c => c.completed i) hd]
      exact .of_eq rfl rfl rfl
    · cases hs
  case message =>
    split at hs <;> cases hs
    rw [cb_disabled hd]
    exact .of_eq rfl rfl rfl
  case lost =>
    split at hs <;> cases hs
    obtain ⟨he, hc, hp⟩ := @freeContext_disabled cfg env w hd
    exact .of_eq (he.trans hd.symm) hc hp
  case timer =>
    split at hs <;> cases hs
    · exact .of_eq rfl rfl rfl
    · have h := verifyConnection_still
        (w := { w with dispatcher := { w.dispatcher with connectionRetryTimer := none } }) ha
      exact ⟨h.enabled, h.called, h.posted⟩
  case posted i =>
    obtain ⟨p, hp, rfl⟩ := Option.map_eq_some_iff.mp hs
    have hm := List.mem_of_getElem? hp
    have h : Still { w with posted := w.posted.eraseIdx i } _ :=
      runPosted_still (hq p hm) (hi.error p hm) fun ack he => ha ack (he ▸ hp)
    exact ⟨h.enabled, h.called, fun q hm => (h.posted q hm).imp_left List.mem_of_mem_eraseIdx⟩

/-- In the runs with `Quiet` no callback is called while they are disabled. -/
structure Inv (cfg : Machine.Config) (w : World) : Prop where
  machine : Machine.Inv cfg none False w
  silent : Silent w.called
  posted : w.clientCallbacksEnabled = false → ∀ p ∈ w.posted, isClientFailure p = false

theorem Inv.disable (h : Inv cfg w) (hp : ∀ p ∈ w.posted, isClientFailure p = false) :
    Inv cfg (disableCommandCallbacks w) where
  machine := by
    have hm := h.machine
    exact ⟨hm.lt, hm.none_timer, hm.timer_none, hm.none_state, hm.connecting, hm.up, hm.verified,
      fun _ _ he => (by cases he), fun hu => ⟨(hm.sentinel hu).state, (hm.sentinel hu).timer,
        (hm.sentinel hu).cbs,
        (hm.sentinel hu).posted⟩, hm.error, hm.calls⟩
  silent := h.silent
  posted := fun _ => hp

theorem Inv.run {w' : World} {e : Machine.Event} (h : Inv cfg w)
    (ha : w.clientCallbacksEnabled = false → Accepts cfg env w e)
      (hs : step cfg env w e = some w') : Inv cfg w' := by
  have hm := h.machine.step hs
  have hk := step_keeps hs
  cases he : w.clientCallbacksEnabled with
  | true =>
    refine ⟨hm, fun c hc => ?_, fun hd => ?_⟩
    · exact (hk.called c hc).elim (h.silent c) fun hc => hc.trans he
    · cases (hk.enabled.trans he).symm.trans hd
  | false =>
    have hst := step_still h.machine he (h.posted he) (ha he) hs
    refine ⟨hm, fun c hc => h.silent c (hst.called ▸ hc), fun _ p hp => ?_⟩
    exact (hst.posted p hp).elim (h.posted he p) id

theorem inv_of_reach {ok : Bool} (h : (sys cfg ok).Reach (Quiet cfg) w) : Inv cfg w := by
  refine h.invariant ⟨inv_init ok, fun c hc => (by cases hc), fun hd => (by cases hd)⟩ ?_
  rintro s ⟨env, e⟩ s' hi hq hs
  cases e with
  | run e =>
    obtain ⟨hs, -⟩ := Option.filter_eq_some_iff.mp hs
    exact hi.run hq hs
  | disableCommandCallbacks =>
    cases hs
    exact hi.disable hq

end Proofs

end Dispatcher

/-! ## `AsyncHiredisDatabaseDiscovery` -/

namespace Hiredis

structure World where
  posted : List Nat
  next : Nat
  clearedBelow : Nat
  called : List (Nat × Bool)

inductive Event where
  | setStateChangedCb
  | clearStateChangedCb
  /-- The engine calls the posted callback `i`. -/
  | posted (i : Nat)

def step (w : World) : Event → Option World
  | .setStateChangedCb => some { w with posted := w.posted ++ [w.next], next := w.next + 1 }
  -- The function of the source is empty.
  | .clearStateChangedCb => some { w with clearedBelow := w.next }
  | .posted i => (w.posted[i]?).map fun k =>
    { w with posted := w.posted.eraseIdx i,
             called := w.called ++ [(k, decide (w.clearedBelow ≤ k))] }

def sys : Sys World Event where
  init := ⟨[], 0, 0, []⟩
  step := step

/-- The callback is cleared after it was called. -/
def Settled (w : World) (e : Event) : Prop := e = .clearStateChangedCb → w.posted = []

/-- Everything that is posted was registered after the last `clearStateChangedCb`. -/
structure Inv (w : World) : Prop where
  silent : Silent w.called
  posted : ∀ k ∈ w.posted, w.clearedBelow ≤ k
  next : w.clearedBelow ≤ w.next

theorem Inv.step {w w' : World} {e : Event} (h : Inv w) (hq : Settled w e)
    (hs : step w e = some w') : Inv w' := by
  cases e with
  | setStateChangedCb =>
    cases hs
    refine ⟨h.silent, fun k hk => ?_, Nat.le_succ_of_le h.next⟩
    rcases List.mem_append.mp hk with hk | hk
    · exact h.posted k hk
    · rw [List.mem_singleton.mp hk]
      exact h.next
  | clearStateChangedCb =>
    cases hs
    refine ⟨h.silent, fun k hk => ?_, Nat.le_refl _⟩
    rw [hq rfl] at hk
    cases hk
  | posted i =>
    obtain ⟨k, hk, rfl⟩ := Option.map_eq_some_iff.mp hs
    refine ⟨fun c hc => ?_, fun j hj => h.posted j (List.mem_of_mem_eraseIdx hj), h.next⟩
    rcases List.mem_append.mp hc with hc | hc
    · exact h.silent c hc
    · rw [List.mem_singleton.mp hc]
      exact decide_eq_true (h.posted k (List.mem_of_getElem? hk))

theorem inv_of_reach {w : World} (h : sys.Reach Settled w) : Inv w :=
  h.invariant ⟨fun c hc => (by cases hc), fun k hk => (by cases hk), Nat.le_refl _⟩
    fun _ _ _ => Inv.step

end Hiredis

/-! ## `AsyncSentinelDatabaseDiscovery` -/

namespace Sentinel

structure World (net : Resolver) where
  discovery : Sentinel.Agreement.World net
  stateChangedCb : Option Nat
  next : Nat
  clearedBelow : Nat
  called : List (Nat × Bool)

inductive Event (net : Resolver) where
  | setStateChangedCb
  | clearStateChangedCb
  /-- A step of Sentinel, of the connections to it or of the discovery. -/
  | run (c : Sentinel.Agreement.Choice) (e : Sentinel.Agreement.Event net)

variable {net : Resolver}

/-- `if (stateChangedCb) stateChangedCb(databaseInfo)`, for each address that an ack got in the
step. -/
def report (w : World net) (d : Sentinel.Agreement.World net) : World net :=
  match w.stateChangedCb with
  | some k => { w with discovery := d, called := w.called ++
      (d.reports.drop w.discovery.reports.length).map fun _ => (k, decide (w.clearedBelow ≤ k)) }
  | none => { w with discovery := d }

def step (n : Sentinel.Agreement.MasterName) (w : World net) : Event net → Option (World net)
  | .setStateChangedCb => some { w with
      stateChangedCb := some w.next
      next := w.next + 1
      discovery := Sentinel.Agreement.waitSubscriber w.discovery }
  | .clearStateChangedCb => some { w with stateChangedCb := none, clearedBelow := w.next }
  | .run c e =>
    if w.discovery.ended then none else (Sentinel.Agreement.step n c w.discovery e).map (report w)

/-- The discovery after its constructor and a first `setStateChangedCb`. -/
def init (n : Sentinel.Agreement.MasterName) (first : Sentinel.Agreement.Master net) : World net :=
  ⟨(Sentinel.Agreement.sys n first).init, some 0, 1, 0, []⟩

def sys (n : Sentinel.Agreement.MasterName) (first : Sentinel.Agreement.Master net) :
    Sys (World net) (Event net) where
  init := init n first
  step := step n

/-- The callback that is set was registered after the last `clearStateChangedCb`. -/
structure Inv (w : World net) : Prop where
  silent : Silent w.called
  set : ∀ k, w.stateChangedCb = some k → w.clearedBelow ≤ k
  next : w.clearedBelow ≤ w.next

theorem Inv.report {w : World net} (h : Inv w) (d : Sentinel.Agreement.World net) :
    Inv (report w d) := by
  unfold Sentinel.report
  split
  · rename_i k hk
    refine ⟨fun c hc => ?_, h.set, h.next⟩
    rcases List.mem_append.mp hc with hc | hc
    · exact h.silent c hc
    · obtain ⟨r, -, rfl⟩ := List.mem_map.mp hc
      exact decide_eq_true (h.set k hk)
  · exact ⟨h.silent, h.set, h.next⟩

theorem Inv.step {n : Sentinel.Agreement.MasterName} {w w' : World net} {e : Event net} (h : Inv w)
    (hs : step n w e = some w') : Inv w' := by
  cases e with
  | setStateChangedCb =>
    cases hs
    refine ⟨h.silent, fun k hk => ?_, Nat.le_succ_of_le h.next⟩
    cases hk
    exact h.next
  | clearStateChangedCb =>
    cases hs
    exact ⟨h.silent, fun k hk => (by cases hk), Nat.le_refl _⟩
  | run c e =>
    simp only [Sentinel.step] at hs
    split at hs
    · cases hs
    · obtain ⟨d, -, rfl⟩ := Option.map_eq_some_iff.mp hs
      exact h.report d

theorem inv_of_reach {n : Sentinel.Agreement.MasterName}
    {first : Sentinel.Agreement.Master net} {w : World net}
    (h : (sys n first).Reach Sys.always w) : Inv w :=
  h.invariant ⟨fun c hc => (by cases hc), fun k _ => Nat.zero_le k, Nat.zero_le _⟩
    fun _ _ _ hi _ => hi.step

end Sentinel

/-! ## `AsyncRedisStorage` -/

namespace Storage

open Machine

/-- The discovery that a storage owns. -/
inductive Discovery (net : Resolver) where
  | hiredis (w : Hiredis.World)
  | sentinel (w : Sentinel.World net)

/-- What a function is called on. -/
inductive Object where
  | storage | discovery | dispatcher
  deriving DecidableEq

structure World (net : Resolver) where
  discovery : Discovery net
  installed : Option Machine.World
  /-- The dispatchers that another one has replaced; of these only what they have posted is left. -/
  replaced : List Machine.World
  destroyed : Bool
  /-- What was called on an object that had been destroyed. -/
  ran : List Object

/-- What the environment decides during a step. `ok` is as for `connect`, `readyAck` says whether a
client waits for the service, and `reactions` is the number of commands that clients dispatch on the
installed dispatcher from inside callbacks of a replaced one. -/
structure Choice where
  env : Machine.Env
  ok : Bool
  readyAck : Bool
  reactions : Nat

/-- The dispatchers of a storage. -/
def config : Machine.Config := ⟨false, false⟩

section Functions

variable {net : Resolver} (c : Choice)

/-- For a dispatcher that is not installed: no further command is dispatched on it. -/
def Choice.noReactions : Machine.Env := { c.env with react := fun _ => 0, onConnected := 0 }

/-- The destructor of a dispatcher: `disconnectHiredis`. The retry timer and the monitoring of the
socket are disarmed with the members. -/
def destroyDispatcher (d : Machine.World) : Machine.World :=
  if d.dispatcher.core.serviceState = .disconnected then d
  else (freeContext config c.noReactions d).setDisconnected

def serviceStateChanged (w : World net) : World net :=
  let new := (Machine.sys config c.ok).init
  let new := if c.readyAck then Machine.waitConnectedAsync new else new
  match w.installed with
  | none => { w with installed := some new }
  | some old => { w with
      installed := some (commands c.env c.reactions new)
      replaced := w.replaced ++ [destroyDispatcher c old] }

/-- `~AsyncRedisStorage`, and the destructors of its members. -/
def destroy (w : World net) : World net :=
  { w with
    discovery := match w.discovery with
      | .hiredis d => .hiredis { d with clearedBelow := d.next }
      | .sentinel d => .sentinel { d with stateChangedCb := none, clearedBelow := d.next }
    installed := w.installed.map fun d => destroyDispatcher c (Dispatcher.disableCommandCallbacks d)
    destroyed := true }

/-- What a posted callback is bound to. A connect ack that is posted is one of `waitReadyAsync`,
which holds the ack of the client only. -/
def runsOn : Posted Nat → List Object
  | .callCommandCbWithError _ (.client _) _ => [.dispatcher, .storage]
  | .callCommandCbWithError _ .verifyConnectionReply _ => [.dispatcher]
  | .connectAck _ => []

/-- The engine calls `p`, which the replaced dispatcher `j` has posted. That is destroyed, while the
storage is not. -/
def runReplaced (w : World net) (j : Nat) (p : Posted Nat) (d : Machine.World) : World net :=
  { w with
    installed := w.installed.map (commands c.env c.reactions)
    replaced := w.replaced.set j d
    ran := w.ran ++ (runsOn p).filter (· = .dispatcher) }

end Functions

inductive Event (net : Resolver) where
  /-- The engine calls the callback `i` that `AsyncHiredisDatabaseDiscovery` has posted. -/
  | hiredis (i : Nat)
  /-- A step of `AsyncSentinelDatabaseDiscovery`. -/
  | sentinel (c : Sentinel.Agreement.Choice) (e : Sentinel.Agreement.Event net)
  /-- A step of the installed dispatcher. -/
  | dispatcher (e : Machine.Event)
  /-- The engine calls the callback `i` that the replaced dispatcher `j` has posted. -/
  | replaced (j i : Nat)
  | destroy

section Step

variable {net : Resolver} (n : Sentinel.Agreement.MasterName)

/-- A step before the destruction. Each call of `stateChangedCb` is one of `serviceStateChanged`. -/
def step (c : Choice) (w : World net) : Event net → Option (World net)
  | .hiredis i =>
    match w.discovery with
    | .hiredis d => (Hiredis.step d (.posted i)).map fun d => serviceStateChanged c
      { w with discovery := .hiredis d }
    | .sentinel _ => none
  | .sentinel sc e =>
    match w.discovery with
    | .hiredis _ => none
    | .sentinel d => (Sentinel.step n d (.run sc e)).map fun d' =>
      Nat.repeat (serviceStateChanged c) (d'.called.length - d.called.length)
      { w with discovery := .sentinel d' }
  | .dispatcher e =>
    w.installed.bind fun d => ((Machine.sys config c.ok).step d (c.env, e)).map fun d =>
    { w with installed := some d }
  | .replaced j i =>
    (w.replaced[j]?).bind fun d => (d.posted[i]?).bind fun p =>
      (Machine.step config c.noReactions d (.posted i)).map (runReplaced c w j p)
  | .destroy => some (destroy c w)

/-- The engine calls a callback that is posted, after the destruction. -/
def late (w : World net) : Event net → Option (World net)
  | .hiredis i =>
    match w.discovery with
    | .hiredis d => (Hiredis.step d (.posted i)).map fun d => { w with discovery := .hiredis d,
                                                                       ran := w.ran ++ [.storage] }
    | .sentinel _ => none
  | .sentinel _ (.posted i) =>
    match w.discovery with
    | .hiredis _ => none
    | .sentinel d => (d.discovery.posted[i]?).map fun _ =>
      { w with
        discovery := .sentinel { d with
          discovery := { d.discovery with posted := d.discovery.posted.eraseIdx i } }
        ran := w.ran ++ [.discovery] }
  | .dispatcher (.posted i) =>
    w.installed.bind fun d => (d.posted[i]?).map fun p =>
      { w with installed := some { d with posted := d.posted.eraseIdx i },
               ran := w.ran ++ runsOn p }
  | .replaced j i =>
    (w.replaced[j]?).bind fun d => (d.posted[i]?).map fun p =>
      { w with replaced := w.replaced.set j { d with posted := d.posted.eraseIdx i },
               ran := w.ran ++ runsOn p }
  | _ => none

end Step

/-- The storage after its constructor, which has set the callback of the discovery. -/
def sys {net : Resolver} (n : Sentinel.Agreement.MasterName) (discovery : Discovery net) :
    Sys (World net) (Choice × Event net) where
  init := ⟨discovery, none, [], false, []⟩
  step w e := if w.destroyed then late w e.2 else step n e.1 w e.2

/-- `AsyncHiredisDatabaseDiscovery` after `setStateChangedCb`. -/
def hiredisDiscovery {net : Resolver} : Discovery net := .hiredis ⟨[0], 1, 0, []⟩

/-- `AsyncSentinelDatabaseDiscovery` after `setStateChangedCb`. -/
def sentinelDiscovery {net : Resolver} (n : Sentinel.Agreement.MasterName)
    (first : Sentinel.Agreement.Master net) :
    Discovery net := .sentinel (Sentinel.init n first)

/-- The callbacks of a discovery that are posted. -/
def Discovery.posted {net : Resolver} : Discovery net → Nat
  | .hiredis d => d.posted.length
  | .sentinel d => d.discovery.posted.length

def World.dispatchers {net : Resolver} (w : World net) : List Machine.World :=
  w.installed.toList ++ w.replaced

/-- No callback is posted that is bound to the storage, to its discovery or to one of its
dispatchers. -/
structure Drained {net : Resolver} (w : World net) : Prop where
  discovery : w.discovery.posted = 0
  dispatchers : ∀ d ∈ w.dispatchers, ∀ p ∈ d.posted, runsOn p = []

/-- The storage is destroyed when no callback is posted that is bound to what it owns, and none is
called that a replaced dispatcher has posted and that is bound to it. -/
def Orderly {net : Resolver} (w : World net) (e : Choice × Event net) : Prop :=
  match e.2 with
  | .destroy => Drained w
  | .replaced j i => ∀ d ∈ w.replaced[j]?, ∀ p ∈ d.posted[i]?, runsOn p = []
  | _ => True

section Proofs

variable {net : Resolver} {n : Sentinel.Agreement.MasterName} {c : Choice} {w : World net}

def Discovery.Ok : Discovery net → Prop
  | .hiredis d => Hiredis.Inv d
  | .sentinel d => Sentinel.Inv d

/-- A dispatcher of a storage that is not destroyed. -/
structure Enabled (d : Machine.World) : Prop where
  enabled : d.clientCallbacksEnabled = true
  silent : Silent d.called

theorem Enabled.of_keeps {d d' : Machine.World} (h : Enabled d) (hk : Keeps d d') : Enabled d' :=
  ⟨hk.enabled.trans h.enabled, fun c hc => (hk.called c hc).elim (h.silent c)
    fun he => he.trans h.enabled⟩

theorem destroyDispatcher_keeps (d : Machine.World) : Keeps d (destroyDispatcher c d) := by
  unfold destroyDispatcher
  split
  · exact .of_eq rfl rfl
  · exact (freeContext_keeps d).into rfl rfl

/-- Before the destruction of the storage. -/
structure Alive (w : World net) : Prop where
  ran : w.ran = []
  destroyed : w.destroyed = false
  discovery : w.discovery.Ok
  dispatchers : ∀ d ∈ w.dispatchers, Enabled d

/-- After the destruction nothing is left that is bound to what was destroyed. -/
structure Gone (w : World net) : Prop where
  ran : w.ran = []
  destroyed : w.destroyed = true
  discovery : w.discovery.Ok
  silent : ∀ d ∈ w.dispatchers, Silent d.called
  drained : Drained w

theorem mem_dispatchers {d : Machine.World} : d ∈ w.dispatchers ↔ w.installed = some d ∨
    d ∈ w.replaced := by
  simp [World.dispatchers]

theorem Alive.of_dispatchers {w' : World net} (h : Alive w) (hr : w'.ran = w.ran)
    (hd : w'.destroyed = w.destroyed)
    (hdisc : w'.discovery = w.discovery) (hi : ∀ d, w'.installed = some d → Enabled d)
    (hrep : ∀ d ∈ w'.replaced, d ∈ w.replaced ∨ Enabled d) : Alive w' := by
  refine ⟨hr.trans h.ran, hd.trans h.destroyed, hdisc ▸ h.discovery, fun d hm => ?_⟩
  rcases mem_dispatchers.mp hm with hm | hm
  · exact hi d hm
  · exact (hrep d hm).elim (fun hm => h.dispatchers d (mem_dispatchers.mpr (.inr hm))) id

theorem Alive.serviceStateChanged (h : Alive w) : Alive (serviceStateChanged c w) := by
  have hnew : Enabled (if c.readyAck then Machine.waitConnectedAsync (Machine.sys config c.ok).init
      else (Machine.sys config c.ok).init) := by
    split <;> exact ⟨rfl, fun c hc => by cases hc⟩
  unfold Storage.serviceStateChanged
  simp only
  split
  · refine h.of_dispatchers rfl rfl rfl (fun d hd => ?_) fun d hd => .inl hd
    cases hd
    exact hnew
  · rename_i old ho
    refine h.of_dispatchers rfl rfl rfl (fun d hd => ?_) fun d hd => ?_
    · cases hd
      exact hnew.of_keeps (commands_keeps _ _)
    · refine (List.mem_append.mp hd).imp_right fun hd => ?_
      rw [List.mem_singleton.mp hd]
      exact (h.dispatchers old (mem_dispatchers.mpr (.inl ho))).of_keeps
        (destroyDispatcher_keeps old)

theorem Alive.withDiscovery (h : Alive w) {d : Discovery net} (hd : d.Ok) :
    Alive { w with discovery := d } :=
  ⟨h.ran, h.destroyed, hd, h.dispatchers⟩

theorem Alive.destroy (h : Alive w) (hd : Drained w) : Gone (destroy c w) := by
  have hm : ∀ d ∈ (Storage.destroy c w).dispatchers, ∃ d' ∈ w.dispatchers, d.called = d'.called ∧
    d.posted = d'.posted := by
    intro d hm
    rcases mem_dispatchers.mp hm with hm | hm
    · obtain ⟨d', hd', rfl⟩ := Option.map_eq_some_iff.mp hm
      refine ⟨d', mem_dispatchers.mpr (.inl hd'), ?_⟩
      unfold destroyDispatcher
      split
      · exact ⟨rfl, rfl⟩
      -- The null replies of the context meet the flag.
      · exact (@Dispatcher.freeContext_disabled config c.noReactions
          (Dispatcher.disableCommandCallbacks d') rfl).2
    · exact ⟨d, mem_dispatchers.mpr (.inr hm), rfl, rfl⟩
  refine ⟨h.ran, rfl, ?_, fun d hmem => ?_, ?_, fun d hmem => ?_⟩
  · have hok := h.discovery
    have hdp := hd.discovery
    revert hok hdp
    simp only [Storage.destroy]
    cases w.discovery with
    | hiredis d =>
      intro hok hdp
      refine ⟨hok.silent, fun k hk => ?_, Nat.le_refl _⟩
      rw [List.length_eq_zero_iff.mp hdp] at hk
      cases hk
    | sentinel d => exact fun hok _ => ⟨hok.silent, fun k hk => (by cases hk), Nat.le_refl _⟩
  · obtain ⟨d', hd', hc, -⟩ := hm d hmem
    rw [hc]
    exact (h.dispatchers d' hd').silent
  · rw [← hd.discovery]
    simp only [Storage.destroy]
    cases w.discovery <;> rfl
  · obtain ⟨d', hd', -, hp⟩ := hm d hmem
    rw [hp]
    exact hd.dispatchers d' hd'

theorem Alive.step {w' : World net} {e : Event net} (h : Alive w) (hg : Orderly w (c, e))
    (hs : step n c w e = some w') : Alive w' ∨ Gone w' := by
  cases e with
  | hiredis i =>
    simp only [Storage.step] at hs
    split at hs
    · rename_i d hd
      obtain ⟨d', hd', rfl⟩ := Option.map_eq_some_iff.mp hs
      have hok : Hiredis.Inv d := by simpa [Discovery.Ok, hd] using h.discovery
      have hok' : Hiredis.Inv d' := hok.step (fun he => by cases he) hd'
      exact .inl (h.withDiscovery (d := .hiredis d') hok').serviceStateChanged
    · cases hs
  | sentinel sc e =>
    simp only [Storage.step] at hs
    split at hs
    · cases hs
    · rename_i d hd
      obtain ⟨d', hd', rfl⟩ := Option.map_eq_some_iff.mp hs
      have hok : Sentinel.Inv d := by simpa [Discovery.Ok, hd] using h.discovery
      refine .inl ?_
      have h' : Alive { w with discovery := .sentinel d' } :=
        h.withDiscovery (d := .sentinel d') (hok.step hd')
      induction d'.called.length - d.called.length with
      | zero => exact h'
      | succ m ih => exact ih.serviceStateChanged
  | dispatcher e =>
    obtain ⟨d, hd, hs⟩ := Option.bind_eq_some_iff.mp hs
    obtain ⟨d', hd', rfl⟩ := Option.map_eq_some_iff.mp hs
    obtain ⟨hd', -⟩ := Option.filter_eq_some_iff.mp hd'
    refine .inl (h.of_dispatchers rfl rfl rfl (fun d hd => ?_) fun d hd => .inl hd)
    cases hd
    exact (h.dispatchers _ (mem_dispatchers.mpr (.inl ‹_›))).of_keeps (step_keeps hd')
  | replaced j i =>
    obtain ⟨d, hd, hs⟩ := Option.bind_eq_some_iff.mp hs
    obtain ⟨p, hp, hs⟩ := Option.bind_eq_some_iff.mp hs
    obtain ⟨d', hd', rfl⟩ := Option.map_eq_some_iff.mp hs
    -- What is called is not bound to the dispatcher.
    have hran : (runReplaced c w j p d').ran = w.ran := by
      simp only [runReplaced, hg d hd p hp, List.filter_nil, List.append_nil]
    refine .inl (h.of_dispatchers hran rfl rfl (fun u hu => ?_) fun u hu => ?_)
    · obtain ⟨v, hv, rfl⟩ := Option.map_eq_some_iff.mp hu
      exact (h.dispatchers v (mem_dispatchers.mpr (.inl hv))).of_keeps (commands_keeps _ _)
    · refine (List.mem_or_eq_of_mem_set hu).imp_right ?_
      rintro rfl
      exact (h.dispatchers d (mem_dispatchers.mpr (.inr (List.mem_of_getElem? hd)))).of_keeps
        (step_keeps hd')
  | destroy =>
    cases hs
    exact .inr (h.destroy hg)

/-- The dispatchers have called nothing more, and have posted nothing more. -/
theorem Gone.of_dispatchers {w' : World net} (h : Gone w) (hr : w'.ran = [])
    (hd : w'.destroyed = w.destroyed) (hdisc : w'.discovery = w.discovery)
    (hm : ∀ d ∈ w'.dispatchers, ∃ d' ∈ w.dispatchers, d.called = d'.called ∧
      ∀ p ∈ d.posted, p ∈ d'.posted) : Gone w' := by
  refine ⟨hr, hd.trans h.destroyed, hdisc ▸ h.discovery, fun d hmem => ?_,
    hdisc ▸ h.drained.discovery, fun d hmem p hp => ?_⟩
  · obtain ⟨d', hd', hc, -⟩ := hm d hmem
    rw [hc]
    exact h.silent d' hd'
  · obtain ⟨d', hd', -, hsub⟩ := hm d hmem
    exact h.drained.dispatchers d' hd' p (hsub p hp)

/-- What the engine still calls is not bound to what was destroyed. -/
theorem Gone.late {w' : World net} {e : Event net} (h : Gone w)
    (hs : late w e = some w') : Gone w' := by
  have hpost := h.drained.discovery
  have hrun : ∀ {d : Machine.World} {i : Nat} {p : Posted Nat}, d ∈ w.dispatchers →
      d.posted[i]? = some p → w.ran ++ runsOn p = [] := fun hd hp => by
    rw [h.ran, h.drained.dispatchers _ hd _ (List.mem_of_getElem? hp), List.append_nil]
  unfold Storage.late at hs
  split at hs
  · split at hs
    · rename_i d hd
      rw [hd] at hpost
      obtain ⟨d', hd', -⟩ := Option.map_eq_some_iff.mp hs
      simp [Hiredis.step, List.length_eq_zero_iff.mp hpost] at hd'
    · cases hs
  · split at hs
    · cases hs
    · rename_i d hd
      rw [hd] at hpost
      obtain ⟨t, ht, -⟩ := Option.map_eq_some_iff.mp hs
      simp [List.length_eq_zero_iff.mp hpost] at ht
  · obtain ⟨d, hd, hs⟩ := Option.bind_eq_some_iff.mp hs
    obtain ⟨p, hp, rfl⟩ := Option.map_eq_some_iff.mp hs
    have hmem := mem_dispatchers.mpr (.inl hd)
    refine h.of_dispatchers (hrun hmem hp) rfl rfl fun u hu => ?_
    rcases mem_dispatchers.mp hu with hu | hu
    · cases hu
      exact ⟨d, hmem, rfl, fun _ => List.mem_of_mem_eraseIdx⟩
    · exact ⟨u, mem_dispatchers.mpr (.inr hu), rfl, fun _ => id⟩
  · obtain ⟨d, hd, hs⟩ := Option.bind_eq_some_iff.mp hs
    obtain ⟨p, hp, rfl⟩ := Option.map_eq_some_iff.mp hs
    have hmem := mem_dispatchers.mpr (.inr (List.mem_of_getElem? hd))
    refine h.of_dispatchers (hrun hmem hp) rfl rfl fun u hu => ?_
    rcases mem_dispatchers.mp hu with hu | hu
    · exact ⟨u, mem_dispatchers.mpr (.inl hu), rfl, fun _ => id⟩
    · rcases List.mem_or_eq_of_mem_set hu with hu | rfl
      · exact ⟨u, mem_dispatchers.mpr (.inr hu), rfl, fun _ => id⟩
      · exact ⟨d, hmem, rfl, fun _ => List.mem_of_mem_eraseIdx⟩
  · cases hs

theorem inv_of_reach {discovery : Discovery net} (hd : discovery.Ok)
    (h : (sys n discovery).Reach Orderly w) : Alive w ∨ Gone w := by
  refine h.invariant (I := fun w => Alive w ∨ Gone w)
    (.inl ⟨rfl, rfl, hd, fun d hd => (by cases hd)⟩) ?_
  rintro s ⟨c, e⟩ s' hi hg hs
  rcases hi with hi | hi
  · simp only [sys, hi.destroyed, Bool.false_eq_true, if_false] at hs
    exact hi.step hg hs
  · simp only [sys, hi.destroyed, if_true] at hs
    exact .inr (hi.late hs)

end Proofs

end Storage

/-! ## Every run -/

instance (called : List (Nat × Bool)) : Decidable (Silent called) :=
  inferInstanceAs (Decidable (∀ c ∈ called, c.2 = true))

instance {net : Resolver} (w : Storage.World net) : Decidable (Storage.Drained w) :=
  decidable_of_iff (w.discovery.posted = 0 ∧ ∀ d ∈ w.dispatchers, ∀ p ∈ d.posted,
    Storage.runsOn p = [])
    ⟨fun h => ⟨h.1, h.2⟩, fun h => ⟨h.1, h.2⟩⟩

instance {net : Resolver} (w : Storage.World net) : ∀ e, Decidable (Storage.Orderly w e)
  | (_, .destroy) => inferInstanceAs (Decidable (Storage.Drained w))
  | (_, .replaced j i) => inferInstanceAs (Decidable (∀ d ∈ w.replaced[j]?, ∀ p ∈ d.posted[i]?,
    Storage.runsOn p = []))
  | (_, .hiredis _) | (_, .sentinel _ _) | (_, .dispatcher _) => isTrue trivial

end Teardown
end Sdl
