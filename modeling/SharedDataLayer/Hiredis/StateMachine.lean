import SharedDataLayer.Hiredis.Dispatcher
import SharedDataLayer.Spec.Sys
import SharedDataLayer.Spec.Tokens

/-!
# The state machine of the dispatcher (`src/redis/asynchirediscommanddispatcher.cpp`)

`AsyncHiredisCommandDispatcher` with hiredis, the engine and a client that dispatches commands, also
from inside a callback of a command and from inside a connect ack. What happened is recorded in the
state: the calls of `redisAsyncCommandArgv`, each with the context and the service state at that
moment, the replies to `COMMAND` with the connection they came on, and the callbacks of the client
that were called.

A connection counts as up from `connectCb` until hiredis reports its loss by `disconnectCb`; the
null replies come before that, from inside the same event. hiredis delivers replies on a connection
that is up only, and nothing more for a context after its `disconnectCb`.

`clientCallbacksEnabled` is true from the constructor on; `disableCommandCallbacks` is called when
the owner of the dispatcher is destroyed (`Async/Teardown.lean`).

* `Machine.Inv`: how the context, the service state, the retry timer and what is under way belong
  together.
* `stateMachine_safe`: the dispatcher hands commands over only where it may, and is never stuck.
-/

namespace Sdl
namespace Hiredis
namespace Machine

open Spec Redis

/-- The arguments of the constructor that decide how the dispatcher works. -/
structure Config where
  usePermanentCommandCallbacks : Bool
  usedForSentinel : Bool

/-- A call of `redisAsyncCommandArgv`. `verified` says whether a reply to `COMMAND` with all
required commands has been received on the connection. -/
structure Call where
  cb : Cb Nat
  link : Link
  serviceState : ServiceState
  verified : Bool

structure World where
  dispatcher : Dispatcher Nat
  /-- The number of the context, over all that were connected. -/
  connection : Nat
  clientCallbacksEnabled : Bool
  posted : List (Posted Nat)
  /-- The numbers of commands and of connect acks that the client has used. -/
  nextCommand : Nat
  nextAck : Nat
  commandReplies : List (Nat × Reply)
  calls : List Call
  /-- The callbacks of commands that were called, and whether they were enabled then. -/
  called : List (Nat × Bool)
  aborted : Option String

/-- What the environment decides during a step: which commands hiredis accepts, by their number, the
error of the context where it has one, and the number of commands that the client dispatches from
inside the callback of a command and from inside a connect ack. -/
structure Env where
  accept : Nat → Bool
  err : ContextError
  react : Nat → Nat
  onConnected : Nat

namespace World

/-- A reply to `COMMAND` with all required commands has been received on the present connection. -/
def verified (w : World) : Bool :=
  w.commandReplies.any fun r => r.1 = w.connection &&
    checkRedisModuleCommands (parseCommandListReply r.2)

/-- `redisAsyncCommandArgv` is called for `cb`. -/
def call (w : World) (cb : Cb Nat) : Call :=
  ⟨cb, w.dispatcher.link, w.dispatcher.core.serviceState, w.verified⟩

end World

section Functions

variable (cfg : Config) (env : Env)

/-- `dispatchAsync` of the client: hiredis is not called if the service is not connected. -/
def command (w : World) : World :=
  let d := w.dispatcher
  let cb := .client w.nextCommand
  let r := d.core.dispatchAsync (env.accept d.core.nextCb) env.err cb true
  { w with
    dispatcher := { d with core := r.1 }
    posted := w.posted ++ r.2
    nextCommand := w.nextCommand + 1
    calls := if d.core.serviceState = .connected then w.calls ++ [w.call cb] else w.calls }

def commands (n : Nat) (w : World) : World := Nat.repeat (command env) n w

def World.setState (w : World) (s : ServiceState) : World :=
  { w with dispatcher := { w.dispatcher with
    core := { w.dispatcher.core with serviceState := s } } }

def World.setConnectAck (w : World) (ack : Option Nat) : World :=
  { w with dispatcher := { w.dispatcher with
    core := { w.dispatcher.core with connectAck := ack } } }

def setConnected (w : World) : World :=
  let w := w.setState .connected
  match w.dispatcher.core.connectAck with
  | some _ => (commands env env.onConnected w).setConnectAck none
  | none => w

def verifyConnection (w : World) : World :=
  if cfg.usedForSentinel then setConnected env w
  else
    let r := w.dispatcher.verifyConnection (env.accept w.dispatcher.core.nextCb) env.err
    { w with
      dispatcher := r.1
      posted := w.posted ++ r.2
      calls := w.calls ++ [(w.setState .connectionVerification).call .verifyConnectionReply] }

def verifyConnectionReply (w : World) (error : ErrorCode) (reply : Reply) : World :=
  let w := if error.isError then w else
    { w with commandReplies := w.commandReplies ++ [(w.connection, reply)] }
  match verified error reply with
  | .retry => { w with dispatcher := w.dispatcher.retryVerification }
  | .setConnected => setConnected env w
  | .abort => { w with aborted := some "Required Redis module extension commands not available." }

/-- The callback of a command is called. -/
def callCb (w : World) (cb : Cb Nat) (error : ErrorCode) (reply : Reply) : World :=
  match cb with
  | .verifyConnectionReply => verifyConnectionReply env w error reply
  | .client k => commands env (env.react k)
    { w with called := w.called ++ [(k, w.clientCallbacksEnabled)] }

def World.setCore (w : World) (f : Core Nat → Core Nat) : World :=
  { w with dispatcher := { w.dispatcher with core := f w.dispatcher.core } }

/-- `handleReply` for the command `cb`. -/
def handleReply (w : World) (cb : Nat) (error : ErrorCode) (reply : Reply) : World :=
  match w.dispatcher.core.findCb cb with
  | none => { w with aborted := some "Invalid callback function." }
  | some k =>
    let w := callCb env w k error reply
    if cfg.usePermanentCommandCallbacks then w else w.setCore fun c => c.removeCb cb

/-- The function `cb` of the source, which hiredis calls with the reply to the command. -/
def cb (w : World) (cb : Nat) (rr : Option RedisReply) : World :=
  if w.clientCallbacksEnabled then handleReply cfg env w cb (getRedisError env.err rr)
    (asyncRedisReply rr)
  else w

/-- hiredis completes the command with a reply, or with a null reply. -/
def complete (w : World) (rr : Option RedisReply) (i : Nat) : World :=
  cb cfg env (w.setCore fun c => c.completed i) i rr

/-- hiredis frees the context: null replies to the pending commands, and it accepts none. -/
def freeContext (w : World) : World :=
  let w := w.setCore fun c => { c with freeing := true }
  let w := w.dispatcher.core.pending.foldl (fun w i => complete cfg env w none i) w
  w.setCore fun c => { c with freeing := false }

def World.setDisconnected (w : World) : World :=
  { w with dispatcher := { w.dispatcher with link := .none }.setDisconnected }

/-- `connect`, by the retry timer. -/
def World.connect (w : World) (ok : Bool) : World :=
  { w with
    dispatcher := { w.dispatcher with connectionRetryTimer := none }.connect ok
    connection := w.connection + 1 }

def waitConnectedAsync (w : World) : World :=
  let r := w.dispatcher.core.waitConnectedAsync w.nextAck
  { w with
    dispatcher := { w.dispatcher with core := r.1 }
    posted := w.posted ++ r.2
    nextAck := w.nextAck + 1 }

/-- The engine calls a posted callback. -/
def runPosted (w : World) : Posted Nat → World
  | .connectAck _ => commands env env.onConnected w
  | .callCommandCbWithError _ cb e => callCb env w cb e .nil

end Functions

inductive Event where
  /-- The client dispatches a command. -/
  | command
  /-- The client calls `waitConnectedAsync`. -/
  | waitConnectedAsync
  /-- `connectCb`, with success or with a failure. -/
  | connected
  | connectFailed
  /-- The reply to the first pending command. -/
  | reply (rr : RedisReply)
  /-- A message to the command `i`, which stays subscribed. -/
  | message (i : Nat) (rr : RedisReply)
  /-- The connection is lost: null replies, then `disconnectCb`. -/
  | lost
  /-- The retry timer. `ok` says whether hiredis returns a context without an error. -/
  | timer (ok : Bool)
  /-- The engine calls the posted callback `i`. -/
  | posted (i : Nat)

def step (cfg : Config) (env : Env) (w : World) : Event → Option World
  | .command => some (command env w)
  | .waitConnectedAsync => some (waitConnectedAsync w)
  | .connected =>
    if w.dispatcher.link = .connecting then
      some (verifyConnection cfg env { w with dispatcher := { w.dispatcher with link := .up } })
    else none
  | .connectFailed =>
    if w.dispatcher.link = .connecting then some (freeContext cfg env w.setDisconnected) else none
  | .reply rr =>
    if w.dispatcher.link = .up then (w.dispatcher.core.pending.head?).map
      (complete cfg env w (some rr))
    else none
  | .message i rr =>
    if w.dispatcher.link = .up ∧ cfg.usePermanentCommandCallbacks ∧
      i ∈ w.dispatcher.core.pending then
      some (cb cfg env w i (some rr))
    else none
  | .lost => if w.dispatcher.link = .up then some (freeContext cfg env w).setDisconnected else none
  | .timer ok =>
    match w.dispatcher.connectionRetryTimer with
    | some .connect => some (w.connect ok)
    | some .verifyConnection =>
      some (verifyConnection cfg env { w with
        dispatcher := { w.dispatcher with connectionRetryTimer := none } })
    | none => none
  | .posted i => (w.posted[i]?).map (runPosted env { w with posted := w.posted.eraseIdx i })

/-- The dispatcher after its constructor. `ok` is as for `connect`. An abort ends the process: no
state follows it. -/
def sys (cfg : Config) (ok : Bool) : Sys World (Env × Event) where
  init := ⟨Dispatcher.new 0 ok, 0, true, [], 0, 0, [], [], [], none⟩
  step w e := (step cfg e.1 w e.2).filter fun w => w.aborted.isNone

/-! ## The invariant -/

/-- A call that hiredis may get: on a context that is there, and a command of the client only on a
connection that is up and verified, in the service state `CONNECTED`. -/
structure Call.Allowed (cfg : Config) (c : Call) : Prop where
  context : c.link ≠ .none
  client : ∀ k, c.cb = .client k →
    c.serviceState = .connected ∧ c.link = .up ∧ (cfg.usedForSentinel = true ∨ c.verified = true)

/-- The verification of the connection goes on: `COMMAND` is in flight, its failure is posted, or
the retry timer is armed. `held` is a command whose callback is being called. -/
inductive Verifying (held : Option Nat) (w : World) : Prop
  | inFlight (i : Nat) (hi : i ∈ w.dispatcher.core.pending) (hh : held ≠ some i)
    (hc : w.dispatcher.core.findCb i = some .verifyConnectionReply)
  | failed (self : Nat) (e : ErrorCode)
    (hp : .callCommandCbWithError self .verifyConnectionReply e ∈ w.posted)
  | timer (ht : w.dispatcher.connectionRetryTimer.isSome = true)

/-- As long as the process runs and callbacks are enabled the verification goes on, or
`verifyConnectionReply` is still to be called (`owed`). -/
def GoesOn (held : Option Nat) (owed : Prop) (w : World) : Prop :=
  w.aborted = none → w.clientCallbacksEnabled = true → Verifying held w ∨ owed

/-- A callback of a dispatcher that is used for Sentinel is not that of a verification. -/
def Posted.Client : Posted Nat → Prop
  | .callCommandCbWithError _ .verifyConnectionReply _ => False
  | _ => True

/-- A callback that a dispatcher posts for a command has an error. -/
def Posted.Error : Posted Nat → Prop
  | .callCommandCbWithError _ _ e => e.isError = true
  | .connectAck _ => True

/-- There is no verification for Sentinel. -/
structure NoVerification (w : World) : Prop where
  state : w.dispatcher.core.serviceState ≠ .connectionVerification
  timer : w.dispatcher.connectionRetryTimer ≠ some .verifyConnection
  cbs : ∀ c ∈ w.dispatcher.core.cbs, c.2 ≠ .verifyConnectionReply
  posted : ∀ p ∈ w.posted, Posted.Client p

/-- The invariant. It also holds inside a step; `held` and `owed` are as above. -/
structure Inv (cfg : Config) (held : Option Nat) (owed : Prop) (w : World) : Prop where
  lt : ∀ i ∈ w.dispatcher.core.cbs.map Prod.fst, i < w.dispatcher.core.nextCb
  none_timer : w.dispatcher.link = .none → w.dispatcher.connectionRetryTimer = some .connect
  timer_none : w.dispatcher.connectionRetryTimer = some .connect → w.dispatcher.link = .none
  none_state : w.dispatcher.link = .none → w.dispatcher.core.serviceState = .disconnected
  connecting : w.dispatcher.link = .connecting → w.dispatcher.core.serviceState ≠ .connected
  up : w.dispatcher.link = .up → w.dispatcher.core.serviceState ≠ .disconnected
  verified : w.dispatcher.core.serviceState = .connected → cfg.usedForSentinel = true ∨
    w.verified = true
  verifying : w.dispatcher.core.serviceState = .connectionVerification → GoesOn held owed w
  sentinel : cfg.usedForSentinel = true → NoVerification w
  error : ∀ p ∈ w.posted, Posted.Error p
  calls : ∀ c ∈ w.calls, c.Allowed cfg

section Keep

variable {cfg : Config} {env : Env} {held : Option Nat} {owed : Prop} {w : World}

theorem Inv.connected_up (h : Inv cfg held owed w)
    (hs : w.dispatcher.core.serviceState = .connected) :
    w.dispatcher.link = .up := by
  cases hl : w.dispatcher.link with
  | none => rw [h.none_state hl] at hs; cases hs
  | connecting => exact absurd hs (h.connecting hl)
  | up => rfl

/-- The call of a command in a state with the invariant. -/
theorem Inv.allowed (h : Inv cfg held owed w) (k : Nat)
    (hs : w.dispatcher.core.serviceState = .connected) :
    (w.call (.client k)).Allowed cfg := by
  have hl := h.connected_up hs
  refine ⟨?_, fun _ _ => ⟨hs, hl, h.verified hs⟩⟩
  show w.dispatcher.link ≠ .none
  rw [hl]
  decide

/-- The verification goes on as long as nothing of what is under way is lost. -/
theorem Verifying.mono {held' : Option Nat} {w' : World} (h : Verifying held w)
    (hf : ∀ i ∈ w.dispatcher.core.pending, held ≠ some i →
      w.dispatcher.core.findCb i = some .verifyConnectionReply → i ∈ w'.dispatcher.core.pending ∧
        held' ≠ some i ∧ w'.dispatcher.core.findCb i = some .verifyConnectionReply)
    (hp : ∀ p ∈ w.posted, p ∈ w'.posted)
    (ht : w'.dispatcher.connectionRetryTimer = w.dispatcher.connectionRetryTimer) :
    Verifying held' w' := by
  cases h with
  | inFlight i hi hh hc =>
    obtain ⟨hi', hh', hc'⟩ := hf i hi hh hc
    exact .inFlight i hi' hh' hc'
  | failed self e hm => exact .failed self e (hp _ hm)
  | timer h => exact .timer (ht ▸ h)

/-- It depends on what is under way only. -/
theorem Verifying.of_eq {w' : World} (h : Verifying held w)
    (hp : w'.dispatcher.core.pending = w.dispatcher.core.pending)
    (hc : w'.dispatcher.core.cbs = w.dispatcher.core.cbs) (hq : w'.posted = w.posted)
    (ht : w'.dispatcher.connectionRetryTimer = w.dispatcher.connectionRetryTimer) :
    Verifying held w' := by
  refine h.mono (fun i hi hh hf => ⟨hp ▸ hi, hh, ?_⟩) (fun _ hm => hq ▸ hm) ht
  unfold Core.findCb at hf ⊢
  rw [hc, hf]

/-- What stays the same where commands are dispatched, completed or called back. -/
structure Same (w w' : World) : Prop where
  link : w'.dispatcher.link = w.dispatcher.link
  timer : w'.dispatcher.connectionRetryTimer = w.dispatcher.connectionRetryTimer
  state : w'.dispatcher.core.serviceState = w.dispatcher.core.serviceState
  verified : w.verified = true → w'.verified = true
  calls : w'.calls = w.calls

theorem Same.refl (w : World) : Same w w := ⟨rfl, rfl, rfl, id, rfl⟩

theorem Inv.of_same {w' : World} {held' : Option Nat} {owed' : Prop}
    (h : Inv cfg held owed w) (hs : Same w w') (goesOn : GoesOn held owed w → GoesOn held' owed' w')
    (lt : ∀ i ∈ w'.dispatcher.core.cbs.map Prod.fst, i < w'.dispatcher.core.nextCb)
    (cbs : ∀ c ∈ w'.dispatcher.core.cbs, c ∈ w.dispatcher.core.cbs ∨ c.2 ≠ .verifyConnectionReply)
    (posted : ∀ p ∈ w'.posted, p ∈ w.posted ∨ Posted.Client p ∧ Posted.Error p) :
    Inv cfg held' owed' w' where
  lt := lt
  none_timer := by rw [hs.link, hs.timer]; exact h.none_timer
  timer_none := by rw [hs.link, hs.timer]; exact h.timer_none
  none_state := by rw [hs.link, hs.state]; exact h.none_state
  connecting := by rw [hs.link, hs.state]; exact h.connecting
  up := by rw [hs.link, hs.state]; exact h.up
  verified := by rw [hs.state]; exact fun hc => (h.verified hc).imp_right hs.verified
  verifying := by rw [hs.state]; exact fun hv => goesOn (h.verifying hv)
  sentinel := fun hu =>
    have hn := h.sentinel hu
    ⟨by rw [hs.state]; exact hn.state, by rw [hs.timer]; exact hn.timer,
      fun c hc => (cbs c hc).elim (hn.cbs c) id,
      fun p hp => (posted p hp).elim (hn.posted p) And.left⟩
  error := fun p hp => (posted p hp).elim (h.error p) And.right
  calls := by rw [hs.calls]; exact h.calls

/-- The same, where the callbacks and what is posted stay too. -/
theorem Inv.of_under_way {w' : World} {held' : Option Nat} {owed' : Prop}
    (h : Inv cfg held owed w) (hs : Same w w') (goesOn : GoesOn held owed w → GoesOn held' owed' w')
    (hn : w'.dispatcher.core.nextCb = w.dispatcher.core.nextCb)
    (hc : w'.dispatcher.core.cbs = w.dispatcher.core.cbs) (hp : w'.posted = w.posted) :
    Inv cfg held' owed' w' :=
  h.of_same hs goesOn (by rw [hc, hn]; exact h.lt) (fun c hm => .inl (hc ▸ hm))
    fun p hm => .inl (hp ▸ hm)

theorem findCb_append {c : Core Nat} {i : Nat} {k : Cb Nat} (hf : c.findCb i = some k)
    (l : List (Nat × Cb Nat)) :
    (c.cbs ++ l).lookup i = some k := by
  unfold Core.findCb at hf
  rw [List.lookup_append, hf]
  rfl

theorem Inv.pushCall (h : Inv cfg held owed w) {c : Call} (hc : c.Allowed cfg) :
    Inv cfg held owed { w with calls := w.calls ++ [c] } := by
  refine ⟨h.lt, h.none_timer, h.timer_none, h.none_state, h.connecting, h.up, h.verified,
    fun hs ha he => (h.verifying hs ha he).imp_left fun hv => hv.of_eq rfl rfl rfl rfl,
    fun hu => ⟨(h.sentinel hu).state, (h.sentinel hu).timer, (h.sentinel hu).cbs,
      (h.sentinel hu).posted⟩, h.error, ?_⟩
  intro c' hm
  rcases List.mem_append.mp hm with hm | hm
  · exact h.calls c' hm
  · exact List.mem_singleton.mp hm ▸ hc

theorem Inv.dispatched (h : Inv cfg held owed w) (k : Nat) :
    Inv cfg held owed { w with
      dispatcher := { w.dispatcher with core :=
        (w.dispatcher.core.dispatchAsync (env.accept w.dispatcher.core.nextCb) env.err
          (.client k) true).1 }
      posted := w.posted ++
        (w.dispatcher.core.dispatchAsync (env.accept w.dispatcher.core.nextCb) env.err
          (.client k) true).2
      nextCommand := w.nextCommand + 1 } := by
  obtain ⟨e, n, he, hd⟩ | ⟨-, -, hd⟩ := Core.dispatchAsync_cases w.dispatcher.core
    (env.accept w.dispatcher.core.nextCb) env.err (.client k) true h.lt
  all_goals rw [hd]
  · refine h.of_same ⟨rfl, rfl, rfl, id, rfl⟩ (fun hg ha he => (hg ha he).imp_left fun hv => ?_) ?_
      (fun c hc => .inl hc) (fun p hp => ?_)
    · exact hv.mono (fun _ hi hh hc => ⟨hi, hh, hc⟩) (fun _ hp => List.mem_append_left _ hp) rfl
    · exact fun i hi => Nat.lt_of_lt_of_le (h.lt i hi) (Nat.le_add_right _ _)
    · refine (List.mem_append.mp hp).imp_right fun hp => ?_
      rw [List.mem_singleton.mp hp]
      exact ⟨trivial, he⟩
  · refine h.of_same ⟨rfl, rfl, rfl, id, rfl⟩ (fun hg ha he => (hg ha he).imp_left fun hv => ?_) ?_
      (fun c hc => ?_) (fun p hp => .inl (by simpa using hp))
    · exact hv.mono (fun _ hi hh hc => ⟨List.mem_append_left _ hi, hh, findCb_append hc _⟩)
        (fun _ hp => List.mem_append_left _ hp) rfl
    · intro i hi
      rw [List.map_append, List.mem_append] at hi
      rcases hi with hi | hi
      · exact Nat.lt_succ_of_lt (h.lt i hi)
      · rw [List.map_singleton, List.mem_singleton] at hi
        exact hi ▸ Nat.lt_succ_self _
    · refine (List.mem_append.mp hc).imp_right fun hc he => ?_
      rw [List.mem_singleton.mp hc] at he
      cases he

theorem Inv.command (h : Inv cfg held owed w) : Inv cfg held owed (command env w) := by
  unfold Machine.command
  simp only
  split
  · rename_i hs
    exact (h.pushCall (h.allowed w.nextCommand hs)).dispatched w.nextCommand
  · exact h.dispatched w.nextCommand

theorem Inv.commands (h : Inv cfg held owed w) (n : Nat) :
    Inv cfg held owed (commands env n w) := by
  induction n with
  | zero => exact h
  | succ n ih => exact ih.command

theorem Inv.setConnectAck (h : Inv cfg held owed w) (ack : Option Nat) :
    Inv cfg held owed (w.setConnectAck ack) :=
  h.of_under_way ⟨rfl, rfl, rfl, id, rfl⟩
    (fun hg ha he => (hg ha he).imp_left fun hv => hv.of_eq rfl rfl rfl rfl) rfl rfl rfl

/-- The connection is up, and it was verified if it has to be: the service is connected. Before that
the service state may be any. -/
theorem Inv.setState {owed' : Prop} {l : Link} {t : Option RetryAction} (h : Inv cfg held owed w)
    (hl : l = .up) (ht : t ≠ some .connect)
    (hu : cfg.usedForSentinel = true → t ≠ some .verifyConnection)
    (hv : cfg.usedForSentinel = true ∨ w.verified = true) :
    Inv cfg held owed' (World.setState { w with dispatcher := ⟨w.dispatcher.core, l, t⟩ }
      .connected) where
  lt := h.lt
  none_timer hn := by cases hl.symm.trans hn
  timer_none he := absurd he ht
  none_state hn := by cases hl.symm.trans hn
  connecting hn := by cases hl.symm.trans hn
  up _ he := by cases he
  verified _ := hv
  verifying he := by cases he
  sentinel hs := ⟨fun he => (by cases he), hu hs, (h.sentinel hs).cbs, (h.sentinel hs).posted⟩
  error := h.error
  calls := h.calls

theorem Inv.setConnected (h : Inv cfg held owed (w.setState .connected)) :
    Inv cfg held owed (setConnected env w) := by
  unfold Machine.setConnected
  simp only
  split
  · exact (h.commands _).setConnectAck none
  · exact h

/-- The verification has been started. -/
theorem inv_verification (hs : w.dispatcher.core.serviceState = .connectionVerification)
    (hl : w.dispatcher.link ≠ .none) (ht : w.dispatcher.connectionRetryTimer = none)
    (hu : cfg.usedForSentinel = false) (hv : Verifying none w)
    (lt : ∀ i ∈ w.dispatcher.core.cbs.map Prod.fst, i < w.dispatcher.core.nextCb)
    (error : ∀ p ∈ w.posted, Posted.Error p) (calls : ∀ c ∈ w.calls, c.Allowed cfg) :
    Inv cfg none False w where
  lt := lt
  none_timer hn := absurd hn hl
  timer_none he := by rw [ht] at he; cases he
  none_state hn := absurd hn hl
  connecting _ he := by rw [hs] at he; cases he
  up _ he := by rw [hs] at he; cases he
  verified he := by rw [hs] at he; cases he
  verifying _ _ _ := .inl hv
  sentinel he := by rw [hu] at he; cases he
  error := error
  calls := calls

/-- `verifyConnection` on a context that is there. -/
theorem Inv.verifyConnection {l : Link} {t : Option RetryAction}
    (h : Inv cfg none False w) (hl : l ≠ .none)
    (ht : t ≠ some .connect) (hu : cfg.usedForSentinel = true →
      l = .up ∧ t ≠ some .verifyConnection) :
    Inv cfg none False (verifyConnection cfg env
      { w with dispatcher := ⟨w.dispatcher.core, l, t⟩ }) := by
  unfold Machine.verifyConnection
  split
  · rename_i hs
    exact (h.setState (hu hs).1 ht (fun _ => (hu hs).2) (.inl hs)).setConnected
  rename_i hs
  have hcalls : ∀ c ∈ w.calls ++ [⟨.verifyConnectionReply, l, .connectionVerification, w.verified⟩],
    c.Allowed cfg := by
    intro c hc
    rcases List.mem_append.mp hc with hc | hc
    · exact h.calls c hc
    · rw [List.mem_singleton.mp hc]
      exact ⟨hl, fun k hk => by cases hk⟩
  obtain ⟨e, n, he, hd⟩ | ⟨-, -, hd⟩ := Core.dispatchAsync_cases
    { w.dispatcher.core with serviceState := .connectionVerification }
      (env.accept w.dispatcher.core.nextCb) env.err
    .verifyConnectionReply false h.lt
  all_goals simp only [Dispatcher.verifyConnection, hd]
  · refine inv_verification rfl hl rfl (by simpa using hs)
      (.failed w.dispatcher.core.self e ?_) ?_ ?_ hcalls
    · exact List.mem_append_right _ (List.mem_singleton_self _)
    · exact fun i hi => Nat.lt_of_lt_of_le (h.lt i hi) (Nat.le_add_right _ _)
    · intro p hp
      rcases List.mem_append.mp hp with hp | hp
      · exact h.error p hp
      · rw [List.mem_singleton.mp hp]
        exact he
  · refine inv_verification rfl hl rfl (by simpa using hs)
      (.inFlight w.dispatcher.core.nextCb ?_ (by simp) ?_) ?_ ?_
      hcalls
    · exact List.mem_append_right _ (List.mem_singleton_self _)
    · -- The number of the command is new.
      have hnew : w.dispatcher.core.cbs.lookup w.dispatcher.core.nextCb = none := by
        rw [List.lookup_eq_none_iff]
        intro c hc
        have := h.lt c.1 (List.mem_map_of_mem hc)
        simp only [bne_iff_ne, ne_eq]
        omega
      simp only [Core.findCb, List.lookup_append, hnew]
      simp
    · intro i hi
      simp only [List.map_append, List.map_cons, List.map_nil, List.mem_append,
        List.mem_singleton] at hi
      rcases hi with hi | rfl
      · exact Nat.lt_succ_of_lt (h.lt i hi)
      · exact Nat.lt_succ_self _
    · simpa using h.error

theorem retryVerification_cases (d : Dispatcher Nat) :
    (d.connectionRetryTimer = none ∧ d.retryVerification =
      { d with connectionRetryTimer := some .verifyConnection }) ∨
      (d.connectionRetryTimer.isSome = true ∧ d.retryVerification = d) := by
  unfold Dispatcher.retryVerification
  cases ht : d.connectionRetryTimer with
  | none => exact .inl ⟨rfl, rfl⟩
  | some a => exact .inr ⟨rfl, rfl⟩

/-- After an error the timer is armed. -/
theorem Inv.retryVerification (h : Inv cfg held True w) (hn : cfg.usedForSentinel = false) :
    Inv cfg held False { w with dispatcher := w.dispatcher.retryVerification } := by
  obtain ⟨ht, hr⟩ | ⟨ht, hr⟩ := retryVerification_cases w.dispatcher <;> rw [hr]
  · refine ⟨h.lt, fun hl => ?_, fun he => (by cases he), h.none_state, h.connecting,
      h.up, h.verified,
      fun _ _ _ => .inl (.timer rfl), fun hu => (by rw [hn] at hu; cases hu), h.error, h.calls⟩
    exact absurd ((h.none_timer hl).symm.trans ht) (by simp)
  · exact ⟨h.lt, h.none_timer, h.timer_none, h.none_state, h.connecting, h.up, h.verified,
      fun _ _ _ => .inl (.timer ht), h.sentinel, h.error, h.calls⟩

/-- A reply to `COMMAND` is received. -/
theorem Inv.received (h : Inv cfg held owed w) (r : Nat × Reply) :
    Inv cfg held owed { w with commandReplies := w.commandReplies ++ [r] } := by
  refine h.of_under_way ⟨rfl, rfl, rfl, fun hv => ?_, rfl⟩
    (fun hg ha he => (hg ha he).imp_left fun hv => hv.of_eq rfl rfl rfl rfl) rfl rfl rfl
  unfold World.verified at hv ⊢
  rw [List.any_append, hv, Bool.true_or]

theorem Inv.abort {owed' : Prop} (h : Inv cfg held owed w) (text : String) :
    Inv cfg none owed' { w with aborted := some text } :=
  h.of_under_way ⟨rfl, rfl, rfl, id, rfl⟩ (fun _ ha => by cases ha) rfl rfl rfl

/-- More may be owed. -/
theorem Inv.owe {owed' : Prop} (h : Inv cfg held owed w) (ho : owed → owed') :
    Inv cfg held owed' w :=
  h.of_under_way (.refl w) (fun hg ha he => (hg ha he).imp_right ho) rfl rfl rfl

/-- `verifyConnectionReply`: the timer is armed, or the service is connected. -/
theorem Inv.verifyConnectionReply {error : ErrorCode} {reply : Reply} (h : Inv cfg held True w)
    (hl : error.isError = false → w.dispatcher.link = .up) (hn : cfg.usedForSentinel = false) :
    Inv cfg held False (verifyConnectionReply env w error reply) := by
  unfold Machine.verifyConnectionReply
  by_cases he : error.isError = true
  · rw [verified_error he]
    simp only [he, if_true]
    exact h.retryVerification hn
  have hr := h.received (w.connection, reply)
  have hup := hl (by simpa using he)
  have ht : w.dispatcher.connectionRetryTimer ≠ some .connect := fun ht => by
    cases (h.timer_none ht).symm.trans hup
  have hv : Hiredis.verified error reply =
      if checkRedisModuleCommands (parseCommandListReply reply) then .setConnected else .abort := by
    unfold Hiredis.verified
    rw [if_neg he]
  by_cases hc : checkRedisModuleCommands (parseCommandListReply reply) = true
  · rw [hv, if_pos hc, if_neg he]
    refine (hr.setState hup ht (fun hu => ?_) (.inr ?_)).setConnected
    · rw [hn] at hu; cases hu
    · unfold World.verified
      rw [List.any_append]
      simp [hc]
  · rw [hv, if_neg hc, if_neg he]
    exact hr.of_under_way ⟨rfl, rfl, rfl, id, rfl⟩ (fun _ ha => by cases ha) rfl rfl rfl

/-- A callback of a command is called; only that of the verification can change the state. -/
theorem Inv.callCb {k : Cb Nat} {error : ErrorCode} {reply : Reply}
    (h : Inv cfg held (k = .verifyConnectionReply) w)
    (hl : error.isError = false → w.dispatcher.link = .up)
    (hk : cfg.usedForSentinel = true → k ≠ .verifyConnectionReply) :
    Inv cfg held False (callCb env w k error reply) := by
  cases k with
  | verifyConnectionReply =>
    have hn : cfg.usedForSentinel = false := by
      cases hu : cfg.usedForSentinel with
      | false => rfl
      | true => exact absurd rfl (hk hu)
    exact (h.owe fun _ => trivial).verifyConnectionReply hl hn
  | client n =>
    refine Inv.commands (w := { w with called := _ }) ?_ _
    exact h.of_under_way ⟨rfl, rfl, rfl, id, rfl⟩
      (fun hg ha he => (hg ha he).imp (fun hv => hv.of_eq rfl rfl rfl rfl) fun ho => by
        cases ho) rfl rfl rfl

theorem mem_of_findCb {c : Core Nat} {i : Nat} {k : Cb Nat} (h : c.findCb i = some k) :
    (i, k) ∈ c.cbs := by
  unfold Core.findCb at h
  obtain ⟨l, r, hl, -⟩ := List.lookup_eq_some_iff.mp h
  rw [hl]
  simp

theorem Inv.sentinel_findCb (h : Inv cfg held owed w) {i : Nat} {k : Cb Nat}
    (hf : w.dispatcher.core.findCb i = some k) (hu : cfg.usedForSentinel = true) :
    k ≠ .verifyConnectionReply :=
  (h.sentinel hu).cbs _ (mem_of_findCb hf)

theorem findCb_removeCb {c : Core Nat} {i j : Nat} (hij : j ≠ i) :
    (c.removeCb i).findCb j = c.findCb j := by
  unfold Core.findCb Core.removeCb
  simp only
  induction c.cbs with
  | nil => rfl
  | cons a l ih =>
    obtain ⟨k, b⟩ := a
    rw [List.filter_cons]
    by_cases hk : k = i
    · rw [if_neg (by simpa using hk), ih, List.lookup_cons, beq_eq_false_iff_ne.mpr (hk ▸ hij)]
    · rw [if_pos (by simpa using hk), List.lookup_cons, List.lookup_cons, ih]

theorem Inv.removeCb {i : Nat} (h : Inv cfg (some i) owed w) :
    Inv cfg none owed (w.setCore fun c => c.removeCb i) := by
  have hsub : ∀ c ∈ (w.dispatcher.core.removeCb i).cbs, c ∈ w.dispatcher.core.cbs := fun c hc =>
    (List.mem_filter.mp hc).1
  refine h.of_same ⟨rfl, rfl, rfl, id, rfl⟩ (fun hg ha he => (hg ha he).imp_left fun hv => ?_) ?_
    (fun c hc => .inl (hsub c hc)) fun p hp => .inl hp
  · refine hv.mono (fun j hj hh hf => ?_) (fun _ hp => hp) rfl
    have hij : j ≠ i := fun e => hh (by rw [e])
    exact ⟨hj, by simp, (findCb_removeCb hij).trans hf⟩
  · intro j hj
    obtain ⟨c, hc, rfl⟩ := List.mem_map.mp hj
    exact h.lt _ (List.mem_map_of_mem (hsub c hc))

/-- The callback is over; its command is not named any more. -/
theorem Inv.release (h : Inv cfg held owed w) : Inv cfg none owed w := by
  refine h.of_under_way (.refl w) (fun hg ha he => (hg ha he).imp_left fun hv => ?_) rfl rfl rfl
  exact hv.mono (fun _ hj _ hf => ⟨hj, by simp, hf⟩) (fun _ hp => hp) rfl

/-- `handleReply` for the command `i`, of which `held` says whether it is completed. -/
theorem Inv.handleReply (held : Option Nat) {i : Nat} {error : ErrorCode} {reply : Reply}
    (h : ∀ k, w.dispatcher.core.findCb i = some k → Inv cfg held (k = .verifyConnectionReply) w)
    (h0 : Inv cfg none True w) (hl : error.isError = false → w.dispatcher.link = .up)
    (hh : cfg.usePermanentCommandCallbacks = false → held = some i) :
    Inv cfg none False (handleReply cfg env w i error reply) := by
  unfold Machine.handleReply
  cases hf : w.dispatcher.core.findCb i with
  | none => exact h0.abort _
  | some k =>
    have hc : Inv cfg held False (Machine.callCb env w k error reply) :=
      (h k hf).callCb hl ((h k hf).sentinel_findCb hf)
    simp only
    split
    · exact hc.release
    · rename_i hp
      have := hh (by simpa using hp)
      subst this
      exact hc.removeCb

/-- hiredis completes the command `i`: if it is `COMMAND`, its callback is still to be called. -/
theorem Inv.completed {i : Nat} {owed' : Prop} (h : Inv cfg none False w)
    (ho : w.dispatcher.core.findCb i = some .verifyConnectionReply → owed') :
    Inv cfg (some i) owed' (w.setCore fun c => c.completed i) := by
  refine h.of_under_way ⟨rfl, rfl, rfl, id, rfl⟩ (fun hg ha he => ?_) rfl rfl rfl
  rcases hg ha he with hv | hf
  · cases hv with
    | inFlight j hj hh hf =>
      by_cases hij : j = i
      · exact .inr (ho (hij ▸ hf))
      · refine .inl (.inFlight j ?_ (fun e => hij (Option.some.inj e).symm) hf)
        exact List.mem_filter.mpr ⟨hj, by simpa using hij⟩
    | failed self e hp => exact .inl (.failed self e hp)
    | timer ht => exact .inl (.timer ht)
  · exact hf.elim

theorem Inv.complete {i : Nat} {rr : Option RedisReply} (h : Inv cfg none False w)
    (hl : ∀ r, rr = some (.reply r) → w.dispatcher.link = .up) :
    Inv cfg none False (complete cfg env w rr i) := by
  unfold Machine.complete Machine.cb
  split
  · refine Inv.handleReply (some i) (fun k hk => ?_) ?_ (fun he => ?_) fun _ => rfl
    · exact h.completed fun hf => Option.some.inj (hk.symm.trans hf)
    · have hc : Inv cfg (some i) True (w.setCore fun c => c.completed i) :=
        h.completed fun _ => trivial
      exact hc.release
    · obtain ⟨r, hr⟩ := isError_rr he
      exact hl r hr
  · rename_i he
    -- Callbacks that are disabled are not called, and the verification does not go on.
    exact h.of_under_way ⟨rfl, rfl, rfl, id, rfl⟩ (fun _ _ ht => absurd ht he) rfl rfl rfl

/-- A message to a subscribed command. -/
theorem Inv.message {i : Nat} {rr : Option RedisReply} (h : Inv cfg none False w)
    (hl : w.dispatcher.link = .up)
    (hp : cfg.usePermanentCommandCallbacks = true) : Inv cfg none False (cb cfg env w i rr) := by
  unfold Machine.cb
  split
  · refine Inv.handleReply none (fun k _ => h.owe False.elim) (h.owe False.elim)
      (fun _ => hl) fun hn => ?_
    rw [hp] at hn
    cases hn
  · exact h

theorem Inv.setFreeing (h : Inv cfg none False w) (b : Bool) :
    Inv cfg none False (w.setCore fun c => { c with freeing := b }) :=
  h.of_under_way ⟨rfl, rfl, rfl, id, rfl⟩
    (fun hg ha he => (hg ha he).imp_left fun hv => hv.of_eq rfl rfl rfl rfl) rfl rfl rfl

theorem Inv.freeContext (h : Inv cfg none False w) :
    Inv cfg none False (freeContext cfg env w) := by
  unfold Machine.freeContext
  simp only
  refine Inv.setFreeing ?_ false
  have hf := h.setFreeing true
  generalize (w.setCore fun c => { c with freeing := true }) = w' at hf ⊢
  generalize w'.dispatcher.core.pending = l
  induction l generalizing w' with
  | nil => exact hf
  | cons i l ih => exact ih _ (hf.complete fun r hr => by cases hr)

/-- There is no context any more, and the retry timer is armed. -/
theorem Inv.setDisconnected (h : Inv cfg none False w) : Inv cfg none False w.setDisconnected where
  lt := h.lt
  none_timer _ := rfl
  timer_none _ := rfl
  none_state _ := rfl
  connecting hl := by cases hl
  up hl := by cases hl
  verified hs := by cases hs
  verifying hs := by cases hs
  sentinel hu := ⟨fun hs => (by cases hs), fun ht => (by cases ht), (h.sentinel hu).cbs,
    (h.sentinel hu).posted⟩
  error := h.error
  calls := h.calls

theorem Inv.connect (h : Inv cfg none False w)
    (ht : w.dispatcher.connectionRetryTimer = some .connect) (ok : Bool) :
    Inv cfg none False (w.connect ok) := by
  have hs := h.none_state (h.timer_none ht)
  have hn : Inv cfg none False { w with connection := w.connection + 1 } :=
    ⟨h.lt, h.none_timer, h.timer_none, h.none_state, h.connecting, h.up,
      fun hc => (by cases hs.symm.trans hc),
      fun hv => (by cases hs.symm.trans hv),
      fun hu => ⟨(h.sentinel hu).state, (h.sentinel hu).timer, (h.sentinel hu).cbs,
        (h.sentinel hu).posted⟩,
      h.error, h.calls⟩
  unfold World.connect Dispatcher.connect
  cases ok with
  | true =>
    refine ⟨hn.lt, fun hl => (by cases hl), fun ht => (by cases ht),
      fun hl => (by cases hl), fun _ hc => ?_,
      fun hl => (by cases hl), hn.verified, fun hv => ?_, fun hu => ?_, hn.error, hn.calls⟩
    · cases hs.symm.trans hc
    · cases hs.symm.trans hv
    · exact ⟨(hn.sentinel hu).state, fun ht => (by cases ht), (hn.sentinel hu).cbs,
        (hn.sentinel hu).posted⟩
  | false => exact hn.setDisconnected

theorem Inv.waitConnectedAsync (h : Inv cfg none False w) :
    Inv cfg none False (waitConnectedAsync w) := by
  refine h.of_same ⟨rfl, rfl, rfl, id, rfl⟩ (fun hg ha he => (hg ha he).imp_left fun hv => ?_) h.lt
    (fun c hc => .inl hc) fun p hp => ?_
  · exact hv.mono (fun _ hi hh hc => ⟨hi, hh, hc⟩) (fun _ hp => List.mem_append_left _ hp) rfl
  · refine (List.mem_append.mp hp).imp_right fun hp => ?_
    simp only [Core.waitConnectedAsync] at hp
    split at hp
    · rw [List.mem_singleton.mp hp]
      exact ⟨trivial, trivial⟩
    · cases hp

/-- The engine takes a callback: if it is the failure of `COMMAND`, `verifyConnectionReply` is still
to be called. -/
theorem Inv.taken {i : Nat} {p : Posted Nat} {owed' : Prop} (h : Inv cfg none False w)
    (hp : w.posted[i]? = some p)
    (ho : ∀ self e, p = .callCommandCbWithError self .verifyConnectionReply e → owed') :
    Inv cfg none owed' { w with posted := w.posted.eraseIdx i } := by
  refine h.of_same ⟨rfl, rfl, rfl, id, rfl⟩ (fun hg ha he => ?_) h.lt (fun c hc => .inl hc)
    fun q hq => .inl (List.mem_of_mem_eraseIdx hq)
  rcases hg ha he with hv | hf
  · cases hv with
    | inFlight j hj hh hc => exact .inl (.inFlight j hj hh hc)
    | failed self e hm =>
      rcases mem_taken hp hm with hm | hm
      · exact .inr (ho self e hm.symm)
      · exact .inl (.failed self e hm)
    | timer ht => exact .inl (.timer ht)
  · exact hf.elim

theorem Inv.runPosted {i : Nat} {p : Posted Nat} (h : Inv cfg none False w)
    (hp : w.posted[i]? = some p) :
    Inv cfg none False (runPosted env { w with posted := w.posted.eraseIdx i } p) := by
  have hm := List.mem_of_getElem? hp
  cases p with
  | connectAck ack => exact (h.taken hp fun _ _ e => by cases e).commands _
  | callCommandCbWithError self k e =>
    have he : e.isError = true := h.error _ hm
    refine Inv.callCb (h.taken hp fun _ _ e => by cases e; rfl) (fun hn => ?_) fun hu hk => ?_
    · rw [he] at hn
      cases hn
    · subst hk
      exact (h.sentinel hu).posted _ hm

theorem Inv.step {w' : World} {e : Event} (h : Inv cfg none False w)
    (hs : step cfg env w e = some w') :
    Inv cfg none False w' := by
  cases e with
  | command => cases hs; exact h.command
  | waitConnectedAsync => cases hs; exact h.waitConnectedAsync
  | connected =>
    simp only [Machine.step] at hs
    split at hs
    · rename_i hl
      cases hs
      have ht : w.dispatcher.connectionRetryTimer ≠ some .connect := fun ht => by
        cases (h.timer_none ht).symm.trans hl
      exact h.verifyConnection (by decide) ht fun hu => ⟨rfl, (h.sentinel hu).timer⟩
    · cases hs
  | connectFailed =>
    simp only [Machine.step] at hs
    split at hs
    · cases hs; exact h.setDisconnected.freeContext
    · cases hs
  | reply rr =>
    simp only [Machine.step] at hs
    split at hs
    · rename_i hl
      obtain ⟨i, -, rfl⟩ := Option.map_eq_some_iff.mp hs
      exact h.complete fun _ _ => hl
    · cases hs
  | message i rr =>
    simp only [Machine.step] at hs
    split at hs
    · rename_i hc
      cases hs
      exact h.message hc.1 hc.2.1
    · cases hs
  | lost =>
    simp only [Machine.step] at hs
    split at hs
    · cases hs; exact h.freeContext.setDisconnected
    · cases hs
  | timer ok =>
    simp only [Machine.step] at hs
    split at hs
    · rename_i ht
      cases hs
      exact h.connect ht ok
    · rename_i ht
      cases hs
      refine h.verifyConnection (fun hl => ?_) (by simp) fun hu => absurd ht (h.sentinel hu).timer
      cases (h.none_timer hl).symm.trans ht
    · cases hs
  | posted i =>
    obtain ⟨p, hp, rfl⟩ := Option.map_eq_some_iff.mp hs
    exact h.runPosted hp

theorem inv_init (ok : Bool) : Inv cfg none False (sys cfg ok).init := by
  cases ok with
  | true =>
    exact ⟨by simp [sys, Dispatcher.new, Dispatcher.connect, Core.new], fun h => (by cases h),
      fun h => (by cases h),
      fun h => (by cases h), fun _ h => (by cases h), fun h => (by cases h), fun h => (by cases h),
      fun h => (by cases h), fun _ => ⟨fun h => (by cases h), fun h => (by cases h),
        fun c hc => (by cases hc),
      fun p hp => (by cases hp)⟩, fun p hp => (by cases hp), fun c hc => (by cases hc)⟩
  | false =>
    exact ⟨by simp [sys, Dispatcher.new, Dispatcher.connect, Core.new, Dispatcher.setDisconnected],
      fun _ => rfl,
      fun _ => rfl, fun _ => rfl, fun _ h => (by cases h), fun h => (by cases h),
      fun h => (by cases h),
      fun h => (by cases h), fun _ => ⟨fun h => (by cases h), fun h => (by cases h),
        fun c hc => (by cases hc),
      fun p hp => (by cases hp)⟩, fun p hp => (by cases hp), fun c hc => (by cases hc)⟩

theorem Inv.of_reach {ok : Bool} (h : (sys cfg ok).Reach Sys.always w) : Inv cfg none False w := by
  refine h.invariant (inv_init ok) fun s e s' hi _ hs => ?_
  obtain ⟨hs, -⟩ := Option.filter_eq_some_iff.mp hs
  exact hi.step hs

/-! ## The callbacks of the client -/

/-- No function touches the flag of the callbacks, and a callback is called only with the flag as it
is. -/
structure Keeps (w w' : World) : Prop where
  enabled : w'.clientCallbacksEnabled = w.clientCallbacksEnabled
  called : ∀ c ∈ w'.called, c ∈ w.called ∨ c.2 = w.clientCallbacksEnabled

theorem Keeps.of_eq {w w' : World} (he : w'.clientCallbacksEnabled = w.clientCallbacksEnabled)
    (hc : w'.called = w.called) : Keeps w w' :=
  ⟨he, fun _ hm => .inl (hc ▸ hm)⟩

theorem Keeps.trans {u v w : World} (h₁ : Keeps u v) (h₂ : Keeps v w) : Keeps u w :=
  ⟨h₂.enabled.trans h₁.enabled,
    fun c hm => (h₂.called c hm).elim (h₁.called c) fun he => .inr (he.trans h₁.enabled)⟩

/-- A step before or after that does not concern the callbacks. -/
theorem Keeps.from {u v w : World} (h : Keeps v w)
    (he : v.clientCallbacksEnabled = u.clientCallbacksEnabled)
    (hc : v.called = u.called) : Keeps u w :=
  (Keeps.of_eq he hc).trans h

theorem Keeps.into {u v w : World} (h : Keeps u v)
    (he : w.clientCallbacksEnabled = v.clientCallbacksEnabled)
    (hc : w.called = v.called) : Keeps u w :=
  h.trans (.of_eq he hc)

theorem commands_keeps (n : Nat) (w : World) : Keeps w (commands env n w) := by
  induction n with
  | zero => exact .of_eq rfl rfl
  | succ n ih => exact ih.into rfl rfl

theorem setConnected_keeps (w : World) : Keeps w (setConnected env w) := by
  unfold setConnected
  simp only
  split
  · have hc : Keeps w (commands env env.onConnected (w.setState .connected)) :=
      (commands_keeps _ _).from rfl rfl
    exact hc.into rfl rfl
  · exact .of_eq rfl rfl

theorem verifyConnection_keeps (w : World) : Keeps w (verifyConnection cfg env w) := by
  unfold verifyConnection
  split
  · exact setConnected_keeps w
  · exact .of_eq rfl rfl

theorem callCb_keeps (w : World) (k : Cb Nat) (e : ErrorCode) (r : Reply) :
    Keeps w (callCb env w k e r) := by
  cases k with
  | client n =>
    have hc : Keeps w { w with called := w.called ++ [(n, w.clientCallbacksEnabled)] } := by
      refine ⟨rfl, fun c hm => (List.mem_append.mp hm).imp_right fun hm => ?_⟩
      rw [List.mem_singleton.mp hm]
    exact hc.trans (commands_keeps _ _)
  | verifyConnectionReply =>
    have hr : Keeps w (if e.isError then w
      else { w with commandReplies := w.commandReplies ++ [(w.connection, r)] }) := by
      split <;> exact .of_eq rfl rfl
    simp only [callCb, verifyConnectionReply]
    split
    · exact hr.into rfl rfl
    · exact hr.trans (setConnected_keeps _)
    · exact hr.into rfl rfl

theorem cb_keeps (w : World) (i : Nat) (rr : Option RedisReply) : Keeps w (cb cfg env w i rr) := by
  unfold cb handleReply
  split
  · split
    · exact .of_eq rfl rfl
    · simp only
      split
      · exact callCb_keeps _ _ _ _
      · exact (callCb_keeps _ _ _ _).into rfl rfl
  · exact .of_eq rfl rfl

theorem complete_keeps (w : World) (rr : Option RedisReply) (i : Nat) :
    Keeps w (complete cfg env w rr i) :=
  (cb_keeps (w.setCore fun c => c.completed i) i rr).from rfl rfl

theorem freeContext_keeps (w : World) : Keeps w (freeContext cfg env w) := by
  have hf : ∀ (l : List Nat) (v : World),
    Keeps v (l.foldl (fun w i => complete cfg env w none i) v) := by
    intro l
    induction l with
    | nil => exact fun _ => .of_eq rfl rfl
    | cons i l ih => exact fun v => (complete_keeps v none i).trans (ih _)
  have hn : Keeps w _ := (hf w.dispatcher.core.pending
    (w.setCore fun c => { c with freeing := true })).from rfl rfl
  exact hn.into rfl rfl

theorem step_keeps {w' : World} {e : Event} (hs : step cfg env w e = some w') : Keeps w w' := by
  cases e <;> simp only [step] at hs
  case command => cases hs; exact .of_eq rfl rfl
  case waitConnectedAsync => cases hs; exact .of_eq rfl rfl
  case connected =>
    split at hs <;> cases hs
    exact (verifyConnection_keeps { w with dispatcher := { w.dispatcher with link := .up } }).from
      rfl rfl
  case connectFailed =>
    split at hs <;> cases hs
    exact (freeContext_keeps w.setDisconnected).from rfl rfl
  case reply =>
    split at hs
    · obtain ⟨i, -, rfl⟩ := Option.map_eq_some_iff.mp hs
      exact complete_keeps _ _ _
    · cases hs
  case message =>
    split at hs <;> cases hs
    exact cb_keeps _ _ _
  case lost =>
    split at hs <;> cases hs
    exact (freeContext_keeps w).into rfl rfl
  case timer =>
    split at hs <;> cases hs
    · exact .of_eq rfl rfl
    · exact (verifyConnection_keeps
        { w with dispatcher := { w.dispatcher with connectionRetryTimer := none } }).from rfl rfl
  case posted i =>
    obtain ⟨p, -, rfl⟩ := Option.map_eq_some_iff.mp hs
    refine Keeps.from (v := { w with posted := w.posted.eraseIdx i }) ?_ rfl rfl
    cases p with
    | connectAck ack => exact commands_keeps _ _
    | callCommandCbWithError self k e => exact callCb_keeps _ _ _ _

theorem running_of_reach {ok : Bool} (h : (sys cfg ok).Reach Sys.always w) :
    w.aborted = none ∧ w.clientCallbacksEnabled = true := by
  refine h.invariant (I := fun w => w.aborted = none ∧ w.clientCallbacksEnabled = true) ⟨rfl, rfl⟩
    fun s e s' hi _ hs => ?_
  obtain ⟨hs, ha⟩ := Option.filter_eq_some_iff.mp hs
  exact ⟨Option.isNone_iff_eq_none.mp ha, (step_keeps hs).enabled.trans hi.2⟩

end Keep

/-! ## Every run -/

theorem verified_iff (w : World) : w.verified = true ↔ ∃ r, (w.connection, r) ∈ w.commandReplies ∧
    checkRedisModuleCommands (parseCommandListReply r) = true := by
  simp only [World.verified, List.any_eq_true, Bool.and_eq_true, decide_eq_true_eq, Prod.exists]
  constructor
  · rintro ⟨c, r, hm, rfl, hc⟩
    exact ⟨r, hm, hc⟩
  · rintro ⟨r, hm, hc⟩
    exact ⟨_, r, hm, rfl, hc⟩

/-- **The state machine of the dispatcher**, in every reachable state. Commands of the client were
handed to hiredis only in `CONNECTED`, on a connection that was up and verified; `CONNECTED` holds
only on such a connection. hiredis was never called without a context. A dispatcher that is not
connected connects, or its retry timer is armed; one that verifies its connection has `COMMAND` in
flight, or its failure is posted, or the retry timer is armed. -/
theorem stateMachine_safe (cfg : Config) (ok : Bool) (w : World)
    (h : (sys cfg ok).Reach Sys.always w) :
    (∀ c ∈ w.calls, ∀ k, c.cb = .client k →
      c.serviceState = .connected ∧ c.link = .up ∧
      (cfg.usedForSentinel = true ∨ c.verified = true)) ∧
    (w.dispatcher.core.serviceState = .connected → w.dispatcher.link = .up ∧
      (cfg.usedForSentinel = true ∨ ∃ r, (w.connection, r) ∈ w.commandReplies ∧
        checkRedisModuleCommands (parseCommandListReply r) = true)) ∧
    (∀ c ∈ w.calls, c.link ≠ .none) ∧
    (w.dispatcher.core.serviceState = .disconnected →
      w.dispatcher.link = .connecting ∨ w.dispatcher.connectionRetryTimer.isSome = true) ∧
    (w.dispatcher.core.serviceState = .connectionVerification →
      (∃ i ∈ w.dispatcher.core.pending, w.dispatcher.core.findCb i = some .verifyConnectionReply) ∨
      (∃ self e, .callCommandCbWithError self .verifyConnectionReply e ∈ w.posted) ∨
      w.dispatcher.connectionRetryTimer.isSome = true) := by
  have hi := Inv.of_reach h
  obtain ⟨ha, he⟩ := running_of_reach h
  refine ⟨fun c hc k hk => (hi.calls c hc).client k hk, fun hs => ⟨hi.connected_up hs, ?_⟩,
    fun c hc => (hi.calls c hc).context, fun hs => ?_, fun hs => ?_⟩
  · exact (hi.verified hs).imp_right (verified_iff w).mp
  · cases hl : w.dispatcher.link with
    | none => exact .inr (by rw [hi.none_timer hl]; rfl)
    | connecting => exact .inl rfl
    | up => exact absurd hs (hi.up hl)
  · rcases hi.verifying hs ha he with hv | hf
    · cases hv with
      | inFlight i hi _ hc => exact .inl ⟨i, hi, hc⟩
      | failed self e hp => exact .inr (.inl ⟨self, e, hp⟩)
      | timer ht => exact .inr (.inr ht)
    · exact hf.elim

/-- A reply to `COMMAND` with all required commands. -/
def commandReply : Reply := .array (getRequiredRedisModuleCommands.map fun c => .array [.string c])

/-- The first `COMMAND` is refused and the connection is lost; the failure is called back only while
the second connection is being made. Then that is verified, and a command is sent. -/
theorem stateMachine_safe_reconnected : ∃ w, (sys ⟨false, false⟩ true).Reach Sys.always w ∧
    w.dispatcher.core.serviceState = .connected ∧ w.calls.length = 3 ∧ w.connection = 1 ∧
    (∀ c ∈ w.calls, c.link ≠ .none) ∧ w.dispatcher.link = .up := by
  let env (accept : Bool) : Env := ⟨fun _ => accept, .eof, fun _ => 0, 0⟩
  obtain ⟨w, hw, hb⟩ := Sys.reach_run_map (S := sys ⟨false, false⟩ true) (G := Sys.always)
    [(env false, .connected), (env true, .lost), (env true, .timer true), (env true, .posted 0),
      (env true, .connected),
      (env true, .reply (.reply commandReply)), (env true, .command)]
    (fun w => (w.dispatcher.core.serviceState, w.calls.length, w.connection))
    (b := (.connected, 3, 1)) (by decide)
  obtain ⟨hs, hb⟩ := Prod.mk.inj hb
  obtain ⟨hc, hn⟩ := Prod.mk.inj hb
  have hsafe := stateMachine_safe ⟨false, false⟩ true w hw
  exact ⟨w, hw, hs, hc, hn, hsafe.2.2.1, (hsafe.2.1 hs).1⟩

end Machine
end Hiredis
end Sdl
