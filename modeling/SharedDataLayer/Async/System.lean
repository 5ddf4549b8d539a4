import SharedDataLayer.Hiredis.Dispatcher
import SharedDataLayer.Redis.Storage
import SharedDataLayer.Spec.Sys

/-!
# The storage over its dispatcher

`AsyncRedisStorage` with the `AsyncHiredisCommandDispatcher` that discovery has installed, the
engine and the clients. The operations are numbered in the order in which they are issued; a
callback of a command carries the number of its operation. An ack calls back into the client, who
may issue further operations from inside it (`Env.react`).

The acks reach the client over four ways: the storage posts them, the dispatcher posts the callback
of a command, hiredis completes a command with a reply, and it completes the pending commands with
null replies when it frees a context: after a loss of the connection, and from the destructor of a
dispatcher that discovery has replaced. At that moment the new dispatcher is already installed.

Discovery replaces the dispatcher without regard to what it has posted. A posted callback of a
client does not use the dispatcher that it is bound to; `verifyConnectionReply` does.

The readiness callbacks are modelled in `Async/Ready.lean`; here they are a place from which a
client issues operations (`Env.onConnected`).
-/

namespace Sdl
namespace Async

open Spec Redis Hiredis

/-- The callback of a command of the operation `op`. -/
structure ClientCb where
  op : Nat
  commandCb : CommandCb

/-- What is posted to the engine: an ack by the storage, or a callback by a dispatcher. -/
inductive Task where
  | ack (op : Nat) (a : Ack)
  | dispatcher (p : Posted ClientCb)

/-- Why the process ends. -/
inductive Fault where
  /-- `SHAREDDATALAYER_ABORT`. -/
  | abort (message : String)
  /-- A dispatcher is used after it has been freed. -/
  | useAfterFree
  deriving DecidableEq

structure World where
  dispatcher : Option (Dispatcher ClientCb)
  posted : List Task
  acks : List (Nat × Ack)
  nextOp : Nat
  nextSelf : Nat
  aborted : Option Fault

/-- What the environment decides during a step: which commands hiredis accepts, by their number, the
error of the context where it has one, the operations that the client issues from inside the ack of
an operation, and those from inside a readiness ack. -/
structure Env where
  accept : Nat → Bool
  err : ContextError
  react : Nat → List Op
  onConnected : List Op

def invalidCallback : Fault := .abort "Invalid callback function."

def missingCommands : Fault := .abort "Required Redis module extension commands not available."

section Functions

variable (cfg : Config) (env : Env)

/-- What a request of the operation `op` does. -/
def request (w : World) (op : Nat) : Request → World
  | .postCallback a => { w with posted := w.posted ++ [.ack op a] }
  | .dispatchAsync cb _ _ =>
    match w.dispatcher with
    | none => w
    | some d =>
      let r := d.core.dispatchAsync (env.accept d.core.nextCb) env.err (.client ⟨op, cb⟩) true
      { w with dispatcher := some { d with core := r.1 },
               posted := w.posted ++ r.2.map .dispatcher }

/-- The client issues an operation. -/
def issue (w : World) (op : Op) : World :=
  request env { w with nextOp := w.nextOp + 1 } w.nextOp (op.request cfg w.dispatcher.isSome)

/-- The ack of the operation `op` is called. -/
def callAck (w : World) (op : Nat) (a : Ack) : World :=
  (env.react op).foldl (issue cfg env) { w with acks := w.acks ++ [(op, a)] }

/-- `verifyConnectionReply` of the dispatcher `self`. In one that is being destroyed it arms a timer
that is destroyed next, which is not seen from outside. -/
def verifyConnectionReply (w : World) (self : Nat) (error : ErrorCode) (reply : Reply) : World :=
  match w.dispatcher with
  | none => w
  | some d =>
    if d.core.self = self then
      match verified error reply with
      | .retry => { w with dispatcher := some d.retryVerification }
      | .setConnected => env.onConnected.foldl (issue cfg env)
        { w with dispatcher := some { d with core := { d.core with serviceState := .connected } } }
      | .abort => { w with aborted := some missingCommands }
    else w

/-- The callback of a command is called. -/
def callCb (w : World) (self : Nat) (cb : Cb ClientCb) (error : ErrorCode)
    (reply : Reply) : World :=
  match cb with
  | .verifyConnectionReply => verifyConnectionReply cfg env w self error reply
  | .client k =>
    match k.commandCb.call error reply with
    | .ack a => callAck cfg env w k.op a
    | .removeAsync ns keys => request env w k.op (removeAsync cfg w.dispatcher.isSome ns keys)

/-- `handleReply` of the installed dispatcher for the command `cb`. -/
def handleReply (w : World) (cb : Nat) (error : ErrorCode) (reply : Reply) : World :=
  match w.dispatcher with
  | none => w
  | some d =>
    match d.core.findCb cb with
    | none => { w with aborted := some invalidCallback }
    | some k =>
      let w := callCb cfg env { w with dispatcher := some { d with core := d.core.completed cb } }
        d.core.self k error reply
      { w with dispatcher := w.dispatcher.map fun d => { d with core := d.core.removeCb cb } }

/-- hiredis frees the context of the dispatcher, or starts or ends to do so. -/
def setFreeing (w : World) (b : Bool) : World :=
  { w with dispatcher := w.dispatcher.map fun d => { d with core := { d.core with freeing := b } } }

/-- Null replies to the commands, one after the other. -/
def nullReplies (w : World) (cbs : List Nat) : World :=
  cbs.foldl (fun w cb => handleReply cfg env w cb (getRedisError env.err none) .nil) w

/-- hiredis frees the context of the installed dispatcher `d`. -/
def freeContext (w : World) (d : Dispatcher ClientCb) : World :=
  setFreeing (nullReplies cfg env (setFreeing w true) d.core.pending) false

/-- A null reply to the command `cb` of a dispatcher that is being destroyed. -/
def dropReply (p : World × Core ClientCb) (cb : Nat) : World × Core ClientCb :=
  match p.2.findCb cb with
  | none => ({ p.1 with aborted := some invalidCallback }, p.2)
  | some k => (callCb cfg env p.1 p.2.self k (getRedisError env.err none) .nil,
    (p.2.completed cb).removeCb cb)

/-- The destructor of a dispatcher. -/
def destroy (w : World) (old : Core ClientCb) : World :=
  if old.serviceState = .disconnected then w
  else (old.pending.foldl (dropReply cfg env) (w, old)).1

/-- `serviceStateChanged`. The old dispatcher is destroyed after the new one is installed. -/
def serviceStateChanged (w : World) (ok : Bool) : World :=
  let installed := { w with dispatcher := some (Dispatcher.new w.nextSelf ok),
                            nextSelf := w.nextSelf + 1 }
  match w.dispatcher with
  | some old => destroy cfg env installed old.core
  | none => installed

/-- `verifyConnection` of the installed dispatcher. -/
def verifyConnection (w : World) (d : Dispatcher ClientCb) : World :=
  let r := d.verifyConnection (env.accept d.core.nextCb) env.err
  { w with dispatcher := some r.1, posted := w.posted ++ r.2.map .dispatcher }

/-- The dispatcher that a posted callback uses has not been freed. That of a client uses none. -/
def usable (w : World) (self : Nat) : Cb ClientCb → Bool
  | .verifyConnectionReply => w.dispatcher.any fun d => d.core.self = self
  | .client _ => true

/-- `callCommandCbWithError`, called by the engine. The dispatcher may have been replaced since. -/
def callCommandCbWithError (w : World) (self : Nat) (cb : Cb ClientCb)
    (error : ErrorCode) : World :=
  if usable w self cb then callCb cfg env w self cb error .nil
  else { w with aborted := some .useAfterFree }

/-- The engine calls a posted callback. -/
def runTask (w : World) : Task → World
  | .ack op a => callAck cfg env w op a
  | .dispatcher (.callCommandCbWithError self cb e) => callCommandCbWithError cfg env w self cb e
  | .dispatcher (.connectAck _) => w

end Functions

inductive Event where
  /-- The client issues an operation. -/
  | issue (op : Op)
  /-- Discovery reports a database. `ok` says whether hiredis returns a context. -/
  | serviceStateChanged (ok : Bool)
  /-- `connectCb`, with success or with a failure. -/
  | connected
  | connectFailed
  /-- The reply to the first pending command. -/
  | reply (rr : RedisReply)
  /-- The connection is lost. -/
  | lost
  /-- The retry timer. -/
  | timer (ok : Bool)
  /-- The engine calls the posted callback `i`. -/
  | posted (i : Nat)

def step (cfg : Config) (w : World) (e : Env × Event) : Option World :=
  match e.2 with
  | .issue op => some (issue cfg e.1 w op)
  | .serviceStateChanged ok => some (serviceStateChanged cfg e.1 w ok)
  | .posted i => (w.posted[i]?).map fun t => runTask cfg e.1
    { w with posted := w.posted.eraseIdx i } t
  | .connected => w.dispatcher.bind fun d =>
    if d.link = .connecting then some (verifyConnection e.1 w { d with link := .up }) else none
  | .connectFailed => w.dispatcher.bind fun d =>
    if d.link = .connecting then
      some (freeContext cfg e.1 { w with dispatcher := some
                                           { d with link := .none }.setDisconnected } d)
    else none
  | .reply rr => w.dispatcher.bind fun d =>
    d.core.pending.head?.map fun cb =>
      handleReply cfg e.1 w cb (getRedisError e.1.err (some rr)) (asyncRedisReply (some rr))
  | .lost => w.dispatcher.bind fun d =>
    if d.link = .up then
      let freed := freeContext cfg e.1 w d
      some { freed with dispatcher := freed.dispatcher.map fun d =>
                          { d with link := .none }.setDisconnected }
    else none
  | .timer ok => w.dispatcher.bind fun d =>
    match d.connectionRetryTimer with
    | some .connect =>
      some { w with dispatcher := some ({ d with connectionRetryTimer := none }.connect ok) }
    | some .verifyConnection =>
      some (verifyConnection e.1 w { d with connectionRetryTimer := none })
    | none => none

/-- The storage before discovery. A fault ends the process. -/
def sys (cfg : Config) : Sys World (Env × Event) where
  init := ⟨none, [], [], 0, 0, none⟩
  step w e := if w.aborted.isSome then none else step cfg w e

end Async
end Sdl
