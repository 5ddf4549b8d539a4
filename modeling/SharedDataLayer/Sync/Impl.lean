import SharedDataLayer.Error
import SharedDataLayer.Spec.Sys

/-!
# `SyncStorageImpl` (`src/syncstorageimpl.cpp`)

The synchronous API makes an asynchronous request and polls until its ack has been invoked. All
acks write the same record (`Impl`): `localError` for every ack, `isReady` for a readiness ack,
`synced` and the result for the ack of a data operation.

The `AsyncStorage` under it is arbitrary. It is given the requests with the acks that belong to
them (`World.outstanding`), and it decides what each `poll` finds (`Poll`): how long it took, and
the batch of acks that the `handleEvents` call after it invokes, in their order. An ack is invoked
at most once and only in `handleEvents`, so a batch can only name outstanding acks: with another
batch there is no run (`none`).

The loops consume a list of polls. `none` is also the result if the list ends before the loop: the
call has not returned yet. Time passes in `poll` only; a loop that would find its time spent
before it polls is one whose `poll` took that long and found nothing.
-/

namespace Sdl
namespace Sync

open Spec

/-- The acks that `SyncStorageImpl` binds to its requests. -/
inductive AckFn where
  | waitReadyAck | modifyAck | modifyIfAck | getAck | findKeysAck
  deriving DecidableEq, Repr

/-- What an ack is invoked with. `waitReadyAck` and `modifyAck` take the error only, the other
acks one more argument each. -/
structure AckArgs where
  error : ErrorCode
  status : Bool := false
  dataMap : DataMap := OrdMap.empty
  keys : Keys := OrdMap.empty

/-- The requests to the `AsyncStorage`. -/
inductive Request where
  | waitReadyAsync (ns : Namespace)
  | setAsync (ns : Namespace) (dataMap : DataMap)
  | setIfAsync (ns : Namespace) (key : Key) (oldData newData : Data)
  | setIfNotExistsAsync (ns : Namespace) (key : Key) (data : Data)
  | getAsync (ns : Namespace) (keys : Keys)
  | removeAsync (ns : Namespace) (keys : Keys)
  | removeIfAsync (ns : Namespace) (key : Key) (data : Data)
  | findKeysAsync (ns : Namespace) (keyStart : Bytes)
  | listKeys (ns : Namespace) (pattern : Bytes)
  | removeAllAsync (ns : Namespace)

/-- The members of `SyncStorageImpl` that the acks and the operations use. Durations are in
nanoseconds (`std::chrono::steady_clock::duration`). -/
structure Impl where
  localMap : DataMap
  localKeys : Keys
  localStatus : Bool
  localError : ErrorCode
  synced : Bool
  isReady : Bool
  operationTimeout : Int

/-- The constructor. -/
def Impl.new : Impl where
  localMap := OrdMap.empty
  localKeys := OrdMap.empty
  localStatus := false
  localError := .none
  synced := false
  isReady := false
  operationTimeout := 0

/-- The acks that one `handleEvents` call invokes, in order. Acks have numbers. -/
abbrev Batch := List (Nat × AckArgs)

/-- What a `poll` does: it takes `elapsed` nanoseconds and finds nothing (`none`), or an input event
whose `handleEvents` call invokes a batch of acks. -/
structure Poll where
  elapsed : Nat
  events : Option Batch

/-- The storage object, the clock and the `AsyncStorage`: the acks it still has to invoke, and (for
the statements only) all requests and all batches so far. -/
structure World where
  impl : Impl
  clock : Int
  outstanding : List (Nat × AckFn)
  nextAck : Nat
  requests : List (Nat × Request)
  handled : List Batch

def World.new : World where
  impl := .new
  clock := 0
  outstanding := []
  nextAck := 0
  requests := []
  handled := []

/-! ## The acks -/

namespace Impl

def waitReadyAck (s : Impl) (error : ErrorCode) : Impl :=
  { s with isReady := true, localError := error }

def modifyAck (s : Impl) (error : ErrorCode) : Impl :=
  { s with synced := true, localError := error }

def modifyIfAck (s : Impl) (error : ErrorCode) (status : Bool) : Impl :=
  { s with synced := true, localError := error, localStatus := status }

def getAck (s : Impl) (error : ErrorCode) (dataMap : DataMap) : Impl :=
  { s with synced := true, localError := error, localMap := dataMap }

def findKeysAck (s : Impl) (error : ErrorCode) (keys : Keys) : Impl :=
  { s with synced := true, localError := error, localKeys := keys }

end Impl

/-- The bound ack function, called with its arguments. -/
def AckFn.call : AckFn → AckArgs → Impl → Impl
  | .waitReadyAck, a, s => s.waitReadyAck a.error
  | .modifyAck, a, s => s.modifyAck a.error
  | .modifyIfAck, a, s => s.modifyIfAck a.error a.status
  | .getAck, a, s => s.getAck a.error a.dataMap
  | .findKeysAck, a, s => s.findKeysAck a.error a.keys

/-- The value that an operation returns. -/
inductive Value where
  | unit
  | status (status : Bool)
  | dataMap (dataMap : DataMap)
  | keys (keys : Keys)

/-- The member that the operation with this ack returns. -/
def AckFn.result : AckFn → Impl → Value
  | .waitReadyAck, _ | .modifyAck, _ => .unit
  | .modifyIfAck, s => .status s.localStatus
  | .getAck, s => .dataMap s.localMap
  | .findKeysAck, s => .keys s.localKeys

/-- The same member of the arguments of the ack. -/
def AckFn.resultOf : AckFn → AckArgs → Value
  | .waitReadyAck, _ | .modifyAck, _ => .unit
  | .modifyIfAck, a => .status a.status
  | .getAck, a => .dataMap a.dataMap
  | .findKeysAck, a => .keys a.keys

abbrev Outcome := Except Exception Value

/-- `verifyBackendResponse`, then the returned member. -/
def verifyBackendResponse (s : Impl) (result : Impl → Value) : Outcome :=
  if s.localError.isError then .error (throwExceptionForErrorCode s.localError) else .ok (result s)

/-! ## Events -/

/-- One ack of a batch: it has to be outstanding, and it is not any more. -/
def World.invoke (w : World) (d : Nat × AckArgs) : Option World :=
  (w.outstanding.lookup d.1).map fun f =>
    { w with impl := f.call d.2 w.impl, outstanding := w.outstanding.filter (·.1 != d.1) }

/-- `asyncStorage->handleEvents()`. -/
def handleEvents (b : Batch) (w : World) : Option World :=
  (b.foldlM World.invoke w).map fun w' => { w' with handled := w'.handled ++ [b] }

/-- `pollAndHandleEvents`, for every poll timeout: how long `poll` waits is part of `Poll`. -/
def pollAndHandleEvents (p : Poll) (w : World) : Option World :=
  let w := { w with clock := w.clock + p.elapsed }
  match p.events with
  | none => some w
  | some b => handleEvents b w

/-- `while (cond) pollAndHandleEvents(...)`, with the polls that are left. -/
def pollWhile (cond : World → Bool) : List Poll → World → Option (World × List Poll)
  | [], w => if cond w then none else some (w, [])
  | p :: ps, w =>
    if cond w then (pollAndHandleEvents p w).bind (pollWhile cond ps) else some (w, p :: ps)

/-- `handlePendingEvents`: handles events until a `poll` finds none. -/
def handlePendingEvents : List Poll → World → Option (World × List Poll)
  | [], _ => none
  | p :: ps, w =>
    match p.events with
    | none => (pollAndHandleEvents p w).map (·, ps)
    | some _ => (pollAndHandleEvents p w).bind (handlePendingEvents ps)

/-- A request: its ack is outstanding. -/
def World.request (w : World) (f : AckFn) (r : Request) : World :=
  { w with
    outstanding := w.outstanding ++ [(w.nextAck, f)]
    nextAck := w.nextAck + 1
    requests := w.requests ++ [(w.nextAck, r)] }

/-! ## The operations -/

def waitForOperationCallback : List Poll → World → Option (World × List Poll) :=
  pollWhile fun w => !w.impl.synced

/-- The loop conditions of `waitForReadinessCheckCallback`; `start` is the clock at its start. -/
def waitsForReadiness (timeout start : Int) (w : World) : Bool :=
  if timeout = 0 then !w.impl.isReady
  else
    -- `duration_cast<milliseconds>` rounds towards zero.
    let timeoutMs := timeout.tdiv 1000000
    !w.impl.isReady && decide (w.clock - start < timeoutMs * 1000000)

def waitForReadinessCheckCallback (timeout : Int) (ps : List Poll) (w : World) :
    Option (World × List Poll) :=
  pollWhile (waitsForReadiness timeout w.clock) ps w

def waitSdlToBeReady (ns : Namespace) (timeout : Int) (ps : List Poll) (w : World) :
    Option (World × List Poll) :=
  let w := { w with impl := { w.impl with isReady := false } }
  waitForReadinessCheckCallback timeout ps (w.request .waitReadyAck (.waitReadyAsync ns))

/-- The text of the exception that a readiness wait ends with. -/
def readinessTimeoutText (ns : Namespace) : String :=
  "Timeout, SDL service not ready for the '" ++ String.ofList (ns.map fun b => Char.ofNat b) ++
    "' namespace"

def waitReady (ns : Namespace) (timeout : Int) (ps : List Poll) (w : World) :
    Option (Outcome × World × List Poll) :=
  (waitSdlToBeReady ns timeout ps w).map fun (w, ps) =>
    if w.impl.isReady then (verifyBackendResponse w.impl fun _ => .unit, w, ps)
    else (.error ⟨.rejectedBySdl, readinessTimeoutText ns⟩, w, ps)

/-- The common body of the data operations. The operation goes on after a readiness wait that
timed out. -/
def operation (ns : Namespace) (r : Request) (f : AckFn) (ps : List Poll) (w : World) :
    Option (Outcome × World × List Poll) := do
  let (w, ps) ← handlePendingEvents ps w
  let (w, ps) ← waitSdlToBeReady ns w.impl.operationTimeout ps w
  let w := { w with impl := { w.impl with synced := false } }
  let (w, ps) ← waitForOperationCallback ps (w.request f r)
  return (verifyBackendResponse w.impl f.result, w, ps)

def set (ns : Namespace) (dataMap : DataMap) := operation ns (.setAsync ns dataMap) .modifyAck

def setIf (ns : Namespace) (key : Key) (oldData newData : Data) :=
  operation ns (.setIfAsync ns key oldData newData) .modifyIfAck

def setIfNotExists (ns : Namespace) (key : Key) (data : Data) :=
  operation ns (.setIfNotExistsAsync ns key data) .modifyIfAck

def get (ns : Namespace) (keys : Keys) := operation ns (.getAsync ns keys) .getAck

def remove (ns : Namespace) (keys : Keys) := operation ns (.removeAsync ns keys) .modifyAck

def removeIf (ns : Namespace) (key : Key) (data : Data) :=
  operation ns (.removeIfAsync ns key data) .modifyIfAck

def findKeys (ns : Namespace) (keyStart : Bytes) :=
  operation ns (.findKeysAsync ns keyStart) .findKeysAck

def listKeys (ns : Namespace) (pattern : Bytes) := operation ns (.listKeys ns pattern) .findKeysAck

def removeAll (ns : Namespace) := operation ns (.removeAllAsync ns) .modifyAck

def setOperationTimeout (timeout : Int) (w : World) : World :=
  { w with impl := { w.impl with operationTimeout := timeout } }

/-! ## Calls and runs -/

/-- The data operations. -/
inductive DataOp where
  | set (ns : Namespace) (dataMap : DataMap)
  | setIf (ns : Namespace) (key : Key) (oldData newData : Data)
  | setIfNotExists (ns : Namespace) (key : Key) (data : Data)
  | get (ns : Namespace) (keys : Keys)
  | remove (ns : Namespace) (keys : Keys)
  | removeIf (ns : Namespace) (key : Key) (data : Data)
  | findKeys (ns : Namespace) (keyStart : Bytes)
  | listKeys (ns : Namespace) (pattern : Bytes)
  | removeAll (ns : Namespace)

namespace DataOp

def exec : DataOp → List Poll → World → Option (Outcome × World × List Poll)
  | .set ns dataMap => Sync.set ns dataMap
  | .setIf ns key oldData newData => Sync.setIf ns key oldData newData
  | .setIfNotExists ns key data => Sync.setIfNotExists ns key data
  | .get ns keys => Sync.get ns keys
  | .remove ns keys => Sync.remove ns keys
  | .removeIf ns key data => Sync.removeIf ns key data
  | .findKeys ns keyStart => Sync.findKeys ns keyStart
  | .listKeys ns pattern => Sync.listKeys ns pattern
  | .removeAll ns => Sync.removeAll ns

/-- The asynchronous request of the operation. -/
def request : DataOp → Request
  | .set ns dataMap => .setAsync ns dataMap
  | .setIf ns key oldData newData => .setIfAsync ns key oldData newData
  | .setIfNotExists ns key data => .setIfNotExistsAsync ns key data
  | .get ns keys => .getAsync ns keys
  | .remove ns keys => .removeAsync ns keys
  | .removeIf ns key data => .removeIfAsync ns key data
  | .findKeys ns keyStart => .findKeysAsync ns keyStart
  | .listKeys ns pattern => .listKeys ns pattern
  | .removeAll ns => .removeAllAsync ns

def namespaceOf : DataOp → Namespace
  | .set ns _ | .setIf ns _ _ _ | .setIfNotExists ns _ _ | .get ns _ | .remove ns _
  | .removeIf ns _ _ | .findKeys ns _ | .listKeys ns _ | .removeAll ns => ns

/-- The ack that the operation binds to its request. -/
def ackFn : DataOp → AckFn
  | .set _ _ | .remove _ _ | .removeAll _ => .modifyAck
  | .setIf _ _ _ _ | .setIfNotExists _ _ _ | .removeIf _ _ _ => .modifyIfAck
  | .get _ _ => .getAck
  | .findKeys _ _ | .listKeys _ _ => .findKeysAck

theorem exec_eq (op : DataOp) (ps : List Poll) (w : World) :
    op.exec ps w = operation op.namespaceOf op.request op.ackFn ps w := by
  cases op <;> rfl

theorem ackFn_ne (op : DataOp) : op.ackFn ≠ .waitReadyAck := by
  cases op <;> simp [ackFn]

end DataOp

/-- A call of the API. -/
inductive Call where
  | waitReady (ns : Namespace) (timeout : Int)
  | setOperationTimeout (timeout : Int)
  | data (op : DataOp)

/-- The storage after a call that returned or threw. -/
def Call.step : Call → List Poll → World → Option World
  | .waitReady ns timeout, ps, w => (Sync.waitReady ns timeout ps w).map (·.2.1)
  | .setOperationTimeout timeout, _, w => some (Sync.setOperationTimeout timeout w)
  | .data op, ps, w => (op.exec ps w).map (·.2.1)

/-- A client that makes one call after the other; the polls of a call are part of its event. -/
def sys : Sys World (Call × List Poll) where
  init := .new
  step w e := e.1.step e.2 w

end Sync
end Sdl
