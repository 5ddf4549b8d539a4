import SharedDataLayer.Error
import SharedDataLayer.Redis.Server

/-!
# What the two hiredis dispatchers share

`AsyncHiredisCommandDispatcher` and `AsyncHiredisClusterCommandDispatcher` have the same functions
for the connect ack and for the commands; they differ in how they connect. `Core` has the members
that these functions use: the service state, the slot of the connect ack, and the list `cbs` of the
callbacks of commands. A callback is named by the address of its list item, here by a number that is
never used again.

`pending` belongs to hiredis: the commands that it has accepted and not completed, in the order of
their replies. While it frees a context (`freeing`) it accepts none.

The callbacks themselves are called by the system that the dispatcher is part of, since they call
back into its client: a function is cut in two where it calls one.

* `getRedisError_isError`: which replies are errors.
* `Core.Ok`: `cbs` holds the pending commands, and the one whose callback is being called.
-/

namespace Sdl
namespace Hiredis

open Redis

/-! ## Errors and replies (`src/redis/redisgeneral.cpp`) -/

/-- The error of a hiredis context. -/
inductive ContextError where
  | io (connectionReset : Bool)
  | eof
  | protocol
  | outOfMemory
  | clusterNotConnected
  | clusterConnectionLost
  | other

def mapRedisContextErrorToSdlError : ContextError → DispatcherErrorCode
  | .io connectionReset => if connectionReset then .connectionLost else .inputOutputError
  | .eof => .connectionLost
  | .protocol => .protocolError
  | .outOfMemory => .outOfMemory
  | .clusterNotConnected => .notConnected
  | .clusterConnectionLost => .connectionLost
  | .other => .unknownError

/-- `redisReply`: an error with its text, or another reply. -/
inductive RedisReply where
  | error (text : Bytes)
  | reply (r : Reply)

def startsWith (s1 s2 : Bytes) : Bool := s1.isPrefixOf s2

def mapRedisReplyErrorToSdlError (text : Bytes) : DispatcherErrorCode :=
  if text = str "LOADING Redis is loading the dataset in memory" then .datasetLoading
  else if startsWith (str "CLUSTERDOWN") text then .notConnected
  else if startsWith (str "ERR Protocol error") text then .protocolError
  else if startsWith (str "READONLY") text then .writingToSlave
  else .unknownError

/-- `getRedisError`. `none` is a null reply. -/
def getRedisError (redisContextErr : ContextError) : Option RedisReply → ErrorCode
  | some (.reply _) => .none
  | some (.error text) => .dispatcher (mapRedisReplyErrorToSdlError text)
  | none => .dispatcher (mapRedisContextErrorToSdlError redisContextErr)

/-- `AsyncRedisReply(*rr)`, and `AsyncRedisReply()` where there is an error. -/
def asyncRedisReply : Option RedisReply → Reply
  | some (.reply r) => r
  | _ => .nil

theorem getRedisError_isError (c : ContextError) (rr : Option RedisReply) :
    (getRedisError c rr).isError = true ↔ ∀ r, rr ≠ some (.reply r) := by
  cases rr with
  | none =>
    have h : mapRedisContextErrorToSdlError c ≠ .success := by
      cases c with
      | io b => cases b <;> decide
      | _ => decide
    simp [getRedisError, ErrorCode.isError, h]
  | some rr =>
    cases rr with
    | reply r => simp [getRedisError, ErrorCode.isError]
    | error text =>
      have h : mapRedisReplyErrorToSdlError text ≠ .success := by
        unfold mapRedisReplyErrorToSdlError
        repeat' split
        all_goals decide
      simp [getRedisError, ErrorCode.isError, h]

/-- The error of a reply is none only for a reply of Redis. -/
theorem isError_rr {c : ContextError} {rr : Option RedisReply}
    (h : (getRedisError c rr).isError = false) :
    ∃ r, rr = some (.reply r) := by
  by_contra hn
  have := (getRedisError_isError c rr).mpr fun r hr => hn ⟨r, hr⟩
  rw [h] at this
  cases this

theorem isError_nullReply (c : ContextError) : (getRedisError c none).isError = true :=
  (getRedisError_isError c none).mpr fun r hr => by cases hr

theorem isError_errorReply (c : ContextError) (text : Bytes) :
    (getRedisError c (some (.error text))).isError = true :=
  (getRedisError_isError c _).mpr fun r hr => by cases hr

def getRequiredRedisModuleCommands : List Bytes :=
  [str "msetpub", str "setie", str "setiepub", str "setnxpub", str "delpub",
    str "delie", str "deliepub"]

/-- The names of the commands in the reply of `COMMAND`. -/
def parseCommandListReply (reply : Reply) : List Bytes :=
  reply.getArray.map fun j => (j.getArray.headD .nil).getString

def checkRedisModuleCommands (availableCommands : List Bytes) : Bool :=
  getRequiredRedisModuleCommands.all availableCommands.contains

/-! ## The members -/

/-- `ServiceState`. The cluster dispatcher has no `connectionVerification`. -/
inductive ServiceState where
  | disconnected | connectionVerification | connected
  deriving DecidableEq

/-- A callback of a command: that of the connection verification, or one of the client. -/
inductive Cb (κ : Type) where
  | verifyConnectionReply
  | client (k : κ)

/-- What a dispatcher posts to the engine. `self` is the dispatcher that the callback is bound
to. -/
inductive Posted (κ : Type) where
  | connectAck (ack : Nat)
  | callCommandCbWithError (self : Nat) (commandCb : Cb κ) (error : ErrorCode)

structure Core (κ : Type) where
  self : Nat
  serviceState : ServiceState
  connectAck : Option Nat
  cbs : List (Nat × Cb κ)
  nextCb : Nat
  pending : List Nat
  freeing : Bool

namespace Core

variable {κ : Type}

/-- A new dispatcher. -/
def new (self : Nat) : Core κ := ⟨self, .disconnected, none, [], 0, [], false⟩

def waitConnectedAsync (d : Core κ) (connectAck : Nat) : Core κ × List (Posted κ) :=
  ({ d with connectAck := some connectAck },
    if d.serviceState = .connected then [.connectAck connectAck] else [])

def removeCb (d : Core κ) (cb : Nat) : Core κ := { d with cbs := d.cbs.filter fun c => c.1 ≠ cb }

/-- `dispatchAsync`. `accept` says whether hiredis accepts the command, and `err` is the error of
the context if it does not. -/
def dispatchAsync (d : Core κ) (accept : Bool) (err : ContextError) (commandCb : Cb κ)
    (checkConnectionState : Bool) : Core κ × List (Posted κ) :=
  if checkConnectionState && d.serviceState ≠ .connected then
    (d, [.callCommandCbWithError d.self commandCb (.dispatcher .notConnected)])
  else
    let pushed := { d with cbs := d.cbs ++ [(d.nextCb, commandCb)], nextCb := d.nextCb + 1 }
    if accept && !d.freeing then ({ pushed with pending := d.pending ++ [d.nextCb] }, [])
    else (pushed.removeCb d.nextCb,
      [.callCommandCbWithError d.self commandCb (getRedisError err none)])

/-- hiredis completes a command: it is not pending any more when its callback is called. -/
def completed (d : Core κ) (cb : Nat) : Core κ := { d with pending := d.pending.filter (· ≠ cb) }

/-- `isValidCb`, with the callback that the address has. -/
def findCb (d : Core κ) (cb : Nat) : Option (Cb κ) := d.cbs.lookup cb

/-! ## The callbacks and the pending commands -/

/-- `cbs` holds the pending commands, in their order, and the command `held` whose callback is being
called. -/
structure Ok (held : Option Nat) (d : Core κ) : Prop where
  nodup : (d.cbs.map Prod.fst).Nodup
  lt : ∀ i ∈ d.cbs.map Prod.fst, i < d.nextCb
  pending : (d.cbs.map Prod.fst).filter (fun i => some i ≠ held) = d.pending
  held : ∀ i, held = some i → i ∈ d.cbs.map Prod.fst

theorem ok_new (self : Nat) : Ok none (new self : Core κ) :=
  ⟨by simp [new], by simp [new], by simp [new], by simp⟩

theorem Ok.eq_pending {d : Core κ} (h : Ok none d) : d.cbs.map Prod.fst = d.pending := by
  rw [← h.pending, List.filter_eq_self.mpr]
  simp

/-- What `dispatchAsync` does to the list: nothing, or the command is appended to both lists. -/
theorem dispatchAsync_cases (d : Core κ) (accept : Bool) (err : ContextError)
    (cb : Cb κ) (check : Bool) (hlt : ∀ i ∈ d.cbs.map Prod.fst, i < d.nextCb) :
    (∃ e n, e.isError = true ∧ d.dispatchAsync accept err cb check =
      ({ d with nextCb := d.nextCb + n }, [.callCommandCbWithError d.self cb e])) ∨
    (d.freeing = false ∧ (check = true → d.serviceState = .connected) ∧
      d.dispatchAsync accept err cb check =
      ({ d with cbs := d.cbs ++ [(d.nextCb, cb)], nextCb := d.nextCb + 1,
                pending := d.pending ++ [d.nextCb] }, [])) := by
  unfold dispatchAsync
  by_cases hc : (check && decide (d.serviceState ≠ .connected)) = true
  · rw [if_pos hc]
    exact .inl ⟨_, 0, rfl, rfl⟩
  rw [if_neg hc]
  by_cases ha : (accept && !d.freeing) = true
  · refine .inr ⟨?_, ?_, ?_⟩
    · simp only [Bool.and_eq_true, Bool.not_eq_true'] at ha
      exact ha.2
    · intro h
      simpa [h] using hc
    · simp only [ha, if_true]
  · refine .inl ⟨getRedisError err none, 1, ?_, ?_⟩
    · exact isError_nullReply err
    · simp only [ha, Bool.false_eq_true, if_false, removeCb, Prod.mk.injEq, and_true]
      -- The item that was pushed is the only one with its address.
      have : (d.cbs ++ [(d.nextCb, cb)]).filter (fun c => c.1 ≠ d.nextCb) = d.cbs := by
        rw [List.filter_append, List.filter_eq_self.mpr]
        · simp
        · intro c hc
          have := hlt c.1 (List.mem_map_of_mem hc)
          simp only [ne_eq, decide_not, Bool.not_eq_eq_eq_not, Bool.not_true,
            decide_eq_false_iff_not]
          omega
      rw [this]

/-- `dispatchAsync` touches neither the slot of the connect ack nor the service state. -/
theorem dispatchAsync_slot (d : Core κ) (accept : Bool) (err : ContextError)
    (cb : Cb κ) (check : Bool) :
    (d.dispatchAsync accept err cb check).1.connectAck = d.connectAck ∧
      (d.dispatchAsync accept err cb check).1.serviceState = d.serviceState ∧
      ∀ p ∈ (d.dispatchAsync accept err cb check).2,
        ∃ self cb e, p = .callCommandCbWithError self cb e ∧ e.isError = true := by
  have he := isError_nullReply err
  unfold dispatchAsync
  split
  · exact ⟨rfl, rfl, by simp [ErrorCode.isError]⟩
  · simp only
    split
    · exact ⟨rfl, rfl, by simp⟩
    · exact ⟨rfl, rfl, by simp [he]⟩

theorem Ok.dispatchAsync {held : Option Nat} {d : Core κ} (h : Ok held d) (accept : Bool)
    (err : ContextError) (cb : Cb κ) (check : Bool) :
    Ok held (d.dispatchAsync accept err cb check).1 := by
  rcases d.dispatchAsync_cases accept err cb check h.lt with ⟨e, n, -, he⟩ | ⟨-, -, he⟩ <;> rw [he]
  · exact ⟨h.nodup, fun i hi => Nat.lt_of_lt_of_le (h.lt i hi) (Nat.le_add_right _ _),
      h.pending, h.held⟩
  · have hnew : d.nextCb ∉ d.cbs.map Prod.fst := fun hm => Nat.lt_irrefl _ (h.lt _ hm)
    have hne : some d.nextCb ≠ held := fun e => hnew (h.held _ e.symm)
    refine ⟨?_, ?_, ?_, ?_⟩
    · simp only [List.map_append, List.map_cons, List.map_nil]
      rw [List.nodup_append]
      refine ⟨h.nodup, by simp, ?_⟩
      intro a ha b hb
      rw [List.mem_singleton] at hb
      intro e
      exact hnew (hb ▸ e ▸ ha)
    · intro i hi
      simp only [List.map_append, List.map_cons, List.map_nil, List.mem_append,
        List.mem_singleton] at hi
      rcases hi with hi | rfl
      · exact Nat.lt_succ_of_lt (h.lt i hi)
      · exact Nat.lt_succ_self _
    · simp only [List.map_append, List.map_cons, List.map_nil, List.filter_append, h.pending]
      rw [List.filter_cons_of_pos (by simpa using hne), List.filter_nil]
    · intro i hi
      rw [List.map_append]
      exact List.mem_append_left _ (h.held i hi)

/-- The callback of the completed command is the one that is being called. -/
theorem Ok.completed {d : Core κ} (h : Ok none d) {i : Nat} (hi : i ∈ d.pending) :
    Ok (some i) (d.completed i) ∧ ∃ cb, d.findCb i = some cb := by
  have hmem : i ∈ d.cbs.map Prod.fst := by rw [h.eq_pending]; exact hi
  refine ⟨⟨h.nodup, h.lt, ?_, fun j hj => by cases hj; exact hmem⟩, ?_⟩
  · show _ = d.pending.filter _
    rw [← h.eq_pending]
    apply List.filter_congr
    intro j _
    simp [eq_comm]
  · cases hl : d.findCb i with
    | some cb => exact ⟨cb, rfl⟩
    | none =>
      obtain ⟨c, hc, rfl⟩ := List.mem_map.mp hmem
      rw [findCb, List.lookup_eq_none_iff] at hl
      simpa using hl c hc

theorem Ok.removeCb {d : Core κ} {i : Nat} (h : Ok (some i) d) : Ok none (d.removeCb i) := by
  have hmap : (d.cbs.filter fun c => c.1 ≠ i).map Prod.fst =
    (d.cbs.map Prod.fst).filter (· ≠ i) := by
    rw [List.filter_map]
    rfl
  refine ⟨?_, ?_, ?_, by simp⟩
  · show ((d.cbs.filter fun c => c.1 ≠ i).map Prod.fst).Nodup
    rw [hmap]
    exact h.nodup.filter _
  · intro j hj
    have hj' : j ∈ (d.cbs.filter fun c => c.1 ≠ i).map Prod.fst := hj
    rw [hmap] at hj'
    exact h.lt j (List.mem_filter.mp hj').1
  · show ((d.cbs.filter fun c => c.1 ≠ i).map Prod.fst).filter _ = d.pending
    rw [hmap, List.filter_filter, ← h.pending]
    apply List.filter_congr
    intro j _
    simp

end Core

end Hiredis
end Sdl
