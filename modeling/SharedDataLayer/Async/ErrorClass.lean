import SharedDataLayer.Hiredis.Core
import SharedDataLayer.Redis.Search
import SharedDataLayer.Spec.Sys
import SharedDataLayer.Spec.Tokens

/-!
# What the error of an ack says

The storage over its dispatchers, with the server behind them. The error of an ack comes from the
storage, from a dispatcher that does not give the command to hiredis, from the error of a context,
or from the text of an error reply; each is mapped to a dispatcher code, to an internal error, and
to the `shareddatalayer::Error` that the client sees. The client takes it as a statement about the
database.

The dispatchers are those of `Hiredis/Core.lean`, so both kinds are covered: their service state
changes at any time, and hiredis accepts or refuses a command and completes it with any reply or
with none. A command that hiredis has accepted is `Sent`; the server executes it at any time from
then on, also after its callback was called, unless it was answered with an error that says that it
will not be executed (`refuses`). What is assumed of Redis and hiredis-vip is the guard `Assumed`:
such a command was not executed before either.

An ack that issues further operations is followed by their events. The source removes the callback
of a command after it was called; here it is removed before, since the call only appends to the
list.

* `Own`, `own_unique`: the codes of the library, and the one error that each is equivalent to.
* `refuses_of_unsent`: which completed commands give the client an error that says that nothing was
  altered.
* `Inv`: one token for each operation, and what the place of the token says of the commands of its
  operation.
* `errorClass_sound`: what the error of an ack says.
-/

namespace Sdl
namespace ErrorClass

open Spec Redis Hiredis

/-! ## The system -/

/-- What the server does with a command that it was sent. -/
inductive Fate where
  | unknown | executed | refused
  deriving DecidableEq

/-- A command that hiredis has accepted. -/
structure Sent where
  op : Nat
  contents : Contents
  fate : Fate

/-- The callback of a command of the operation `op`, with the number that the command has if it is
sent. -/
structure ClientCb where
  op : Nat
  commandCb : CommandCb
  sent : Nat

/-- What is posted to the engine: an ack by the storage, with the reply that has led to it, if one
has, or a callback by a dispatcher. -/
inductive Task where
  | ack (op : Nat) (a : Ack) (reply : Option Reply)
  | dispatcher (p : Posted ClientCb)

/-- A command of the operation `op` that the server has executed. -/
structure Executed where
  op : Nat
  before : Db
  after : Db

/-- The operations are numbered in the order in which they are issued. The first dispatcher is the
one that is installed. -/
structure World where
  ops : List Op
  dispatchers : List (Core ClientCb)
  posted : List Task
  sent : List Sent
  server : Server
  executed : List Executed
  acks : List (Nat × Ack × Option Reply)

/-- What the environment decides during a step: whether hiredis accepts a command, and the error of
the context. -/
structure Env where
  accept : Bool
  err : ContextError

section Functions

variable (cfg : Config) (env : Env)

/-- What a request of the operation `op` does. -/
def request (w : World) (op : Nat) (reply : Option Reply) : Request → World
  | .postCallback a => { w with posted := w.posted ++ [.ack op a reply] }
  | .dispatchAsync cb _ contents =>
    match w.dispatchers with
    | [] => w
    | d :: ds =>
      let r := d.dispatchAsync env.accept env.err (.client ⟨op, cb, w.sent.length⟩) true
      { w with
        dispatchers := r.1 :: ds
        posted := w.posted ++ r.2.map .dispatcher
        sent := if r.2.isEmpty then w.sent ++ [⟨op, contents, .unknown⟩] else w.sent }

/-- The client issues an operation. -/
def issue (w : World) (op : Op) : World :=
  request env { w with ops := w.ops ++ [op] } w.ops.length none
    (op.request cfg (!w.dispatchers.isEmpty))

/-- The callback of a command is called. `received` is the reply, if it is not an error. -/
def call (w : World) (k : ClientCb) (error : ErrorCode) (reply : Reply)
    (received : Option Reply) : World :=
  match k.commandCb.call error reply with
  | .ack a => { w with acks := w.acks ++ [(k.op, a, received)] }
  | .removeAsync ns keys => request env w k.op received
    (removeAsync cfg (!w.dispatchers.isEmpty) ns keys)

/-- The engine calls a posted callback. -/
def runTask (w : World) : Task → World
  | .ack op a reply => { w with acks := w.acks ++ [(op, a, reply)] }
  | .dispatcher (.callCommandCbWithError _ (.client k) e) => call cfg env w k e .nil none
  | .dispatcher _ => w

end Functions

/-- The reply, if it is not an error. -/
def received : Option RedisReply → Option Reply
  | some (.reply r) => some r
  | _ => none

/-- The command is not executed: the server loads its data or the cluster is down, or hiredis-vip is
not connected to the node. -/
def refuses (err : ContextError) : Option RedisReply → Bool
  | some (.reply _) => false
  | some (.error text) => startsWith (str "LOADING") text || startsWith (str "CLUSTERDOWN") text
  | none =>
    match err with
    | .clusterNotConnected => true
    | _ => false

/-- The server will not execute the command `i`. -/
def refuse (sent : List Sent) (i : Nat) : List Sent :=
  sent.modify i fun s => { s with fate := .refused }

/-- hiredis completes the command `cb` of the dispatcher `j`, with its callback `k`. -/
def complete (cfg : Config) (env : Env) (w : World) (j : Nat) (d : Core ClientCb)
    (cb : Nat) (k : ClientCb) (rr : Option RedisReply) : World :=
  call cfg env
    { w with
      dispatchers := w.dispatchers.set j ((d.completed cb).removeCb cb)
      sent := if refuses env.err rr then refuse w.sent k.sent else w.sent }
    k (getRedisError env.err rr) (asyncRedisReply rr) (received rr)

/-- The server executes the command `i`. A command that it does not know is answered with an
error. -/
def execute (r : Choices) (w : World) (i : Nat) (s : Sent) : World :=
  match exec r w.server s.contents.argv with
  | some (_, server) => { w with
      server := server
      sent := w.sent.set i { s with fate := .executed }
      executed := w.executed ++ [⟨s.op, w.server.db, server.db⟩] }
  | none => { w with sent := w.sent.set i { s with fate := .executed } }

inductive Event where
  /-- The client issues an operation. -/
  | issue (op : Op)
  /-- Discovery reports a database, and a new dispatcher is installed. -/
  | install
  /-- The connection of the dispatcher `j` changes. -/
  | dispatcher (j : Nat) (serviceState : ServiceState) (freeing : Bool)
  /-- hiredis completes the command `cb` of the dispatcher `j`. `none` is a null reply. -/
  | reply (j cb : Nat) (rr : Option RedisReply)
  /-- The engine calls the posted callback `i`. -/
  | posted (i : Nat)
  /-- The server executes the command `i`. -/
  | execute (i : Nat) (r : Choices)

/-- The client callback of a pending command. -/
def pendingCb (d : Core ClientCb) (cb : Nat) : Option ClientCb :=
  if cb ∈ d.pending then
    match d.findCb cb with
    | some (.client k) => some k
    | _ => none
  else none

def step (cfg : Config) (w : World) (e : Env × Event) : Option World :=
  match e.2 with
  | .issue op => some (issue cfg e.1 w op)
  | .install => some { w with dispatchers := Core.new w.dispatchers.length :: w.dispatchers }
  | .dispatcher j serviceState freeing => (w.dispatchers[j]?).map fun d =>
    { w with dispatchers := w.dispatchers.set j { d with serviceState := serviceState,
                                                         freeing := freeing } }
  | .reply j cb rr => (w.dispatchers[j]?).bind fun d =>
    (pendingCb d cb).map fun k => complete cfg e.1 w j d cb k rr
  | .posted i => (w.posted[i]?).map fun t => runTask cfg e.1
    { w with posted := w.posted.eraseIdx i } t
  | .execute i r => (w.sent[i]?).bind fun s => if s.fate = .unknown then
    some (execute r w i s) else none

/-- The storage before discovery, and a server with any data. -/
def sys (cfg : Config) (server : Server) : Sys World (Env × Event) where
  init := ⟨[], [], [], [], server, [], []⟩
  step := step cfg

/-- Redis and hiredis-vip: a command that is answered with `LOADING` or `CLUSTERDOWN`, or completed
with `CLUSTER_ERROR_NOT_CONNECTED`, was not executed. -/
def Assumed (w : World) (e : Env × Event) : Prop :=
  match e.2 with
  | .reply j cb rr => refuses e.1.err rr = true → ∀ d ∈ w.dispatchers[j]?, ∀ k ∈ pendingCb d cb,
      ∀ s ∈ w.sent[k.sent]?, s.fate ≠ .executed
  | _ => True

instance (w : World) : (e : Env × Event) → Decidable (Assumed w e)
  | (env, .reply j cb rr) => inferInstanceAs (Decidable (refuses env.err rr = true →
    ∀ d ∈ w.dispatchers[j]?,
      ∀ k ∈ pendingCb d cb, ∀ s ∈ w.sent[k.sent]?, s.fate ≠ .executed))
  | (_, .issue _) | (_, .install) | (_, .dispatcher _ _ _) | (_, .posted _) | (_, .execute _ _) =>
    inferInstanceAs (Decidable True)

/-! ## Error codes -/

/-- The codes of the library, and the default constructed one. -/
def Own : ErrorCode → Prop
  | .foreign _ _ _ => False
  | _ => True

/-- The error of the client for an internal error. -/
def clientError : InternalError → Error
  | .success => .success
  | .sdlNotReady | .sdlNotConnectedToBackend | .backendNotReady => .notConnected
  | .backendConnectionLost => .operationInterrupted
  | .sdlErrorCodeLogicError | .backendError => .backendFailure
  | .backendRejectedRequest => .rejectedByBackend
  | .sdlReceivedInvalidParameter => .rejectedBySdl

theorem equivalent_iff {e : ErrorCode} {i : InternalError}
    (h : e.internalError = some i) (x : Error) :
    e.equivalent x = true ↔ x = clientError i := by
  have hne : e ≠ .none := by
    rintro rfl
    cases h
  cases i <;> cases x <;> simp [ErrorCode.equivalent, h, hne, clientError]

/-- A code of the library is equivalent to one error. -/
theorem own_unique {e : ErrorCode} (h : Own e) : ∃! x : Error, e.equivalent x = true := by
  cases hi : e.internalError with
  | some i => exact ⟨clientError i, (equivalent_iff hi _).mpr rfl,
    fun x hx => (equivalent_iff hi x).mp hx⟩
  | none =>
    cases e with
    | none =>
      refine ⟨.success, rfl, fun x hx => ?_⟩
      cases x <;> first | rfl | cases hx
    | dispatcher c => cases hi
    | storage c => cases hi
    | foreign cat v m => exact absurd h id

/-- A code of the library is an error exactly if it is not equivalent to success, and then it has an
exception. -/
theorem own_isError {e : ErrorCode} (h : Own e) :
    (e.isError = true ↔ e.equivalent .success = false) ∧
      (e.isError = true → (throwExceptionForErrorCode e).type ≠ .rangeError) := by
  cases e with
  | none => decide
  | dispatcher c => cases c <;> decide
  | storage c => cases c <;> decide
  | foreign cat v m => exact absurd h id

/-- The error says that the database was not altered. -/
def Unsent (e : ErrorCode) : Prop := e.equivalent .notConnected = true ∨
    e.equivalent .rejectedBySdl = true

theorem own_getRedisError (err : ContextError) (rr : Option RedisReply) :
    Own (getRedisError err rr) := by
  cases rr with
  | none => trivial
  | some rr => cases rr <;> trivial

/-- Of the errors of a completed command only those that say that it was not executed are mapped to
`Unsent`. -/
theorem refuses_of_unsent {err : ContextError} {rr : Option RedisReply}
    (h : Unsent (getRedisError err rr)) :
    refuses err rr = true := by
  cases rr with
  | none =>
    cases err with
    | clusterNotConnected => rfl
    | io connectionReset => revert h; unfold Unsent; cases connectionReset <;> decide
    | _ => revert h; unfold Unsent; decide
  | some rr =>
    cases rr with
    | reply r => revert h; unfold Unsent; simp [getRedisError, ErrorCode.equivalent,
      ErrorCode.internalError]
    | error text =>
      simp only [refuses, Bool.or_eq_true]
      simp only [getRedisError, mapRedisReplyErrorToSdlError] at h
      split at h
      · subst text
        exact .inl (by decide)
      · split at h
        · exact .inr ‹_›
        · -- The other texts are mapped to codes that are not `Unsent`.
          exfalso
          revert h
          unfold Unsent
          repeat' split
          all_goals decide

/-- The error that a callback passes to the ack is the one that it gets. -/
theorem error_of_call {cb : CommandCb} {e : ErrorCode} {reply : Reply} {a : Ack}
    (h : cb.call e reply = .ack a) :
    a.error = e ∨ e.isError = false ∧ a.error = .none := by
  cases he : e.isError with
  | true =>
    left
    cases cb <;> simp only [CommandCb.call, he, if_true, CbResult.ack.injEq] at h <;> subst h
    case conditionalCommandCallback => simp [conditionalCommandCallback, he, Ack.error]
    all_goals rfl
  | false =>
    cases cb <;> simp only [CommandCb.call, he, Bool.false_eq_true, if_false,
      CbResult.ack.injEq] at h
    case modificationCommandCallback => subst h; exact .inl rfl
    case conditionalCommandCallback =>
      subst h
      left
      unfold conditionalCommandCallback
      split <;> rfl
    case removeAllCb ns =>
      split at h <;> cases h
      exact .inr ⟨rfl, rfl⟩
    all_goals subst h; exact .inr ⟨rfl, rfl⟩

/-! ## Commands and requests -/

/-- The command does not alter the database. -/
def Harmless (c : Contents) : Prop :=
  ∀ r s reply s', exec r s c.argv = some (reply, s') → s'.db = s.db

theorem harmless_keys (pattern : Bytes) :
    Harmless (ContentsBuilder.buildStrings (str "KEYS") pattern) := by
  intro r s reply s' h
  rw [exec_keys] at h
  cases h
  rfl

/-- A request of the operation `op`. An ack with success follows a reply or has no keys, and the
command that `removeAllAsync` searches with alters nothing. -/
def Fits (ops : List Op) (op : Nat) (reply : Option Reply) : Request → Prop
  | .postCallback a => Own a.error ∧ (a.error.isError = false →
      reply.isSome = true ∨ ∃ o, ops[op]? = some o ∧ o.noKeysGiven = true)
  | .dispatchAsync cb _ contents => ∀ ns, cb = .removeAllCb ns → Harmless contents

/-- The form of every operation. -/
theorem fits_operation {ops : List Op} {op : Nat} {reply : Option Reply}
    {dispatcher : Bool} {ns : Namespace}
    {n : Option Bool} {ack : ErrorCode → Ack} {cb : CommandCb} {c : Contents}
    (hack : ∀ e, (ack e).error = e)
    (hn : n = some true → reply.isSome = true ∨ ∃ o, ops[op]? = some o ∧ o.noKeysGiven = true)
    (hc : ∀ ns, cb = .removeAllCb ns → Harmless c) :
    Fits ops op reply (operation dispatcher ns n ack cb c) := by
  rcases operation_cases dispatcher ns n ack cb c with ⟨e, he, hcase⟩ | he <;> rw [he]
  · simp only [Fits, hack]
    obtain ⟨rfl, hempty⟩ | ⟨c, rfl, hne⟩ := hcase
    · exact ⟨trivial, fun _ => hn hempty⟩
    · refine ⟨trivial, fun hs => ?_⟩
      simp [ErrorCode.isError, hne] at hs
  · exact hc

theorem fits_request (cfg : Config) (dispatcher : Bool) {ops : List Op} {i : Nat} {op : Op}
    (h : ops[i]? = some op) :
    Fits ops i none (op.request cfg dispatcher) := by
  obtain ⟨n, cb, c, he, hn, hc⟩ := op.request_eq cfg dispatcher
  rw [he]
  refine fits_operation op.error_refuse (fun hempty => .inr ⟨op, h, hn.mpr hempty⟩) fun ns hcb => ?_
  obtain ⟨pattern, rfl⟩ := hc ns hcb
  exact harmless_keys pattern

/-- The second step of `removeAllAsync` follows the reply to its search. -/
theorem fits_removeAsync (cfg : Config) (dispatcher : Bool) (ops : List Op) (op : Nat)
    {reply : Option Reply} (h : reply.isSome = true) (ns : Namespace) (keys : Keys) :
    Fits ops op reply (Redis.removeAsync cfg dispatcher ns keys) := by
  unfold Redis.removeAsync
  exact fits_operation (fun _ => rfl) (fun _ => .inl h) fun _ he => by cases he

/-! ## The commands of an operation -/

/-- The commands of the operation `op`, without the one that it waits for, have not altered the
database and will not. -/
def Quiet (sent : List Sent) (op : Nat) (waiting : Option Nat) : Prop :=
  ∀ (i : Nat) s, sent[i]? = some s → s.op = op → some i ≠ waiting → s.fate = .refused ∨
    Harmless s.contents

/-- The command of the callback `k` was sent. It is the only one of its operation that can alter the
database. -/
structure Waiting (sent : List Sent) (k : ClientCb) : Prop where
  command : ∃ s, sent[k.sent]? = some s ∧ s.op = k.op ∧ ∀ ns, k.commandCb = .removeAllCb ns →
    Harmless s.contents
  others : Quiet sent k.op (some k.sent)

/-- What is known of the commands of the operation `op` stays true. -/
structure Keeps (sent sent' : List Sent) (op : Nat) : Prop where
  stays : ∀ (i : Nat) s, sent[i]? = some s → s.op = op →
    ∃ s', sent'[i]? = some s' ∧ s'.op = op ∧ s'.contents = s.contents
  came : ∀ (i : Nat) s', sent'[i]? = some s' → s'.op = op →
    ∃ s, sent[i]? = some s ∧ s.op = op ∧ s'.contents = s.contents ∧
    (s.fate = .refused → s'.fate = .refused)

section Sent

variable {sent sent' : List Sent} {op : Nat}

theorem Keeps.refl : Keeps sent sent op :=
  ⟨fun _ s h ho => ⟨s, h, ho, rfl⟩, fun _ s h ho => ⟨s, h, ho, rfl, id⟩⟩

theorem Keeps.quiet {waiting : Option Nat} (hk : Keeps sent sent' op) (h : Quiet sent op waiting) :
    Quiet sent' op waiting := by
  intro i s' hs' ho hne
  obtain ⟨s, hs, ho, hc, hf⟩ := hk.came i s' hs' ho
  rw [hc]
  exact (h i s hs ho hne).imp_left hf

theorem Keeps.waiting {k : ClientCb} (hk : Keeps sent sent' k.op) (h : Waiting sent k) :
    Waiting sent' k := by
  obtain ⟨s, hs, ho, hh⟩ := h.command
  obtain ⟨s', hs', ho', hc⟩ := hk.stays _ s hs ho
  refine ⟨⟨s', hs', ho', fun ns hns => ?_⟩, hk.quiet h.others⟩
  rw [hc]
  exact hh ns hns

/-- One more command is sent, of another operation. -/
theorem Keeps.append {s : Sent} (h : s.op ≠ op) : Keeps sent (sent ++ [s]) op := by
  constructor
  · intro i t ht ho
    exact ⟨t, (List.getElem?_append_left (List.getElem?_eq_some_iff.mp ht).1).trans ht, ho, rfl⟩
  · intro i t ht ho
    by_cases hi : i < sent.length
    · rw [List.getElem?_append_left hi] at ht
      exact ⟨t, ht, ho, rfl, id⟩
    · rw [List.getElem?_append_right (by omega)] at ht
      have : t = s := by
        have := List.mem_of_getElem? ht
        simpa using this
      exact absurd (this ▸ ho) h

/-- The fate of a command that was not refused is decided. -/
theorem Keeps.set {i : Nat} {s : Sent} (hs : sent[i]? = some s) {fate : Fate}
    (hf : s.fate = .refused → fate = .refused) :
    Keeps sent (sent.set i { s with fate := fate }) op := by
  have hi := (List.getElem?_eq_some_iff.mp hs).1
  constructor
  · intro j t ht ho
    by_cases hij : i = j
    · subst hij
      rw [hs] at ht
      cases ht
      exact ⟨_, List.getElem?_set_self hi, ho, rfl⟩
    · exact ⟨t, (List.getElem?_set_ne hij).trans ht, ho, rfl⟩
  · intro j t ht ho
    by_cases hij : i = j
    · subst hij
      rw [List.getElem?_set_self hi] at ht
      cases ht
      exact ⟨s, hs, ho, rfl, hf⟩
    · rw [List.getElem?_set_ne hij] at ht
      exact ⟨t, ht, ho, rfl, id⟩

theorem refuse_eq_set {i : Nat} {s : Sent} (hs : sent[i]? = some s) :
    refuse sent i = sent.set i { s with fate := .refused } := by
  unfold refuse
  rw [List.modify_eq_set_getElem?]
  simp [hs]

/-- The command of `k` is the last one that was sent. -/
theorem Waiting.of_append {k : ClientCb} {c : Contents} {fate : Fate} (hk : k.sent = sent.length)
    (hq : Quiet sent k.op none) (hc : ∀ ns, k.commandCb = .removeAllCb ns → Harmless c) :
    Waiting (sent ++ [⟨k.op, c, fate⟩]) k := by
  have hlast : (sent ++ [(⟨k.op, c, fate⟩ : Sent)])[k.sent]? = some ⟨k.op, c, fate⟩ := by
    rw [hk]
    exact List.getElem?_concat_length
  refine ⟨⟨_, hlast, rfl, hc⟩, fun i s hs ho hne => ?_⟩
  have hi : i < sent.length := by
    have hlt := (List.getElem?_eq_some_iff.mp hs).1
    rw [List.length_append, List.length_singleton] at hlt
    have : i ≠ sent.length := fun he => hne (by rw [he, hk])
    omega
  rw [List.getElem?_append_left hi] at hs
  exact hq i s hs ho (by simp)

/-- The commands of an operation after the one that it waits for was completed: it was refused, or
it alters nothing. -/
theorem Waiting.completed {k : ClientCb} (h : Waiting sent k)
    (hd : ∀ s, sent[k.sent]? = some s → s.fate = .refused ∨ Harmless s.contents) :
    Quiet sent k.op none := by
  intro i s hs ho _
  by_cases hi : i = k.sent
  · exact hd s (hi ▸ hs)
  · exact h.others i s hs ho fun he => hi (Option.some.inj he)

end Sent

/-! ## The invariant -/

/-- The operation of a callback. -/
def opOf : Cb ClientCb → Option Nat
  | .verifyConnectionReply => none
  | .client k => some k.op

/-- The operation of a posted callback. -/
def Task.op : Task → Option Nat
  | .ack op _ _ => some op
  | .dispatcher (.callCommandCbWithError _ cb _) => opOf cb
  | .dispatcher (.connectAck _) => none

/-- The operations whose commands are in flight in a dispatcher. -/
def inflight (d : Core ClientCb) : List Nat := d.cbs.filterMap fun c => opOf c.2

/-- One token for each operation. -/
def World.tokens (w : World) : List Nat :=
  w.dispatchers.flatMap inflight ++ w.posted.filterMap Task.op ++ w.acks.map Prod.fst

/-- What an ack says, as far as the operations and the commands show it. -/
structure Told (ops : List Op) (sent : List Sent) (op : Nat) (a : Ack)
    (reply : Option Reply) : Prop where
  own : Own a.error
  unsent : Unsent a.error → Quiet sent op none
  success : a.error.isError = false → reply.isSome = true ∨ ∃ o, ops[op]? = some o ∧
    o.noKeysGiven = true

/-- What is known of a posted callback. A command whose callback is posted was not sent. -/
def Task.Told (ops : List Op) (sent : List Sent) : Task → Prop
  | .ack op a reply => ErrorClass.Told ops sent op a reply
  | .dispatcher (.callCommandCbWithError _ (.client k) e) => Own e ∧ e.isError = true ∧
    Quiet sent k.op none
  | .dispatcher _ => True

/-- What the places of the tokens say of the commands. -/
structure Facts (ops : List Op) (sent : List Sent) (w : World) : Prop where
  cbs : ∀ d ∈ w.dispatchers, ∀ c ∈ d.cbs, ∀ k, c.2 = .client k → Waiting sent k
  posted : ∀ t ∈ w.posted, t.Told ops sent
  acks : ∀ x ∈ w.acks, Told ops sent x.1 x.2.1 x.2.2

/-- The server has executed the command `x`. -/
def Traced (sent : List Sent) (x : Executed) : Prop :=
  ∃ (i : Nat) (s : Sent), sent[i]? = some s ∧ s.op = x.op ∧ s.fate = .executed ∧
    (Harmless s.contents → x.after = x.before)

/-- `held` is the operation whose token is in no place: its callback is being called. -/
structure Inv (held : List Nat) (w : World) : Prop where
  tokens : ∀ n, held.count n + w.tokens.count n = if n < w.ops.length then 1 else 0
  ok : ∀ d ∈ w.dispatchers, d.Ok none
  facts : Facts w.ops w.sent w
  sent : ∀ s ∈ w.sent, s.op < w.ops.length
  executed : ∀ x ∈ w.executed, Traced w.sent x

theorem mem_inflight {w : World} {d : Core ClientCb} (hd : d ∈ w.dispatchers)
    {c : Nat × Cb ClientCb}
    (hc : c ∈ d.cbs) {k : ClientCb} (hk : c.2 = .client k) : k.op ∈ w.tokens := by
  unfold World.tokens
  refine List.mem_append_left _ (List.mem_append_left _ (List.mem_flatMap.mpr ⟨d, hd, ?_⟩))
  exact List.mem_filterMap.mpr ⟨c, hc, by rw [hk]; rfl⟩

theorem mem_posted {w : World} {t : Task} (ht : t ∈ w.posted) {op : Nat} (ho : t.op = some op) :
    op ∈ w.tokens := by
  unfold World.tokens
  exact List.mem_append_left _ (List.mem_append_right _ (List.mem_filterMap.mpr ⟨t, ht, ho⟩))

theorem mem_acks {w : World} {x : Nat × Ack × Option Reply} (hx : x ∈ w.acks) : x.1 ∈ w.tokens := by
  unfold World.tokens
  exact List.mem_append_right _ (List.mem_map_of_mem hx)

section Facts

variable {ops ops' : List Op} {sent sent' : List Sent} {w : World}

theorem Told.keeps {op : Nat} {a : Ack} {reply : Option Reply} (h : Told ops sent op a reply)
    (hk : Keeps sent sent' op) (ho : ∀ o, ops[op]? = some o → ops'[op]? = some o) :
    Told ops' sent' op a reply :=
  ⟨h.own, fun hu => hk.quiet (h.unsent hu),
    fun hs => (h.success hs).imp_right fun ⟨o, hop, hn⟩ => ⟨o, ho o hop, hn⟩⟩

theorem Task.Told.keeps {t : Task} (h : t.Told ops sent)
    (hk : ∀ op, t.op = some op → Keeps sent sent' op ∧ ∀ o, ops[op]? = some o →
      ops'[op]? = some o) :
    t.Told ops' sent' := by
  cases t with
  | ack op a reply => exact ErrorClass.Told.keeps h (hk op rfl).1 (hk op rfl).2
  | dispatcher p =>
    cases p with
    | connectAck a => trivial
    | callCommandCbWithError self cb e =>
      cases cb with
      | verifyConnectionReply => trivial
      | client k => exact ⟨h.1, h.2.1, (hk k.op rfl).1.quiet h.2.2⟩

/-- The facts stay true if those of each operation with a token do. -/
theorem Facts.keeps (h : Facts ops sent w) (hk : ∀ op ∈ w.tokens, Keeps sent sent' op)
    (ho : ∀ op ∈ w.tokens, ∀ o, ops[op]? = some o → ops'[op]? = some o) : Facts ops' sent' w := by
  refine ⟨fun d hd c hc k hkc => ?_, fun t ht => ?_, fun x hx => ?_⟩
  · exact (hk _ (mem_inflight hd hc hkc)).waiting (h.cbs d hd c hc k hkc)
  · refine (h.posted t ht).keeps fun op hop => ?_
    have hm := mem_posted ht hop
    exact ⟨hk op hm, ho op hm⟩
  · exact (h.acks x hx).keeps (hk _ (mem_acks hx)) (ho _ (mem_acks hx))

end Facts

section Steps

variable {cfg : Config} {env : Env} {held : List Nat} {w : World}

theorem Inv.lt (h : Inv held w) {op : Nat} (hm : op ∈ w.tokens) : op < w.ops.length := by
  have ht := h.tokens op
  have hpos := List.count_pos_iff.mpr hm
  split at ht <;> omega

/-- No other token of the operation whose callback is being called. -/
theorem Inv.not_mem {n : Nat} (h : Inv [n] w) : n ∉ w.tokens := by
  intro hm
  have ht := h.tokens n
  have hpos := List.count_pos_iff.mpr hm
  rw [List.count_singleton_self] at ht
  split at ht <;> omega

theorem Inv.held_lt {n : Nat} (h : Inv [n] w) : n < w.ops.length := by
  have ht := h.tokens n
  rw [List.count_singleton_self] at ht
  split at ht <;> omega

/-- A posted callback or an ack gets the token of its operation. -/
theorem Inv.post {n : Nat} {t : Task} (h : Inv [n] w) (ho : t.op = some n)
    (ht : t.Told w.ops w.sent) :
    Inv [] { w with posted := w.posted ++ [t] } := by
  refine ⟨fun m => ?_, h.ok, ⟨h.facts.cbs, fun t' ht' => ?_, h.facts.acks⟩, h.sent, h.executed⟩
  · have hn := h.tokens m
    simp only [World.tokens, List.filterMap_append, List.count_append, List.filterMap_cons, ho,
      List.filterMap_nil,
      List.count_nil] at hn ⊢
    omega
  · rcases List.mem_append.mp ht' with ht' | ht'
    · exact h.facts.posted t' ht'
    · rw [List.mem_singleton.mp ht']
      exact ht

theorem Inv.ack {n : Nat} {a : Ack} {reply : Option Reply} (h : Inv [n] w)
    (ht : Told w.ops w.sent n a reply) :
    Inv [] { w with acks := w.acks ++ [(n, a, reply)] } := by
  refine ⟨fun m => ?_, h.ok, ⟨h.facts.cbs, h.facts.posted, fun x hx => ?_⟩, h.sent, h.executed⟩
  · have hn := h.tokens m
    simp only [World.tokens, List.map_append, List.count_append, List.map_cons, List.map_nil,
      List.count_nil] at hn ⊢
    omega
  · rcases List.mem_append.mp hx with hx | hx
    · exact h.facts.acks x hx
    · rw [List.mem_singleton.mp hx]
      exact ht

theorem own_dispatchAsync (d : Core ClientCb) (accept : Bool) (err : ContextError)
    (cb : Cb ClientCb) (check : Bool) {self : Nat} {cb' : Cb ClientCb} {e : ErrorCode}
    (h : .callCommandCbWithError self cb' e ∈ (d.dispatchAsync accept err cb check).2) : Own e := by
  unfold Core.dispatchAsync at h
  split at h
  · cases List.mem_singleton.mp h
    trivial
  · simp only at h
    split at h
    · cases h
    · cases List.mem_singleton.mp h
      exact own_getRedisError err none

/-- The command of the callback `k` is sent. Its operation is the one of the token, so nothing that
is known of the commands of another one changes. -/
theorem Inv.accepted {d : Core ClientCb} {ds : List (Core ClientCb)} {k : ClientCb} {c : Contents}
    (h : Inv [k.op] w) (hw : w.dispatchers = d :: ds) (hk : k.sent = w.sent.length)
    (hq : Quiet w.sent k.op none) (hc : ∀ ns, k.commandCb = .removeAllCb ns → Harmless c)
    {d' : Core ClientCb} (hok : d'.Ok none) (hcbs : d'.cbs = d.cbs ++ [(d.nextCb, .client k)]) :
    Inv [] { w with dispatchers := d' :: ds, sent := w.sent ++ [⟨k.op, c, .unknown⟩] } := by
  have hkeeps : Facts w.ops (w.sent ++ [⟨k.op, c, .unknown⟩]) w := by
    refine h.facts.keeps (fun op hm => Keeps.append ?_) fun _ _ _ ho => ho
    rintro rfl
    exact h.not_mem hm
  have hmem : ∀ x ∈ ds, x ∈ w.dispatchers := fun x hx => by rw [hw]; exact List.mem_cons_of_mem _ hx
  have hd : d ∈ w.dispatchers := by rw [hw]; exact List.mem_cons_self
  refine ⟨fun m => ?_, fun x hx => ?_,
    ⟨fun x hx b hb k' hk' => ?_, hkeeps.posted, hkeeps.acks⟩, fun s hs => ?_, fun x hx => ?_⟩
  · have hn := h.tokens m
    simp only [World.tokens, hw, List.flatMap_cons, inflight, hcbs, List.filterMap_append,
      List.count_append,
      List.filterMap_cons, opOf, List.filterMap_nil, List.count_nil] at hn ⊢
    omega
  · rcases List.mem_cons.mp hx with rfl | hx
    · exact hok
    · exact h.ok x (hmem x hx)
  · rcases List.mem_cons.mp hx with rfl | hx
    · rw [hcbs] at hb
      rcases List.mem_append.mp hb with hb | hb
      · exact hkeeps.cbs d hd b hb k' hk'
      · cases List.mem_singleton.mp hb
        cases hk'
        exact .of_append hk hq hc
    · exact hkeeps.cbs x (hmem x hx) b hb k' hk'
  · rcases List.mem_append.mp hs with hs | hs
    · exact h.sent s hs
    · rw [List.mem_singleton.mp hs]
      exact h.held_lt
  · obtain ⟨i, s, hs, hx⟩ := h.executed x hx
    exact ⟨i, s, (List.getElem?_append_left (List.getElem?_eq_some_iff.mp hs).1).trans hs, hx⟩

/-- A dispatcher changes, but not its callbacks. -/
theorem Inv.set_dispatcher {j : Nat} {d d' : Core ClientCb} (h : Inv held w)
    (hd : w.dispatchers[j]? = some d) (hok : d'.Ok none) (hcbs : d'.cbs = d.cbs) :
    Inv held { w with dispatchers := w.dispatchers.set j d' } := by
  refine ⟨fun m => ?_, fun x hx => ?_, ⟨fun x hx => ?_, h.facts.posted, h.facts.acks⟩,
    h.sent, h.executed⟩
  · have hn := h.tokens m
    have hc := count_set hd d' inflight m
    simp only [inflight, hcbs] at hc
    simp only [World.tokens, List.count_append] at hn ⊢
    omega
  · rcases List.mem_or_eq_of_mem_set hx with hx | rfl
    · exact h.ok x hx
    · exact hok
  · rcases List.mem_or_eq_of_mem_set hx with hx | rfl
    · exact h.facts.cbs x hx
    · rw [hcbs]
      exact h.facts.cbs d (List.mem_of_getElem? hd)

/-- A request takes the token of its operation. -/
theorem Inv.request {n : Nat} {reply : Option Reply} {r : Request} (h : Inv [n] w)
    (hq : Quiet w.sent n none)
    (hf : Fits w.ops n reply r) (hr : ∀ cb ns c, r = .dispatchAsync cb ns c → w.dispatchers ≠ []) :
    Inv [] (request env w n reply r) := by
  cases r with
  | postCallback a => exact h.post rfl ⟨hf.1, fun _ => hq, hf.2⟩
  | dispatchAsync cb ns c =>
    cases hw : w.dispatchers with
    | nil => exact absurd hw (hr cb ns c rfl)
    | cons d ds =>
      have hd : d ∈ w.dispatchers := by rw [hw]; exact List.mem_cons_self
      have hok := (h.ok d hd).dispatchAsync env.accept env.err (.client ⟨n, cb, w.sent.length⟩) true
      have hown := @own_dispatchAsync d env.accept env.err (.client ⟨n, cb, w.sent.length⟩) true
      simp only [ErrorClass.request, hw]
      rcases d.dispatchAsync_cases env.accept env.err (.client ⟨n, cb, w.sent.length⟩) true
        (h.ok d hd).lt with ⟨e, m, herr, he⟩ | ⟨-, -, he⟩ <;> rw [he] at hok hown ⊢
      · have h0 : w.dispatchers[0]? = some d := by rw [hw]; rfl
        have h1 := h.set_dispatcher h0 hok rfl
        rw [hw] at h1
        exact h1.post (t := .dispatcher (.callCommandCbWithError d.self
          (.client ⟨n, cb, w.sent.length⟩) e)) rfl
          ⟨hown List.mem_cons_self, herr, hq⟩
      · have h1 := h.accepted (k := ⟨n, cb, w.sent.length⟩) hw rfl hq hf hok rfl
        simpa using h1

/-- A new operation gets its token. It has no command yet. -/
theorem Inv.issue (h : Inv [] w) (op : Op) : Inv [] (issue cfg env w op) := by
  have hfacts : Facts (w.ops ++ [op]) w.sent w :=
    h.facts.keeps (fun _ _ => Keeps.refl) fun i hm o ho =>
      (List.getElem?_append_left (h.lt hm)).trans ho
  have hnew : Inv [w.ops.length] { w with ops := w.ops ++ [op] } := by
    refine ⟨fun n => ?_, h.ok, ⟨hfacts.cbs, hfacts.posted, hfacts.acks⟩, fun s hs => ?_, h.executed⟩
    · have ht := h.tokens n
      have hi := count_issued w.ops.length n
      show [w.ops.length].count n + w.tokens.count n = if n < (w.ops ++ [op]).length then 1 else 0
      rw [List.count_nil] at ht
      rw [List.length_append, List.length_singleton, List.count_singleton]
      omega
    · have := h.sent s hs
      rw [List.length_append, List.length_singleton]
      omega
  refine hnew.request (fun i s hs ho _ => ?_) (fits_request cfg _ List.getElem?_concat_length)
    fun cb ns c hr => ?_
  · have := h.sent s (List.mem_of_getElem? hs)
    omega
  · have := Op.request_dispatcher cfg _ hr
    simpa using this

theorem call_removeAsync {cb : CommandCb} {e : ErrorCode} {reply : Reply}
    {ns : Namespace} {keys : Keys}
    (h : cb.call e reply = .removeAsync ns keys) : e.isError = false ∧ cb = .removeAllCb ns := by
  cases cb with
  | removeAllCb ns' =>
    simp only [CommandCb.call] at h
    split at h
    · cases h
    · split at h <;> cases h
      exact ⟨by simpa using ‹¬ e.isError = true›, rfl⟩
  | _ => cases h

/-- The callback of a command takes the token of its operation: it is acked, or `removeAllAsync`
goes on. -/
theorem Inv.call {k : ClientCb} {e : ErrorCode} {reply : Reply} {received : Option Reply}
    (h : Inv [k.op] w) (hown : Own e) (hu : Unsent e → Quiet w.sent k.op none)
    (hs : e.isError = false → received.isSome = true)
    (hr : e.isError = false → ∀ ns, k.commandCb = .removeAllCb ns → Quiet w.sent k.op none) :
    Inv [] (call cfg env w k e reply received) := by
  unfold ErrorClass.call
  split
  · rename_i a ha
    refine h.ack ?_
    rcases error_of_call ha with he | ⟨hok, he⟩
    · exact ⟨he ▸ hown, fun h => hu (he ▸ h), fun h => .inl (hs (he ▸ h))⟩
    · refine ⟨by rw [he]; trivial, fun h => ?_, fun _ => .inl (hs hok)⟩
      rw [he] at h
      exact absurd h (by unfold Unsent; decide)
  · rename_i ns keys hcall
    obtain ⟨hok, hcb⟩ := call_removeAsync hcall
    refine h.request (hr hok ns hcb) (fits_removeAsync cfg _ _ _ (hs hok) ns keys)
      fun cb ns' c hreq => ?_
    have := operation_dispatcher _ hreq
    simpa using this

theorem Inv.runTask {i : Nat} {t : Task} (h : Inv [] w) (ht : w.posted[i]? = some t) :
    Inv [] (runTask cfg env { w with posted := w.posted.eraseIdx i } t) := by
  have htold := h.facts.posted t (List.mem_of_getElem? ht)
  have htaken : Inv t.op.toList { w with posted := w.posted.eraseIdx i } := by
    refine ⟨fun n => ?_, h.ok, ⟨h.facts.cbs, fun t' ht' => ?_, h.facts.acks⟩, h.sent, h.executed⟩
    · have hn := h.tokens n
      have hc := count_taken ht Task.op n
      simp only [World.tokens, List.count_append, List.count_nil] at hn ⊢
      omega
    · exact h.facts.posted t' (List.mem_of_mem_eraseIdx ht')
  cases t with
  | ack op a reply => exact Inv.ack htaken htold
  | dispatcher p =>
    cases p with
    | connectAck a => exact htaken
    | callCommandCbWithError self cb e =>
      cases cb with
      | verifyConnectionReply => exact htaken
      | client k =>
        obtain ⟨hown, herr, hq⟩ := htold
        refine Inv.call htaken hown (fun _ => hq) (fun hs => ?_) fun _ _ _ => hq
        rw [herr] at hs
        cases hs

/-- The fate of a command is decided. -/
theorem Inv.set_fate {i : Nat} {s : Sent} {fate : Fate} (h : Inv held w) (hs : w.sent[i]? = some s)
    (hr : s.fate = .refused → fate = .refused) (he : s.fate = .executed → fate = .executed) :
    Inv held { w with sent := w.sent.set i { s with fate := fate } } := by
  have hi := (List.getElem?_eq_some_iff.mp hs).1
  refine ⟨h.tokens, h.ok, ?_, fun t ht => ?_, fun x hx => ?_⟩
  · have hfacts := h.facts.keeps (fun op _ => (Keeps.set hs hr : Keeps w.sent _ op))
      fun _ _ _ ho => ho
    exact ⟨hfacts.cbs, hfacts.posted, hfacts.acks⟩
  · rcases List.mem_or_eq_of_mem_set ht with ht | rfl
    · exact h.sent t ht
    · exact h.sent s (List.mem_of_getElem? hs)
  · obtain ⟨j, t, ht, ho, hf, hx⟩ := h.executed x hx
    by_cases hij : i = j
    · subst hij
      rw [hs] at ht
      cases ht
      exact ⟨i, _, List.getElem?_set_self hi, ho, he hf, hx⟩
    · exact ⟨j, t, (List.getElem?_set_ne hij).trans ht, ho, hf, hx⟩

/-- The callback of a completed command gives its token back, and its item is removed. -/
theorem Inv.completed {j cb : Nat} {d : Core ClientCb} {k : ClientCb} (h : Inv [] w)
    (hd : w.dispatchers[j]? = some d) (hk : pendingCb d cb = some k) :
    Inv [k.op] { w with dispatchers := w.dispatchers.set j ((d.completed cb).removeCb cb) } ∧
      Waiting w.sent k := by
  have hmem := List.mem_of_getElem? hd
  have hok := h.ok d hmem
  unfold pendingCb at hk
  split at hk
  · rename_i hp
    split at hk
    · rename_i k' hf
      cases hk
      refine ⟨⟨fun n => ?_, fun x hx => ?_,
        ⟨fun x hx b hb k' hk' => ?_, h.facts.posted, h.facts.acks⟩, h.sent,
        h.executed⟩, ?_⟩
      · have hn := h.tokens n
        have hc := count_set hd ((d.completed cb).removeCb cb) inflight n
        have hl := count_lookup opOf n hok.nodup hf
        have htaken : (inflight d).count n = [k.op].count n +
          (inflight ((d.completed cb).removeCb cb)).count n := hl
        simp only [World.tokens, List.count_append, List.count_nil] at hn ⊢
        omega
      · rcases List.mem_or_eq_of_mem_set hx with hx | rfl
        · exact h.ok x hx
        · exact (hok.completed hp).1.removeCb
      · rcases List.mem_or_eq_of_mem_set hx with hx | rfl
        · exact h.facts.cbs x hx b hb k' hk'
        · exact h.facts.cbs d hmem b (List.mem_filter.mp hb).1 k' hk'
      · obtain ⟨l₁, l₂, hcbs, -⟩ := List.lookup_eq_some_iff.mp hf
        exact h.facts.cbs d hmem (cb, .client k) (by rw [hcbs]; simp) k rfl
    · cases hk
  · cases hk

theorem Inv.complete {j cb : Nat} {d : Core ClientCb} {k : ClientCb}
    {rr : Option RedisReply} (h : Inv [] w)
    (hd : w.dispatchers[j]? = some d) (hk : pendingCb d cb = some k)
    (ha : refuses env.err rr = true → ∀ s, w.sent[k.sent]? = some s → s.fate ≠ .executed) :
    Inv [] (complete cfg env w j d cb k rr) := by
  obtain ⟨htaken, hwait⟩ := h.completed hd hk
  obtain ⟨s, hs, ho, hharmless⟩ := hwait.command
  have hreceived : (getRedisError env.err rr).isError = false → (received rr).isSome = true := by
    intro he
    obtain ⟨r, rfl⟩ := isError_rr he
    rfl
  unfold ErrorClass.complete
  by_cases hr : refuses env.err rr = true
  · -- The command was refused, so nothing of its operation can alter the database.
    rw [if_pos hr, refuse_eq_set hs]
    have hkeeps : Keeps w.sent (w.sent.set k.sent { s with fate := .refused }) k.op :=
      Keeps.set hs fun _ => rfl
    have hq : Quiet (w.sent.set k.sent { s with fate := .refused }) k.op none := by
      refine (hkeeps.waiting hwait).completed fun t ht => .inl ?_
      rw [List.getElem?_set_self (List.getElem?_eq_some_iff.mp hs).1] at ht
      cases ht
      rfl
    refine Inv.call (htaken.set_fate hs (fun _ => rfl) fun he => absurd he (ha hr s hs))
      (own_getRedisError _ _)
      (fun _ => hq) hreceived fun _ _ _ => hq
  · rw [if_neg hr]
    refine htaken.call (own_getRedisError _ _)
      (fun hu => absurd (refuses_of_unsent hu) hr) hreceived fun _ ns hcb => ?_
    refine hwait.completed fun t ht => .inr ?_
    rw [hs] at ht
    cases ht
    exact hharmless ns hcb

theorem Inv.execute {i : Nat} {s : Sent} (h : Inv [] w) (hs : w.sent[i]? = some s)
    (hf : s.fate = .unknown) (r : Choices) : Inv [] (execute r w i s) := by
  have hset : Inv [] { w with sent := w.sent.set i { s with fate := .executed } } := by
    refine h.set_fate hs (fun he => ?_) fun _ => rfl
    rw [hf] at he
    cases he
  unfold ErrorClass.execute
  split
  · rename_i reply server he
    refine ⟨hset.tokens, hset.ok, ⟨hset.facts.cbs, hset.facts.posted, hset.facts.acks⟩,
      hset.sent, fun x hx => ?_⟩
    rcases List.mem_append.mp hx with hx | hx
    · exact hset.executed x hx
    · rw [List.mem_singleton.mp hx]
      exact ⟨i, _, List.getElem?_set_self (List.getElem?_eq_some_iff.mp hs).1, rfl, rfl,
        fun hh => hh r w.server reply server he⟩
  · exact hset

theorem Inv.step {w' : World} {e : Env × Event} (h : Inv [] w) (ha : Assumed w e)
    (hs : ErrorClass.step cfg w e = some w') : Inv [] w' := by
  obtain ⟨env, e⟩ := e
  cases e with
  | issue op => cases hs; exact h.issue op
  | install =>
    cases hs
    refine ⟨h.tokens, fun d hd => ?_, ⟨fun d hd => ?_, h.facts.posted, h.facts.acks⟩,
      h.sent, h.executed⟩
    · rcases List.mem_cons.mp hd with rfl | hd
      · exact Core.ok_new _
      · exact h.ok d hd
    · rcases List.mem_cons.mp hd with rfl | hd
      · intro c hc
        cases hc
      · exact h.facts.cbs d hd
  | dispatcher j serviceState freeing =>
    obtain ⟨d, hd, rfl⟩ := Option.map_eq_some_iff.mp hs
    have hok := h.ok d (List.mem_of_getElem? hd)
    exact h.set_dispatcher hd ⟨hok.nodup, hok.lt, hok.pending, hok.held⟩ rfl
  | reply j cb rr =>
    obtain ⟨d, hd, hs⟩ := Option.bind_eq_some_iff.mp hs
    obtain ⟨k, hk, rfl⟩ := Option.map_eq_some_iff.mp hs
    exact h.complete hd hk fun hr s hs => ha hr d hd k hk s hs
  | posted i =>
    obtain ⟨t, ht, rfl⟩ := Option.map_eq_some_iff.mp hs
    exact h.runTask ht
  | execute i r =>
    obtain ⟨s, hsent, hs⟩ := Option.bind_eq_some_iff.mp hs
    split at hs
    · cases hs
      exact h.execute hsent ‹_› r
    · cases hs

theorem inv_init (server : Server) : Inv [] (sys cfg server).init := by
  refine ⟨fun n => ?_, ?_, ⟨?_, ?_, ?_⟩, ?_, ?_⟩
  · simp [sys, World.tokens]
  all_goals
    intro x hx
    cases hx

theorem Inv.of_reach {server : Server} (h : (sys cfg server).Reach Assumed w) : Inv [] w :=
  h.invariant (inv_init server) fun _ _ _ hi hg hs => hi.step hg hs

end Steps

/-! ## The result -/

/-- What every ack of a run says is true. If its error is `NOT_CONNECTED` or `REJECTED_BY_SDL`, no
command of the operation has altered the database. It carries success only if a reply that is no
error was received or the request was empty. Its error is equivalent to exactly one
`shareddatalayer::Error`; it is set exactly if that is not success, and then the synchronous API
throws one of its own exceptions. -/
theorem errorClass_sound (cfg : Config) (server : Server) (w : World)
    (h : (sys cfg server).Reach Assumed w)
    (op : Nat) (a : Ack) (reply : Option Reply) (hx : (op, a, reply) ∈ w.acks) :
    (a.error.equivalent .notConnected = true ∨ a.error.equivalent .rejectedBySdl = true →
        ∀ x ∈ w.executed, x.op = op → x.after = x.before) ∧
      (a.error.equivalent .success = true →
        reply.isSome = true ∨ ∃ o, w.ops[op]? = some o ∧ o.noKeysGiven = true) ∧
      (∃! e : Error, a.error.equivalent e = true) ∧
      (a.error.isError = true ↔ a.error.equivalent .success = false) ∧
      (a.error.isError = true → (throwExceptionForErrorCode a.error).type ≠ .rangeError) := by
  have hi := Inv.of_reach h
  have ht : Told w.ops w.sent op a reply := hi.facts.acks _ hx
  obtain ⟨hsuccess, hthrow⟩ := own_isError ht.own
  refine ⟨fun hu x hex ho => ?_, fun hs => ht.success ?_, own_unique ht.own, hsuccess, hthrow⟩
  · obtain ⟨i, s, hs, hso, hf, hdb⟩ := hi.executed x hex
    rcases ht.unsent hu i s hs (hso.trans ho) (by simp) with hr | hh
    · rw [hf] at hr
      cases hr
    · exact hdb hh
  · rw [Bool.eq_false_iff]
    intro he
    rw [hsuccess.mp he] at hs
    cases hs

/-- A `removeAllAsync` whose search is executed and whose `DEL` is refused. -/
theorem errorClass_sound_clusterDown :
    ∃ w, (sys Config.plain
        ⟨OrdMap.empty.insert (str "\x7bns\x7d,k") (str "v"), []⟩).Reach Assumed w ∧
      w.acks.map (fun x => x.2.1) = [.modifyAck (.dispatcher .notConnected)] ∧
      w.executed.length = 1 ∧
      ∀ x ∈ w.executed, x.op = 0 → x.after = x.before := by
  let env : Env := ⟨true, .other⟩
  obtain ⟨w, h, hw⟩ := Sys.reach_run_map
    (S := sys Config.plain ⟨OrdMap.empty.insert (str "\x7bns\x7d,k") (str "v"), []⟩) (G := Assumed)
    [(env, .install), (env, .dispatcher 0 .connected false),
      (env, .issue (.removeAllAsync (str "ns"))),
      (env, .execute 0 Choices.sorted), (env,
        .reply 0 0 (some (.reply (.array [.string (str "\x7bns\x7d,k")])))),
      (env, .reply 0 1 (some (.error (str "CLUSTERDOWN The cluster is down"))))]
    (fun w => (w.acks.map fun x => (x.1, x.2.1), w.executed.length))
    (b := ([(0, .modifyAck (.dispatcher .notConnected))], 1)) (by decide +kernel)
  obtain ⟨hacks, hexecuted⟩ := Prod.mk.inj hw
  obtain ⟨x, l, hx, h0, hl⟩ := List.map_eq_cons_iff.mp hacks
  rw [List.map_eq_nil_iff] at hl
  subst hl
  obtain ⟨op, a, reply⟩ := x
  cases h0
  refine ⟨w, h, by rw [hx]; rfl, hexecuted, ?_⟩
  exact (errorClass_sound _ _ w h 0 _ reply (by rw [hx]; exact List.mem_cons_self)).1
    (.inl (by decide))

end ErrorClass
end Sdl
