import SharedDataLayer.Redis.Store
import SharedDataLayer.Spec.History
import SharedDataLayer.Sync.Outcome

/-!
# The synchronous API over the store

Any number of clients call the data operations of `SyncStorageImpl` at the same time, each client
one after the other. A call is what `Sync/Impl.lean` makes of it, with any polls: readiness waits
that time out, and readiness acks that come late. The `AsyncStorage` of a client sends a command to
the server that all clients share. The server executes it at any time after the call has begun, also
after the call has thrown, and at most once (`Sent`).

The ack of an operation is the one that the reply of the server gives, or it has another error
(`Answers`). What a client sees of its calls is a history (`Spec/History.lean`). An exception other
than `InvalidNamespace` says nothing about the effect (`Definite`). The error of the ack counts only
if no late readiness ack with another verdict comes after it in its batch (`Shown`, see
`dataOp_outcome`).

* `operation_outcome`: the outcome of a call from its ack.
* `Inv`: the calls and the commands, with what the history says of them.
* `calls_linearizable`: the history of every run is explained by the abstract store.
-/

namespace Sdl
namespace Sync
namespace Shared

open Spec Redis

/-! ## The system -/

/-- The call of the synchronous API. -/
def dataOp : StoreOp → DataOp
  | .set ns dataMap => .set ns dataMap
  | .setIf ns key oldData newData => .setIf ns key oldData newData
  | .setIfNotExists ns key data => .setIfNotExists ns key data
  | .get ns keys => .get ns keys
  | .remove ns keys => .remove ns keys
  | .removeIf ns key data => .removeIf ns key data

/-- The arguments of an ack of the `AsyncStorage`. -/
def ackArgs : Ack → AckArgs
  | .modifyAck error => ⟨error, false, OrdMap.empty, OrdMap.empty⟩
  | .modifyIfAck error status => ⟨error, status, OrdMap.empty, OrdMap.empty⟩
  | .getAck error dataMap => ⟨error, false, dataMap, OrdMap.empty⟩
  | .findKeysAck error keys => ⟨error, false, OrdMap.empty, keys⟩

/-- The operation of a call, with the ack that the reply of the server gives once its command has
been executed. The call `k` of the client `c` has the name `(c, k)`. -/
structure Sent where
  call : Nat × Nat
  op : StoreOp
  ack : Option Ack

structure World where
  server : Server
  client : Nat → Sync.World
  /-- The calls that have not returned. -/
  active : Nat → Option (Nat × StoreOp)
  /-- How many calls each client has made. -/
  count : Nat → Nat
  sent : List Sent
  history : List (Moment (Nat × Nat) StoreOp Outcome)

inductive Event where
  | call (c : Nat) (op : StoreOp)
  /-- The server executes the command of the call `i`. -/
  | execute (i : Nat) (r : Choices)
  /-- The call of the client `c` returns or throws, with the polls that it has made. -/
  | finish (c : Nat) (ps : List Poll)
  | waitReady (c : Nat) (ns : Namespace) (timeout : Int) (ps : List Poll)
  | setOperationTimeout (c : Nat) (timeout : Int)

variable (cfg : Nat → Config)

def World.call (w : World) (c : Nat) (op : StoreOp) : World :=
  { w with
    active := Function.update w.active c (some (w.count c, op))
    count := Function.update w.count c (w.count c + 1)
    sent := w.sent ++ [⟨(c, w.count c), op, none⟩]
    history := w.history ++ [.issued (c, w.count c) op] }

/-- An operation that needs no command has no effect on the server. -/
def World.execute (w : World) (i : Nat) (r : Choices) : Option World :=
  (w.sent[i]?).bind fun s =>
    match s.ack, perform r w.server (s.op.toOp.request (cfg s.call.1) true) with
    | none, some (.ack a, server) =>
      some { w with
        server := server
        sent := w.sent.set i { s with ack := some a }
        history := w.history ++ [.executed s.call s.op] }
    | _, _ => none

def World.finish (w : World) (c : Nat) (ps : List Poll) : Option World :=
  (w.active c).bind fun p =>
    ((dataOp p.2).exec ps (w.client c)).map fun r =>
      { w with
        client := Function.update w.client c r.2.1
        active := Function.update w.active c none
        history := w.history ++ [.acked (c, p.1) r.1] }

/-- A call that does not use the store. -/
def World.other (w : World) (c : Nat) (call : Call) (ps : List Poll) : Option World :=
  if w.active c = none then
    (call.step ps (w.client c)).map fun v => { w with client := Function.update w.client c v }
  else none

def step (w : World) : Event → Option World
  | .call c op => if w.active c = none then some (w.call c op) else none
  | .execute i r => w.execute cfg i r
  | .finish c ps => w.finish c ps
  | .waitReady c ns timeout ps => w.other c (.waitReady ns timeout) ps
  | .setOperationTimeout c timeout => w.other c (.setOperationTimeout timeout) []

/-- New clients, and a server with any data. -/
def sys (server : Server) : Sys World Event where
  init := ⟨server, fun _ => .new, fun _ => none, fun _ => 0, [], []⟩
  step := step cfg

/-! ## What is assumed and expected -/

deriving instance DecidableEq for AckArgs
deriving instance DecidableEq for Value

/-- An error that says nothing about the effect of the operation. -/
def Failed (e : ErrorCode) : Prop := e.isError = true ∧ e ≠ .storage .invalidNamespace

instance (e : ErrorCode) : Decidable (Failed e) := inferInstanceAs (Decidable (_ ∧ _))

/-- The `AsyncStorage` calls the ack of an operation with what the reply gives, or with an error. -/
def Answers (w : World) (call : Nat × Nat) (a : AckArgs) : Prop :=
  Failed a.error ∨ ∃ s ∈ w.sent, s.call = call ∧ s.ack.map ackArgs = some a

instance (w : World) (call : Nat × Nat) (a : AckArgs) : Decidable (Answers w call a) :=
  inferInstanceAs (Decidable (_ ∨ _))

/-- The last ack of the batch throws the same exception as `a`, or none like it. -/
def Shown (b : Batch) (a : AckArgs) : Prop := verdict (lastError b) = verdict a.error

instance (b : Batch) (a : AckArgs) : Decidable (Shown b a) := inferInstanceAs (Decidable (_ = _))

/-- The number of the call of the client `c`, and the last batch that it handles. -/
def World.lastBatch (w : World) (c : Nat) (ps : List Poll) : Option (Nat × Batch) :=
  (w.active c).bind fun p =>
    ((dataOp p.2).exec ps (w.client c)).bind fun r => r.2.1.handled.getLast?.map fun b => (p.1, b)

/-- The ack of a call that ends is in this batch, and has the number `nextAck + 1`. -/
def Ending (w : World) (c : Nat) (ps : List Poll) : Prop :=
  ∀ x ∈ w.lastBatch c ps, ∀ d ∈ x.2, d.1 = (w.client c).nextAck + 1 →
    Answers w (c, x.1) d.2 ∧ Shown x.2 d.2

instance (w : World) (c : Nat) (ps : List Poll) : Decidable (Ending w c ps) :=
  inferInstanceAs (Decidable (∀ x ∈ w.lastBatch c ps, _))

def Guard (w : World) : Event → Prop
  | .finish c ps => Ending w c ps
  | _ => True

instance (w : World) : (e : Event) → Decidable (Guard w e)
  | .finish c ps => inferInstanceAs (Decidable (Ending w c ps))
  | .call _ _ | .execute _ _ | .waitReady _ _ _ _ | .setOperationTimeout _ _ =>
    inferInstanceAs (Decidable True)

/-- The outcome that an ack of the operation decides. -/
def outcome (op : StoreOp) (a : Ack) : Outcome := (dataOp op).ackFn.outcome (ackArgs a)

/-- The outcome of a call and the store after it, on the abstract store. -/
def callSpec (op : StoreOp) (s : Store) : Outcome × Store :=
  (outcome op (op.spec s).1, (op.spec s).2)

/-- The outcome says what the operation has done. -/
def Definite : Outcome → Prop
  | .ok _ => True
  | .error e => e.type = .invalidNamespace

/-! ## One call -/

/-- Only an invalid namespace is reported as one. -/
theorem throwExceptionForErrorCode_invalidNamespace (ec : ErrorCode)
    (h : (throwExceptionForErrorCode ec).type = .invalidNamespace) :
    ec = .storage .invalidNamespace := by
  cases ec with
  | none => revert h; decide
  | dispatcher c => revert h; cases c <;> decide
  | storage c => revert h; cases c <;> decide
  | foreign cat v m => simp [throwExceptionForErrorCode, ErrorCode.equivalent,
    ErrorCode.internalError] at h

/-- The outcome of a failed operation is not definite. -/
theorem Failed.not_definite {f : AckFn} {a : AckArgs} (h : Failed a.error) :
    ¬ Definite (f.outcome a) := by
  rw [AckFn.outcome, if_pos h.1]
  exact fun hd => h.2 (throwExceptionForErrorCode_invalidNamespace _ hd)

/-- The ack of the call is in the last batch of the call. If it is shown, it decides the outcome. -/
theorem operation_outcome {op : DataOp} {ps ps' : List Poll} {w w' : Sync.World}
    {o : Outcome} (hw : Quiet w) (h : op.exec ps w = some (o, w', ps')) :
    Quiet w' ∧ ∃ b a, w'.handled.getLast? = some b ∧ (w.nextAck + 1, a) ∈ b ∧
      (Shown b a → o = op.ackFn.outcome a) := by
  rw [DataOp.exec_eq] at h
  obtain ⟨hq, -, rfl, b, a, hb, ha, hle, hres⟩ := operation_spec op.ackFn_ne hw h
  refine ⟨hq, b, a, hb, ha, fun hs => (verifyBackendResponse_eq_iff hres).mpr ?_⟩
  rw [hle]
  exact hs

/-! ## The invariant -/

/-- A command belongs to a call. Once it has been executed, its ack decides the outcome that the
abstract store gives. -/
structure SentOk (st : Store) (h : List (Moment (Nat × Nat) StoreOp Outcome))
    (s : Sent) : Prop where
  issued : .issued s.call s.op ∈ h
  waiting : s.ack = none → s.call ∉ (History.executed h).map Prod.fst
  answered : ∀ a, s.ack = some a → History.Answered callSpec st h s.call s.op (outcome s.op a)

structure Inv (st : Store) (w : World) : Prop where
  clients : ∀ c, Quiet (w.client c)
  names : ∀ c k, (c, k) ∈ History.issued w.history → k < w.count c
  active : ∀ c k op, w.active c = some (k, op) →
    .issued (c, k) op ∈ w.history ∧ (c, k) ∉ (History.acked w.history).map Prod.fst
  once : (w.sent.map Sent.call).Nodup
  sent : ∀ s ∈ w.sent, SentOk st w.history s
  store : abs w.server = History.after callSpec st w.history
  linear : History.Linear callSpec Definite st w.history

section Steps

variable {cfg : Nat → Config} {st : Store} {w w' : World} {c : Nat}

/-- A command stays as it is while nothing of it happens. -/
theorem SentOk.append {h : List (Moment (Nat × Nat) StoreOp Outcome)} {s : Sent}
    (hs : SentOk st h s) {k : List (Moment (Nat × Nat) StoreOp Outcome)}
    (hk : s.ack = none → s.call ∉ (History.executed k).map Prod.fst) : SentOk st (h ++ k) s := by
  refine ⟨List.mem_append_left _ hs.issued, fun hn => ?_, fun a ha => (hs.answered a ha).append k⟩
  rw [History.executed_append, List.map_append, List.mem_append]
  exact fun hm => hm.elim (hs.waiting hn) (hk hn)

theorem Inv.issued_of_acked (h : Inv st w) {n : Nat × Nat}
    (hn : n ∈ (History.acked w.history).map Prod.fst) :
    n ∈ History.issued w.history := by
  obtain ⟨⟨n', o⟩, hc, rfl⟩ := List.mem_map.mp hn
  obtain ⟨l, l', hl⟩ := List.append_of_mem (History.mem_acked.mp hc)
  obtain ⟨op, hi, -⟩ := h.linear.acked_after l l' _ o hl
  exact History.mem_issued.mpr ⟨op, hl ▸ List.mem_append_left _ hi⟩

theorem Inv.call (h : Inv st w) (op : StoreOp) : Inv st (w.call c op) := by
  have hnew : (c, w.count c) ∉ History.issued w.history :=
    fun hm => Nat.lt_irrefl _ (h.names c _ hm)
  have hmem : Moment.issued (c, w.count c) op ∈ (w.call c op).history :=
    List.mem_append_right _ List.mem_cons_self
  have hacked : History.acked (w.call c op).history = History.acked w.history :=
    History.acked_issued _ _ _
  refine ⟨h.clients, fun c' k hm => ?_, fun c' k op' ha => ?_, ?_, fun s hs => ?_, ?_,
    h.linear.issue hnew op⟩
  · have hm : (c', k) ∈ History.issued (w.history ++ [.issued (c, w.count c) op]) := hm
    rw [History.issued_append, List.mem_append] at hm
    show k < Function.update w.count c (w.count c + 1) c'
    by_cases hc : c' = c
    · subst hc
      rw [Function.update_self]
      rcases hm with hm | hm
      · exact Nat.lt_succ_of_lt (h.names c' k hm)
      · have : (c', k) = (c', w.count c') := by simpa [History.issued, History.calls,
          History.issuedCall] using hm
        cases this
        exact Nat.lt_succ_self _
    · rw [Function.update_of_ne hc]
      rcases hm with hm | hm
      · exact h.names c' k hm
      · have : (c', k) = (c, w.count c) := by simpa [History.issued, History.calls,
          History.issuedCall] using hm
        cases this
        exact absurd rfl hc
  · have ha : Function.update w.active c (some (w.count c, op)) c' = some (k, op') := ha
    rw [hacked]
    by_cases hc : c' = c
    · subst hc
      rw [Function.update_self] at ha
      cases ha
      exact ⟨hmem, fun hm => hnew (h.issued_of_acked hm)⟩
    · rw [Function.update_of_ne hc] at ha
      obtain ⟨hi, hna⟩ := h.active c' k op' ha
      exact ⟨List.mem_append_left _ hi, hna⟩
  · show ((w.sent ++ [_]).map Sent.call).Nodup
    rw [List.map_append]
    refine List.Nodup.append h.once (List.nodup_singleton _)
      (List.disjoint_singleton.mpr fun hm => ?_)
    obtain ⟨s, hs, he⟩ := List.mem_map.mp hm
    have hi := (h.sent s hs).issued
    rw [he] at hi
    exact hnew (History.mem_issued.mpr ⟨s.op, hi⟩)
  · rcases List.mem_append.mp hs with hs | hs
    · exact (h.sent s hs).append fun _ hm => (by cases hm)
    · rw [List.mem_singleton.mp hs]
      refine ⟨hmem, fun _ hm => hnew (h.linear.issued_of_executed ?_), fun a ha => (by cases ha)⟩
      have hm : (c, w.count c) ∈ (History.executed
        (w.history ++ [.issued (c, w.count c) op])).map Prod.fst := hm
      rw [History.executed_issued] at hm
      exact hm
  · show abs w.server = History.after callSpec st (w.history ++ [.issued (c, w.count c) op])
    rw [History.after_issued]
    exact h.store

/-- The server executes a command: the abstract operation takes effect. -/
theorem Inv.execute (h : Inv st w) {i : Nat} {r : Choices}
    (hs : w.execute cfg i r = some w') : Inv st w' := by
  obtain ⟨s, hi, hs⟩ := Option.bind_eq_some_iff.mp hs
  have hmem := List.mem_of_getElem? hi
  have hok := h.sent s hmem
  obtain ⟨server, hp, hstore, -⟩ := perform_spec (cfg s.call.1) r w.server s.op
  rw [hp] at hs
  cases hack : s.ack with
  | some a =>
    rw [hack] at hs
    cases hs
  | none =>
    rw [hack] at hs
    cases hs
    have hnot := hok.waiting hack
    have hcalls : (w.sent.set i { s with ack := some (s.op.spec (abs w.server)).1 }).map Sent.call =
        w.sent.map Sent.call := History.map_name_set hi rfl
    refine ⟨h.clients, fun c k hm => ?_, fun c k op ha => ?_, hcalls ▸ h.once, fun s' hs' => ?_, ?_,
      h.linear.execute hok.issued hnot⟩
    · rw [History.issued_executed] at hm
      exact h.names c k hm
    · obtain ⟨hi, hna⟩ := h.active c k op ha
      rw [History.acked_executed]
      exact ⟨List.mem_append_left _ hi, hna⟩
    · rcases History.mem_set_name h.once hi hs' with rfl | ⟨hs', hne⟩
      · refine ⟨List.mem_append_left _ hok.issued, fun hn => (by cases hn), fun a ha => ?_⟩
        cases ha
        refine ⟨w.history, [], rfl, ?_⟩
        rw [callSpec, ← h.store]
      · exact (h.sent s' hs').append fun _ hm =>
          hne (by simpa [History.executed, History.executedCall] using hm)
    · show abs server = History.after callSpec st (w.history ++ [.executed s.call s.op])
      rw [History.after_executed, ← h.store, hstore]
      rfl

theorem Inv.quiet_update (h : Inv st w) {v : Sync.World} (hv : Quiet v) (c' : Nat) :
    Quiet (Function.update w.client c v c') := by
  by_cases hc : c' = c
  · subst hc
    rw [Function.update_self]
    exact hv
  · rw [Function.update_of_ne hc]
    exact h.clients c'

/-- A call ends. If its outcome is definite, the operation has taken effect. -/
theorem Inv.finish (h : Inv st w) {ps : List Poll} (hg : Guard w (.finish c ps))
    (hs : w.finish c ps = some w') :
    Inv st w' := by
  obtain ⟨⟨k, op⟩, hact, hs⟩ := Option.bind_eq_some_iff.mp hs
  obtain ⟨⟨o, v, ps'⟩, hex, rfl⟩ := Option.map_eq_some_iff.mp hs
  obtain ⟨hq, b, a, hb, ha, hout⟩ := operation_outcome (h.clients c) hex
  have hlast : w.lastBatch c ps = some (k, b) := by
    simp only [World.lastBatch, hact, hex, hb, Option.bind_some, Option.map_some]
  obtain ⟨hans, hshown⟩ := hg (k, b) hlast _ ha rfl
  have ho := hout hshown
  obtain ⟨hi, hna⟩ := h.active c k op hact
  have hdef : Definite o → History.Answered callSpec st w.history (c, k) op o := by
    intro hd
    rw [ho] at hd
    rcases hans with hf | ⟨s, hs, hcall, hmap⟩
    · exact absurd hd hf.not_definite
    · obtain ⟨ack, hack, rfl⟩ := Option.map_eq_some_iff.mp hmap
      have hok := h.sent s hs
      have hsi := hok.issued
      have hanswer := hok.answered ack hack
      rw [hcall] at hsi hanswer
      rw [h.linear.issued_inj hsi hi] at hanswer
      rw [ho]
      exact hanswer
  refine ⟨fun c' => ?_,
    fun c' k' hm => h.names c' k' (History.issued_acked w.history (c, k) o ▸ hm),
    fun c' k' op' ha' => ?_, h.once,
    fun s hs => (h.sent s hs).append fun _ hm => (by cases hm), ?_, h.linear.ack hi hna hdef⟩
  · exact h.quiet_update hq c'
  · have ha' : Function.update w.active c none c' = some (k', op') := ha'
    by_cases hc : c' = c
    · subst hc
      rw [Function.update_self] at ha'
      cases ha'
    · rw [Function.update_of_ne hc] at ha'
      obtain ⟨hi', hna'⟩ := h.active c' k' op' ha'
      refine ⟨List.mem_append_left _ hi', fun hm => ?_⟩
      have hm : (c', k') ∈ (History.acked (w.history ++ [.acked (c, k) o])).map Prod.fst := hm
      rw [History.acked_append, List.map_append, List.mem_append] at hm
      rcases hm with hm | hm
      · exact hna' hm
      · have he : (c', k') = (c, k) := by simpa [History.acked, History.ackedCall] using hm
        exact hc (Prod.mk.inj he).1
  · show abs w.server = History.after callSpec st (w.history ++ [.acked (c, k) o])
    rw [History.after_acked]
    exact h.store

theorem Inv.other (h : Inv st w) {call : Call} {ps : List Poll}
    (hs : w.other c call ps = some w') : Inv st w' := by
  obtain ⟨-, hs⟩ := Option.ite_none_right_eq_some.mp hs
  obtain ⟨v, hv, rfl⟩ := Option.map_eq_some_iff.mp hs
  refine ⟨fun c' => ?_, h.names, h.active, h.once, h.sent, h.store, h.linear⟩
  exact h.quiet_update (Call.step_quiet (h.clients c) hv) c'

theorem Inv.step {e : Event} (h : Inv st w) (hg : Guard w e)
    (hs : step cfg w e = some w') : Inv st w' := by
  cases e with
  | call c op =>
    obtain ⟨-, hw⟩ := Option.ite_none_right_eq_some.mp hs
    cases hw
    exact h.call op
  | execute i r => exact h.execute hs
  | finish c ps => exact h.finish hg hs
  | waitReady c ns timeout ps => exact h.other hs
  | setOperationTimeout c timeout => exact h.other hs

theorem Inv.of_reach {server : Server} (h : (sys cfg server).Reach Guard w) : Inv (abs server) w :=
  h.invariant ⟨fun _ => quiet_new, fun c k hm => (by cases hm),
    fun c k op ha => (by cases ha), List.nodup_nil,
    fun s hs => (by cases hs), rfl, History.linear_nil⟩ fun _ _ _ hi hg hs => hi.step hg hs

end Steps

/-! ## Every run -/

/-- **The synchronous clients.** In every run in which the acks answer the commands and are shown,
the history of the calls is explained by the abstract store: a call that returns, or throws
`InvalidNamespace`, has taken effect exactly once while it was active, with the outcome that the
store gives at that moment; any other call has taken effect at most once, and not before it was
made. The store of the server is the one that the calls have left, in the order of their effects,
and that order respects the order in time of calls that do not overlap. -/
theorem calls_linearizable (cfg : Nat → Config) (server : Server) {w : World}
    (h : (sys cfg server).Reach Guard w) :
    History.Linear callSpec Definite (abs server) w.history ∧
      abs w.server = History.after callSpec (abs server) w.history ∧
      ∀ l l' k k' n o m p p', w.history = l ++ .acked n o :: l' → Definite o → .issued m p ∈ l' →
        w.history = k ++ .executed m p' :: k' → ∃ q, .executed n q ∈ k := by
  have hi := Inv.of_reach h
  exact ⟨hi.linear, hi.store, fun l l' k k' n o m p p' ha hd hm he => hi.linear.order ha hd hm he⟩

/-- Two clients create the same entry. The server executes the command of the second one first; that
client throws, as its connection is lost, and the first one returns that the entry exists. -/
theorem calls_linearizable_interrupted :
    ∃ w, (sys (fun _ => ⟨none, by decide, fun _ => false⟩) ⟨OrdMap.empty, []⟩).Reach Guard w ∧
      ((History.acked w.history).map fun p => (p.1, p.2.toOption)) =
      [((0, 0), some (.status false)), ((1, 0), none)] ∧
      (History.executed w.history).map Prod.fst = [(1, 0), (0, 0)] ∧
      abs w.server = History.after callSpec (abs ⟨OrdMap.empty, []⟩) w.history := by
  let op : Bytes → StoreOp := fun data => .setIfNotExists (str "ns") (str "k") data
  let r : Choices := ⟨fun db => db.elems, fun _ => .refl _, fun _ _ => false⟩
  let polls : AckArgs → List Poll := fun a =>
    [⟨0, none⟩, ⟨3, some [(0, ⟨.none, false, .empty, .empty⟩)]⟩, ⟨7, some [(1, a)]⟩]
  obtain ⟨w, h, hw⟩ := Sys.reach_run_map (S := sys
    (fun _ => ⟨none, by decide, fun _ => false⟩) ⟨OrdMap.empty, []⟩) (G := Guard)
    [.call 0 (op (str "a")), .call 1 (op (str "b")), .execute 1 r, .execute 0 r,
      .finish 0 (polls ⟨.none, false, .empty, .empty⟩),
      .finish 1 (polls ⟨.dispatcher .connectionLost, false, .empty, .empty⟩)]
    (fun w => ((History.acked w.history).map fun p => (p.1, p.2.toOption),
      (History.executed w.history).map Prod.fst))
    (b := ([((0, 0), some (.status false)), ((1, 0), none)], [(1, 0), (0, 0)])) (by decide +kernel)
  obtain ⟨ha, he⟩ := Prod.mk.inj hw
  exact ⟨w, h, ha, he, (calls_linearizable _ _ h).2.1⟩

end Shared
end Sync
end Sdl
