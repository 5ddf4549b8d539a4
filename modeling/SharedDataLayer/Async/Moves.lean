import SharedDataLayer.Async.AckOnce
import SharedDataLayer.Async.ErrorClass

/-!
# What the events of a client do to its operations

A storage with its engine and its dispatcher (`Async/System.lean`), apart from new operations: it is
discovered, connects, verifies, loses its connection, runs what is posted. None of this brings a
callback into flight, and every ack that is called comes from a callback that was in flight or
posted. The acks are a parameter, `A`, of what is shown of a step (`Moves`); the functions of the
storage are followed one by one.

* `step_other`: the acks that are called without a reply of the server (`Told`).
* `step_reply`: the ack that a reply of the server leads to.
-/

namespace Sdl
namespace Clients

open Spec Redis Hiredis Async

/-- What the environment decides during a step of a client: which commands hiredis accepts, and the
error of its context. The client issues operations by events of their own. -/
structure Choice where
  accept : Nat → Bool
  err : ContextError

def Choice.env (ch : Choice) : Env := ⟨ch.accept, ch.err, fun _ => [], []⟩

/-- The callback of the first pending command. -/
def firstCb (v : Async.World) : Option (Cb ClientCb) :=
  v.dispatcher.bind fun d => d.core.pending.head?.bind d.core.findCb

/-- The events of a client besides new operations and replies of the server to their commands. -/
def isOther (v : Async.World) : Async.Event → Bool
  | .issue _ => false
  | .reply (.reply _) =>
    match firstCb v with
    | some (.client _) => false
    | _ => true
  | _ => true

/-- The command of the callback is in flight. -/
def InFlight (v : Async.World) (k : ClientCb) : Prop :=
  ∃ d i, v.dispatcher = some d ∧ (i, .client k) ∈ d.core.cbs

/-- The posted callback belongs to an operation. -/
def IsClient : Task → Prop
  | .ack _ _ => True
  | .dispatcher (.callCommandCbWithError _ (.client _) _) => True
  | .dispatcher _ => False

/-- An error of the dispatcher. -/
def IsDispatcherError (e : ErrorCode) : Prop := e.isError = true ∧ ∃ c, e = .dispatcher c

/-- The client calls acks of the form `A`, and no callback comes into flight. -/
structure Moves (A : Nat × Ack → Prop) (v v' : Async.World) : Prop where
  acks : ∃ L, v'.acks = v.acks ++ L ∧ ∀ p ∈ L, A p
  nextOp : v'.nextOp = v.nextOp
  cbs : ∀ k, InFlight v' k → InFlight v k
  posted : ∀ t ∈ v'.posted, IsClient t → t ∈ v.posted

/-- The ack of an operation whose command fails. -/
def Fails (P : ClientCb → ErrorCode → Prop) (p : Nat × Ack) : Prop :=
  ∃ k e, P k e ∧ e.isError = true ∧ k.op = p.1 ∧ k.commandCb.call e .nil = .ack p.2

section Client

variable {A : Nat × Ack → Prop} {v v' v'' : Async.World} {cfg : Config} {ch : Choice}

theorem Moves.refl : Moves A v v :=
  ⟨⟨[], (List.append_nil _).symm, fun _ h => (by cases h)⟩, rfl, fun _ h => h, fun _ h _ => h⟩

theorem Moves.trans (h : Moves A v v') (h' : Moves A v' v'') : Moves A v v'' := by
  obtain ⟨L, hL, hA⟩ := h.acks
  obtain ⟨L', hL', hA'⟩ := h'.acks
  refine ⟨⟨L ++ L', by rw [hL', hL, List.append_assoc], fun p hp => ?_⟩, h'.nextOp.trans h.nextOp,
    fun k hk => h.cbs k (h'.cbs k hk), fun t ht hc => h.posted t (h'.posted t ht hc) hc⟩
  exact (List.mem_append.mp hp).elim (hA p) (hA' p)

theorem Moves.mono {B : Nat × Ack → Prop} (h : Moves A v v') (hAB : ∀ p, A p → B p) :
    Moves B v v' := by
  obtain ⟨L, hL, hA⟩ := h.acks
  exact ⟨⟨L, hL, fun p hp => hAB p (hA p hp)⟩, h.nextOp, h.cbs, h.posted⟩

/-- A step that only touches the dispatcher, and brings no callback of a client into flight. -/
theorem Moves.of_cbs (hacks : v'.acks = v.acks) (hnext : v'.nextOp = v.nextOp)
    (hposted : v'.posted = v.posted) (hcbs : ∀ k, InFlight v' k → InFlight v k) : Moves A v v' :=
  ⟨⟨[], by rw [hacks, List.append_nil], fun _ h => (by cases h)⟩, hnext, hcbs,
    fun _ h _ => hposted ▸ h⟩

/-- The dispatcher is changed where it is not about the callbacks. -/
theorem inFlight_map {f : Dispatcher ClientCb → Dispatcher ClientCb} {k : ClientCb}
    (h : InFlight { v with dispatcher := v.dispatcher.map f } k)
    (hf : ∀ d, ∀ x ∈ (f d).core.cbs, x ∈ d.core.cbs) : InFlight v k := by
  obtain ⟨d, i, hd, hm⟩ := h
  obtain ⟨d₀, hd₀, rfl⟩ := Option.map_eq_some_iff.mp hd
  exact ⟨d₀, i, hd₀, hf d₀ _ hm⟩

theorem inFlight_set {d d' : Dispatcher ClientCb} (hd : v.dispatcher = some d) {k : ClientCb}
    (h : InFlight { v with dispatcher := some d' } k)
    (hcbs : ∀ k i, (i, .client k) ∈ d'.core.cbs → (i, .client k) ∈ d.core.cbs) : InFlight v k := by
  obtain ⟨d₀, i, hd₀, hm⟩ := h
  cases hd₀
  exact ⟨d, i, hd, hcbs k i hm⟩

/-- A callback that gets an error calls its ack. -/
theorem call_error (cb : CommandCb) {e : ErrorCode} (he : e.isError = true) (reply : Reply) :
    ∃ a, cb.call e reply = .ack a := by
  cases cb with
  | modificationCommandCallback => exact ⟨_, rfl⟩
  | conditionalCommandCallback => exact ⟨_, rfl⟩
  | getCb keys => exact ⟨_, rfl⟩
  | findKeysCb => exact ⟨_, rfl⟩
  | removeAllCb ns => exact ⟨.modifyAck e, if_pos he⟩

theorem verifyConnectionReply_moves (self : Nat) (e : ErrorCode) (reply : Reply) :
    Moves A v (verifyConnectionReply cfg ch.env v self e reply) := by
  unfold verifyConnectionReply
  split
  · exact .refl
  · rename_i d hd
    split
    · split
      · refine .of_cbs rfl rfl rfl fun k hk => inFlight_set hd hk fun k i hm => ?_
        unfold Dispatcher.retryVerification at hm
        split at hm <;> exact hm
      · exact .of_cbs rfl rfl rfl fun k hk => inFlight_set hd hk fun k i hm => hm
      · exact .of_cbs rfl rfl rfl fun k hk => hk
    · exact .refl

/-- The callback of a command is called with an error. -/
theorem callCb_moves (self : Nat) {cb : Cb ClientCb} {e : ErrorCode} (he : e.isError = true)
    (hA : ∀ k a, cb = .client k → k.commandCb.call e .nil = .ack a → A (k.op, a)) :
    Moves A v (callCb cfg ch.env v self cb e .nil) := by
  cases cb with
  | verifyConnectionReply => exact verifyConnectionReply_moves self e .nil
  | client k =>
    obtain ⟨a, ha⟩ := call_error k.commandCb he .nil
    have hcall : callCb cfg ch.env v self (.client k) e .nil =
      { v with acks := v.acks ++ [(k.op, a)] } := by
      simp only [callCb, ha, callAck]
      rfl
    rw [hcall]
    refine ⟨⟨[(k.op, a)], rfl, fun p hp => ?_⟩, rfl, fun _ h => h, fun _ h _ => h⟩
    rw [List.mem_singleton.mp hp]
    exact hA k a rfl ha

/-- `handleReply` for a command whose callback is called so that the client moves. -/
theorem handleReply_moves {cb : Nat} {e : ErrorCode} {reply : Reply}
    (hcb : ∀ d k v₀, v.dispatcher = some d → d.core.findCb cb = some k →
      Moves A v₀ (callCb cfg ch.env v₀ d.core.self k e reply)) :
    Moves A v (handleReply cfg ch.env v cb e reply) := by
  unfold handleReply
  split
  · exact .refl
  · rename_i d hd
    split
    · exact .of_cbs rfl rfl rfl fun k hk => hk
    · rename_i k hk
      have hcompleted : Moves A v { v with
        dispatcher := some { d with core := d.core.completed cb } } :=
        .of_cbs rfl rfl rfl fun k hk => inFlight_set hd hk fun k i hm => hm
      refine (hcompleted.trans (hcb d k _ hd hk)).trans (.of_cbs rfl rfl rfl fun k hk => ?_)
      exact inFlight_map hk fun d x hx => (List.mem_filter.mp hx).1

theorem mem_of_findCb {d : Core ClientCb} {i : Nat} {cb : Cb ClientCb} (h : d.findCb i = some cb) :
    (i, cb) ∈ d.cbs := by
  unfold Core.findCb at h
  obtain ⟨l, l', hcbs, -⟩ := List.lookup_eq_some_iff.mp h
  rw [hcbs]
  exact List.mem_append_right _ (List.mem_cons_self ..)

/-- The error of a null reply or of an error reply. -/
theorem isDispatcherError_getRedisError (err : ContextError) {rr : Option RedisReply}
    (h : ∀ r, rr ≠ some (.reply r)) : IsDispatcherError (getRedisError err rr) := by
  refine ⟨(getRedisError_isError err rr).mpr h, ?_⟩
  cases rr with
  | none => exact ⟨_, rfl⟩
  | some rr =>
    cases rr with
    | error text => exact ⟨_, rfl⟩
    | reply r => exact absurd rfl (h r)

/-- The commands of `P` fail with an error of the dispatcher. -/
abbrev Lost (P : ClientCb → Prop) : Nat × Ack → Prop := Fails fun k e => P k ∧ IsDispatcherError e

theorem handleReply_lost {P : ClientCb → Prop} (hP : ∀ k, InFlight v k → P k)
    (cb : Nat) {e : ErrorCode}
    (he : IsDispatcherError e) : Moves (Lost P) v (handleReply cfg ch.env v cb e .nil) := by
  refine handleReply_moves fun d k v₀ hd hk => callCb_moves _ he.1 fun k' a hk' ha => ?_
  subst hk'
  exact ⟨k', e, ⟨hP k' ⟨d, cb, hd, mem_of_findCb hk⟩, he⟩, he.1, rfl, ha⟩

theorem nullReplies_moves {P : ClientCb → Prop} (hP : ∀ k, InFlight v k → P k) (cbs : List Nat) :
    Moves (Lost P) v (nullReplies cfg ch.env v cbs) := by
  unfold nullReplies
  induction cbs generalizing v with
  | nil => exact .refl
  | cons cb cbs ih =>
    have he : IsDispatcherError (getRedisError ch.env.err none) := ⟨isError_nullReply _, _, rfl⟩
    have hstep : Moves (Lost P) v (handleReply cfg ch.env v cb
      (getRedisError ch.env.err none) .nil) :=
      handleReply_lost hP cb he
    exact hstep.trans (ih fun k hk => hP k (hstep.cbs k hk))

theorem setFreeing_moves (b : Bool) : Moves A v (setFreeing v b) :=
  .of_cbs rfl rfl rfl fun _ hk => inFlight_map hk fun _ _ hx => hx

theorem freeContext_moves {P : ClientCb → Prop} (hP : ∀ k, InFlight v k → P k)
    (d : Dispatcher ClientCb) :
    Moves (Lost P) v (freeContext cfg ch.env v d) := by
  have hset : Moves (Lost P) v (setFreeing v true) := setFreeing_moves true
  exact (hset.trans (nullReplies_moves (fun k hk => hP k (hset.cbs k hk)) _)).trans
    (setFreeing_moves false)

/-- Null replies to the commands of a dispatcher that is being destroyed. -/
theorem dropReplies_moves {P : ClientCb → Prop} (cbs : List Nat) {old : Core ClientCb}
    (hP : ∀ k i, (i, .client k) ∈ old.cbs → P k) :
    Moves (Lost P) v (cbs.foldl (dropReply cfg ch.env) (v, old)).1 := by
  induction cbs generalizing v old with
  | nil => exact .refl
  | cons cb cbs ih =>
    rw [List.foldl_cons]
    have he : IsDispatcherError (getRedisError ch.env.err none) := ⟨isError_nullReply _, _, rfl⟩
    cases hk : old.findCb cb with
    | none =>
      have hdrop : dropReply cfg ch.env (v, old) cb =
        ({ v with aborted := some invalidCallback }, old) := by
        simp only [dropReply, hk]
      rw [hdrop]
      have habort : Moves (Lost P) v { v with aborted := some invalidCallback } :=
        .of_cbs rfl rfl rfl fun _ h => h
      exact habort.trans (ih hP)
    | some k =>
      have hdrop : dropReply cfg ch.env (v, old) cb =
        (callCb cfg ch.env v old.self k (getRedisError ch.env.err none) .nil,
          (old.completed cb).removeCb cb) := by
        simp only [dropReply, hk]
      rw [hdrop]
      refine Moves.trans (callCb_moves _ he.1 fun k' a hk' ha => ?_) (ih fun k' i hm => ?_)
      · subst hk'
        exact ⟨k', _, ⟨hP k' cb (mem_of_findCb hk), he⟩, he.1, rfl, ha⟩
      · exact hP k' i (List.mem_filter.mp hm).1

theorem serviceStateChanged_moves (ok : Bool) :
    Moves (Lost (InFlight v)) v (serviceStateChanged cfg ch.env v ok) := by
  have hinst : Moves (Lost (InFlight v)) v
      { v with dispatcher := some (Dispatcher.new v.nextSelf ok), nextSelf := v.nextSelf + 1 } := by
    refine .of_cbs rfl rfl rfl ?_
    rintro k ⟨d, i, hd, hm⟩
    cases hd
    unfold Dispatcher.new Dispatcher.connect at hm
    split at hm <;> cases hm
  unfold serviceStateChanged
  split
  · rename_i old hold
    refine hinst.trans ?_
    unfold destroy
    split
    · exact .refl
    · exact dropReplies_moves _ fun k i hm => ⟨old, i, hold, hm⟩
  · exact hinst

/-- The verification is sent, or its failure is posted. -/
theorem verifyConnection_moves {d d' : Dispatcher ClientCb} (hd : v.dispatcher = some d)
    (hc : d'.core = d.core) (hlt : ∀ i ∈ d.core.cbs.map Prod.fst, i < d.core.nextCb) :
    Moves A v (verifyConnection ch.env v d') := by
  unfold verifyConnection Dispatcher.verifyConnection
  obtain ⟨c, hcv⟩ : ∃ c, c = { d'.core with serviceState := ServiceState.connectionVerification } :=
    ⟨_, rfl⟩
  have hcbs : c.cbs = d.core.cbs := by rw [hcv, hc]
  have hlt : ∀ i ∈ c.cbs.map Prod.fst, i < c.nextCb := by rw [hcv, hc]; exact hlt
  simp only [← hcv]
  rcases c.dispatchAsync_cases (ch.env.accept d'.core.nextCb) ch.env.err
    .verifyConnectionReply false hlt with
    ⟨e, n, -, he⟩ | ⟨-, -, he⟩ <;> rw [he]
  · refine ⟨⟨[], (List.append_nil _).symm, fun _ h => (by cases h)⟩, rfl, fun k hk => ?_,
      fun t ht hcl => ?_⟩
    · exact inFlight_set hd hk fun k i hm => hcbs ▸ hm
    · rcases List.mem_append.mp ht with ht | ht
      · exact ht
      · rw [List.map_singleton, List.mem_singleton] at ht
        subst ht
        exact hcl.elim
  · refine ⟨⟨[], (List.append_nil _).symm, fun _ h => (by cases h)⟩, rfl, fun k hk => ?_,
      fun t ht hcl => ?_⟩
    · refine inFlight_set hd hk fun k i hm => ?_
      rcases List.mem_append.mp hm with hm | hm
      · exact hcbs ▸ hm
      · cases List.mem_singleton.mp hm
    · rw [List.map_nil, List.append_nil] at ht
      exact ht

/-- The operation's ack is posted, or its callback with an error. -/
def Queued (v : Async.World) (p : Nat × Ack) : Prop :=
  .ack p.1 p.2 ∈ v.posted ∨ Fails (fun k e => ∃ self,
    .dispatcher (.callCommandCbWithError self (.client k) e) ∈ v.posted) p

theorem runTask_moves {t : Task} (hfailed : t.Failed) (ht : t ∈ v.posted) {v₀ : Async.World} :
    Moves (Queued v) v₀ (runTask cfg ch.env v₀ t) := by
  cases t with
  | ack n a =>
    have hrun : runTask cfg ch.env v₀ (.ack n a) = { v₀ with acks := v₀.acks ++ [(n, a)] } := by
      simp only [runTask, callAck]
      rfl
    rw [hrun]
    refine ⟨⟨[(n, a)], rfl, fun p hp => ?_⟩, rfl, fun _ h => h, fun _ h _ => h⟩
    rw [List.mem_singleton.mp hp]
    exact .inl ht
  | dispatcher p =>
    cases p with
    | connectAck a => exact .refl
    | callCommandCbWithError self cb e =>
      simp only [runTask, callCommandCbWithError]
      split
      · refine callCb_moves self hfailed fun k a hk ha => .inr ⟨k, e, ⟨self, ?_⟩, hfailed, rfl, ha⟩
        exact hk ▸ ht
      · exact .of_cbs rfl rfl rfl fun _ hk => hk

/-- What the acks of a client that are called without a reply of the server come from. -/
def Told (v : Async.World) (p : Nat × Ack) : Prop := Lost (InFlight v) p ∨ Queued v p

/-- An event that is not a reply of the server to an operation. -/
theorem step_other {e : Async.Event} (hi : Async.Inv none none [] v) (ho : isOther v e = true)
    (hs : Async.step cfg v (ch.env, e) = some v') : Moves (Told v) v v' := by
  have hlost : ∀ {v v' : Async.World}, Moves (Lost (InFlight v)) v v' → Moves (Told v) v v' :=
    fun h => h.mono fun _ => .inl
  cases e with
  | issue op => cases ho
  | serviceStateChanged ok => cases hs; exact hlost (serviceStateChanged_moves ok)
  | posted i =>
    obtain ⟨t, ht, rfl⟩ := Option.map_eq_some_iff.mp hs
    have hmem := List.mem_of_getElem? ht
    have htaken : Moves (Told v) v { v with posted := v.posted.eraseIdx i } :=
      ⟨⟨[], (List.append_nil _).symm, fun _ h => (by cases h)⟩, rfl, fun _ h => h,
        fun _ h _ => List.mem_of_mem_eraseIdx h⟩
    exact htaken.trans ((runTask_moves (hi.failed t hmem) hmem).mono fun _ => .inr)
  | connected =>
    obtain ⟨d, hd, hs⟩ := Option.bind_eq_some_iff.mp hs
    split at hs
    · cases hs; exact verifyConnection_moves hd rfl (hi.mid d hd).ok.lt
    · cases hs
  | connectFailed =>
    obtain ⟨d, hd, hs⟩ := Option.bind_eq_some_iff.mp hs
    split at hs
    · cases hs
      have hset : Moves (Told v) v { v with
        dispatcher := some { d with link := .none }.setDisconnected } :=
        .of_cbs rfl rfl rfl fun k hk => inFlight_set hd hk fun k i hm => hm
      exact hset.trans ((freeContext_moves hset.cbs d).mono fun _ => .inl)
    · cases hs
  | reply rr =>
    obtain ⟨d, hd, hs⟩ := Option.bind_eq_some_iff.mp hs
    obtain ⟨i, hi', rfl⟩ := Option.map_eq_some_iff.mp hs
    cases rr with
    | error text =>
      refine hlost (handleReply_lost (fun _ h => h) i
        (isDispatcherError_getRedisError _ fun r h => ?_))
      cases h
    | reply r =>
      -- The first command is the verification.
      refine handleReply_moves fun d' k v₀ hd' hk => ?_
      cases hd.symm.trans hd'
      cases k with
      | verifyConnectionReply => exact verifyConnectionReply_moves _ _ _
      | client k =>
        have hfirst : firstCb v = some (.client k) := by
          rw [firstCb, hd, Option.bind_some, hi', Option.bind_some, hk]
        simp only [isOther, hfirst] at ho
        cases ho
  | lost =>
    obtain ⟨d, hd, hs⟩ := Option.bind_eq_some_iff.mp hs
    split at hs
    · cases hs
      refine (hlost (freeContext_moves (fun _ h => h) d)).trans (.of_cbs rfl rfl rfl fun k hk => ?_)
      exact inFlight_map hk fun _ _ hx => hx
    · cases hs
  | timer ok =>
    obtain ⟨d, hd, hs⟩ := Option.bind_eq_some_iff.mp hs
    split at hs
    · cases hs
      refine .of_cbs rfl rfl rfl fun k hk => inFlight_set hd hk fun k i hm => ?_
      unfold Dispatcher.connect at hm
      split at hm <;> exact hm
    · cases hs; exact verifyConnection_moves hd rfl (hi.mid d hd).ok.lt
    · cases hs

/-- The reply of the server to an operation of the client. -/
theorem step_reply {k : ClientCb} {r : Reply} {a : Ack} (hk : firstCb v = some (.client k))
    (ha : k.commandCb.call .none r = .ack a)
    (hs : Async.step cfg v (ch.env, .reply (.reply r)) = some v') :
    Moves (· = (k.op, a)) v v' := by
  obtain ⟨d, hd, hs⟩ := Option.bind_eq_some_iff.mp hs
  obtain ⟨i, hi, rfl⟩ := Option.map_eq_some_iff.mp hs
  rw [firstCb, hd, Option.bind_some, hi, Option.bind_some] at hk
  refine handleReply_moves fun d' k' v₀ hd' hk' => ?_
  cases hd.symm.trans hd'
  cases hk.symm.trans hk'
  have hcall : callCb cfg ch.env v₀ d.core.self (.client k) .none r =
    { v₀ with acks := v₀.acks ++ [(k.op, a)] } := by
    simp only [callCb, ha, callAck]
    rfl
  show Moves _ v₀ (callCb cfg ch.env v₀ d.core.self (.client k) .none r)
  rw [hcall]
  exact ⟨⟨[(k.op, a)], rfl, fun p hp => List.mem_singleton.mp hp⟩, rfl,
    fun _ h => h, fun _ h _ => h⟩

end Client

end Clients
end Sdl
