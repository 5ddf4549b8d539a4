import SharedDataLayer.Async.Moves
import SharedDataLayer.Redis.Store
import SharedDataLayer.Spec.History

/-!
# Any number of clients on one database

Every client is a storage with its engine and its dispatcher, as in `Async/System.lean`: it is
discovered, connects and verifies, loses its connection and its commands, and connects again. The
clients share the server. A command that hiredis has accepted is on its way (`Sent`); the server
executes it at any time from then on, also after the client has seen its connection lost, and at
most once. A reply that is not an error is that of the server.

The operations are those of `Redis/Store.lean`, one command each. What the clients see of them is a
history (`Spec/History.lean`): an operation takes effect when the server executes its command, and
one that needs no command when it is issued. An ack with an error of the dispatcher says nothing
about the effect (`Definite`).

* `Inv`: the callbacks and the commands of every client, with what the history says of them.
* `clients_linearizable`: the history of every run is explained by the abstract store.
-/

namespace Sdl
namespace Clients

open Spec Redis Hiredis Async

/-! ## The system -/

/-- A command that hiredis has accepted from a client, with the number of the operation there, and
the reply of the server once it has executed the command. -/
structure Sent where
  client : Nat
  number : Nat
  op : StoreOp
  contents : Contents
  reply : Option Reply

/-- The name of the operation among those of all clients. -/
def Sent.call (s : Sent) : Nat × Nat := (s.client, s.number)

structure World where
  server : Server
  client : Nat → Async.World
  sent : List Sent
  history : List (Moment (Nat × Nat) StoreOp Ack)

/-- The ack reports the outcome of the operation. -/
def Definite (a : Ack) : Prop := a.error = .none ∨ a.error = .storage .invalidNamespace

instance (a : Ack) : Decidable (Definite a) := inferInstanceAs (Decidable (_ ∨ _))

inductive Event where
  /-- The client `c` issues an operation. -/
  | issue (c : Nat) (op : StoreOp) (ch : Choice)
  /-- The server executes the command `i`. -/
  | execute (i : Nat) (r : Choices)
  /-- The reply of the server to the first pending command of the client `c`. -/
  | reply (c : Nat) (ch : Choice)
  /-- Another event of the client `c`. -/
  | other (c : Nat) (ch : Choice) (e : Async.Event)

variable (cfg : Nat → Config)

/-- The client `c` after a step of its own, with the acks that were called in it. -/
def World.update (w : World) (c : Nat) (v : Async.World) : World :=
  { w with
    client := Function.update w.client c v
    history := w.history ++ (v.acks.drop (w.client c).acks.length).map fun p =>
      .acked (c, p.1) p.2 }

def issue (w : World) (c : Nat) (op : StoreOp) (ch : Choice) : World :=
  let v := w.client c
  let v' := Async.issue (cfg c) ch.env v op.toOp
  let issued := { w with client := Function.update w.client c v',
                         history := w.history ++ [.issued (c, v.nextOp) op] }
  match op.toOp.request (cfg c) v.dispatcher.isSome with
  | .postCallback a =>
    if Definite a then { issued with history := issued.history ++ [.executed (c, v.nextOp) op] }
    else issued
  | .dispatchAsync _ _ contents =>
    -- A command that is not accepted leaves a posted callback.
    if v'.posted.length = v.posted.length then
      { issued with sent := w.sent ++ [⟨c, v.nextOp, op, contents, none⟩] }
    else issued

def execute (w : World) (i : Nat) (r : Choices) : Option World :=
  (w.sent[i]?).bind fun s =>
    match s.reply with
    | some _ => none
    | none => (exec r w.server s.contents.argv).map fun p =>
      { w with
        server := p.2
        sent := w.sent.set i { s with reply := some p.1 }
        history := w.history ++ [.executed s.call s.op] }

/-- The reply of the server to the first pending command of the client. -/
def World.reply (w : World) (c : Nat) : Option Reply :=
  match firstCb (w.client c) with
  | some (.client k) => (w.sent.find? fun s => s.call = (c, k.op)).bind Sent.reply
  | _ => none

def step (w : World) : Event → Option World
  | .issue c op ch => if (w.client c).aborted.isSome then none else some (issue cfg w c op ch)
  | .execute i r => execute w i r
  | .reply c ch => (w.reply c).bind fun r =>
    ((Async.sys (cfg c)).step (w.client c) (ch.env, .reply (.reply r))).map (w.update c)
  | .other c ch e =>
    if isOther (w.client c) e then ((Async.sys (cfg c)).step (w.client c) (ch.env, e)).map
      (w.update c) else none

/-- Clients before discovery, and a server with any data. -/
def sys (server : Server) : Sys World Event where
  init := ⟨server, fun c => (Async.sys (cfg c)).init, [], []⟩
  step := step cfg

/-! ## The invariant -/

section Invariant

variable (st : Store) (h : List (Moment (Nat × Nat) StoreOp Ack))

/-- The ack of the client `c` is explained by the history. -/
def AckOk (c : Nat) (p : Nat × Ack) : Prop :=
  ∃ o, .issued (c, p.1) o ∈ h ∧ (Definite p.2 → History.Answered StoreOp.spec st h (c, p.1) o p.2)

def TaskOk (c : Nat) : Task → Prop
  | .ack n a => AckOk st h c (n, a)
  | .dispatcher (.callCommandCbWithError _ (.client k) e) => (∃ o, .issued (c, k.op) o ∈ h) ∧
    IsDispatcherError e
  | .dispatcher _ => True

/-- A command is that of an operation that was issued. It has a reply once the operation has taken
effect, and then the callback of the command calls the ack that the abstract store gives. -/
structure SentOk (s : Sent) : Prop where
  issued : .issued s.call s.op ∈ h
  request : s.op.toOp.request (cfg s.client) true = .dispatchAsync s.op.commandCb s.op.ns s.contents
  waiting : s.reply = none → s.call ∉ (History.executed h).map Prod.fst
  replied : ∀ r, s.reply = some r →
    ∃ a, s.op.commandCb.call .none r = .ack a ∧ History.Answered StoreOp.spec st h s.call s.op a

/-- The acks of the client `c` in the history. -/
def acksOf (c : Nat) : List (Nat × Ack) :=
  (History.acked h).filterMap fun p => if p.1.1 = c then some (p.1.2, p.2) else none

structure Inv (w : World) : Prop where
  clients : ∀ c, Async.Inv none none [] (w.client c)
  issued : ∀ c n, (c, n) ∈ History.issued w.history → n < (w.client c).nextOp
  acks : ∀ c, acksOf w.history c = (w.client c).acks
  once : (w.sent.map Sent.call).Nodup
  sent : ∀ s ∈ w.sent, SentOk cfg st w.history s
  cbs : ∀ c k, InFlight (w.client c) k → ∃ s ∈ w.sent, s.call = (c, k.op) ∧
    s.op.commandCb = k.commandCb
  posted : ∀ c, ∀ t ∈ (w.client c).posted, TaskOk st w.history c t
  store : abs w.server = History.after StoreOp.spec st w.history
  linear : History.Linear StoreOp.spec Definite st w.history

end Invariant

section Steps

variable {cfg : Nat → Config} {st : Store} {h : List (Moment (Nat × Nat) StoreOp Ack)}
    {w : World} {c : Nat}

theorem AckOk.append {p : Nat × Ack} (ha : AckOk st h c p)
    (k : List (Moment (Nat × Nat) StoreOp Ack)) :
    AckOk st (h ++ k) c p := by
  obtain ⟨o, hi, hd⟩ := ha
  exact ⟨o, List.mem_append_left _ hi, fun hdef => (hd hdef).append k⟩

theorem TaskOk.append {t : Task} (ht : TaskOk st h c t)
    (k : List (Moment (Nat × Nat) StoreOp Ack)) :
    TaskOk st (h ++ k) c t := by
  cases t with
  | ack n a => exact AckOk.append ht k
  | dispatcher p =>
    cases p with
    | connectAck a => trivial
    | callCommandCbWithError self cb e =>
      cases cb with
      | verifyConnectionReply => trivial
      | client kb =>
        obtain ⟨⟨o, hi⟩, he⟩ := ht
        exact ⟨⟨o, List.mem_append_left _ hi⟩, he⟩

/-- A command stays as it is while other operations take effect. -/
theorem SentOk.append {s : Sent} (hs : SentOk cfg st h s)
    {k : List (Moment (Nat × Nat) StoreOp Ack)}
    (hk : s.reply = none → s.call ∉ (History.executed k).map Prod.fst) :
    SentOk cfg st (h ++ k) s := by
  refine ⟨List.mem_append_left _ hs.issued, hs.request, fun hr => ?_, fun r hr => ?_⟩
  · rw [History.executed_append, List.map_append, List.mem_append]
    exact fun hm => hm.elim (hs.waiting hr) (hk hr)
  · obtain ⟨a, ha, hans⟩ := hs.replied r hr
    exact ⟨a, ha, hans.append k⟩

/-- The ack of a failed command is not definite. -/
theorem not_definite {cb : CommandCb} {e : ErrorCode} {reply : Reply} {a : Ack}
    (he : IsDispatcherError e) (ha : cb.call e reply = .ack a) : ¬ Definite a := by
  obtain ⟨herr, code, rfl⟩ := he
  have hea : a.error = .dispatcher code := by
    rcases ErrorClass.error_of_call ha with h | ⟨h, -⟩
    · exact h
    · rw [herr] at h
      cases h
  unfold Definite
  rw [hea]
  rintro (h | h) <;> cases h

theorem mem_acked_iff {n : Nat} :
    (c, n) ∈ (History.acked h).map Prod.fst ↔ n ∈ (acksOf h c).map Prod.fst := by
  unfold acksOf
  simp only [List.mem_map, List.mem_filterMap]
  constructor
  · rintro ⟨⟨q, a⟩, hq, he⟩
    cases he
    exact ⟨(n, a), ⟨((c, n), a), hq, if_pos rfl⟩, rfl⟩
  · rintro ⟨⟨m, a⟩, ⟨⟨⟨c', m'⟩, a'⟩, hq, he⟩, rfl⟩
    simp only at he
    split at he
    · rename_i hc
      cases he
      exact ⟨_, hq, by rw [hc]⟩
    · cases he

theorem acksOf_append (k : List (Moment (Nat × Nat) StoreOp Ack)) :
    acksOf (h ++ k) c = acksOf h c ++ acksOf k c := by
  unfold acksOf
  rw [History.acked_append, List.filterMap_append]

/-- The acks that a client has called since. -/
theorem acksOf_acks (c' : Nat) (L : List (Nat × Ack)) :
    acksOf ((L.map fun p => ((c, p.1), p.2)).map fun p => .acked p.1 p.2) c' =
      if c' = c then L else [] := by
  unfold acksOf
  rw [History.acked_acks, List.filterMap_map]
  by_cases hc : c' = c
  · subst hc
    rw [if_pos rfl]
    refine Eq.trans (List.filterMap_congr fun p _ => ?_) List.filterMap_some
    simp
  · rw [if_neg hc]
    refine List.filterMap_eq_nil_iff.mpr fun p _ => ?_
    simp [Ne.symm hc]

/-- A client moves, and every ack that it calls is explained. -/
theorem Inv.update (hw : Inv cfg st w) {A : Nat × Ack → Prop} {v : Async.World}
    (hm : Moves A (w.client c) v)
    (hA : ∀ p, A p → AckOk st w.history c p) (hi : Async.Inv none none [] v) :
    Inv cfg st (w.update c v) := by
  obtain ⟨L, hL, hLA⟩ := hm.acks
  have hdrop : v.acks.drop (w.client c).acks.length = L := by rw [hL, List.drop_left]
  obtain ⟨k, hk⟩ : ∃ k : List (Moment (Nat × Nat) StoreOp Ack),
      k = (L.map fun p => ((c, p.1), p.2)).map fun p => .acked p.1 p.2 := ⟨_, rfl⟩
  have hhist : (w.update c v).history = w.history ++ k := by
    rw [World.update, hdrop, hk, List.map_map]
    rfl
  have hiss : History.issued (w.history ++ k) = History.issued w.history := by
    rw [History.issued_append, hk, History.issued_acks, List.append_nil]
  have hexec : History.executed k = [] := by rw [hk, History.executed_acks]
  have hclient : ∀ x, (w.update c v).client x = if x = c then v else w.client x :=
    fun x => Function.update_apply w.client c v x
  -- No operation is acknowledged twice.
  have hnodup : (v.acks.map Prod.fst).Nodup := by
    rw [List.nodup_iff_count_le_one]
    intro n
    have ht := hi.tokens n
    unfold World.count at ht
    split at ht <;> omega
  rw [hL, List.map_append, List.nodup_append] at hnodup
  refine ⟨fun x => ?_, fun x n hx => ?_, fun x => ?_, hw.once, fun s hs => ?_, fun x kb hx => ?_,
    fun x t ht => ?_, ?_, ?_⟩
  · rw [hclient]
    split
    · exact hi
    · exact hw.clients x
  · rw [hhist, hiss] at hx
    have := hw.issued x n hx
    rw [hclient]
    split
    · rename_i hxc
      rw [hm.nextOp, ← hxc]
      exact this
    · exact this
  · rw [hhist, acksOf_append, hk, acksOf_acks, hw.acks, hclient]
    split
    · rename_i hxc
      rw [hL, hxc]
    · exact List.append_nil _
  · rw [hhist]
    refine (hw.sent s hs).append fun _ hmem => ?_
    rw [hexec] at hmem
    cases hmem
  · rw [hclient] at hx
    split at hx
    · rename_i hxc
      subst hxc
      exact hw.cbs x kb (hm.cbs kb hx)
    · exact hw.cbs x kb hx
  · rw [hhist]
    rw [hclient] at ht
    split at ht
    · rename_i hxc
      subst hxc
      by_cases hcl : IsClient t
      · exact (hw.posted x t (hm.posted t ht hcl)).append k
      · cases t with
        | ack n a => exact absurd trivial hcl
        | dispatcher p =>
          cases p with
          | connectAck a => trivial
          | callCommandCbWithError self cb e =>
            cases cb with
            | verifyConnectionReply => trivial
            | client kb => exact absurd trivial hcl
    · exact (hw.posted x t ht).append k
  · show abs w.server = _
    rw [hhist, hw.store]
    unfold History.after
    rw [History.executed_append, hexec, List.append_nil]
  · rw [hhist, hk]
    refine hw.linear.acks ?_ (fun p hp hmem => ?_) fun p hp => ?_
    · rw [List.map_map]
      have hinj : Function.Injective (Prod.mk c : Nat → Nat × Nat) :=
        fun a b hab => (Prod.mk.inj hab).2
      have := hnodup.2.1.map hinj
      rwa [List.map_map] at this
    · obtain ⟨q, hq, rfl⟩ := List.mem_map.mp hp
      rw [mem_acked_iff, hw.acks] at hmem
      exact hnodup.2.2 _ hmem _ (List.mem_map_of_mem hq) rfl
    · obtain ⟨q, hq, rfl⟩ := List.mem_map.mp hp
      exact hA q (hLA q hq)

/-- A command is still there when one of them gets its reply. -/
theorem exists_replied {sent : List Sent} {i : Nat} {s s' : Sent} (hi : sent[i]? = some s)
    {t : Sent} (ht : t ∈ sent) :
    t ∈ sent.set i s' ∨ (t = s ∧ s' ∈ sent.set i s') := by
  obtain ⟨hlt, -⟩ := List.getElem?_eq_some_iff.mp hi
  obtain ⟨j, hj⟩ := List.mem_iff_getElem?.mp ht
  by_cases hij : i = j
  · subst hij
    exact .inr ⟨Option.some.inj (hj.symm.trans hi), List.mem_set hlt s'⟩
  · refine .inl (List.mem_of_getElem? (i := j) ?_)
    rw [List.getElem?_set_ne hij]
    exact hj

/-- The server executes a command. -/
theorem Inv.execute (hw : Inv cfg st w) {i : Nat} {r : Choices} {w' : World}
    (hs : execute w i r = some w') :
    Inv cfg st w' := by
  obtain ⟨s, hi, hs⟩ := Option.bind_eq_some_iff.mp hs
  split at hs
  · cases hs
  rename_i hnone
  obtain ⟨⟨reply, server⟩, hx, rfl⟩ := Option.map_eq_some_iff.mp hs
  have hmem := List.mem_of_getElem? hi
  have hok := hw.sent s hmem
  -- What the command does is what the abstract operation does.
  obtain ⟨server', hperform, habs, -⟩ := perform_spec (cfg s.client) r w.server s.op
  rw [hok.request, perform, hx, Option.map_some] at hperform
  obtain ⟨hcall, rfl⟩ := Prod.mk.inj (Option.some.inj hperform)
  have hans : History.Answered StoreOp.spec st (w.history ++ [.executed s.call s.op]) s.call s.op
      (s.op.spec (abs w.server)).1 := ⟨w.history, [], rfl, by rw [hw.store]⟩
  have hcalls : (w.sent.set i { s with reply := some reply }).map Sent.call =
    w.sent.map Sent.call :=
    History.map_name_set hi rfl
  refine ⟨hw.clients, fun x n hn => ?_, fun x => ?_, hcalls ▸ hw.once, fun t ht => ?_,
    fun x k hk => ?_,
    fun x t ht => (hw.posted x t ht).append _, ?_, hw.linear.execute hok.issued (hok.waiting hnone)⟩
  · rw [History.issued_append] at hn
    rcases List.mem_append.mp hn with hn | hn
    · exact hw.issued x n hn
    · cases hn
  · rw [acksOf_append, hw.acks]
    exact List.append_nil _
  · rcases History.mem_set_name hw.once hi ht with rfl | ⟨ht, hne⟩
    · refine ⟨List.mem_append_left _ hok.issued, hok.request, fun hn => (by cases hn),
        fun r' hr' => ?_⟩
      cases hr'
      exact ⟨_, hcall, hans⟩
    · refine (hw.sent t ht).append fun _ hm => hne ?_
      simpa [History.executed, History.executedCall] using hm
  · obtain ⟨t, ht, htc, htk⟩ := hw.cbs x k hk
    rcases @exists_replied _ _ _ { s with reply := some reply } hi t ht with ht | ⟨rfl, ht⟩
    · exact ⟨t, ht, htc, htk⟩
    · exact ⟨_, ht, htc, htk⟩
  · rw [History.after_executed, ← hw.store]
    exact habs

/-- A posted ack that is definite is that of the abstract operation, which changes nothing. -/
theorem spec_of_posted {cfg : Config} {dispatcher : Bool} {op : StoreOp} {a : Ack}
    (hr : op.toOp.request cfg dispatcher = .postCallback a) (hd : Definite a) (s : Store) :
    op.spec s = (a, s) := by
  unfold StoreOp.spec
  by_cases hv : isValidNamespace op.ns = true
  · by_cases hk : op.toOp.noKeysGiven = true
    · rw [Op.request_empty cfg dispatcher hv hk] at hr
      cases hr
      rw [if_pos hv, StoreOp.act_empty hk, Function.update_eq_self]
    · -- Otherwise there is no dispatcher yet.
      exfalso
      have hk : op.toOp.noKeysGiven = false := by simpa using hk
      cases dispatcher with
      | true =>
        obtain ⟨contents, hc, -⟩ := StoreOp.request_dispatch cfg hv hk
        rw [hc] at hr
        cases hr
      | false =>
        obtain ⟨n, cb, contents, he, hn, -⟩ := op.toOp.request_eq cfg false
        have hn : n ≠ some true := fun h => by rw [hn.mpr h] at hk; cases hk
        have hv : isValidNamespace op.toOp.ns = true := hv
        rw [he, operation, canOperationBePerformed] at hr
        simp only [hv, hn, Bool.not_true, Bool.false_eq_true, if_false,
          Bool.not_false, if_true] at hr
        cases hr
        rw [Definite, Op.error_refuse] at hd
        rcases hd with h | h <;> cases h
  · rw [Op.request_invalid cfg dispatcher (Bool.eq_false_iff.mpr hv)] at hr
    cases hr
    rw [if_neg hv]

/-- A command that is dispatched is the one of the operation. -/
theorem request_of_dispatched {cfg : Config} {dispatcher : Bool} {op : StoreOp}
    {cb : CommandCb} {ns : Namespace}
    {contents : Contents} (hr : op.toOp.request cfg dispatcher = .dispatchAsync cb ns contents) :
    cb = op.commandCb ∧ op.toOp.request cfg true = .dispatchAsync op.commandCb op.ns contents := by
  obtain rfl := Op.request_dispatcher cfg dispatcher hr
  by_cases hv : isValidNamespace op.ns = true
  · by_cases hk : op.toOp.noKeysGiven = true
    · rw [Op.request_empty cfg true hv hk] at hr
      cases hr
    · obtain ⟨contents', hc, -⟩ := StoreOp.request_dispatch cfg hv (by simpa using hk)
      rw [hc] at hr
      cases hr
      exact ⟨rfl, hc⟩
  · rw [Op.request_invalid cfg true (Bool.eq_false_iff.mpr hv)] at hr
    cases hr

/-- The callback that a refused command posts. -/
theorem dispatchAsync_refused {d : Core ClientCb} {accept : Bool} {err : ContextError}
    {cb : Cb ClientCb}
    {check : Bool} {p : Posted ClientCb} (hp : p ∈ (d.dispatchAsync accept err cb check).2) :
    ∃ self e, p = .callCommandCbWithError self cb e ∧ IsDispatcherError e := by
  unfold Core.dispatchAsync at hp
  split at hp
  · exact ⟨_, _, List.mem_singleton.mp hp, rfl, _, rfl⟩
  · simp only at hp
    split at hp
    · cases hp
    · exact ⟨_, _, List.mem_singleton.mp hp, isError_nullReply err, _, rfl⟩

/-- The number of the next operation of a client is new. -/
theorem Inv.fresh (hw : Inv cfg st w) (c : Nat) :
    (c, (w.client c).nextOp) ∉ History.issued w.history :=
  fun hm => Nat.lt_irrefl _ (hw.issued c _ hm)

/-- The client `c` has issued an operation, and is `v` now. -/
theorem Inv.called (hw : Inv cfg st w) {v : Async.World} {k : List (Moment (Nat × Nat) StoreOp Ack)}
    {sent : List Sent} (hi : Async.Inv none none [] v) (hnext : v.nextOp = (w.client c).nextOp + 1)
    (hacks : v.acks = (w.client c).acks) (hiss : History.issued k = [(c, (w.client c).nextOp)])
    (hacked : History.acked k = []) (hlin : History.Linear StoreOp.spec Definite st
      (w.history ++ k))
    (hafter : History.after StoreOp.spec st (w.history ++ k) =
      History.after StoreOp.spec st w.history)
    (honce : (sent.map Sent.call).Nodup) (hsent : ∀ s ∈ sent, SentOk cfg st (w.history ++ k) s)
    (hsub : ∀ s ∈ w.sent, s ∈ sent)
    (hcbs : ∀ kb, InFlight v kb → InFlight (w.client c) kb ∨
      ∃ s ∈ sent, s.call = (c, kb.op) ∧ s.op.commandCb = kb.commandCb)
    (hposted : ∀ t ∈ v.posted, t ∈ (w.client c).posted ∨ TaskOk st (w.history ++ k) c t) :
    Inv cfg st ⟨w.server, Function.update w.client c v, sent, w.history ++ k⟩ := by
  obtain ⟨client, hclient⟩ : ∃ client, client = Function.update w.client c v := ⟨_, rfl⟩
  rw [← hclient]
  have hclient : ∀ x, client x = if x = c then v else w.client x :=
    fun x => hclient ▸ Function.update_apply w.client c v x
  refine ⟨fun x => ?_, fun x n hn => ?_, fun x => ?_, honce, hsent, fun x kb hx => ?_,
    fun x t ht => ?_, hw.store.trans hafter.symm, hlin⟩
  · show Async.Inv none none [] (client x)
    rw [hclient]
    split
    · exact hi
    · exact hw.clients x
  · rw [History.issued_append, hiss] at hn
    show n < (client x).nextOp
    rw [hclient]
    rcases List.mem_append.mp hn with hn | hn
    · have hlt := hw.issued x n hn
      split
      · rename_i hxc
        rw [hnext, ← hxc]
        omega
      · exact hlt
    · cases List.mem_singleton.mp hn
      rw [if_pos rfl, hnext]
      omega
  · have hnil : acksOf k x = [] := by rw [acksOf, hacked]; rfl
    show acksOf (w.history ++ k) x = (client x).acks
    rw [acksOf_append, hnil, List.append_nil, hw.acks, hclient]
    split
    · rename_i hxc
      rw [hacks, hxc]
    · rfl
  · have hold : ∀ x, InFlight (w.client x) kb → ∃ s ∈ sent, s.call = (x, kb.op) ∧
      s.op.commandCb = kb.commandCb := by
      intro x hx
      obtain ⟨s, hs, hsc⟩ := hw.cbs x kb hx
      exact ⟨s, hsub s hs, hsc⟩
    have hx : InFlight (client x) kb := hx
    rw [hclient] at hx
    split at hx
    · rename_i hxc
      subst hxc
      exact (hcbs kb hx).elim (hold x) id
    · exact hold x hx
  · have ht : t ∈ (client x).posted := ht
    rw [hclient] at ht
    split at ht
    · rename_i hxc
      subst hxc
      exact (hposted t ht).elim (fun ht => (hw.posted x t ht).append k) id
    · exact (hw.posted x t ht).append k

theorem Inv.issue (hw : Inv cfg st w) (op : StoreOp) (ch : Choice) :
    Inv cfg st (issue cfg w c op ch) := by
  obtain ⟨n, hn⟩ : ∃ n, n = (w.client c).nextOp := ⟨_, rfl⟩
  have hi : Async.Inv none none [] (Async.issue (cfg c) ch.env (w.client c) op.toOp) :=
    (hw.clients c).issue op.toOp
  have hfresh : (c, n) ∉ History.issued w.history := hn ▸ hw.fresh c
  have hlin := hw.linear.issue hfresh op
  have hsent : ∀ k : List (Moment (Nat × Nat) StoreOp Ack),
    (∀ x ∈ (History.executed k).map Prod.fst, x = (c, n)) →
      ∀ s ∈ w.sent, SentOk cfg st (w.history ++ k) s := by
    intro k hk s hs
    refine (hw.sent s hs).append fun _ hm => hfresh ?_
    rw [← hk _ hm]
    exact History.mem_issued.mpr ⟨_, (hw.sent s hs).issued⟩
  have hissued : ∀ k, Moment.issued (c, n) op ∈ w.history ++ (.issued (c, n) op :: k) :=
    fun k => List.mem_append_right _ (List.mem_cons_self ..)
  unfold Clients.issue
  simp only [← hn]
  unfold Async.issue at hi ⊢
  rw [← hn] at hi ⊢
  cases hr : op.toOp.request (cfg c) (w.client c).dispatcher.isSome with
  | postCallback a =>
    rw [hr] at hi
    have hposted : ∀ k, (Definite a → History.Answered StoreOp.spec st
      (w.history ++ (.issued (c, n) op :: k)) (c, n) op a) →
        ∀ t ∈ (w.client c).posted ++ [.ack n a], t ∈ (w.client c).posted ∨
          TaskOk st (w.history ++ (.issued (c, n) op :: k)) c t := by
      intro k hk t ht
      refine (List.mem_append.mp ht).imp_right fun ht => ?_
      rw [List.mem_singleton.mp ht]
      exact ⟨op, hissued k, hk⟩
    by_cases hd : Definite a
    · -- The operation takes effect at once.
      have hspec := spec_of_posted hr hd
      simp only [hd, if_true, List.append_assoc, List.singleton_append]
      have hlin' : History.Linear StoreOp.spec Definite st (w.history ++ [.issued (c, n) op,
        .executed (c, n) op]) := by
        have := hlin.execute (n := (c, n)) (o := op) (hissued []) fun hm =>
          hfresh (hw.linear.issued_of_executed ?_)
        · rwa [List.append_assoc] at this
        · rw [History.executed_append, List.map_append] at hm
          exact (List.mem_append.mp hm).elim id fun hm => (by cases hm)
      have hafter : History.after StoreOp.spec st (w.history ++ [.issued (c, n) op,
        .executed (c, n) op]) =
          History.after StoreOp.spec st w.history := by
        rw [List.append_cons, History.after_executed, History.after_issued, hspec]
      refine hw.called hi (by rw [← hn]; rfl) rfl (by rw [← hn]; rfl) rfl hlin' hafter hw.once
        (hsent _ fun x hx => List.mem_singleton.mp hx) (fun s hs => hs) (fun kb hk => .inl hk) ?_
      refine hposted _ fun _ => ⟨w.history ++ [.issued (c, n) op], [], (List.append_cons ..), ?_⟩
      rw [hspec]
    · simp only [hd, if_false]
      exact hw.called hi (by rw [← hn]; rfl) rfl
        (by rw [← hn]; rfl) rfl hlin History.after_issued hw.once
        (hsent _ fun x hx => (by cases hx)) (fun s hs => hs)
          (fun kb hk => .inl hk) (hposted [] fun h => absurd h hd)
  | dispatchAsync cb ns contents =>
    obtain ⟨rfl, hrequest⟩ := request_of_dispatched hr
    obtain ⟨d, hd⟩ := Option.isSome_iff_exists.mp (Op.request_dispatcher (cfg c) _ hr)
    rw [hr] at hi
    simp only [request, hd] at hi ⊢
    have hrefused := @dispatchAsync_refused d.core (ch.env.accept d.core.nextCb) ch.env.err
      (.client ⟨n, op.commandCb⟩) true
    rcases d.core.dispatchAsync_cases (ch.env.accept d.core.nextCb) ch.env.err
      (.client ⟨n, op.commandCb⟩) true
      ((hw.clients c).mid d hd).ok.lt with ⟨e, m, -, he⟩ | ⟨-, -, he⟩ <;> rw [he] at hi hrefused ⊢
    · -- The command is refused, and its callback is posted.
      obtain ⟨_, _, hp, hde⟩ := hrefused (List.mem_cons_self ..)
      cases hp
      have hlen : ((w.client c).posted ++
        [Posted.callCommandCbWithError d.core.self (.client ⟨n, op.commandCb⟩) e].map
          Task.dispatcher).length ≠ (w.client c).posted.length := by
        rw [List.length_append, List.length_map, List.length_singleton]
        omega
      simp only [hlen, if_false]
      refine hw.called hi (by rw [← hn]) rfl
        (by rw [← hn]; rfl) rfl hlin History.after_issued hw.once
        (hsent _ fun x hx => (by cases hx)) (fun s hs => hs)
        (fun kb hk => .inl (inFlight_set hd hk fun k i hm => hm)) fun t ht => ?_
      refine (List.mem_append.mp ht).imp_right fun ht => ?_
      rw [List.mem_singleton.mp ht]
      exact ⟨⟨op, hissued []⟩, hde⟩
    · -- The command is on its way.
      have hlen : ((w.client c).posted ++
        ([] : List (Posted ClientCb)).map Task.dispatcher).length =
          (w.client c).posted.length := by
        rw [List.map_nil, List.append_nil]
      simp only [hlen, if_true]
      have hcalls : ∀ s ∈ w.sent, s.call ≠ (c, n) := fun s hs hcall =>
        hfresh (hcall ▸ History.mem_issued.mpr ⟨_, (hw.sent s hs).issued⟩)
      refine hw.called hi (by rw [← hn]) rfl (by rw [← hn]; rfl) rfl hlin History.after_issued ?_
        (fun s hs => ?_)
        (fun s hs => List.mem_append_left _ hs) (fun kb hk => ?_) fun t ht => ?_
      · rw [List.map_append, List.map_singleton]
        refine List.Nodup.append hw.once (List.nodup_singleton _) fun x hx hx' => ?_
        obtain ⟨s, hs, rfl⟩ := List.mem_map.mp hx
        exact hcalls s hs (List.mem_singleton.mp hx')
      · rcases List.mem_append.mp hs with hs | hs
        · exact hsent _ (fun x hx => by cases hx) s hs
        · cases List.mem_singleton.mp hs
          refine ⟨hissued [], hrequest, fun _ hm => hfresh (hw.linear.issued_of_executed ?_),
            fun r hr => by cases hr⟩
          rw [History.executed_append, List.map_append] at hm
          exact (List.mem_append.mp hm).elim id fun hm => (by cases hm)
      · obtain ⟨d', i, hdk, hm⟩ := hk
        cases hdk
        rcases List.mem_append.mp hm with hm | hm
        · exact .inl ⟨d, i, hd, hm⟩
        · cases List.mem_singleton.mp hm
          exact .inr ⟨_, List.mem_append_right _ (List.mem_cons_self ..), rfl, rfl⟩
      · left
        rwa [List.map_nil, List.append_nil] at ht

/-- What a client calls without a reply of the server is explained. -/
theorem Inv.told (hw : Inv cfg st w) {p : Nat × Ack} (hp : Told (w.client c) p) :
    AckOk st w.history c p := by
  have hfails : ∀ (k : ClientCb) (e : ErrorCode), (∃ o, .issued (c, k.op) o ∈ w.history) →
    IsDispatcherError e → k.op = p.1 →
      k.commandCb.call e .nil = .ack p.2 → AckOk st w.history c p := by
    rintro k e ⟨o, ho⟩ he hk ha
    exact ⟨o, hk ▸ ho, fun hd => absurd hd (not_definite he ha)⟩
  rcases hp with ⟨k, e, ⟨hk, he⟩, -, hop, ha⟩ | hp | ⟨k, e, ⟨self, hmem⟩, -, hop, ha⟩
  · obtain ⟨s, hs, hcall, -⟩ := hw.cbs c k hk
    exact hfails k e ⟨s.op, hcall ▸ (hw.sent s hs).issued⟩ he hop ha
  · exact hw.posted c _ hp
  · obtain ⟨ho, he⟩ := hw.posted c _ hmem
    exact hfails k e ho he hop ha

theorem Inv.step (hw : Inv cfg st w) {e : Event} {w' : World} (hs : step cfg w e = some w') :
    Inv cfg st w' := by
  cases e with
  | issue c op ch =>
    simp only [Clients.step] at hs
    split at hs
    · cases hs
    · cases hs
      exact hw.issue op ch
  | execute i r => exact hw.execute hs
  | reply c ch =>
    obtain ⟨r, hr, hs⟩ := Option.bind_eq_some_iff.mp hs
    obtain ⟨v, hv, rfl⟩ := Option.map_eq_some_iff.mp hs
    have hv := Async.sys_step hv
    unfold World.reply at hr
    split at hr
    · rename_i k hk
      obtain ⟨s, hfind, hreply⟩ := Option.bind_eq_some_iff.mp hr
      have hmem := List.mem_of_find?_eq_some hfind
      have hcall : s.call = (c, k.op) := by simpa using List.find?_some hfind
      obtain ⟨a, ha, hans⟩ := (hw.sent s hmem).replied r hreply
      -- The callback is that of the command.
      obtain ⟨d, hd, hfirst⟩ := Option.bind_eq_some_iff.mp hk
      obtain ⟨i, -, hfirst⟩ := Option.bind_eq_some_iff.mp hfirst
      obtain ⟨t, ht, htc, htk⟩ := hw.cbs c k ⟨d, i, hd, mem_of_findCb hfirst⟩
      have hts : t = s := List.inj_on_of_nodup_map hw.once ht hmem (htc.trans hcall.symm)
      subst hts
      rw [htk] at ha
      refine hw.update (step_reply hk ha hv) (fun p hp => ?_) ((hw.clients c).step hv)
      subst hp
      refine ⟨t.op, ?_, fun _ => ?_⟩
      · rw [← hcall]
        exact (hw.sent t hmem).issued
      · rw [← hcall]
        exact hans
    · cases hr
  | other c ch e =>
    simp only [Clients.step] at hs
    split at hs
    · rename_i ho
      obtain ⟨v, hv, rfl⟩ := Option.map_eq_some_iff.mp hs
      have hv := Async.sys_step hv
      exact hw.update (step_other (hw.clients c) ho hv)
        (fun p hp => hw.told hp) ((hw.clients c).step hv)
    · cases hs

theorem inv_init (cfg : Nat → Config) (server : Server) :
    Inv cfg (abs server) (sys cfg server).init :=
  ⟨fun c => @Async.inv_init (cfg c), fun _ _ h => (by cases h), fun _ => rfl, List.nodup_nil,
    fun _ h => (by cases h),
    fun _ _ h => (by obtain ⟨_, _, h, -⟩ := h; cases h), fun _ _ h => (by cases h), rfl,
    History.linear_nil⟩

theorem Inv.of_reach {server : Server} (h : (sys cfg server).Reach Sys.always w) :
    Inv cfg (abs server) w :=
  h.invariant (inv_init cfg server) fun _ _ _ hi _ hs => hi.step hs

end Steps

/-! ## The result -/

/-- **Linearizability.** In every run of any number of clients, over lost connections, refused
commands and new discoveries:

* the order in which the server has executed the commands explains what the clients have seen: every
  operation takes effect at most once, between its call and its ack if that is definite, and then
  with the ack that the abstract store gives at that place of the order;
* the database is the abstract store after the operations in that order;
* the acks of the history are those that each client was given;
* an operation that was issued after the definite ack of another one takes effect after it. -/
theorem clients_linearizable (cfg : Nat → Config) (server : Server) {w : World}
    (h : (sys cfg server).Reach Sys.always w) :
    History.Linear StoreOp.spec Definite (abs server) w.history ∧
      abs w.server = History.after StoreOp.spec (abs server) w.history ∧
      (∀ c, acksOf w.history c = (w.client c).acks) ∧
      ∀ l l' k k' n a m p p', w.history = l ++ .acked n a :: l' → Definite a → .issued m p ∈ l' →
        w.history = k ++ .executed m p' :: k' → ∃ o, .executed n o ∈ k := by
  have hi := Inv.of_reach h
  exact ⟨hi.linear, hi.store, hi.acks, fun l l' k k' n a m p p' ha hd hm he =>
    hi.linear.order ha hd hm he⟩

/-- Two clients create the same entry. The server executes the command of the second one first; that
client loses its connection and is told an error, and the first one is told that the entry
exists. -/
theorem clients_linearizable_lost :
    ∃ w, (sys (fun _ => ⟨none, by decide, fun _ => false⟩) ⟨OrdMap.empty, []⟩).Reach Sys.always w ∧
      (w.client 0).acks = [(0, .modifyIfAck .none false)] ∧
      (w.client 1).acks = [(0, .modifyIfAck (.dispatcher .connectionLost) false)] ∧
      (History.executed w.history).map Prod.fst = [(1, 0), (0, 0)] ∧
      abs w.server = History.after StoreOp.spec (abs ⟨OrdMap.empty, []⟩) w.history := by
  let ch : Choice := ⟨fun _ => true, .eof⟩
  let r : Choices := ⟨fun db => db.elems, fun _ => .refl _, fun _ _ => false⟩
  let commands : Reply := .array (getRequiredRedisModuleCommands.map fun c => .array [.string c])
  let connect : Nat → List Event := fun c =>
    [.other c ch (.serviceStateChanged true), .other c ch .connected,
      .other c ch (.reply (.reply commands))]
  obtain ⟨w, h, hw⟩ := Sys.reach_run_map (S := sys
    (fun _ => ⟨none, by decide, fun _ => false⟩) ⟨OrdMap.empty, []⟩)
    (G := Sys.always)
    (connect 0 ++ connect 1 ++ [.issue 0 (.setIfNotExists (str "ns") (str "k") (str "a")) ch,
      .issue 1 (.setIfNotExists (str "ns") (str "k") (str "b")) ch, .execute 1 r, .execute 0 r,
      .other 1 ch .lost, .reply 0 ch])
    (fun w => ((w.client 0).acks, (w.client 1).acks, (History.executed w.history).map Prod.fst))
    (b := ([(0, .modifyIfAck .none false)], [(0, .modifyIfAck (.dispatcher .connectionLost) false)],
      [(1, 0), (0, 0)]))
    (by decide +kernel)
  obtain ⟨h0, hw⟩ := Prod.mk.inj hw
  obtain ⟨h1, he⟩ := Prod.mk.inj hw
  exact ⟨w, h, h0, h1, he, (clients_linearizable _ _ h).2.1⟩

end Clients
end Sdl
