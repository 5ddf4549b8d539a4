import SharedDataLayer.Routing.Total

/-!
# Several instances in one process

The instances of a process share the static variables of `Routing/Impl.lean`: the first operation
that reaches one of them sets it for all. An instance behaves as it would alone if its run is one of
`client`, where the process has no other instance.

* `Independent`: what the instances of a process should be.
* `Guard`: a static variable has the value that the instance would give to it.
* `getOperationHandler_congr`: what an operation depends on.
* `instances_independent_iff`: in which runs the instances are independent.
-/

namespace Sdl
namespace Routing

open Spec Config

variable {E : Type}

/-! ## The system -/

/-- What an instance is constructed with. `read_lookup` gives the invariant for everything that was
read. -/
structure Configuration where
  database : DatabaseConfigurationImpl
  namespaces : NamespaceConfigurationsImpl
  lookup : Lookup namespaces

/-- An instance, with the log of its operations. -/
structure Instance (E : Type) where
  engine : E
  configuration : Configuration
  impl : AsyncStorageImpl E
  log : List (Operation × Except RoutingFailure (Handler E))

/-- The instances are numbered in the order in which they were constructed. `posted` has the acks of
the dummy storage, with the engine that they were posted to and the instance whose operation it
was. -/
structure Process (E : Type) where
  statics : Statics E
  instances : List (Instance E)
  posted : List (E × Nat × OperationAck)
  ended : Bool

inductive Event (E : Type) where
  | construct (engine : E) (configuration : Configuration)
  | operate (i : Nat) (op : Operation)

/-- What the handler of an operation posts at once. -/
def post (i : Nat) (op : Operation) : Except RoutingFailure (Handler E) →
    List (E × Nat × OperationAck)
  | .ok (.dummy engine) => [(engine, i, dummyAck op)]
  | _ => []

/-- The instance after an operation. -/
def Instance.after (x : Instance E) (op : Operation)
    (r : Statics E × AsyncStorageImpl E × Except RoutingFailure (Handler E)) : Instance E :=
  { x with impl := r.2.1, log := x.log ++ [(op, r.2.2)] }

def Process.step (net : Resolver) (p : Process E) : Event E → Option (Process E)
  | .construct engine c => some { p with
      instances := p.instances ++ [⟨engine, c, .new engine c.database c.namespaces, []⟩] }
  | .operate i op => (p.instances[i]?).map fun x =>
    let r := x.impl.getOperationHandler net p.statics op.ns
    ⟨r.1, p.instances.set i (x.after op r), p.posted ++ post i op r.2.2, ends r.2.2⟩

def process (net : Resolver) : Sys (Process E) (Event E) where
  init := ⟨.unset, [], [], false⟩
  step p e := if p.ended then none else p.step net e

/-! ## Independence -/

/-- The operations of the instance would have gone the same way if it were alone. -/
def AsAlone (net : Resolver) (x : Instance E) : Prop :=
  ∃ c, (client net x.engine x.configuration.database x.configuration.namespaces).run Sys.always
      (client net x.engine x.configuration.database x.configuration.namespaces).init
        (x.log.map Prod.fst) = some c ∧
    c.impl = x.impl ∧ c.log = x.log

/-- The operation has a namespace with DB backend. -/
def Instance.HasBackend (x : Instance E) (op : Operation) : Prop :=
  x.configuration.namespaces.isDbBackendUseEnabled op.ns = some true

/-- The instance `i` is as it would be alone; in the SDL cluster types it creates one storage for
each of its server addresses, in their order, with its first operation with DB backend; it does not
index past its storages; and the acks of the dummy storage are posted to its own engine. -/
structure IndependentAt (net : Resolver) (posted : List (E × Nat × OperationAck)) (i : Nat)
    (x : Instance E) : Prop where
  alone : AsAlone net x
  storages : isSdlCluster x.configuration.database.dbType →
    ((∀ e ∈ x.log, ¬ x.HasBackend e.1) ∧ x.impl.asyncStorages = []) ∨
      Complete net x.engine x.configuration.database x.impl.asyncStorages
  bounds : ∀ e ∈ x.log, e.2 ≠ .error .outOfRange
  posted : ∀ engine a, (engine, i, a) ∈ posted → engine = x.engine

def Independent (net : Resolver) (p : Process E) : Prop :=
  ∀ i x, p.instances[i]? = some x → IndependentAt net p.posted i x

/-- When an operation reaches a static variable that is already set, it has the value of this
instance; and a sentinel for each address can be created. -/
structure OperationGuard (net : Resolver) (st : Statics E) (x : Instance E)
    (op : Operation) : Prop where
  dummy : ¬ x.HasBackend op → st.dummyHandler = none ∨ st.dummyHandler = some x.engine
  count : x.HasBackend op → isSdlCluster x.configuration.database.dbType →
    x.impl.asyncStorages = [] →
    CountOk st x.configuration.database
  hosts : x.HasBackend op → x.configuration.database.dbType = .sdlSentinelCluster →
    x.impl.asyncStorages = [] →
    ∀ a ∈ x.configuration.database.serverAddresses, Parses net a.host

def Guard (net : Resolver) (p : Process E) : Event E → Prop
  | .construct _ _ => True
  | .operate i op => ∀ x, p.instances[i]? = some x → OperationGuard net p.statics x op

/-! ## An operation of an instance -/

section Operation

variable {net : Resolver} {ns : Namespace}

theorem getRedisHandler_congr {st st' : Statics E} {x : AsyncStorageImpl E}
    (h : x.asyncStorages = [] → createdIndexes st x.databaseConfiguration =
      createdIndexes st' x.databaseConfiguration) :
    (x.getRedisHandler net st ns).2 = (x.getRedisHandler net st' ns).2 := by
  by_cases he : x.asyncStorages = []
  · obtain ⟨st₁, h₁, -⟩ := @setAsyncRedisStorageHandlers_eq E net ns st x
    obtain ⟨st₂, h₂, -⟩ := @setAsyncRedisStorageHandlers_eq E net ns st' x
    have hemp : x.asyncStorages.isEmpty = true := by rw [he]; rfl
    unfold AsyncStorageImpl.getRedisHandler
    rw [if_pos hemp, if_pos hemp, h₁, h₂, h he]
    obtain ⟨x', o⟩ := x.createHandlers net ns (createdIndexes st' x.databaseConfiguration)
    cases o <;> rfl
  · rw [getRedisHandler_later he, getRedisHandler_later he]

/-- An operation depends on the static variables only where it reaches them. -/
theorem getOperationHandler_congr {st st' : Statics E} {x : AsyncStorageImpl E}
    (hd : x.namespaceConfigurations.isDbBackendUseEnabled ns = some false →
      st.dummyHandler.getD x.engine = st'.dummyHandler.getD x.engine)
    (hc : x.namespaceConfigurations.isDbBackendUseEnabled ns = some true →
      isSdlCluster x.databaseConfiguration.dbType →
      x.asyncStorages = [] → st.serverCount.getD x.databaseConfiguration.serverAddresses.length =
        st'.serverCount.getD x.databaseConfiguration.serverAddresses.length) :
    (x.getOperationHandler net st ns).2 = (x.getOperationHandler net st' ns).2 := by
  cases hb : x.namespaceConfigurations.isDbBackendUseEnabled ns with
  | none =>
    unfold NamespaceConfigurationsImpl.isDbBackendUseEnabled at hb
    simp only [AsyncStorageImpl.getOperationHandler, hb]
  | some b =>
    cases b with
    | false =>
      rw [getOperationHandler_dummy hb, getOperationHandler_dummy hb]
      simp only [AsyncStorageImpl.getDummyHandler, hd hb]
    | true =>
      rw [getOperationHandler_redis hb, getOperationHandler_redis hb]
      refine getRedisHandler_congr fun he => ?_
      unfold createdIndexes
      by_cases ht : isSdlCluster x.databaseConfiguration.dbType
      · rw [if_pos ht, if_pos ht, hc hb ht he]
      · rw [if_neg ht, if_neg ht]

/-- An index in the storages, if they are as many as the addresses. -/
theorem getAsyncRedisStorageHandler_bounds {x : AsyncStorageImpl E}
    (hc : isSdlCluster x.databaseConfiguration.dbType →
      x.asyncStorages.length = x.databaseConfiguration.serverAddresses.length)
    (hs : ¬ isSdlCluster x.databaseConfiguration.dbType → x.asyncStorages ≠ []) :
    x.getAsyncRedisStorageHandler ns ≠ .error .outOfRange := by
  unfold AsyncStorageImpl.getAsyncRedisStorageHandler AsyncStorageImpl.handlerIndex
  by_cases ht : isSdlCluster x.databaseConfiguration.dbType
  · rw [if_pos ht, getClusterHashIndex]
    by_cases hz : x.databaseConfiguration.serverAddresses.length = 0
    · rw [if_pos hz]
      intro h
      cases h
    · have hlt : (crc32 ns).toNat % x.databaseConfiguration.serverAddresses.length <
        x.asyncStorages.length := by
        rw [hc ht]
        exact Nat.mod_lt _ (by omega)
      simp only [if_neg hz, bind, Except.bind, List.getElem?_eq_getElem hlt]
      intro h
      cases h
  · have hlt : 0 < x.asyncStorages.length := List.length_pos_of_ne_nil (hs ht)
    simp only [if_neg ht, bind, Except.bind, List.getElem?_eq_getElem hlt]
    intro h
    cases h

/-- The exceptions of `create` are not those of the index. -/
theorem getAsyncRedisStorageHandler_create {x : AsyncStorageImpl E} {e : CreateFailure} :
    x.getAsyncRedisStorageHandler ns ≠ .error (.create e) := by
  unfold AsyncStorageImpl.getAsyncRedisStorageHandler AsyncStorageImpl.handlerIndex
    getClusterHashIndex
  intro h
  split_ifs at h
  · cases h
  · simp only [bind, Except.bind] at h
    split at h <;> cases h
  · simp only [bind, Except.bind] at h
    split at h <;> cases h

end Operation

/-! ## One step of a process -/

section Step

variable {net : Resolver} {x : Instance E} {op : Operation}

/-- An instance that is as it would be alone, with the static variables that it would have then. -/
theorem AsAlone.statics (h : AsAlone net x) (halive : ∀ e ∈ x.log, ends e.2 = false) :
    ∃ c, Base x.engine x.configuration.database x.configuration.namespaces c ∧ c.impl = x.impl ∧
      ∀ op r, AsAlone net (x.after op r) ↔
      r.2 = (x.impl.getOperationHandler net c.statics op.ns).2 := by
  obtain ⟨c, hrun, himpl, hlog⟩ := h
  have hbase := Base.reach (Sys.reach_run _ hrun)
  have hended : c.ended = false := by
    cases he : c.ended with
    | false => rfl
    | true =>
      obtain ⟨e, hm, hend⟩ := hbase.ended he
      rw [hlog] at hm
      cases (halive e hm).symm.trans hend
  refine ⟨c, hbase, himpl, fun op r => ?_⟩
  have hnext := Sys.run_concat hrun (e := op) trivial
  have hstep : (client net x.engine x.configuration.database x.configuration.namespaces).step c op =
      some ⟨(c.impl.getOperationHandler net c.statics op.ns).1,
        (c.impl.getOperationHandler net c.statics op.ns).2.1,
        c.log ++ [(op, (c.impl.getOperationHandler net c.statics op.ns).2.2)],
        ends (c.impl.getOperationHandler net c.statics op.ns).2.2⟩ := by
    simp only [client, hended]
    rfl
  rw [hstep] at hnext
  unfold AsAlone Instance.after
  simp only [List.map_append, List.map_cons, List.map_nil, hnext]
  rw [← himpl, ← hlog]
  constructor
  · rintro ⟨c', hc', hi, hl⟩
    cases hc'
    simp only [List.append_cancel_left_eq, List.cons.injEq, Prod.mk.injEq, true_and, and_true] at hl
    exact Prod.ext hi.symm hl.symm
  · intro hr
    exact ⟨_, rfl, by rw [hr], by rw [hr]⟩

/-- The storages of one index after the other. -/
theorem complete_length {engine : E} {d : DatabaseConfigurationImpl} (hc : isSdlCluster d.dbType)
    {l : List (AsyncRedisStorage E)} (h : Complete net engine d l) :
    l.length = d.serverAddresses.length := by
  obtain ⟨ns₀, hf⟩ := h
  rw [← hf.length_eq, addressIndexes, if_pos hc, List.length_map, List.length_range]

/-- In the SDL cluster types the storages can be created exactly if the hosts of the sentinels are
parsed. -/
theorem parses_of_complete {engine : E} {d : DatabaseConfigurationImpl}
    (ht : d.dbType = .sdlSentinelCluster)
    {l : List (AsyncRedisStorage E)} (h : Complete net engine d l) : ∀ a ∈ d.serverAddresses,
      Parses net a.host := by
  obtain ⟨ns₀, hf⟩ := h
  intro a ha
  obtain ⟨k, hk, rfl⟩ := List.getElem_of_mem ha
  have hidx : addressIndexes d = (List.range d.serverAddresses.length).map some := if_pos (.inr ht)
  rw [hidx] at hf
  have hk₁ : k < ((List.range d.serverAddresses.length).map some).length := by simpa using hk
  have hserves := hf.get hk₁ (by rw [← hf.length_eq]; exact hk₁)
  simp only [List.get_eq_getElem, List.getElem_map, List.getElem_range] at hserves
  obtain ⟨a', ha', hp⟩ :=
    (create_sentinel_ok_iff (.inr ht) fun i hi => by cases hi; exact hk).mp ⟨_, hserves.2⟩
  cases (List.getElem?_eq_getElem hk).symm.trans ha'
  exact hp

theorem create_of_parses {d : DatabaseConfigurationImpl} (hc : isSdlCluster d.dbType)
    (hp : d.dbType = .sdlSentinelCluster → ∀ a ∈ d.serverAddresses, Parses net a.host)
    (ns : Namespace) :
    ∀ i ∈ addressIndexes d, ∃ discovery,
      AsyncDatabaseDiscovery.create net (some ns) d i = .ok discovery := by
  intro i hi
  have hlt := addressIndexes_lt hi
  rcases hc with hs | hs
  · exact create_hiredis (by rw [hs]; decide) (by rw [hs]; decide) hlt
  · refine (create_sentinel_ok_iff (.inr hs) hlt).mpr ?_
    have hidx : addressIndexes d = (List.range d.serverAddresses.length).map some :=
      if_pos (.inr hs)
    rw [hidx] at hi
    obtain ⟨k, hk, rfl⟩ := List.mem_map.mp hi
    have hk := List.mem_range.mp hk
    exact ⟨_, List.getElem?_eq_getElem hk, hp hs _ (List.getElem_mem hk)⟩

variable {posted : List (E × Nat × OperationAck)} {i : Nat} {st : Statics E}

/-- An operation without DB backend. -/
theorem independentAt_dummy_iff (h : IndependentAt net posted i x)
    (halive : ∀ e ∈ x.log, ends e.2 = false) (hb : ¬ x.HasBackend op) :
    IndependentAt net (posted ++ post i op (x.impl.getOperationHandler net st op.ns).2.2) i
        (x.after op (x.impl.getOperationHandler net st op.ns)) ↔
      (st.dummyHandler = none ∨ st.dummyHandler = some x.engine) := by
  obtain ⟨c, hbase, himpl, halone⟩ := h.alone.statics halive
  have hb' : x.impl.namespaceConfigurations.isDbBackendUseEnabled op.ns = some false := by
    rw [← himpl, hbase.backend x.configuration.lookup]
    obtain ⟨b, hb'⟩ := x.configuration.lookup.isDbBackendUseEnabled op.ns
    cases b with
    | false => exact hb'
    | true => exact absurd hb' hb
  have hown : x.impl.engine = x.engine := himpl ▸ hbase.own
  have hhandler : (x.impl.getOperationHandler net st op.ns).2.2 =
    .ok (.dummy (st.dummyHandler.getD x.engine)) := by
    rw [getOperationHandler_dummy hb', ← hown]
    rfl
  have hstorages : (x.impl.getOperationHandler net st op.ns).2.1.asyncStorages =
    x.impl.asyncStorages := by
    rw [getOperationHandler_dummy hb']
    rfl
  have hdummy : (st.dummyHandler = none ∨ st.dummyHandler = some x.engine) ↔
    st.dummyHandler.getD x.engine = x.engine := by
    cases st.dummyHandler with
    | none => simp
    | some engine => simp
  rw [hdummy]
  constructor
  · intro h'
    refine h'.posted _ (dummyAck op) (List.mem_append_right _ ?_)
    rw [hhandler]
    exact List.mem_singleton_self _
  · intro hst
    refine ⟨(halone op _).mpr ?_, fun ht => ?_, fun e hm => ?_, fun engine a hm => ?_⟩
    · refine getOperationHandler_congr (fun _ => ?_) fun hb => ?_
      · rw [hown, hst, hbase.dummy]
      · rw [hb'] at hb
        cases hb
    · rcases h.storages ht with ⟨hlog, he⟩ | hcomplete
      · refine .inl ⟨fun e hm => ?_, hstorages.trans he⟩
        rcases List.mem_append.mp hm with hm | hm
        · exact hlog e hm
        · rw [List.mem_singleton.mp hm]
          exact hb
      · refine .inr ?_
        unfold Instance.after
        rw [hstorages]
        exact hcomplete
    · rcases List.mem_append.mp hm with hm | hm
      · exact h.bounds e hm
      · rw [List.mem_singleton.mp hm, hhandler]
        exact fun he => by cases he
    · rcases List.mem_append.mp hm with hm | hm
      · exact h.posted engine a hm
      · rw [hhandler] at hm
        cases List.mem_singleton.mp hm
        exact hst

/-- A Redis handler posts nothing at once. -/
theorem post_redis {x : AsyncStorageImpl E} {ns : Namespace} :
    post i op (x.getRedisHandler net st ns).2.2 = [] := by
  have hget : ∀ x : AsyncStorageImpl E, post i op (x.getAsyncRedisStorageHandler ns) = [] := by
    intro x
    unfold AsyncStorageImpl.getAsyncRedisStorageHandler
    cases x.handlerIndex ns with
    | error e => rfl
    | ok j =>
      simp only [bind, Except.bind]
      split <;> rfl
  by_cases he : x.asyncStorages = []
  · obtain ⟨l, -, ⟨-, ho⟩ | ⟨e, ho, -⟩⟩ := @getRedisHandler_first E net ns st x he <;> rw [ho]
    · exact hget _
    · rfl
  · rw [getRedisHandler_later he]
    exact hget x

/-- The storages and the bounds after an operation with DB backend. -/
theorem getRedisHandler_complete {x : AsyncStorageImpl E} {ns : Namespace}
    (hst : x.asyncStorages = [] →
      isSdlCluster x.databaseConfiguration.dbType → CountOk st x.databaseConfiguration ∧
        (x.databaseConfiguration.dbType = .sdlSentinelCluster →
          ∀ a ∈ x.databaseConfiguration.serverAddresses, Parses net a.host))
    (hx : x.asyncStorages ≠ [] → isSdlCluster x.databaseConfiguration.dbType →
      Complete net x.engine x.databaseConfiguration x.asyncStorages) :
    (isSdlCluster x.databaseConfiguration.dbType →
      Complete net x.engine x.databaseConfiguration
      (x.getRedisHandler net st ns).2.1.asyncStorages) ∧
    (x.getRedisHandler net st ns).2.2 ≠ .error .outOfRange := by
  by_cases he : x.asyncStorages = []
  · obtain ⟨l, hl, hcase⟩ := @getRedisHandler_first E net ns st x he
    rw [hl]
    rcases hcase with ⟨hf, ho⟩ | ⟨e, ho, -, j, hj, herr⟩
    · have hcomplete : isSdlCluster x.databaseConfiguration.dbType →
        Complete net x.engine x.databaseConfiguration l := by
        intro ht
        rw [(hst he ht).1.createdIndexes] at hf
        exact ⟨ns, hf⟩
      refine ⟨hcomplete, ?_⟩
      rw [ho]
      refine getAsyncRedisStorageHandler_bounds (fun ht => complete_length ht (hcomplete ht))
        fun ht hempty => ?_
      rw [createdIndexes, if_neg ht] at hf
      have hlen := hf.length_eq
      rw [show l = [] from hempty] at hlen
      cases hlen
    · refine ⟨fun ht => ?_, by rw [ho]; exact fun h => by cases h⟩
      rw [(hst he ht).1.createdIndexes] at hj
      obtain ⟨discovery, hok⟩ := create_of_parses ht (hst he ht).2 ns j hj
      rw [herr] at hok
      cases hok
  · rw [getRedisHandler_later he]
    exact ⟨hx he, getAsyncRedisStorageHandler_bounds
      (fun ht => complete_length ht (hx he ht)) fun _ => he⟩

/-- An operation with DB backend. -/
theorem independentAt_redis_iff (h : IndependentAt net posted i x)
    (halive : ∀ e ∈ x.log, ends e.2 = false) (hb : x.HasBackend op) :
    IndependentAt net (posted ++ post i op (x.impl.getOperationHandler net st op.ns).2.2) i
        (x.after op (x.impl.getOperationHandler net st op.ns)) ↔
      (isSdlCluster x.configuration.database.dbType → x.impl.asyncStorages = [] →
        CountOk st x.configuration.database ∧
        (x.configuration.database.dbType = .sdlSentinelCluster →
          ∀ a ∈ x.configuration.database.serverAddresses, Parses net a.host)) := by
  obtain ⟨c, hbase, himpl, halone⟩ := h.alone.statics halive
  have hb' : x.impl.namespaceConfigurations.isDbBackendUseEnabled op.ns = some true := by
    rw [← himpl, hbase.backend x.configuration.lookup]
    exact hb
  have hown : x.impl.engine = x.engine := himpl ▸ hbase.own
  have hdb : x.impl.databaseConfiguration = x.configuration.database := himpl ▸ hbase.database
  let y : AsyncStorageImpl E := { x.impl with
    namespaceConfigurations := (x.impl.namespaceConfigurations.findConfigurationForNamespace
      op.ns).1 }
  have hr : x.impl.getOperationHandler net st op.ns = y.getRedisHandler net st op.ns :=
    getOperationHandler_redis hb'
  have hyd : y.databaseConfiguration = x.configuration.database := hdb
  rw [hr, post_redis, List.append_nil]
  constructor
  · intro h' ht he
    have hcomplete : Complete net x.engine x.configuration.database
      (y.getRedisHandler net st op.ns).2.1.asyncStorages := by
      refine (h'.storages ht).resolve_left fun hno => ?_
      exact hno.1 _ (List.mem_append_right _ List.mem_cons_self) hb
    have hlen := complete_length ht hcomplete
    refine ⟨?_, fun hs => parses_of_complete hs hcomplete⟩
    obtain ⟨l, hl, hcase⟩ := @getRedisHandler_first E net op.ns st y he
    rw [hl] at hlen
    have hlen : l.length = x.configuration.database.serverAddresses.length := hlen
    rcases hcase with ⟨hf, -⟩ | ⟨e, ho, -⟩
    · have hcount := hf.length_eq
      rw [createdIndexes, hyd, if_pos ht, List.length_map, List.length_range, hlen] at hcount
      exact countOk_iff.mpr hcount
    · -- Alone it would have failed too, with fewer storages.
      have hsame := (halone op _).mp h'.alone
      rw [getOperationHandler_redis hb'] at hsame
      obtain ⟨l', hl', hcase'⟩ := @getRedisHandler_first E net op.ns c.statics y he
      have hll : l = l' := by
        have := congrArg AsyncStorageImpl.asyncStorages
          ((hl.symm.trans (congrArg Prod.fst hsame)).trans hl')
        exact this
      rw [hyd, hbase.count.createdIndexes] at hcase'
      rcases hcase' with ⟨-, ho'⟩ | ⟨e', -, hlt, -⟩
      · have hout := (ho.symm.trans (congrArg Prod.snd hsame)).trans ho'
        exact absurd hout.symm getAsyncRedisStorageHandler_create
      · rw [addressIndexes, if_pos ht, List.length_map, List.length_range, ← hll] at hlt
        omega
  · intro hst
    have hprev : x.impl.asyncStorages ≠ [] → isSdlCluster x.configuration.database.dbType →
        Complete net x.engine x.configuration.database x.impl.asyncStorages :=
      fun he ht => (h.storages ht).resolve_left fun hno => he hno.2
    obtain ⟨hcomplete, hbounds⟩ := @getRedisHandler_complete E net st y op.ns
      (by rw [hyd]; exact fun he ht => hst ht he)
        (by rw [hyd, show y.engine = x.engine from hown]; exact hprev)
    rw [hyd, show y.engine = x.engine from hown] at hcomplete
    refine ⟨(halone op _).mpr ?_, fun ht => .inr (hcomplete ht), fun e hm => ?_, h.posted⟩
    · rw [← hr]
      refine getOperationHandler_congr (fun hf => ?_) fun _ ht he => ?_
      · rw [hb'] at hf
        cases hf
      · rw [hdb] at ht ⊢
        rw [countOk_iff.mp (hst ht he).1, countOk_iff.mp hbase.count]
    · rcases List.mem_append.mp hm with hm | hm
      · exact h.bounds e hm
      · rw [List.mem_singleton.mp hm]
        exact hbounds

theorem independentAt_after_iff (h : IndependentAt net posted i x)
    (halive : ∀ e ∈ x.log, ends e.2 = false) :
    IndependentAt net (posted ++ post i op (x.impl.getOperationHandler net st op.ns).2.2) i
        (x.after op (x.impl.getOperationHandler net st op.ns)) ↔ OperationGuard net st x op := by
  by_cases hb : x.HasBackend op
  · rw [independentAt_redis_iff h halive hb]
    constructor
    · intro hst
      exact ⟨fun hn => absurd hb hn, fun _ ht he => (hst ht he).1,
        fun _ hs he => (hst (.inr hs) he).2 hs⟩
    · exact fun hg ht he => ⟨hg.count hb ht he, fun hs => hg.hosts hb hs he⟩
  · rw [independentAt_dummy_iff h halive hb]
    constructor
    · exact fun hst => ⟨fun _ => hst, fun h => absurd h hb, fun h => absurd h hb⟩
    · exact fun hg => hg.dummy hb

theorem post_index {o : Except RoutingFailure (Handler E)} {engine : E} {j : Nat} {a : OperationAck}
    (h : (engine, j, a) ∈ post i op o) : j = i := by
  unfold post at h
  split at h
  · cases List.mem_singleton.mp h
    rfl
  · cases h

/-- The acks of another instance do not matter. -/
theorem IndependentAt.other {j : Nat} (hij : j ≠ i) (o : Except RoutingFailure (Handler E)) :
    IndependentAt net (posted ++ post i op o) j x ↔ IndependentAt net posted j x := by
  constructor
  · exact fun h => ⟨h.alone, h.storages, h.bounds,
      fun engine a hm => h.posted engine a (List.mem_append_left _ hm)⟩
  · intro h
    refine ⟨h.alone, h.storages, h.bounds, fun engine a hm => ?_⟩
    rcases List.mem_append.mp hm with hm | hm
    · exact h.posted engine a hm
    · exact absurd (post_index hm) hij

/-- What every run keeps: a process that goes on has no operation that ended it, and the acks are
those of its instances. -/
structure Alive (p : Process E) : Prop where
  goesOn : p.ended = false → ∀ x ∈ p.instances, ∀ e ∈ x.log, ends e.2 = false
  posted : ∀ engine j a, (engine, j, a) ∈ p.posted → j < p.instances.length

variable {p p' : Process E} {e : Event E}

theorem process_step (hs : (process net).step p e = some p') : p.ended = false ∧
    p.step net e = some p' := by
  simp only [process] at hs
  split at hs
  · cases hs
  · rename_i hended
    exact ⟨by simpa using hended, hs⟩

theorem Alive.step (h : Alive p) (hs : (process net).step p e = some p') : Alive p' := by
  obtain ⟨hended, hs⟩ := process_step hs
  have hx := h.goesOn hended
  cases e with
  | construct engine c =>
    cases hs
    refine ⟨fun _ x hm => ?_, fun engine j a hm => ?_⟩
    · rcases List.mem_append.mp hm with hm | hm
      · exact hx x hm
      · rw [List.mem_singleton.mp hm]
        exact fun e he => by cases he
    · have := h.posted engine j a hm
      rw [List.length_append]
      omega
  | operate i op =>
    obtain ⟨x, hget, rfl⟩ := Option.map_eq_some_iff.mp hs
    refine ⟨fun hend y hm => ?_, fun engine j a hm => ?_⟩
    · rcases List.mem_or_eq_of_mem_set hm with hm | rfl
      · exact hx y hm
      · intro e he
        rcases List.mem_append.mp he with he | he
        · exact hx x (List.mem_of_getElem? hget) e he
        · rw [List.mem_singleton.mp he]
          exact hend
    · rw [List.length_set]
      rcases List.mem_append.mp hm with hm | hm
      · exact h.posted engine j a hm
      · rw [post_index hm]
        exact (List.getElem?_eq_some_iff.mp hget).1

/-- A step keeps the instances independent exactly if it meets the guard. -/
theorem independent_step_iff (h : Independent net p) (halive : Alive p)
    (hs : (process net).step p e = some p') :
    Independent net p' ↔ Guard net p e := by
  obtain ⟨hended, hs⟩ := process_step hs
  have hx := halive.goesOn hended
  cases e with
  | construct engine c =>
    cases hs
    refine iff_of_true (fun i x hget => ?_) trivial
    rw [List.getElem?_append] at hget
    split at hget
    · exact h i x hget
    · rename_i hi
      rw [List.mem_singleton.mp (List.mem_of_getElem? hget)]
      -- A new instance has done nothing yet.
      refine ⟨⟨_, rfl, rfl, rfl⟩, fun _ => .inl ⟨fun e he => (by cases he), rfl⟩,
        fun e he => (by cases he), ?_⟩
      exact fun engine' a hm => absurd (halive.posted engine' i a hm) hi
  | operate i op =>
    obtain ⟨x, hget, rfl⟩ := Option.map_eq_some_iff.mp hs
    have hi : i < p.instances.length := (List.getElem?_eq_some_iff.mp hget).1
    have hiff := @independentAt_after_iff E net x op p.posted i p.statics (h i x hget)
      (hx x (List.mem_of_getElem? hget))
    constructor
    · intro h' y hy
      cases hget.symm.trans hy
      exact hiff.mp (h' i _ (List.getElem?_set_self hi))
    · intro hg j y hy
      by_cases hij : i = j
      · subst hij
        rw [List.getElem?_set_self hi] at hy
        cases hy
        exact hiff.mpr (hg x hget)
      · rw [List.getElem?_set_ne hij] at hy
        exact (IndependentAt.other (Ne.symm hij) _).mpr (h j y hy)

end Step

/-- **Instances of one process.** The instances are independent in every state of a run exactly if,
in each step, an operation that reaches a static variable finds it unset or with the value of its
own instance, and in an SDL cluster with sentinels the hosts are parsed again when the storages are
created. -/
theorem instances_independent_iff (net : Resolver) (es : List (Event E)) :
    (process net).Holds (Independent net) (process net).init es ↔
      (process net).Meets (Guard net) (process net).init es := by
  have hinit : Independent net (process net).init (E := E) ∧ Alive (process net).init (E := E) :=
    ⟨fun i x hget => (by cases hget), fun _ x hm => (by cases hm), fun _ _ _ hm => (by cases hm)⟩
  rw [← Sys.holds_and_iff (A := Alive) (fun p e p' h hs => h.step hs) hinit.2]
  refine Sys.holds_iff_meets (I := fun p => Independent net p ∧ Alive p)
    (fun p e p' h hs => ?_) hinit es
  rw [← independent_step_iff h.1 h.2 hs]
  exact ⟨fun h' => h'.1, fun h' => ⟨h', h.2.step hs⟩⟩

/-- A configuration of the type `sdl-standalone-cluster`, all of whose namespaces have DB
backend. -/
def clusterConfiguration (hosts : List Bytes) : Configuration :=
  ⟨⟨.sdlStandaloneCluster, hosts.map fun h => ⟨h, htons DEFAULT_PORT, false⟩, [], []⟩, .new,
    @read_lookup (fun _ => none) [] _ rfl⟩

/-- After an operation of an instance with one address, one with two addresses creates one storage
and indexes past it. -/
theorem instances_shared_count : ∃ (p : Process Bool) (x : Instance Bool) (op : Operation),
    (process loopbackNet).Reach Sys.always p ∧ p.instances[1]? = some x ∧
    x.configuration.database.serverAddresses.length = 2 ∧ x.impl.asyncStorages.length = 1 ∧
    (op, .error .outOfRange) ∈ x.log ∧ ¬ Independent loopbackNet p := by
  have hrun : ∃ p x, (process loopbackNet).run Sys.always (process loopbackNet).init
      [.construct false (clusterConfiguration [str "db"]),
        .construct true (clusterConfiguration [str "db-0", str "db-1"]),
        .operate 0 (.waitReadyAsync (str "a")), .operate 1 (.waitReadyAsync (str "a"))] = some p ∧
      p.instances[1]? = some x ∧ x.configuration.database.serverAddresses.length = 2 ∧
      x.impl.asyncStorages.length = 1 ∧ (.waitReadyAsync (str "a"),
        .error .outOfRange) ∈ x.log := by
    refine ⟨_, _, rfl, rfl, rfl, rfl, ?_⟩
    exact List.mem_singleton_self _
  obtain ⟨p, x, hp, hx, hn, hl, hm⟩ := hrun
  exact ⟨p, x, _, Sys.reach_run _ hp, hx, hn, hl, hm, fun h => (h 1 x hx).bounds _ hm rfl⟩

end Routing
end Sdl
