import SharedDataLayer.Routing.Impl
import SharedDataLayer.Spec.Sys

/-!
# Routing is total and stable

One instance in its process: the operations are issued one after the other, and the log has the
handler that each of them was given to, or how it failed.

* `Creatable`: every storage can be created, and there is one. `creatable_iff` says of which
  configurations.
* `getRedisHandler_spec`: what an operation with DB backend does then.
* `routing_total_iff`: when every run is routed as it should.
-/

namespace Sdl
namespace Routing

open Spec Config

variable {E : Type}

/-! ## The system -/

/-- An instance in its process. -/
structure Client (E : Type) where
  statics : Statics E
  impl : AsyncStorageImpl E
  log : List (Operation × Except RoutingFailure (Handler E))
  ended : Bool

/-- The process ends with the operation. -/
def ends (o : Except RoutingFailure (Handler E)) : Bool :=
  match o with
  | .ok _ => false
  | .error e => e.ends

def client (net : Resolver) (engine : E) (d : DatabaseConfigurationImpl)
    (n : NamespaceConfigurationsImpl) :
    Sys (Client E) Operation where
  init := ⟨.unset, .new engine d n, [], false⟩
  step c op :=
    if c.ended then none
    else
      let r := c.impl.getOperationHandler net c.statics op.ns
      some ⟨r.1, r.2.1, c.log ++ [(op, r.2.2)], ends r.2.2⟩

/-! ## What the routing should be -/

/-- The index of the storage of a namespace. -/
def routeIndex (d : DatabaseConfigurationImpl) (ns : Namespace) : Nat :=
  if isSdlCluster d.dbType then (crc32 ns).toNat % d.serverAddresses.length else 0

/-- The address index that the storage `i` is created with. -/
def addressIndex (d : DatabaseConfigurationImpl) (i : Nat) : Option Nat :=
  if isSdlCluster d.dbType then some i else none

/-- The handler of an operation: with DB backend the storage of the index of its namespace, which
serves the address of this index, and without it the dummy storage on the engine of the instance. -/
def RoutedTo (net : Resolver) (engine : E) (d : DatabaseConfigurationImpl)
    (n : NamespaceConfigurationsImpl) (ns : Namespace) (h : Handler E) : Prop :=
  (n.isDbBackendUseEnabled ns = some true ∧ ∃ s ns₀, h = .redis (routeIndex d ns) s ∧
    Serves net engine d ns₀ (addressIndex d (routeIndex d ns)) s) ∨
  (n.isDbBackendUseEnabled ns = some false ∧ h = .dummy engine)

/-- Every operation has the handler of its namespace, and one namespace has one handler. -/
structure Routed (net : Resolver) (engine : E) (d : DatabaseConfigurationImpl)
    (n : NamespaceConfigurationsImpl) (c : Client E) : Prop where
  total : ∀ op o, (op, o) ∈ c.log → ∃ h, o = .ok h ∧ RoutedTo net engine d n op.ns h
  stable : ∀ op op' o o', (op, o) ∈ c.log → (op', o') ∈ c.log → op.ns = op'.ns → o = o'

/-- The host of an address is parsed again. -/
def Parses (net : Resolver) (host : Bytes) : Prop :=
  ∃ h, HostAndPort.new net host (htons DEFAULT_SENTINEL_PORT) = .ok h

/-- The type is supported, the types that need a server address have one, unless the configuration
comes from the environment, and the hosts that a sentinel is made of are parsed again. -/
structure Routable (r : ConfigurationReader) (net : Resolver)
    (d : DatabaseConfigurationImpl) : Prop where
  supported : d.dbType ≠ .redisCluster
  servers : r.sourceForDatabaseConfiguration ≠ DB_HOST_ENV_VAR_NAME →
    isSdlCluster d.dbType ∨ d.dbType = .redisSentinel → d.serverAddresses ≠ []
  sentinel : d.dbType = .redisSentinel → ∀ a ∈ d.serverAddresses.head?, Parses net a.host
  cluster : d.dbType = .sdlSentinelCluster → ∀ a ∈ d.serverAddresses, Parses net a.host

/-! ## Which storages can be created -/

section Create

variable {net : Resolver} {d : DatabaseConfigurationImpl}

/-- The indexes of the storages. -/
def addressIndexes (d : DatabaseConfigurationImpl) : List (Option Nat) :=
  if isSdlCluster d.dbType then (List.range d.serverAddresses.length).map some else [none]

structure Creatable (net : Resolver) (d : DatabaseConfigurationImpl) : Prop where
  nonempty : isSdlCluster d.dbType → d.serverAddresses ≠ []
  create : ∀ ns, ∀ i ∈ addressIndexes d, ∃ discovery,
    AsyncDatabaseDiscovery.create net (some ns) d i = .ok discovery

theorem Creatable.length_pos (h : Creatable net d) (hc : isSdlCluster d.dbType) :
    0 < d.serverAddresses.length :=
  List.length_pos_of_ne_nil (h.nonempty hc)

theorem addressIndexes_lt {i : Option Nat} (hi : i ∈ addressIndexes d) :
    ∀ k, i = some k → k < d.serverAddresses.length := by
  rintro k rfl
  unfold addressIndexes at hi
  split at hi
  · obtain ⟨j, hj, he⟩ := List.mem_map.mp hi
    cases he
    exact List.mem_range.mp hj
  · rw [List.mem_singleton] at hi
    cases hi

/-- The storage of a namespace is there. -/
theorem addressIndexes_route (h : Creatable net d) (ns : Namespace) :
    (addressIndexes d)[routeIndex d ns]? = some (addressIndex d (routeIndex d ns)) := by
  unfold addressIndexes addressIndex routeIndex
  by_cases hc : isSdlCluster d.dbType
  · have hlt := Nat.mod_lt (crc32 ns).toNat (h.length_pos hc)
    simp only [if_pos hc, List.getElem?_map, List.getElem?_range hlt, Option.map_some]
  · simp only [if_neg hc]
    rfl

/-- The namespace of the discovery does not decide whether it is created. -/
theorem create_ok_ns {i : Option Nat} (hi : ∀ k, i = some k → k < d.serverAddresses.length)
    {ns : Option Namespace}
    (ns' : Namespace) (h : ∃ discovery, AsyncDatabaseDiscovery.create net ns d i = .ok discovery) :
    ∃ discovery, AsyncDatabaseDiscovery.create net (some ns') d i = .ok discovery := by
  by_cases ht : d.dbType.isSentinel
  · exact (create_sentinel_ok_iff ht hi).mpr ((create_sentinel_ok_iff ht hi).mp h)
  · obtain ⟨discovery, hd⟩ := h
    exact create_hiredis ht (fun hc => create_redisCluster hc discovery hd) hi

/-- The environment gives an address at least. -/
theorem readEnv_nonempty {r : ConfigurationReader}
    (hsrc : r.sourceForDatabaseConfiguration = DB_HOST_ENV_VAR_NAME)
    (h : r.readDatabaseConfiguration net .new = .ok d) : d.serverAddresses ≠ [] := by
  obtain ⟨d₁, d₂, xs, -, -, hxs, hfold, rfl⟩ := readEnv_fold hsrc h
  rw [applySentinel_addresses]
  intro he
  have hlen := (foldlM_adds hfold).length
  rw [he, List.length_nil] at hlen
  have := List.length_pos_of_ne_nil hxs
  omega

theorem creatable_iff {r : ConfigurationReader}
    (hd : r.readDatabaseConfiguration net .new = .ok d) :
    Creatable net d ↔ Routable r net d := by
  have hsentinel : ∀ ns, ∀ i ∈ addressIndexes d, d.dbType.isSentinel →
      ((∃ discovery, AsyncDatabaseDiscovery.create net (some ns) d i = .ok discovery) ↔
        ∃ a, d.serverAddresses[i.getD 0]? = some a ∧ Parses net a.host) :=
    fun ns i hi ht => create_sentinel_ok_iff ht (addressIndexes_lt hi)
  have hredis : d.dbType = .redisSentinel → addressIndexes d = [none] := by
    intro ht
    unfold addressIndexes
    rw [ht]
    rfl
  have hcluster : d.dbType = .sdlSentinelCluster →
      addressIndexes d = (List.range d.serverAddresses.length).map some := by
    intro ht
    unfold addressIndexes
    rw [ht]
    rfl
  constructor
  · intro h
    refine ⟨fun ht => ?_, fun _ ht => ?_, fun ht a ha => ?_, fun ht a ha => ?_⟩
    · have hmem : none ∈ addressIndexes d := by
        unfold addressIndexes
        rw [ht]
        exact List.mem_singleton_self _
      obtain ⟨discovery, hd⟩ := h.create [] none hmem
      exact create_redisCluster ht discovery hd
    · rcases ht with ht | ht
      · exact h.nonempty ht
      · have hmem : none ∈ addressIndexes d := by rw [hredis ht]; exact List.mem_singleton_self _
        obtain ⟨a, ha, -⟩ := (hsentinel [] none hmem (.inl ht)).mp (h.create [] none hmem)
        exact List.ne_nil_of_mem (List.mem_of_getElem? ha)
    · have hmem : none ∈ addressIndexes d := by rw [hredis ht]; exact List.mem_singleton_self _
      obtain ⟨a', ha', hp⟩ := (hsentinel [] none hmem (.inl ht)).mp (h.create [] none hmem)
      rw [Option.getD_none, ← List.head?_eq_getElem?] at ha'
      cases (Option.mem_def.mp ha).symm.trans ha'
      exact hp
    · obtain ⟨k, hk, rfl⟩ := List.getElem_of_mem ha
      have hmem : some k ∈ addressIndexes d := by
        rw [hcluster ht]
        exact List.mem_map_of_mem (List.mem_range.mpr hk)
      obtain ⟨a', ha', hp⟩ := (hsentinel [] (some k) hmem (.inr ht)).mp (h.create [] (some k) hmem)
      cases (List.getElem?_eq_getElem hk).symm.trans ha'
      exact hp
  · intro h
    have hne : isSdlCluster d.dbType ∨ d.dbType = .redisSentinel → d.serverAddresses ≠ [] := by
      intro ht
      by_cases hsrc : r.sourceForDatabaseConfiguration = DB_HOST_ENV_VAR_NAME
      · exact readEnv_nonempty hsrc hd
      · exact h.servers hsrc ht
    refine ⟨fun hc => hne (.inl hc), fun ns i hi => ?_⟩
    by_cases ht : d.dbType.isSentinel
    · refine (hsentinel ns i hi ht).mpr ?_
      rcases ht with ht | ht
      · rw [hredis ht, List.mem_singleton] at hi
        subst hi
        obtain ⟨a, l, hl⟩ := List.exists_cons_of_ne_nil (hne (.inr ht))
        refine ⟨a, by rw [hl]; rfl, h.sentinel ht a ?_⟩
        rw [hl]
        rfl
      · rw [hcluster ht] at hi
        obtain ⟨k, hk, rfl⟩ := List.mem_map.mp hi
        have hk := List.mem_range.mp hk
        exact ⟨_, List.getElem?_eq_getElem hk, h.cluster ht _ (List.getElem_mem hk)⟩
    · exact create_hiredis ht h.supported (addressIndexes_lt hi)

end Create

/-! ## An operation -/

section Operation

variable {net : Resolver} {d : DatabaseConfigurationImpl}
    {n : NamespaceConfigurationsImpl} {ns : Namespace}

/-- The storages are all there. -/
def Complete (net : Resolver) (engine : E) (d : DatabaseConfigurationImpl)
    (l : List (AsyncRedisStorage E)) : Prop :=
  ∃ ns₀, List.Forall₂ (Serves net engine d ns₀) (addressIndexes d) l

/-- The storage of a namespace, if they are all there. -/
theorem Complete.route (hc : Creatable net d) {engine : E} {l : List (AsyncRedisStorage E)}
    (h : Complete net engine d l) (ns : Namespace) : ∃ s ns₀, l[routeIndex d ns]? = some s ∧
      Serves net engine d ns₀ (addressIndex d (routeIndex d ns)) s := by
  obtain ⟨ns₀, hf⟩ := h
  obtain ⟨hlt, hget⟩ := List.getElem?_eq_some_iff.mp (addressIndexes_route hc ns)
  have hlt' : routeIndex d ns < l.length := by rw [← hf.length_eq]; exact hlt
  refine ⟨l[routeIndex d ns], ns₀, List.getElem?_eq_getElem hlt', ?_⟩
  have := hf.get hlt hlt'
  rw [List.get_eq_getElem, hget] at this
  exact this

/-- With complete storages the handler of a namespace is its storage. -/
theorem getAsyncRedisStorageHandler_spec (hc : Creatable net d) {x : AsyncStorageImpl E}
    (hd : x.databaseConfiguration = d) {s : AsyncRedisStorage E}
    (hs : x.asyncStorages[routeIndex d ns]? = some s) :
    x.getAsyncRedisStorageHandler ns = .ok (.redis (routeIndex d ns) s) := by
  have hindex : x.handlerIndex ns = .ok (routeIndex d ns) := by
    unfold AsyncStorageImpl.handlerIndex routeIndex
    rw [hd]
    by_cases ht : isSdlCluster d.dbType
    · rw [if_pos ht, if_pos ht, getClusterHashIndex, if_neg (Nat.ne_of_gt (hc.length_pos ht))]
    · rw [if_neg ht, if_neg ht]
  simp only [AsyncStorageImpl.getAsyncRedisStorageHandler, hindex, bind, Except.bind, hs]

/-- `serverCount` is not set, or it is the number of addresses. -/
def CountOk (st : Statics E) (d : DatabaseConfigurationImpl) : Prop :=
  st.serverCount = none ∨ st.serverCount = some d.serverAddresses.length

theorem countOk_iff {st : Statics E} : CountOk st d ↔
    st.serverCount.getD d.serverAddresses.length = d.serverAddresses.length := by
  unfold CountOk
  cases st.serverCount with
  | none => simp
  | some m => simp

theorem CountOk.createdIndexes {st : Statics E} (h : CountOk st d) :
    createdIndexes st d = addressIndexes d := by
  unfold Routing.createdIndexes addressIndexes
  rw [countOk_iff.mp h]

/-- What an operation with DB backend does. -/
theorem getRedisHandler_spec (hc : Creatable net d) {st : Statics E} {x : AsyncStorageImpl E}
    (hd : x.databaseConfiguration = d) (hcount : CountOk st d)
    (hx : x.asyncStorages = [] ∨ Complete net x.engine d x.asyncStorages) (ns : Namespace) :
    ∃ l s, (x.getRedisHandler net st ns).2 = ({ x with asyncStorages := l },
      .ok (.redis (routeIndex d ns) s)) ∧
      Complete net x.engine d l ∧ (x.asyncStorages ≠ [] → l = x.asyncStorages) ∧
      l[routeIndex d ns]? = some s := by
  subst hd
  by_cases he : x.asyncStorages = []
  · obtain ⟨l, hl, h⟩ := @getRedisHandler_first E net ns st x he
    rw [hcount.createdIndexes] at h
    rcases h with ⟨hf, ho⟩ | ⟨e, -, -, i, hi, herr⟩
    · obtain ⟨s, ns₀, hs, -⟩ := Complete.route hc ⟨ns, hf⟩ ns
      refine ⟨l, s, Prod.ext hl ?_, ⟨ns, hf⟩, fun h => absurd he h, hs⟩
      rw [ho]
      exact @getAsyncRedisStorageHandler_spec E net _ ns hc { x with asyncStorages := l } rfl s hs
    · obtain ⟨discovery, hok⟩ := hc.create ns i hi
      rw [herr] at hok
      cases hok
  · have hcomplete : Complete net x.engine x.databaseConfiguration x.asyncStorages :=
      hx.resolve_left he
    obtain ⟨s, ns₀, hs, -⟩ := hcomplete.route hc ns
    refine ⟨x.asyncStorages, s, ?_, hcomplete, fun _ => rfl, hs⟩
    rw [getRedisHandler_later he, getAsyncRedisStorageHandler_spec hc rfl hs]

/-- The first operation with DB backend succeeds only if all storages can be created. -/
theorem creatable_of_first {st : Statics E} {x : AsyncStorageImpl E}
    (hcount : CountOk st x.databaseConfiguration)
    (he : x.asyncStorages = []) {h : Handler E} (hok : (x.getRedisHandler net st ns).2.2 = .ok h) :
    Creatable net x.databaseConfiguration := by
  obtain ⟨l, -, hspec⟩ := @getRedisHandler_first E net ns st x he
  rw [hcount.createdIndexes] at hspec
  rcases hspec with ⟨hf, ho⟩ | ⟨e, ho, -⟩
  · rw [ho] at hok
    refine ⟨fun ht hempty => ?_, fun ns' i hi => ?_⟩
    · simp only [AsyncStorageImpl.getAsyncRedisStorageHandler, AsyncStorageImpl.handlerIndex,
        if_pos ht, hempty] at hok
      cases hok
    · obtain ⟨k, hk, rfl⟩ := List.getElem_of_mem hi
      have hserves := hf.get hk (by rw [← hf.length_eq]; exact hk)
      exact create_ok_ns (addressIndexes_lt hi) ns' ⟨_, hserves.2⟩
  · rw [ho] at hok
    cases hok

end Operation

/-! ## The namespaces -/

section Namespaces

variable {asBool : Bytes → Option Bool} {items : List (Bytes × PTree × Bytes)}
    {n : NamespaceConfigurationsImpl}

/-- A lookup finds a configuration, and the table holds what the search gives. -/
structure Lookup (n : NamespaceConfigurationsImpl) : Prop where
  cached : Cached n
  found : ∀ ns, ∃ c, n.namespaceConfigurations[n.search ns]? = some c

theorem read_lookup (h : readNamespaceConfigurations asBool items .new = .ok n) : Lookup n := by
  have hes : items = (items.map fun i => (⟨i.1, i.2.1, i.2.2⟩ : Entry)).map Entry.item := by
    rw [List.map_map]
    exact (List.map_id' items).symm
  have h : items.foldlM (parseNsConfiguration asBool) .new = .ok n := h
  rw [hes] at h
  rcases @parse_items asBool (items.map fun i => ⟨i.1, i.2.1, i.2.2⟩) .new rfl with
    ⟨cs, -, -, hr⟩ | ⟨e, -, -, x, hx⟩
  · rw [hr] at h
    cases h
    refine ⟨fun ns i hf => (by cases hf), fun ns => ?_⟩
    rcases @search_spec ns ⟨[getDefaultNamespaceConfiguration] ++ cs, .empty⟩ _ cs rfl with
      ⟨c, -, hget, -⟩ | ⟨hget, -⟩
    · exact ⟨c, hget⟩
    · exact ⟨_, hget⟩
  · rw [hx] at h
    cases h

theorem Lookup.isDbBackendUseEnabled (h : Lookup n) (ns : Namespace) :
    ∃ b, n.isDbBackendUseEnabled ns = some b := by
  obtain ⟨c, hc⟩ := h.found ns
  refine ⟨c.dbBackendIsUsed, ?_⟩
  rw [NamespaceConfigurationsImpl.isDbBackendUseEnabled, (h.cached.find ns).1, hc]
  rfl

/-- The answer does not depend on what was asked before. -/
theorem Lookup.asked (h : Lookup n) (nss : List Namespace) (ns : Namespace) :
    (n.asked nss).isDbBackendUseEnabled ns = n.isDbBackendUseEnabled ns := by
  rw [NamespaceConfigurationsImpl.isDbBackendUseEnabled, h.cached.asked nss ns,
    NamespaceConfigurationsImpl.isDbBackendUseEnabled, (h.cached.find ns).1]

theorem asked_append (n : NamespaceConfigurationsImpl) (nss : List Namespace) (ns : Namespace) :
    ((n.asked nss).findConfigurationForNamespace ns).1 = n.asked (nss ++ [ns]) := by
  rw [NamespaceConfigurationsImpl.asked, NamespaceConfigurationsImpl.asked, List.foldl_append]
  rfl

end Namespaces

/-! ## The runs -/

section Run

variable {net : Resolver} {engine : E} {d : DatabaseConfigurationImpl}
    {n : NamespaceConfigurationsImpl}
  {c c' : Client E} {op : Operation}

/-- The entry of an operation in the log, for the storages that there are now. -/
def Logged (engine : E) (d : DatabaseConfigurationImpl) (n : NamespaceConfigurationsImpl)
    (storages : List (AsyncRedisStorage E)) (ns : Namespace)
      (o : Except RoutingFailure (Handler E)) : Prop :=
  (n.isDbBackendUseEnabled ns = some true ∧ ∃ s, storages[routeIndex d ns]? = some s ∧
    o = .ok (.redis (routeIndex d ns) s)) ∨
  (n.isDbBackendUseEnabled ns = some false ∧ o = .ok (.dummy engine))

/-- Storages that are there stay. -/
theorem Logged.mono {l l' : List (AsyncRedisStorage E)} (h : l ≠ [] → l' = l) {ns : Namespace}
    {o : Except RoutingFailure (Handler E)} (ho : Logged engine d n l ns o) :
    Logged engine d n l' ns o := by
  rcases ho with ⟨hb, s, hs, ho⟩ | ho
  · refine .inl ⟨hb, s, ?_, ho⟩
    rw [h (List.ne_nil_of_mem (List.mem_of_getElem? hs))]
    exact hs
  · exact .inr ho

/-- What holds of every run, whatever was created. -/
structure Base (engine : E) (d : DatabaseConfigurationImpl) (n : NamespaceConfigurationsImpl)
    (c : Client E) : Prop where
  own : c.impl.engine = engine
  database : c.impl.databaseConfiguration = d
  namespaces : ∃ nss, c.impl.namespaceConfigurations = n.asked nss
  count : CountOk c.statics d
  dummy : c.statics.dummyHandler.getD engine = engine
  ended : c.ended = true → ∃ e ∈ c.log, ends e.2 = true

theorem step_eq (hs : (client net engine d n).step c op = some c') :
    c' = ⟨(c.impl.getOperationHandler net c.statics op.ns).1,
      (c.impl.getOperationHandler net c.statics op.ns).2.1,
      c.log ++ [(op, (c.impl.getOperationHandler net c.statics op.ns).2.2)],
      ends (c.impl.getOperationHandler net c.statics op.ns).2.2⟩ := by
  simp only [client] at hs
  split at hs
  · cases hs
  · cases hs
    rfl

theorem Base.step (h : Base engine d n c) (hs : (client net engine d n).step c op = some c') :
    Base engine d n c' := by
  obtain ⟨nss, hnss⟩ := h.namespaces
  obtain ⟨⟨l, hl⟩, hcount, hdummy⟩ := @getOperationHandler_keeps E net op.ns c.statics c.impl
  rw [h.database] at hcount
  rw [h.own] at hdummy
  rw [step_eq hs]
  refine ⟨?_, ?_, ⟨nss ++ [op.ns], ?_⟩, ?_, hdummy.trans h.dummy,
    fun he => ⟨_, List.mem_append_right _ List.mem_cons_self, he⟩⟩
  · rw [hl]
    exact h.own
  · rw [hl]
    exact h.database
  · rw [hl, hnss]
    exact asked_append n nss op.ns
  · exact countOk_iff.mpr (hcount.trans (countOk_iff.mp h.count))

theorem Base.reach (h : (client net engine d n).Reach Sys.always c) : Base engine d n c := by
  refine h.invariant (I := Base engine d n) ?_ fun c op c' hi _ hs => hi.step hs
  exact ⟨rfl, rfl, ⟨[], rfl⟩, .inl rfl, rfl, fun he => by cases he⟩

/-- The kind of a namespace. -/
theorem Base.backend (hn : Lookup n) (h : Base engine d n c) (ns : Namespace) :
    c.impl.namespaceConfigurations.isDbBackendUseEnabled ns = n.isDbBackendUseEnabled ns := by
  obtain ⟨nss, hnss⟩ := h.namespaces
  rw [hnss]
  exact hn.asked nss ns

structure Inv (net : Resolver) (engine : E) (d : DatabaseConfigurationImpl)
    (n : NamespaceConfigurationsImpl) (c : Client E) : Prop where
  base : Base engine d n c
  storages : c.impl.asyncStorages = [] ∨ Complete net engine d c.impl.asyncStorages
  log : ∀ op o, (op, o) ∈ c.log → Logged engine d n c.impl.asyncStorages op.ns o

theorem Inv.step (hc : ∀ ns, n.isDbBackendUseEnabled ns = some true → Creatable net d)
    (hn : Lookup n) (h : Inv net engine d n c) (hs : (client net engine d n).step c op = some c') :
    Inv net engine d n c' := by
  have hbase := h.base.step hs
  -- The storages and the log, if the operation has this outcome.
  have hkeep : ∀ {l : List (AsyncRedisStorage E)} {o : Except RoutingFailure (Handler E)},
      c'.impl.asyncStorages = l → c'.log = c.log ++ [(op, o)] → (l = [] ∨ Complete net engine d l) →
      (c.impl.asyncStorages ≠ [] → l = c.impl.asyncStorages) → Logged engine d n l op.ns o →
      Inv net engine d n c' := by
    intro l o hl hlog hcomplete hmono ho
    subst hl
    refine ⟨hbase, hcomplete, fun op' o' hm => ?_⟩
    rw [hlog] at hm
    rcases List.mem_append.mp hm with hm | hm
    · exact (h.log op' o' hm).mono hmono
    · cases List.mem_singleton.mp hm
      exact ho
  have hc' := step_eq hs
  have hfound := h.base.backend hn op.ns
  obtain ⟨b, hb⟩ := hn.isDbBackendUseEnabled op.ns
  rw [hb] at hfound
  cases b with
  | true =>
    rw [getOperationHandler_redis hfound] at hc'
    obtain ⟨l, s, hr, hcomplete, hmono, hget⟩ :=
      @getRedisHandler_spec E net d (hc op.ns hb) c.statics
      { c.impl with namespaceConfigurations :=
                      (c.impl.namespaceConfigurations.findConfigurationForNamespace op.ns).1 }
      h.base.database h.base.count (by rw [h.base.own]; exact h.storages) op.ns
    rw [h.base.own] at hcomplete
    rw [hr] at hc'
    exact hkeep (by rw [hc']) (by rw [hc']) (.inr hcomplete) hmono (.inl ⟨hb, s, hget, rfl⟩)
  | false =>
    rw [getOperationHandler_dummy hfound] at hc'
    simp only [AsyncStorageImpl.getDummyHandler, h.base.own, h.base.dummy] at hc'
    exact hkeep (by rw [hc']) (by rw [hc']) h.storages (fun _ => rfl) (.inr ⟨hb, rfl⟩)

theorem Inv.reach (hc : ∀ ns, n.isDbBackendUseEnabled ns = some true → Creatable net d)
    (hn : Lookup n) (h : (client net engine d n).Reach Sys.always c) : Inv net engine d n c := by
  refine h.invariant (I := Inv net engine d n) ?_ fun c op c' hi _ hs => hi.step hc hn hs
  exact ⟨Base.reach .init, .inl rfl, fun op o hm => by cases hm⟩

theorem Inv.routed (hc : ∀ ns, n.isDbBackendUseEnabled ns = some true → Creatable net d)
    (h : Inv net engine d n c) : Routed net engine d n c := by
  refine ⟨fun op o hm => ?_, fun op op' o o' hm hm' hns => ?_⟩
  · rcases h.log op o hm with ⟨hb, s, hs, ho⟩ | ⟨hb, ho⟩
    · have hcomplete := h.storages.resolve_left (List.ne_nil_of_mem (List.mem_of_getElem? hs))
      obtain ⟨s', ns₀, hs', hserves⟩ := hcomplete.route (hc op.ns hb) op.ns
      cases hs.symm.trans hs'
      exact ⟨_, ho, .inl ⟨hb, s, ns₀, rfl, hserves⟩⟩
    · exact ⟨_, ho, .inr ⟨hb, rfl⟩⟩
  · have h₁ := h.log op o hm
    have h₂ := h.log op' o' hm'
    rw [hns] at h₁
    rcases h₁ with ⟨hb, s, hs, ho⟩ | ⟨hb, ho⟩ <;> rcases h₂ with ⟨hb', s', hs', ho'⟩ | ⟨hb', ho'⟩
    · cases hs.symm.trans hs'
      rw [ho, ho']
    · cases hb.symm.trans hb'
    · cases hb.symm.trans hb'
    · rw [ho, ho']

/-- The first operation of a namespace with DB backend is routed only if all storages can be
created. -/
theorem creatable_of_routed {ns : Namespace} (hb : n.isDbBackendUseEnabled ns = some true)
    (h : ∀ c, (client net engine d n).Reach Sys.always c → Routed net engine d n c) :
    Creatable net d := by
  let r := (AsyncStorageImpl.new engine d n).getOperationHandler net .unset ns
  have hreach : (client net engine d n).Reach Sys.always
      ⟨r.1, r.2.1, [(.waitReadyAsync ns, r.2.2)], ends r.2.2⟩ :=
    @Sys.Reach.step _ _ (client net engine d n) _ _ _ (.waitReadyAsync ns) .init trivial rfl
  obtain ⟨hd, hok, -⟩ := (h _ hreach).total (.waitReadyAsync ns) r.2.2 (List.mem_singleton_self _)
  have hr : r = _ := getOperationHandler_redis hb
  rw [hr] at hok
  exact @creatable_of_first E net ns .unset ⟨engine, d, _, []⟩ (.inl rfl) rfl _ hok

end Run

/-! ## Two clients -/

section Clients

variable {net : Resolver} {engine : E} {d : DatabaseConfigurationImpl}
    {n : NamespaceConfigurationsImpl}

theorem getAsyncRedisStorageHandler_index {x : AsyncStorageImpl E} {ns : Namespace} {i : Nat}
    {s : AsyncRedisStorage E} (h : x.getAsyncRedisStorageHandler ns = .ok (.redis i s)) :
    i = routeIndex x.databaseConfiguration ns := by
  unfold AsyncStorageImpl.getAsyncRedisStorageHandler at h
  obtain ⟨j, hj, h⟩ := bind_ok_iff.mp h
  have hi : i = j := by
    split at h
    · cases h
      rfl
    · cases h
  subst hi
  unfold AsyncStorageImpl.handlerIndex getClusterHashIndex at hj
  unfold routeIndex
  split_ifs at hj ⊢ <;> cases hj <;> rfl

/-- Whatever was created, a storage is taken by the index of the namespace. -/
theorem getOperationHandler_index (st : Statics E) (x : AsyncStorageImpl E)
    (ns : Namespace) {i : Nat}
    {s : AsyncRedisStorage E} (h : (x.getOperationHandler net st ns).2.2 = .ok (.redis i s)) :
    i = routeIndex x.databaseConfiguration ns := by
  have hredis : ∀ x : AsyncStorageImpl E, (x.getRedisHandler net st ns).2.2 = .ok (.redis i s) →
      i = routeIndex x.databaseConfiguration ns := by
    intro x h
    by_cases he : x.asyncStorages = []
    · obtain ⟨l, -, ⟨-, ho⟩ | ⟨e, ho, -⟩⟩ := @getRedisHandler_first E net ns st x he
      · rw [ho] at h
        exact @getAsyncRedisStorageHandler_index E { x with asyncStorages := l } ns i s h
      · rw [ho] at h
        cases h
    · rw [getRedisHandler_later he] at h
      exact getAsyncRedisStorageHandler_index h
  unfold AsyncStorageImpl.getOperationHandler at h
  simp only at h
  split at h
  · have := hredis _ h
    exact this
  · cases h
  · cases h

theorem reach_index {c : Client E} (h : (client net engine d n).Reach Sys.always c) :
    ∀ op i s, (op, .ok (.redis i s)) ∈ c.log → i = routeIndex d op.ns := by
  induction h with
  | init => exact fun op i s hm => by cases hm
  | step hr _ hs ih =>
    rw [step_eq hs]
    intro op i s hm
    rcases List.mem_append.mp hm with hm | hm
    · exact ih op i s hm
    · obtain ⟨rfl, ho⟩ := Prod.mk.inj (List.mem_singleton.mp hm)
      rw [← (Base.reach hr).database]
      exact getOperationHandler_index _ _ _ ho.symm

end Clients

/-- **Routing.** Every operation of every run of an instance has the handler of its namespace, and
always the same one, exactly if the database is never used or the configuration that was read is
routable. Two clients with the same address list, both SDL clusters or none, take the storage with
the same index for a namespace. -/
theorem routing_total_iff (net : Resolver) (r : ConfigurationReader) (d : DatabaseConfigurationImpl)
    (hd : r.readDatabaseConfiguration net .new = .ok d) (asBool : Bytes → Option Bool)
    (items : List (Bytes × PTree × Bytes)) (n : NamespaceConfigurationsImpl)
    (hn : readNamespaceConfigurations asBool items .new = .ok n) (engine : E) :
    ((∀ c, (client net engine d n).Reach Sys.always c → Routed net engine d n c) ↔
      ((∃ ns, n.isDbBackendUseEnabled ns = some true) → Routable r net d)) ∧
    ∀ (d' : DatabaseConfigurationImpl) (n' : NamespaceConfigurationsImpl) (engine' : E)
    (c c' : Client E),
      (isSdlCluster d'.dbType ↔ isSdlCluster d.dbType) → d'.serverAddresses = d.serverAddresses →
      (client net engine d n).Reach Sys.always c → (client net engine' d' n').Reach Sys.always c' →
      ∀ op op' i i' s s', op.ns = op'.ns → (op, .ok (.redis i s)) ∈ c.log →
      (op', .ok (.redis i' s')) ∈ c'.log →
        i = i' := by
  have hlookup := read_lookup hn
  refine ⟨⟨fun h => ?_, fun h c hreach => ?_⟩,
    fun d' n' engine' c c' ht ha h h' op op' i i' s s' hns hm hm' => ?_⟩
  · rintro ⟨ns, hb⟩
    exact (creatable_iff hd).mp (creatable_of_routed hb h)
  · have hc : ∀ ns, n.isDbBackendUseEnabled ns = some true → Creatable net d :=
      fun ns hb => (creatable_iff hd).mpr (h ⟨ns, hb⟩)
    exact (Inv.reach hc hlookup hreach).routed hc
  · rw [reach_index h op i s hm, reach_index h' op' i' s' hm', hns]
    unfold routeIndex
    simp only [ht, ha]

/-- A source with a database configuration. -/
def databaseSource (type : Bytes) (addresses : List Bytes) : Json :=
  let value (b : Bytes) : PTree := .node b []
  .tree (.node [] [(str "database", .node [] [(str "type", value type),
    (str "servers", .node [] (addresses.map fun a => ([], .node [] [(str "address", value a)])))])])

/-- Two servers without sentinels. -/
theorem routing_total_two_servers : ∃ r d,
    ConfigurationReader.new (fun _ => none)
      [(str "1.json", databaseSource (str "sdl-standalone-cluster") [str "db-0", str "db-1"])] =
      .ok r ∧
    r.readDatabaseConfiguration loopbackNet .new = .ok d ∧
    ∀ c, (client loopbackNet () d .new).Reach Sys.always c → Routed loopbackNet () d .new c := by
  obtain ⟨r, hr⟩ : ∃ r, ConfigurationReader.new (fun _ => none)
    [(str "1.json", databaseSource (str "sdl-standalone-cluster") [str "db-0", str "db-1"])] =
      .ok r := ⟨_, rfl⟩
  obtain ⟨d, hd⟩ : ∃ d, r.readDatabaseConfiguration loopbackNet .new = .ok d := by
    cases hr
    exact ⟨_, rfl⟩
  have hdb : d.dbType = .sdlStandaloneCluster ∧ d.serverAddresses.length = 2 := by
    cases hr
    cases hd
    exact ⟨rfl, rfl⟩
  refine ⟨r, d, hr, hd, ((routing_total_iff loopbackNet r d hd
    (fun _ => none) [] .new rfl ()).1).mpr fun _ => ?_⟩
  refine ⟨fun ht => ?_, fun _ _ he => ?_, fun ht => ?_, fun ht => ?_⟩
  · cases hdb.1.symm.trans ht
  · rw [he] at hdb
    cases hdb.2
  · cases hdb.1.symm.trans ht
  · cases hdb.1.symm.trans ht

/-- With an empty list of servers, which the reader accepts, the first operation divides by zero. -/
theorem routing_no_servers : ∃ r d,
    ConfigurationReader.new (fun _ => none)
    [(str "1.json", databaseSource (str "sdl-standalone-cluster") [])] = .ok r ∧
    r.readDatabaseConfiguration loopbackNet .new = .ok d ∧
    ∃ c op, (client loopbackNet () d .new).Reach Sys.always c ∧ (op, .error .divideByZero) ∈ c.log ∧
      ¬ Routed loopbackNet () d .new c := by
  obtain ⟨r, hr⟩ : ∃ r, ConfigurationReader.new (fun _ => none)
    [(str "1.json", databaseSource (str "sdl-standalone-cluster") [])] = .ok r := ⟨_, rfl⟩
  obtain ⟨d, hd⟩ : ∃ d, r.readDatabaseConfiguration loopbackNet .new = .ok d := by
    cases hr
    exact ⟨_, rfl⟩
  have hstep : ∃ c, (client loopbackNet () d .new).step (client loopbackNet () d .new).init
      (.waitReadyAsync (str "ns")) = some c ∧
        (.waitReadyAsync (str "ns"), .error .divideByZero) ∈ c.log := by
    cases hr
    cases hd
    exact ⟨_, rfl, List.mem_singleton_self _⟩
  obtain ⟨c, hs, hm⟩ := hstep
  refine ⟨r, d, hr, hd, c, _, .step .init trivial hs, hm, fun h => ?_⟩
  obtain ⟨handler, ho, -⟩ := h.total _ _ hm
  cases ho

end Routing
end Sdl
