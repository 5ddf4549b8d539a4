import SharedDataLayer.Redis.Store
import SharedDataLayer.Routing.Instances

/-!
# Many clients, one store

Several processes, each with an `AsyncStorageImpl` of its own and the configuration that it has
read. A process has a Redis storage for each server address (SDL clusters) or one for all of them,
and gives an operation to the storage of the checksum of its namespace, or to the dummy storage.

A storage is connected to the database that its discovery leads to: the server at its first
address, or the master with this name that a Sentinel reports. `site` says which server this is;
it is the same for all processes, and one server may be found in several ways.

The processes agree on the type of the database, the list of the server addresses and, with
Sentinels, their ports and the names of the masters. The rest of their configurations may differ,
and so may the order in which their storages were created.

* `create_database`: configurations that agree lead to the same databases.
* `fleetSpec`: one abstract store, and the acks that the dummy storage gives.
* `operate_spec`: one operation of one process.
* `fleet_refinement`: every sequence of operations, by any of the processes in any order.
-/

namespace Sdl
namespace Routing

open Spec Config Redis

/-! ## The database of a storage -/

/-- What a dispatcher connects to. -/
inductive Database where
  | address (host : Bytes) (port : Port)
  | master (sentinel : HostAndPort) (sentinelMasterName : Bytes)
  deriving DecidableEq

/-- `none` if there is no address: the dispatcher is given `hosts.at(0)`. -/
def databaseOf : AsyncDatabaseDiscovery → Option Database
  | .hiredis databaseInfo => databaseInfo.hosts.head?.map fun a => .address a.host a.port
  | .sentinel databaseInfo sentinelMasterName =>
    databaseInfo.hosts.head?.map fun a => .master a sentinelMasterName

/-- The database of a namespace, as the configuration has it. -/
def databaseFor (net : Resolver) (d : DatabaseConfigurationImpl) (ns : Namespace) :
    Option Database :=
  match AsyncDatabaseDiscovery.create net none d (addressIndex d (routeIndex d ns)) with
  | .ok discovery => databaseOf discovery
  | .error _ => none

/-- Two configurations with the same databases. The rest of the lists of the Sentinels does not
matter. -/
structure SameDatabases (d d' : DatabaseConfigurationImpl) : Prop where
  dbType : d.dbType = d'.dbType
  addresses : d.serverAddresses = d'.serverAddresses
  ports : d.dbType.isSentinel → ∀ i : Nat,
    d.sentinelPorts[i]?.getD (htons DEFAULT_SENTINEL_PORT) =
      d'.sentinelPorts[i]?.getD (htons DEFAULT_SENTINEL_PORT)
  names : d.dbType.isSentinel → ∀ idx, d.getSentinelMasterName idx = d'.getSentinelMasterName idx

section Databases

variable {net : Resolver} {d d' : DatabaseConfigurationImpl} {ns ns' : Option Namespace}
  {idx : Option Nat}

theorem SameDatabases.routeIndex (h : SameDatabases d d') (ns : Namespace) :
    routeIndex d ns = routeIndex d' ns := by
  unfold Routing.routeIndex
  rw [h.dbType, h.addresses]

theorem SameDatabases.addressIndex (h : SameDatabases d d') (i : Nat) :
    addressIndex d i = addressIndex d' i := by
  unfold Routing.addressIndex
  rw [h.dbType]

theorem staticAddresses_nonempty {l : List HostAndPort}
    (h : staticAddresses net d idx = .ok l) : l ≠ [] := by
  obtain ⟨addresses, -, h⟩ := bind_ok_iff.mp h
  split at h
  · obtain ⟨a, -, h⟩ := bind_ok_iff.mp h
    cases h
    exact List.cons_ne_nil _ _
  · rename_i he
    cases h
    simpa using he

/-- The discoveries of configurations that agree, for any namespaces, lead to one database. -/
theorem create_database (h : SameDatabases d d') {discovery : AsyncDatabaseDiscovery}
    (hc : AsyncDatabaseDiscovery.create net ns d idx = .ok discovery) :
    ∃ b, databaseOf discovery = some b ∧
      ∃ discovery', AsyncDatabaseDiscovery.create net ns' d' idx = .ok discovery' ∧
        databaseOf discovery' = some b := by
  have hstatic : staticAddresses net d' idx = staticAddresses net d idx := by
    unfold staticAddresses DatabaseConfigurationImpl.getServerAddresses
      DatabaseConfigurationImpl.serverAddressAt
    rw [h.addresses]
  obtain ⟨l, hl, hc⟩ := bind_ok_iff.mp hc
  obtain ⟨a, l, rfl⟩ := List.exists_cons_of_ne_nil (staticAddresses_nonempty hl)
  split at hc
  · cases hc
  · rename_i hcluster
    split at hc
    · rename_i hs
      obtain ⟨sentinel, hsentinel, hc⟩ := bind_ok_iff.mp hc
      have hsame : d'.getSentinelAddress net idx = d.getSentinelAddress net idx := by
        unfold DatabaseConfigurationImpl.getSentinelAddress
          DatabaseConfigurationImpl.serverAddressAt
        simp only [h.addresses, h.ports hs]
      cases sentinel with
      | none => cases hc
      | some sentinel =>
        cases hc
        refine ⟨_, rfl, .sentinel (Sentinel.databaseInfo sentinel)
          (d'.getSentinelMasterName idx), ?_, ?_⟩
        · unfold AsyncDatabaseDiscovery.create
          simp only [hstatic, hl, bind, Except.bind, ← h.dbType, if_neg hcluster, if_pos hs,
            hsame, hsentinel]
        · rw [h.names hs]
          rfl
    · rename_i hs
      cases hc
      refine ⟨_, rfl, .hiredis ⟨a :: l, .single, ns', .hiredis⟩, ?_, rfl⟩
      unfold AsyncDatabaseDiscovery.create
      simp only [hstatic, hl, bind, Except.bind, ← h.dbType, if_neg hcluster, if_neg hs]

end Databases

/-! ## The processes -/

variable {E : Type}

/-- What a process has read. Its storages can be created if it needs them; `creatable_iff` says of
which configurations this is true. -/
structure Member (net : Resolver) extends Configuration where
  creatable : ∀ ns, namespaces.isDbBackendUseEnabled ns = some true → Creatable net database

/-- A process whose configuration was read, and is routable if a namespace has DB backend. -/
def Member.ofRead {net : Resolver} {r : ConfigurationReader} {d : DatabaseConfigurationImpl}
    (hd : r.readDatabaseConfiguration net .new = .ok d) {asBool : Bytes → Option Bool}
    {items : List (Bytes × PTree × Bytes)} {n : NamespaceConfigurationsImpl}
    (hn : readNamespaceConfigurations asBool items .new = .ok n)
    (hr : (∃ ns, n.isDbBackendUseEnabled ns = some true) → Routable r net d) : Member net :=
  ⟨⟨d, n, read_lookup hn⟩, fun ns hb => (creatable_iff hd).mpr (hr ⟨ns, hb⟩)⟩

structure Fleet (E : Type) where
  clients : Nat → Client E
  servers : Nat → Server

section Operate

variable (net : Resolver) (engine : Nat → E) (members : Nat → Member net)
  (cfg : Nat → Redis.Config) (r : Choices) (site : Database → Nat)

/-- The process `j`. -/
def member (j : Nat) : Sys (Client E) Operation :=
  client net (engine j) (members j).database (members j).namespaces

/-- All processes before their first operation. -/
def Fleet.start (servers : Nat → Server) : Fleet E :=
  ⟨fun j => (member net engine members j).init, servers⟩

/-- The requests of an operation go to the server of the storage. -/
def onStorage (w : Fleet E) (j : Nat) (op : StoreOp) (storage : AsyncRedisStorage E) :
    Option (OperationAck × Fleet E) :=
  match databaseOf storage.asyncDatabaseDiscovery with
  | none => none
  | some b =>
    match perform r (w.servers (site b)) (op.toOp.request (cfg j) true) with
    | some (.ack a, s) => some (.data a, { w with servers := Function.update w.servers (site b) s })
    | _ => none

/-- An operation of the process `j`, up to its ack. `none` if the process has ended, or the
operation has no handler or gets an error reply. -/
def operate (w : Fleet E) (j : Nat) (op : StoreOp) : Option (OperationAck × Fleet E) :=
  match (member net engine members j).step (w.clients j) (.data op.toOp) with
  | none => none
  | some c =>
    let w' := { w with clients := Function.update w.clients j c }
    match ((w.clients j).impl.getOperationHandler net (w.clients j).statics op.ns).2.2 with
    | .ok (.redis _ storage) => onStorage cfg r site w' j op storage
    | .ok (.dummy _) => some (dummyAck (.data op.toOp), w')
    | .error _ => none

def operateAll : List (Nat × StoreOp) → Fleet E → Option (List OperationAck × Fleet E)
  | [], w => some ([], w)
  | (j, op) :: es, w =>
    match operate net engine members cfg r site w j op with
    | some (a, w') => (operateAll es w').map fun p => (a :: p.1, p.2)
    | none => none

/-! ## The abstract store -/

/-- With DB backend the operation acts on the store of all processes, and without it on nothing. -/
def fleetSpec (j : Nat) (op : StoreOp) (s : Store) : OperationAck × Store :=
  if (members j).namespaces.isDbBackendUseEnabled op.ns = some true then
    (.data (op.spec s).1, (op.spec s).2)
  else (dummyAck (.data op.toOp), s)

def fleetSpecAll : List (Nat × StoreOp) → Store → List OperationAck × Store
  | [], s => ([], s)
  | (j, op) :: es, s =>
    ((fleetSpec net members j op s).1 :: (fleetSpecAll es (fleetSpec net members j op s).2).1,
      (fleetSpecAll es (fleetSpec net members j op s).2).2)

/-- The store that the servers hold together: the entries of a namespace are on the server of its
database. -/
def fleetAbs (d : DatabaseConfigurationImpl) (w : Fleet E) : Store := fun ns =>
  match databaseFor net d ns with
  | some b => abs (w.servers (site b)) ns
  | none => fun _ => none

end Operate

/-! ## One operation -/

section Refinement

variable {net : Resolver} {engine : Nat → E} {members : Nat → Member net}
  {cfg : Nat → Redis.Config} {r : Choices} {site : Database → Nat}
  {d : DatabaseConfigurationImpl} {w : Fleet E}

/-- The processes have the databases of one configuration. -/
def Agree (members : Nat → Member net) (d : DatabaseConfigurationImpl) : Prop :=
  ∀ j, SameDatabases (members j).database d

/-- Every process is as its operations have left it. -/
def Started (net : Resolver) (engine : Nat → E) (members : Nat → Member net) (w : Fleet E) : Prop :=
  ∀ j, (member net engine members j).Reach Sys.always (w.clients j)

/-- A process goes on, and its operation has the handler of the namespace. -/
theorem Started.step (h : Started net engine members w) (j : Nat) (op : StoreOp) :
    ∃ c handler, (member net engine members j).step (w.clients j) (.data op.toOp) = some c ∧
      (member net engine members j).Reach Sys.always c ∧
      ((w.clients j).impl.getOperationHandler net (w.clients j).statics op.ns).2.2 = .ok handler ∧
      RoutedTo net (engine j) (members j).database (members j).namespaces op.ns handler := by
  have hinv : ∀ {c}, (member net engine members j).Reach Sys.always c →
      Inv net (engine j) (members j).database (members j).namespaces c :=
    fun hreach => Inv.reach (members j).creatable (members j).lookup hreach
  have hended : (w.clients j).ended = false := by
    rw [← Bool.not_eq_true]
    intro hend
    obtain ⟨e, he, hends⟩ := (hinv (h j)).base.ended hend
    obtain ⟨handler, ho, -⟩ := ((hinv (h j)).routed (members j).creatable).total e.1 e.2 he
    rw [ho] at hends
    cases hends
  obtain ⟨c, hst⟩ : ∃ c, (member net engine members j).step (w.clients j)
    (.data op.toOp) = some c := by
    simp only [member, client, hended]
    exact ⟨_, rfl⟩
  have hreach := Sys.Reach.step (h j) trivial hst
  have hlog : (.data op.toOp,
      ((w.clients j).impl.getOperationHandler net (w.clients j).statics op.ns).2.2) ∈ c.log := by
    rw [step_eq hst]
    exact List.mem_append_right _ (List.mem_singleton_self _)
  obtain ⟨handler, ho, hrouted⟩ := ((hinv hreach).routed (members j).creatable).total _ _ hlog
  exact ⟨c, handler, hst, hreach, ho, hrouted⟩

theorem Started.update (h : Started net engine members w) {j : Nat} {c : Client E}
    (hc : (member net engine members j).Reach Sys.always c) (servers : Nat → Server) :
    Started net engine members ⟨Function.update w.clients j c, servers⟩ := by
  intro i
  show (member net engine members i).Reach Sys.always (Function.update w.clients j c i)
  by_cases hi : i = j
  · subst hi
    rw [Function.update_self]
    exact hc
  · rw [Function.update_of_ne hi]
    exact h i

/-- The storage of a namespace is connected to the database of the namespace. -/
theorem create_databaseFor (hagree : Agree members d) {j : Nat} {ns ns₀ : Namespace}
    {discovery : AsyncDatabaseDiscovery} (hc : AsyncDatabaseDiscovery.create net (some ns₀)
      (members j).database (addressIndex (members j).database
        (routeIndex (members j).database ns)) = .ok discovery) :
    ∃ b, databaseOf discovery = some b ∧ databaseFor net d ns = some b := by
  obtain ⟨b, hb, discovery', hd, hb'⟩ := @create_database net _ _ (some ns₀) none _ (hagree j) _ hc
  refine ⟨b, hb, ?_⟩
  rw [(hagree j).addressIndex, (hagree j).routeIndex] at hd
  unfold databaseFor
  rw [hd]
  exact hb'

/-- Every namespace has a database, if the storages of a process can be created. -/
theorem databaseFor_some (hagree : Agree members d) {j : Nat}
    (hc : Creatable net (members j).database) : ∃ f : Namespace → Database,
      ∀ ns, databaseFor net d ns = some (f ns) := by
  have hsome : ∀ ns, ∃ b, databaseFor net d ns = some b := by
    intro ns
    obtain ⟨discovery, hok⟩ := hc.create ns _ (List.mem_of_getElem? (addressIndexes_route hc ns))
    obtain ⟨b, -, hb⟩ := create_databaseFor hagree hok
    exact ⟨b, hb⟩
  exact ⟨fun ns => (hsome ns).choose, fun ns => (hsome ns).choose_spec⟩

/-- The keys of the operation, on the server of its namespace. -/
def Touches (net : Resolver) (site : Database → Nat) (d : DatabaseConfigurationImpl) (op : StoreOp)
    (i : Nat) (x : Bytes) : Prop :=
  (∃ b, databaseFor net d op.ns = some b ∧ i = site b) ∧ isValidNamespace op.ns = true ∧
    ∃ k, x = encode op.ns k

/-- Each namespace on the server that `place` gives it. -/
def placed (place : Namespace → Nat) (servers : Nat → Server) : Store :=
  fun ns => abs (servers (place ns)) ns

/-- One server does what the abstract operation does. -/
theorem placed_update {place : Namespace → Nat} {servers : Nat → Server} {op : StoreOp}
    {s' : Server} (habs : abs s' = (op.spec (abs (servers (place op.ns)))).2) :
    (op.spec (abs (servers (place op.ns)))).1 = (op.spec (placed place servers)).1 ∧
      placed place (Function.update servers (place op.ns) s') =
        (op.spec (placed place servers)).2 := by
  have hown : placed place servers op.ns = abs (servers (place op.ns)) op.ns := rfl
  unfold StoreOp.spec at habs ⊢
  by_cases hv : isValidNamespace op.ns = true
  · simp only [if_pos hv, hown] at habs ⊢
    refine ⟨trivial, funext fun ns => ?_⟩
    show abs (Function.update servers (place op.ns) s' (place ns)) ns = _
    by_cases hns : ns = op.ns
    · subst hns
      rw [Function.update_self, Function.update_self, habs, Function.update_self]
    · -- another namespace, on the same server or on another one
      rw [Function.update_of_ne hns]
      by_cases hsite : place ns = place op.ns
      · rw [hsite, Function.update_self, habs, Function.update_of_ne hns, ← hsite]
        rfl
      · rw [Function.update_of_ne hsite]
        rfl
  · simp only [if_neg hv] at habs ⊢
    refine ⟨trivial, funext fun ns => ?_⟩
    show abs (Function.update servers (place op.ns) s' (place ns)) ns = _
    by_cases hsite : place ns = place op.ns
    · rw [hsite, Function.update_self, habs, ← hsite]
      rfl
    · rw [Function.update_of_ne hsite]
      rfl

theorem fleetAbs_eq {f : Namespace → Database} (hf : ∀ ns, databaseFor net d ns = some (f ns)) :
    fleetAbs net site d w = placed (fun ns => site (f ns)) w.servers := by
  funext ns
  simp only [fleetAbs, hf]
  rfl

/-- One operation of one process: its ack and the store after it are those of the abstract
operation, and only keys of its namespace change, on the server of the namespace. -/
theorem operate_spec (cfg : Nat → Redis.Config) (r : Choices) (site : Database → Nat)
    (hagree : Agree members d) (h : Started net engine members w) (j : Nat) (op : StoreOp) :
    ∃ w', operate net engine members cfg r site w j op =
        some ((fleetSpec net members j op (fleetAbs net site d w)).1, w') ∧
      Started net engine members w' ∧
      fleetAbs net site d w' = (fleetSpec net members j op (fleetAbs net site d w)).2 ∧
      ∀ i x, ¬ Touches net site d op i x → (w'.servers i).db.find x = (w.servers i).db.find x := by
  obtain ⟨c, handler, hst, hreach, hhandler, hrouted⟩ := h.step j op
  rcases hrouted with ⟨hb, s, ns₀, rfl, hserves⟩ | ⟨hb, rfl⟩
  · obtain ⟨b, hdatabase, hfor⟩ := create_databaseFor hagree hserves.2
    obtain ⟨f, hf⟩ := databaseFor_some hagree ((members j).creatable op.ns hb)
    cases (hf op.ns).symm.trans hfor
    obtain ⟨s', hperform, habs, hkeep⟩ := perform_spec (cfg j) r (w.servers (site (f op.ns))) op
    obtain ⟨hack, hstore⟩ := @placed_update (fun ns => site (f ns)) w.servers op s' habs
    rw [← @fleetAbs_eq E net site d w f hf] at hack hstore
    refine ⟨⟨Function.update w.clients j c, Function.update w.servers (site (f op.ns)) s'⟩, ?_,
      h.update hreach _, ?_, fun i x hx => ?_⟩
    · simp only [operate, onStorage, hst, hhandler, hdatabase, hperform, fleetSpec, if_pos hb, hack]
    · rw [fleetAbs_eq hf]
      simp only [fleetSpec, if_pos hb]
      exact hstore
    · show (Function.update w.servers (site (f op.ns)) s' i).db.find x = _
      by_cases hi : i = site (f op.ns)
      · subst hi
        rw [Function.update_self]
        exact hkeep x fun k hv he => hx ⟨⟨_, hfor, rfl⟩, hv, k, he⟩
      · rw [Function.update_of_ne hi]
  · have hnb : ¬ (members j).namespaces.isDbBackendUseEnabled op.ns = some true := by
      rw [hb]
      decide
    refine ⟨⟨Function.update w.clients j c, w.servers⟩, ?_, h.update hreach _, ?_, fun i x _ => rfl⟩
    · simp only [operate, hst, hhandler, fleetSpec, if_neg hnb]
    · simp only [fleetSpec, if_neg hnb]
      rfl

/-! ## Every run -/

/-- **Many clients, one store.** Processes that agree on the type of the database, the server
addresses and their Sentinels, with any configuration of their namespaces, give every sequence of
operations the acks of one abstract store, and of the dummy storage for the namespaces that have no
DB backend in their process. A server holds nothing but the entries of the namespaces that are
routed to it. -/
theorem fleet_refinement (net : Resolver) (engine : Nat → E) (members : Nat → Member net)
    (cfg : Nat → Redis.Config) (r : Choices) (site : Database → Nat)
    (d : DatabaseConfigurationImpl) (hagree : Agree members d) (servers : Nat → Server)
    (es : List (Nat × StoreOp)) :
    ∃ w', operateAll net engine members cfg r site es (.start net engine members servers) =
        some ((fleetSpecAll net members es
          (fleetAbs net site d (.start net engine members servers))).1, w') ∧
      fleetAbs net site d w' = (fleetSpecAll net members es
        (fleetAbs net site d (.start net engine members servers))).2 ∧
      ∀ i x, (∀ e ∈ es, ¬ Touches net site d e.2 i x) →
        (w'.servers i).db.find x = (servers i).db.find x := by
  have hrun : ∀ (es : List (Nat × StoreOp)) (w : Fleet E), Started net engine members w →
      ∃ w', operateAll net engine members cfg r site es w =
          some ((fleetSpecAll net members es (fleetAbs net site d w)).1, w') ∧
        fleetAbs net site d w' = (fleetSpecAll net members es (fleetAbs net site d w)).2 ∧
        ∀ i x, (∀ e ∈ es, ¬ Touches net site d e.2 i x) →
          (w'.servers i).db.find x = (w.servers i).db.find x := by
    intro es
    induction es with
    | nil => exact fun w _ => ⟨w, rfl, rfl, fun _ _ _ => rfl⟩
    | cons e es ih =>
      obtain ⟨j, op⟩ := e
      intro w h
      obtain ⟨w₁, hop, h₁, habs₁, hkeep₁⟩ := operate_spec cfg r site hagree h j op
      obtain ⟨w₂, hall, habs₂, hkeep₂⟩ := ih w₁ h₁
      rw [habs₁] at hall habs₂
      refine ⟨w₂, ?_, habs₂, fun i x hx => ?_⟩
      · simp only [operateAll, hop, hall, Option.map_some, fleetSpecAll]
      · rw [hkeep₂ i x fun e he => hx e (List.mem_cons_of_mem _ he),
          hkeep₁ i x (hx (j, op) List.mem_cons_self)]
  exact hrun es _ fun j => .init

end Refinement

/-- Two processes on two servers. The second one has no DB backend for its own namespace. -/
theorem fleet_refinement_shared : ∃ (members : Nat → Member loopbackNet)
    (d : DatabaseConfigurationImpl), Agree members d ∧ d.serverAddresses.length = 2 ∧
    ∀ (cfg : Nat → Redis.Config) (r : Choices) (site : Database → Nat), ∃ w',
      operateAll loopbackNet (fun _ => ()) members cfg r site
        [(0, .set (str "ns") ⟨[(str "k", str "1")], by decide⟩),
          (1, .setIf (str "ns") (str "k") (str "1") (str "2")),
          (1, .set (str "own") ⟨[(str "k", str "3")], by decide⟩),
          (0, .setIfNotExists (str "own") (str "k") (str "4")),
          (0, .setIf (str "ns") (str "k") (str "1") (str "5"))]
        (.start loopbackNet (fun _ => ()) members fun _ => ⟨OrdMap.empty, []⟩) =
      some ([.data (.modifyAck .none), .data (.modifyIfAck .none true), .data (.modifyAck .none),
        .data (.modifyIfAck .none true), .data (.modifyIfAck .none false)], w') := by
  obtain ⟨c, hc⟩ : ∃ c, ConfigurationReader.new (fun _ => none)
    [(str "1.json", databaseSource (str "sdl-standalone-cluster") [str "db-0", str "db-1"])] =
      .ok c := ⟨_, rfl⟩
  obtain ⟨d, hd⟩ : ∃ d, c.readDatabaseConfiguration loopbackNet .new = .ok d := by
    cases hc
    exact ⟨_, rfl⟩
  have hdb : d.dbType = .sdlStandaloneCluster ∧ d.serverAddresses.length = 2 := by
    cases hc
    cases hd
    exact ⟨rfl, rfl⟩
  have hroutable : Routable c loopbackNet d := by
    refine ⟨fun ht => ?_, fun _ _ he => ?_, fun ht => ?_, fun ht => ?_⟩
    · cases hdb.1.symm.trans ht
    · rw [he] at hdb
      cases hdb.2
    · cases hdb.1.symm.trans ht
    · cases hdb.1.symm.trans ht
  obtain ⟨c', hc'⟩ : ∃ c', ConfigurationReader.new (fun _ => none)
    [(str "1.json", oneEntry (str "own") (str "false"))] = .ok c' := ⟨_, rfl⟩
  obtain ⟨n, hn⟩ : ∃ n,
      readNamespaceConfigurations jsonBool c'.jsonNamespaceConfigurations.toList .new = .ok n := by
    cases hc'
    exact ⟨_, rfl⟩
  have hbackend : n.isDbBackendUseEnabled (str "ns") = some true ∧
      n.isDbBackendUseEnabled (str "own") = some false := by
    cases hc'
    cases hn
    decide
  have hempty : readNamespaceConfigurations jsonBool [] .new = .ok .new := rfl
  let members : Nat → Member loopbackNet := fun j =>
    if j = 0 then .ofRead hd hempty fun _ => hroutable else .ofRead hd hn fun _ => hroutable
  have hdatabase : ∀ j, (members j).database = d := by
    intro j
    show (if j = 0 then _ else _ : Member loopbackNet).database = d
    split <;> rfl
  have hagree : Agree members d := by
    intro j
    rw [hdatabase j]
    exact ⟨rfl, rfl, fun _ _ => rfl, fun _ _ => rfl⟩
  refine ⟨members, d, hagree, hdb.2, fun cfg r site => ?_⟩
  obtain ⟨w', hrun, -⟩ := fleet_refinement loopbackNet (fun _ => ()) members cfg r site d hagree
    (fun _ => ⟨OrdMap.empty, []⟩)
    [(0, .set (str "ns") ⟨[(str "k", str "1")], by decide⟩),
      (1, .setIf (str "ns") (str "k") (str "1") (str "2")),
      (1, .set (str "own") ⟨[(str "k", str "3")], by decide⟩),
      (0, .setIfNotExists (str "own") (str "k") (str "4")),
      (0, .setIf (str "ns") (str "k") (str "1") (str "5"))]
  refine ⟨w', hrun.trans ?_⟩
  have h₀ : ∀ ns ∈ [str "ns", str "own"],
      (members 0).namespaces.isDbBackendUseEnabled ns = some true := by
    show ∀ ns ∈ [str "ns", str "own"],
      NamespaceConfigurationsImpl.new.isDbBackendUseEnabled ns = some true
    decide
  have h₁ : (members 1).namespaces = n := rfl
  -- Both namespaces have a database, and nothing is stored in it.
  have hstart : fleetAbs loopbackNet site d (.start loopbackNet (fun _ => ()) members
      fun _ => ⟨OrdMap.empty, []⟩) = fun _ _ => none := by
    obtain ⟨f, hf⟩ := databaseFor_some hagree
      ((members 0).creatable _ (h₀ (str "ns") (by decide)))
    rw [fleetAbs_eq hf]
    funext ns
    show (if isValidNamespace ns then _ else _) = _
    split <;> rfl
  rw [hstart]
  simp only [fleetSpecAll, fleetSpec, StoreOp.ns, StoreOp.toOp, Op.ns, h₀ (str "ns") (by decide),
    h₀ (str "own") (by decide), h₁, hbackend.1, hbackend.2, if_true]
  rfl

end Routing
end Sdl
