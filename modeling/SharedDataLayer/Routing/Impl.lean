import SharedDataLayer.Config.Discovery
import SharedDataLayer.Redis.Storage

/-!
# The handlers of the operations (`src/asyncstorageimpl.cpp`, `src/asyncdummystorage.cpp`)

`AsyncStorageImpl` gives each operation to a handler: a namespace with DB backend to one of the
Redis storages, which are created at the first such operation, and one without to the dummy storage.
Two variables of these functions are static, so all instances of a process share them (`Statics`).

`E` is the type of the engines. An operation that fails leaves what was done before it.

* `createHandlers_spec`: the loop that creates the storages.
* `getOperationHandler_redis`, `getOperationHandler_dummy`: the two kinds of namespaces.
-/

namespace Sdl
namespace Routing

open Spec Config

/-! ## CRC-32 -/

/-- `boost::crc_32_type` takes the bits of a byte from the lowest to the highest. -/
def crcBit (crc : BitVec 32) : BitVec 32 :=
  if crc.getLsbD 0 then crc >>> 1 ^^^ 0xEDB88320#32 else crc >>> 1

def crcByte (crc : BitVec 32) (b : Byte) : BitVec 32 := crcBit^[8] (crc ^^^ BitVec.ofNat 32 b.val)

def crc32 (s : Bytes) : BitVec 32 := ~~~ s.foldl crcByte (BitVec.allOnes 32)

example : crc32 (str "123456789") = 0xCBF43926#32 := by decide +kernel

/-! ## The storages -/

/-- How `getOperationHandler` fails. -/
inductive RoutingFailure where
  | create (e : CreateFailure)
  | divideByZero
  | outOfRange
  deriving DecidableEq

/-- The process ends. -/
def RoutingFailure.ends : RoutingFailure → Bool
  | .create (.abort _) | .divideByZero => true
  | _ => false

/-- `crc32(s) % count`, which is undefined if `count` is zero. The result has 32 bits as the
checksum has. -/
def getClusterHashIndex (s : Bytes) (count : Nat) : Except RoutingFailure Nat :=
  if count = 0 then .error .divideByZero else .ok ((crc32 s).toNat % count)

variable {E : Type}

/-- `AsyncRedisStorage`, with the members that are given to it alone. -/
structure AsyncRedisStorage (E : Type) where
  engine : E
  asyncDatabaseDiscovery : AsyncDatabaseDiscovery

structure AsyncStorageImpl (E : Type) where
  engine : E
  databaseConfiguration : DatabaseConfigurationImpl
  namespaceConfigurations : NamespaceConfigurationsImpl
  asyncStorages : List (AsyncRedisStorage E)

/-- The static variables: `serverCount` of `setAsyncRedisStorageHandlersForCluster`, and the engine
of `dummyHandler` of `getDummyHandler`. Each is initialized when it is first reached. -/
structure Statics (E : Type) where
  serverCount : Option Nat
  dummyHandler : Option E

def Statics.unset : Statics E := ⟨none, none⟩

/-- What an operation is given to: the Redis storage with its index, or the dummy storage with its
engine. -/
inductive Handler (E : Type) where
  | redis (index : Nat) (storage : AsyncRedisStorage E)
  | dummy (engine : E)

/-- The types in which each server address has a storage of its own. -/
def isSdlCluster (t : DbType) : Prop := t = .sdlStandaloneCluster ∨ t = .sdlSentinelCluster

instance (t : DbType) : Decidable (isSdlCluster t) := inferInstanceAs (Decidable (_ ∨ _))

namespace AsyncStorageImpl

/-- The constructor, with the configurations that were read. -/
def new (engine : E) (databaseConfiguration : DatabaseConfigurationImpl)
    (namespaceConfigurations : NamespaceConfigurationsImpl) : AsyncStorageImpl E :=
  ⟨engine, databaseConfiguration, namespaceConfigurations, []⟩

section Functions

variable (net : Resolver)

/-- A storage for each of the indexes, until one cannot be created. -/
def createHandlers (x : AsyncStorageImpl E) (ns : Namespace) :
    List (Option Nat) → AsyncStorageImpl E × Option CreateFailure
  | [] => (x, none)
  | i :: is =>
    match AsyncDatabaseDiscovery.create net (some ns) x.databaseConfiguration i with
    | .ok discovery =>
      createHandlers { x with asyncStorages := x.asyncStorages ++ [⟨x.engine, discovery⟩] } ns is
    | .error e => (x, some e)

def setAsyncRedisStorageHandlersForCluster (st : Statics E) (x : AsyncStorageImpl E)
    (ns : Namespace) :
    Statics E × AsyncStorageImpl E × Option CreateFailure :=
  let serverCount := st.serverCount.getD x.databaseConfiguration.serverAddresses.length
  ({ st with serverCount := some serverCount },
    x.createHandlers net ns ((List.range serverCount).map some))

def setAsyncRedisStorageHandlers (st : Statics E) (x : AsyncStorageImpl E) (ns : Namespace) :
    Statics E × AsyncStorageImpl E × Option CreateFailure :=
  if isSdlCluster x.databaseConfiguration.dbType then
    setAsyncRedisStorageHandlersForCluster net st x ns
  else (st, x.createHandlers net ns [none])

/-- `handlerIndex` of `getAsyncRedisStorageHandler`. -/
def handlerIndex (x : AsyncStorageImpl E) (ns : Namespace) : Except RoutingFailure Nat :=
  if isSdlCluster x.databaseConfiguration.dbType then
    getClusterHashIndex ns x.databaseConfiguration.serverAddresses.length
  else .ok 0

def getAsyncRedisStorageHandler (x : AsyncStorageImpl E) (ns : Namespace) :
    Except RoutingFailure (Handler E) := do
  let handlerIndex ← x.handlerIndex ns
  match x.asyncStorages[handlerIndex]? with
  | some storage => .ok (.redis handlerIndex storage)
  | none => .error .outOfRange

def getRedisHandler (st : Statics E) (x : AsyncStorageImpl E) (ns : Namespace) :
    Statics E × AsyncStorageImpl E × Except RoutingFailure (Handler E) :=
  if x.asyncStorages.isEmpty then
    match setAsyncRedisStorageHandlers net st x ns with
    | (st, x, none) => (st, x, x.getAsyncRedisStorageHandler ns)
    | (st, x, some e) => (st, x, .error (.create e))
  else (st, x, x.getAsyncRedisStorageHandler ns)

def getDummyHandler (st : Statics E) (x : AsyncStorageImpl E) :
    Statics E × AsyncStorageImpl E × Except RoutingFailure (Handler E) :=
  let dummyHandler := st.dummyHandler.getD x.engine
  ({ st with dummyHandler := some dummyHandler }, x, .ok (.dummy dummyHandler))

/-- The lookup of the namespace leaves its answer in the lookup table. -/
def getOperationHandler (st : Statics E) (x : AsyncStorageImpl E) (ns : Namespace) :
    Statics E × AsyncStorageImpl E × Except RoutingFailure (Handler E) :=
  let found := x.namespaceConfigurations.findConfigurationForNamespace ns
  let x := { x with namespaceConfigurations := found.1 }
  match found.2.map NamespaceConfiguration.dbBackendIsUsed with
  | some true => x.getRedisHandler net st ns
  | some false => x.getDummyHandler st
  | none => (st, x, .error .outOfRange)

end Functions

end AsyncStorageImpl

/-! ## The operations -/

/-- The operations of `AsyncStorage`. -/
inductive Operation where
  | waitReadyAsync (ns : Namespace)
  | data (op : Redis.Op)

/-- Each operation asks `getOperationHandler` for the handler of its namespace. -/
def Operation.ns : Operation → Namespace
  | .waitReadyAsync ns => ns
  | .data op => op.ns

/-- A client's ack of an operation. -/
inductive OperationAck where
  | readyAck (error : ErrorCode)
  | data (a : Redis.Ack)
  deriving DecidableEq

/-- The ack that `AsyncDummyStorage` posts to its engine. -/
def dummyAck : Operation → OperationAck
  | .waitReadyAsync _ => .readyAck .none
  | .data op =>
    .data <| match op with
      | .setAsync _ _ | .removeAsync _ _ | .removeAllAsync _ => .modifyAck .none
      | .setIfAsync _ _ _ _ | .setIfNotExistsAsync _ _ _ | .removeIfAsync _ _ _ =>
        .modifyIfAck .none true
      | .getAsync _ _ => .getAck .none OrdMap.empty
      | .findKeysAsync _ _ | .listKeys _ _ => .findKeysAck .none OrdMap.empty

/-! ## What the functions do -/

section Spec

variable {net : Resolver} {ns : Namespace}

/-- The storage is that of the address index `i`. -/
def Serves (net : Resolver) (engine : E) (d : DatabaseConfigurationImpl)
    (ns : Namespace) (i : Option Nat) (s : AsyncRedisStorage E) : Prop :=
  s.engine = engine ∧ AsyncDatabaseDiscovery.create net (some ns) d i = .ok s.asyncDatabaseDiscovery

/-- The storages are appended, one for each index, or up to the first that cannot be created. -/
theorem createHandlers_spec (is : List (Option Nat)) (x : AsyncStorageImpl E) :
    ∃ l, (x.createHandlers net ns is).1 = { x with asyncStorages := x.asyncStorages ++ l } ∧
      (((x.createHandlers net ns is).2 = none ∧
        List.Forall₂ (Serves net x.engine x.databaseConfiguration ns) is l) ∨
       ∃ e, (x.createHandlers net ns is).2 = some e ∧ l.length < is.length ∧
        ∃ i ∈ is, AsyncDatabaseDiscovery.create net (some ns) x.databaseConfiguration i =
        .error e) := by
  induction is generalizing x with
  | nil => exact ⟨[], by rw [List.append_nil]; rfl, .inl ⟨rfl, .nil⟩⟩
  | cons i is ih =>
    cases hc : AsyncDatabaseDiscovery.create net (some ns) x.databaseConfiguration i with
    | error e =>
      simp only [AsyncStorageImpl.createHandlers, hc]
      exact ⟨[], by rw [List.append_nil],
        .inr ⟨e, rfl, Nat.zero_lt_succ _, i, List.mem_cons_self, hc⟩⟩
    | ok discovery =>
      simp only [AsyncStorageImpl.createHandlers, hc]
      obtain ⟨l, hl, h⟩ := ih { x with asyncStorages := x.asyncStorages ++ [⟨x.engine, discovery⟩] }
      refine ⟨⟨x.engine, discovery⟩ :: l, by rw [hl]; simp, ?_⟩
      rcases h with ⟨hn, hf⟩ | ⟨e, he, hlt, j, hj, hcj⟩
      · exact .inl ⟨hn, .cons ⟨rfl, hc⟩ hf⟩
      · exact .inr ⟨e, he, Nat.succ_lt_succ hlt, j, List.mem_cons_of_mem _ hj, hcj⟩

theorem getOperationHandler_redis {st : Statics E} {x : AsyncStorageImpl E}
    (h : x.namespaceConfigurations.isDbBackendUseEnabled ns = some true) :
    x.getOperationHandler net st ns =
      ({ x with namespaceConfigurations :=
                  (x.namespaceConfigurations.findConfigurationForNamespace ns).1 } :
        AsyncStorageImpl E).getRedisHandler net st ns := by
  unfold NamespaceConfigurationsImpl.isDbBackendUseEnabled at h
  simp only [AsyncStorageImpl.getOperationHandler, h]

theorem getOperationHandler_dummy {st : Statics E} {x : AsyncStorageImpl E}
    (h : x.namespaceConfigurations.isDbBackendUseEnabled ns = some false) :
    x.getOperationHandler net st ns =
      ({ x with namespaceConfigurations :=
                  (x.namespaceConfigurations.findConfigurationForNamespace ns).1 } :
        AsyncStorageImpl E).getDummyHandler st := by
  unfold NamespaceConfigurationsImpl.isDbBackendUseEnabled at h
  simp only [AsyncStorageImpl.getOperationHandler, h]

/-- The indexes of the storages that are created. -/
def createdIndexes (st : Statics E) (d : DatabaseConfigurationImpl) : List (Option Nat) :=
  if isSdlCluster d.dbType then (List.range (st.serverCount.getD d.serverAddresses.length)).map some
  else [none]

theorem setAsyncRedisStorageHandlers_eq (st : Statics E) (x : AsyncStorageImpl E) :
    ∃ st', x.setAsyncRedisStorageHandlers net st ns =
        (st', x.createHandlers net ns (createdIndexes st x.databaseConfiguration)) ∧
      st'.dummyHandler = st.dummyHandler ∧
      st'.serverCount.getD x.databaseConfiguration.serverAddresses.length =
        st.serverCount.getD x.databaseConfiguration.serverAddresses.length := by
  unfold AsyncStorageImpl.setAsyncRedisStorageHandlers createdIndexes
  split
  · exact ⟨_, rfl, rfl, rfl⟩
  · exact ⟨st, rfl, rfl, rfl⟩

/-- The first operation with DB backend. -/
theorem getRedisHandler_first {st : Statics E} {x : AsyncStorageImpl E}
    (he : x.asyncStorages = []) :
    ∃ l, (x.getRedisHandler net st ns).2.1 = { x with asyncStorages := l } ∧
      ((List.Forall₂ (Serves net x.engine x.databaseConfiguration ns)
        (createdIndexes st x.databaseConfiguration) l ∧
        (x.getRedisHandler net st ns).2.2 =
          ({ x with asyncStorages := l } : AsyncStorageImpl E).getAsyncRedisStorageHandler ns) ∨
       ∃ e, (x.getRedisHandler net st ns).2.2 = .error (.create e) ∧
        l.length < (createdIndexes st x.databaseConfiguration).length ∧
        ∃ i ∈ createdIndexes st x.databaseConfiguration,
          AsyncDatabaseDiscovery.create net (some ns) x.databaseConfiguration i = .error e) := by
  obtain ⟨st', hset, -⟩ := @setAsyncRedisStorageHandlers_eq E net ns st x
  obtain ⟨l, hl, h⟩ := @createHandlers_spec E net ns (createdIndexes st x.databaseConfiguration) x
  unfold AsyncStorageImpl.getRedisHandler
  rw [if_pos (by rw [he]; rfl), hset]
  generalize x.createHandlers net ns (createdIndexes st x.databaseConfiguration) = p at hl h
  obtain ⟨x', o⟩ := p
  have hx : x' = { x with asyncStorages := l } := by
    rw [he, List.nil_append] at hl
    exact hl
  subst hx
  refine ⟨l, ?_⟩
  rcases h with ⟨rfl, hf⟩ | ⟨e, rfl, h⟩
  · exact ⟨rfl, .inl ⟨hf, rfl⟩⟩
  · exact ⟨rfl, .inr ⟨e, rfl, h⟩⟩

/-- Once there are storages, they stay. -/
theorem getRedisHandler_later {st : Statics E} {x : AsyncStorageImpl E}
    (he : x.asyncStorages ≠ []) :
    x.getRedisHandler net st ns = (st, x, x.getAsyncRedisStorageHandler ns) := by
  unfold AsyncStorageImpl.getRedisHandler
  rw [if_neg (by simpa using he)]

/-- What an operation leaves, and what it can do to the static variables. -/
theorem getOperationHandler_keeps (st : Statics E) (x : AsyncStorageImpl E) :
    (∃ l, (x.getOperationHandler net st ns).2.1 =
      ⟨x.engine, x.databaseConfiguration,
        (x.namespaceConfigurations.findConfigurationForNamespace ns).1, l⟩) ∧
    (x.getOperationHandler net st ns).1.serverCount.getD
    x.databaseConfiguration.serverAddresses.length =
      st.serverCount.getD x.databaseConfiguration.serverAddresses.length ∧
    (x.getOperationHandler net st ns).1.dummyHandler.getD x.engine =
    st.dummyHandler.getD x.engine := by
  have hredis : ∀ x : AsyncStorageImpl E,
      (∃ l, (x.getRedisHandler net st ns).2.1 = { x with asyncStorages := l }) ∧
      (x.getRedisHandler net st ns).1.serverCount.getD
      x.databaseConfiguration.serverAddresses.length =
        st.serverCount.getD x.databaseConfiguration.serverAddresses.length ∧
      (x.getRedisHandler net st ns).1.dummyHandler.getD x.engine =
      st.dummyHandler.getD x.engine := by
    intro x
    by_cases he : x.asyncStorages = []
    · obtain ⟨l, hl, -⟩ := @getRedisHandler_first E net ns st x he
      obtain ⟨st', hset, hdummy, hcount⟩ := @setAsyncRedisStorageHandlers_eq E net ns st x
      have hst : (x.getRedisHandler net st ns).1 = st' := by
        unfold AsyncStorageImpl.getRedisHandler
        rw [if_pos (by rw [he]; rfl), hset]
        obtain ⟨x', o⟩ := x.createHandlers net ns (createdIndexes st x.databaseConfiguration)
        cases o <;> rfl
      rw [hst, hdummy]
      exact ⟨⟨l, hl⟩, hcount, rfl⟩
    · rw [getRedisHandler_later he]
      exact ⟨⟨_, rfl⟩, rfl, rfl⟩
  unfold AsyncStorageImpl.getOperationHandler
  simp only
  split
  · exact hredis _
  · exact ⟨⟨_, rfl⟩, rfl, rfl⟩
  · exact ⟨⟨_, rfl⟩, rfl, rfl⟩

end Spec

end Routing
end Sdl
