import SharedDataLayer.Config.Addresses
import SharedDataLayer.Config.Namespaces
import SharedDataLayer.Sentinel.Isolation
import SharedDataLayer.Spec.Align

/-!
# The database discovery (`src/redis/asyncdatabasediscovery.cpp`)

`AsyncDatabaseDiscovery::create` makes the discovery of one address of the configuration. In the
sentinel types it joins three lists by their positions: the server addresses, the sentinel ports and
the master names, each split and filled with defaults on its own.

* `create_sentinel`: the discovery of the address `i` in the sentinel types.
* `new_self_iff`: when a host is parsed to itself again.
* `sentinelGroups_aligned_iff`: when the three lists stay aligned.
-/

namespace Sdl
namespace Config

open Spec Sentinel

/-! ## The model -/

/-- The exceptions of `create`, and its abort. -/
inductive CreateFailure where
  | outOfRange
  | address (e : HostAndPortError)
  | abort (message : String)
  deriving DecidableEq

/-- The discovery with what its constructor gets. -/
inductive AsyncDatabaseDiscovery where
  | hiredis (databaseInfo : DatabaseInfo)
  | sentinel (databaseInfo : DatabaseInfo) (sentinelMasterName : Bytes)
  deriving DecidableEq

/-- A constructor call of `HostAndPort` in `create`. -/
def newAddress (net : Resolver) (host : Bytes) (port : Port) : Except CreateFailure HostAndPort :=
  match HostAndPort.new net host port with
  | .ok a => .ok a
  | .error e => .error (.address e)

namespace DatabaseConfigurationImpl

variable (net : Resolver) (d : DatabaseConfigurationImpl)

/-- `std::vector::at`. -/
def serverAddressAt (index : Nat) : Except CreateFailure HostAndPort :=
  match d.serverAddresses[index]? with
  | some a => .ok a
  | none => .error .outOfRange

def getServerAddresses (addressIndex : Option Nat) : Except CreateFailure (List HostAndPort) :=
  match addressIndex with
  | some index => do
    let a ← d.serverAddressAt index
    .ok [a]
  | none => .ok d.serverAddresses

def getDefaultServerAddresses : Except CreateFailure (List HostAndPort) := do
  let a ← newAddress net (str "localhost") (htons DEFAULT_PORT)
  .ok [a]

def getSentinelAddress (addressIndex : Option Nat) : Except CreateFailure (Option HostAndPort) :=
  let index := addressIndex.getD 0
  let port := d.sentinelPorts[index]?.getD (htons DEFAULT_SENTINEL_PORT)
  if d.serverAddresses.length = 0 then .ok none
  else do
    let a ← d.serverAddressAt index
    let sentinelAddress ← newAddress net a.host port
    .ok (some sentinelAddress)

def getSentinelMasterName (addressIndex : Option Nat) : Bytes :=
  let index := addressIndex.getD 0
  d.sentinelMasterNames[index]?.getD DEFAULT_SENTINEL_MASTER_GROUP_NAME

end DatabaseConfigurationImpl

/-- The types with a sentinel. -/
def DbType.isSentinel (t : DbType) : Prop := t = .redisSentinel ∨ t = .sdlSentinelCluster

instance (t : DbType) : Decidable t.isSentinel := inferInstanceAs (Decidable (_ ∨ _))

/-- `staticAddresses` of `create`. -/
def staticAddresses (net : Resolver) (d : DatabaseConfigurationImpl) (addressIndex : Option Nat) :
    Except CreateFailure (List HostAndPort) := do
  let addresses ← d.getServerAddresses addressIndex
  if addresses.isEmpty then DatabaseConfigurationImpl.getDefaultServerAddresses net
  else .ok addresses

/-- `configure.ac` builds without hiredis-vip, so there is no dispatcher for a Redis cluster. -/
def HAVE_HIREDIS_VIP : Bool := false

/-- `AsyncDatabaseDiscovery::create`, with hiredis. -/
def AsyncDatabaseDiscovery.create (net : Resolver) (ns : Option Namespace)
    (staticDatabaseConfiguration : DatabaseConfigurationImpl) (addressIndex : Option Nat) :
    Except CreateFailure AsyncDatabaseDiscovery := do
  let staticAddresses ← staticAddresses net staticDatabaseConfiguration addressIndex
  if staticDatabaseConfiguration.dbType = .redisCluster then
    if HAVE_HIREDIS_VIP then .ok (.hiredis ⟨staticAddresses, .cluster, ns, .hiredis⟩)
    else .error (.abort "No Hiredis vip for Redis cluster configuration")
  else if staticDatabaseConfiguration.dbType.isSentinel then do
    let sentinelAddress ← staticDatabaseConfiguration.getSentinelAddress net addressIndex
    let sentinelMasterName := staticDatabaseConfiguration.getSentinelMasterName addressIndex
    match sentinelAddress with
    | some a => .ok (.sentinel (databaseInfo a) sentinelMasterName)
    | none => .error (.abort "Sentinel address not configured.")
  else .ok (.hiredis ⟨staticAddresses, .single, ns, .hiredis⟩)

/-! ## What the environment asks for -/

/-- The port number of a text. `lexical_cast` also takes negative numbers, which are none. -/
def portNumber (s : Bytes) : Option Port :=
  (lexicalCastUint16 s).filter fun n => s.head? ≠ some (chr '-') ∨ n.val = 0

/-- The entry `i` of the list in a variable. -/
def listEntry (value : Option Bytes) (i : Nat) : Option Bytes :=
  value.bind fun s => (DatabaseConfigurationImpl.split s)[i]?

section Environment

variable (getenv : Bytes → Option Bytes)

/-- The sentinel port of the group `i`. -/
def groupPort (i : Nat) : Port :=
  ((listEntry (getenv SENTINEL_PORT_ENV_VAR_NAME) i).bind portNumber).getD DEFAULT_SENTINEL_PORT

/-- The master name of the group `i`. An empty entry is no name. -/
def groupName (i : Nat) : Bytes :=
  ((listEntry (getenv SENTINEL_MASTER_NAME_ENV_VAR_NAME) i).filter (· ≠ [])).getD
    DEFAULT_SENTINEL_MASTER_GROUP_NAME

/-- Each index gets the discovery of its group. -/
def SentinelGroups (net : Resolver) (d : DatabaseConfigurationImpl) : Prop :=
  ∀ ns idx a, d.serverAddresses[idx.getD 0]? = some a → ∃ h,
    AsyncDatabaseDiscovery.create net ns d idx =
    .ok (.sentinel (databaseInfo h) (groupName getenv (idx.getD 0))) ∧
    pair h = (a.host, htons (groupPort getenv (idx.getD 0)))

/-- The host is parsed to itself again: there are no brackets, and no colons but those of an IPv6
address. -/
def Reparsed (net : Resolver) (host : Bytes) : Prop :=
  isInBrackets host = false ∧ (chr ':' ∈ host → isLiteralIPv6 net host = true)

/-- No port moves to another position, no name is empty, where a variable that is not set has one
empty name, and the hosts are parsed to themselves. -/
structure GroupsAligned (net : Resolver) (d : DatabaseConfigurationImpl) : Prop where
  ports : Aligned lexicalCastUint16 portNumber DEFAULT_SENTINEL_PORT d.serverAddresses.length
    (DatabaseConfigurationImpl.split ((getenv SENTINEL_PORT_ENV_VAR_NAME).getD []))
  names : ∀ i < d.serverAddresses.length,
    (DatabaseConfigurationImpl.split ((getenv SENTINEL_MASTER_NAME_ENV_VAR_NAME).getD []))[i]? ≠
    some []
  hosts : ∀ a ∈ d.serverAddresses, Reparsed net a.host

end Environment

/-! ## The configuration that was read -/

section Read

variable {net : Resolver} {d d' : DatabaseConfigurationImpl}

/-- What an address, or a list of them, adds to the configuration. -/
structure AddsAddresses (count : Nat) (d d' : DatabaseConfigurationImpl) : Prop where
  sentinelPorts : d'.sentinelPorts = d.sentinelPorts
  length : d'.serverAddresses.length = d.serverAddresses.length + count
  hosts : (∀ a ∈ d.serverAddresses, a.host ≠ []) → ∀ a ∈ d'.serverAddresses, a.host ≠ []

theorem validateAddress_adds {sourceName address : Bytes}
    (h : validateAndSetDbServerAddress net sourceName d address = .ok d') :
    AddsAddresses 1 d d' := by
  unfold validateAndSetDbServerAddress DatabaseConfigurationImpl.checkAndApplyServerAddress at h
  cases hn : HostAndPort.new net address (htons DEFAULT_PORT) with
  | error e =>
    rw [hn] at h
    cases h
  | ok a =>
    rw [hn] at h
    cases h
    refine ⟨rfl, List.length_append, fun hd b hb => ?_⟩
    rcases List.mem_append.mp hb with hb | hb
    · exact hd b hb
    · rw [List.mem_singleton.mp hb]
      exact HostAndPort.new_host_ne_nil hn

theorem foldlM_adds {sourceName : Bytes} {xs : List Bytes}
    (h : xs.foldlM (validateAndSetDbServerAddress net sourceName) d = .ok d') :
    AddsAddresses xs.length d d' := by
  induction xs generalizing d with
  | nil =>
    cases h
    exact ⟨rfl, rfl, id⟩
  | cons x xs ih =>
    rw [List.foldlM_cons] at h
    obtain ⟨d₁, h₁, h⟩ := bind_ok_iff.mp h
    have hx := validateAddress_adds h₁
    have hxs := ih h
    refine ⟨hxs.sentinelPorts.trans hx.sentinelPorts, ?_, fun hd => hxs.hosts (hx.hosts hd)⟩
    rw [hxs.length, hx.length, List.length_cons]
    omega

theorem validateDbType_ok {type sourceName : Bytes}
    (h : validateAndSetDbType type d sourceName = .ok d') :
    d'.serverAddresses = d.serverAddresses ∧ d'.sentinelPorts = d.sentinelPorts := by
  unfold validateAndSetDbType DatabaseConfigurationImpl.checkAndApplyDbType at h
  split_ifs at h <;> cases h <;> exact ⟨rfl, rfl⟩

/-- What is read from the environment: the type, then each piece of the list of addresses. -/
theorem readEnv_fold {r : ConfigurationReader}
    (hsrc : r.sourceForDatabaseConfiguration = DB_HOST_ENV_VAR_NAME)
    (h : r.readDatabaseConfiguration net .new = .ok d) :
    ∃ d₁ d₂ xs, d₁.sentinelPorts = [] ∧ d₁.serverAddresses = [] ∧ xs ≠ [] ∧
      xs.foldlM (validateAndSetDbServerAddress net r.sourceForDatabaseConfiguration) d₁ = .ok d₂ ∧
      d = r.applySentinel d₂ := by
  have henv : r.readEnvDatabaseConfiguration net .new = .ok d := by
    unfold ConfigurationReader.readDatabaseConfiguration at h
    rw [if_neg (by decide), if_pos hsrc] at h
    cases he : r.readEnvDatabaseConfiguration net .new with
    | error e =>
      rw [he] at h
      cases h
    | ok d' =>
      rw [he] at h
      cases h
      rfl
  unfold ConfigurationReader.readEnvDatabaseConfiguration at henv
  split at henv
  · cases henv
  · obtain ⟨d₁, h₁, henv⟩ := bind_ok_iff.mp henv
    obtain ⟨d₂, h₂, henv⟩ := bind_ok_iff.mp henv
    cases henv
    obtain ⟨haddr, hports⟩ := validateDbType_ok h₁
    refine ⟨d₁, d₂, _, hports, haddr, ?_, h₂, rfl⟩
    rw [splitFrom_zero]
    exact List.splitOn_ne_nil _ _

theorem readEnv_ok {r : ConfigurationReader}
    (hsrc : r.sourceForDatabaseConfiguration = DB_HOST_ENV_VAR_NAME)
    (h : r.readDatabaseConfiguration net .new = .ok d) :
    ∃ d₀, d = r.applySentinel d₀ ∧ d₀.sentinelPorts = [] ∧ ∀ a ∈ d₀.serverAddresses,
      a.host ≠ [] := by
  obtain ⟨d₁, d₂, xs, hports, haddr, -, hfold, rfl⟩ := readEnv_fold hsrc h
  have hadds := foldlM_adds hfold
  refine ⟨d₂, rfl, hadds.sentinelPorts.trans hports, hadds.hosts fun a ha => ?_⟩
  rw [haddr] at ha
  cases ha

theorem applySentinel_dbType (r : ConfigurationReader) (d : DatabaseConfigurationImpl) :
    (r.applySentinel d).dbType = d.dbType := by
  unfold ConfigurationReader.applySentinel
  split <;> rfl

/-- The lists of a configuration with sentinels that was read from the environment. -/
theorem read_sentinel {getenv : Bytes → Option Bytes} {files : List (Bytes × Json)}
    {r : ConfigurationReader} (hr : ConfigurationReader.new getenv files = .ok r)
    (hh : (getenv DB_HOST_ENV_VAR_NAME).isSome = true)
    (hd : r.readDatabaseConfiguration net .new = .ok d) (ht : d.dbType.isSentinel) :
    d.sentinelPorts = ((DatabaseConfigurationImpl.split
      ((getenv SENTINEL_PORT_ENV_VAR_NAME).getD [])).filterMap
      lexicalCastUint16).map htons ∧
    d.sentinelMasterNames = DatabaseConfigurationImpl.split
    ((getenv SENTINEL_MASTER_NAME_ENV_VAR_NAME).getD []) ∧
    ∀ a ∈ d.serverAddresses, a.host ≠ [] := by
  obtain ⟨host, hhost⟩ := Option.isSome_iff_exists.mp hh
  obtain ⟨-, -, hports, hnames, -, hsrc⟩ := new_env hr hhost
  obtain ⟨d₀, rfl, hp₀, hne⟩ := readEnv_ok hsrc hd
  rw [applySentinel_dbType] at ht
  rw [applySentinel_addresses, ← hports, ← hnames]
  have ht : d₀.dbType = .redisSentinel ∨ d₀.dbType = .sdlSentinelCluster := ht
  unfold ConfigurationReader.applySentinel
  rw [if_pos ht]
  refine ⟨?_, rfl, hne⟩
  show d₀.sentinelPorts ++ _ = _
  rw [hp₀, List.nil_append, List.map_filterMap]

end Read

/-! ## The discovery of an address -/

section Create

variable {net : Resolver} {d : DatabaseConfigurationImpl} {ns : Option Namespace} {idx : Option Nat}
    {a : HostAndPort}

theorem staticAddresses_ok (hi : ∀ i, idx = some i → i < d.serverAddresses.length) :
    ∃ l, staticAddresses net d idx = .ok l := by
  have haddr : ∃ l, d.getServerAddresses idx = .ok l := by
    cases idx with
    | none => exact ⟨_, rfl⟩
    | some i =>
      refine ⟨[d.serverAddresses.get ⟨i, hi i rfl⟩], ?_⟩
      simp only [DatabaseConfigurationImpl.getServerAddresses,
        DatabaseConfigurationImpl.serverAddressAt, List.getElem?_eq_getElem (hi i rfl)]
      rfl
  obtain ⟨l, hl⟩ := haddr
  by_cases he : l.isEmpty = true
  · have hn : HostAndPort.new net (str "localhost") (htons DEFAULT_PORT) =
        .ok ⟨str "localhost", htons DEFAULT_PORT, false⟩ :=
      HostAndPort.new_name _ (by decide) (by decide +kernel) (by decide)
    refine ⟨[⟨str "localhost", htons DEFAULT_PORT, false⟩], ?_⟩
    simp only [staticAddresses, hl, bind, Except.bind, he, if_true,
      DatabaseConfigurationImpl.getDefaultServerAddresses, newAddress, hn]
  · exact ⟨l, by simp only [staticAddresses, hl, bind, Except.bind, if_neg he]⟩

/-- In the sentinel types the discovery has the host of its address, parsed again with the port. -/
theorem create_sentinel (ht : d.dbType.isSentinel) (ha : d.serverAddresses[idx.getD 0]? = some a) :
    AsyncDatabaseDiscovery.create net ns d idx =
      (newAddress net a.host (d.sentinelPorts[idx.getD 0]?.getD (htons DEFAULT_SENTINEL_PORT))).map
      fun h =>
        .sentinel (databaseInfo h) (d.getSentinelMasterName idx) := by
  have hi : ∀ i, idx = some i → i < d.serverAddresses.length := by
    rintro i rfl
    exact (List.getElem?_eq_some_iff.mp ha).1
  obtain ⟨l, hl⟩ := @staticAddresses_ok net d idx hi
  have hcluster : d.dbType ≠ .redisCluster := by
    rcases ht with h | h <;> rw [h] <;> decide
  have hlen : d.serverAddresses.length ≠ 0 := by
    intro h0
    rw [List.length_eq_zero_iff.mp h0] at ha
    cases ha
  have hat : d.serverAddressAt (idx.getD 0) = .ok a := by
    unfold DatabaseConfigurationImpl.serverAddressAt
    rw [ha]
  unfold AsyncDatabaseDiscovery.create DatabaseConfigurationImpl.getSentinelAddress
  simp only [hl, bind, Except.bind, if_neg hcluster, if_pos ht, if_neg hlen, hat]
  cases newAddress net a.host (d.sentinelPorts[idx.getD 0]?.getD
    (htons DEFAULT_SENTINEL_PORT)) <;> rfl

/-- Without a sentinel the discovery is that of the addresses. -/
theorem create_hiredis (ht : ¬ d.dbType.isSentinel) (hc : d.dbType ≠ .redisCluster)
    (hi : ∀ i, idx = some i → i < d.serverAddresses.length) : ∃ discovery,
    AsyncDatabaseDiscovery.create net ns d idx = .ok discovery := by
  obtain ⟨l, hl⟩ := @staticAddresses_ok net d idx hi
  unfold AsyncDatabaseDiscovery.create
  simp only [hl, bind, Except.bind, if_neg ht, if_neg hc]
  exact ⟨_, rfl⟩

/-- A Redis cluster is not supported. -/
theorem create_redisCluster (hc : d.dbType = .redisCluster) (discovery : AsyncDatabaseDiscovery) :
    AsyncDatabaseDiscovery.create net ns d idx ≠ .ok discovery := by
  unfold AsyncDatabaseDiscovery.create
  cases staticAddresses net d idx with
  | error e => exact fun h => by cases h
  | ok l =>
    simp only [bind, Except.bind, hc, if_true]
    exact fun h => by cases h

/-- The discovery of a sentinel can be created exactly if its address is there and parsed again. -/
theorem create_sentinel_ok_iff (ht : d.dbType.isSentinel)
    (hi : ∀ i, idx = some i → i < d.serverAddresses.length) :
    (∃ discovery, AsyncDatabaseDiscovery.create net ns d idx = .ok discovery) ↔
      ∃ a, d.serverAddresses[idx.getD 0]? = some a ∧
        ∃ h, HostAndPort.new net a.host (htons DEFAULT_SENTINEL_PORT) = .ok h := by
  cases ha : d.serverAddresses[idx.getD 0]? with
  | some a =>
    rw [create_sentinel ht ha, newAddress]
    constructor
    · rintro ⟨discovery, hd⟩
      cases hn : HostAndPort.new net a.host
        (d.sentinelPorts[idx.getD 0]?.getD (htons DEFAULT_SENTINEL_PORT)) with
      | ok h => exact ⟨a, rfl, HostAndPort.new_ok_port _ ⟨h, hn⟩⟩
      | error e =>
        rw [hn] at hd
        cases hd
    · rintro ⟨a', ha', h⟩
      cases ha'
      obtain ⟨h, hn⟩ := HostAndPort.new_ok_port
        (d.sentinelPorts[idx.getD 0]?.getD (htons DEFAULT_SENTINEL_PORT)) h
      refine ⟨.sentinel (databaseInfo h) (d.getSentinelMasterName idx), ?_⟩
      rw [hn]
      rfl
  | none =>
    -- There is no index, and no address.
    refine iff_of_false ?_ (fun ⟨a, h, _⟩ => by cases h)
    rintro ⟨discovery, hd⟩
    cases idx with
    | some i =>
      have := List.getElem?_eq_none_iff.mp ha
      have := hi i rfl
      simp only [Option.getD_some] at *
      omega
    | none =>
      have hlen : d.serverAddresses.length = 0 := by
        have := List.getElem?_eq_none_iff.mp ha
        simp only [Option.getD_none] at this
        omega
      have hcluster : d.dbType ≠ .redisCluster := by
        rcases ht with h | h <;> rw [h] <;> decide
      unfold AsyncDatabaseDiscovery.create DatabaseConfigurationImpl.getSentinelAddress at hd
      obtain ⟨l, -, hd⟩ := bind_ok_iff.mp hd
      simp only [if_neg hcluster, if_pos ht, if_pos hlen] at hd
      cases hd

/-- The discovery of one index, with the host of its address. -/
theorem create_self_iff (ht : d.dbType.isSentinel) (ha : d.serverAddresses[idx.getD 0]? = some a)
    (hne : a.host ≠ []) {name : Bytes} {port : Port} :
    (∃ h, AsyncDatabaseDiscovery.create net ns d idx = .ok (.sentinel (databaseInfo h) name) ∧
      pair h = (a.host, port)) ↔
      Reparsed net a.host ∧ d.sentinelPorts[idx.getD 0]?.getD (htons DEFAULT_SENTINEL_PORT) = port ∧
        d.getSentinelMasterName idx = name := by
  rw [create_sentinel ht ha, newAddress]
  have hself := @HostAndPort.new_self_iff net a.host
    (d.sentinelPorts[idx.getD 0]?.getD (htons DEFAULT_SENTINEL_PORT)) port hne
  constructor
  · rintro ⟨h, hc, hp⟩
    cases hn : HostAndPort.new net a.host
      (d.sentinelPorts[idx.getD 0]?.getD (htons DEFAULT_SENTINEL_PORT)) with
    | error e =>
      rw [hn] at hc
      cases hc
    | ok h' =>
      rw [hn] at hc
      cases hc
      obtain ⟨hr, hport⟩ := hself.mp ⟨h, hn, congrArg Prod.fst hp, congrArg Prod.snd hp⟩
      exact ⟨hr, hport, rfl⟩
  · rintro ⟨hr, hport, rfl⟩
    obtain ⟨h, hn, hhost, hp⟩ := hself.mpr ⟨hr, hport⟩
    refine ⟨h, ?_, by rw [pair, hhost, hp]⟩
    rw [hn]
    rfl

end Create

/-! ## The groups -/

section Groups

/-- A variable that is not set counts as one with an empty entry. -/
theorem listEntry_bind {β : Type} (value : Option Bytes) (i : Nat) {f : Bytes → Option β}
    (hf : f [] = none) :
    (listEntry value i).bind f = ((DatabaseConfigurationImpl.split (value.getD []))[i]?).bind
    f := by
  cases value with
  | some s => rfl
  | none =>
    cases i with
    | zero => exact hf.symm
    | succ i => rfl

theorem groupPort_eq (getenv : Bytes → Option Bytes) (i : Nat) :
    groupPort getenv i = (((DatabaseConfigurationImpl.split
      ((getenv SENTINEL_PORT_ENV_VAR_NAME).getD []))[i]?).bind
      portNumber).getD DEFAULT_SENTINEL_PORT := by
  rw [groupPort, listEntry_bind _ _ rfl]

theorem groupName_eq (getenv : Bytes → Option Bytes) (i : Nat) :
    groupName getenv i = (((DatabaseConfigurationImpl.split
      ((getenv SENTINEL_MASTER_NAME_ENV_VAR_NAME).getD []))[i]?).filter
      (· ≠ [])).getD DEFAULT_SENTINEL_MASTER_GROUP_NAME := by
  have hfilter : ∀ o : Option Bytes, o.filter (· ≠ []) = o.bind fun s => if s = [] then none
    else some s := by
    intro o
    cases o with
    | none => rfl
    | some s => by_cases hs : s = [] <;> simp [hs]
  rw [groupName, hfilter, hfilter, listEntry_bind _ _ rfl]

theorem portNumber_cast (s : Bytes) (n : Port) (h : portNumber s = some n) :
    lexicalCastUint16 s = some n :=
  (Option.filter_eq_some_iff.mp h).1

/-- An empty name is not replaced by the default. -/
theorem getD_filter_iff {o : Option Bytes} {name : Bytes} (hne : name ≠ []) :
    o.getD name = (o.filter (· ≠ [])).getD name ↔ o ≠ some [] := by
  cases o with
  | none => simp
  | some s =>
    by_cases hs : s = []
    · simp [hs, Option.filter_some, hne.symm]
    · simp [hs, Option.filter_some]

end Groups

/-- **Sentinel groups.** In a configuration with sentinels from the environment, the discovery of
each address is that of its group exactly if no sentinel port moves to another position, no master
name is empty, and no host is taken apart when it is parsed again. -/
theorem sentinelGroups_aligned_iff (net : Resolver) (getenv : Bytes → Option Bytes)
    (files : List (Bytes × Json))
    (r : ConfigurationReader) (hr : ConfigurationReader.new getenv files = .ok r)
    (hh : (getenv DB_HOST_ENV_VAR_NAME).isSome = true) (d : DatabaseConfigurationImpl)
    (hd : r.readDatabaseConfiguration net .new = .ok d) (ht : d.dbType.isSentinel) :
    SentinelGroups getenv net d ↔ GroupsAligned getenv net d := by
  obtain ⟨hports, hnames, hne⟩ := read_sentinel hr hh hd ht
  have hport : ∀ i : Nat, d.sentinelPorts[i]?.getD (htons DEFAULT_SENTINEL_PORT) = htons
      ((((DatabaseConfigurationImpl.split ((getenv SENTINEL_PORT_ENV_VAR_NAME).getD [])).filterMap
        lexicalCastUint16)[i]?).getD DEFAULT_SENTINEL_PORT) := by
    intro i
    rw [hports, List.getElem?_map, Option.getD_map]
  -- The three lists at one index.
  have hat : ∀ ns idx a, d.serverAddresses[idx.getD 0]? = some a → ((∃ h,
      AsyncDatabaseDiscovery.create net ns d idx =
      .ok (.sentinel (databaseInfo h) (groupName getenv (idx.getD 0))) ∧
      pair h = (a.host, htons (groupPort getenv (idx.getD 0)))) ↔ Reparsed net a.host ∧
      (((DatabaseConfigurationImpl.split ((getenv SENTINEL_PORT_ENV_VAR_NAME).getD [])).filterMap
        lexicalCastUint16)[idx.getD 0]?).getD DEFAULT_SENTINEL_PORT =
        groupPort getenv (idx.getD 0) ∧
      (DatabaseConfigurationImpl.split
        ((getenv SENTINEL_MASTER_NAME_ENV_VAR_NAME).getD []))[idx.getD 0]? ≠ some []) := by
    intro ns idx a ha
    rw [create_self_iff ht ha (hne a (List.mem_of_getElem? ha)), hport, htons_inj,
      DatabaseConfigurationImpl.getSentinelMasterName, hnames, groupName_eq,
      getD_filter_iff (by decide)]
  constructor
  · intro h
    have hidx := fun (i : Nat) (hi : i < d.serverAddresses.length) =>
      (hat none (some i) _ (List.getElem?_eq_getElem hi)).mp
      (h none (some i) _ (List.getElem?_eq_getElem hi))
    refine ⟨(aligned_iff portNumber_cast _ _).mpr fun i hi => ?_, fun i hi => ?_, fun a ha => ?_⟩
    · obtain ⟨-, hp, -⟩ := hidx i hi
      exact hp.trans (groupPort_eq getenv i)
    · obtain ⟨-, -, hn⟩ := hidx i hi
      exact hn
    · obtain ⟨i, hi, rfl⟩ := List.getElem_of_mem ha
      exact (hidx i hi).1
  · intro h ns idx a ha
    have hi : idx.getD 0 < d.serverAddresses.length := (List.getElem?_eq_some_iff.mp ha).1
    refine (hat ns idx a ha).mpr ⟨h.hosts a (List.mem_of_getElem? ha), ?_, h.names _ hi⟩
    exact ((aligned_iff portNumber_cast _ _).mp h.ports _ hi).trans (groupPort_eq getenv _).symm

/-- Two groups with these sentinel ports and master names. -/
def twoGroups (ports : Bytes) (names : Option Bytes) (name : Bytes) : Option Bytes :=
  if name = DB_HOST_ENV_VAR_NAME then some (str "dbaas-0")
  else if name = DB_CLUSTER_ADDR_LIST_ENV_VAR_NAME then some (str "dbaas-0,dbaas-1")
  else if name = SENTINEL_PORT_ENV_VAR_NAME then some ports
  else if name = SENTINEL_MASTER_NAME_ENV_VAR_NAME then names
  else none

theorem read_twoGroups {ports : Bytes} (hne : ports ≠ []) (names : Option Bytes) : ∃ r d,
    ConfigurationReader.new (twoGroups ports names) [] = .ok r ∧
    r.readDatabaseConfiguration loopbackNet .new = .ok d ∧
    d.dbType = .sdlSentinelCluster ∧ d.serverAddresses.map HostAndPort.host = [str "dbaas-0",
      str "dbaas-1"] := by
  let hosts : List (Host loopbackNet) :=
    [.name (str "dbaas-0") (by decide) (by decide +kernel),
      .name (str "dbaas-1") (by decide) (by decide +kernel)]
  obtain ⟨r, hr⟩ : ∃ r, ConfigurationReader.new (twoGroups ports names) [] = .ok r := ⟨_, rfl⟩
  obtain ⟨-, hport, hsentinel, -, hcluster, hsrc⟩ := new_env hr rfl
  have hcluster : r.dbClusterAddrListEnvVariableValue = str "dbaas-0,dbaas-1" := hcluster
  have hsentinel : r.sentinelPortEnvVariableValue = ports := hsentinel
  have hlist : ListsHosts r hosts := .inl (hcluster.trans (by decide))
  obtain ⟨g, hg, hread⟩ := read_no_ports loopbackNet_standard (by simp [hosts]) hsrc hlist hport
  refine ⟨r, _, hr, hread, ?_, ?_⟩
  · rw [applySentinel_dbType]
    simp only [ConfigurationReader.selected, hcluster, hsentinel, hne]
    rfl
  · rw [applySentinel_addresses, List.map_map]
    exact List.map_congr_left fun h _ => congrArg Prod.fst (hg h)

/-- A list of ports that ends early. -/
theorem sentinelGroups_aligned_short : ∃ r d,
    ConfigurationReader.new (twoGroups (str "54321") (some (str "group-0,group-1"))) [] = .ok r ∧
    r.readDatabaseConfiguration loopbackNet .new = .ok d ∧
    SentinelGroups (twoGroups (str "54321") (some (str "group-0,group-1"))) loopbackNet d := by
  obtain ⟨r, d, hr, hd, ht, hhosts⟩ := read_twoGroups (show str "54321" ≠ [] by decide)
    (some (str "group-0,group-1"))
  have hlen : d.serverAddresses.length = 2 := by simpa using congrArg List.length hhosts
  have hmem : ∀ a ∈ d.serverAddresses, a.host ∈ [str "dbaas-0", str "dbaas-1"] := fun a ha =>
    hhosts ▸ List.mem_map_of_mem ha
  refine ⟨r, d, hr, hd, (sentinelGroups_aligned_iff loopbackNet _ [] r hr rfl d hd
    (.inr ht)).mpr ⟨?_, ?_, ?_⟩⟩
  · rw [hlen]
    exact ⟨.inl (by decide), trivial⟩
  · rw [hlen]
    decide +kernel
  · intro a ha
    have := hmem a ha
    generalize a.host = host at this
    simp only [List.mem_cons, List.not_mem_nil, or_false] at this
    rcases this with rfl | rfl <;> exact ⟨by decide, fun hc => absurd hc (by decide +kernel)⟩

/-- Behind an entry that is no port the port of the second group moves to the first one, and if
there are no master names its master has the empty name. -/
theorem sentinelGroups_shifted : ∃ r d,
    ConfigurationReader.new (twoGroups (str "none,26380") none) [] = .ok r ∧
    r.readDatabaseConfiguration loopbackNet .new = .ok d ∧ d.dbType = .sdlSentinelCluster ∧
    AsyncDatabaseDiscovery.create loopbackNet none d (some 0) =
      .ok (.sentinel (databaseInfo ⟨str "dbaas-0", htons ⟨26380, by decide⟩, false⟩) []) ∧
    ¬ SentinelGroups (twoGroups (str "none,26380") none) loopbackNet d := by
  obtain ⟨r, d, hr, hd, ht, hhosts⟩ := read_twoGroups (show str "none,26380" ≠ [] by decide) none
  obtain ⟨hports, hnames, -⟩ := read_sentinel hr rfl hd (.inr ht)
  obtain ⟨a, ha, hhost⟩ : ∃ a, d.serverAddresses[0]? = some a ∧ a.host = str "dbaas-0" := by
    have hget : (d.serverAddresses.map HostAndPort.host)[0]? =
      some (str "dbaas-0") := by rw [hhosts]; rfl
    rw [List.getElem?_map] at hget
    exact Option.map_eq_some_iff.mp hget
  have hcreate : AsyncDatabaseDiscovery.create loopbackNet none d (some 0) =
      .ok (.sentinel (databaseInfo ⟨str "dbaas-0", htons ⟨26380, by decide⟩, false⟩) []) := by
    rw [@create_sentinel _ _ _ (some 0) _ (.inr ht) ha, hhost,
      DatabaseConfigurationImpl.getSentinelMasterName, hports, hnames]
    decide +kernel
  refine ⟨r, d, hr, hd, ht, hcreate, fun h => ?_⟩
  obtain ⟨a', hc, -⟩ := h none (some 0) a ha
  rw [hcreate] at hc
  cases hc

end Config
end Sdl
