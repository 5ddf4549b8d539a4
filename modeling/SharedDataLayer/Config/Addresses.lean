import SharedDataLayer.Config.Reader

/-!
# Addresses from the environment

`DBAAS_CLUSTER_ADDR_LIST` or `DBAAS_SERVICE_HOST` gives a list of hosts, and `DBAAS_SERVICE_PORT` a
port for each of them, one port for all, or none. The port is put into the text of the list and the
result is split and parsed again, so what counts is what the parser makes of `host:port`.
`inet_pton` is a parameter; that it accepts standard IPv6 texts only is `StandardIPv6`.

* `readConfiguration_env`: what the reader holds of the environment.
* `parse_addresses`: the addresses of a list.
* `envAddresses_paired_iff`: when each host gets its port.
-/

namespace Sdl
namespace Config

open Spec

/-- A standard text of an IPv6 address has hexadecimal digits, colons and dots, and two colons at
least. -/
structure StandardIPv6 (net : Resolver) : Prop where
  chars : ∀ s, net.inetPton6 s = true → ∀ b ∈ s, b ≠ chr ',' ∧ b ≠ chr '[' ∧ b ≠ chr ']' ∧ b.val ≠ 0
  colons : ∀ s, net.inetPton6 s = true → 2 ≤ s.count (chr ':')

/-- A host of the list: a host name or an IPv4 address, or an IPv6 address, bare or in brackets. -/
inductive Host (net : Resolver) where
  | name (h : Bytes) (nonempty : h ≠ [])
    (chars : ∀ b ∈ h, b ≠ chr ',' ∧ b ≠ chr '[' ∧ b ≠ chr ':' ∧ b.val ≠ 0)
  | literal (h : Bytes) (valid : net.inetPton6 h = true)
  | bracketed (h : Bytes) (valid : net.inetPton6 h = true)

namespace Host

variable {net : Resolver}

/-- As it stands in the list. -/
def text : Host net → Bytes
  | .name h _ _ | .literal h _ => h
  | .bracketed h _ => chr '[' :: h ++ [chr ']']

/-- Without brackets. -/
def host : Host net → Bytes
  | .name h _ _ | .literal h _ | .bracketed h _ => h

/-- The text with the port is itself an IPv6 address. -/
def Ambiguous (p : Bytes) : Host net → Prop
  | .literal h _ => net.inetPton6 (h ++ chr ':' :: p) = true
  | _ => False

end Host

/-- A port in decimal digits. -/
structure DecimalPort where
  text : Bytes
  value : Port
  valid : lexicalCastDigits text = some value

/-- `DBAAS_SERVICE_PORT`: not set, one port for all hosts, or a list of ports. -/
inductive Ports where
  | unset
  | one (p : DecimalPort)
  | each (ps : List DecimalPort)

namespace Ports

def toList : Ports → List DecimalPort
  | .unset => []
  | .one p => [p]
  | .each ps => ps

/-- There is a port for each of the `n` hosts. -/
def Fits (n : Nat) : Ports → Prop
  | .each ps => ps.length = n
  | _ => True

/-- The port of the host `i`. -/
def port (i : Nat) : Ports → Port
  | .unset => DEFAULT_PORT
  | .one p => p.value
  | .each ps => ((ps[i]?).map DecimalPort.value).getD DEFAULT_PORT

end Ports

/-- A list in the text of a variable. -/
def commaList (l : List Bytes) : Bytes := [chr ','].intercalate l

/-- The variables with these hosts and ports. -/
structure Environment (net : Resolver) (getenv : Bytes → Option Bytes) (hosts : List (Host net))
    (ports : Ports) :
    Prop where
  hosts : getenv DB_CLUSTER_ADDR_LIST_ENV_VAR_NAME = some (commaList (hosts.map Host.text)) ∨
    (getenv DB_CLUSTER_ADDR_LIST_ENV_VAR_NAME).getD [] = [] ∧
      getenv DB_HOST_ENV_VAR_NAME = some (commaList (hosts.map Host.text))
  ports : (getenv DB_PORT_ENV_VAR_NAME).getD [] = commaList (ports.toList.map DecimalPort.text)

/-- The pairs of a host and its port. -/
def pairs {net : Resolver} (hosts : List (Host net)) (ports : Ports) : List (Bytes × Port) :=
  hosts.mapIdx fun i h => (h.host, htons (ports.port i))

def pair (a : HostAndPort) : Bytes × Port := (a.host, a.port)

/-- The environment is used, all ports are the same, and no host is ambiguous with it. -/
structure Paired (net : Resolver) (getenv : Bytes → Option Bytes) (hosts : List (Host net))
    (ports : Ports) :
    Prop where
  used : (getenv DB_HOST_ENV_VAR_NAME).isSome = true
  same : ∀ q ∈ ports.toList.head?, ∀ p ∈ ports.toList, p.value = q.value
  unambiguous : ∀ q ∈ ports.toList.head?, ∀ h ∈ hosts, ¬ h.Ambiguous q.text

/-! ## The environment in the reader -/

section Reader

/-- The members that the constructor reads from the environment. -/
def ConfigurationReader.env (r : ConfigurationReader) : List Bytes :=
  [r.dbHostEnvVariableValue, r.dbPortEnvVariableValue, r.sentinelPortEnvVariableValue,
    r.sentinelMasterNameEnvVariableValue, r.dbClusterAddrListEnvVariableValue]

/-- A source touches the database configuration only if that does not come from the environment. -/
theorem readConfiguration_env (r : ConfigurationReader) (input : Json) (sourceName : Bytes) :
    (r.readConfiguration input sourceName).1.env = r.env ∧
    (r.sourceForDatabaseConfiguration = DB_HOST_ENV_VAR_NAME →
      (r.readConfiguration input sourceName).1.sourceForDatabaseConfiguration =
      DB_HOST_ENV_VAR_NAME) ∧
    ((r.readConfiguration input sourceName).1.jsonDatabaseConfiguration = none →
      r.jsonDatabaseConfiguration = none ∧
      (r.readConfiguration input sourceName).1.sourceForDatabaseConfiguration =
        r.sourceForDatabaseConfiguration) := by
  have hns : ∀ (r : ConfigurationReader) (t : PTree),
    (r.readNamespaces t sourceName).1.env = r.env ∧
      (r.readNamespaces t sourceName).1.sourceForDatabaseConfiguration =
      r.sourceForDatabaseConfiguration ∧
      (r.readNamespaces t sourceName).1.jsonDatabaseConfiguration =
      r.jsonDatabaseConfiguration := by
    intro r t
    unfold ConfigurationReader.readNamespaces
    split <;> exact ⟨rfl, rfl, rfl⟩
  cases input with
  | error line message => exact ⟨rfl, id, fun h => ⟨h, rfl⟩⟩
  | tree t =>
    obtain ⟨he, hs, hj⟩ := hns (r.readDatabase t sourceName) t
    simp only [ConfigurationReader.readConfiguration, he, hs, hj]
    unfold ConfigurationReader.readDatabase
    by_cases hsrc : r.sourceForDatabaseConfiguration = DB_HOST_ENV_VAR_NAME
    · rw [if_neg (by simpa using hsrc)]
      exact ⟨rfl, fun _ => hsrc, fun h => ⟨h, rfl⟩⟩
    · rw [if_pos hsrc]
      split
      · exact ⟨rfl, fun h => absurd h hsrc, fun h => by cases h⟩
      · exact ⟨rfl, fun h => absurd h hsrc, fun h => ⟨h, rfl⟩⟩

theorem readDirectories_env {r r' : ConfigurationReader} {files : List (Bytes × Json)}
    (h : r.readConfigurationFromDirectories files = .ok r') :
    r'.env = r.env ∧
    (r.sourceForDatabaseConfiguration = DB_HOST_ENV_VAR_NAME →
      r'.sourceForDatabaseConfiguration = DB_HOST_ENV_VAR_NAME) ∧
    (r'.jsonDatabaseConfiguration = none → r.jsonDatabaseConfiguration = none ∧
      r'.sourceForDatabaseConfiguration = r.sourceForDatabaseConfiguration) := by
  induction files generalizing r with
  | nil =>
    cases h
    exact ⟨rfl, id, fun h => ⟨h, rfl⟩⟩
  | cons file files ih =>
    simp only [ConfigurationReader.readConfigurationFromDirectories, List.foldlM_cons] at h
    obtain ⟨he, hs, hj⟩ := readConfiguration_env r file.2 file.1
    generalize r.readConfiguration file.2 file.1 = p at h he hs hj
    obtain ⟨v, x⟩ := p
    cases x with
    | some x => cases h
    | none =>
      obtain ⟨he', hs', hj'⟩ := ih h
      refine ⟨he'.trans he, fun hr => hs' (hs hr), fun hn => ?_⟩
      obtain ⟨hv, hsrc⟩ := hj' hn
      obtain ⟨hr, hsrc'⟩ := hj hv
      exact ⟨hr, hsrc.trans hsrc'⟩

/-- The reader, if the environment is used. -/
theorem new_env {getenv : Bytes → Option Bytes} {files : List (Bytes × Json)}
    {r : ConfigurationReader} (h : ConfigurationReader.new getenv files = .ok r) {host : Bytes}
    (hh : getenv DB_HOST_ENV_VAR_NAME = some host) :
    r.dbHostEnvVariableValue = host ∧ r.dbPortEnvVariableValue =
      (getenv DB_PORT_ENV_VAR_NAME).getD [] ∧
      r.sentinelPortEnvVariableValue = (getenv SENTINEL_PORT_ENV_VAR_NAME).getD [] ∧
      r.sentinelMasterNameEnvVariableValue = (getenv SENTINEL_MASTER_NAME_ENV_VAR_NAME).getD [] ∧
      r.dbClusterAddrListEnvVariableValue = (getenv DB_CLUSTER_ADDR_LIST_ENV_VAR_NAME).getD [] ∧
      r.sourceForDatabaseConfiguration = DB_HOST_ENV_VAR_NAME := by
  obtain ⟨he, hs, -⟩ := readDirectories_env h
  simp only [ConfigurationReader.readEnvironment, hh] at he hs
  simp only [ConfigurationReader.env, List.cons.injEq, and_true] at he
  exact ⟨he.1, he.2.1, he.2.2.1, he.2.2.2.1, he.2.2.2.2, hs trivial⟩

/-- The reader, if the environment is not used and no source has a database configuration. -/
theorem read_unset (net : Resolver) {getenv : Bytes → Option Bytes} {files : List (Bytes × Json)}
    {r : ConfigurationReader} (h : ConfigurationReader.new getenv files = .ok r)
    (hh : getenv DB_HOST_ENV_VAR_NAME = none) (hj : r.jsonDatabaseConfiguration = none) :
    r.readDatabaseConfiguration net .new = .ok .new := by
  obtain ⟨-, -, hs⟩ := readDirectories_env h
  have hsrc := (hs hj).2
  simp only [ConfigurationReader.readEnvironment, hh] at hsrc
  unfold ConfigurationReader.readDatabaseConfiguration
  rw [hsrc, hj]
  rfl

end Reader

/-! ## The addresses of a list -/

section List

variable {net : Resolver}

/-- If every address parses, they are appended in their order. -/
theorem parse_addresses {β : Type} {sourceName : Bytes} {xs : List β} {f : β → Bytes}
    {g : β → HostAndPort} (h : ∀ x ∈ xs, HostAndPort.new net (f x) (htons DEFAULT_PORT) = .ok (g x))
    (d : DatabaseConfigurationImpl) :
    (xs.map f).foldlM (validateAndSetDbServerAddress net sourceName) d =
      .ok { d with serverAddresses := d.serverAddresses ++ xs.map g } := by
  induction xs generalizing d with
  | nil =>
    simp only [List.map_nil, List.append_nil]
    rfl
  | cons x xs ih =>
    have hx : validateAndSetDbServerAddress net sourceName d (f x) =
        .ok { d with serverAddresses := d.serverAddresses ++ [g x] } := by
      simp only [validateAndSetDbServerAddress,
        DatabaseConfigurationImpl.checkAndApplyServerAddress, h x List.mem_cons_self]
    rw [List.map_cons, List.foldlM_cons, hx]
    show (xs.map f).foldlM _ _ = _
    rw [ih fun y hy => h y (List.mem_cons_of_mem _ hy)]
    simp

theorem splitOn_commaList {l : List Bytes} (hl : ∀ s ∈ l, chr ',' ∉ s) (hne : l ≠ []) :
    (commaList l).splitOn (chr ',') = l :=
  List.splitOn_intercalate _ hl hne

/-- The pieces of the list after a port was put to each of them. -/
theorem split_appendDBPort {l : List Bytes} {port p : Bytes}
    (hl : ∀ s ∈ l, chr ',' ∉ s) (hne : l ≠ [])
    (hp : (DatabaseConfigurationImpl.split port)[0]? = some p) (hc : chr ',' ∉ p) :
    splitFrom (chr ',') (appendDBPortToAddrList (commaList l) port) 0 =
      l.map (· ++ chr ':' :: p) := by
  have ht : chr ',' ∉ chr ':' :: p := by
    rw [List.mem_cons, not_or]
    exact ⟨by decide, hc⟩
  rw [splitFrom_zero, appendDBPortToAddrList]
  simp only [hp, Option.getD_some]
  rw [spliceFrom_zero, splitOn_spliced ht, splitOn_commaList hl hne]

theorem decimalPort_no_comma (p : DecimalPort) : chr ',' ∉ p.text := fun hm =>
  isDigit_ne ((lexicalCastDigits_eq_some p.valid).2 _ hm) (by decide) rfl

theorem Host.no_comma (hnet : StandardIPv6 net) (h : Host net) : chr ',' ∉ h.text := by
  have hlit : ∀ s, net.inetPton6 s = true → chr ',' ∉ s :=
    fun s hs hm => (hnet.chars s hs _ hm).1 rfl
  cases h with
  | name h hne hc => exact fun hm => (hc _ hm).1 rfl
  | literal h hv => exact hlit h hv
  | bracketed h hv =>
    intro hm
    rw [Host.text, List.mem_append, List.mem_cons, List.mem_singleton] at hm
    rcases hm with (hm | hm) | hm
    · exact absurd hm (by decide)
    · exact hlit h hv hm
    · exact absurd hm (by decide)

theorem Host.text_ne_nil (hnet : StandardIPv6 net) (h : Host net) : h.text ≠ [] ∧ h.host ≠ [] := by
  have hlit : ∀ s, net.inetPton6 s = true → s ≠ [] := fun s hs he => by
    have := hnet.colons s hs
    rw [he] at this
    exact absurd this (by decide)
  cases h with
  | name h hne hc => exact ⟨hne, hne⟩
  | literal h hv => exact ⟨hlit h hv, hlit h hv⟩
  | bracketed h hv => exact ⟨by simp [Host.text], hlit h hv⟩

/-- A literal as the parser sees it. -/
theorem literal_facts (hnet : StandardIPv6 net) {s : Bytes} (hs : net.inetPton6 s = true) :
    isLiteralIPv6 net s = true ∧ chr ':' ∈ s ∧ isInBrackets s = false := by
  have hchars := hnet.chars s hs
  refine ⟨?_, ?_, isInBrackets_eq_false fun hm => (hchars _ hm).2.1 rfl⟩
  · rw [isLiteralIPv6, cStr_eq fun b hb => (hchars b hb).2.2.2]
    exact hs
  · refine List.count_pos_iff.mp ?_
    have := hnet.colons s hs
    omega

/-- Without a port each host is parsed to itself. -/
theorem Host.new_text (hnet : StandardIPv6 net) (h : Host net) (defaultPort : Port) :
    ∃ a, HostAndPort.new net h.text defaultPort = .ok a ∧ pair a = (h.host, defaultPort) := by
  cases h with
  | name h hne hc =>
    exact ⟨_, HostAndPort.new_name defaultPort hne (fun hm => (hc _ hm).2.2.1 rfl)
      (isInBrackets_eq_false fun hm => (hc _ hm).2.1 rfl), rfl⟩
  | literal h hv =>
    obtain ⟨hl, hc, hb⟩ := literal_facts hnet hv
    exact ⟨_, HostAndPort.new_literal defaultPort hc hl hb, rfl⟩
  | bracketed h hv =>
    obtain ⟨hl, hc, -⟩ := literal_facts hnet hv
    exact ⟨_, (HostAndPort.new_bracketed h defaultPort).trans
      (HostAndPort.parse_literal defaultPort hc hl), rfl⟩

theorem decimalPort_no_nul (p : DecimalPort) : ∀ b ∈ p.text, b.val ≠ 0 := fun b hb he =>
  isDigit_ne ((lexicalCastDigits_eq_some p.valid).2 b hb) (c := ⟨0, by decide⟩)
  (by decide) (Fin.ext he)

/-- A host with a port, if both together are no IPv6 address. -/
theorem Host.new_port (hnet : StandardIPv6 net) (h : Host net) (p : DecimalPort)
    (defaultPort : Port) (ha : ¬ h.Ambiguous p.text) :
    ∃ a, HostAndPort.new net (h.text ++ chr ':' :: p.text) defaultPort = .ok a ∧
      pair a = (h.host, htons p.value) := by
  have hstrip : (if isInBrackets h.text then removeBrackets h.text else h.text) = h.host := by
    cases h with
    | name h hne hc => rw [Host.text, isInBrackets_eq_false fun hm => (hc _ hm).2.1 rfl]; rfl
    | literal h hv => rw [Host.text, (literal_facts hnet hv).2.2]; rfl
    | bracketed h hv => rw [Host.text, isInBrackets_brackets, if_pos rfl,
      removeBrackets_brackets]; rfl
  have hl : isLiteralIPv6 net (h.text ++ chr ':' :: p.text) = false := by
    rw [isLiteralIPv6, cStr_eq]
    · by_contra hn
      have hn : net.inetPton6 (h.text ++ chr ':' :: p.text) = true := by simpa using hn
      cases h with
      | name h hne hc =>
        -- There is one colon only.
        have hcount := hnet.colons _ hn
        have h₁ : h.count (chr ':') = 0 := List.count_eq_zero.mpr fun hm => (hc _ hm).2.2.1 rfl
        have h₂ : p.text.count (chr ':') = 0 := List.count_eq_zero.mpr fun hm =>
          isDigit_ne ((lexicalCastDigits_eq_some p.valid).2 _ hm) (by decide) rfl
        rw [Host.text, List.count_append, List.count_cons_self, h₁, h₂] at hcount
        omega
      | literal h hv => exact ha hn
      | bracketed h hv => exact (hnet.chars _ hn (chr '[') (by simp [Host.text])).2.1 rfl
    · intro b hb
      rcases List.mem_append.mp hb with hb | hb
      · cases h with
        | name h hne hc => exact (hc b hb).2.2.2
        | literal h hv => exact (hnet.chars h hv b hb).2.2.2
        | bracketed h hv =>
          rw [Host.text, List.mem_append, List.mem_cons, List.mem_singleton] at hb
          rcases hb with (rfl | hb) | rfl
          · decide
          · exact (hnet.chars h hv b hb).2.2.2
          · decide
      · rcases List.mem_cons.mp hb with rfl | hb
        · decide
        · exact decimalPort_no_nul p b hb
  have hn := HostAndPort.new_port defaultPort p.valid hl
    (by rw [hstrip]; exact (h.text_ne_nil hnet).2)
  rw [hstrip] at hn
  exact ⟨_, hn, rfl⟩

/-- An ambiguous one is parsed to another host. -/
theorem Host.new_ambiguous (hnet : StandardIPv6 net) (h : Host net) (p : DecimalPort)
    (defaultPort : Port) (ha : h.Ambiguous p.text) :
    ∃ a, HostAndPort.new net (h.text ++ chr ':' :: p.text) defaultPort = .ok a ∧
      a.host ≠ h.host := by
  cases h with
  | literal h hv =>
    obtain ⟨hl, hc, hb⟩ := literal_facts hnet ha
    refine ⟨_, HostAndPort.new_literal defaultPort hc hl hb, fun he => ?_⟩
    have hlen : (h ++ chr ':' :: p.text).length = h.length := congrArg List.length he
    rw [List.length_append, List.length_cons] at hlen
    omega
  | name h hne hc => exact ha.elim
  | bracketed h hv => exact ha.elim

end List

/-! ## The configuration from the environment -/

section Environment

variable {net : Resolver} {r : ConfigurationReader}

/-- The type that the variables select. -/
def ConfigurationReader.selected (r : ConfigurationReader) : DbType :=
  if r.dbClusterAddrListEnvVariableValue = [] then
    if r.sentinelPortEnvVariableValue = [] then .redisStandalone else .redisSentinel
  else if r.sentinelPortEnvVariableValue = [] then .sdlStandaloneCluster
  else .sdlSentinelCluster

theorem envDbType_selected {hosts : Bytes} (hne : hosts ≠ [])
    (hh : r.dbClusterAddrListEnvVariableValue = hosts ∨
      r.dbClusterAddrListEnvVariableValue = [] ∧ r.dbHostEnvVariableValue = hosts) :
    ∃ type, r.envDbType = some (type, hosts) ∧ ∀ sourceName,
      validateAndSetDbType type .new sourceName = .ok ⟨r.selected, [], [], []⟩ := by
  unfold ConfigurationReader.envDbType ConfigurationReader.selected
  by_cases hs : r.sentinelPortEnvVariableValue = []
  · rcases hh with rfl | ⟨hc, rfl⟩
    · exact ⟨str "sdl-standalone-cluster", by simp [hs, hne],
        fun _ => by simp only [hs, hne, if_true, if_false]; rfl⟩
    · exact ⟨str "redis-standalone", by simp [hs, hne, hc],
        fun _ => by simp only [hs, hc, if_true]; rfl⟩
  · rcases hh with rfl | ⟨hc, rfl⟩
    · exact ⟨str "sdl-sentinel-cluster", by simp [hs, hne],
        fun _ => by simp only [hs, hne, if_false]; rfl⟩
    · exact ⟨str "redis-sentinel", by simp [hs, hne, hc],
        fun _ => by simp only [hs, hc, if_true, if_false]; rfl⟩

/-- What is read from the environment, if every piece of the list parses. -/
theorem read_env {β : Type} {hosts : Bytes} {xs : List β} {f : β → Bytes} {g : β → HostAndPort}
    (hsrc : r.sourceForDatabaseConfiguration = DB_HOST_ENV_VAR_NAME) (hne : hosts ≠ [])
    (hh : r.dbClusterAddrListEnvVariableValue = hosts ∨
      r.dbClusterAddrListEnvVariableValue = [] ∧ r.dbHostEnvVariableValue = hosts)
    (hsplit : splitFrom (chr ',') (if r.dbPortEnvVariableValue ≠ [] then
      appendDBPortToAddrList hosts r.dbPortEnvVariableValue else hosts) 0 = xs.map f)
    (hparse : ∀ x ∈ xs, HostAndPort.new net (f x) (htons DEFAULT_PORT) = .ok (g x)) :
    r.readDatabaseConfiguration net .new =
      .ok (r.applySentinel ⟨r.selected, xs.map g, [], []⟩) := by
  obtain ⟨type, htype, hset⟩ := envDbType_selected hne hh
  have henv : r.readEnvDatabaseConfiguration net .new =
    .ok (r.applySentinel ⟨r.selected, xs.map g, [], []⟩) := by
    have hfold : (xs.map f).foldlM (validateAndSetDbServerAddress net
      r.sourceForDatabaseConfiguration)
        ⟨r.selected, [], [], []⟩ = .ok ⟨r.selected, xs.map g, [], []⟩ := parse_addresses hparse _
    simp only [ConfigurationReader.readEnvDatabaseConfiguration, htype, hset,
      parseDatabaseServersConfigurationFromString, bind, Except.bind, hsplit]
    rw [hfold]
  simp only [ConfigurationReader.readDatabaseConfiguration, if_pos hsrc, henv]
  rfl

theorem applySentinel_addresses (d : DatabaseConfigurationImpl) :
    (r.applySentinel d).serverAddresses = d.serverAddresses := by
  unfold ConfigurationReader.applySentinel
  split <;> rfl

end Environment

/-! ## Hosts and ports -/

section Pairs

variable {net : Resolver} {hosts : List (Host net)} {ports : Ports}

theorem commaList_ne_nil {l : List Bytes} (hne : l ≠ []) (hl : ∀ s ∈ l, s ≠ []) :
    commaList l ≠ [] := by
  intro he
  obtain ⟨s, l, rfl⟩ := List.exists_cons_of_ne_nil hne
  cases l with
  | nil => exact hl s List.mem_cons_self (by simpa [commaList] using he)
  | cons t l => simp [commaList] at he

theorem length_pairs : (pairs hosts ports).length = hosts.length := List.length_mapIdx

/-- The port of a host, if all ports are the same. -/
theorem Ports.port_eq {q : DecimalPort} (hq : ports.toList.head? = some q)
    (hs : ∀ p ∈ ports.toList, p.value = q.value) (hfit : ports.Fits hosts.length) {i : Nat}
    (hi : i < hosts.length) :
    ports.port i = q.value := by
  cases ports with
  | unset => cases hq
  | one p =>
    cases hq
    rfl
  | each ps =>
    have hlt : i < ps.length := by
      rw [show ps.length = hosts.length from hfit]
      exact hi
    rw [Ports.port, List.getElem?_eq_getElem hlt]
    exact hs _ (List.getElem_mem hlt)

/-- The port of some host, for each port of the list. -/
theorem Ports.exists_port {q : DecimalPort} (hq : ports.toList.head? = some q)
    (hfit : ports.Fits hosts.length)
    {p : DecimalPort} (hp : p ∈ ports.toList) : p.value = q.value ∨ ∃ i < hosts.length,
      ports.port i = p.value := by
  cases ports with
  | unset => cases hp
  | one p' =>
    cases hq
    rw [List.mem_singleton.mp hp]
    exact .inl rfl
  | each ps =>
    obtain ⟨i, hi, rfl⟩ := List.getElem_of_mem hp
    refine .inr ⟨i, (show ps.length = hosts.length from hfit) ▸ hi, ?_⟩
    rw [Ports.port, List.getElem?_eq_getElem (show i < ps.length from hi)]
    rfl

/-- If no port is given, each host gets the default port. -/
theorem pairs_unset (hq : ports.toList.head? = none) (hfit : ports.Fits hosts.length)
    (hne : hosts ≠ []) :
    pairs hosts ports = hosts.map fun h => (h.host, htons DEFAULT_PORT) := by
  cases ports with
  | unset => exact List.ext_getElem (by simp [pairs]) fun i h₁ h₂ => by simp [pairs, Ports.port]
  | one p => cases hq
  | each ps =>
    have hps : ps = [] := List.head?_eq_none_iff.mp hq
    rw [hps] at hfit
    exact absurd (List.length_eq_zero_iff.mp hfit.symm) hne

/-- If one is given, the addresses are the pairs exactly if the ports are the same and no host is
ambiguous. -/
theorem map_eq_pairs_iff {q : DecimalPort} (hq : ports.toList.head? = some q)
    (hfit : ports.Fits hosts.length) {g : Host net → HostAndPort} (hg : ∀ h,
      (¬ h.Ambiguous q.text → pair (g h) = (h.host, htons q.value)) ∧
      (h.Ambiguous q.text → (g h).host ≠ h.host)) :
    (hosts.map g).map pair = pairs hosts ports ↔
      (∀ p ∈ ports.toList, p.value = q.value) ∧ ∀ h ∈ hosts, ¬ h.Ambiguous q.text := by
  constructor
  · intro he
    have hat : ∀ i (hi : i < hosts.length),
      pair (g hosts[i]) = (hosts[i].host, htons (ports.port i)) := by
      intro i hi
      have hget : ((hosts.map g).map pair)[i]? = (pairs hosts ports)[i]? := by rw [he]
      simpa [pairs, hi] using hget
    have hamb : ∀ h ∈ hosts, ¬ h.Ambiguous q.text := by
      intro h hm ha
      obtain ⟨i, hi, rfl⟩ := List.getElem_of_mem hm
      exact (hg _).2 ha (congrArg Prod.fst (hat i hi))
    refine ⟨fun p hp => ?_, hamb⟩
    rcases Ports.exists_port hq hfit hp with hv | ⟨i, hi, hv⟩
    · exact hv
    · have := hat i hi
      rw [(hg _).1 (hamb _ (List.getElem_mem hi)), hv] at this
      exact (htons_inj.mp (congrArg Prod.snd this)).symm
  · rintro ⟨hs, hamb⟩
    refine List.ext_getElem (by simp [pairs]) fun i h₁ h₂ => ?_
    have hi : i < hosts.length := by simpa using h₁
    simp only [List.getElem_map, pairs, List.getElem_mapIdx]
    rw [(hg _).1 (hamb _ (List.getElem_mem hi)), Ports.port_eq hq hs hfit hi]

/-- The list of hosts is that of the environment. -/
def ListsHosts (r : ConfigurationReader) (hosts : List (Host net)) : Prop :=
  r.dbClusterAddrListEnvVariableValue = commaList (hosts.map Host.text) ∨
    r.dbClusterAddrListEnvVariableValue = [] ∧
    r.dbHostEnvVariableValue = commaList (hosts.map Host.text)

section Read

variable {r : ConfigurationReader}

theorem texts_comma (hnet : StandardIPv6 net) : ∀ s ∈ hosts.map Host.text,
    chr ',' ∉ s := fun s hs => by
  obtain ⟨h, -, rfl⟩ := List.mem_map.mp hs
  exact h.no_comma hnet

theorem texts_ne_nil (hnet : StandardIPv6 net) (hne : hosts ≠ []) :
    commaList (hosts.map Host.text) ≠ [] :=
  commaList_ne_nil (by simpa using hne) fun s hs => by
    obtain ⟨h, -, rfl⟩ := List.mem_map.mp hs
    exact (h.text_ne_nil hnet).1

/-- Without ports each host is read with the default port. -/
theorem read_no_ports (hnet : StandardIPv6 net) (hne : hosts ≠ [])
    (hsrc : r.sourceForDatabaseConfiguration = DB_HOST_ENV_VAR_NAME) (hlist : ListsHosts r hosts)
    (hport : r.dbPortEnvVariableValue = []) :
    ∃ g : Host net → HostAndPort, (∀ h, pair (g h) = (h.host, htons DEFAULT_PORT)) ∧
      r.readDatabaseConfiguration net .new =
      .ok (r.applySentinel ⟨r.selected, hosts.map g, [], []⟩) := by
  choose g hg hpair using fun h : Host net => h.new_text hnet (htons DEFAULT_PORT)
  have hsplit : splitFrom (chr ',') (if r.dbPortEnvVariableValue ≠ [] then
      appendDBPortToAddrList (commaList (hosts.map Host.text)) r.dbPortEnvVariableValue
      else commaList (hosts.map Host.text)) 0 = hosts.map Host.text := by
    rw [hport, if_neg (by simp), splitFrom_zero,
      splitOn_commaList (texts_comma hnet) (by simpa using hne)]
  exact ⟨g, hpair, read_env hsrc (texts_ne_nil hnet hne) hlist hsplit fun h _ => hg h⟩

/-- With ports each host is read with the first of them, unless it is ambiguous. -/
theorem read_ports (hnet : StandardIPv6 net) (hne : hosts ≠ [])
    (hsrc : r.sourceForDatabaseConfiguration = DB_HOST_ENV_VAR_NAME) (hlist : ListsHosts r hosts)
    {q : DecimalPort} (hport : r.dbPortEnvVariableValue ≠ [])
    (hfirst : (DatabaseConfigurationImpl.split r.dbPortEnvVariableValue)[0]? = some q.text) :
    ∃ g : Host net → HostAndPort, (∀ h, (¬ h.Ambiguous q.text →
      pair (g h) = (h.host, htons q.value)) ∧
        (h.Ambiguous q.text → (g h).host ≠ h.host)) ∧
      r.readDatabaseConfiguration net .new =
      .ok (r.applySentinel ⟨r.selected, hosts.map g, [], []⟩) := by
  have hparse : ∀ h : Host net, ∃ a,
      HostAndPort.new net (h.text ++ chr ':' :: q.text) (htons DEFAULT_PORT) = .ok a ∧
        (¬ h.Ambiguous q.text → pair a = (h.host, htons q.value)) ∧
        (h.Ambiguous q.text → a.host ≠ h.host) := by
    intro h
    by_cases ha : h.Ambiguous q.text
    · obtain ⟨a, hn, hd⟩ := h.new_ambiguous hnet q (htons DEFAULT_PORT) ha
      exact ⟨a, hn, fun hna => absurd ha hna, fun _ => hd⟩
    · obtain ⟨a, hn, hd⟩ := h.new_port hnet q (htons DEFAULT_PORT) ha
      exact ⟨a, hn, fun _ => hd, fun h => absurd h ha⟩
  choose g hg hpair using hparse
  have hsplit : splitFrom (chr ',') (if r.dbPortEnvVariableValue ≠ [] then
      appendDBPortToAddrList (commaList (hosts.map Host.text)) r.dbPortEnvVariableValue
      else commaList (hosts.map Host.text)) 0 = hosts.map fun h => h.text ++ chr ':' :: q.text := by
    rw [if_pos hport, split_appendDBPort (texts_comma hnet) (by simpa using hne) hfirst
      (decimalPort_no_comma q),
      List.map_map]
    rfl
  exact ⟨g, hpair, read_env hsrc (texts_ne_nil hnet hne) hlist hsplit fun h _ => hg h⟩

/-- The first port of the list in the text of the variable. -/
theorem ports_text {q : DecimalPort} (hq : ports.toList.head? = some q) :
    commaList (ports.toList.map DecimalPort.text) ≠ [] ∧
      (DatabaseConfigurationImpl.split (commaList (ports.toList.map DecimalPort.text)))[0]? =
      some q.text := by
  have htexts : ports.toList.map DecimalPort.text ≠ [] :=
    List.ne_nil_of_mem (List.mem_map_of_mem (List.mem_of_head? hq))
  refine ⟨commaList_ne_nil htexts fun s hs => ?_, ?_⟩
  · obtain ⟨p, -, rfl⟩ := List.mem_map.mp hs
    exact (lexicalCastDigits_eq_some p.valid).1
  · rw [DatabaseConfigurationImpl.split, splitOn_commaList _ htexts]
    · rw [← List.head?_eq_getElem?, List.head?_map, hq]
      rfl
    · intro s hs
      obtain ⟨p, -, rfl⟩ := List.mem_map.mp hs
      exact decimalPort_no_comma p

end Read

end Pairs

/-- **Hosts and ports from the environment.** The addresses that are read are the hosts of the list,
each with its port, exactly if `DBAAS_SERVICE_HOST` is set, all ports are the same, and no bare IPv6
address with the port behind it is another IPv6 address. -/
theorem envAddresses_paired_iff (net : Resolver) (hnet : StandardIPv6 net)
    (getenv : Bytes → Option Bytes) (files : List (Bytes × Json)) (r : ConfigurationReader)
    (hr : ConfigurationReader.new getenv files = .ok r)
    (hosts : List (Host net)) (hne : hosts ≠ []) (ports : Ports) (hfit : ports.Fits hosts.length)
    (henv : Environment net getenv hosts ports)
    (hjson : getenv DB_HOST_ENV_VAR_NAME = none → r.jsonDatabaseConfiguration = none) :
    (∃ d, r.readDatabaseConfiguration net .new = .ok d ∧
      d.serverAddresses.map pair = pairs hosts ports) ↔
      Paired net getenv hosts ports := by
  cases hh : getenv DB_HOST_ENV_VAR_NAME with
  | none =>
    refine iff_of_false ?_ fun h => ?_
    · rintro ⟨d, hd, he⟩
      rw [read_unset net hr hh (hjson hh)] at hd
      cases hd
      have hlen := congrArg List.length he
      rw [length_pairs] at hlen
      exact hne (List.length_eq_zero_iff.mp hlen.symm)
    · have := h.used
      rw [hh] at this
      cases this
  | some host =>
    obtain ⟨hhost, hport, -, -, hcluster, hsrc⟩ := new_env hr hh
    rw [henv.ports] at hport
    have hlist : ListsHosts r hosts := by
      rcases henv.hosts with hc | ⟨hc, hc'⟩
      · exact .inl (by rw [hcluster, hc]; rfl)
      · refine .inr ⟨hcluster.trans hc, ?_⟩
        rw [hhost]
        exact Option.some.inj (hh.symm.trans hc')
    cases hq : ports.toList.head? with
    | none =>
      have hport : r.dbPortEnvVariableValue = [] := by
        rw [hport, List.head?_eq_none_iff.mp hq]
        rfl
      obtain ⟨g, hg, hread⟩ := read_no_ports hnet hne hsrc hlist hport
      refine iff_of_true ⟨_, hread, ?_⟩ ⟨by rw [hh]; rfl, ?_, ?_⟩
      · rw [applySentinel_addresses, pairs_unset hq hfit hne, List.map_map]
        exact List.map_congr_left fun h _ => hg h
      · rw [hq]
        exact fun q hm => by cases hm
      · rw [hq]
        exact fun q hm => by cases hm
    | some q =>
      obtain ⟨hne', hfirst⟩ := ports_text hq
      rw [← hport] at hne' hfirst
      obtain ⟨g, hg, hread⟩ := read_ports hnet hne hsrc hlist hne' hfirst
      have hiff := map_eq_pairs_iff hq hfit hg
      rw [hread]
      constructor
      · rintro ⟨d, hd, he⟩
        cases hd
        rw [applySentinel_addresses] at he
        obtain ⟨hs, ha⟩ := hiff.mp he
        refine ⟨by rw [hh]; rfl, ?_, ?_⟩ <;> rw [hq] <;> rintro _ ⟨⟩
        · exact hs
        · exact ha
      · intro h
        refine ⟨_, rfl, ?_⟩
        rw [applySentinel_addresses]
        exact hiff.mpr ⟨h.same q hq, h.unambiguous q hq⟩

/-- The only IPv6 address is `::1`. -/
def loopbackNet : Resolver := ⟨fun s => s = str "::1", fun _ => none⟩

theorem loopbackNet_standard : StandardIPv6 loopbackNet := by
  refine ⟨fun s hs => ?_, fun s hs => ?_⟩ <;> rw [of_decide_eq_true hs] <;> decide +kernel

/-- The variables with these hosts and ports. -/
def environment (host cluster port : Bytes) (name : Bytes) : Option Bytes :=
  if name = DB_HOST_ENV_VAR_NAME then some host
  else if name = DB_CLUSTER_ADDR_LIST_ENV_VAR_NAME then some cluster
  else if name = DB_PORT_ENV_VAR_NAME then some port
  else none

/-- A name and an IPv6 address in brackets, with one port for both. -/
theorem envAddresses_paired_one_port : ∃ r d,
    ConfigurationReader.new (environment (str "dbaas") (str "dbaas,[::1]") (str "6380"))
    [] = .ok r ∧
    r.readDatabaseConfiguration loopbackNet .new = .ok d ∧
    d.serverAddresses.map pair = [(str "dbaas", htons ⟨6380, by decide⟩),
      (str "::1", htons ⟨6380, by decide⟩)] := by
  let hosts : List (Host loopbackNet) :=
    [.name (str "dbaas") (by decide) (by decide +kernel), .bracketed (str "::1") (by decide)]
  let ports : Ports := .one ⟨str "6380", ⟨6380, by decide⟩, by decide⟩
  have henv : Environment loopbackNet (environment (str "dbaas") (str "dbaas,[::1]")
    (str "6380")) hosts ports :=
    ⟨.inl (by decide), by decide⟩
  have hpaired : Paired loopbackNet (environment (str "dbaas") (str "dbaas,[::1]") (str "6380"))
    hosts ports := by
    refine ⟨rfl, fun q hq p hp => ?_, fun q hq h hm => ?_⟩
    · cases hq
      rw [List.mem_singleton.mp hp]
    · simp only [hosts, List.mem_cons, List.not_mem_nil, or_false] at hm
      rcases hm with rfl | rfl <;> exact id
  obtain ⟨d, hd, he⟩ := (envAddresses_paired_iff loopbackNet loopbackNet_standard _ [] _ rfl hosts
    (by simp [hosts]) ports
    trivial henv (fun h => by cases h)).mpr hpaired
  exact ⟨_, d, rfl, hd, he⟩

/-- The second of two hosts gets the port of the first one. -/
theorem envAddresses_first_port : ∃ r d,
    ConfigurationReader.new (environment (str "dbaas-0") (str "dbaas-0,dbaas-1") (str "6379,6380"))
    [] = .ok r ∧
    r.readDatabaseConfiguration loopbackNet .new = .ok d ∧
    d.serverAddresses.map pair = [(str "dbaas-0", htons ⟨6379, by decide⟩),
      (str "dbaas-1", htons ⟨6379, by decide⟩)] ∧
    d.serverAddresses.map pair ≠
      [(str "dbaas-0", htons ⟨6379, by decide⟩), (str "dbaas-1", htons ⟨6380, by decide⟩)] := by
  let hosts : List (Host loopbackNet) :=
    [.name (str "dbaas-0") (by decide) (by decide +kernel),
      .name (str "dbaas-1") (by decide) (by decide +kernel)]
  let port : DecimalPort := ⟨str "6379", ⟨6379, by decide⟩, by decide⟩
  obtain ⟨r, hr⟩ : ∃ r, ConfigurationReader.new
      (environment (str "dbaas-0") (str "dbaas-0,dbaas-1") (str "6379,6380")) [] = .ok r := ⟨_, rfl⟩
  obtain ⟨-, hport, -, -, hcluster, hsrc⟩ := new_env hr rfl
  have hlist : ListsHosts r hosts := .inl (hcluster.trans (by decide))
  have hport : r.dbPortEnvVariableValue = str "6379,6380" := hport.trans (by decide)
  have hfirst : (DatabaseConfigurationImpl.split r.dbPortEnvVariableValue)[0]? =
    some port.text := by
    rw [hport]
    decide
  obtain ⟨g, hg, hread⟩ := read_ports loopbackNet_standard (by simp [hosts]) hsrc hlist
    (by rw [hport]; decide) hfirst
  have hname : ∀ h ∈ hosts, pair (g h) = (h.host, htons port.value) :=
    fun h hm => (hg h).1 fun ha => by
    simp only [hosts, List.mem_cons, List.not_mem_nil, or_false] at hm
    rcases hm with rfl | rfl <;> exact ha
  have hpairs : (r.applySentinel ⟨r.selected, hosts.map g, [], []⟩).serverAddresses.map pair =
      [(str "dbaas-0", htons ⟨6379, by decide⟩), (str "dbaas-1", htons ⟨6379, by decide⟩)] := by
    rw [applySentinel_addresses, List.map_map]
    exact List.map_congr_left hname
  refine ⟨r, _, hr, hread, hpairs, ?_⟩
  rw [hpairs]
  decide +kernel

end Config
end Sdl
