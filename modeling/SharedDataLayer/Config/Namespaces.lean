import SharedDataLayer.Config.Reader
import SharedDataLayer.Redis.Contents

/-!
# The namespace configuration (`src/namespaceconfigurationsimpl.cpp`, `src/configurationreader.cpp`)

The entries of `"sharedDataLayer"` are kept by their prefix, and `readNamespaceConfigurations` adds
them to a `NamespaceConfigurationsImpl` in the order in which the unordered map is iterated: any
permutation of its entries. A namespace has the configuration of the longest prefix that it starts
with; the answer is kept in a lookup table.

`asBool` is the translator of boost for `bool`.

* `Effective`: what the configuration of a namespace should be, for the entries in the order in
  which they were read.
* `namespaceConfiguration_effective`: what it is.
-/

namespace Sdl
namespace Config

open Spec Redis

/-! ## `NamespaceConfigurationsImpl` -/

structure NamespaceConfiguration where
  namespacePrefix : Bytes
  dbBackendIsUsed : Bool
  notificationsAreEnabled : Bool
  sourceName : Bytes
  deriving DecidableEq

def getDefaultNamespaceConfiguration : NamespaceConfiguration := ⟨[], true, false, str "<default>"⟩

structure NamespaceConfigurationsImpl where
  namespaceConfigurations : List NamespaceConfiguration
  namespaceConfigurationsLookupTable : OrdMap Bytes Nat

def defaultConfigurationIndex : Nat := 0

/-- The local variables of `findConfigurationForNamespace`. -/
structure Search where
  longestMatchingPrefixLen : Nat
  foundIndex : Nat
  configurationFound : Bool

/-- The body of the loop, for the configuration with the index `i`. -/
def Search.next (ns : Namespace) (s : Search) (i : Nat) (c : NamespaceConfiguration) : Search :=
  let prefixLen := c.namespacePrefix.length
  if ns.take prefixLen = c.namespacePrefix then
    if s.longestMatchingPrefixLen ≤ prefixLen then ⟨prefixLen, i, true⟩ else s
  else s

/-- The loop over the configurations from the index `i` on. -/
def Search.from (ns : Namespace) : Nat → List NamespaceConfiguration → Search → Search
  | _, [], s => s
  | i, c :: cs, s => Search.from ns (i + 1) cs (s.next ns i c)

namespace NamespaceConfigurationsImpl

def new : NamespaceConfigurationsImpl := ⟨[getDefaultNamespaceConfiguration], .empty⟩

def addNamespaceConfiguration (n : NamespaceConfigurationsImpl) (c : NamespaceConfiguration) :
    Except Failure NamespaceConfigurationsImpl :=
  if !n.namespaceConfigurationsLookupTable.isEmpty then
    .error (.abort "Cannot add namespace configurations after lookup table is initialized")
  else .ok { n with namespaceConfigurations := n.namespaceConfigurations ++ [c] }

/-- The index that the search gives. -/
def search (n : NamespaceConfigurationsImpl) (ns : Namespace) : Nat :=
  let s := Search.from ns (defaultConfigurationIndex + 1)
    (n.namespaceConfigurations.drop (defaultConfigurationIndex + 1)) ⟨0, 0, false⟩
  if s.configurationFound then s.foundIndex else defaultConfigurationIndex

/-- `findConfigurationForNamespace`, with the lookup table after it. `none` is an index out of
range. -/
def findConfigurationForNamespace (n : NamespaceConfigurationsImpl) (ns : Namespace) :
    NamespaceConfigurationsImpl × Option NamespaceConfiguration :=
  match n.namespaceConfigurationsLookupTable.find ns with
  | some i => (n, n.namespaceConfigurations[i]?)
  | none =>
    ({ n with namespaceConfigurationsLookupTable := n.namespaceConfigurationsLookupTable.assign
                ns (n.search ns) },
      n.namespaceConfigurations[n.search ns]?)

def isDbBackendUseEnabled (n : NamespaceConfigurationsImpl) (ns : Namespace) : Option Bool :=
  (n.findConfigurationForNamespace ns).2.map NamespaceConfiguration.dbBackendIsUsed

def areNotificationsEnabled (n : NamespaceConfigurationsImpl) (ns : Namespace) : Option Bool :=
  (n.findConfigurationForNamespace ns).2.map NamespaceConfiguration.notificationsAreEnabled

def isEmpty (n : NamespaceConfigurationsImpl) : Bool := n.namespaceConfigurations.length = 1

/-- After the configurations of some namespaces were asked for. -/
def asked (n : NamespaceConfigurationsImpl) (nss : List Namespace) : NamespaceConfigurationsImpl :=
  nss.foldl (fun n ns => (n.findConfigurationForNamespace ns).1) n

end NamespaceConfigurationsImpl

/-! ## The reader -/

section Parse

variable (asBool : Bytes → Option Bool)

def validateNamespacePrefix (namespacePrefix sourceName : Bytes) : Except Exception Unit :=
  if !isValidNamespaceSyntax namespacePrefix then
    .error (configurationError sourceName (str "\"namespacePrefix\": \"" ++
      namespacePrefix ++ str "\"" ++
      str " contains some of these disallowed characters: " ++ getDisallowedCharactersInNamespace))
  else .ok ()

def validateEnableNotifications (enableNotifications useDbBackend : Bool) (sourceName : Bytes) :
    Except Exception Unit :=
  if enableNotifications && !useDbBackend then
    .error (configurationError sourceName
      (str "\"enableNotifications\" cannot be true, when \"useDbBackend\" is false"))
  else .ok ()

/-- The configuration that `parseNsConfiguration` adds. -/
def nsConfiguration (namespacePrefix : Bytes) (ptree : PTree) (sourceName : Bytes) :
    Except Exception NamespaceConfiguration := do
  let useDbBackend ← get asBool ptree (str "useDbBackend") sourceName
  let enableNotifications ← get asBool ptree (str "enableNotifications") sourceName
  validateNamespacePrefix namespacePrefix sourceName
  validateEnableNotifications enableNotifications useDbBackend sourceName
  .ok ⟨namespacePrefix, useDbBackend, enableNotifications, sourceName⟩

def parseNsConfiguration (n : NamespaceConfigurationsImpl) (item : Bytes × PTree × Bytes) :
    Except Failure NamespaceConfigurationsImpl :=
  match nsConfiguration asBool item.1 item.2.1 item.2.2 with
  | .ok c => n.addNamespaceConfiguration c
  | .error e => .error (.exception e)

/-- `items` is the map of the reader as it is iterated. -/
def readNamespaceConfigurations (items : List (Bytes × PTree × Bytes))
    (n : NamespaceConfigurationsImpl) :
    Except Failure NamespaceConfigurationsImpl :=
  if !n.isEmpty then .error (.abort "Namespace configurations can be read only to empty container")
  else items.foldlM (parseNsConfiguration asBool) n

end Parse

/-- The reader after further input streams. One that has thrown an exception goes on to be used. -/
def ConfigurationReader.readStreams (r : ConfigurationReader) (streams : List Json) :
    ConfigurationReader :=
  streams.foldl (fun r input => (r.readConfigurationFromInputStream input).1) r

/-! ## What is configured -/

/-- An entry of `"sharedDataLayer"`. -/
structure Entry where
  namespacePrefix : Bytes
  ptree : PTree
  sourceName : Bytes

def Entry.item (e : Entry) : Bytes × PTree × Bytes := (e.namespacePrefix, e.ptree, e.sourceName)

/-- The entries of an array; the reading ends at one without a prefix. -/
def entriesOf (sourceName : Bytes) : List PTree → List Entry
  | [] => []
  | t :: ts =>
    match t.getChildOptional (str "namespacePrefix") with
    | some p => ⟨p.data, t, sourceName⟩ :: entriesOf sourceName ts
    | none => []

def sourceEntries (sourceName : Bytes) : Json → List Entry
  | .error _ _ => []
  | .tree t =>
    match t.getChildOptional (str "sharedDataLayer") with
    | some n => entriesOf sourceName (n.children.map Prod.snd)
    | none => []

/-- The entries since the last input stream was opened, in the order in which they were read. -/
def entriesRead (files : List (Bytes × Json)) (streams : List Json) : List Entry :=
  match streams.getLast? with
  | some input => sourceEntries (str "<istream>") input
  | none => files.flatMap fun file => sourceEntries file.1 file.2

/-- The data of a child, if the translator takes it. -/
def PTree.value {T : Type} (translator : Bytes → Option T) (t : PTree) (param : Bytes) : Option T :=
  (t.getChildOptional param).bind fun child => translator child.data

/-- The entry is valid, and `c` is the configuration that it states. -/
structure Entry.Configures (asBool : Bytes → Option Bool) (e : Entry)
    (c : NamespaceConfiguration) : Prop where
  namespacePrefix : c.namespacePrefix = e.namespacePrefix
  sourceName : c.sourceName = e.sourceName
  useDbBackend : e.ptree.value asBool (str "useDbBackend") = some c.dbBackendIsUsed
  enableNotifications : e.ptree.value asBool (str "enableNotifications") =
    some c.notificationsAreEnabled
  allowed : ∀ b ∈ e.namespacePrefix, b ≠ chr ',' ∧ b ≠ chr '{' ∧ b ≠ chr '}'
  notifications : c.notificationsAreEnabled = true → c.dbBackendIsUsed = true

/-- The entry is not overridden by a later one. -/
def Survives (entries : List Entry) (e : Entry) : Prop :=
  ∃ l₁ l₂, entries = l₁ ++ e :: l₂ ∧ ∀ e' ∈ l₂, e'.namespacePrefix ≠ e.namespacePrefix

/-- `c` is the configuration of `ns`: that of the last entry for the longest prefix of `ns`, or the
default. -/
inductive Effective (asBool : Bytes → Option Bool) (entries : List Entry) (ns : Namespace)
    (c : NamespaceConfiguration) : Prop
  | entry (e : Entry) (last : Survives entries e) (starts : e.namespacePrefix <+: ns)
    (longest : ∀ e' ∈ entries, e'.namespacePrefix <+: ns →
      e'.namespacePrefix.length ≤ e.namespacePrefix.length)
    (configures : e.Configures asBool c)
  | default (none : ∀ e ∈ entries, ¬ e.namespacePrefix <+: ns)
    (eq : c = getDefaultNamespaceConfiguration)

/-! ## The search -/

section Search

variable {ns : Namespace} {n : NamespaceConfigurationsImpl}

/-- What the loop has found among the configurations `done`. -/
structure Search.Best (ns : Namespace) (all done : List NamespaceConfiguration)
    (s : Search) : Prop where
  found : s.configurationFound = true → ∃ before c after, done = before ++ c :: after ∧
    all[s.foundIndex]? = some c ∧ c.namespacePrefix <+: ns ∧
    s.longestMatchingPrefixLen = c.namespacePrefix.length ∧
    ∀ c' ∈ after, c'.namespacePrefix <+: ns → c'.namespacePrefix.length < c.namespacePrefix.length
  longest : ∀ c ∈ done, c.namespacePrefix <+: ns →
    s.configurationFound = true ∧ c.namespacePrefix.length ≤ s.longestMatchingPrefixLen
  start : s.configurationFound = false → s.longestMatchingPrefixLen = 0

theorem Search.Best.next {all done : List NamespaceConfiguration} {s : Search}
    (h : Best ns all done s) {c : NamespaceConfiguration} {i : Nat} (hi : all[i]? = some c) :
    Best ns all (done ++ [c]) (s.next ns i c) := by
  have hmem : ∀ {c' : NamespaceConfiguration} {P : Prop}, c' ∈ done ++ [c] → (c' ∈ done → P) →
    (c' = c → P) → P :=
    fun hc h₁ h₂ => (List.mem_append.mp hc).elim h₁ fun hc => h₂ (List.mem_singleton.mp hc)
  unfold Search.next
  simp only
  split
  · rename_i ht
    have hp : c.namespacePrefix <+: ns := List.prefix_iff_eq_take.mpr ht.symm
    split
    · rename_i hl
      refine ⟨fun _ => ⟨done, c, [], rfl, hi, hp, rfl, by simp⟩, fun c' hc' hp' => ⟨rfl, ?_⟩,
        fun hf => (by cases hf)⟩
      refine hmem hc' (fun hc' => ?_) fun he => ?_
      · have := (h.longest c' hc' hp').2
        show c'.namespacePrefix.length ≤ c.namespacePrefix.length
        omega
      · rw [he]
    · -- A longer one was found before.
      rename_i hl
      have hf : s.configurationFound = true := by
        by_contra hf
        rw [h.start (by simpa using hf)] at hl
        omega
      obtain ⟨before, b, after, rfl, hb, hbp, hlen, hafter⟩ := h.found hf
      refine ⟨fun _ => ⟨before, b, after ++ [c], by simp, hb, hbp, hlen, fun c' hc' hp' => ?_⟩,
        fun c' hc' hp' => ⟨hf, ?_⟩, h.start⟩
      · rcases List.mem_append.mp hc' with hc' | hc'
        · exact hafter c' hc' hp'
        · rw [List.mem_singleton.mp hc']
          omega
      refine hmem hc' (fun hc' => (h.longest c' hc' hp').2) fun he => ?_
      rw [he]
      omega
  · rename_i ht
    refine ⟨fun hf => ?_, fun c' hc' hp' => ?_, h.start⟩
    · obtain ⟨before, b, after, rfl, hb, hbp, hlen, hafter⟩ := h.found hf
      refine ⟨before, b, after ++ [c], by simp, hb, hbp, hlen, fun c' hc' hp' => ?_⟩
      rcases List.mem_append.mp hc' with hc' | hc'
      · exact hafter c' hc' hp'
      · rw [List.mem_singleton.mp hc'] at hp'
        exact absurd (List.prefix_iff_eq_take.mp hp').symm ht
    · refine hmem hc' (fun hc' => h.longest c' hc' hp') fun he => ?_
      rw [he] at hp'
      exact absurd (List.prefix_iff_eq_take.mp hp').symm ht

theorem Search.Best.from {all : List NamespaceConfiguration} (d : NamespaceConfiguration) :
    ∀ (rest done : List NamespaceConfiguration) (s : Search), all = d :: (done ++ rest) →
      Best ns all done s →
      Best ns all (done ++ rest) (Search.from ns (done.length + 1) rest s) := by
  intro rest
  induction rest with
  | nil =>
    intro done s _ h
    rw [List.append_nil]
    exact h
  | cons c rest ih =>
    intro done s ha h
    have hi : all[done.length + 1]? = some c := by
      rw [ha]
      simp
    have hn := ih (done ++ [c]) (s.next ns (done.length + 1) c) (by rw [ha]; simp) (h.next hi)
    simpa [Search.from] using hn

/-- The last configuration among those with the longest prefix of the namespace, or the first
one. -/
theorem search_last {d : NamespaceConfiguration} {added : List NamespaceConfiguration}
    (h : n.namespaceConfigurations = d :: added) :
    (∃ before c after, added = before ++ c :: after ∧
      n.namespaceConfigurations[n.search ns]? = some c ∧
      c.namespacePrefix <+: ns ∧
      (∀ c' ∈ added, c'.namespacePrefix <+: ns →
        c'.namespacePrefix.length ≤ c.namespacePrefix.length) ∧
      ∀ c' ∈ after, c'.namespacePrefix <+: ns →
      c'.namespacePrefix.length < c.namespacePrefix.length) ∨
    (n.namespaceConfigurations[n.search ns]? = some d ∧ ∀ c ∈ added,
      ¬ c.namespacePrefix <+: ns) := by
  have hb : Search.Best ns n.namespaceConfigurations added
      (Search.from ns 1 (n.namespaceConfigurations.drop 1) ⟨0, 0, false⟩) := by
    have hd : n.namespaceConfigurations.drop 1 = added := by rw [h]; rfl
    rw [hd]
    exact Search.Best.from d added [] ⟨0, 0, false⟩ h
      ⟨fun hf => (by cases hf), fun c hc => (by cases hc), fun _ => rfl⟩
  simp only [NamespaceConfigurationsImpl.search, defaultConfigurationIndex, Nat.zero_add]
  split
  · rename_i hf
    obtain ⟨before, c, after, he, hi, hp, hl, hafter⟩ := hb.found hf
    exact .inl ⟨before, c, after, he, hi, hp,
      fun c' hc' hp' => hl ▸ (hb.longest c' hc' hp').2, hafter⟩
  · rename_i hf
    refine .inr ⟨by rw [h]; rfl, fun c hc hp => hf (hb.longest c hc hp).1⟩

theorem search_spec {d : NamespaceConfiguration} {added : List NamespaceConfiguration}
    (h : n.namespaceConfigurations = d :: added) :
    (∃ c ∈ added, n.namespaceConfigurations[n.search ns]? = some c ∧ c.namespacePrefix <+: ns ∧
      ∀ c' ∈ added, c'.namespacePrefix <+: ns →
      c'.namespacePrefix.length ≤ c.namespacePrefix.length) ∨
    (n.namespaceConfigurations[n.search ns]? = some d ∧ ∀ c ∈ added,
      ¬ c.namespacePrefix <+: ns) := by
  rcases @search_last ns n d added h with ⟨before, c, after, rfl, hi, hp, hl, -⟩ | hd
  · exact .inl ⟨c, by simp, hi, hp, hl⟩
  · exact .inr hd

/-- The lookup table holds what the search gives. -/
def Cached (n : NamespaceConfigurationsImpl) : Prop :=
  ∀ ns i, n.namespaceConfigurationsLookupTable.find ns = some i → i = n.search ns

theorem Cached.find (h : Cached n) (ns : Namespace) :
    (n.findConfigurationForNamespace ns).2 = n.namespaceConfigurations[n.search ns]? ∧
      Cached (n.findConfigurationForNamespace ns).1 ∧
      (n.findConfigurationForNamespace ns).1.namespaceConfigurations =
      n.namespaceConfigurations := by
  unfold NamespaceConfigurationsImpl.findConfigurationForNamespace
  split
  · rename_i i hi
    rw [h ns i hi]
    exact ⟨rfl, h, rfl⟩
  · refine ⟨rfl, fun ns' i hi => ?_, rfl⟩
    rw [OrdMap.find_assign] at hi
    split at hi
    · rename_i he
      cases hi
      rw [he]
      rfl
    · exact h ns' i hi

theorem search_congr {n' : NamespaceConfigurationsImpl}
    (h : n'.namespaceConfigurations = n.namespaceConfigurations) (ns : Namespace) :
    n'.search ns = n.search ns := by
  unfold NamespaceConfigurationsImpl.search
  rw [h]

/-- Whatever was asked before, the answer is that of the search. -/
theorem Cached.asked (h : Cached n) (nss : List Namespace) (ns : Namespace) :
    ((n.asked nss).findConfigurationForNamespace ns).2 =
    n.namespaceConfigurations[n.search ns]? := by
  induction nss generalizing n with
  | nil => exact (h.find ns).1
  | cons ns' nss ih =>
    obtain ⟨-, hc, hn⟩ := h.find ns'
    have := ih hc
    rw [hn, search_congr hn] at this
    exact this

end Search

/-! ## The parsing of the entries -/

section Parsing

variable {asBool : Bytes → Option Bool}

theorem get_ok_iff {T : Type} {translator : Bytes → Option T} {t : PTree}
    {param sourceName : Bytes} {v : T} :
    get translator t param sourceName = .ok v ↔ t.value translator param = some v := by
  unfold get PTree.value
  cases t.getChildOptional param with
  | none => simp
  | some child =>
    simp only [Option.bind_some]
    cases translator child.data <;> simp

theorem validateNamespacePrefix_ok {p sourceName : Bytes} {u : Unit} :
    validateNamespacePrefix p sourceName = .ok u ↔ ∀ b ∈ p, b ≠ chr ',' ∧ b ≠ chr '{' ∧
      b ≠ chr '}' := by
  simp [validateNamespacePrefix, isValidNamespaceSyntax,
    getDisallowedCharactersInNamespace, SEPARATOR]

theorem validateEnableNotifications_ok {enableNotifications useDbBackend : Bool}
    {sourceName : Bytes} {u : Unit} :
    validateEnableNotifications enableNotifications useDbBackend sourceName = .ok u ↔
      (enableNotifications = true → useDbBackend = true) := by
  cases enableNotifications <;> cases useDbBackend <;> simp [validateEnableNotifications]

theorem nsConfiguration_ok_iff {e : Entry} {c : NamespaceConfiguration} :
    nsConfiguration asBool e.namespacePrefix e.ptree e.sourceName = .ok c ↔
      e.Configures asBool c := by
  unfold nsConfiguration
  simp only [bind_ok_iff, get_ok_iff, validateNamespacePrefix_ok, validateEnableNotifications_ok]
  constructor
  · rintro ⟨useDbBackend, hu, enableNotifications, he, _, hp, _, hn, hc⟩
    cases hc
    exact ⟨rfl, rfl, hu, he, hp, hn⟩
  · intro h
    refine ⟨_, h.useDbBackend, _, h.enableNotifications, (), h.allowed, (), h.notifications, ?_⟩
    rw [← h.namespacePrefix, ← h.sourceName]

theorem Entry.Configures.unique {e : Entry} {c c' : NamespaceConfiguration}
    (h : e.Configures asBool c) (h' : e.Configures asBool c') : c = c' :=
  Except.ok.inj ((nsConfiguration_ok_iff.mpr h).symm.trans (nsConfiguration_ok_iff.mpr h'))

/-- The entries are added one after the other, up to the first that is invalid. -/
theorem parse_items (es : List Entry) (n : NamespaceConfigurationsImpl)
    (hn : n.namespaceConfigurationsLookupTable = .empty) :
    (∃ cs, (∀ e ∈ es, ∃ c ∈ cs, e.Configures asBool c) ∧
      (∀ c ∈ cs, ∃ e ∈ es, e.Configures asBool c) ∧
      (es.map Entry.item).foldlM (parseNsConfiguration asBool) n =
        .ok { n with namespaceConfigurations := n.namespaceConfigurations ++ cs }) ∨
    (∃ e ∈ es, (∀ c, ¬ e.Configures asBool c) ∧
      ∃ x, (es.map Entry.item).foldlM (parseNsConfiguration asBool) n = .error (.exception x)) := by
  induction es generalizing n with
  | nil =>
    refine .inl ⟨[], by simp, by simp, ?_⟩
    simp only [List.map_nil, List.foldlM_nil, List.append_nil]
    rfl
  | cons e es ih =>
    simp only [List.map_cons, List.foldlM_cons]
    cases hp : nsConfiguration asBool e.namespacePrefix e.ptree e.sourceName with
    | error x =>
      refine .inr ⟨e, List.mem_cons_self, fun c hc => ?_, x, ?_⟩
      · rw [nsConfiguration_ok_iff.mpr hc] at hp
        cases hp
      · rw [parseNsConfiguration, Entry.item, hp]
        rfl
    | ok c =>
      have hadd : parseNsConfiguration asBool n e.item =
          .ok { n with namespaceConfigurations := n.namespaceConfigurations ++ [c] } := by
        rw [parseNsConfiguration, Entry.item, hp]
        simp [NamespaceConfigurationsImpl.addNamespaceConfiguration, hn,
          OrdMap.isEmpty, OrdMap.empty]
      rw [hadd]
      rcases ih { n with namespaceConfigurations := n.namespaceConfigurations ++ [c] } hn with
        ⟨cs, hto, hof, hr⟩ | ⟨e', he', hi, x, hx⟩
      · have hc : e.Configures asBool c := nsConfiguration_ok_iff.mp hp
        refine .inl ⟨c :: cs, fun e' he' => ?_, fun c' hc' => ?_, ?_⟩
        · rcases List.mem_cons.mp he' with rfl | he'
          · exact ⟨c, List.mem_cons_self, hc⟩
          · obtain ⟨c', hc', h⟩ := hto e' he'
            exact ⟨c', List.mem_cons_of_mem _ hc', h⟩
        · rcases List.mem_cons.mp hc' with rfl | hc'
          · exact ⟨e, List.mem_cons_self, hc⟩
          · obtain ⟨e', he', h⟩ := hof c' hc'
            exact ⟨e', List.mem_cons_of_mem _ he', h⟩
        · rw [← List.append_cons] at hr
          exact hr
      · exact .inr ⟨e', List.mem_cons_of_mem _ he', hi, x, hx⟩

end Parsing

/-! ## The entries that were read -/

section Reading

theorem assignAll_append {m : OrdMap Bytes (PTree × Bytes)} (l l' : List (Bytes × PTree × Bytes)) :
    m.assignAll (l ++ l') = (m.assignAll l).assignAll l' := List.foldl_append

theorem readEntries_map (sourceName : Bytes) (ts : List PTree) (m : OrdMap Bytes (PTree × Bytes)) :
    (ConfigurationReader.readEntries sourceName ts m).1 =
    m.assignAll ((entriesOf sourceName ts).map Entry.item) := by
  induction ts generalizing m with
  | nil => rfl
  | cons t ts ih =>
    rw [ConfigurationReader.readEntries, entriesOf, get]
    cases t.getChildOptional (str "namespacePrefix") with
    | none => rfl
    | some p => exact ih _

/-- The database part does not touch the namespaces. -/
theorem readDatabase_map (r : ConfigurationReader) (t : PTree) (sourceName : Bytes) :
    (r.readDatabase t sourceName).jsonNamespaceConfigurations = r.jsonNamespaceConfigurations := by
  unfold ConfigurationReader.readDatabase
  split
  · split <;> rfl
  · rfl

theorem readConfiguration_map (r : ConfigurationReader) (input : Json) (sourceName : Bytes) :
    (r.readConfiguration input sourceName).1.jsonNamespaceConfigurations =
      r.jsonNamespaceConfigurations.assignAll
      ((sourceEntries sourceName input).map Entry.item) := by
  cases input with
  | error line message => rfl
  | tree t =>
    simp only [ConfigurationReader.readConfiguration,
      ConfigurationReader.readNamespaces, sourceEntries]
    rw [← readDatabase_map r t sourceName]
    cases t.getChildOptional (str "sharedDataLayer") with
    | none => rfl
    | some n => exact readEntries_map sourceName _ _

theorem readConfigurationFromDirectories_map {r r' : ConfigurationReader}
    {files : List (Bytes × Json)} (h : r.readConfigurationFromDirectories files = .ok r') :
    r'.jsonNamespaceConfigurations = r.jsonNamespaceConfigurations.assignAll
      ((files.flatMap fun file => sourceEntries file.1 file.2).map Entry.item) := by
  induction files generalizing r with
  | nil =>
    cases h
    rfl
  | cons file files ih =>
    simp only [ConfigurationReader.readConfigurationFromDirectories, List.foldlM_cons] at h
    obtain ⟨v, hv, h⟩ := bind_ok_iff.mp h
    have hm := readConfiguration_map r file.2 file.1
    split at hv
    · rename_i hr
      cases hv
      rw [hr] at hm
      rw [ih h, hm, List.flatMap_cons, List.map_append, assignAll_append]
    · cases hv

/-- The map of the reader holds the entries of `entriesRead`, each prefix with its last one. -/
theorem readStreams_map {getenv : Bytes → Option Bytes} {files : List (Bytes × Json)}
    {r : ConfigurationReader}
    (h : ConfigurationReader.new getenv files = .ok r) (streams : List Json) :
    (r.readStreams streams).jsonNamespaceConfigurations =
      OrdMap.empty.assignAll ((entriesRead files streams).map Entry.item) := by
  rcases List.eq_nil_or_concat streams with rfl | ⟨streams, input, rfl⟩
  · have hm := readConfigurationFromDirectories_map h
    have he : (ConfigurationReader.readEnvironment getenv).jsonNamespaceConfigurations =
      .empty := by
      unfold ConfigurationReader.readEnvironment
      split <;> rfl
    rw [he] at hm
    exact hm
  · -- Each stream begins with an empty map, so the last one decides.
    rw [List.concat_eq_append, ConfigurationReader.readStreams, List.foldl_append, entriesRead,
      List.getLast?_append]
    exact readConfiguration_map _ input (str "<istream>")

theorem item_injective {e e' : Entry} (h : e.item = e'.item) : e = e' := by
  obtain ⟨p, t, s⟩ := e
  cases h
  rfl

theorem find_entries_iff {entries : List Entry} {e : Entry} :
    (OrdMap.empty.assignAll (entries.map Entry.item)).find e.namespacePrefix =
    some (e.ptree, e.sourceName) ↔
      Survives entries e := by
  rw [OrdMap.find_assignAll]
  constructor
  · rintro ⟨l₁, l₂, hl, hn⟩
    obtain ⟨m₁, m₂, rfl, -, hm⟩ := List.map_eq_append_iff.mp hl
    obtain ⟨x, m, rfl, hx, rfl⟩ := List.map_eq_cons_iff.mp hm
    have hx : x.item = e.item := hx
    rw [item_injective hx]
    exact ⟨m₁, m, rfl, fun e' he' => hn e'.item (List.mem_map_of_mem he')⟩
  · rintro ⟨l₁, l₂, rfl, hn⟩
    refine ⟨l₁.map Entry.item, l₂.map Entry.item, by simp [Entry.item], fun p hp => ?_⟩
    obtain ⟨e', he', rfl⟩ := List.mem_map.mp hp
    exact hn e' he'

theorem Survives.mem {entries : List Entry} {e : Entry} (h : Survives entries e) : e ∈ entries := by
  obtain ⟨l₁, l₂, rfl, -⟩ := h
  simp

theorem Survives.unique {entries : List Entry} {e e' : Entry} (h : Survives entries e)
    (h' : Survives entries e') (hp : e.namespacePrefix = e'.namespacePrefix) : e = e' := by
  have hf := find_entries_iff.mpr h
  rw [hp, find_entries_iff.mpr h'] at hf
  obtain ⟨p, t, s⟩ := e
  cases hf
  exact item_injective (by rw [Entry.item, hp]; rfl)

theorem exists_survives {entries : List Entry} {e : Entry} (h : e ∈ entries) :
    ∃ e', Survives entries e' ∧ e'.namespacePrefix = e.namespacePrefix := by
  induction entries using List.reverseRecOn with
  | nil => cases h
  | append_singleton entries x ih =>
    by_cases hx : x.namespacePrefix = e.namespacePrefix
    · exact ⟨x, ⟨entries, [], rfl, fun _ hm => (by cases hm)⟩, hx⟩
    · have he : e ∈ entries := by
        rcases List.mem_append.mp h with h | h
        · exact h
        · rw [List.mem_singleton.mp h] at hx
          exact absurd rfl hx
      obtain ⟨e', ⟨l₁, l₂, rfl, hn⟩, hp⟩ := ih he
      refine ⟨e', ⟨l₁, l₂ ++ [x], by simp, fun y hy => ?_⟩, hp⟩
      rcases List.mem_append.mp hy with hy | hy
      · exact hn y hy
      · rw [List.mem_singleton.mp hy, hp]
        exact hx

end Reading

/-! ## The effective configuration -/

section Effective

variable {asBool : Bytes → Option Bool} {entries : List Entry}

theorem Effective.unique {ns : Namespace} {c c' : NamespaceConfiguration}
    (h : Effective asBool entries ns c) (h' : Effective asBool entries ns c') : c = c' := by
  rcases h with ⟨e, he, hs, hl, hc⟩ | ⟨hn, rfl⟩ <;>
    rcases h' with ⟨e', he', hs', hl', hc'⟩ | ⟨hn', rfl⟩
  · -- Two prefixes of one length are the same.
    have hlen : e.namespacePrefix.length = e'.namespacePrefix.length :=
      Nat.le_antisymm (hl' e he.mem hs) (hl e' he'.mem hs')
    have hp := (List.prefix_of_prefix_length_le hs hs' (Nat.le_of_eq hlen)).eq_of_length hlen
    rw [he.unique he' hp] at hc
    exact hc.unique hc'
  · exact absurd hs (hn' e he.mem)
  · exact absurd hs' (hn e' he'.mem)
  · rfl

/-- What is read, if the map has the entries that survive. -/
theorem read_entries {es : List Entry} (hi : ∀ e, e ∈ es ↔ Survives entries e) :
    (∃ x, (∃ e, Survives entries e ∧ ∀ c, ¬ e.Configures asBool c) ∧
      readNamespaceConfigurations asBool (es.map Entry.item) .new = .error (.exception x)) ∨
    (∃ n, (∀ e, Survives entries e → ∃ c, e.Configures asBool c) ∧
      readNamespaceConfigurations asBool (es.map Entry.item) .new = .ok n ∧
      Cached n ∧ ∀ ns, ∃ c, n.namespaceConfigurations[n.search ns]? = some c ∧
      Effective asBool entries ns c) := by
  have hread : readNamespaceConfigurations asBool (es.map Entry.item) .new =
      (es.map Entry.item).foldlM (parseNsConfiguration asBool) .new := rfl
  rcases parse_items es .new rfl with ⟨cs, hto, hof, hr⟩ | ⟨e, he, hinv, x, hx⟩
  · refine .inr ⟨_, fun e he => ?_, hread.trans hr, fun ns i hf => (by cases hf), fun ns => ?_⟩
    · obtain ⟨c, -, hc⟩ := hto e ((hi e).mpr he)
      exact ⟨c, hc⟩
    -- Each entry has an added configuration with its prefix, if not its own then that of a later
    -- one.
    have hadded : ∀ e ∈ entries, ∃ c ∈ cs, c.namespacePrefix = e.namespacePrefix := fun e he => by
      obtain ⟨e', he', hp⟩ := exists_survives he
      obtain ⟨c, hc, hec⟩ := hto e' ((hi e').mpr he')
      exact ⟨c, hc, hec.namespacePrefix.trans hp⟩
    rcases @search_spec ns ⟨[getDefaultNamespaceConfiguration] ++ cs, .empty⟩ _ cs rfl with
      ⟨c, hc, hget, hstart, hlong⟩ | ⟨hget, hno⟩
    · obtain ⟨e, he, hec⟩ := hof c hc
      refine ⟨c, hget, .entry e ((hi e).mp he) (hec.namespacePrefix ▸ hstart)
        (fun e' he' hs' => ?_) hec⟩
      obtain ⟨c', hc', hp⟩ := hadded e' he'
      rw [← hp, ← hec.namespacePrefix]
      exact hlong c' hc' (hp ▸ hs')
    · refine ⟨_, hget, .default (fun e he hs => ?_) rfl⟩
      obtain ⟨c, hc, hp⟩ := hadded e he
      exact hno c hc (hp ▸ hs)
  · exact .inl ⟨x, ⟨e, (hi e).mp he, hinv⟩, hread.trans hx⟩

/-- The items of the map, in any order, are the entries that survive. -/
theorem exists_entries {items : List (Bytes × PTree × Bytes)}
    (hi : items.Perm (OrdMap.empty.assignAll (entries.map Entry.item)).toList) :
    ∃ es : List Entry, items = es.map Entry.item ∧ ∀ e, e ∈ es ↔ Survives entries e := by
  have hes : items = (items.map fun i => (⟨i.1, i.2.1, i.2.2⟩ : Entry)).map Entry.item := by
    rw [List.map_map]
    exact (List.map_id' items).symm
  refine ⟨_, hes, fun e => ?_⟩
  have he : e.item ∈ items ↔ e ∈ items.map fun i => (⟨i.1, i.2.1, i.2.2⟩ : Entry) := by
    constructor
    · exact fun hm => List.mem_map.mpr ⟨e.item, hm, rfl⟩
    · intro hm
      obtain ⟨i, hmem, rfl⟩ := List.mem_map.mp hm
      exact hmem
  rw [← he, hi.mem_iff, ← find_entries_iff]
  exact OrdMap.mem_toList

end Effective

/-- **The effective namespace configuration.** After any files and input streams, and for any order
in which the map is iterated: the reading throws exactly if an entry is invalid that is not
overridden, among those that were read since the last input stream was opened; otherwise each
namespace has the configuration of the last of these entries for the longest of their prefixes, or
the default. The answer depends neither on the order nor on what was asked before, and notifications
are enabled with DB backend only. -/
theorem namespaceConfiguration_effective (asBool : Bytes → Option Bool)
    (getenv : Bytes → Option Bytes)
    (files : List (Bytes × Json)) (streams : List Json) (r : ConfigurationReader)
    (hr : ConfigurationReader.new getenv files = .ok r) (items : List (Bytes × PTree × Bytes))
    (hi : items.Perm (r.readStreams streams).jsonNamespaceConfigurations.toList) :
    ((∃ x, readNamespaceConfigurations asBool items .new = .error x) ↔
      ∃ e, Survives (entriesRead files streams) e ∧ ∀ c, ¬ e.Configures asBool c) ∧
    ∀ n, readNamespaceConfigurations asBool items .new = .ok n → ∀ nss ns,
      (∃ c, ((n.asked nss).findConfigurationForNamespace ns).2 = some c ∧
        Effective asBool (entriesRead files streams) ns c) ∧
      ((n.asked nss).areNotificationsEnabled ns = some true →
        (n.asked nss).isDbBackendUseEnabled ns = some true) ∧
      ∀ items' n', items'.Perm items → readNamespaceConfigurations asBool items' .new = .ok n' →
        (n'.findConfigurationForNamespace ns).2 =
        ((n.asked nss).findConfigurationForNamespace ns).2 := by
  rw [readStreams_map hr] at hi
  obtain ⟨es, rfl, hes⟩ := exists_entries hi
  have hread := @read_entries asBool _ _ hes
  refine ⟨?_, fun n hn nss ns => ?_⟩
  · rcases hread with ⟨x, hinv, hx⟩ | ⟨n, hall, hn, -⟩
    · exact iff_of_true ⟨_, hx⟩ hinv
    · refine iff_of_false ?_ ?_
      · rintro ⟨x, hx⟩
        rw [hn] at hx
        cases hx
      · rintro ⟨e, he, hno⟩
        obtain ⟨c, hc⟩ := hall e he
        exact hno c hc
  · rcases hread with ⟨x, -, hx⟩ | ⟨n₁, -, hn₁, hcached, heff⟩
    · rw [hn] at hx
      cases hx
    rw [hn₁] at hn
    cases hn
    obtain ⟨c, hc, he⟩ := heff ns
    have hfind := (hcached.asked nss ns).trans hc
    refine ⟨⟨c, hfind, he⟩, fun hnot => ?_, fun items' n' hp hn' => ?_⟩
    · simp only [NamespaceConfigurationsImpl.areNotificationsEnabled,
        NamespaceConfigurationsImpl.isDbBackendUseEnabled, hfind, Option.map_some,
        Option.some.injEq] at hnot ⊢
      rcases he with ⟨e, -, -, -, hec⟩ | ⟨-, rfl⟩
      · exact hec.notifications hnot
      · rfl
    · obtain ⟨es', rfl, hes'⟩ := exists_entries (hp.trans hi)
      rcases @read_entries asBool _ _ hes' with ⟨x, -, hx⟩ | ⟨n₂, -, hn₂, hcached', heff'⟩
      · rw [hn'] at hx
        cases hx
      rw [hn₂] at hn'
      cases hn'
      obtain ⟨c', hc', he'⟩ := heff' ns
      rw [(hcached'.find ns).1, hc', hfind, he.unique he']

/-- The two words of JSON. -/
def jsonBool (data : Bytes) : Option Bool :=
  if data = str "true" then some true else if data = str "false" then some false else none

/-- A source with one entry, without notifications. -/
def oneEntry (namespacePrefix useDbBackend : Bytes) : Json :=
  let value (b : Bytes) : PTree := .node b []
  .tree (.node [] [(str "sharedDataLayer", .node [] [([], .node []
    [(str "namespacePrefix", value namespacePrefix), (str "useDbBackend", value useDbBackend),
      (str "enableNotifications", value (str "false"))])])])

/-- Of two files with the prefixes `abc` and `a` the longer one counts, although it was read
first. -/
theorem namespaceConfiguration_effective_files : ∃ r n,
    ConfigurationReader.new (fun _ => none)
      [(str "1.json", oneEntry (str "abc") (str "false")),
        (str "2.json", oneEntry (str "a") (str "true"))] = .ok r ∧
    readNamespaceConfigurations jsonBool r.jsonNamespaceConfigurations.toList .new = .ok n ∧
    n.isDbBackendUseEnabled (str "abcd") = some false ∧
    n.isDbBackendUseEnabled (str "abd") = some true ∧
    ∃ c, (n.findConfigurationForNamespace (str "abcd")).2 = some c ∧ Effective jsonBool (entriesRead
      [(str "1.json", oneEntry (str "abc") (str "false")),
        (str "2.json", oneEntry (str "a") (str "true"))] [])
      (str "abcd") c := by
  obtain ⟨r, hr⟩ : ∃ r, ConfigurationReader.new
    (fun _ => none) [(str "1.json", oneEntry (str "abc") (str "false")),
      (str "2.json", oneEntry (str "a") (str "true"))] = .ok r := ⟨_, rfl⟩
  obtain ⟨n, hn⟩ : ∃ n, readNamespaceConfigurations jsonBool r.jsonNamespaceConfigurations.toList
    .new = .ok n := by
    cases hr
    exact ⟨_, rfl⟩
  have h := (namespaceConfiguration_effective jsonBool (fun _ => none) _ [] r hr
    r.jsonNamespaceConfigurations.toList (List.Perm.refl _)).2 n hn [] (str "abcd")
  refine ⟨r, n, hr, hn, ?_, ?_, h.1⟩ <;> cases hr <;> cases hn <;> decide

/-- An input stream with the prefix `a` replaces the prefix `abc` of a file that was read before. -/
theorem namespaceConfiguration_replaced : ∃ r n,
    ConfigurationReader.new (fun _ => none)
    [(str "1.json", oneEntry (str "abc") (str "false"))] = .ok r ∧
    readNamespaceConfigurations jsonBool (r.readStreams
      [oneEntry (str "a") (str "true")]).jsonNamespaceConfigurations.toList .new = .ok n ∧
    ∀ c, (n.findConfigurationForNamespace (str "abcd")).2 = some c →
      ¬ Effective jsonBool (sourceEntries (str "1.json") (oneEntry (str "abc") (str "false")) ++
        sourceEntries (str "<istream>") (oneEntry (str "a") (str "true"))) (str "abcd") c := by
  refine ⟨_, _, rfl, rfl, fun c hc he => ?_⟩
  have hlen : c.namespacePrefix.length = 1 := by
    cases hc
    rfl
  have hmem : ∃ e ∈ sourceEntries (str "1.json") (oneEntry (str "abc") (str "false")) ++
      sourceEntries (str "<istream>") (oneEntry (str "a") (str "true")),
      e.namespacePrefix = str "abc" :=
    ⟨_, List.mem_cons_self, rfl⟩
  obtain ⟨e', he', hp⟩ := hmem
  have hstart : e'.namespacePrefix <+: str "abcd" := by
    rw [hp]
    decide
  rcases he with ⟨e, -, -, hl, hec⟩ | ⟨hno, -⟩
  · have := hl e' he' hstart
    rw [hp, ← hec.namespacePrefix, hlen] at this
    exact absurd this (by decide)
  · exact hno e' he' hstart

end Config
end Sdl
