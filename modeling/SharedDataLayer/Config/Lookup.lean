import SharedDataLayer.Config.Namespaces
import SharedDataLayer.Spec.Sys

/-!
# The lookup of a namespace configuration (`src/namespaceconfigurationsimpl.cpp`)

A client of `NamespaceConfigurationsImpl`: it adds configurations and asks for those of namespaces,
in any order. An answer is kept in the lookup table, and from then on no configuration can be added.

* `Longest`: which configuration a namespace has, for those that were added, in their order.
* `lookup_memoised`: every answer in every run, from the search and from the table.
-/

namespace Sdl
namespace Config

open Spec

/-! ## The calls -/

/-- `std::boolalpha`. -/
def boolText (b : Bool) : Bytes := if b then str "true" else str "false"

/-- The text that `getDescription` builds. -/
def NamespaceConfiguration.description (c : NamespaceConfiguration) : Bytes :=
  let sourceInfo :=
    if !c.namespacePrefix.isEmpty then c.sourceName ++ (str " prefix: " ++ c.namespacePrefix)
    else c.sourceName
  sourceInfo ++ str ", " ++ str "useDbBackend: " ++ boolText c.dbBackendIsUsed ++ str ", " ++
    str "enableNotifications: " ++ boolText c.notificationsAreEnabled

def NamespaceConfigurationsImpl.getDescription (n : NamespaceConfigurationsImpl)
    (ns : Namespace) : Option Bytes :=
  (n.findConfigurationForNamespace ns).2.map NamespaceConfiguration.description

inductive LookupCall where
  | addNamespaceConfiguration (c : NamespaceConfiguration)
  | isDbBackendUseEnabled (ns : Namespace)
  | areNotificationsEnabled (ns : Namespace)
  | getDescription (ns : Namespace)
  | isEmpty

/-- The namespace that a call looks up. -/
def LookupCall.ns : LookupCall → Option Namespace
  | .isDbBackendUseEnabled ns | .areNotificationsEnabled ns | .getDescription ns => some ns
  | .addNamespaceConfiguration _ | .isEmpty => none

/-- The object with what was done: the configurations that were added, and whether a namespace was
looked up. -/
structure LookupClient where
  impl : NamespaceConfigurationsImpl
  added : List NamespaceConfiguration
  lookedUp : Bool

/-- A call, unless it ends the process. The three lookups leave the same table. -/
def LookupClient.step (w : LookupClient) (call : LookupCall) : Option LookupClient :=
  match call with
  | .addNamespaceConfiguration c =>
    match w.impl.addNamespaceConfiguration c with
    | .ok n => some { w with impl := n, added := w.added ++ [c] }
    | .error _ => none
  | .isDbBackendUseEnabled ns | .areNotificationsEnabled ns | .getDescription ns =>
    some { w with impl := (w.impl.findConfigurationForNamespace ns).1, lookedUp := true }
  | .isEmpty => some w

def lookupSys : Sys LookupClient LookupCall where
  init := ⟨.new, [], false⟩
  step := LookupClient.step

/-! ## What the answers should be -/

/-- The configuration of a namespace: the last one that was added of those whose prefix is the
longest prefix of it, or the default if none is a prefix. -/
inductive Longest (added : List NamespaceConfiguration) (ns : Namespace) :
    NamespaceConfiguration → Prop
  | added (before : List NamespaceConfiguration) (c : NamespaceConfiguration)
    (after : List NamespaceConfiguration)
    (split : added = before ++ c :: after) (start : c.namespacePrefix <+: ns)
    (longest : ∀ c' ∈ added, c'.namespacePrefix <+: ns →
      c'.namespacePrefix.length ≤ c.namespacePrefix.length)
    (last : ∀ c' ∈ after, c'.namespacePrefix <+: ns →
      c'.namespacePrefix.length < c.namespacePrefix.length) :
    Longest added ns c
  | default (none : ∀ c ∈ added, ¬ c.namespacePrefix <+: ns) : Longest added ns
    getDefaultNamespaceConfiguration

section Lookup

variable {added : List NamespaceConfiguration} {ns : Namespace} {c c' : NamespaceConfiguration}

/-- Two positions of a list: they are the same, or one of them is behind the other. -/
theorem position_cases {α : Type} {l r l' r' : List α} {a a' : α}
    (h : l ++ a :: r = l' ++ a' :: r') :
    a = a' ∨ a' ∈ r ∨ a ∈ r' := by
  rcases List.append_eq_append_iff.mp h with ⟨m, -, hm⟩ | ⟨m, -, hm⟩
  · cases m with
    | nil => exact .inl (List.cons.inj hm).1
    | cons x m =>
      rw [(List.cons.inj hm).2]
      simp
  · cases m with
    | nil => exact .inl (List.cons.inj hm).1.symm
    | cons x m =>
      rw [(List.cons.inj hm).2]
      simp

theorem Longest.unique (h : Longest added ns c) (h' : Longest added ns c') : c = c' := by
  cases h with
  | default hno =>
    cases h' with
    | default _ => rfl
    | added before' _ after' hs hp _ _ => exact absurd hp (hno c' (by rw [hs]; simp))
  | added before _ after hs hp hl hlast =>
    cases h' with
    | default hno => exact absurd hp (hno c (by rw [hs]; simp))
    | added before' _ after' hs' hp' hl' hlast' =>
      have hlong := hl c' (by rw [hs']; simp) hp'
      have hlong' := hl' c (by rw [hs]; simp) hp
      rcases position_cases (hs.symm.trans hs') with he | hm | hm
      · exact he
      · have := hlast c' hm hp'
        omega
      · have := hlast' c hm hp
        omega

/-! ## The runs -/

structure LookupInv (w : LookupClient) : Prop where
  configurations : w.impl.namespaceConfigurations = getDefaultNamespaceConfiguration :: w.added
  cached : Cached w.impl
  table : w.impl.namespaceConfigurationsLookupTable.isEmpty = !w.lookedUp

variable {w w' : LookupClient}

theorem isEmpty_of_find {m : OrdMap Bytes Nat} {k : Bytes} {i : Nat} (hf : m.find k = some i) :
    m.isEmpty = false := by
  by_contra he
  have hnil : m.toList = [] := by simpa [OrdMap.isEmpty] using he
  rw [OrdMap.find, hnil] at hf
  cases hf

/-- After a lookup the table is not empty. -/
theorem table_find (n : NamespaceConfigurationsImpl) (ns : Namespace) :
    (n.findConfigurationForNamespace ns).1.namespaceConfigurationsLookupTable.isEmpty = false := by
  unfold NamespaceConfigurationsImpl.findConfigurationForNamespace
  split
  · rename_i i hi
    exact isEmpty_of_find hi
  · exact isEmpty_of_find ((OrdMap.find_assign _ ns ns _).trans (if_pos rfl))

theorem LookupInv.lookup (h : LookupInv w) (ns : Namespace) :
    LookupInv { w with impl := (w.impl.findConfigurationForNamespace ns).1, lookedUp := true } := by
  obtain ⟨-, hc, hn⟩ := h.cached.find ns
  exact ⟨hn.trans h.configurations, hc, table_find w.impl ns⟩

/-- Adding works as long as no namespace was looked up. -/
theorem LookupInv.add_eq (h : LookupInv w) (c : NamespaceConfiguration) :
    w.impl.addNamespaceConfiguration c =
      if w.lookedUp then
      .error (.abort "Cannot add namespace configurations after lookup table is initialized")
      else .ok { w.impl with namespaceConfigurations :=
                               w.impl.namespaceConfigurations ++ [c] } := by
  unfold NamespaceConfigurationsImpl.addNamespaceConfiguration
  rw [h.table, Bool.not_not]

theorem LookupInv.step {call : LookupCall} (h : LookupInv w) (hs : w.step call = some w') :
    LookupInv w' := by
  cases call with
  | addNamespaceConfiguration c =>
    simp only [LookupClient.step, h.add_eq] at hs
    by_cases hl : w.lookedUp = true
    · rw [if_pos hl] at hs
      cases hs
    · rw [if_neg hl] at hs
      cases hs
      refine ⟨?_, fun ns i hf => ?_, h.table⟩
      · show w.impl.namespaceConfigurations ++ [c] = _
        rw [h.configurations]
        rfl
      · -- The table is empty.
        have ht := h.table
        rw [isEmpty_of_find hf] at ht
        exact absurd (by simpa using ht) hl
  | isDbBackendUseEnabled ns | areNotificationsEnabled ns | getDescription ns =>
    cases hs
    exact h.lookup ns
  | isEmpty =>
    cases hs
    exact h

theorem LookupInv.of_reach (h : lookupSys.Reach Sys.always w) : LookupInv w := by
  refine h.invariant ⟨rfl, fun ns i hf => ?_, rfl⟩ fun _ _ _ hi _ hs => hi.step hs
  cases hf

/-- The index of the search is that of the configuration that the namespace has. -/
theorem LookupInv.search (h : LookupInv w) (ns : Namespace) :
    ∃ c, w.impl.namespaceConfigurations[w.impl.search ns]? = some c ∧ Longest w.added ns c := by
  rcases @search_last ns w.impl _ w.added h.configurations with
    ⟨before, c, after, hs, hi, hp, hl, hlast⟩ | ⟨hi, hno⟩
  · exact ⟨c, hi, .added before c after hs hp hl hlast⟩
  · exact ⟨_, hi, .default hno⟩

end Lookup

/-- In every state that a client can bring the object to, each lookup answers from the configuration
that the namespace has, whether it is searched for or kept in the table; the table holds the indexes
of such configurations only; and a configuration can be added exactly as long as no namespace was
looked up, so that an answer stays right. -/
theorem lookup_memoised (w : LookupClient) (h : lookupSys.Reach Sys.always w) :
    (∀ ns, ∃! c, Longest w.added ns c ∧ (w.impl.findConfigurationForNamespace ns).2 = some c ∧
      w.impl.isDbBackendUseEnabled ns = some c.dbBackendIsUsed ∧
      w.impl.areNotificationsEnabled ns = some c.notificationsAreEnabled ∧
      w.impl.getDescription ns = some c.description) ∧
    (w.impl.isEmpty = true ↔ w.added = []) ∧
    (∀ ns i, w.impl.namespaceConfigurationsLookupTable.find ns = some i →
      ∃ c, w.impl.namespaceConfigurations[i]? = some c ∧ Longest w.added ns c) ∧
    ∀ c, (∃ message, w.impl.addNamespaceConfiguration c = .error (.abort message)) ↔
    w.lookedUp = true := by
  have hi := LookupInv.of_reach h
  refine ⟨fun ns => ?_, ?_, fun ns i hf => ?_, fun c => ?_⟩
  · obtain ⟨c, hget, hc⟩ := hi.search ns
    have hfind : (w.impl.findConfigurationForNamespace ns).2 = some c :=
      (hi.cached.find ns).1.trans hget
    refine ⟨c, ⟨hc, hfind, ?_, ?_, ?_⟩, fun c' hc' => hc'.1.unique hc⟩
    · rw [NamespaceConfigurationsImpl.isDbBackendUseEnabled, hfind]
      rfl
    · rw [NamespaceConfigurationsImpl.areNotificationsEnabled, hfind]
      rfl
    · rw [NamespaceConfigurationsImpl.getDescription, hfind]
      rfl
  · rw [NamespaceConfigurationsImpl.isEmpty, hi.configurations]
    simp
  · obtain ⟨c, hget, hc⟩ := hi.search ns
    exact ⟨c, by rw [hi.cached ns i hf]; exact hget, hc⟩
  · rw [hi.add_eq]
    by_cases hl : w.lookedUp = true
    · rw [if_pos hl]
      exact ⟨fun _ => hl, fun _ => ⟨_, rfl⟩⟩
    · rw [if_neg hl]
      constructor
      · rintro ⟨_, he⟩
        cases he
      · exact fun h => absurd h hl

/-- Overlapping prefixes, the same one twice, and two lookups of one namespace. -/
theorem lookup_memoised_overlapping :
    ∃ w, lookupSys.Reach Sys.always w ∧ w.lookedUp = true ∧
      ∀ c, ∃ message, w.impl.addNamespaceConfiguration c = .error (.abort message) := by
  obtain ⟨w, h, hw⟩ := Sys.reach_run_map (S := lookupSys) (G := Sys.always)
    [.addNamespaceConfiguration ⟨str "a", true, true, str "s"⟩,
      .addNamespaceConfiguration ⟨str "ab", false, false, str "s"⟩,
      .addNamespaceConfiguration ⟨str "a", true, false, str "t"⟩, .getDescription (str "ac"),
      .areNotificationsEnabled (str "ac")]
    LookupClient.lookedUp (b := true) (by decide +kernel)
  exact ⟨w, h, hw, fun c => ((lookup_memoised w h).2.2.2 c).mpr hw⟩

end Config
end Sdl
