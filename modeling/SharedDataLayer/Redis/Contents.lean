import Mathlib.Tactic.Common
import SharedDataLayer.Basic

/-!
# Commands as argument vectors (`src/redis/contentsbuilder.cpp`, `src/namespacevalidator.cpp`)

A command is built as `Contents`: the arguments and their sizes. The dispatcher passes both to
hiredis, which reads that many bytes of each argument (`Contents.argv`), so an argument may hold any
byte. `Contents` carries the proof that the sizes are those of the arguments.

* `Contents.argv_eq`: hiredis sends the arguments as they were added.
* `encode_inj`: the database key of a valid namespace determines the namespace and the key.
* `getKey_encode`: what follows the first separator of such a key is the key.
-/

namespace Sdl
namespace Redis

/-- `AsyncStorage::SEPARATOR`. -/
def SEPARATOR : Byte := chr ','

/-! ## Namespaces -/

def getDisallowedCharactersInNamespace : Bytes := [SEPARATOR, chr '{', chr '}']

def isValidNamespaceSyntax (ns : Namespace) : Bool :=
  ns.all fun c => !getDisallowedCharactersInNamespace.contains c

def isValidNamespace (ns : Namespace) : Bool := !ns.isEmpty && isValidNamespaceSyntax ns

theorem isValidNamespace_iff {ns : Namespace} :
    isValidNamespace ns = true ↔
      ns ≠ [] ∧ ∀ c ∈ ns, c ≠ SEPARATOR ∧ c ≠ chr '{' ∧ c ≠ chr '}' := by
  simp [isValidNamespace, isValidNamespaceSyntax, getDisallowedCharactersInNamespace]

/-! ## Contents -/

/-- `struct Contents`. -/
structure Contents where
  stack : List Bytes
  sizes : List Nat
  sized : sizes = stack.map List.length
  deriving DecidableEq

/-- The arguments as hiredis reads them. -/
def Contents.argv (c : Contents) : List Bytes := List.zipWith (fun s n => s.take n) c.stack c.sizes

theorem Contents.argv_eq (c : Contents) : c.argv = c.stack := by
  obtain ⟨stack, sizes, rfl⟩ := c
  unfold Contents.argv
  rw [List.zipWith_map_right]
  simp

def Contents.empty : Contents := ⟨[], [], rfl⟩

/-- `push_back` of an argument and of its size. -/
def Contents.pushBack (c : Contents) (s : Bytes) : Contents :=
  ⟨c.stack ++ [s], c.sizes ++ [s.length], by simp [c.sized]⟩

@[simp] theorem Contents.empty_stack : Contents.empty.stack = [] := rfl

@[simp] theorem Contents.pushBack_stack (c : Contents) (s : Bytes) :
    (c.pushBack s).stack = c.stack ++ [s] := rfl

/-! ## The builder -/

/-- `class ContentsBuilder`. -/
structure ContentsBuilder where
  nsKeySeparator : Byte

namespace ContentsBuilder

variable (b : ContentsBuilder)

def addString (contents : Contents) (string : Bytes) : Contents := contents.pushBack string

/-- The database key: the namespace in braces, the separator and the key. -/
def encode (ns : Namespace) (key : Key) : Bytes :=
  [chr '{'] ++ ns ++ [chr '}'] ++ [b.nsKeySeparator] ++ key

def addKey (contents : Contents) (ns : Namespace) (key : Key) : Contents :=
  contents.pushBack (b.encode ns key)

def addData (contents : Contents) (data : Data) : Contents := contents.pushBack data

def addDataMap (contents : Contents) (ns : Namespace) (dataMap : DataMap) : Contents :=
  dataMap.toList.foldl (fun c i => addData (b.addKey c ns i.1) i.2) contents

def addKeys (contents : Contents) (ns : Namespace) (keys : Keys) : Contents :=
  keys.elems.foldl (fun c i => b.addKey c ns i) contents

/-- `build(string, string2)`. -/
def buildStrings (string string2 : Bytes) : Contents := addString (addString .empty string) string2

/-- `build(string, ns, dataMap)`. -/
def buildDataMap (string : Bytes) (ns : Namespace) (dataMap : DataMap) : Contents :=
  b.addDataMap (addString .empty string) ns dataMap

/-- `build(string, ns, dataMap, string2, string3)`. -/
def buildDataMapStrings (string : Bytes) (ns : Namespace) (dataMap : DataMap)
    (string2 string3 : Bytes) : Contents :=
  addString (addString (b.addDataMap (addString .empty string) ns dataMap) string2) string3

/-- `build(string, ns, key, data)`. -/
def buildKeyData (string : Bytes) (ns : Namespace) (key : Key) (data : Data) : Contents :=
  addData (b.addKey (addString .empty string) ns key) data

/-- `build(string, ns, key, data, string2, string3)`. -/
def buildKeyDataStrings (string : Bytes) (ns : Namespace) (key : Key) (data : Data)
    (string2 string3 : Bytes) : Contents :=
  addString (addString (addData (b.addKey (addString .empty string) ns key) data) string2) string3

/-- `build(string, ns, key, data, data2)`. -/
def buildKeyData2 (string : Bytes) (ns : Namespace) (key : Key) (data data2 : Data) : Contents :=
  addData (addData (b.addKey (addString .empty string) ns key) data) data2

/-- `build(string, ns, key, data, data2, string2, string3)`. -/
def buildKeyData2Strings (string : Bytes) (ns : Namespace) (key : Key) (data data2 : Data)
    (string2 string3 : Bytes) : Contents :=
  addString (addString (addData (addData (b.addKey (addString .empty string) ns key) data) data2)
    string2) string3

/-- `build(string, ns, keys)`. -/
def buildKeys (string : Bytes) (ns : Namespace) (keys : Keys) : Contents :=
  b.addKeys (addString .empty string) ns keys

/-- `build(string, ns, keys, string2, string3)`. -/
def buildKeysStrings (string : Bytes) (ns : Namespace) (keys : Keys) (string2 string3 : Bytes) :
    Contents :=
  addString (addString (b.addKeys (addString .empty string) ns keys) string2) string3

@[simp] theorem addString_stack (c : Contents) (s : Bytes) :
    (addString c s).stack = c.stack ++ [s] := rfl

@[simp] theorem addData_stack (c : Contents) (d : Data) :
    (addData c d).stack = c.stack ++ [d] := rfl

@[simp] theorem addKey_stack (c : Contents) (ns : Namespace) (k : Key) :
    (b.addKey c ns k).stack = c.stack ++ [b.encode ns k] := rfl

@[simp] theorem addDataMap_stack (c : Contents) (ns : Namespace) (m : DataMap) :
    (b.addDataMap c ns m).stack = c.stack ++ m.toList.flatMap fun e => [b.encode ns e.1, e.2] := by
  unfold addDataMap
  induction m.toList generalizing c with
  | nil => simp
  | cons e l ih => rw [List.foldl_cons, ih]; simp

@[simp] theorem addKeys_stack (c : Contents) (ns : Namespace) (ks : Keys) :
    (b.addKeys c ns ks).stack = c.stack ++ ks.elems.map (b.encode ns) := by
  unfold addKeys
  induction ks.elems generalizing c with
  | nil => simp
  | cons k l ih => rw [List.foldl_cons, ih]; simp

end ContentsBuilder

/-! ## The keys of the database -/

/-- The builder of `AsyncRedisStorage`. -/
def contentsBuilder : ContentsBuilder := ⟨SEPARATOR⟩

/-- The database key of an entry. -/
def encode (ns : Namespace) (key : Key) : Bytes := contentsBuilder.encode ns key

theorem encode_eq (ns : Namespace) (key : Key) :
    encode ns key = chr '{' :: (ns ++ chr '}' :: SEPARATOR :: key) := by
  simp [encode, ContentsBuilder.encode, contentsBuilder]

/-- A list is split at its first `a` in one way. -/
theorem append_cons_inj_left {α : Type} {a : α} {l l' r r' : List α} (hl : a ∉ l) (hl' : a ∉ l')
    (h : l ++ a :: r = l' ++ a :: r') : l = l' ∧ r = r' := by
  induction l generalizing l' with
  | nil =>
    cases l' with
    | nil => simpa using h
    | cons b l' =>
      rw [List.nil_append, List.cons_append, List.cons.injEq] at h
      exact absurd (h.1 ▸ List.mem_cons_self) hl'
  | cons b l ih =>
    cases l' with
    | nil =>
      rw [List.nil_append, List.cons_append, List.cons.injEq] at h
      exact absurd (h.1 ▸ List.mem_cons_self) hl
    | cons c l' =>
      rw [List.cons_append, List.cons_append, List.cons.injEq] at h
      obtain ⟨rfl, h⟩ := h
      obtain ⟨rfl, rfl⟩ := ih (fun h => hl (by simp [h])) (fun h => hl' (by simp [h])) h
      exact ⟨rfl, rfl⟩

/-- The database key of a valid namespace determines the namespace and the key. -/
theorem encode_inj {ns ns' : Namespace} {k k' : Key} (hv : isValidNamespace ns = true)
    (hv' : isValidNamespace ns' = true) (h : encode ns k = encode ns' k') : ns = ns' ∧ k = k' := by
  rw [encode_eq, encode_eq, List.cons.injEq] at h
  have hn : ∀ n : Namespace, isValidNamespace n = true → chr '}' ∉ n := fun n hn hc =>
    ((isValidNamespace_iff.mp hn).2 _ hc).2.2 rfl
  obtain ⟨rfl, hk⟩ := append_cons_inj_left (hn ns hv) (hn ns' hv') h.2
  exact ⟨rfl, (List.cons.inj hk).2⟩

/-! ## Decoding -/

/-- `std::string::find`: the position of the first `c`. -/
def find (s : Bytes) (c : Byte) : Option Nat := s.findIdx? (· == c)

/-- The first `c` stands behind a part without one. -/
theorem find_append_cons {l r : Bytes} {c : Byte} (h : c ∉ l) :
    find (l ++ c :: r) c = some l.length := by
  have hl : ∀ x ∈ l, (x == c) = false := fun x hx => beq_false_of_ne fun e => h (e ▸ hx)
  unfold find
  rw [List.findIdx?_append, List.findIdx?_eq_none_iff.mpr hl]
  simp [List.findIdx?_cons]

/-- `getKey`: the string after the first separator. Without one, `npos + 1` is 0. -/
def getKey (s : Bytes) : Key :=
  match find s SEPARATOR with
  | some res => s.drop (res + 1)
  | none => s.drop 0

/-- The key is what stands behind the first separator. -/
theorem getKey_append {l : Bytes} (h : SEPARATOR ∉ l) (k : Key) :
    getKey (l ++ SEPARATOR :: k) = k := by
  unfold getKey
  rw [find_append_cons h]
  simp only
  rw [← List.drop_drop, List.drop_left]
  rfl

/-- A namespace without a separator is skipped. -/
theorem getKey_encode_of_not_mem {ns : Namespace} (h : SEPARATOR ∉ ns) (k : Key) :
    getKey (encode ns k) = k := by
  have hpre : SEPARATOR ∉ chr '{' :: (ns ++ [chr '}']) := by
    simp only [List.mem_cons, List.mem_append, List.not_mem_nil, or_false, not_or]
    exact ⟨by decide, h, by decide⟩
  have he : encode ns k = (chr '{' :: (ns ++ [chr '}'])) ++ SEPARATOR :: k := by
    rw [encode_eq]; simp
  rw [he]
  exact getKey_append hpre k

theorem getKey_encode {ns : Namespace} (hv : isValidNamespace ns = true) (k : Key) :
    getKey (encode ns k) = k :=
  getKey_encode_of_not_mem (fun hc => ((isValidNamespace_iff.mp hv).2 _ hc).1 rfl) k

end Redis
end Sdl
