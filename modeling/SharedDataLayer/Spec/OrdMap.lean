import Mathlib.Data.List.Induction
import Mathlib.Data.List.Sort

/-!
# Ordered maps and sets

`OrdMap α β` is the value of a `std::map`: the entries in the order in which an iteration gives
them, with the proof that their keys strictly increase. `OrdSet α` is `std::set`, a map to `Unit`.
Two maps with the same lookups are equal (`OrdMap.ext_find`), so a map that a loop builds with
`insert` is compared with its specification one key at a time.

* `insert` keeps the old value of a key that is present, as `std::map::insert` does; `assign`
  replaces it. `find_assignAll`: after several assignments the last one of a key counts.
* `ofFn s f`: the map of the keys of `s` that `f` has a value for.
-/

namespace Sdl
namespace Spec

/-- A `std::map`: its entries in iteration order. -/
structure OrdMap (α β : Type) [LinearOrder α] where
  toList : List (α × β)
  sorted : (toList.map Prod.fst).Pairwise (· < ·)
  deriving DecidableEq

/-- A `std::set`. -/
abbrev OrdSet (α : Type) [LinearOrder α] := OrdMap α Unit

namespace OrdMap

variable {α β : Type} [LinearOrder α]

def empty : OrdMap α β := ⟨[], List.Pairwise.nil⟩

def isEmpty (m : OrdMap α β) : Bool := m.toList.isEmpty

/-- The keys in iteration order. -/
def elems (m : OrdMap α β) : List α := m.toList.map Prod.fst

/-- The value of the key `k`. -/
def find (m : OrdMap α β) (k : α) : Option β := m.toList.lookup k

/-- `insert` on the entries: before the first larger key, unless the key is there. -/
def insertEntry (k : α) (v : β) : List (α × β) → List (α × β)
  | [] => [(k, v)]
  | (k', v') :: l =>
    if k < k' then (k, v) :: (k', v') :: l
    else if k = k' then (k', v') :: l
    else (k', v') :: insertEntry k v l

theorem mem_insertEntry_keys {k : α} {v : β} {l : List (α × β)} {x : α} :
    x ∈ (insertEntry k v l).map Prod.fst ↔ x = k ∨ x ∈ l.map Prod.fst := by
  induction l with
  | nil => simp [insertEntry]
  | cons p l ih =>
    obtain ⟨k', v'⟩ := p
    simp only [insertEntry]
    split
    · simp
    · split
      · rename_i e; subst e; simp
      · simp only [List.map_cons, List.mem_cons, ih]; tauto

theorem insertEntry_sorted {k : α} {v : β} {l : List (α × β)}
    (h : (l.map Prod.fst).Pairwise (· < ·)) :
    ((insertEntry k v l).map Prod.fst).Pairwise (· < ·) := by
  induction l with
  | nil => simp [insertEntry]
  | cons p l ih =>
    obtain ⟨k', v'⟩ := p
    simp only [List.map_cons, List.pairwise_cons] at h
    simp only [insertEntry]
    split
    · rename_i hlt
      simp only [List.map_cons, List.pairwise_cons, List.mem_cons]
      refine ⟨?_, h⟩
      rintro x (rfl | hx)
      · exact hlt
      · exact lt_trans hlt (h.1 x hx)
    · split
      · exact List.pairwise_cons.mpr h
      · rename_i hlt hne
        simp only [List.map_cons, List.pairwise_cons]
        refine ⟨fun x hx => ?_, ih h.2⟩
        rcases mem_insertEntry_keys.mp hx with rfl | hx
        · exact lt_of_le_of_ne (not_lt.mp hlt) (Ne.symm hne)
        · exact h.1 x hx

/-- `std::map::insert`. -/
def insert (m : OrdMap α β) (k : α) (v : β) : OrdMap α β :=
  ⟨insertEntry k v m.toList, insertEntry_sorted m.sorted⟩

theorem lookup_insertEntry {k x : α} {v : β} {l : List (α × β)}
    (h : (l.map Prod.fst).Pairwise (· < ·)) :
    (insertEntry k v l).lookup x = if x = k then some ((l.lookup k).getD v) else l.lookup x := by
  induction l with
  | nil =>
    by_cases hx : x = k
    · simp [insertEntry, hx]
    · simp [insertEntry, List.lookup_cons, hx, beq_false_of_ne hx]
  | cons p l ih =>
    obtain ⟨k', v'⟩ := p
    simp only [List.map_cons, List.pairwise_cons] at h
    simp only [insertEntry]
    split
    · rename_i hlt
      -- `k` is below every key of the list, so it has no entry.
      have hno : ((k', v') :: l).lookup k = none := by
        rw [List.lookup_eq_none_iff]
        rintro ⟨y, w⟩ hy
        have hky : k < y := by
          rcases List.mem_cons.mp hy with e | hy
          · cases e; exact hlt
          · exact lt_trans hlt (h.1 y (List.mem_map_of_mem hy))
        simpa using ne_of_lt hky
      by_cases hx : x = k
      · subst hx; rw [hno]; simp
      · rw [List.lookup_cons, beq_false_of_ne hx]; simp [hx]
    · split
      · rename_i e; subst e
        by_cases hx : x = k
        · simp [hx]
        · simp [hx]
      · rename_i hlt hne
        by_cases hx : x = k'
        · subst hx; simp [Ne.symm hne]
        · rw [List.lookup_cons, beq_false_of_ne hx, ih h.2, List.lookup_cons,
            beq_false_of_ne hne, List.lookup_cons, beq_false_of_ne hx]

@[simp] theorem find_insert (m : OrdMap α β) (k x : α) (v : β) :
    (m.insert k v).find x = if x = k then some ((m.find k).getD v) else m.find x :=
  lookup_insertEntry m.sorted

@[simp] theorem find_empty (x : α) : (empty : OrdMap α β).find x = none := rfl

/-- The entries are the keys with their values. -/
theorem mem_toList {m : OrdMap α β} {k : α} {v : β} : (k, v) ∈ m.toList ↔ m.find k = some v := by
  obtain ⟨l, hl⟩ := m
  simp only [find]
  induction l with
  | nil => simp
  | cons p l ih =>
    obtain ⟨k', v'⟩ := p
    simp only [List.map_cons, List.pairwise_cons] at hl
    by_cases hk : k = k'
    · subst hk
      have hno : (k, v) ∉ l := fun h => lt_irrefl k (hl.1 k (List.mem_map_of_mem h))
      simp [hno, eq_comm]
    · rw [List.lookup_cons, beq_false_of_ne hk, ← ih hl.2]; simp [hk]

theorem mem_elems {m : OrdMap α β} {k : α} : k ∈ m.elems ↔ (m.find k).isSome := by
  rw [Option.isSome_iff_exists, elems, List.mem_map]
  constructor
  · rintro ⟨⟨k', v⟩, h, rfl⟩; exact ⟨v, mem_toList.mp h⟩
  · rintro ⟨v, h⟩; exact ⟨(k, v), mem_toList.mpr h, rfl⟩

theorem elems_nodup (m : OrdMap α β) : m.elems.Nodup := m.sorted.imp ne_of_lt

/-- Two maps with the same lookups are equal. -/
theorem ext_find {m m' : OrdMap α β} (h : ∀ k, m.find k = m'.find k) : m = m' := by
  have he : ∀ p, p ∈ m.toList ↔ p ∈ m'.toList := by
    rintro ⟨k, v⟩; rw [mem_toList, mem_toList, h k]
  have hs : ∀ x : OrdMap α β, x.toList.Pairwise fun p q => p.1 < q.1 := fun x =>
    List.pairwise_map.mp x.sorted
  have : Std.Antisymm fun p q : α × β => p.1 < q.1 := ⟨fun _ _ h h' => (lt_asymm h h').elim⟩
  have : Std.Irrefl fun p q : α × β => p.1 < q.1 := ⟨fun p => lt_irrefl p.1⟩
  obtain ⟨l, hl⟩ := m
  obtain ⟨l', hl'⟩ := m'
  have : l = l' := (hs ⟨l, hl⟩).eq_of_mem_iff (hs ⟨l', hl'⟩) he
  subst this; rfl

/-- `std::map::erase`. -/
def erase (m : OrdMap α β) (k : α) : OrdMap α β where
  toList := m.toList.filter fun e => e.1 ≠ k
  sorted := List.Pairwise.sublist (List.filter_sublist.map Prod.fst) m.sorted

@[simp] theorem find_erase (m : OrdMap α β) (k x : α) :
    (m.erase k).find x = if x = k then none else m.find x := by
  apply Option.ext
  intro v
  rw [← mem_toList]
  show (x, v) ∈ m.toList.filter _ ↔ _
  rw [List.mem_filter, mem_toList]
  by_cases hx : x = k <;> simp [hx]

/-- `std::map::insert_or_assign`. -/
def assign (m : OrdMap α β) (k : α) (v : β) : OrdMap α β := (m.erase k).insert k v

@[simp] theorem find_assign (m : OrdMap α β) (k x : α) (v : β) :
    (m.assign k v).find x = if x = k then some v else m.find x := by
  unfold assign
  rw [find_insert, find_erase, find_erase]
  by_cases hx : x = k <;> simp [hx]

theorem find_erase_of_ne {m : OrdMap α β} {k x : α} (h : x ≠ k) :
    (m.erase k).find x = m.find x := by
  rw [find_erase, if_neg h]

theorem find_assign_of_ne {m : OrdMap α β} {k x : α} {v : β} (h : x ≠ k) :
    (m.assign k v).find x = m.find x := by
  rw [find_assign, if_neg h]

/-- The map after the entries of `l` were assigned one after the other. -/
def assignAll (m : OrdMap α β) (l : List (α × β)) : OrdMap α β :=
  l.foldl (fun m p => m.assign p.1 p.2) m

/-- The entry of a key is the last one that was assigned to it. -/
theorem find_assignAll {l : List (α × β)} {k : α} {v : β} :
    (empty.assignAll l).find k = some v ↔ ∃ l₁ l₂, l = l₁ ++ (k, v) :: l₂ ∧ ∀ p ∈ l₂, p.1 ≠ k := by
  induction l using List.reverseRecOn with
  | nil => simp [assignAll]
  | append_singleton l p ih =>
    obtain ⟨x, y⟩ := p
    have hp : empty.assignAll (l ++ [(x, y)]) = (empty.assignAll l).assign x y := by
      rw [assignAll, List.foldl_append]
      rfl
    rw [hp, find_assign]
    by_cases hk : k = x
    · subst hk
      rw [if_pos rfl]
      constructor
      · intro h
        cases h
        exact ⟨l, [], rfl, fun _ h => by cases h⟩
      · rintro ⟨l₁, l₂, hl, hn⟩
        rcases List.eq_nil_or_concat l₂ with rfl | ⟨l₂, q, rfl⟩
        · obtain ⟨-, he⟩ := List.append_inj' hl rfl
          cases he
          rfl
        -- Otherwise the last entry would be one of another key.
        · rw [List.concat_eq_append, ← List.cons_append, ← List.append_assoc] at hl
          obtain ⟨-, he⟩ := List.append_inj' hl rfl
          cases he
          exact absurd rfl (hn (k, y) (by simp))
    · rw [if_neg hk, ih]
      constructor
      · rintro ⟨l₁, l₂, rfl, hn⟩
        refine ⟨l₁, l₂ ++ [(x, y)], by simp, fun q hq => ?_⟩
        rcases List.mem_append.mp hq with hq | hq
        · exact hn q hq
        · rw [List.mem_singleton.mp hq]
          exact Ne.symm hk
      · rintro ⟨l₁, l₂, hl, hn⟩
        rcases List.eq_nil_or_concat l₂ with rfl | ⟨l₂, q, rfl⟩
        · obtain ⟨-, he⟩ := List.append_inj' hl rfl
          cases he
          exact absurd rfl hk
        · rw [List.concat_eq_append, ← List.cons_append, ← List.append_assoc] at hl
          obtain ⟨rfl, -⟩ := List.append_inj' hl rfl
          exact ⟨l₁, l₂, rfl, fun q hq => hn q (by simp [hq])⟩

/-- The map of the keys of `s` that `f` has a value for. -/
def ofFn (s : OrdSet α) (f : α → Option β) : OrdMap α β where
  toList := s.elems.filterMap fun k => (f k).map (k, ·)
  sorted := by
    have hsub : ((s.elems.filterMap fun k => (f k).map (k, ·)).map Prod.fst).Sublist s.elems := by
      induction s.elems with
      | nil => exact List.Sublist.slnil
      | cons k l ih =>
        cases hk : f k with
        | none => simpa [List.filterMap_cons, hk] using ih.cons k
        | some v => simpa [List.filterMap_cons, hk] using ih
    exact List.Pairwise.sublist hsub s.sorted

theorem find_ofFn (s : OrdSet α) (f : α → Option β) (k : α) :
    (ofFn s f).find k = if k ∈ s.elems then f k else none := by
  apply Option.ext
  intro v
  rw [← mem_toList]
  simp only [ofFn, List.mem_filterMap, Option.map_eq_some_iff]
  constructor
  · rintro ⟨x, hx, w, hw, e⟩; cases e; simp [hx, hw]
  · intro h
    split at h
    · rename_i hk; exact ⟨k, hk, v, h, rfl⟩
    · cases h

end OrdMap

end Spec
end Sdl
