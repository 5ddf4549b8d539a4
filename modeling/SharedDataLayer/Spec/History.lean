import Mathlib.Data.List.Nodup

/-!
# Histories of concurrent calls

A **history** is the list of what can be seen of a number of calls: a call is issued, takes effect,
and is acknowledged. It is **linear** with respect to a sequential specification if the order in
which the calls took effect explains every acknowledgement: each call takes effect at most once,
after it was issued and, if its acknowledgement is definite, before that; and a definite
acknowledgement is the one that the specification gives in the state that the calls before it have
left. An acknowledgement that is not definite says nothing: its call has taken effect, will take
effect, or never does.

* `Linear.issue`, `Linear.execute`, `Linear.ack`: what has to be shown of each step.
* `map_name_set`, `mem_set_name`: an entry of a table of calls changes.
* `Linear.order`: the order of the effects respects the order in time.
-/

namespace Sdl
namespace Spec

/-- What is seen of a call: `ι` names the calls, `ω` are the operations and `α` the
acknowledgements. -/
inductive Moment (ι ω α : Type) where
  | issued (n : ι) (o : ω)
  | executed (n : ι) (o : ω)
  | acked (n : ι) (a : α)

namespace History

variable {ι ω α σ : Type}

def issuedCall : Moment ι ω α → Option (ι × ω)
  | .issued n o => some (n, o)
  | _ => none

def executedCall : Moment ι ω α → Option (ι × ω)
  | .executed n o => some (n, o)
  | _ => none

def ackedCall : Moment ι ω α → Option (ι × α)
  | .acked n a => some (n, a)
  | _ => none

/-- The calls that were issued, with their operations. -/
def calls (h : List (Moment ι ω α)) : List (ι × ω) := h.filterMap issuedCall

def issued (h : List (Moment ι ω α)) : List ι := (calls h).map Prod.fst

/-- The calls that have taken effect, in this order. -/
def executed (h : List (Moment ι ω α)) : List (ι × ω) := h.filterMap executedCall

/-- The acknowledgements. -/
def acked (h : List (Moment ι ω α)) : List (ι × α) := h.filterMap ackedCall

variable (spec : ω → σ → α × σ)

/-- The state after calls that take effect one after the other. -/
def effect (s : σ) (cs : List (ι × ω)) : σ := cs.foldl (fun s c => (spec c.2 s).2) s

/-- The state that a history leaves. -/
def after (s : σ) (h : List (Moment ι ω α)) : σ := effect spec s (executed h)

/-- The call has taken effect, and the specification gives it this acknowledgement. -/
def Answered (s : σ) (h : List (Moment ι ω α)) (n : ι) (o : ω) (a : α) : Prop :=
  ∃ l l', h = l ++ .executed n o :: l' ∧ a = (spec o (after spec s l)).1

/-- The history is explained by the order of the effects. -/
structure Linear (definite : α → Prop) (s : σ) (h : List (Moment ι ω α)) : Prop where
  issuedOnce : (issued h).Nodup
  executedOnce : ((executed h).map Prod.fst).Nodup
  ackedOnce : ((acked h).map Prod.fst).Nodup
  executed_after : ∀ l l' n o, h = l ++ .executed n o :: l' → .issued n o ∈ l
  acked_after : ∀ l l' n a, h = l ++ .acked n a :: l' →
    ∃ o, .issued n o ∈ l ∧ (definite a → Answered spec s l n o a)

section Lists

variable {h : List (Moment ι ω α)}

@[simp] theorem issued_append (h h' : List (Moment ι ω α)) :
    issued (h ++ h') = issued h ++ issued h' := by
  unfold issued calls
  rw [List.filterMap_append, List.map_append]

@[simp] theorem executed_append (h h' : List (Moment ι ω α)) :
    executed (h ++ h') = executed h ++ executed h' :=
  List.filterMap_append

@[simp] theorem acked_append (h h' : List (Moment ι ω α)) : acked (h ++ h') = acked h ++ acked h' :=
  List.filterMap_append

@[simp] theorem issued_executed (h : List (Moment ι ω α)) (n : ι) (o : ω) :
    issued (h ++ [.executed n o]) = issued h := by
  rw [issued_append]
  exact List.append_nil _

@[simp] theorem issued_acked (h : List (Moment ι ω α)) (n : ι) (a : α) :
    issued (h ++ [.acked n a]) = issued h := by
  rw [issued_append]
  exact List.append_nil _

@[simp] theorem executed_issued (h : List (Moment ι ω α)) (n : ι) (o : ω) :
    executed (h ++ [.issued n o]) = executed h := by
  rw [executed_append]
  exact List.append_nil _

@[simp] theorem executed_acked (h : List (Moment ι ω α)) (n : ι) (a : α) :
    executed (h ++ [.acked n a]) = executed h := by
  rw [executed_append]
  exact List.append_nil _

@[simp] theorem acked_issued (h : List (Moment ι ω α)) (n : ι) (o : ω) :
    acked (h ++ [.issued n o]) = acked h := by
  rw [acked_append]
  exact List.append_nil _

@[simp] theorem acked_executed (h : List (Moment ι ω α)) (n : ι) (o : ω) :
    acked (h ++ [.executed n o]) = acked h := by
  rw [acked_append]
  exact List.append_nil _

theorem mem_calls {n : ι} {o : ω} : (n, o) ∈ calls h ↔ .issued n o ∈ h := by
  unfold calls
  rw [List.mem_filterMap]
  constructor
  · rintro ⟨m, hm, hn⟩
    cases m with
    | issued n' o => cases hn; exact hm
    | executed | acked => cases hn
  · intro hm
    exact ⟨_, hm, rfl⟩

theorem mem_issued {n : ι} : n ∈ issued h ↔ ∃ o, .issued n o ∈ h := by
  unfold issued
  rw [List.mem_map]
  constructor
  · rintro ⟨⟨n', o⟩, hm, rfl⟩
    exact ⟨o, mem_calls.mp hm⟩
  · rintro ⟨o, hm⟩
    exact ⟨(n, o), mem_calls.mpr hm, rfl⟩

theorem mem_executed {n : ι} {o : ω} : (n, o) ∈ executed h ↔ .executed n o ∈ h := by
  unfold executed
  rw [List.mem_filterMap]
  constructor
  · rintro ⟨m, hm, hn⟩
    cases m with
    | executed n' o => cases hn; exact hm
    | issued | acked => cases hn
  · intro hm
    exact ⟨_, hm, rfl⟩

theorem mem_acked {n : ι} {a : α} : (n, a) ∈ acked h ↔ .acked n a ∈ h := by
  unfold acked
  rw [List.mem_filterMap]
  constructor
  · rintro ⟨m, hm, hn⟩
    cases m with
    | acked n' a => cases hn; exact hm
    | issued | executed => cases hn
  · intro hm
    exact ⟨_, hm, rfl⟩

/-- Where a moment stands in a history with one more moment at the end. -/
theorem concat_split {α : Type} {h l l' : List α} {m x : α} (he : h ++ [m] = l ++ x :: l') :
    (h = l ∧ m = x) ∨ ∃ k, h = l ++ x :: k := by
  rcases List.eq_nil_or_concat l' with rfl | ⟨k, y, rfl⟩
  · obtain ⟨rfl, hx⟩ := List.append_inj' he rfl
    cases hx
    exact .inl ⟨rfl, rfl⟩
  · rw [List.concat_eq_append, ← List.cons_append, ← List.append_assoc] at he
    obtain ⟨rfl, -⟩ := List.append_inj' he rfl
    exact .inr ⟨k, rfl⟩

end Lists

/-! ### Tables of calls

A table has one entry for each call, under its name. -/

section Tables

variable {β : Type} {name : β → ι} {t : List β} {i : Nat} {x y : β}

/-- An entry is replaced by one of the same name. -/
theorem map_name_set (hi : t[i]? = some x) (hn : name y = name x) :
    (t.set i y).map name = t.map name := by
  obtain ⟨hlt, -⟩ := List.getElem?_eq_some_iff.mp hi
  refine List.ext_getElem? fun j => ?_
  rw [List.getElem?_map, List.getElem?_map, List.getElem?_set, if_pos hlt]
  split
  · rename_i hij
    subst hij
    rw [hi, Option.map_some, Option.map_some, hn]
  · rfl

/-- The other entries are those of other names. -/
theorem mem_set_name (hnd : (t.map name).Nodup) (hi : t[i]? = some x) {z : β} (hz : z ∈ t.set i y) :
    z = y ∨ (z ∈ t ∧ name z ≠ name x) := by
  obtain ⟨j, hj⟩ := List.mem_iff_getElem?.mp hz
  rw [List.getElem?_set] at hj
  split at hj
  · split at hj
    · exact .inl (Option.some.inj hj).symm
    · cases hj
  · rename_i hij
    refine .inr ⟨List.mem_of_getElem? hj, fun hname => hij ?_⟩
    have hlt : i < (t.map name).length := by
      rw [List.length_map]
      exact (List.getElem?_eq_some_iff.mp hi).1
    refine (List.getElem?_inj hlt hnd).mp ?_
    rw [List.getElem?_map, List.getElem?_map, hi, hj, Option.map_some, Option.map_some, hname]

end Tables

section Steps

variable {spec : ω → σ → α × σ} {definite : α → Prop} {s : σ} {h : List (Moment ι ω α)}
    {n : ι} {o : ω} {a : α}

theorem Answered.append (ha : Answered spec s h n o a) (k : List (Moment ι ω α)) :
    Answered spec s (h ++ k) n o a := by
  obtain ⟨l, l', rfl, hs⟩ := ha
  exact ⟨l, l' ++ k, by rw [List.append_assoc, List.cons_append], hs⟩

theorem linear_nil : Linear spec definite s ([] : List (Moment ι ω α)) :=
  ⟨List.nodup_nil, List.nodup_nil, List.nodup_nil, fun l l' n o he => absurd he.symm (by simp),
    fun l l' n a he => absurd he.symm (by simp)⟩

/-- An operation takes effect only after it was issued. -/
theorem Linear.issued_of_executed (hl : Linear spec definite s h)
    (hm : n ∈ (executed h).map Prod.fst) :
    n ∈ issued h := by
  obtain ⟨⟨n', o⟩, hc, rfl⟩ := List.mem_map.mp hm
  obtain ⟨l, l', rfl⟩ := List.append_of_mem (mem_executed.mp hc)
  exact mem_issued.mpr ⟨o, List.mem_append_left _ (hl.executed_after l l' _ o rfl)⟩

/-- A call is about one operation. -/
theorem Linear.issued_inj (hl : Linear spec definite s h) {p : ω} (ho : .issued n o ∈ h)
    (hp : .issued n p ∈ h) :
    o = p := by
  obtain ⟨l, l', rfl⟩ := List.append_of_mem ho
  have hnd := hl.issuedOnce
  rw [List.append_cons, issued_append, issued_append, List.nodup_append, List.nodup_append] at hnd
  obtain ⟨⟨-, -, hl⟩, -, hl'⟩ := hnd
  rcases List.mem_append.mp hp with hp | hp
  · exact absurd rfl (hl n (mem_issued.mpr ⟨p, hp⟩) n (List.mem_cons_self ..))
  · rcases List.mem_cons.mp hp with he | hp
    · cases he
      rfl
    · exact absurd rfl (hl' n (List.mem_append_right _ (List.mem_cons_self ..)) n
        (mem_issued.mpr ⟨p, hp⟩))

/-- A new call. -/
theorem Linear.issue (hl : Linear spec definite s h) (hn : n ∉ issued h) (o : ω) :
    Linear spec definite s (h ++ [.issued n o]) := by
  refine ⟨?_, (executed_issued h n o).symm ▸ hl.executedOnce,
    (acked_issued h n o).symm ▸ hl.ackedOnce, fun l l' n' o' hs => ?_, fun l l' n' a hs => ?_⟩
  · rw [issued_append]
    exact List.Nodup.append hl.issuedOnce (List.nodup_singleton n) (by simpa [issued, calls,
      issuedCall] using hn)
  · rcases concat_split hs with ⟨-, hm⟩ | ⟨k, rfl⟩
    · cases hm
    · exact hl.executed_after l k n' o' rfl
  · rcases concat_split hs with ⟨-, hm⟩ | ⟨k, rfl⟩
    · cases hm
    · exact hl.acked_after l k n' a rfl

/-- A call takes effect. -/
theorem Linear.execute (hl : Linear spec definite s h) (hi : .issued n o ∈ h)
    (hn : n ∉ (executed h).map Prod.fst) : Linear spec definite s (h ++ [.executed n o]) := by
  refine ⟨(issued_executed h n o).symm ▸ hl.issuedOnce, ?_,
    (acked_executed h n o).symm ▸ hl.ackedOnce, fun l l' n' o' hs => ?_, fun l l' n' a hs => ?_⟩
  · rw [executed_append, List.map_append]
    exact List.Nodup.append hl.executedOnce (List.nodup_singleton n)
      (by simpa [executed, executedCall] using hn)
  · rcases concat_split hs with ⟨rfl, hm⟩ | ⟨k, rfl⟩
    · cases hm
      exact hi
    · exact hl.executed_after l k n' o' rfl
  · rcases concat_split hs with ⟨-, hm⟩ | ⟨k, rfl⟩
    · cases hm
    · exact hl.acked_after l k n' a rfl

/-- A call is acknowledged. -/
theorem Linear.ack (hl : Linear spec definite s h) (hi : .issued n o ∈ h)
    (hn : n ∉ (acked h).map Prod.fst)
    (hd : definite a → Answered spec s h n o a) : Linear spec definite s (h ++ [.acked n a]) := by
  refine ⟨(issued_acked h n a).symm ▸ hl.issuedOnce,
    (executed_acked h n a).symm ▸ hl.executedOnce, ?_, fun l l' n' o' hs => ?_,
    fun l l' n' a' hs => ?_⟩
  · rw [acked_append, List.map_append]
    exact List.Nodup.append hl.ackedOnce (List.nodup_singleton n)
      (by simpa [acked, ackedCall] using hn)
  · rcases concat_split hs with ⟨-, hm⟩ | ⟨k, rfl⟩
    · cases hm
    · exact hl.executed_after l k n' o' rfl
  · rcases concat_split hs with ⟨rfl, hm⟩ | ⟨k, rfl⟩
    · cases hm
      exact ⟨o, hi, hd⟩
    · exact hl.acked_after l k n' a' rfl

/-- A number of calls are acknowledged one after the other. -/
theorem Linear.acks (hl : Linear spec definite s h) {L : List (ι × α)}
    (hnd : (L.map Prod.fst).Nodup) (hnew : ∀ p ∈ L, p.1 ∉ (acked h).map Prod.fst)
    (hd : ∀ p ∈ L, ∃ o, .issued p.1 o ∈ h ∧ (definite p.2 → Answered spec s h p.1 o p.2)) :
    Linear spec definite s (h ++ L.map fun p => .acked p.1 p.2) := by
  induction L generalizing h with
  | nil =>
    rw [List.map_nil, List.append_nil]
    exact hl
  | cons p L ih =>
    rw [List.map_cons, List.nodup_cons] at hnd
    obtain ⟨o, hi, ha⟩ := hd p (List.mem_cons_self ..)
    rw [List.map_cons, ← List.singleton_append, ← List.append_assoc]
    refine ih (hl.ack hi (hnew p (List.mem_cons_self ..)) ha) hnd.2
      (fun q hq hm => ?_) fun q hq => ?_
    · rw [acked_append, List.map_append] at hm
      rcases List.mem_append.mp hm with hm | hm
      · exact hnew q (List.mem_cons_of_mem _ hq) hm
      · have : q.1 = p.1 := by simpa [acked, ackedCall] using hm
        exact hnd.1 (this ▸ List.mem_map_of_mem hq)
    · obtain ⟨oq, hiq, haq⟩ := hd q (List.mem_cons_of_mem _ hq)
      exact ⟨oq, List.mem_append_left _ hiq, fun hdef => (haq hdef).append _⟩

theorem acked_acks (L : List (ι × α)) :
    acked (L.map fun p => (.acked p.1 p.2 : Moment ι ω α)) = L := by
  unfold acked
  rw [List.filterMap_map]
  exact List.filterMap_some

theorem issued_acks (L : List (ι × α)) :
    issued (L.map fun p => (.acked p.1 p.2 : Moment ι ω α)) = [] := by
  unfold issued calls
  rw [List.filterMap_map]
  exact List.map_eq_nil_iff.mpr (List.filterMap_eq_nil_iff.mpr fun _ _ => rfl)

theorem executed_acks (L : List (ι × α)) :
    executed (L.map fun p => (.acked p.1 p.2 : Moment ι ω α)) = [] := by
  unfold executed
  rw [List.filterMap_map]
  exact List.filterMap_eq_nil_iff.mpr fun _ _ => rfl

@[simp] theorem after_issued : after spec s (h ++ [.issued n o]) = after spec s h := by
  unfold after
  rw [executed_issued]

@[simp] theorem after_acked : after spec s (h ++ [.acked n a]) = after spec s h := by
  unfold after
  rw [executed_acked]

@[simp] theorem after_executed : after spec s (h ++ [.executed n o]) =
    (spec o (after spec s h)).2 := by
  unfold after effect
  rw [executed_append, List.foldl_append]
  rfl

/-- A call that is issued after another one was acknowledged definitely takes effect after it. -/
theorem Linear.order (hl : Linear spec definite s h) {l l' k k' : List (Moment ι ω α)}
    {m : ι} {p p' : ω} (ha : h = l ++ .acked n a :: l') (hd : definite a) (hm : .issued m p ∈ l')
    (he : h = k ++ .executed m p' :: k') : ∃ o, .executed n o ∈ k := by
  obtain ⟨o, -, hans⟩ := hl.acked_after l l' n a ha
  obtain ⟨k₁, k₂, hk, -⟩ := hans hd
  refine ⟨o, ?_⟩
  -- Otherwise the effect of `m` would stand before the acknowledgement, and so would its call.
  have hlen : l.length < k.length := by
    by_contra hlt
    have hpre : k <+: l := by
      exact @List.prefix_of_prefix_length_le _ _ _ h ⟨_, he.symm⟩ ⟨_, ha.symm⟩ (by omega)
    have hiss := hl.executed_after k k' m p' he
    have hissl : m ∈ issued l := mem_issued.mpr ⟨p', hpre.subset hiss⟩
    have hissl' : m ∈ issued l' := mem_issued.mpr ⟨p, hm⟩
    have hnd := hl.issuedOnce
    rw [ha, show l ++ Moment.acked n a :: l' = l ++ ([.acked n a] ++ l') from rfl, issued_append,
      issued_append] at hnd
    exact List.disjoint_of_nodup_append hnd hissl (List.mem_append_right _ hissl')
  have hpre : l <+: k := @List.prefix_of_prefix_length_le _ _ _ h ⟨_, ha.symm⟩ ⟨_,
    he.symm⟩ (by omega)
  exact hpre.subset (hk ▸ List.mem_append_right _ (List.mem_cons_self ..))

end Steps

end History

end Spec
end Sdl
