import Mathlib.Logic.Basic
import Mathlib.Data.List.Nodup

/-!
# Resources with an owner

Each live resource has one owner. It comes to life with an owner (`acquire`), may go to another one
(`handOver`), and dies with it (`release`). The same resource may come to life again, so each of its
lives has a number, and a ledger tells that every life is over once or still lasts.

* `Exclusive`: the live resources are those with an owner, and it is one.
* `Ledger`: every life up to `next` lasts or is over, and none is over twice.
-/

namespace Sdl
namespace Spec

section Exclusive

variable {α ρ : Type} {live live' : ρ → Prop} {own own' : α → ρ → Prop} {r : ρ}

structure Exclusive (live : ρ → Prop) (own : α → ρ → Prop) : Prop where
  owner : ∀ r, live r ↔ ∃ a, own a r
  one : ∀ a b r, own a r → own b r → a = b

namespace Exclusive

theorem congr (h : Exclusive live own) (hown : ∀ a x, own' a x ↔ own a x) :
    Exclusive live own' := by
  refine ⟨fun x => ?_, fun a b x ha hb => ?_⟩
  · rw [h.owner]
    exact exists_congr fun a => (hown a x).symm
  · exact h.one a b x ((hown a x).mp ha) ((hown b x).mp hb)

theorem acquire (h : Exclusive live own) (hr : ¬ live r) {a : α}
    (hlive : ∀ x, live' x ↔ x = r ∨ live x)
    (hown : ∀ b x, own' b x ↔ (x = r ∧ b = a) ∨ own b x) : Exclusive live' own' := by
  have hdead : ∀ b, ¬ own b r := fun b hb => hr ((h.owner r).mpr ⟨b, hb⟩)
  refine ⟨fun x => ?_, fun b c x hb hc => ?_⟩
  · rw [hlive, h.owner]
    constructor
    · rintro (rfl | ⟨b, hb⟩)
      · exact ⟨a, (hown a x).mpr (.inl ⟨rfl, rfl⟩)⟩
      · exact ⟨b, (hown b x).mpr (.inr hb)⟩
    · rintro ⟨b, hb⟩
      exact ((hown b x).mp hb).imp And.left fun hb => ⟨b, hb⟩
  · rcases (hown b x).mp hb with ⟨rfl, rfl⟩ | hb'
    · rcases (hown c x).mp hc with ⟨-, rfl⟩ | hc'
      · rfl
      · exact absurd hc' (hdead c)
    · rcases (hown c x).mp hc with ⟨rfl, -⟩ | hc'
      · exact absurd hb' (hdead b)
      · exact h.one b c x hb' hc'

theorem release (h : Exclusive live own) (hlive : ∀ x, live' x ↔ live x ∧ x ≠ r)
    (hown : ∀ a x, own' a x ↔ own a x ∧ x ≠ r) : Exclusive live' own' := by
  refine ⟨fun x => ?_, fun a b x ha hb => ?_⟩
  · rw [hlive, h.owner]
    constructor
    · rintro ⟨⟨a, ha⟩, hx⟩
      exact ⟨a, (hown a x).mpr ⟨ha, hx⟩⟩
    · rintro ⟨a, ha⟩
      obtain ⟨ha, hx⟩ := (hown a x).mp ha
      exact ⟨⟨a, ha⟩, hx⟩
  · exact h.one a b x ((hown a x).mp ha).1 ((hown b x).mp hb).1

theorem handOver [DecidableEq ρ] (h : Exclusive live own) (hr : live r) {a : α}
    (hown : ∀ b x, own' b x ↔ if x = r then b = a else own b x) : Exclusive live own' := by
  refine ⟨fun x => ?_, fun b c x hb hc => ?_⟩
  · by_cases hx : x = r
    · subst hx
      exact ⟨fun _ => ⟨a, (hown a x).mpr (by rw [if_pos rfl])⟩, fun _ => hr⟩
    · rw [h.owner]
      exact exists_congr fun b => by rw [hown, if_neg hx]
  · rw [hown] at hb hc
    by_cases hx : x = r
    · rw [if_pos hx] at hb hc
      exact hb.trans hc.symm
    · rw [if_neg hx] at hb hc
      exact h.one b c x hb hc

end Exclusive

end Exclusive

section Ledger

variable {ρ : Type} {life life' : ρ → Option Nat} {past : List Nat} {next k : Nat} {r : ρ}

/-- `life r` is the number of the life that `r` has, `past` those that are over. -/
structure Ledger (life : ρ → Option Nat) (past : List Nat) (next : Nat) : Prop where
  all : ∀ k, k < next ↔ k ∈ past ∨ ∃ r, life r = some k
  apart : ∀ k ∈ past, ∀ r, life r ≠ some k
  once : past.Nodup
  one : ∀ r r' k, life r = some k → life r' = some k → r = r'

namespace Ledger

theorem lt (h : Ledger life past next) (hr : life r = some k) : k < next :=
  (h.all k).mpr (.inr ⟨r, hr⟩)

variable [DecidableEq ρ]

theorem acquire (h : Ledger life past next) (hr : life r = none)
    (hlife : ∀ x, life' x = if x = r then some next else life x) :
    Ledger life' past (next + 1) := by
  have hold : ∀ x k, life x = some k → x ≠ r := by
    intro x k hx hxr
    rw [hxr, hr] at hx
    cases hx
  refine ⟨fun k => ⟨fun hk => ?_, fun hk => ?_⟩, fun k hk x hx => ?_, h.once, fun x y k hx hy => ?_⟩
  · rcases Nat.lt_succ_iff_lt_or_eq.mp hk with hk | rfl
    · refine ((h.all k).mp hk).imp_right ?_
      rintro ⟨x, hx⟩
      exact ⟨x, by rw [hlife, if_neg (hold x k hx), hx]⟩
    · exact .inr ⟨r, by rw [hlife, if_pos rfl]⟩
  · rcases hk with hk | ⟨x, hx⟩
    · have := (h.all k).mpr (.inl hk)
      omega
    · rw [hlife] at hx
      split at hx
      · cases hx
        omega
      · have := h.lt hx
        omega
  · rw [hlife] at hx
    split at hx
    · cases hx
      have := (h.all next).mpr (.inl hk)
      omega
    · exact h.apart k hk x hx
  · rw [hlife] at hx hy
    split at hx <;> split at hy
    · rename_i hx' hy'
      exact hx'.trans hy'.symm
    · cases hx
      have := h.lt hy
      omega
    · cases hy
      have := h.lt hx
      omega
    · exact h.one x y k hx hy

theorem release (h : Ledger life past next) (hr : life r = some k)
    (hlife : ∀ x, life' x = if x = r then none else life x) : Ledger life' (past ++ [k]) next := by
  have hkeep : ∀ x j, life' x = some j → x ≠ r ∧ life x = some j := by
    intro x j hx
    rw [hlife] at hx
    split at hx
    · cases hx
    · rename_i hne
      exact ⟨hne, hx⟩
  refine ⟨fun j => ?_, fun j hj x hx => ?_, ?_,
    fun x y j hx hy => h.one x y j (hkeep x j hx).2 (hkeep y j hy).2⟩
  · rw [h.all, List.mem_append, List.mem_singleton]
    constructor
    · rintro (hj | ⟨x, hx⟩)
      · exact .inl (.inl hj)
      · by_cases hxr : x = r
        · rw [hxr, hr] at hx
          exact .inl (.inr (Option.some.inj hx).symm)
        · exact .inr ⟨x, by rw [hlife, if_neg hxr, hx]⟩
    · rintro ((hj | rfl) | ⟨x, hx⟩)
      · exact .inl hj
      · exact .inr ⟨r, hr⟩
      · exact .inr ⟨x, (hkeep x j hx).2⟩
  · obtain ⟨hne, hx⟩ := hkeep x j hx
    rcases List.mem_append.mp hj with hj | hj
    · exact h.apart j hj x hx
    · rw [List.mem_singleton.mp hj] at hx
      exact hne (h.one x r k hx hr)
  · refine List.nodup_append.mpr ⟨h.once, List.nodup_singleton k, fun j hj j' hj' hjj => ?_⟩
    rw [hjj, List.mem_singleton.mp hj'] at hj
    exact h.apart k hj r hr

end Ledger

end Ledger

end Spec
end Sdl
