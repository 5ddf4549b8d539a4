import SharedDataLayer.Async.Clients

/-!
# No update is lost

`setIfAsync`, `setIfNotExistsAsync` and `removeIfAsync` replace the entry of one key only if it has
the value that the client expects: what they do to the entry is a `swap`. While no client overwrites
the entry otherwise, its values form a chain, each replaced by the operation that expected it.
Several clients that update the entry from the value they have read never undo each other's updates.

* `spec_swap`, `spec_keeps`: what an operation does to the entry.
* `wins`: the operations that have replaced the entry, with the values before and after.
* `updates_chained`: in every run of any number of clients.
-/

namespace Sdl
namespace Clients

open Spec Redis Async

/-- The key of a conditional operation, the value that it expects and the one that it leaves. -/
def conditional : StoreOp → Option (Key × Option Data × Option Data)
  | .setIf _ key oldData newData => some (key, some oldData, some newData)
  | .setIfNotExists _ key data => some (key, none, some data)
  | .removeIf _ key data => some (key, some data, none)
  | .set _ _ | .get _ _ | .remove _ _ => none

section Entry

variable (ns : Namespace) (key : Key)

/-- What the operation does to the entry: the value that it expects, and the one that it replaces it
with. -/
def swap (op : StoreOp) : Option (Option Data × Option Data) :=
  match conditional op with
  | some (k, a, b) => if op.ns = ns ∧ k = key then some (a, b) else none
  | none => none

/-- The operation replaces the entry whatever it is. -/
def overwrites : StoreOp → Prop
  | .set ns' dataMap => ns' = ns ∧ (dataMap.find key).isSome = true
  | .remove ns' keys => ns' = ns ∧ key ∈ keys.elems
  | _ => False

instance : (op : StoreOp) → Decidable (overwrites ns key op)
  | .set ns' dataMap => inferInstanceAs (Decidable (ns' = ns ∧ (dataMap.find key).isSome = true))
  | .remove ns' keys => inferInstanceAs (Decidable (ns' = ns ∧ key ∈ keys.elems))
  | .setIf _ _ _ _ | .setIfNotExists _ _ _ | .get _ _ | .removeIf _ _ _ =>
    inferInstanceAs (Decidable False)

/-- The operations that replace the entry when they take effect one after the other. -/
def wins : Store → List ((Nat × Nat) × StoreOp) → List ((Nat × Nat) × Option Data × Option Data)
  | _, [] => []
  | s, (n, op) :: cs =>
    match swap ns key op with
    | some (a, b) => if s ns key = a then (n, a, b) :: wins (op.spec s).2 cs
      else wins (op.spec s).2 cs
    | none => wins (op.spec s).2 cs

/-- Each operation has replaced the value that the one before has left. -/
def Chain : Option Data → List ((Nat × Nat) × Option Data × Option Data) → Option Data → Prop
  | v, [], v' => v = v'
  | v, (_, a, b) :: l, v' => v = a ∧ Chain b l v'

end Entry

section Spec

variable {ns : Namespace} {key : Key} {op : StoreOp} {s : Store} {a b : Option Data}

theorem spec_entry (hns : op.ns = ns) (hv : isValidNamespace ns = true) :
    (op.spec s).1 = (op.act (s ns)).1 ∧ (op.spec s).2 ns = (op.act (s ns)).2 := by
  subst hns
  rw [StoreOp.spec, if_pos hv]
  exact ⟨rfl, Function.update_self ..⟩

/-- An operation leaves the entries of the other namespaces alone. -/
theorem spec_other (hns : op.ns ≠ ns) : (op.spec s).2 ns = s ns := by
  unfold StoreOp.spec
  split
  · exact Function.update_of_ne (Ne.symm hns) ..
  · rfl

theorem swap_eq_some : swap ns key op = some (a, b) ↔
    op.ns = ns ∧ conditional op = some (key, a, b) := by
  unfold swap
  split
  · rename_i k a' b' hc
    rw [hc]
    constructor
    · intro h
      split at h
      · rename_i hk
        cases h
        exact ⟨hk.1, by rw [hk.2]⟩
      · cases h
    · rintro ⟨hns, h⟩
      cases h
      rw [if_pos ⟨hns, rfl⟩]
  · rename_i hc
    rw [hc]
    exact ⟨fun h => (by cases h), fun h => (by cases h.2)⟩

/-- A conditional operation replaces its entry and acks that it has, or it does neither. -/
theorem act_conditional {k : Key} (h : conditional op = some (k, a, b)) (t : Key → Option Data) :
    op.act t = if t k = a then (.modifyIfAck .none true, Function.update t k b)
      else (.modifyIfAck .none false, t) := by
  cases op with
  | set | get | remove => cases h
  | setIf ns' k old new => cases h; rfl
  | removeIf ns' k d => cases h; rfl
  | setIfNotExists ns' k d =>
    cases h
    cases hk : t k with
    | none => simp [StoreOp.act, hk]
    | some v => simp [StoreOp.act, hk]

theorem spec_swap (hv : isValidNamespace ns = true) (h : swap ns key op = some (a, b)) :
    (op.spec s).1 = .modifyIfAck .none (s ns key = a) ∧
      (op.spec s).2 ns key = if s ns key = a then b else s ns key := by
  obtain ⟨hns, hc⟩ := swap_eq_some.mp h
  obtain ⟨h1, h2⟩ := spec_entry (s := s) hns hv
  rw [h1, h2, act_conditional hc]
  by_cases hs : s ns key = a
  · simp [hs]
  · simp [hs]

/-- Every other operation leaves the entry as it is. -/
theorem spec_keeps (hv : isValidNamespace ns = true) (h : swap ns key op = none)
    (ho : ¬ overwrites ns key op) :
    (op.spec s).2 ns key = s ns key := by
  by_cases hns : op.ns = ns
  · rw [(spec_entry hns hv).2]
    cases hc : conditional op with
    | some p =>
      -- It is about another key.
      obtain ⟨k, a, b⟩ := p
      have hk : key ≠ k := by
        rintro rfl
        rw [swap_eq_some.mpr ⟨hns, hc⟩] at h
        cases h
      rw [act_conditional hc]
      split
      · exact Function.update_of_ne hk ..
      · rfl
    | none =>
      have hns : op.toOp.ns = ns := hns
      cases op with
      | setIf | setIfNotExists | removeIf => cases hc
      | get ns' keys => rfl
      | set ns' m =>
        cases hns
        have hm : m.find key = none := by
          cases hm : m.find key with
          | none => rfl
          | some v => exact absurd ⟨rfl, by rw [hm]; rfl⟩ ho
        show (m.find key).or (s ns' key) = s ns' key
        rw [hm, Option.none_or]
      | remove ns' keys =>
        cases hns
        have hm : key ∉ keys.elems := fun hm => ho ⟨rfl, hm⟩
        show (if key ∈ keys.elems then none else s ns' key) = s ns' key
        rw [if_neg hm]
  · rw [spec_other hns]

end Spec

section Wins

variable {ns : Namespace} {key : Key} {s : Store} {cs : List ((Nat × Nat) × StoreOp)}

theorem wins_append (s : Store) (cs cs' : List ((Nat × Nat) × StoreOp)) :
    wins ns key s (cs ++ cs') = wins ns key s cs ++
      wins ns key (History.effect StoreOp.spec s cs) cs' := by
  induction cs generalizing s with
  | nil => rfl
  | cons p cs ih =>
    obtain ⟨n, op⟩ := p
    have ih := ih (op.spec s).2
    simp only [List.cons_append, wins]
    split
    · split
      · rw [ih]; rfl
      · exact ih
    · exact ih

/-- The operations that have replaced the entry are some of those that have taken effect. -/
theorem wins_sublist (s : Store) (cs : List ((Nat × Nat) × StoreOp)) :
    ((wins ns key s cs).map Prod.fst).Sublist (cs.map Prod.fst) := by
  induction cs generalizing s with
  | nil => exact List.Sublist.slnil
  | cons p cs ih =>
    obtain ⟨n, op⟩ := p
    simp only [wins]
    split
    · split
      · exact (ih _).cons_cons n
      · exact (ih _).cons n
    · exact (ih _).cons n

theorem mem_wins {x : (Nat × Nat) × Option Data × Option Data} (hx : x ∈ wins ns key s cs) :
    ∃ op, (x.1, op) ∈ cs ∧ swap ns key op = some x.2 := by
  induction cs generalizing s with
  | nil => cases hx
  | cons p cs ih =>
    obtain ⟨n, op⟩ := p
    have hlater : x ∈ wins ns key (op.spec s).2 cs → ∃ op', (x.1, op') ∈ (n, op) :: cs ∧
      swap ns key op' = some x.2 := by
      intro hx
      obtain ⟨op', hm, hs⟩ := ih hx
      exact ⟨op', List.mem_cons_of_mem _ hm, hs⟩
    simp only [wins] at hx
    split at hx
    · rename_i a b hs
      split at hx
      · rcases List.mem_cons.mp hx with rfl | hx
        · exact ⟨op, List.mem_cons_self .., hs⟩
        · exact hlater hx
      · exact hlater hx
    · exact hlater hx

/-- The values of the entry, while only conditional operations are about it. -/
theorem chain_wins (hv : isValidNamespace ns = true) (ho : ∀ c ∈ cs, ¬ overwrites ns key c.2) :
    Chain (s ns key) (wins ns key s cs) (History.effect StoreOp.spec s cs ns key) := by
  induction cs generalizing s with
  | nil => rfl
  | cons p cs ih =>
    obtain ⟨n, op⟩ := p
    have ih := ih (s := (op.spec s).2) fun c hc => ho c (List.mem_cons_of_mem _ hc)
    have ho := ho (n, op) (List.mem_cons_self ..)
    show Chain (s ns key) _ (History.effect StoreOp.spec (op.spec s).2 cs ns key)
    simp only [wins]
    split
    · rename_i a b hs
      rw [(spec_swap hv hs).2] at ih
      split
      · rename_i ha
        rw [if_pos ha] at ih
        exact ⟨ha, ih⟩
      · rename_i ha
        rw [if_neg ha] at ih
        exact ih
    · rename_i hs
      rw [spec_keeps hv hs ho] at ih
      exact ih

/-- An operation has replaced the entry exactly if it found the value that it expects. -/
theorem mem_wins_iff {l l' : List ((Nat × Nat) × StoreOp)} {n : Nat × Nat} {op : StoreOp}
    {a b : Option Data}
    (hnd : ((l ++ (n, op) :: l').map Prod.fst).Nodup) (hs : swap ns key op = some (a, b)) :
    n ∈ (wins ns key s (l ++ (n, op) :: l')).map Prod.fst ↔
      History.effect StoreOp.spec s l ns key = a := by
  rw [List.map_append, List.map_cons, List.nodup_append, List.nodup_cons] at hnd
  obtain ⟨-, ⟨hl', -⟩, hl⟩ := hnd
  have hl : n ∉ l.map Prod.fst := fun hm => hl n hm n (List.mem_cons_self ..) rfl
  have hbefore : n ∉ (wins ns key s l).map Prod.fst := fun hm => hl ((wins_sublist s l).subset hm)
  have hbehind : ∀ s, n ∉ (wins ns key s l').map Prod.fst :=
    fun s hm => hl' ((wins_sublist s l').subset hm)
  rw [wins_append, List.map_append, List.mem_append]
  simp only [wins, hs]
  split
  · rename_i ha
    exact ⟨fun _ => ha, fun _ => .inr (List.mem_cons_self ..)⟩
  · rename_i ha
    exact ⟨fun hm => hm.elim (fun hm => absurd hm hbefore) fun hm => absurd hm (hbehind _),
      fun h => absurd h ha⟩

end Wins

/-- **No lost update.** In every run of any number of clients, for every entry that no operation
overwrites: there is a list of operations, none twice, each of which has replaced the value that the
one before has left by its own, from the value at the start to the one now; and an operation on the
entry that was acknowledged without an error is in this list exactly if its ack says that it has
replaced the entry. -/
theorem updates_chained (cfg : Nat → Config) (server : Server) {w : World}
    (h : (sys cfg server).Reach Sys.always w)
    {ns : Namespace} (hv : isValidNamespace ns = true) (key : Key)
    (ho : ∀ n op, .issued n op ∈ w.history → ¬ overwrites ns key op) :
    ∃ wins : List ((Nat × Nat) × Option Data × Option Data),
      Chain (abs server ns key) wins (abs w.server ns key) ∧ (wins.map Prod.fst).Nodup ∧
      (∀ x ∈ wins, ∃ op, .issued x.1 op ∈ w.history ∧ swap ns key op = some x.2) ∧
      ∀ n op status, .issued n op ∈ w.history → (swap ns key op).isSome = true →
        .acked n (.modifyIfAck .none status) ∈ w.history →
        (status = true ↔ n ∈ wins.map Prod.fst) := by
  have hi := Inv.of_reach h
  have hissued : ∀ n op, (n, op) ∈ History.executed w.history → .issued n op ∈ w.history := by
    intro n op hm
    obtain ⟨l, l', hl⟩ := List.append_of_mem (History.mem_executed.mp hm)
    rw [hl]
    exact List.mem_append_left _ (hi.linear.executed_after l l' n op hl)
  refine ⟨wins ns key (abs server) (History.executed w.history), ?_, ?_, fun x hx => ?_,
    fun n op status hn hs hack => ?_⟩
  · rw [hi.store]
    exact chain_wins hv fun c hc => ho c.1 c.2 (hissued c.1 c.2 hc)
  · exact hi.linear.executedOnce.sublist (wins_sublist _ _)
  · obtain ⟨op, hm, hs⟩ := mem_wins hx
    exact ⟨op, hissued x.1 op hm, hs⟩
  · obtain ⟨⟨a, b⟩, hs⟩ := Option.isSome_iff_exists.mp hs
    obtain ⟨l, l', hl⟩ := List.append_of_mem hack
    obtain ⟨o, hol, hans⟩ := hi.linear.acked_after l l' n _ hl
    obtain ⟨k, k', rfl, hstatus⟩ := hans (.inl rfl)
    -- The operation that was acknowledged is the one that was issued.
    have hoo : o = op := by
      have hol : .issued n o ∈ w.history := by
        rw [hl]
        exact List.mem_append_left _ hol
      exact hi.linear.issued_inj hol hn
    subst hoo
    rw [(spec_swap hv hs).1] at hstatus
    have hexec : History.executed w.history =
        History.executed k ++ (n, o) :: History.executed
        (k' ++ .acked n (.modifyIfAck .none status) :: l') := by
      rw [hl, List.append_assoc, History.executed_append, List.cons_append]
      rfl
    have hnd := hi.linear.executedOnce
    rw [hexec] at hnd ⊢
    rw [mem_wins_iff hnd hs]
    cases hstatus
    exact decide_eq_true_iff

/-- Two clients create an entry at the same time. One of them has created it, and is told so. -/
theorem updates_chained_race :
    ∃ w, (sys (fun _ => ⟨none, by decide, fun _ => false⟩) ⟨OrdMap.empty, []⟩).Reach Sys.always w ∧
      (w.client 0).acks = [(0, .modifyIfAck .none false)] ∧
      (w.client 1).acks = [(0, .modifyIfAck .none true)] ∧
      ∃ wins, Chain none wins (abs w.server (str "ns") (str "k")) ∧ (1, 0) ∈ wins.map Prod.fst := by
  let ch : Choice := ⟨fun _ => true, .eof⟩
  let r : Choices := ⟨fun db => db.elems, fun _ => .refl _, fun _ _ => false⟩
  let commands : Reply := .array (Hiredis.getRequiredRedisModuleCommands.map
    fun c => .array [.string c])
  let connect : Nat → List Event := fun c =>
    [.other c ch (.serviceStateChanged true), .other c ch .connected,
      .other c ch (.reply (.reply commands))]
  let quiet : (Nat × Nat) × StoreOp → Bool := fun c => !decide (overwrites (str "ns") (str "k") c.2)
  let told : (Nat × Nat) × StoreOp → Bool :=
    fun c => c.1 = (1, 0) && (swap (str "ns") (str "k") c.2).isSome
  obtain ⟨w, h, hw⟩ := Sys.reach_run_map (S := sys
    (fun _ => ⟨none, by decide, fun _ => false⟩) ⟨OrdMap.empty, []⟩)
    (G := Sys.always)
    (connect 0 ++ connect 1 ++ [.issue 0 (.setIfNotExists (str "ns") (str "k") (str "a")) ch,
      .issue 1 (.setIfNotExists (str "ns") (str "k") (str "b")) ch, .execute 1 r, .execute 0 r,
      .reply 0 ch, .reply 1 ch])
    (fun w => ((History.calls w.history).all quiet && (History.calls w.history).any told,
      History.acked w.history))
    (b := (true, [((0, 0), .modifyIfAck .none false), ((1, 0), .modifyIfAck .none true)]))
    (by decide +kernel)
  obtain ⟨hchecked, hacked⟩ := Prod.mk.inj hw
  obtain ⟨hquiet, htold⟩ := Bool.and_eq_true_iff.mp hchecked
  have hacks : ∀ c, (w.client c).acks = [((0, 0), Ack.modifyIfAck .none false),
    ((1, 0), .modifyIfAck .none true)].filterMap
      fun p => if p.1.1 = c then some (p.1.2, p.2) else none := by
    intro c
    rw [← (Inv.of_reach h).acks c, acksOf, hacked]
  obtain ⟨wins, hchain, -, -, hwins⟩ :=
    @updates_chained _ _ w h (str "ns") (by decide) (str "k") fun n op hm => by
    have := List.all_eq_true.mp hquiet _ (History.mem_calls.mpr hm)
    simpa [quiet] using this
  obtain ⟨⟨n, op⟩, hm, hmt⟩ := List.any_eq_true.mp htold
  have hmt : n = (1, 0) ∧ (swap (str "ns") (str "k") op).isSome = true := by simpa [told] using hmt
  obtain ⟨rfl, hs⟩ := hmt
  refine ⟨w, h, hacks 0, hacks 1, wins, hchain,
    (hwins (1, 0) op true (History.mem_calls.mp hm) hs ?_).mp rfl⟩
  refine History.mem_acked.mp ?_
  rw [hacked]
  exact List.mem_cons_of_mem _ (List.mem_cons_self ..)

end Clients
end Sdl
