import Mathlib.Data.List.Induction
import SharedDataLayer.Sync.Impl

/-!
# What a batch of acks does to `SyncStorageImpl`

`handleEvents_eq` says once what a batch does: the acks of the batch are called one after the
other on the shared record (`callAll`) and are outstanding no more. The lemmas about `callAll` say
which member ends with whose value: `localError` always with that of the last ack
(`callAll_localError`), the result of a data operation with its own ack's (`callAll_result`),
since the other acks in the batch are readiness acks.

`Inv` holds in every state: ack ids are used once, and an ack that has been invoked is outstanding
no more. `Quiet` also holds between two calls: only readiness acks are outstanding, those of the
waits that timed out.
-/

namespace Sdl
namespace Sync

open Spec

/-- The function of an outstanding ack. -/
def World.fn (w : World) (i : Nat) : AckFn := (w.outstanding.lookup i).getD .waitReadyAck

/-- The acks of a batch, called one after the other. -/
def callAll (fn : Nat → AckFn) (b : Batch) (s : Impl) : Impl :=
  b.foldl (fun s d => (fn d.1).call d.2 s) s

/-- The error of the last ack of a batch. -/
def lastError (b : Batch) : ErrorCode := (b.getLast?.map (·.2.error)).getD .none

@[simp] theorem AckFn.call_localError (f : AckFn) (a : AckArgs) (s : Impl) :
    (f.call a s).localError = a.error := by
  cases f <;> rfl

theorem callAll_append (fn : Nat → AckFn) (b c : Batch) (s : Impl) :
    callAll fn (b ++ c) s = callAll fn c (callAll fn b s) := by
  simp [callAll]

theorem callAll_localError (fn : Nat → AckFn) {b : Batch} (hb : b ≠ []) (s : Impl) :
    (callAll fn b s).localError = lastError b := by
  obtain ⟨c, d, rfl⟩ := List.eq_nil_or_concat b |>.resolve_left hb
  rw [List.concat_eq_append, callAll_append]
  simp [callAll, lastError]

/-- Readiness acks set `isReady` and `localError` and nothing else. -/
theorem callAll_ready {fn : Nat → AckFn} {b : Batch} (hr : ∀ d ∈ b, fn d.1 = .waitReadyAck)
    (s : Impl) :
    callAll fn b s = { s with
      isReady := s.isReady || !b.isEmpty
      localError := if b.isEmpty then s.localError else lastError b } := by
  induction b using List.reverseRecOn with
  | nil => simp [callAll]
  | append_singleton b d ih =>
    rw [callAll_append, ih fun x hx => hr x (by simp [hx])]
    simp [callAll, hr d (by simp), AckFn.call, Impl.waitReadyAck, lastError]

/-- The acks of a batch with one ack of a data operation, `d`, and readiness acks. -/
theorem callAll_result {fn : Nat → AckFn} {c e : Batch} {d : Nat} {a : AckArgs}
    (hd : fn d ≠ .waitReadyAck) (hc : ∀ x ∈ c, fn x.1 = .waitReadyAck)
    (he : ∀ x ∈ e, fn x.1 = .waitReadyAck) (s : Impl) :
    (callAll fn (c ++ (d, a) :: e) s).synced = true ∧
      (fn d).result (callAll fn (c ++ (d, a) :: e) s) = (fn d).resultOf a := by
  have hcall : callAll fn (c ++ (d, a) :: e) s = callAll fn e ((fn d).call a (callAll fn c s)) := by
    rw [callAll_append]; rfl
  rw [hcall, callAll_ready he, callAll_ready hc]
  cases hf : fn d with
  | waitReadyAck => exact absurd hf hd
  | modifyAck => exact ⟨rfl, rfl⟩
  | modifyIfAck => exact ⟨rfl, rfl⟩
  | getAck => exact ⟨rfl, rfl⟩
  | findKeysAck => exact ⟨rfl, rfl⟩

/-! ## One batch -/

theorem lookup_filter_ne {l : List (Nat × AckFn)} {i j : Nat} (h : i ≠ j) :
    (l.filter (·.1 != j)).lookup i = l.lookup i := by
  induction l with
  | nil => rfl
  | cons p l ih =>
    obtain ⟨k, f⟩ := p
    by_cases hk : k = j
    · subst hk; simp [List.lookup_cons, beq_false_of_ne h, ih]
    · rw [List.filter_cons_of_pos (by simpa using hk), List.lookup_cons, List.lookup_cons, ih]

theorem mem_keys_of_lookup {l : List (Nat × AckFn)} {i : Nat} {f : AckFn}
    (h : l.lookup i = some f) : (i, f) ∈ l := by
  induction l with
  | nil => cases h
  | cons p l ih =>
    obtain ⟨k, g⟩ := p
    by_cases hk : i = k
    · subst hk; rw [List.lookup_cons_self] at h; cases h; simp
    · rw [List.lookup_cons, beq_false_of_ne hk] at h
      exact List.mem_cons_of_mem _ (ih h)

theorem callAll_congr {fn fn' : Nat → AckFn} {b : Batch} (h : ∀ d ∈ b, fn d.1 = fn' d.1)
    (s : Impl) : callAll fn b s = callAll fn' b s := by
  induction b generalizing s with
  | nil => rfl
  | cons d b ih =>
    simp only [callAll, List.foldl_cons] at ih ⊢
    rw [h d (by simp)]
    exact ih (fun x hx => h x (by simp [hx])) _

/-- The acks of a batch are distinct and outstanding before it, and not outstanding after it. -/
theorem foldlM_invoke {b : Batch} {w w' : World} (h : b.foldlM World.invoke w = some w') :
    (∀ d ∈ b, (d.1, w.fn d.1) ∈ w.outstanding) ∧ (b.map Prod.fst).Nodup ∧
      w' = { w with
        impl := callAll w.fn b w.impl
        outstanding := w.outstanding.filter fun p => p.1 ∉ b.map Prod.fst } := by
  induction b generalizing w with
  | nil => cases h; simp [callAll]
  | cons d b ih =>
    simp only [List.foldlM_cons] at h
    obtain ⟨w₁, h₁, h₂⟩ := Option.bind_eq_some_iff.mp h
    simp only [World.invoke, Option.map_eq_some_iff] at h₁
    obtain ⟨f, hf, rfl⟩ := h₁
    obtain ⟨hmem, hnd, rfl⟩ := ih h₂
    simp only [List.mem_filter, bne_iff_ne, ne_eq] at hmem
    have hfn : w.fn d.1 = f := by simp [World.fn, hf]
    have hne : ∀ x ∈ b, x.1 ≠ d.1 := fun x hx => (hmem x hx).2
    have hfn' : ∀ x ∈ b, World.fn { w with
        impl := f.call d.2 w.impl
        outstanding := w.outstanding.filter (·.1 != d.1) } x.1 = w.fn x.1 := fun x hx => by
      simp only [World.fn]; rw [lookup_filter_ne (hne x hx)]
    refine ⟨?_, ?_, ?_⟩
    · intro x hx
      rcases List.mem_cons.mp hx with rfl | hx
      · rw [hfn]; exact mem_keys_of_lookup hf
      · have := (hmem x hx).1; rwa [hfn' x hx] at this
    · rw [List.map_cons, List.nodup_cons]
      refine ⟨fun hx => ?_, hnd⟩
      obtain ⟨x, hx, e⟩ := List.mem_map.mp hx
      exact hne x hx e
    · congr 1
      · rw [callAll_congr hfn']; simp only [callAll, List.foldl_cons, hfn]
      · rw [List.filter_filter]
        apply List.filter_congr
        intro p _
        rw [Bool.eq_iff_iff]
        simp only [List.map_cons, List.mem_cons, not_or, Bool.and_eq_true, decide_eq_true_eq,
          bne_iff_ne, ne_eq]
        tauto

theorem handleEvents_eq {b : Batch} {w w' : World} (h : handleEvents b w = some w') :
    (∀ d ∈ b, (d.1, w.fn d.1) ∈ w.outstanding) ∧ (b.map Prod.fst).Nodup ∧
      w' = { w with
        impl := callAll w.fn b w.impl
        outstanding := w.outstanding.filter fun p => p.1 ∉ b.map Prod.fst
        handled := w.handled ++ [b] } := by
  obtain ⟨w₁, h₁, rfl⟩ := Option.map_eq_some_iff.mp h
  obtain ⟨hmem, hnd, rfl⟩ := foldlM_invoke h₁
  exact ⟨hmem, hnd, rfl⟩

/-! ## Invariants -/

/-- Each ack id is used once, and the acks that have been invoked are not outstanding. -/
structure Inv (w : World) : Prop where
  nodup : (w.outstanding.map Prod.fst).Nodup
  lt : ∀ p ∈ w.outstanding, p.1 < w.nextAck
  done : ∀ d ∈ w.handled.flatten, d.1 < w.nextAck ∧ d.1 ∉ w.outstanding.map Prod.fst
  once : (w.handled.flatten.map Prod.fst).Nodup

/-- Between two calls only readiness acks are outstanding. -/
structure Quiet (w : World) : Prop extends Inv w where
  ready : ∀ p ∈ w.outstanding, p.2 = .waitReadyAck

theorem Inv.fn_eq {w : World} (h : Inv w) {i : Nat} {f : AckFn} (hi : (i, f) ∈ w.outstanding) :
    w.fn i = f := by
  have hs : (w.outstanding.lookup i).isSome := by
    rw [List.lookup_isSome_iff]; exact ⟨_, hi, by simp⟩
  obtain ⟨g, hg⟩ := Option.isSome_iff_exists.mp hs
  have e := List.inj_on_of_nodup_map h.nodup (mem_keys_of_lookup hg) hi rfl
  simp only [World.fn, hg, Option.getD_some]
  exact congrArg Prod.snd e

theorem Inv.handleEvents {w w' : World} {b : Batch} (h : Inv w) (hb : handleEvents b w = some w') :
    Inv w' := by
  obtain ⟨hmem, hnd, rfl⟩ := handleEvents_eq hb
  have hids : ∀ d ∈ b, d.1 ∈ w.outstanding.map Prod.fst := fun d hd =>
    List.mem_map_of_mem (hmem d hd)
  refine ⟨h.nodup.sublist (List.filter_sublist.map _), fun p hp => h.lt p (List.mem_filter.mp hp).1,
    ?_, ?_⟩
  · intro d hd
    simp only [List.flatten_append, List.flatten_singleton, List.mem_append] at hd
    rcases hd with hd | hd
    · obtain ⟨h1, h2⟩ := h.done d hd
      exact ⟨h1, fun hx => h2 ((List.filter_sublist.map _).subset hx)⟩
    · refine ⟨h.lt _ (hmem d hd), fun hx => ?_⟩
      obtain ⟨p, hp, e⟩ := List.mem_map.mp hx
      have := (List.mem_filter.mp hp).2
      simp only [decide_eq_true_eq, e] at this
      exact this (List.mem_map_of_mem hd)
  · simp only [List.flatten_append, List.flatten_singleton, List.map_append]
    refine List.nodup_append'.mpr ⟨h.once, hnd, ?_⟩
    intro i hi hj
    obtain ⟨d, hd, rfl⟩ := List.mem_map.mp hi
    obtain ⟨x, hx, e⟩ := List.mem_map.mp hj
    exact (h.done d hd).2 (e ▸ hids x hx)

theorem Inv.pollAndHandleEvents {w w' : World} {p : Poll} (h : Inv w)
    (hp : pollAndHandleEvents p w = some w') : Inv w' := by
  have hw : Inv { w with clock := w.clock + p.elapsed } := ⟨h.nodup, h.lt, h.done, h.once⟩
  simp only [Sync.pollAndHandleEvents] at hp
  split at hp
  · cases hp; exact hw
  · exact hw.handleEvents hp

theorem Inv.request {w : World} (h : Inv w) (f : AckFn) (r : Request) : Inv (w.request f r) := by
  refine ⟨?_, ?_, ?_, h.once⟩
  · simp only [World.request, List.map_append, List.map_cons, List.map_nil]
    refine List.nodup_append'.mpr ⟨h.nodup, by simp, ?_⟩
    intro i hi hj
    obtain ⟨p, hp, rfl⟩ := List.mem_map.mp hi
    have := h.lt p hp
    simp only [List.mem_singleton] at hj
    omega
  · intro p hp
    simp only [World.request, List.mem_append, List.mem_singleton] at hp ⊢
    rcases hp with hp | rfl
    · exact Nat.lt_succ_of_lt (h.lt p hp)
    · exact Nat.lt_succ_self _
  · intro d hd
    obtain ⟨h1, h2⟩ := h.done d hd
    simp only [World.request, List.map_append, List.map_cons, List.map_nil, List.mem_append,
      List.mem_singleton]
    exact ⟨by omega, by rintro (hx | hx); exacts [h2 hx, by omega]⟩

/-- The members of the storage object are not part of the invariants. -/
theorem Inv.withImpl {w : World} (h : Inv w) (s : Impl) : Inv { w with impl := s } :=
  ⟨h.nodup, h.lt, h.done, h.once⟩

/-- With readiness acks outstanding only, a poll keeps the results and `synced`, and the ack of
every batch sets `isReady`. -/
theorem Quiet.pollAndHandleEvents {w w' : World} {p : Poll} (h : Quiet w)
    (hp : pollAndHandleEvents p w = some w') :
    Quiet w' ∧ w'.nextAck = w.nextAck ∧ w'.requests = w.requests ∧
      w'.impl.operationTimeout = w.impl.operationTimeout ∧
      ∃ bs, w'.handled = w.handled ++ bs ∧
        w'.impl.isReady = (w.impl.isReady || !bs.flatten.isEmpty) ∧
        w'.impl.localError = if bs.flatten.isEmpty then w.impl.localError
          else lastError bs.flatten := by
  have hi := h.toInv.pollAndHandleEvents hp
  simp only [Sync.pollAndHandleEvents] at hp
  split at hp
  · cases hp; exact ⟨⟨hi, h.ready⟩, rfl, rfl, rfl, [], by simp, by simp, by simp⟩
  · rename_i b _
    obtain ⟨hmem, -, rfl⟩ := handleEvents_eq hp
    have hr : ∀ d ∈ b, World.fn { w with clock := w.clock + p.elapsed } d.1 = .waitReadyAck :=
      fun d hd => h.ready _ (hmem d hd)
    refine ⟨⟨hi, fun q hq => h.ready q (List.mem_filter.mp hq).1⟩, rfl, rfl, ?_,
      [b], rfl, ?_, ?_⟩ <;>
      simp only [callAll_ready hr, List.flatten_singleton]

theorem Quiet.request {w : World} (h : Quiet w) (r : Request) :
    Quiet (w.request .waitReadyAck r) := by
  refine ⟨h.toInv.request _ _, fun p hp => ?_⟩
  simp only [World.request, List.mem_append, List.mem_singleton] at hp
  rcases hp with hp | rfl
  · exact h.ready p hp
  · rfl

/-! ## The loops -/

/-- An invariant of a polling loop; its condition is false at the end. -/
theorem pollWhile_spec {cond : World → Bool} {I : World → Prop}
    (hstep : ∀ p w w', I w → cond w = true → pollAndHandleEvents p w = some w' → I w')
    {ps ps' : List Poll} {w w' : World} (hw : I w) (h : pollWhile cond ps w = some (w', ps')) :
    I w' ∧ cond w' = false := by
  induction ps generalizing w with
  | nil =>
    simp only [pollWhile] at h
    split at h
    · cases h
    · rename_i hc; cases h; exact ⟨hw, by simpa using hc⟩
  | cons p ps ih =>
    simp only [pollWhile] at h
    split at h
    · rename_i hc
      obtain ⟨w₁, h₁, h₂⟩ := Option.bind_eq_some_iff.mp h
      exact ih (hstep p w w₁ hw hc h₁) h₂
    · rename_i hc; cases h; exact ⟨hw, by simpa using hc⟩

/-- Polls one after the other. -/
def pollAll : List Poll → World → Option World
  | [], w => some w
  | p :: ps, w => (pollAndHandleEvents p w).bind (pollAll ps)

/-- A polling loop uses up the polls at the beginning. -/
theorem pollWhile_used {cond : World → Bool} {ps ps' : List Poll} {w w' : World}
    (h : pollWhile cond ps w = some (w', ps')) :
    ∃ used, ps = used ++ ps' ∧ pollAll used w = some w' := by
  induction ps generalizing w with
  | nil =>
    simp only [pollWhile] at h
    split at h <;> cases h
    exact ⟨[], rfl, rfl⟩
  | cons p ps ih =>
    simp only [pollWhile] at h
    split at h
    · obtain ⟨w₁, h₁, h₂⟩ := Option.bind_eq_some_iff.mp h
      obtain ⟨used, rfl, hu⟩ := ih h₂
      exact ⟨p :: used, rfl, by rw [pollAll, h₁, Option.bind_some, hu]⟩
    · cases h
      exact ⟨[], rfl, rfl⟩

/-- A polling loop ends, unless its condition is true after all polls. -/
theorem pollWhile_ends {cond : World → Bool} {I : World → Prop}
    (hstep : ∀ p w w', I w → cond w = true → pollAndHandleEvents p w = some w' → I w')
    {ps : List Poll} {w v : World} (hw : I w) (h : pollAll ps w = some v) :
    (pollWhile cond ps w).isSome = true ∨ I v ∧ cond v = true := by
  induction ps generalizing w with
  | nil =>
    cases h
    simp only [pollWhile]
    split
    · rename_i hc
      exact .inr ⟨hw, hc⟩
    · exact .inl rfl
  | cons p ps ih =>
    obtain ⟨w₁, h₁, h₂⟩ := Option.bind_eq_some_iff.mp h
    simp only [pollWhile]
    split
    · rename_i hc
      rw [h₁, Option.bind_some]
      exact ih (hstep p w w₁ hw hc h₁) h₂
    · exact .inl rfl

/-- The acks that polls invoke, each with the clock at that moment. -/
def deliveries : Int → List Poll → List (Int × Nat × AckArgs)
  | _, [] => []
  | t, p :: ps =>
    (p.events.getD []).map (fun d => (t + p.elapsed, d)) ++ deliveries (t + p.elapsed) ps

/-- A poll takes its time, and its batch is handled. -/
theorem pollAndHandleEvents_handled {p : Poll} {w w' : World}
    (h : pollAndHandleEvents p w = some w') :
    w'.clock = w.clock + p.elapsed ∧
      w'.handled.flatten = w.handled.flatten ++ p.events.getD [] := by
  simp only [pollAndHandleEvents] at h
  split at h
  · rename_i he
    cases h
    simp [he]
  · rename_i b he
    obtain ⟨-, -, rfl⟩ := handleEvents_eq h
    simp [he]

/-- The batches of the polls are handled, each at its time. -/
theorem pollAll_handled {ps : List Poll} {w v : World} (h : pollAll ps w = some v) :
    w.clock ≤ v.clock ∧
      v.handled.flatten = w.handled.flatten ++ (deliveries w.clock ps).map Prod.snd := by
  induction ps generalizing w with
  | nil =>
    cases h
    simp [deliveries]
  | cons p ps ih =>
    obtain ⟨w₁, h₁, h₂⟩ := Option.bind_eq_some_iff.mp h
    obtain ⟨hclock, hhandled⟩ := pollAndHandleEvents_handled h₁
    obtain ⟨hle, hrest⟩ := ih h₂
    refine ⟨by omega, ?_⟩
    rw [hrest, hhandled, hclock, deliveries, List.map_append, List.map_map, List.append_assoc]
    simp

/-- What a readiness wait leaves: the acks of the batches `bs` were invoked in it. -/
structure Waited (w w' : World) (bs : List Batch) : Prop extends Quiet w' where
  nextAck : w'.nextAck = w.nextAck
  requests : w'.requests = w.requests
  timeout : w'.impl.operationTimeout = w.impl.operationTimeout
  handled : w'.handled = w.handled ++ bs
  isReady : w'.impl.isReady = (w.impl.isReady || !bs.flatten.isEmpty)
  localError : w'.impl.localError =
    if bs.flatten.isEmpty then w.impl.localError else lastError bs.flatten

theorem Waited.refl {w : World} (h : Quiet w) : Waited w w [] :=
  ⟨h, rfl, rfl, rfl, by simp, by simp, by simp⟩

theorem lastError_append {b c : Batch} (hc : c ≠ []) : lastError (b ++ c) = lastError c := by
  simp [lastError, List.getLast?_append_of_ne_nil b hc]

theorem Waited.poll {w w₁ w₂ : World} {bs : List Batch} {p : Poll} (h : Waited w w₁ bs)
    (hp : pollAndHandleEvents p w₁ = some w₂) : ∃ bs', Waited w w₂ bs' := by
  obtain ⟨hq, hn, hr, ht, cs, hh, hready, herr⟩ := h.toQuiet.pollAndHandleEvents hp
  refine ⟨bs ++ cs, hq, hn.trans h.nextAck, hr.trans h.requests, ht.trans h.timeout, ?_, ?_, ?_⟩
  · rw [hh, h.handled, List.append_assoc]
  · rw [hready, h.isReady, List.flatten_append, Bool.or_assoc]
    cases bs.flatten <;> simp
  · rw [herr, h.localError, List.flatten_append]
    by_cases hc : cs.flatten = []
    · simp [hc]
    · simp [hc, lastError_append hc]

theorem pollWhile_waited {cond : World → Bool} {ps ps' : List Poll} {w w' : World} (hw : Quiet w)
    (h : pollWhile cond ps w = some (w', ps')) : ∃ bs, Waited w w' bs :=
  (pollWhile_spec (I := fun w₁ => ∃ bs, Waited w w₁ bs) (fun _ _ _ ⟨_, h⟩ _ hp => h.poll hp)
    ⟨[], .refl hw⟩ h).1

theorem handlePendingEvents_waited {ps ps' : List Poll} {w w' : World} (hw : Quiet w)
    (h : handlePendingEvents ps w = some (w', ps')) : ∃ bs, Waited w w' bs := by
  have key : ∀ ps w₁, (∃ bs, Waited w w₁ bs) → handlePendingEvents ps w₁ = some (w', ps') →
      ∃ bs, Waited w w' bs := by
    intro ps w₁ hw₁ h
    induction ps generalizing w₁ with
    | nil => cases h
    | cons p ps ih =>
      obtain ⟨bs, hw₁⟩ := hw₁
      simp only [handlePendingEvents] at h
      split at h
      · obtain ⟨w₂, h₂, e⟩ := Option.map_eq_some_iff.mp h
        cases e; exact hw₁.poll h₂
      · obtain ⟨w₂, h₂, h₃⟩ := Option.bind_eq_some_iff.mp h
        exact ih w₂ (hw₁.poll h₂) h₃
  exact key ps w ⟨[], .refl hw⟩ h

/-- A readiness wait: its own ack is `w.nextAck`. -/
theorem waitSdlToBeReady_waited {ns : Namespace} {timeout : Int} {ps ps' : List Poll}
    {w w' : World} (hw : Quiet w) (h : waitSdlToBeReady ns timeout ps w = some (w', ps')) :
    ∃ bs, Waited
      (World.request { w with impl := { w.impl with isReady := false } } .waitReadyAck
        (.waitReadyAsync ns)) w' bs :=
  pollWhile_waited (Quiet.request (w := { w with impl := { w.impl with isReady := false } })
    ⟨hw.toInv.withImpl _, hw.ready⟩ _) h

end Sync
end Sdl
