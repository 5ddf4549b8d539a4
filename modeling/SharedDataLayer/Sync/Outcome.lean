import SharedDataLayer.Sync.Events

/-!
# The outcome of the synchronous calls

* A data operation (`dataOp_outcome`): its own ack is invoked exactly once before it returns, in
  the last batch `b` that the call handles. The outcome is the one that this ack decides exactly
  if the last ack of `b` throws the same exception, or none like it. A readiness ack of a wait that
  timed out may come after the own ack in `b`, and then its error is the one that counts. The call
  ends with `b`, if that comes (`operation_ends`).
* `waitReady` (`waitReady_outcome`): every readiness ack sets `isReady`, also one of an earlier
  wait, for another namespace; and the own ack may come in a poll that outlasts the timeout. The
  times are those of the polls (`deliveries`).
-/

namespace Sdl
namespace Sync

open Spec

/-- The outcome that the ack of an operation decides. -/
def AckFn.outcome (f : AckFn) (a : AckArgs) : Outcome :=
  if a.error.isError then .error (throwExceptionForErrorCode a.error) else .ok (f.resultOf a)

/-- The exception for a code, if it is an error. -/
def verdict (e : ErrorCode) : Option Exception :=
  if e.isError then some (throwExceptionForErrorCode e) else none

theorem verifyBackendResponse_eq_iff {f : AckFn} {a : AckArgs} {s : Impl}
    (hr : f.result s = f.resultOf a) :
    verifyBackendResponse s f.result = f.outcome a ↔ verdict s.localError = verdict a.error := by
  unfold verifyBackendResponse AckFn.outcome verdict
  rw [hr]
  split <;> split <;> simp

/-! ## Data operations -/

/-- While an operation waits for its ack `d`: the other acks are readiness acks. When `d` has been
invoked, it was in the last batch, and the result is the one it was invoked with. -/
structure Waiting (d : Nat) (f : AckFn) (w₀ w : World) : Prop extends Inv w where
  ready : ∀ p ∈ w.outstanding, p.1 ≠ d → p.2 = .waitReadyAck
  nextAck : w.nextAck = w₀.nextAck
  requests : w.requests = w₀.requests
  state : (w.impl.synced = false ∧ (d, f) ∈ w.outstanding) ∨
    (w.impl.synced = true ∧ d ∉ w.outstanding.map Prod.fst ∧ ∃ b a, w.handled.getLast? = some b ∧
      (d, a) ∈ b ∧ w.impl.localError = lastError b ∧ f.result w.impl = f.resultOf a)

theorem Waiting.handleEvents {d : Nat} {f : AckFn} {w₀ w w' : World} {b : Batch}
    (hf : f ≠ .waitReadyAck) (h : Waiting d f w₀ w) (hs : w.impl.synced = false)
    (hb : handleEvents b w = some w') : Waiting d f w₀ w' := by
  have hi := h.toInv.handleEvents hb
  have hd : (d, f) ∈ w.outstanding := by
    rcases h.state with h | h
    · exact h.2
    · rw [h.1] at hs; cases hs
  have hfd := h.toInv.fn_eq hd
  obtain ⟨hmem, hnd, rfl⟩ := handleEvents_eq hb
  have hfn : ∀ x ∈ b, x.1 ≠ d → w.fn x.1 = .waitReadyAck := fun x hx hne =>
    h.ready _ (hmem x hx) hne
  refine ⟨hi, fun p hp => h.ready p (List.mem_filter.mp hp).1, h.nextAck, h.requests, ?_⟩
  by_cases hdb : d ∈ b.map Prod.fst
  · right
    obtain ⟨⟨d', a⟩, hda, e⟩ := List.mem_map.mp hdb
    simp only at e; subst e
    obtain ⟨c, e, rfl⟩ := List.append_of_mem hda
    -- `d` is in the batch once, so the acks around it are readiness acks.
    have hne : ∀ x ∈ c ++ e, x.1 ≠ d' := by
      intro x hx hxd
      rw [List.map_append, List.map_cons] at hnd
      have := (List.nodup_cons.mp (List.perm_middle.nodup_iff.mp hnd)).1
      rw [← List.map_append] at this
      exact this (List.mem_map.mpr ⟨x, hx, hxd⟩)
    have hc : ∀ x ∈ c, w.fn x.1 = .waitReadyAck := fun x hx =>
      hfn x (by simp [hx]) (hne x (by simp [hx]))
    have he : ∀ x ∈ e, w.fn x.1 = .waitReadyAck := fun x hx =>
      hfn x (by simp [hx]) (hne x (by simp [hx]))
    obtain ⟨hsync, hres⟩ := callAll_result (a := a) (hfd ▸ hf) hc he w.impl
    rw [hfd] at hres
    refine ⟨hsync, fun hx => ?_, _, a, List.getLast?_concat, hda,
      callAll_localError _ (by simp) _, hres⟩
    obtain ⟨p, hp, rfl⟩ := List.mem_map.mp hx
    have := (List.mem_filter.mp hp).2
    simp only [decide_eq_true_eq] at this
    exact this hdb
  · left
    have hne : ∀ x ∈ b, x.1 ≠ d := fun x hx e => hdb (e ▸ List.mem_map_of_mem hx)
    refine ⟨?_, List.mem_filter.mpr ⟨hd, by simpa using hdb⟩⟩
    rw [callAll_ready fun x hx => hfn x hx (hne x hx)]
    exact hs

theorem Waiting.poll {d : Nat} {f : AckFn} {w₀ w w' : World} {p : Poll} (hf : f ≠ .waitReadyAck)
    (h : Waiting d f w₀ w) (hs : w.impl.synced = false)
    (hp : pollAndHandleEvents p w = some w') : Waiting d f w₀ w' := by
  have hw : Waiting d f w₀ { w with clock := w.clock + p.elapsed } :=
    ⟨⟨h.nodup, h.lt, h.done, h.once⟩, h.ready, h.nextAck, h.requests, h.state⟩
  simp only [pollAndHandleEvents] at hp
  split at hp
  · cases hp; exact hw
  · exact hw.handleEvents hf hs hp

/-- The state in which the loop of a data operation starts: the own ack is the only one of a data
operation. -/
theorem waiting_request {f : AckFn} {r : Request} {w : World} {n : Nat} (hw : Quiet w)
    (hn : w.nextAck = n) :
    Waiting n f (World.request { w with impl := { w.impl with synced := false } } f r)
      (World.request { w with impl := { w.impl with synced := false } } f r) := by
  subst hn
  refine ⟨(hw.toInv.withImpl _).request _ _, ?_, rfl, rfl, .inl ⟨rfl, ?_⟩⟩
  · intro p hp hne
    simp only [World.request, List.mem_append, List.mem_singleton] at hp
    rcases hp with hp | rfl
    · exact hw.ready p hp
    · exact absurd rfl hne
  · simp [World.request]

/-- What a data operation leaves. Its own ack is `w.nextAck + 1`; `w.nextAck` is that of its
readiness wait. -/
theorem operation_spec {ns : Namespace} {r : Request} {f : AckFn} (hf : f ≠ .waitReadyAck)
    {ps ps' : List Poll} {w w' : World} {o : Outcome} (hw : Quiet w)
    (h : operation ns r f ps w = some (o, w', ps')) :
    Quiet w' ∧
      w'.requests = w.requests ++ [(w.nextAck, .waitReadyAsync ns), (w.nextAck + 1, r)] ∧
      o = verifyBackendResponse w'.impl f.result ∧
      ∃ b a, w'.handled.getLast? = some b ∧ (w.nextAck + 1, a) ∈ b ∧
        w'.impl.localError = lastError b ∧ f.result w'.impl = f.resultOf a := by
  unfold operation at h
  obtain ⟨⟨w₁, ps₁⟩, h₁, h⟩ := Option.bind_eq_some_iff.mp h
  obtain ⟨⟨w₂, ps₂⟩, h₂, h⟩ := Option.bind_eq_some_iff.mp h
  obtain ⟨⟨w₃, ps₃⟩, h₃, h⟩ := Option.bind_eq_some_iff.mp h
  cases h
  obtain ⟨bs₁, hw₁⟩ := handlePendingEvents_waited hw h₁
  obtain ⟨bs₂, hw₂⟩ := waitSdlToBeReady_waited hw₁.toQuiet h₂
  have hn : w₂.nextAck = w.nextAck + 1 := by rw [hw₂.nextAck, ← hw₁.nextAck]; rfl
  have hr : w₂.requests = w.requests ++ [(w.nextAck, .waitReadyAsync ns)] := by
    rw [hw₂.requests, ← hw₁.requests, ← hw₁.nextAck]; rfl
  have hv0 := @waiting_request f r w₂ (w.nextAck + 1) hw₂.toQuiet hn
  generalize hv : World.request { w₂ with impl := { w₂.impl with synced := false } } f r =
    v at h₃ hv0
  obtain ⟨hwait, hsync⟩ := pollWhile_spec (I := Waiting (w.nextAck + 1) f v)
    (fun p w w' hw hc hp => hw.poll hf (by simpa using hc) hp) hv0 h₃
  have hsync' : w'.impl.synced = true := by simpa using hsync
  rcases hwait.state with ⟨hs, -⟩ | ⟨-, hout, hb⟩
  · rw [hs] at hsync'; cases hsync'
  · refine ⟨⟨hwait.toInv, fun p hp => hwait.ready p hp fun e => ?_⟩, ?_, rfl, hb⟩
    · exact hout (e ▸ List.mem_map_of_mem hp)
    · rw [hwait.requests, ← hv]
      simp [World.request, hr, hn]

/-- A data operation ends with the batch that holds its own ack: of the polls of its last loop,
whatever comes after that is not needed. -/
theorem operation_ends {ns : Namespace} {r : Request} {f : AckFn} (hf : f ≠ .waitReadyAck)
    {ps ps₁ ps₂ : List Poll} {w w₁ w₂ v : World} (hw : Quiet w)
    (h₁ : handlePendingEvents ps w = some (w₁, ps₁))
    (h₂ : waitSdlToBeReady ns w₁.impl.operationTimeout ps₁ w₁ = some (w₂, ps₂))
    (hv : pollAll ps₂ (World.request { w₂ with impl := { w₂.impl with synced := false } } f r) =
      some v)
    (hown : w.nextAck + 1 ∈ v.handled.flatten.map Prod.fst) :
    (operation ns r f ps w).isSome = true := by
  obtain ⟨bs₁, hw₁⟩ := handlePendingEvents_waited hw h₁
  obtain ⟨bs₂, hw₂⟩ := waitSdlToBeReady_waited hw₁.toQuiet h₂
  have hn : w₂.nextAck = w.nextAck + 1 := by rw [hw₂.nextAck, ← hw₁.nextAck]; rfl
  have hv0 := @waiting_request f r w₂ (w.nextAck + 1) hw₂.toQuiet hn
  have hloop := @pollWhile_ends (fun w => !w.impl.synced) (Waiting (w.nextAck + 1) f _)
    (fun p w w' hw hc hp => hw.poll hf (by simpa using hc) hp) _ _ _ hv0 hv
  have hends : (waitForOperationCallback ps₂ _).isSome = true := hloop.resolve_right fun h => by
    -- Without its ack the operation would still wait for it.
    obtain ⟨hwait, hc⟩ := h
    rcases hwait.state with ⟨-, hout⟩ | ⟨hs, -⟩
    · obtain ⟨d, hd, hdn⟩ := List.mem_map.mp hown
      exact (hwait.done d hd).2 (hdn ▸ List.mem_map_of_mem hout)
    · rw [hs] at hc
      cases hc
  unfold operation
  simp only [h₁, Option.bind_eq_bind, Option.bind_some, h₂]
  obtain ⟨p, hp⟩ := Option.isSome_iff_exists.mp hends
  rw [hp]
  rfl

/-! ## `waitReady` -/

/-- The state in which the loop of a readiness wait starts. -/
def World.waiting (w : World) (ns : Namespace) : World :=
  World.request { w with impl := { w.impl with isReady := false } } .waitReadyAck
    (.waitReadyAsync ns)

theorem waitReady_spec {ns : Namespace} {timeout : Int} {ps ps' : List Poll} {w w' : World}
    {o : Outcome} (hw : Quiet w) (h : waitReady ns timeout ps w = some (o, w', ps')) :
    (∃ bs, Waited (w.waiting ns) w' bs ∧
      o = if bs.flatten.isEmpty then .error ⟨.rejectedBySdl, readinessTimeoutText ns⟩
        else verifyBackendResponse w'.impl fun _ => .unit) ∧
    ∃ used, ps = used ++ ps' ∧
      w'.handled.flatten = w.handled.flatten ++ (deliveries w.clock used).map Prod.snd := by
  obtain ⟨⟨w₁, ps₁⟩, h₁, h₂⟩ := Option.map_eq_some_iff.mp h
  obtain ⟨bs, hbs⟩ := waitSdlToBeReady_waited hw h₁
  obtain ⟨used, hu, hall⟩ := pollWhile_used h₁
  have hdel := (pollAll_handled hall).2
  have hready : w₁.impl.isReady = !bs.flatten.isEmpty := by
    rw [hbs.isReady]; simp [World.request]
  simp only [hready] at h₂
  refine ⟨⟨bs, ?_⟩, used, ?_⟩
  · split at h₂ <;> rename_i he <;> cases h₂
    · exact ⟨hbs, by simp_all⟩
    · exact ⟨hbs, by simp_all⟩
  · split at h₂ <;> cases h₂ <;> exact ⟨hu, hdel⟩

/-- The deadline of the loop, in whole milliseconds, is not after the timeout. -/
theorem timeoutMs_le {timeout : Int} (h : 0 ≤ timeout) :
    timeout.tdiv 1000000 * 1000000 ≤ timeout := by
  rw [Int.tdiv_eq_ediv_of_nonneg h]
  omega

/-- With a timeout a readiness wait ends once the polls have taken that long. -/
theorem waitReady_ends {ns : Namespace} {timeout : Int} {ps : List Poll} {w v : World}
    (ht : timeout ≠ 0) (hv : pollAll ps (w.waiting ns) = some v)
    (hlate : timeout ≤ v.clock - w.clock) : (waitReady ns timeout ps w).isSome = true := by
  have hclock : w.clock ≤ v.clock := (pollAll_handled hv).1
  have hcond : waitsForReadiness timeout w.clock v = false := by
    unfold waitsForReadiness
    simp only [ht, if_false, Bool.and_eq_false_imp, decide_eq_false_iff_not]
    intro _
    by_cases hpos : 0 ≤ timeout
    · have := timeoutMs_le hpos
      omega
    · have : timeout.tdiv 1000000 ≤ 0 := by
        have hneg : (-timeout).tdiv 1000000 = -timeout.tdiv 1000000 := Int.neg_tdiv ..
        have : 0 ≤ (-timeout).tdiv 1000000 := Int.tdiv_nonneg (by omega) (by omega)
        omega
      omega
  have hloop := @pollWhile_ends (waitsForReadiness timeout w.clock) (fun _ => True)
    (fun _ _ _ _ _ _ => trivial) _ _ _ trivial hv
  rw [hcond] at hloop
  unfold waitReady
  rw [Option.isSome_map]
  exact hloop.resolve_right fun h => by cases h.2

/-! ## Runs -/

theorem quiet_new : Quiet .new :=
  ⟨⟨by simp [World.new], by simp [World.new], by simp [World.new], by simp [World.new]⟩,
    by simp [World.new]⟩

theorem Call.step_quiet {c : Call} {ps : List Poll} {w w' : World} (hw : Quiet w)
    (h : c.step ps w = some w') : Quiet w' := by
  cases c with
  | waitReady ns timeout =>
    obtain ⟨⟨o, w₁, ps₁⟩, h₁, rfl⟩ := Option.map_eq_some_iff.mp h
    obtain ⟨⟨bs, hbs, -⟩, -⟩ := waitReady_spec hw h₁
    exact hbs.toQuiet
  | setOperationTimeout timeout =>
    cases h; exact ⟨hw.toInv.withImpl _, hw.ready⟩
  | data op =>
    obtain ⟨⟨o, w₁, ps₁⟩, h₁, rfl⟩ := Option.map_eq_some_iff.mp h
    rw [DataOp.exec_eq] at h₁
    exact (operation_spec op.ackFn_ne hw h₁).1

/-- Between two calls only readiness acks are outstanding. -/
theorem reach_quiet {w : World} (h : sys.Reach Sys.always w) : Quiet w :=
  h.invariant (I := Quiet) quiet_new fun _ _ _ hq _ hst => Call.step_quiet hq hst

/-- **Data operations.** In every run, a data operation that returns or throws has registered its
ack `w.nextAck + 1` for its own request. That ack was invoked once, with `a`, in the last batch `b`
of the call. The outcome is the one that `a` decides if and only if the last ack of `b` is
invoked with an error code that throws the same exception as that of `a` does, or none if it throws
none. -/
theorem dataOp_outcome {w w' : World} (hw : sys.Reach Sys.always w) {op : DataOp}
    {ps ps' : List Poll} {o : Outcome} (h : op.exec ps w = some (o, w', ps')) :
    ∃ b a, w'.requests = w.requests ++
        [(w.nextAck, .waitReadyAsync op.namespaceOf), (w.nextAck + 1, op.request)] ∧
      w'.handled.getLast? = some b ∧ (w.nextAck + 1, a) ∈ b ∧
      (w'.handled.flatten.map Prod.fst).Nodup ∧
      (o = op.ackFn.outcome a ↔ verdict (lastError b) = verdict a.error) := by
  rw [DataOp.exec_eq] at h
  obtain ⟨hq, hr, rfl, b, a, hb, ha, hle, hres⟩ := operation_spec op.ackFn_ne (reach_quiet hw) h
  refine ⟨b, a, hr, hb, ha, hq.once, ?_⟩
  rw [verifyBackendResponse_eq_iff hres, hle]

/-- A `set` whose readiness ack and own ack come in two batches. -/
theorem dataOp_outcome_set :
    ∃ b a, (World.new.request .waitReadyAck (.waitReadyAsync (str "ns"))).requests ++
        [(1, .setAsync (str "ns") OrdMap.empty)] =
          World.new.requests ++ [(0, .waitReadyAsync (str "ns")),
            (1, .setAsync (str "ns") OrdMap.empty)] ∧
      [[(0, ⟨.none, false, .empty, .empty⟩)], [(1, ⟨.none, false, .empty, .empty⟩)]].getLast? =
        some b ∧ (1, a) ∈ b ∧ ([0, 1] : List Nat).Nodup ∧
      ((.ok .unit : Outcome) = AckFn.modifyAck.outcome a ↔
        verdict (lastError b) = verdict a.error) :=
  @dataOp_outcome World.new _ .init (.set (str "ns") OrdMap.empty)
    [⟨0, none⟩, ⟨3, some [(0, ⟨.none, false, .empty, .empty⟩)]⟩,
      ⟨7, some [(1, ⟨.none, false, .empty, .empty⟩)]⟩] [] _ rfl

/-- A `set` whose readiness wait of 5 ms times out, and whose own ack says that the storage is not
connected. In the same batch the late readiness ack comes after it, and `set` returns normally. -/
theorem late_readyAck_hides_error :
    ¬ ∀ (w w' : World) (op : DataOp) (ps ps' : List Poll) (o : Outcome) (a : AckArgs),
      sys.Reach Sys.always w → op.exec ps w = some (o, w', ps') →
      (w.nextAck + 1, a) ∈ w'.handled.flatten → o = op.ackFn.outcome a := by
  intro h
  have hw : sys.Reach Sys.always (setOperationTimeout 5000000 .new) :=
    Sys.reach_run [(.setOperationTimeout 5000000, [])] rfl
  have := h _ _ (.set (str "ns") (OrdMap.empty.insert (str "key") (str "data")))
    [⟨0, none⟩, ⟨5000000, none⟩,
      ⟨0, some [(1, ⟨.dispatcher .notConnected, false, .empty, .empty⟩),
        (0, ⟨.none, false, .empty, .empty⟩)]⟩] []
    (.ok .unit) ⟨.dispatcher .notConnected, false, .empty, .empty⟩ hw rfl (.head _)
  cases this

/-- Before the timeout of a wait that has started at `start`. Without one no moment is too late. -/
def InTime (timeout start t : Int) : Prop := timeout = 0 ∨ t - start < timeout

instance (timeout start t : Int) : Decidable (InTime timeout start t) :=
  inferInstanceAs (Decidable (_ ∨ _))

/-- What a `waitReady` promises, whose own ack is `own` and in which `acks` are invoked: it returns
only if its ack is invoked with success, and throws `RejectedBySdl` if its ack is not invoked in
time. -/
structure OwnAckDecides (timeout start : Int) (own : Nat) (acks : List (Int × Nat × AckArgs))
    (o : Outcome) : Prop where
  returns : (∃ v, o = .ok v) → ∃ t a, (t, own, a) ∈ acks ∧ a.error.isError = false
  rejects : (∀ t a, (t, own, a) ∈ acks → ¬ InTime timeout start t) →
    ∃ text, o = .error ⟨.rejectedBySdl, text⟩

/-- If any readiness ack is invoked, the own one is, in time, and with success if the last one
is. -/
def OwnAckComes (timeout start : Int) (own : Nat) (acks : List (Int × Nat × AckArgs)) : Prop :=
  acks ≠ [] → ∃ t a, (t, own, a) ∈ acks ∧ InTime timeout start t ∧
    ((lastError (acks.map Prod.snd)).isError = false → a.error.isError = false)

/-- What the acks of a call decide. -/
theorem ownAckDecides_iff {timeout start : Int} {own : Nat} {acks : List (Int × Nat × AckArgs)}
    {ns : Namespace} {s : Impl} (hnd : (acks.map fun x => x.2.1).Nodup)
    (hs : acks ≠ [] → s.localError = lastError (acks.map Prod.snd)) :
    OwnAckDecides timeout start own acks
        (if acks.isEmpty then .error ⟨.rejectedBySdl, readinessTimeoutText ns⟩
          else verifyBackendResponse s fun _ => .unit) ↔
      OwnAckComes timeout start own acks := by
  by_cases he : acks = []
  · subst he
    refine iff_of_true ⟨fun hret => ?_, fun _ => ⟨_, rfl⟩⟩ fun h => absurd rfl h
    obtain ⟨v, hv⟩ := hret
    cases hv
  have hone : ∀ {t t' a a'}, (t, own, a) ∈ acks → (t', own, a') ∈ acks → t = t' ∧ a = a' := by
    intro t t' a a' h h'
    cases List.inj_on_of_nodup_map hnd h h' rfl
    exact ⟨rfl, rfl⟩
  simp only [List.isEmpty_iff, he, if_false, verifyBackendResponse, hs he]
  have hne := throwExceptionForErrorCode_ne_rejectedBySdl (lastError (acks.map Prod.snd))
  cases hl : (lastError (acks.map Prod.snd)).isError with
  | false =>
    -- The call returns: its own ack has to have been invoked, in time and with success.
    simp only [Bool.false_eq_true, if_false]
    constructor
    · rintro ⟨hret, hrej⟩ -
      obtain ⟨t, a, ha, hok⟩ := hret ⟨_, rfl⟩
      refine ⟨t, a, ha, ?_, fun _ => hok⟩
      by_contra hlate
      obtain ⟨text, h⟩ := hrej fun t' a' ha' => (hone ha ha').1 ▸ hlate
      cases h
    · intro h
      obtain ⟨t, a, ha, htime, hok⟩ := h he
      exact ⟨fun _ => ⟨t, a, ha, hok hl⟩, fun hlate => absurd htime (hlate t a ha)⟩
  | true =>
    -- The call throws, and not `RejectedBySdl`: its own ack has to have been invoked in time.
    simp only [if_true]
    constructor
    · rintro ⟨-, hrej⟩ -
      by_contra hno
      push Not at hno
      obtain ⟨text, h⟩ := hrej fun t a ha htime => by
        obtain ⟨h, -⟩ := hno t a ha htime
        rw [hl] at h
        cases h
      rw [Except.error.inj h] at hne
      exact hne rfl
    · intro h
      obtain ⟨t, a, ha, htime, -⟩ := h he
      refine ⟨fun hret => ?_, fun hlate => absurd htime (hlate t a ha)⟩
      obtain ⟨v, hv⟩ := hret
      cases hv

/-- The own ack comes 300 ms after a timeout of 10 s, in a poll that has started before it: the call
returns normally. -/
example : (waitReady (str "ns") 10000000000 [⟨9900000000, none⟩,
    ⟨400000000, some [(0, ⟨.none, false, .empty, .empty⟩)]⟩] .new).map
    (fun r => r.1.isOk) = some true := by
  decide

end Sync
end Sdl
