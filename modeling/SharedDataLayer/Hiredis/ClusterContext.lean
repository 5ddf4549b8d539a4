import SharedDataLayer.Hiredis.ConnectOnce

/-!
# The contexts of the cluster dispatcher (`src/redis/asynchiredisclustercommanddispatcher.cpp`)

The system of `Hiredis/ConnectOnce.lean` with the contexts that `redisClusterAsyncConnect` returns
and `redisClusterAsyncFree` frees, and with the destructor. `disconnectHiredisCluster` frees the
context of a connected dispatcher only; `connect` calls it for the context that it replaces, and the
destructor for the last one.

* `Ledger`: what is known of the contexts in every run.
* `oneContext_step_iff`: which steps leave a context behind.
* `oneContext_iff`: in which runs none is.
-/

namespace Sdl
namespace Hiredis
namespace Cluster

open Spec Redis

/-- What `redisClusterAsyncConnect` returns. -/
inductive ConnectResult where
  | null
  | error
  | context
  deriving DecidableEq

/-- The contexts, in the order in which they were returned. -/
structure Contexts where
  /-- The dispatcher and the rest of its members. -/
  world : World
  acc : Option Nat
  created : Nat
  freed : List Nat
  destroyed : Bool

namespace Contexts

/-- `redisClusterAsyncFree(acc)`. -/
def redisClusterAsyncFree (s : Contexts) : Contexts := { s with freed := s.freed ++ s.acc.toList }

/-- `disconnectHiredisCluster`. Freeing the context completes its commands with the error `err`. -/
def disconnect (s : Contexts) (err : ContextError) : Contexts :=
  let s := if s.world.acks.core.serviceState = .connected then s.redisClusterAsyncFree else s
  { s with world := disconnectHiredisCluster s.world err }

/-- `redisClusterAsyncConnect`. -/
def redisClusterAsyncConnect (s : Contexts) : ConnectResult → Contexts
  | .null => { s with acc := none }
  | .error | .context => { s with acc := some s.created, created := s.created + 1 }

/-- `connect`. -/
def connect (s : Contexts) (result : ConnectResult) (accept : Bool)
    (err : ContextError) : Contexts :=
  let s := (s.disconnect err).redisClusterAsyncConnect result
  match result with
  | .context => { s with world := verifyConnection s.world accept err }
  | _ => { s with world := { s.world with timer := true } }

end Contexts

inductive ContextEvent where
  /-- An event of the dispatcher other than the retry timer. -/
  | dispatcher (e : Event)
  /-- The retry timer: `connect`. -/
  | timer (result : ConnectResult) (accept : Bool) (err : ContextError)
  /-- The destructor. -/
  | destroy (err : ContextError)

def Event.isTimer : Event → Bool
  | .timer .. => true
  | _ => false

def Contexts.step (s : Contexts) : ContextEvent → Option Contexts
  | .dispatcher e => if e.isTimer then none
    else (Cluster.step s.world e).map fun w => { s with world := w }
  | .timer result accept err =>
    if s.world.timer then some (({ s with world := { s.world with timer := false } } :
      Contexts).connect result accept err)
    else none
  | .destroy err => some { s.disconnect err with destroyed := true }

/-- The dispatcher after its constructor. -/
def contextSys (result : ConnectResult) (accept : Bool) (err : ContextError) :
    Sys Contexts ContextEvent where
  init := ({ world := ⟨Acks.new, false, false⟩, acc := none, created := 0, freed := [],
             destroyed := false } : Contexts).connect
    result accept err
  step s e := if s.world.aborted || s.destroyed then none else s.step e

/-- The context was returned and has not been freed. -/
def Contexts.Live (s : Contexts) (i : Nat) : Prop := i < s.created ∧ i ∉ s.freed

/-- There is at most one context, the current one; none is freed twice, and none is left by the
destructor. -/
structure OneContext (s : Contexts) : Prop where
  current : ∀ i, s.Live i → s.acc = some i
  freedOnce : s.freed.Nodup
  noneLeft : s.destroyed = true → ∀ i, ¬ s.Live i

/-- The dispatcher is connected again or destroyed only if it has no context, or is connected. -/
def ContextFreed (s : Contexts) : ContextEvent → Prop
  | .dispatcher _ => True
  | .timer .. | .destroy _ => s.acc = none ∨ s.world.acks.core.serviceState = .connected

/-! ## The contexts in every run -/

/-- Contexts that were freed have been returned, each is freed once, and the current one is not
freed before the dispatcher is destroyed. -/
structure Ledger (s : Contexts) : Prop where
  nodup : s.freed.Nodup
  known : ∀ i ∈ s.freed, i < s.created
  acc : ∀ i, s.acc = some i → i < s.created ∧ (s.destroyed = false → i ∉ s.freed)

namespace Ledger

variable {s : Contexts}

theorem disconnect_fields (s : Contexts) (err : ContextError) :
    (s.disconnect err).acc = s.acc ∧ (s.disconnect err).created = s.created ∧
    (s.disconnect err).destroyed = s.destroyed ∧
      (s.disconnect err).freed =
        if s.world.acks.core.serviceState = .connected then s.freed ++ s.acc.toList
        else s.freed := by
  unfold Contexts.disconnect Contexts.redisClusterAsyncFree
  split <;> exact ⟨rfl, rfl, rfl, rfl⟩

/-- A context is live after `disconnect` if it was, and is not the current one of a connected
dispatcher. -/
theorem live_disconnect (err : ContextError) (i : Nat) : (s.disconnect err).Live i ↔
    s.Live i ∧ ¬ (s.world.acks.core.serviceState = .connected ∧ s.acc = some i) := by
  obtain ⟨-, hcreated, -, hfreed⟩ := disconnect_fields s err
  unfold Contexts.Live
  rw [hcreated, hfreed]
  by_cases hc : s.world.acks.core.serviceState = .connected
  · simp only [hc, if_true, List.mem_append, Option.mem_toList, true_and]
    tauto
  · simp [hc]

theorem disconnect_nodup (h : Ledger s) (hd : s.destroyed = false) (err : ContextError) :
    (s.disconnect err).freed.Nodup ∧ ∀ i ∈ (s.disconnect err).freed, i < s.created := by
  rw [(disconnect_fields s err).2.2.2]
  split
  · cases hacc : s.acc with
    | none =>
      rw [Option.toList_none, List.append_nil]
      exact ⟨h.nodup, h.known⟩
    | some i =>
      obtain ⟨hlt, hfree⟩ := h.acc i hacc
      rw [Option.toList_some]
      constructor
      · rw [List.nodup_append]
        refine ⟨h.nodup, List.nodup_singleton i, fun a ha b hb he => ?_⟩
        rw [List.mem_singleton.mp hb] at he
        exact hfree hd (he ▸ ha)
      · intro j hj
        rcases List.mem_append.mp hj with hj | hj
        · exact h.known j hj
        · rw [List.mem_singleton.mp hj]
          exact hlt
  · exact ⟨h.nodup, h.known⟩

/-- What `connect` leaves: the contexts of `disconnect`, and a new one unless it is null. -/
theorem connect_fields (s : Contexts) (result : ConnectResult) (accept : Bool)
    (err : ContextError) :
    (s.connect result accept err).freed = (s.disconnect err).freed ∧
    (s.connect result accept err).destroyed = s.destroyed ∧
    ((s.connect result accept err).acc = none ∧ (s.connect result accept err).created = s.created ∨
      (s.connect result accept err).acc = some s.created ∧
      (s.connect result accept err).created = s.created + 1) := by
  obtain ⟨-, hcreated, hdestroyed, -⟩ := disconnect_fields s err
  unfold Contexts.connect Contexts.redisClusterAsyncConnect
  cases result with
  | null => exact ⟨rfl, hdestroyed, .inl ⟨rfl, hcreated⟩⟩
  | error => exact ⟨rfl, hdestroyed, .inr ⟨congrArg some hcreated, congrArg (· + 1) hcreated⟩⟩
  | context => exact ⟨rfl, hdestroyed, .inr ⟨congrArg some hcreated, congrArg (· + 1) hcreated⟩⟩

theorem connect (h : Ledger s) (hd : s.destroyed = false) (result : ConnectResult) (accept : Bool)
    (err : ContextError) :
    Ledger (s.connect result accept err) := by
  obtain ⟨hfreed, -, hacc⟩ := connect_fields s result accept err
  obtain ⟨hnodup, hknown⟩ := disconnect_nodup h hd err
  rw [← hfreed] at hnodup hknown
  rcases hacc with ⟨hacc, hcreated⟩ | ⟨hacc, hcreated⟩
  · refine ⟨hnodup, fun i hi => ?_, fun i hi => ?_⟩
    · rw [hcreated]
      exact hknown i hi
    · rw [hacc] at hi
      cases hi
  · refine ⟨hnodup, fun i hi => ?_, fun i hi => ?_⟩
    · have := hknown i hi
      omega
    · rw [hacc] at hi
      cases hi
      refine ⟨by omega, fun _ hm => ?_⟩
      have := hknown _ hm
      omega

theorem destroy (h : Ledger s) (hd : s.destroyed = false) (err : ContextError) :
    Ledger { s.disconnect err with destroyed := true } := by
  obtain ⟨hnodup, hknown⟩ := disconnect_nodup h hd err
  obtain ⟨hacc, hcreated, -, -⟩ := disconnect_fields s err
  refine ⟨hnodup, fun i hi => ?_, fun i hi => ⟨?_, fun hf => by cases hf⟩⟩
  · rw [show ({ s.disconnect err with destroyed := true } : Contexts).created =
      s.created from hcreated]
    exact hknown i hi
  · rw [show ({ s.disconnect err with destroyed := true } : Contexts).created =
      s.created from hcreated]
    exact (h.acc i (hacc ▸ hi)).1

end Ledger

/-- The events that do not end in the destructor or the retry timer leave the contexts alone. -/
theorem step_cases {s s' : Contexts} {e : ContextEvent} (h : s.step e = some s') :
    (∃ e' w, e = .dispatcher e' ∧ s' = { s with world := w }) ∨
    (∃ result accept err, e = .timer result accept err ∧
      s' = ({ s with world := { s.world with timer := false } } : Contexts).connect
      result accept err) ∨
    ∃ err, e = .destroy err ∧ s' = { s.disconnect err with destroyed := true } := by
  cases e with
  | dispatcher e' =>
    simp only [Contexts.step] at h
    split at h
    · cases h
    · obtain ⟨w, -, rfl⟩ := Option.map_eq_some_iff.mp h
      exact .inl ⟨e', w, rfl, rfl⟩
  | timer result accept err =>
    simp only [Contexts.step] at h
    split at h
    · cases h
      exact .inr (.inl ⟨result, accept, err, rfl, rfl⟩)
    · cases h
  | destroy err =>
    cases h
    exact .inr (.inr ⟨err, rfl, rfl⟩)

theorem Ledger.step {s s' : Contexts} {e : ContextEvent} (h : Ledger s) (hd : s.destroyed = false)
    (hst : s.step e = some s') : Ledger s' := by
  rcases step_cases hst with ⟨e', w, -, rfl⟩ | ⟨result, accept, err, -, rfl⟩ | ⟨err, -, rfl⟩
  · exact ⟨h.nodup, h.known, h.acc⟩
  · exact Ledger.connect (s := { s with world := { s.world with timer := false } })
      ⟨h.nodup, h.known, h.acc⟩ hd result accept err
  · exact h.destroy hd err

/-! ## The steps that leave a context behind -/

section Left

variable {s : Contexts}

/-- `disconnect` frees the only context exactly if there is none, or the dispatcher is connected. -/
theorem disconnect_none_iff (h : OneContext s) (hl : Ledger s) (hd : s.destroyed = false)
    (err : ContextError) :
    (∀ i, ¬ (s.disconnect err).Live i) ↔
    s.acc = none ∨ s.world.acks.core.serviceState = .connected := by
  constructor
  · intro hnone
    by_contra hleft
    push Not at hleft
    obtain ⟨i, hi⟩ := Option.ne_none_iff_exists'.mp hleft.1
    obtain ⟨hlt, hfree⟩ := hl.acc i hi
    exact hnone i ((Ledger.live_disconnect err i).mpr ⟨⟨hlt, hfree hd⟩, fun hc => hleft.2 hc.1⟩)
  · intro hguard i hi
    obtain ⟨hlive, hkept⟩ := (Ledger.live_disconnect err i).mp hi
    have hacc := h.current i hlive
    rcases hguard with hnone | hconn
    · rw [hnone] at hacc
      cases hacc
    · exact hkept ⟨hconn, hacc⟩

/-- After `connect` there is no other context exactly if `disconnect` has left none. -/
theorem connect_oneContext_iff (hl : Ledger s) (hd : s.destroyed = false) (result : ConnectResult)
    (accept : Bool) (err : ContextError) :
    OneContext (s.connect result accept err) ↔ ∀ i, ¬ (s.disconnect err).Live i := by
  obtain ⟨hfreed, hdestroyed, hacc⟩ := Ledger.connect_fields s result accept err
  have hcreated := (Ledger.disconnect_fields s err).2.1
  constructor
  · intro h i hi
    have hlt : i < s.created := hcreated ▸ hi.1
    have hlive : (s.connect result accept err).Live i := by
      refine ⟨?_, hfreed ▸ hi.2⟩
      rcases hacc with ⟨-, hc⟩ | ⟨-, hc⟩ <;> omega
    -- The context is not the new one.
    have hcur := h.current i hlive
    rcases hacc with ⟨hnone, -⟩ | ⟨hnew, -⟩
    · rw [hnone] at hcur
      cases hcur
    · rw [hnew] at hcur
      cases hcur
      omega
  · intro hnone
    refine ⟨fun i hi => ?_, (hl.connect hd result accept err).nodup, fun hf => ?_⟩
    · by_cases hlt : i < s.created
      · exact absurd ⟨hcreated ▸ hlt, hfreed ▸ hi.2⟩ (hnone i)
      · have hi' := hi.1
        rcases hacc with ⟨-, hc⟩ | ⟨hnew, hc⟩
        · omega
        · rw [hnew]
          exact congrArg some (by omega)
    · rw [hdestroyed, hd] at hf
      cases hf

theorem oneContext_step_iff {s' : Contexts} {e : ContextEvent} (h : OneContext s) (hl : Ledger s)
    (hd : s.destroyed = false) (hst : s.step e = some s') : OneContext s' ↔ ContextFreed s e := by
  rcases step_cases hst with ⟨e', w, rfl, rfl⟩ | ⟨result, accept, err, rfl, rfl⟩ | ⟨err, rfl, rfl⟩
  · exact iff_of_true ⟨h.current, h.freedOnce, h.noneLeft⟩ trivial
  · have hl' : Ledger { s with world := { s.world with timer := false } } :=
      ⟨hl.nodup, hl.known, hl.acc⟩
    have h' : OneContext { s with world := { s.world with timer := false } } :=
      ⟨h.current, h.freedOnce, h.noneLeft⟩
    rw [connect_oneContext_iff hl' hd]
    exact disconnect_none_iff h' hl' hd err
  · refine Iff.trans ⟨fun h' => h'.noneLeft rfl, fun hnone => ?_⟩ (disconnect_none_iff h hl hd err)
    exact ⟨fun i hi => absurd hi (hnone i), (hl.destroy hd err).nodup, fun _ => hnone⟩

end Left

/-- **One live cluster context.** For every result of the first `connect`, the dispatcher has at
most its current context in every state of a run, frees none twice and leaves none behind, exactly
if in each step of the run that connects again or destroys the dispatcher it has no context or is
connected. -/
theorem oneContext_iff (result : ConnectResult) (accept : Bool) (err : ContextError)
    (es : List ContextEvent) :
    (contextSys result accept err).Holds OneContext (contextSys result accept err).init es ↔
      (contextSys result accept err).Meets ContextFreed (contextSys result accept err).init es := by
  let start : Contexts := { world := ⟨Acks.new, false, false⟩, acc := none, created := 0,
                            freed := [], destroyed := false }
  have hstart : Ledger start := by
    refine ⟨List.nodup_nil, fun i hi => ?_, fun i hi => ?_⟩
    · cases hi
    · cases hi
  have hledger : Ledger (contextSys result accept err).init := hstart.connect rfl result accept err
  have hinit : OneContext (contextSys result accept err).init := by
    refine (connect_oneContext_iff hstart rfl result accept err).mpr fun i hi => ?_
    have hlt := hi.1
    rw [(Ledger.disconnect_fields start err).2.1] at hlt
    exact absurd hlt (Nat.not_lt_zero i)
  -- A step is possible only before the dispatcher is destroyed.
  have hstep : ∀ {s s' : Contexts} {e : ContextEvent},
    (contextSys result accept err).step s e = some s' →
      s.destroyed = false ∧ s.step e = some s' := by
    intro s s' e hst
    simp only [contextSys] at hst
    split at hst
    · cases hst
    · rename_i hgo
      rw [Bool.or_eq_true, not_or] at hgo
      exact ⟨by simpa using hgo.2, hst⟩
  have hkeep : ∀ s e s', Ledger s → (contextSys result accept err).step s e = some s' → Ledger s' :=
    fun s e s' hl hst => hl.step (hstep hst).1 (hstep hst).2
  rw [← Sys.holds_and_iff hkeep hledger]
  refine Sys.holds_iff_meets (fun s e s' ⟨h, hl⟩ hst => ?_) ⟨hinit, hledger⟩ es
  obtain ⟨hd, hst⟩ := hstep hst
  rw [and_iff_left (hl.step hd hst)]
  exact oneContext_step_iff h hl hd hst

/-- The verification fails and the retry timer connects again. -/
def retryAfterFailedVerification : List ContextEvent :=
  [.dispatcher (.reply 0 (some (.error (str "LOADING Redis is loading the dataset in memory")))
    .other 0), .timer .context true .other, .destroy .other]

/-- Two contexts are left, of which none is ever freed. -/
theorem retry_leaves_contexts :
    (∃ s, (contextSys .context true .other).Reach Sys.always s ∧ s.created = 2 ∧ s.freed = [] ∧
      s.destroyed = true) ∧
    ¬ ∀ result accept err s, (contextSys result accept err).Reach Sys.always s → OneContext s := by
  obtain ⟨s, hs, hv⟩ := Sys.reach_run_map (S := contextSys .context true .other) (G := Sys.always)
    retryAfterFailedVerification (fun s => (s.created, s.freed, s.destroyed)) (b := (2, [], true))
      (by decide +kernel)
  simp only [Prod.mk.injEq] at hv
  refine ⟨⟨s, hs, hv⟩, fun h => ?_⟩
  have hlive : s.Live 0 := by
    unfold Contexts.Live
    rw [hv.1, hv.2.1]
    decide
  exact (h _ _ _ s hs).noneLeft hv.2.2 0 hlive

end Cluster
end Hiredis
end Sdl
