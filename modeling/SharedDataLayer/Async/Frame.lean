import SharedDataLayer.Async.System

/-!
# What the callbacks leave alone

Only discovery makes a dispatcher, and only a callback that is posted is called on one that has been
freed: a callback of a pending command is called while its dispatcher is there, or being destroyed.

* `Within`: what holds between the states before and after a callback.
* `step_nextSelf`: no other event makes a dispatcher.
* `step_freed_iff`: the step that uses a freed dispatcher.
-/

namespace Sdl
namespace Async

open Spec Redis Hiredis

/-- No dispatcher is made, and none is used that has been freed. -/
structure Within (w w' : World) : Prop where
  nextSelf : w'.nextSelf = w.nextSelf
  freed : w'.aborted = some .useAfterFree → w.aborted = some .useAfterFree

section Callbacks

variable {cfg : Config} {env : Env} {w w' w'' : World}

theorem Within.refl : Within w w := ⟨rfl, id⟩

theorem Within.trans (h : Within w w') (h' : Within w' w'') : Within w w'' :=
  ⟨h'.nextSelf.trans h.nextSelf, fun hf => h.freed (h'.freed hf)⟩

/-- A step that concerns neither the dispatchers nor the end of the process. -/
theorem Within.of_eq (hn : w'.nextSelf = w.nextSelf) (ha : w'.aborted = w.aborted) : Within w w' :=
  ⟨hn, fun hf => ha ▸ hf⟩

/-- The same before or after a step of which it is known. -/
theorem Within.after (h : Within w' w'') (hn : w'.nextSelf = w.nextSelf)
    (ha : w'.aborted = w.aborted) : Within w w'' :=
  (Within.of_eq hn ha).trans h

theorem Within.before (h : Within w w') (hn : w''.nextSelf = w'.nextSelf)
    (ha : w''.aborted = w'.aborted) : Within w w'' :=
  h.trans (.of_eq hn ha)

/-- An abort is not the use of a freed dispatcher. -/
theorem Within.abort (w : World) (message : String) :
    Within w { w with aborted := some (.abort message) } :=
  ⟨rfl, fun hf => by cases hf⟩

theorem request_within (op : Nat) (r : Request) : Within w (request env w op r) := by
  cases r with
  | postCallback a => exact .of_eq rfl rfl
  | dispatchAsync cb ns contents =>
    simp only [request]
    split
    · exact .refl
    · exact .of_eq rfl rfl

theorem issue_within (op : Op) : Within w (issue cfg env w op) :=
  (request_within _ _).after rfl rfl

theorem issues_within (ops : List Op) : Within w (ops.foldl (issue cfg env) w) := by
  induction ops generalizing w with
  | nil => exact .refl
  | cons op ops ih => exact (issue_within op).trans ih

theorem callAck_within (op : Nat) (a : Ack) : Within w (callAck cfg env w op a) :=
  (issues_within _).after rfl rfl

theorem verifyConnectionReply_within (self : Nat) (error : ErrorCode) (reply : Reply) :
    Within w (verifyConnectionReply cfg env w self error reply) := by
  unfold verifyConnectionReply
  split
  · exact .refl
  · split
    · split
      · exact .of_eq rfl rfl
      · exact (issues_within _).after rfl rfl
      · exact .abort w _
    · exact .refl

theorem callCb_within (self : Nat) (cb : Cb ClientCb) (error : ErrorCode) (reply : Reply) :
    Within w (callCb cfg env w self cb error reply) := by
  cases cb with
  | verifyConnectionReply => exact verifyConnectionReply_within self error reply
  | client k =>
    simp only [callCb]
    split
    · exact callAck_within _ _
    · exact request_within _ _

theorem handleReply_within (cb : Nat) (error : ErrorCode) (reply : Reply) :
    Within w (handleReply cfg env w cb error reply) := by
  unfold handleReply
  split
  · exact .refl
  · split
    · exact .abort w _
    · rename_i d _ _ k _
      have hcall : Within w (callCb cfg env
        { w with dispatcher := some { d with core := d.core.completed cb } }
          d.core.self k error reply) := (callCb_within _ _ _ _).after rfl rfl
      exact hcall.before rfl rfl

theorem nullReplies_within (cbs : List Nat) : Within w (nullReplies cfg env w cbs) := by
  unfold nullReplies
  induction cbs generalizing w with
  | nil => exact .refl
  | cons cb cbs ih => exact (handleReply_within cb _ _).trans ih

theorem freeContext_within (d : Dispatcher ClientCb) : Within w (freeContext cfg env w d) := by
  have hnull : Within w (nullReplies cfg env (setFreeing w true) d.core.pending) :=
    (nullReplies_within _).after rfl rfl
  exact hnull.before rfl rfl

/-- The callbacks that a destructor calls are those of a dispatcher that is still there. -/
theorem destroy_within (old : Core ClientCb) : Within w (destroy cfg env w old) := by
  have hdrop : ∀ (l : List Nat) (p : World × Core ClientCb),
    Within p.1 (l.foldl (dropReply cfg env) p).1 := by
    intro l
    induction l with
    | nil => exact fun _ => .refl
    | cons cb l ih =>
      intro p
      refine Within.trans ?_ (ih _)
      unfold dropReply
      split
      · exact .abort p.1 _
      · exact callCb_within _ _ _ _
  unfold destroy
  split
  · exact .refl
  · exact hdrop old.pending (w, old)

theorem serviceStateChanged_freed (ok : Bool)
    (hf : (serviceStateChanged cfg env w ok).aborted = some .useAfterFree) :
    w.aborted = some .useAfterFree := by
  unfold serviceStateChanged at hf
  simp only at hf
  split at hf
  · rename_i old _
    have hd := @destroy_within cfg env
      { w with dispatcher := some (Dispatcher.new w.nextSelf ok),
               nextSelf := w.nextSelf + 1 } old.core
    exact hd.freed hf
  · exact hf

theorem serviceStateChanged_nextSelf (ok : Bool) :
    (serviceStateChanged cfg env w ok).nextSelf = w.nextSelf + 1 := by
  unfold serviceStateChanged
  simp only
  split
  · exact (destroy_within _).nextSelf
  · rfl

/-- A posted callback whose dispatcher is still there, if it uses one. -/
def Task.usable (w : World) : Task → Bool
  | .dispatcher (.callCommandCbWithError self cb _) => Async.usable w self cb
  | _ => true

theorem runTask_within {t : Task} (h : t.usable w = true) : Within w (runTask cfg env w t) := by
  cases t with
  | ack op a => exact callAck_within _ _
  | dispatcher p =>
    cases p with
    | connectAck a => exact .refl
    | callCommandCbWithError self cb e =>
      have hu : Async.usable w self cb = true := h
      rw [runTask, callCommandCbWithError, if_pos hu]
      exact callCb_within _ _ _ _

/-- The one callback that is called on a freed dispatcher. -/
theorem runTask_freed {t : Task} (h : t.usable w = false) :
    runTask cfg env w t = { w with aborted := some .useAfterFree } := by
  cases t with
  | ack op a => cases h
  | dispatcher p =>
    cases p with
    | connectAck a => cases h
    | callCommandCbWithError self cb e =>
      have hu : ¬ Async.usable w self cb = true := by
        rw [show Async.usable w self cb = false from h]
        exact Bool.false_ne_true
      rw [runTask, callCommandCbWithError, if_neg hu]

end Callbacks

/-! ## The steps -/

section Steps

variable {cfg : Config} {env : Env} {w w' : World}

/-- An event other than discovery and the posted callbacks. -/
theorem step_within {e : Event} (hd : ∀ ok, e ≠ .serviceStateChanged ok) (hp : ∀ i, e ≠ .posted i)
    (hs : step cfg w (env, e) = some w') : Within w w' := by
  cases e with
  | issue op =>
    cases hs
    exact issue_within op
  | serviceStateChanged ok => exact absurd rfl (hd ok)
  | connected =>
    obtain ⟨d, -, hs⟩ := Option.bind_eq_some_iff.mp hs
    split at hs <;> cases hs
    exact .of_eq rfl rfl
  | connectFailed =>
    obtain ⟨d, -, hs⟩ := Option.bind_eq_some_iff.mp hs
    split at hs <;> cases hs
    exact (freeContext_within _).after rfl rfl
  | reply rr =>
    obtain ⟨d, -, hs⟩ := Option.bind_eq_some_iff.mp hs
    obtain ⟨cb, -, rfl⟩ := Option.map_eq_some_iff.mp hs
    exact handleReply_within _ _ _
  | lost =>
    obtain ⟨d, -, hs⟩ := Option.bind_eq_some_iff.mp hs
    split at hs <;> cases hs
    exact (freeContext_within d).before rfl rfl
  | timer ok =>
    obtain ⟨d, -, hs⟩ := Option.bind_eq_some_iff.mp hs
    split at hs <;> cases hs <;> exact .of_eq rfl rfl
  | posted i => exact absurd rfl (hp i)

/-- No other event makes a dispatcher. -/
theorem step_nextSelf {e : Event} (hd : ∀ ok, e ≠ .serviceStateChanged ok)
    (hs : step cfg w (env, e) = some w') : w'.nextSelf = w.nextSelf := by
  by_cases hp : ∀ i, e ≠ .posted i
  · exact (step_within hd hp hs).nextSelf
  · push Not at hp
    obtain ⟨i, rfl⟩ := hp
    obtain ⟨t, -, rfl⟩ := Option.map_eq_some_iff.mp hs
    cases hu : t.usable { w with posted := w.posted.eraseIdx i } with
    | true => exact (runTask_within hu).nextSelf
    | false => rw [runTask_freed hu]

/-- The callback that the event calls, if it is a posted one. -/
def Event.task (w : World) : Event → Option Task
  | .posted i => w.posted[i]?
  | _ => none

/-- The process ends by the use of a freed dispatcher exactly when the engine calls a callback that
uses one. -/
theorem step_freed_iff {e : Event} (ha : w.aborted ≠ some .useAfterFree)
    (hs : step cfg w (env, e) = some w') :
    w'.aborted ≠ some .useAfterFree ↔ ∀ t ∈ e.task w, t.usable w = true := by
  by_cases hp : ∃ i, e = .posted i
  · obtain ⟨i, rfl⟩ := hp
    obtain ⟨t, ht, rfl⟩ := Option.map_eq_some_iff.mp hs
    have huse : t.usable { w with posted := w.posted.eraseIdx i } = t.usable w := by
      cases t with
      | ack op a => rfl
      | dispatcher p => cases p <;> rfl
    have htask : (∀ t ∈ (Event.posted i).task w, t.usable w = true) ↔ t.usable w = true := by
      rw [Event.task, ht]
      simp
    rw [htask, ← huse]
    cases hu : t.usable { w with posted := w.posted.eraseIdx i } with
    | true => exact iff_of_true (fun hf => ha ((runTask_within hu).freed hf)) rfl
    | false =>
      rw [runTask_freed hu]
      exact iff_of_false (fun h => h rfl) Bool.false_ne_true
  · push Not at hp
    have htask : e.task w = none := by
      cases e with
      | posted i => exact absurd rfl (hp i)
      | _ => rfl
    rw [htask]
    refine iff_of_true (fun hf => ha ?_) (fun t ht => by cases ht)
    by_cases hd : ∀ ok, e ≠ .serviceStateChanged ok
    · exact (step_within hd hp hs).freed hf
    · push Not at hd
      obtain ⟨ok, rfl⟩ := hd
      cases hs
      exact serviceStateChanged_freed ok hf

end Steps

end Async
end Sdl
