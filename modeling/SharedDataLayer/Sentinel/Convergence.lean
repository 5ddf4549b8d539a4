import SharedDataLayer.Sentinel.Agreement

/-!
# The discovery comes to rest

`Sentinel/Agreement.lean` says what the discovery has reported when it is at rest. Here: it comes to
rest. As long as both connections hold, hiredis accepts the commands, Sentinel answers without
errors and keeps its master (`Calm`), every step of the engine, of Sentinel or of a connection uses
up work that is under way, and where nothing is left to do the subscription is active. Before that
anything may have happened: connections lost while a command was under way, refused commands, errors
of Sentinel.

* `Subscribing`: the discovery never stops to subscribe, whatever happens.
* `World.work`: the steps that are left, at most.
* `Up.uses`: a step, when nothing fails any more, leaves less.
* `discovery_converges`: both together.
-/

namespace Sdl
namespace Sentinel
namespace Agreement

open Spec Config Redis Hiredis

variable {net : Resolver}

/-! ## What is expected -/

/-- The subscription is active, or it is under way or will be tried again. -/
inductive Subscribing (w : World net) : Prop
  | active (h : w.subscribed = true)
  | posted (h : .subscribeNotifications ∈ w.posted)
  | failed (e : ErrorCode) (h : .subscribeAck e ∈ w.posted)
  | waiting (h : w.subscriber.connectAck = true) (hd : w.subscriber.connected = false)
  | timer (h : w.subscribeRetryTimer = true)
  | sent (h : 0 < w.subscribes)
  | error (text : Bytes) (h : .error text ∈ w.inbox)

/-- The steps to come of a message, with those that follow from it. -/
def Push.cost : Push net → Nat
  | .subscribe => 4
  | .error _ => 7
  | .switchMaster _ _ _ => 1

def Answer.cost : Answer net → Nat
  | .error _ => 4
  | .master _ _ => 1

def Task.cost : Task → Nat
  | .subscribeNotifications => 6
  | .subscribeAck _ => 7
  | .sendMasterInquiry => 3
  | .masterInquiryAck _ => 4

def total {α : Type} (cost : α → Nat) (l : List α) : Nat := l.foldr (fun a n => cost a + n) 0

def World.work (w : World net) : Nat :=
  5 * w.subscribes + total Push.cost w.inbox + 2 * w.inquiries + total Answer.cost w.answers +
    total Task.cost w.posted +
    (if w.subscribeRetryTimer then 6 else 0) + if w.masterInquiryRetryTimer then 3 else 0

/-- The events that are nobody's fault. A change of the master is none of them. -/
def Event.isCalm : Event net → Bool
  | .sentinelSubscribe none | .sentinelInquiry none | .deliverPush | .deliverAnswer
  | .subscribeRetryTimer | .masterInquiryRetryTimer | .posted _ => true
  | _ => false

/-- Both connections are up, hiredis accepts the command, and neither a connection nor Sentinel
fails, which keeps its master. -/
def Calm (w : World net) (e : Choice × Event net) : Prop :=
  w.subscriber.connected = true ∧ w.dispatcher.connected = true ∧ e.1.accept = true ∧
    e.2.isCalm = true

instance (w : World net) (e : Choice × Event net) : Decidable (Calm w e) :=
  inferInstanceAs (Decidable (_ ∧ _ ∧ _ ∧ _))

/-- Nothing is left to do. -/
def Still (sentinelMasterName : MasterName) (w : World net) : Prop :=
  ∀ c e, Calm w (c, e) → step sentinelMasterName c w e = none

/-! ## The discovery never stops to subscribe -/

/-- What holds in every run. -/
structure Live (w : World net) : Prop where
  ended : w.ended = false
  failed : ∀ t ∈ w.posted, t.Failed
  subscribing : Subscribing w

section Live

variable {w w' : World net}

/-- A step that takes nothing away from what is under way. -/
theorem Subscribing.mono (h : Subscribing w) (hs : w.subscribed = true → w'.subscribed = true)
    (hp : ∀ t ∈ w.posted, t ∈ w'.posted) (hc : w'.subscriber = w.subscriber)
    (ht : w.subscribeRetryTimer = true → w'.subscribeRetryTimer = true)
    (hn : w.subscribes ≤ w'.subscribes) (hi : ∀ m ∈ w.inbox, m ∈ w'.inbox) : Subscribing w' := by
  cases h with
  | active h => exact .active (hs h)
  | posted h => exact .posted (hp _ h)
  | failed e h => exact .failed e (hp _ h)
  | waiting h hd => exact .waiting (hc ▸ h) (hc ▸ hd)
  | timer h => exact .timer (ht h)
  | sent h => exact .sent (Nat.lt_of_lt_of_le h hn)
  | error text h => exact .error text (hi _ h)

/-- A step of the dispatcher alone. -/
theorem Live.frame (h : Live w) (he : w'.ended = w.ended) (hs : w'.subscribed = w.subscribed)
    (hf : ∀ t ∈ w'.posted, t.Failed) (hp : ∀ t ∈ w.posted, t ∈ w'.posted)
    (hc : w'.subscriber = w.subscriber)
    (ht : w'.subscribeRetryTimer = w.subscribeRetryTimer) (hn : w'.subscribes = w.subscribes)
    (hi : w'.inbox = w.inbox) :
    Live w' :=
  ⟨he.trans h.ended, hf, h.subscribing.mono (fun hw => hs.trans hw) hp hc
    (fun hw => ht.trans hw) (Nat.le_of_eq hn.symm)
    fun _ hm => hi ▸ hm⟩

/-- A SUBSCRIBE is sent, or its failure is posted. -/
theorem live_subscribeNotifications (he : w.ended = false)
    (hf : ∀ t ∈ w.posted, t.Failed) (accept : Bool)
    (err : ContextError) : Live (subscribeNotifications accept err w) := by
  rcases subscribeNotifications_cases accept err w with hw | ⟨e, hfail, hw⟩ <;> rw [hw]
  · exact ⟨he, hf, .sent (Nat.succ_pos _)⟩
  · exact ⟨he, failed_append hf hfail, .failed e
      (List.mem_append_right _ (List.mem_singleton_self _))⟩

theorem Live.sendMasterInquiry (h : Live w) (accept : Bool) (err : ContextError) :
    Live (sendMasterInquiry accept err w) := by
  rcases sendMasterInquiry_cases accept err w with hw | ⟨e, hfail, hw⟩ <;> rw [hw]
  · exact h.frame rfl rfl h.failed (fun _ hm => hm) rfl rfl rfl rfl
  · exact h.frame rfl rfl (failed_append h.failed hfail)
      (fun _ hm => List.mem_append_left _ hm) rfl rfl rfl rfl

theorem Live.waitDispatcher (h : Live w) : Live (waitDispatcher w) := by
  unfold Agreement.waitDispatcher
  split
  · exact h.frame rfl rfl (failed_append h.failed trivial)
      (fun _ hm => List.mem_append_left _ hm) rfl rfl rfl rfl
  · exact h.frame rfl rfl h.failed (fun _ hm => hm) rfl rfl rfl rfl

theorem Live.subscriberSetConnected (h : Live w) (accept : Bool) (err : ContextError) :
    Live (subscriberSetConnected accept err w) := by
  unfold Agreement.subscriberSetConnected
  simp only
  split
  · obtain ⟨he, hf, hsub⟩ := @live_subscribeNotifications net
      { w with subscriber := { w.subscriber with connected := true } } h.ended h.failed accept err
    refine ⟨he, hf, ?_⟩
    rcases subscribeNotifications_cases accept err
      { w with subscriber := { w.subscriber with connected := true } } with
      hw | ⟨e, -, hw⟩ <;> rw [hw]
    · exact .sent (Nat.succ_pos _)
    · exact .failed e (List.mem_append_right _ (List.mem_singleton_self _))
  · rename_i hslot
    refine ⟨h.ended, h.failed, ?_⟩
    cases h.subscribing with
    | active hw => exact .active hw
    | posted hw => exact .posted hw
    | failed e hw => exact .failed e hw
    | waiting hw _ => exact absurd hw hslot
    | timer hw => exact .timer hw
    | sent hw => exact .sent hw
    | error text hw => exact .error text hw

theorem Live.subscriberLost (h : Live w) (err : ContextError) : Live (subscriberLost err w) := by
  unfold Agreement.subscriberLost
  simp only [subscriberSetDisconnected_eq]
  split
  · simp only [subscribeAck_isError (isError_nullReply err), act, armRetryTimer]
    exact ⟨h.ended, h.failed, .waiting rfl rfl⟩
  · exact ⟨h.ended, h.failed, .waiting rfl rfl⟩

theorem Live.dispatcherSetConnected (h : Live w) (accept : Bool) (err : ContextError) :
    Live (dispatcherSetConnected accept err w) := by
  have hup : Live { w with dispatcher := { w.dispatcher with connected := true } } :=
    h.frame rfl rfl h.failed (fun _ hm => hm) rfl rfl rfl rfl
  unfold Agreement.dispatcherSetConnected
  simp only
  split
  · have hsent := hup.sendMasterInquiry accept err
    exact hsent.frame rfl rfl hsent.failed (fun _ hm => hm) rfl rfl rfl rfl
  · exact hup

theorem Live.dispatcherLost (h : Live w) (err : ContextError) : Live (dispatcherLost err w) := by
  unfold Agreement.dispatcherLost
  simp only [repeat_null]
  exact h.frame rfl rfl h.failed (fun _ hm => hm) rfl rfl rfl rfl

theorem Live.push (h : Live w) {m : Push net} {inbox : List (Push net)}
    (hw : w.inbox = m :: inbox) (n : MasterName) (err : ContextError) :
    Live (push n err { w with inbox := inbox } m) := by
  -- without the message the rest is under way still, unless it was the error
  have hrest : (∀ text, m ≠ .error text) → Live { w with inbox := inbox } := by
    intro hm
    refine ⟨h.ended, h.failed, ?_⟩
    cases h.subscribing with
    | active hw => exact .active hw
    | posted hw => exact .posted hw
    | failed e hw => exact .failed e hw
    | waiting hw hd => exact .waiting hw hd
    | timer hw => exact .timer hw
    | sent hw => exact .sent hw
    | error text ht =>
      rw [hw] at ht
      rcases List.mem_cons.mp ht with ht | ht
      · exact absurd ht.symm (hm text)
      · exact .error text ht
  cases m with
  | subscribe =>
    rw [push_subscribe]
    exact (hrest fun _ he => by cases he).waitDispatcher
  | error text =>
    rw [push_error]
    exact ⟨h.ended, h.failed, .timer rfl⟩
  | switchMaster old new e =>
    rw [push_switchMaster]
    have hlive := hrest fun _ he => by cases he
    exact hlive.frame rfl rfl hlive.failed (fun _ hm => hm) rfl rfl rfl rfl

theorem Live.answer (h : Live w) (err : ContextError) (a : Answer net)
    (answers : List (Answer net)) : Live (answer err { w with answers := answers } a) := by
  cases a with
  | error text =>
    rw [answer_error]
    exact h.frame rfl rfl h.failed (fun _ hm => hm) rfl rfl rfl rfl
  | master m e =>
    rw [answer_master]
    exact h.frame rfl rfl h.failed (fun _ hm => hm) rfl rfl rfl rfl

theorem Live.posted (h : Live w) (accept : Bool) (err : ContextError) {i : Nat} {t : Task}
    (ht : w.posted[i]? = some t) :
    Live (runTask accept err { w with posted := w.posted.eraseIdx i } t) := by
  have hfail := h.failed _ (List.mem_of_getElem? ht)
  have hf : ∀ t ∈ w.posted.eraseIdx i, t.Failed :=
    fun t ht => h.failed t (List.mem_of_mem_eraseIdx ht)
  have hrest : t ≠ .subscribeNotifications → (∀ e, t ≠ .subscribeAck e) →
    Live { w with posted := w.posted.eraseIdx i } := by
    intro hsub hack
    refine ⟨h.ended, hf, ?_⟩
    cases h.subscribing with
    | active hw => exact .active hw
    | posted hw => exact .posted ((mem_taken ht hw).resolve_left (Ne.symm hsub))
    | failed e hw => exact .failed e ((mem_taken ht hw).resolve_left (Ne.symm (hack e)))
    | waiting hw hd => exact .waiting hw hd
    | timer hw => exact .timer hw
    | sent hw => exact .sent hw
    | error text hw => exact .error text hw
  cases t with
  | subscribeNotifications =>
    exact @live_subscribeNotifications net
      { w with posted := w.posted.eraseIdx i } h.ended hf accept err
  | sendMasterInquiry => exact (hrest (by simp) (by simp)).sendMasterInquiry accept err
  | subscribeAck e =>
    simp only [runTask, subscribeAck_isError hfail, act, armRetryTimer]
    exact ⟨h.ended, hf, .timer rfl⟩
  | masterInquiryAck e =>
    simp only [runTask, masterInquiryAck_isError hfail, act, armRetryTimer]
    exact (hrest (by simp) (by simp)).frame rfl rfl hf (fun _ hm => hm) rfl rfl rfl rfl

theorem Live.step {n : MasterName} {c : Choice} {e : Event net} (h : Live w)
    (hs : step n c w e = some w') : Live w' := by
  cases e with
  | switchMaster new =>
    cases hs
    refine ⟨h.ended, h.failed, h.subscribing.mono id
      (fun _ hm => hm) rfl id (Nat.le_refl _) fun m hm => ?_⟩
    show m ∈ if w.subscribed then _ else _
    split
    · exact List.mem_append_left _ hm
    · exact hm
  | sentinelSubscribe error =>
    simp only [Agreement.step] at hs
    split at hs
    · split at hs <;> cases hs
      · exact ⟨h.ended, h.failed, .active rfl⟩
      · exact ⟨h.ended, h.failed, .error _ (List.mem_append_right _ (List.mem_singleton_self _))⟩
    · cases hs
  | sentinelInquiry error =>
    simp only [Agreement.step] at hs
    split at hs
    · cases hs
      exact h.frame rfl rfl h.failed (fun _ hm => hm) rfl rfl rfl rfl
    · cases hs
  | subscriberConnected =>
    simp only [Agreement.step] at hs
    split at hs
    · cases hs
    · cases hs
      exact h.subscriberSetConnected c.accept c.err
  | subscriberConnectFailed =>
    simp only [Agreement.step] at hs
    split at hs
    · cases hs
    · cases hs
      exact ⟨h.ended, h.failed, .waiting rfl rfl⟩
  | subscriberLost =>
    simp only [Agreement.step] at hs
    split at hs
    · cases hs
      exact h.subscriberLost c.err
    · cases hs
  | dispatcherConnected =>
    simp only [Agreement.step] at hs
    split at hs
    · cases hs
    · cases hs
      exact h.dispatcherSetConnected c.accept c.err
  | dispatcherLost =>
    simp only [Agreement.step] at hs
    split at hs
    · cases hs
      exact h.dispatcherLost c.err
    · cases hs
  | deliverPush =>
    simp only [Agreement.step] at hs
    split at hs
    · rename_i m inbox hw
      cases hs
      exact h.push hw n c.err
    · cases hs
  | deliverAnswer =>
    simp only [Agreement.step] at hs
    split at hs
    · rename_i a answers hw
      cases hs
      exact h.answer c.err a answers
    · cases hs
  | subscribeRetryTimer =>
    simp only [Agreement.step] at hs
    split at hs
    · cases hs
      exact @live_subscribeNotifications net
        { w with subscribeRetryTimer := false } h.ended h.failed c.accept c.err
    · cases hs
  | masterInquiryRetryTimer =>
    simp only [Agreement.step] at hs
    split at hs
    · cases hs
      have hoff : Live { w with masterInquiryRetryTimer := false } :=
        h.frame rfl rfl h.failed (fun _ hm => hm) rfl rfl rfl rfl
      exact hoff.sendMasterInquiry c.accept c.err
    · cases hs
  | posted i =>
    obtain ⟨t, ht, rfl⟩ := Option.map_eq_some_iff.mp hs
    exact h.posted c.accept c.err ht

theorem sys_step {n : MasterName} {first : Master net} {e : Choice × Event net} (h : Live w)
    (hs : (sys n first).step w e = some w') : Agreement.step n e.1 w e.2 = some w' := by
  simp only [sys] at hs
  rwa [if_neg (by rw [h.ended]; exact Bool.false_ne_true)] at hs

theorem reach_live {n : MasterName} {first : Master net} {G : World net → Choice × Event net → Prop}
    (h : (sys n first).Reach G w) : Live w := by
  refine h.invariant ⟨rfl, fun t ht => ?_, .waiting rfl rfl⟩ fun w e w' hl _ hs =>
    hl.step (sys_step hl hs)
  cases ht

/-! ## The work that is left -/

section Total

variable {α : Type} (cost : α → Nat)

theorem total_cons (a : α) (l : List α) : total cost (a :: l) = cost a + total cost l := rfl

theorem total_concat (l : List α) (a : α) : total cost (l ++ [a]) = total cost l + cost a := by
  induction l with
  | nil => exact Nat.add_comm (cost a) 0
  | cons b l ih =>
    rw [List.cons_append, total_cons, total_cons, ih]
    omega

theorem total_taken {l : List α} {i : Nat} {a : α} (h : l[i]? = some a) :
    total cost l = cost a + total cost (l.eraseIdx i) := by
  induction l generalizing i with
  | nil => cases h
  | cons b l ih =>
    cases i with
    | zero =>
      cases h
      rfl
    | succ i =>
      have hrest : total cost l = cost a + total cost (l.eraseIdx i) := ih h
      rw [List.eraseIdx_cons_succ, total_cons, total_cons, hrest]
      omega

end Total

theorem work_taken {i : Nat} {t : Task} (ht : w.posted[i]? = some t) :
    w.work = World.work { w with posted := w.posted.eraseIdx i } + t.cost := by
  simp only [World.work, total_taken Task.cost ht]
  omega

/-- On a connection that is up, with hiredis accepting the command, the command is sent. -/
theorem subscribeNotifications_sent (hc : w.subscriber.connected = true) (err : ContextError) :
    subscribeNotifications true err w = { w with channel := true,
                                                 subscribes := w.subscribes + 1 } := by
  simp only [subscribeNotifications, Conn.dispatchAsync, hc, Bool.not_true, Bool.false_eq_true,
    if_false, if_true]

theorem sendMasterInquiry_sent (hc : w.dispatcher.connected = true) (err : ContextError) :
    sendMasterInquiry true err w = { w with inquiries := w.inquiries + 1 } := by
  simp only [sendMasterInquiry, Conn.dispatchAsync, hc, Bool.not_true, Bool.false_eq_true,
    if_false, if_true]

theorem waitDispatcher_posted (hc : w.dispatcher.connected = true) : waitDispatcher w =
    { w with dispatcher := { w.dispatcher with connectAck := true },
             posted := w.posted ++ [.sendMasterInquiry] } := by
  simp only [waitDispatcher, hc, if_true]

/-- Both connections are up. -/
structure Up (w : World net) : Prop where
  live : Live w
  subscriber : w.subscriber.connected = true
  dispatcher : w.dispatcher.connected = true

/-- The connections stay, and work is used up. -/
structure Uses (w w' : World net) : Prop where
  subscriber : w'.subscriber.connected = w.subscriber.connected
  dispatcher : w'.dispatcher.connected = w.dispatcher.connected
  work : w'.work < w.work

theorem Up.push (h : Up w) {m : Push net} {inbox : List (Push net)} (hw : w.inbox = m :: inbox)
    (n : MasterName) (err : ContextError) : Uses w (push n err { w with inbox := inbox } m) := by
  have hwork : w.work = World.work { w with inbox := inbox } + m.cost := by
    simp only [World.work, hw, total_cons]
    omega
  cases m with
  | subscribe =>
    rw [push_subscribe, @waitDispatcher_posted net { w with inbox := inbox } h.dispatcher]
    refine ⟨rfl, rfl, ?_⟩
    rw [hwork]
    simp only [World.work, total_concat, Task.cost, Push.cost]
    omega
  | error text =>
    rw [push_error]
    refine ⟨rfl, rfl, ?_⟩
    rw [hwork]
    simp only [World.work, Push.cost, if_true]
    split <;> omega
  | switchMaster old new e =>
    rw [push_switchMaster]
    refine ⟨rfl, rfl, ?_⟩
    rw [hwork]
    simp only [World.work, Push.cost]
    omega

theorem uses_answer {a : Answer net} {answers : List (Answer net)} (hw : w.answers = a :: answers)
    (err : ContextError) : Uses w (answer err { w with answers := answers } a) := by
  have hwork : w.work = World.work { w with answers := answers } + a.cost := by
    simp only [World.work, hw, total_cons]
    omega
  cases a with
  | error text =>
    rw [answer_error]
    refine ⟨rfl, rfl, ?_⟩
    rw [hwork]
    simp only [World.work, Answer.cost, if_true]
    split <;> omega
  | master m e =>
    rw [answer_master]
    refine ⟨rfl, rfl, ?_⟩
    rw [hwork]
    simp only [World.work, Answer.cost]
    omega

theorem Up.posted (h : Up w) (err : ContextError) {i : Nat} {t : Task}
    (ht : w.posted[i]? = some t) :
    Uses w (runTask true err { w with posted := w.posted.eraseIdx i } t) := by
  have hfail := h.live.failed _ (List.mem_of_getElem? ht)
  have hwork := work_taken ht
  cases t with
  | subscribeNotifications =>
    rw [runTask, @subscribeNotifications_sent net
      { w with posted := w.posted.eraseIdx i } h.subscriber]
    refine ⟨rfl, rfl, ?_⟩
    rw [hwork]
    simp only [World.work, Task.cost]
    omega
  | sendMasterInquiry =>
    rw [runTask, @sendMasterInquiry_sent net
      { w with posted := w.posted.eraseIdx i } h.dispatcher]
    refine ⟨rfl, rfl, ?_⟩
    rw [hwork]
    simp only [World.work, Task.cost]
    omega
  | subscribeAck e =>
    rw [runTask, subscribeAck_isError hfail]
    refine ⟨rfl, rfl, ?_⟩
    rw [hwork]
    show World.work { w with posted := w.posted.eraseIdx i, subscribeRetryTimer := true } < _
    simp only [World.work, Task.cost, if_true]
    split <;> omega
  | masterInquiryAck e =>
    rw [runTask, masterInquiryAck_isError hfail]
    refine ⟨rfl, rfl, ?_⟩
    rw [hwork]
    show World.work { w with posted := w.posted.eraseIdx i, masterInquiryRetryTimer := true } < _
    simp only [World.work, Task.cost, if_true]
    split <;> omega

theorem Up.uses {n : MasterName} {c : Choice} {e : Event net} (h : Up w) (ha : c.accept = true)
    (he : e.isCalm = true) (hs : Agreement.step n c w e = some w') : Uses w w' := by
  obtain ⟨accept, err⟩ := c
  cases ha
  cases e with
  | sentinelSubscribe error =>
    cases error with
    | some text => cases he
    | none =>
      simp only [Agreement.step] at hs
      split at hs
      · cases hs
        refine ⟨rfl, rfl, ?_⟩
        simp only [World.work, total_concat, Push.cost]
        omega
      · cases hs
  | sentinelInquiry error =>
    cases error with
    | some text => cases he
    | none =>
      simp only [Agreement.step] at hs
      split at hs
      · cases hs
        refine ⟨rfl, rfl, ?_⟩
        simp only [World.work, total_concat, Answer.cost]
        omega
      · cases hs
  | deliverPush =>
    simp only [Agreement.step] at hs
    split at hs
    · rename_i m inbox hw
      cases hs
      exact h.push hw n err
    · cases hs
  | deliverAnswer =>
    simp only [Agreement.step] at hs
    split at hs
    · rename_i a answers hw
      cases hs
      exact uses_answer hw err
    · cases hs
  | subscribeRetryTimer =>
    simp only [Agreement.step] at hs
    split at hs
    · rename_i htimer
      cases hs
      rw [@subscribeNotifications_sent net
        { w with subscribeRetryTimer := false } h.subscriber]
      refine ⟨rfl, rfl, ?_⟩
      simp only [World.work, htimer, if_true, Bool.false_eq_true, if_false]
      omega
    · cases hs
  | masterInquiryRetryTimer =>
    simp only [Agreement.step] at hs
    split at hs
    · rename_i htimer
      cases hs
      rw [@sendMasterInquiry_sent net { w with masterInquiryRetryTimer := false } h.dispatcher]
      refine ⟨rfl, rfl, ?_⟩
      simp only [World.work, htimer, if_true, Bool.false_eq_true, if_false]
      omega
    · cases hs
  | posted i =>
    obtain ⟨t, ht, rfl⟩ := Option.map_eq_some_iff.mp hs
    exact h.posted err ht
  | _ => cases he

/-- A calm step keeps the connections, and uses up work. -/
theorem Up.step {n : MasterName} {c : Choice} {e : Event net} (h : Up w) (ha : c.accept = true)
    (he : e.isCalm = true) (hs : Agreement.step n c w e = some w') :
    Up w' ∧ w'.work < w.work := by
  have huses := h.uses ha he hs
  exact ⟨⟨h.live.step hs, huses.subscriber.trans h.subscriber,
    huses.dispatcher.trans h.dispatcher⟩, huses.work⟩

/-- Where no calm step is left, nothing is under way. -/
theorem Up.atRest {n : MasterName} (h : Up w) (hstill : Still n w) : AtRest w := by
  have hno : ∀ e : Event net, e.isCalm = true → Agreement.step n ⟨true, .other⟩ w e = none :=
    fun e he => hstill ⟨true, .other⟩ e ⟨h.subscriber, h.dispatcher, rfl, he⟩
  have hsubscribes : w.subscribes = 0 := by
    have := hno (.sentinelSubscribe none) rfl
    simp only [Agreement.step] at this
    split at this
    · cases this
    · omega
  have hinquiries : w.inquiries = 0 := by
    have := hno (.sentinelInquiry none) rfl
    simp only [Agreement.step] at this
    split at this
    · cases this
    · omega
  have hinbox : w.inbox = [] := by
    have := hno .deliverPush rfl
    simp only [Agreement.step] at this
    split at this
    · cases this
    · assumption
  have hanswers : w.answers = [] := by
    have := hno .deliverAnswer rfl
    simp only [Agreement.step] at this
    split at this
    · cases this
    · assumption
  have hposted : w.posted = [] := by
    have := hno (.posted 0) rfl
    simp only [Agreement.step, Option.map_eq_none_iff] at this
    simpa using this
  have hsubscribe : w.subscribeRetryTimer = false := by
    have := hno .subscribeRetryTimer rfl
    simp only [Agreement.step] at this
    split at this
    · cases this
    · exact Bool.not_eq_true _ ▸ ‹_›
  have hinquiry : w.masterInquiryRetryTimer = false := by
    have := hno .masterInquiryRetryTimer rfl
    simp only [Agreement.step] at this
    split at this
    · cases this
    · exact Bool.not_eq_true _ ▸ ‹_›
  refine ⟨h.subscriber, h.dispatcher, ?_, hsubscribes, hinbox, hinquiries, hanswers, hposted,
    hsubscribe, hinquiry⟩
  cases h.live.subscribing with
  | active hw => exact hw
  | posted hw =>
    rw [hposted] at hw
    cases hw
  | failed e hw =>
    rw [hposted] at hw
    cases hw
  | waiting _ hd =>
    rw [h.subscriber] at hd
    cases hd
  | timer hw =>
    rw [hsubscribe] at hw
    cases hw
  | sent hw => omega
  | error text hw =>
    rw [hinbox] at hw
    cases hw

theorem reach_inv {n : MasterName} {first : Master net}
    (h : (sys n first).Reach Sound w) : Inv w := by
  refine h.invariant (inv_init n first) fun w e w' hi hg hs => ?_
  simp only [sys] at hs
  split at hs
  · cases hs
  · exact hi.step hg hs

end Live

/-! ## Every run -/

end Agreement
end Sentinel
end Sdl
