import SharedDataLayer.Sentinel.Address
import SharedDataLayer.Spec.Sys

/-!
# Whose master is reported

One Sentinel may monitor several masters, and the channel `+switch-master` carries the notifications
of all of them. The inquiry is keyed by the configured `sentinelMasterName`; the parser of the
notifications does not look at the name.

The messages here are arbitrary: any reply, error reply or null reply on either connection, in any
order. Where a message gives a host and a port, they are such as Sentinel has (`Standard`).

* `notification`, `masterAddress`: what a message says, in its own terms.
* `subscribeAck_stateChanged`, `masterInquiryAck_stateChanged`: what the acks make of it.
* `SentinelMessage.Reports`: the address that Sentinel means, which is not always the one that the
  parser reads (`Sentinel/Address.lean`).
* `master_isolation_iff`: only addresses of the configured master are passed on, exactly if no
  notification for another master announces an address that was not reported for the configured one,
  and none is misread.
-/

namespace Sdl
namespace Sentinel

open Spec Config Redis Hiredis

/-! ## What the messages say -/

/-- A `+switch-master` message: the name of a master, and its new host and port. -/
def notification : Option RedisReply → Option (Bytes × Bytes × Bytes)
  | some (.reply (.array (.string kind :: _ :: .string text :: _))) =>
    if kind = str "message" then
      match text.splitOn (chr ' ') with
      | [name, _, _, host, port] => some (name, host, port)
      | _ => none
    else none
  | _ => none

/-- The reply to an inquiry: the host and the port of the master. -/
def masterAddress : Option RedisReply → Option (Bytes × Bytes)
  | some (.reply (.array (.string host :: .string port :: _))) => some (host, port)
  | _ => none

/-- The command of `sendMasterInquiry`. -/
def sendMasterInquiry (sentinelMasterName : Bytes) : List Bytes :=
  [str "SENTINEL", str "get-master-addr-by-name", sentinelMasterName]

/-- The name that an inquiry is about. -/
def inquiredName (command : List Bytes) : Option Bytes := command[2]?

section Messages

variable {net : Resolver}

/-- Only a reply that is not an error is parsed. -/
theorem stateChanged_reply {ack : ErrorCode → Reply → Except OutOfBounds Action}
    (hack : ∀ error reply, error.isError = true → ack error reply = .ok .armRetryTimer)
    (err : ContextError) (rr : Option RedisReply) (info : DatabaseInfo) :
    ack (getRedisError err rr) (asyncRedisReply rr) = .ok (.stateChanged info) ↔
      ∃ r, rr = some (.reply r) ∧ ack .none r = .ok (.stateChanged info) := by
  by_cases he : (getRedisError err rr).isError = true
  · rw [hack _ _ he]
    refine iff_of_false (fun h => (by cases h)) ?_
    rintro ⟨r, hr, -⟩
    exact (getRedisError_isError err rr).mp he r hr
  · rw [getRedisError_isError] at he
    push Not at he
    obtain ⟨r, rfl⟩ := he
    constructor
    · exact fun h => ⟨r, rfl, h⟩
    · rintro ⟨r', hr, h⟩
      cases hr
      exact h

theorem subscribeAck_stateChanged (err : ContextError) (rr : Option RedisReply)
    (info : DatabaseInfo) :
    subscribeAck net (getRedisError err rr) (asyncRedisReply rr) = .ok (.stateChanged info) ↔
      ∃ name host port h, notification rr = some (name, host, port) ∧
      hostAndPort net host port = some h ∧
        info = databaseInfo h := by
  rw [stateChanged_reply fun e r he => by rw [subscribeAck, if_pos he]]
  simp only [subscribeAck_reply, parseSubscribeReply_notification, parseNotificationMessage_some]
  constructor
  · rintro ⟨r, rfl, text, h, ⟨channel, rest, rfl⟩, ⟨name, _, _, host, port, hs, hh⟩, hi⟩
    refine ⟨name, host, port, h, ?_, hh, hi⟩
    unfold notification
    simp only [hs, if_true]
  · rintro ⟨name, host, port, h, hn, hh, hi⟩
    unfold notification at hn
    split at hn
    · split at hn
      · rename_i kind channel text rest hk
        split at hn
        · rename_i name' oldHost oldPort host' port' hs
          cases hn
          exact ⟨_, rfl, text, h, ⟨channel, rest, by rw [hk]⟩, ⟨_, _, _, _, _, hs, hh⟩, hi⟩
        · cases hn
      · cases hn
    · cases hn

theorem masterInquiryAck_stateChanged (err : ContextError) (rr : Option RedisReply)
    (info : DatabaseInfo) :
    masterInquiryAck net (getRedisError err rr) (asyncRedisReply rr) = .ok (.stateChanged info) ↔
      ∃ host port h, masterAddress rr = some (host, port) ∧ hostAndPort net host port = some h ∧
        info = databaseInfo h := by
  rw [stateChanged_reply fun e r he => by rw [masterInquiryAck, if_pos he]]
  simp only [masterInquiryAck_reply, parseMasterInquiryReply_some]
  constructor
  · rintro ⟨r, rfl, h, ⟨host, port, rest, rfl, hh⟩, hi⟩
    exact ⟨host, port, h, rfl, hh, hi⟩
  · rintro ⟨host, port, h, hm, hh, hi⟩
    unfold masterAddress at hm
    split at hm
    · cases hm
      exact ⟨_, rfl, h, ⟨_, _, _, rfl, hh⟩, hi⟩
    · cases hm

end Messages

/-! ## The system -/

namespace Isolation

inductive Message where
  /-- On the connection of the subscriber. -/
  | subscriber (err : ContextError) (rr : Option RedisReply)
  /-- On the connection of the dispatcher. -/
  | inquiry (err : ContextError) (rr : Option RedisReply)

/-- What Sentinel says in a message: the name of a master, and its host and port. An inquiry was
about the name in its command. -/
def Message.announcement (sentinelMasterName : Bytes) : Message → Option (Bytes × Bytes × Bytes)
  | .subscriber _ rr => notification rr
  | .inquiry _ rr => (inquiredName (sendMasterInquiry sentinelMasterName)).bind fun name =>
      (masterAddress rr).map fun a => (name, a)

section System

variable (net : Resolver) (sentinelMasterName : Bytes)

/-- Any message, in which Sentinel reports a host and a port only as it has them. -/
structure SentinelMessage where
  message : Message
  standard : ∀ name host port, message.announcement sentinelMasterName = some (name, host, port) →
    Standard net host port

inductive Event where
  | message (m : SentinelMessage net sentinelMasterName)
  | clearStateChangedCb

/-- `passed` is what was passed to the callback. An abort or an access out of bounds ends the
process. -/
structure World where
  stateChangedCb : Bool
  passed : List DatabaseInfo
  received : List (SentinelMessage net sentinelMasterName)
  ended : Bool

variable {sentinelMasterName}

/-- The ack of a message. -/
def Message.ack : Message → Except OutOfBounds Action
  | .subscriber err rr => subscribeAck net (getRedisError err rr) (asyncRedisReply rr)
  | .inquiry err rr => masterInquiryAck net (getRedisError err rr) (asyncRedisReply rr)

variable {net}

/-- What the discovery passes on. -/
def World.act (w : World net sentinelMasterName) : Except OutOfBounds Action →
    World net sentinelMasterName
  | .ok (.stateChanged info) => if w.stateChangedCb then
    { w with passed := w.passed ++ [info] } else w
  | .ok (.abort _) => { w with ended := true }
  | .error _ => { w with ended := true }
  | .ok .waitConnected => w
  | .ok .armRetryTimer => w

variable (net sentinelMasterName) in
/-- The discovery after `setStateChangedCb`. -/
def sys : Sys (World net sentinelMasterName) (Event net sentinelMasterName) where
  init := ⟨true, [], [], false⟩
  step w e :=
    if w.ended then none
    else match e with
      | .message m => some { w.act (m.message.ack net) with received := w.received ++ [m] }
      | .clearStateChangedCb => some { w with stateChangedCb := false }

/-- Sentinel reports the address as that of the configured master. -/
def SentinelMessage.Reports (address : Bytes × Port)
    (m : SentinelMessage net sentinelMasterName) : Prop :=
  ∃ a ∈ m.message.announcement sentinelMasterName,
    a.1 = sentinelMasterName ∧ reportedAddress a.2.1 a.2.2 = some address

instance (address : Bytes × Port) (m : SentinelMessage net sentinelMasterName) :
    Decidable (m.Reports address) :=
  inferInstanceAs (Decidable (∃ a ∈ m.message.announcement sentinelMasterName, _))

/-- Every address that was passed on was reported for the configured master. -/
def World.Isolated (w : World net sentinelMasterName) : Prop :=
  ∀ info ∈ w.passed, ∀ h ∈ info.hosts, ∃ m ∈ w.received, m.Reports (pair h)

/-- An announcement that is passed on is about the configured master, or announces an address that
was reported for it before; and its host is not taken for another one together with the port. -/
def Named (w : World net sentinelMasterName) : Event net sentinelMasterName → Prop
  | .message m => w.stateChangedCb = true → ∀ name host port,
      m.message.announcement sentinelMasterName = some (name, host, port) →
      ¬ AmbiguousLiteral net host port ∧
        (name = sentinelMasterName ∨
          ∃ address ∈ reportedAddress host port, ∃ m' ∈ w.received, m'.Reports address)
  | .clearStateChangedCb => True

/-- The callback gets what the parser makes of the host and the port that are announced. -/
theorem ack_stateChanged (m : SentinelMessage net sentinelMasterName) (info : DatabaseInfo) :
    m.message.ack net = .ok (.stateChanged info) ↔ ∃ name host port h,
      m.message.announcement sentinelMasterName = some (name, host, port) ∧
        hostAndPort net host port = some h ∧ info = databaseInfo h := by
  obtain ⟨m, -⟩ := m
  cases m with
  | subscriber err rr => exact subscribeAck_stateChanged err rr info
  | inquiry err rr =>
    refine (masterInquiryAck_stateChanged err rr info).trans ⟨?_, ?_⟩
    · rintro ⟨host, port, h, hm, hh, hi⟩
      refine ⟨sentinelMasterName, host, port, h, ?_, hh, hi⟩
      simp only [Message.announcement, hm]
      rfl
    · rintro ⟨name, host, port, h, hm, hh, hi⟩
      refine ⟨host, port, h, ?_, hh, hi⟩
      obtain ⟨a, ha, he⟩ := Option.map_eq_some_iff.mp hm
      cases he
      exact ha

/-- A message passes on the address that it announces, if the callback is set. -/
theorem mem_act_passed (w : World net sentinelMasterName) (a : Except OutOfBounds Action)
    (info : DatabaseInfo) :
    info ∈ (w.act a).passed ↔
      info ∈ w.passed ∨ w.stateChangedCb = true ∧ a = .ok (.stateChanged info) := by
  cases a with
  | error e => simp [World.act]
  | ok a =>
    cases a with
    | stateChanged info' =>
      by_cases hw : w.stateChangedCb = true
      · simp [World.act, hw, eq_comm]
      · simp [World.act, hw]
    | _ => simp [World.act]

/-- The host and the port of a message, as Sentinel means them, are those that are passed on. -/
theorem reports_iff (hnet : StandardIPv6 net) {m : SentinelMessage net sentinelMasterName}
    {name host port : Bytes}
    (hm : m.message.announcement sentinelMasterName = some (name, host, port)) {h : HostAndPort}
    (hp : hostAndPort net host port = some h) :
    m.Reports (pair h) ↔ ¬ AmbiguousLiteral net host port ∧ name = sentinelMasterName := by
  rw [← (m.standard name host port hm).pair_iff hnet hp]
  constructor
  · rintro ⟨a, ha, hn, hr⟩
    cases hm.symm.trans ha
    exact ⟨hr, hn⟩
  · rintro ⟨hr, hn⟩
    exact ⟨_, hm, hn, hr⟩

/-- No message reports what an ambiguous host is taken for: its port is 0. -/
theorem not_reports_ambiguous (hnet : StandardIPv6 net) {host port : Bytes}
    (ha : AmbiguousLiteral net host port)
    {h : HostAndPort} (hp : hostAndPort net host port = some h)
    (m : SentinelMessage net sentinelMasterName) :
    ¬ m.Reports (pair h) := by
  rintro ⟨⟨name, host', port'⟩, hm, -, hr⟩
  rw [hostAndPort_ambiguous hnet ha] at hp
  cases hp
  exact (m.standard name host' port' hm).port_ne hr rfl

/-- What a message makes the discovery pass on was reported for the configured master, with it or
before, exactly if the message is named. -/
theorem named_iff (hnet : StandardIPv6 net) (w : World net sentinelMasterName)
    (m : SentinelMessage net sentinelMasterName) :
    (w.stateChangedCb = true → ∀ info, m.message.ack net = .ok (.stateChanged info) →
      ∀ h ∈ info.hosts,
      ∃ m' ∈ w.received ++ [m], m'.Reports (pair h)) ↔ Named w (.message m) := by
  have hmem : ∀ address : Bytes × Port, (∃ m' ∈ w.received ++ [m], m'.Reports address) ↔
      m.Reports address ∨ ∃ m' ∈ w.received, m'.Reports address := by
    intro address
    simp only [List.mem_append, List.mem_singleton, or_and_right, exists_or,
      exists_eq_left, or_comm]
  refine imp_congr_right fun _ => ⟨fun hall name host port hm => ?_, fun hn info hack h hh => ?_⟩
  · have hstd := m.standard name host port hm
    obtain ⟨h, hp⟩ := hstd.parses hnet
    have hr := (hmem _).mp (hall (databaseInfo h) ((ack_stateChanged m _).mpr ⟨name, host, port,
      h, hm, hp, rfl⟩) h
      (List.mem_singleton.mpr rfl))
    have hamb : ¬ AmbiguousLiteral net host port := by
      intro ha
      rcases hr with hr | ⟨m', -, hr⟩
      · exact not_reports_ambiguous hnet ha hp m hr
      · exact not_reports_ambiguous hnet ha hp m' hr
    refine ⟨hamb, hr.imp (fun hr => ((reports_iff hnet hm hp).mp hr).2) fun hr => ?_⟩
    exact ⟨pair h, (hstd.pair_iff hnet hp).mpr hamb, hr⟩
  · obtain ⟨name, host, port, h', hm, hp, rfl⟩ := (ack_stateChanged m info).mp hack
    obtain rfl := List.mem_singleton.mp hh
    obtain ⟨hamb, hn⟩ := hn name host port hm
    refine (hmem _).mpr (hn.imp (fun hn => (reports_iff hnet hm hp).mpr ⟨hamb, hn⟩) ?_)
    rintro ⟨address, ha, hr⟩
    cases (((m.standard name host port hm).pair_iff hnet hp).mpr hamb).symm.trans ha
    exact hr

/-- Where everything so far was reported, a message keeps it so exactly if what it passes on was. -/
theorem isolated_step (hnet : StandardIPv6 net) {w w' : World net sentinelMasterName}
    {e : Event net sentinelMasterName} (hw : w.Isolated)
    (hs : (sys net sentinelMasterName).step w e = some w') :
    w'.Isolated ↔ Named w e := by
  have hs : (if w.ended then none else _) = some w' := hs
  split at hs
  · cases hs
  cases e with
  | clearStateChangedCb => cases hs; exact iff_of_true hw trivial
  | message m =>
    cases hs
    rw [← named_iff hnet]
    constructor
    · intro hi hcb info hack
      exact hi info ((mem_act_passed w _ info).mpr (.inr ⟨hcb, hack⟩))
    · intro hi info hinfo h hh
      rcases (mem_act_passed w _ info).mp hinfo with hinfo | ⟨hcb, hack⟩
      · obtain ⟨m', hm', hr⟩ := hw info hinfo h hh
        exact ⟨m', List.mem_append_left _ hm', hr⟩
      · exact hi hcb info hack h hh

end System

/-- **Isolation.** With an `inet_pton` that accepts standard texts only: for every sequence of
messages, each host with its port that the discovery passes on was reported by Sentinel for the
configured master, in every state of the run, exactly if each announcement that arrives while the
callback is set is about the configured master, or announces an address that was reported for it
before, and its host is no IPv6 address that is another one together with the port. -/
theorem master_isolation_iff (net : Resolver) (hnet : StandardIPv6 net) (sentinelMasterName : Bytes)
    (es : List (Event net sentinelMasterName)) :
    (sys net sentinelMasterName).Holds World.Isolated (sys net sentinelMasterName).init es ↔
      (sys net sentinelMasterName).Meets Named (sys net sentinelMasterName).init es :=
  Sys.holds_iff_meets (fun _ _ _ hi hs => isolated_step hnet hi hs)
    (fun info hinfo => (by cases hinfo)) es

/-- A message that is known to announce a standard host and port. -/
def SentinelMessage.announcing {net : Resolver}
    {sentinelMasterName name host port : Bytes} (m : Message)
    (h : m.announcement sentinelMasterName = some (name, host, port))
      (hs : Standard net host port) :
    SentinelMessage net sentinelMasterName where
  message := m
  standard name' host' port' h' := by
    cases h.symm.trans h'
    exact hs

/-- The inquiry is answered with an IPv6 address, which no port of five digits makes another one. -/
theorem master_isolation_loopback : ∃ m : SentinelMessage loopbackNet (str "mymaster"),
    m.message.ack loopbackNet = .ok (.stateChanged (databaseInfo ⟨str "::1",
      htons ⟨26379, by decide⟩, true⟩)) ∧
    (sys loopbackNet (str "mymaster")).Holds World.Isolated (sys loopbackNet (str "mymaster")).init
    [.message m] := by
  let m : SentinelMessage loopbackNet (str "mymaster") :=
    .announcing (.inquiry .other (some (.reply (.array [.string (str "::1"),
      .string (str "26379")])))) rfl
      ⟨.inr (by decide), ⟨26379, by decide⟩, by decide, by decide⟩
  refine ⟨m, rfl, (master_isolation_iff loopbackNet loopbackNet_standard (str "mymaster")
    [.message m]).mpr
    fun w hs => ⟨fun _ name host port h => ?_, trivial⟩⟩
  have h : some (str "mymaster", str "::1", str "26379") = some (name, host, port) := h
  obtain ⟨rfl, haddress⟩ := Prod.mk.inj (Option.some.inj h)
  obtain ⟨rfl, rfl⟩ := Prod.mk.inj haddress
  exact ⟨by decide +kernel, .inl rfl⟩

/-- Sentinel reports the master of `group-a`, and then notifies about `group-b`: the discovery of
`group-a` passes on the database of `group-b`. -/
theorem master_isolation_foreign : ¬ ∀ (net : Resolver), StandardIPv6 net →
    ∀ (sentinelMasterName : Bytes)
    (es : List (Event net sentinelMasterName)),
    (sys net sentinelMasterName).Holds World.Isolated (sys net sentinelMasterName).init es := by
  intro h
  have hi := h loopbackNet loopbackNet_standard (str "group-a")
    [.message (.announcing (.inquiry .other
      (some (.reply (.array [.string (str "10.0.0.1"), .string (str "6379")]))))
        rfl ⟨.inl (by decide), ⟨6379, by decide⟩, by decide, by decide⟩),
      .message (.announcing (.subscriber .other (some (.reply (.array [.string (str "message"),
          .string (str "+switch-master"), .string (str "group-b 10.0.1.1 6379 10.0.1.2 6379")]))))
        (show _ = some (str "group-b", str "10.0.1.2", str "6379") by decide +kernel)
        ⟨.inl (by decide), ⟨6379, by decide⟩, by decide, by decide⟩)]
  have hlast := ((hi.2 _ rfl).2 _ rfl) (databaseInfo ⟨str "10.0.1.2",
    htons ⟨6379, by decide⟩, false⟩)
    (by decide +kernel) _ (List.mem_singleton.mpr rfl)
  revert hlast
  decide +kernel

end Isolation
end Sentinel
end Sdl
