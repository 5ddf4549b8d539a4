import SharedDataLayer.Sentinel.Address
import SharedDataLayer.Spec.Sys
import SharedDataLayer.Spec.Tokens

/-!
# Agreement with Sentinel

A Sentinel whose master changes over time, and the discovery with its two connections. The
subscriber gets a notification for each change that happens while its subscription is active, in
their order. The replies to inquiries travel on the other connection, each with the master at the
moment when Sentinel processed the inquiry. Nothing orders the deliveries of one connection with
respect to the other.

The masters are numbered: `epoch` is the number of changes so far, and a message carries the epoch
of its master. The code does not see these numbers.

Of the two dispatchers (`AsyncHiredisCommandDispatcher`, used for Sentinel and so without
verification) the discovery sees whether they are connected and the slot of the connect ack, which
each of them only ever holds for one function. hiredis may refuse a command, and Sentinel may answer
with an error.

* `Fresh`: no reply to an inquiry is delivered after the notification of a later change.
* `Clear`: the host of a master that is delivered is not taken for another one together with its
  port.
* `sentinel_agreement`: in these runs the last report is the host and the port of the current master
  whenever nothing is pending.
* `sentinel_agreement_stale`: a reply that was overtaken by a notification leaves the discovery with
  the old master.
-/

namespace Sdl
namespace Sentinel
namespace Agreement

open Spec Config Redis Hiredis

/-- The name of the master; Sentinel does not allow a blank in it. -/
structure MasterName where
  name : Bytes
  no_blank : chr ' ' ∉ name

/-- A master as Sentinel knows it, by its host and its port. The parser of the discovery accepts
them, and reads `address`. -/
structure Master (net : Resolver) where
  host : Bytes
  port : Bytes
  address : HostAndPort
  host_no_blank : chr ' ' ∉ host
  port_no_blank : chr ' ' ∉ port
  parses : hostAndPort net host port = some address

section Messages

variable {net : Resolver}

/-- What the subscriber gets. -/
inductive Push (net : Resolver) where
  | subscribe
  | error (text : Bytes)
  | switchMaster (old new : Master net) (epoch : Nat)

/-- What the dispatcher gets. -/
inductive Answer (net : Resolver) where
  | error (text : Bytes)
  | master (m : Master net) (epoch : Nat)

def Push.reply (sentinelMasterName : MasterName) : Push net → RedisReply
  | .subscribe => .reply (.array [.string (str "subscribe"),
    .string (str "+switch-master"), .integer 1])
  | .error text => .error text
  | .switchMaster old new _ => .reply (.array [.string (str "message"),
    .string (str "+switch-master"),
      .string ([chr ' '].intercalate [sentinelMasterName.name, old.host, old.port,
        new.host, new.port])])

def Answer.reply : Answer net → RedisReply
  | .error text => .error text
  | .master m _ => .reply (.array [.string m.host, .string m.port])

/-- The epoch of the master that is announced. -/
def Push.epoch : Push net → Option Nat
  | .switchMaster _ _ e => some e
  | _ => none

def Answer.epoch : Answer net → Option Nat
  | .master _ e => some e
  | .error _ => none

end Messages

/-! ## The system -/

/-- A dispatcher: whether it is connected, and whether its slot holds a connect ack. -/
structure Conn where
  connected : Bool
  connectAck : Bool

/-- What is posted to the engine: the connect acks of the two dispatchers, and the acks of commands
that could not be sent. -/
inductive Task where
  | subscribeNotifications
  | sendMasterInquiry
  | subscribeAck (error : ErrorCode)
  | masterInquiryAck (error : ErrorCode)

inductive Source where
  | notification | inquiry
  deriving DecidableEq

/-- What was passed to `stateChangedCb`, with its origin. -/
structure Report where
  source : Source
  epoch : Nat
  info : DatabaseInfo

structure World (net : Resolver) where
  master : Master net
  epoch : Nat
  subscriber : Conn
  /-- Whether hiredis holds the callback of a SUBSCRIBE. -/
  channel : Bool
  /-- The SUBSCRIBE commands that Sentinel has not processed. -/
  subscribes : Nat
  subscribed : Bool
  inbox : List (Push net)
  dispatcher : Conn
  /-- The inquiries that Sentinel has not processed. -/
  inquiries : Nat
  answers : List (Answer net)
  posted : List Task
  subscribeRetryTimer : Bool
  masterInquiryRetryTimer : Bool
  reports : List Report
  ended : Bool

section Functions

variable {net : Resolver} (sentinelMasterName : MasterName) (accept : Bool) (err : ContextError)

/-- `dispatchAsync`: the error that is posted if the command is not sent. -/
def Conn.dispatchAsync (c : Conn) : Option ErrorCode :=
  if !c.connected then some (.dispatcher .notConnected)
  else if accept then none
  else some (getRedisError err none)

def subscribeNotifications (w : World net) : World net :=
  match w.subscriber.dispatchAsync accept err with
  | none => { w with channel := true, subscribes := w.subscribes + 1 }
  | some e => { w with posted := w.posted ++ [.subscribeAck e] }

def sendMasterInquiry (w : World net) : World net :=
  match w.dispatcher.dispatchAsync accept err with
  | none => { w with inquiries := w.inquiries + 1 }
  | some e => { w with posted := w.posted ++ [.masterInquiryAck e] }

/-- `dispatcher->waitConnectedAsync(sendMasterInquiry)`. -/
def waitDispatcher (w : World net) : World net :=
  { w with dispatcher := { w.dispatcher with connectAck := true },
           posted := if w.dispatcher.connected then w.posted ++ [.sendMasterInquiry] else w.posted }

/-- `subscriber->waitConnectedAsync(subscribeNotifications)`. -/
def waitSubscriber (w : World net) : World net :=
  { w with subscriber := { w.subscriber with connectAck := true },
           posted := if w.subscriber.connected then
             w.posted ++ [.subscribeNotifications] else w.posted }

/-- `setConnected` of the subscriber. -/
def subscriberSetConnected (w : World net) : World net :=
  let w := { w with subscriber := { w.subscriber with connected := true } }
  if w.subscriber.connectAck then
    let w := subscribeNotifications accept err w
    { w with subscriber := { w.subscriber with connectAck := false } }
  else w

/-- `setDisconnected` of the subscriber. Its disconnect callback waits for the next connection. -/
def subscriberSetDisconnected (w : World net) : World net :=
  waitSubscriber { w with subscriber := { w.subscriber with connected := false } }

/-- `setConnected` of the dispatcher. -/
def dispatcherSetConnected (w : World net) : World net :=
  let w := { w with dispatcher := { w.dispatcher with connected := true } }
  if w.dispatcher.connectAck then
    let w := sendMasterInquiry accept err w
    { w with dispatcher := { w.dispatcher with connectAck := false } }
  else w

/-- The retry timer of the acks of a source is armed. -/
def armRetryTimer (w : World net) : Source → World net
  | .notification => { w with subscribeRetryTimer := true }
  | .inquiry => { w with masterInquiryRetryTimer := true }

/-- The action of `subscribeAck` or `masterInquiryAck` for a message of the epoch `e`. -/
def act (w : World net) (source : Source) (e : Nat) : Except OutOfBounds Action → World net
  | .ok .waitConnected => waitDispatcher w
  | .ok (.stateChanged info) => { w with reports := w.reports ++ [⟨source, e, info⟩] }
  | .ok .armRetryTimer => armRetryTimer w source
  | .ok (.abort _) => { w with ended := true }
  | .error _ => { w with ended := true }

/-- The subscriber gets a message. -/
def push (w : World net) (m : Push net) : World net :=
  let rr := some (m.reply sentinelMasterName)
  act w .notification (m.epoch.getD 0) (Sentinel.subscribeAck net (getRedisError err rr)
    (asyncRedisReply rr))

/-- The dispatcher gets an answer. -/
def answer (w : World net) (a : Answer net) : World net :=
  let rr := some a.reply
  act w .inquiry (a.epoch.getD 0) (Sentinel.masterInquiryAck net (getRedisError err rr)
    (asyncRedisReply rr))

/-- The connection of the subscriber is lost: its callback gets a null reply. -/
def subscriberLost (w : World net) : World net :=
  let nulled :=
    if w.channel then act w .notification 0
      (Sentinel.subscribeAck net (getRedisError err none) (asyncRedisReply none))
    else w
  subscriberSetDisconnected { nulled with channel := false, subscribes := 0,
                                          subscribed := false, inbox := [] }

/-- The connection of the dispatcher is lost: each inquiry that is not answered gets a null
reply. -/
def dispatcherLost (w : World net) : World net :=
  let null (w : World net) : World net :=
    act w .inquiry 0 (Sentinel.masterInquiryAck net (getRedisError err none) (asyncRedisReply none))
  let nulled := Nat.repeat null (w.inquiries + w.answers.length) w
  { nulled with inquiries := 0, answers := [],
                dispatcher := { nulled.dispatcher with connected := false } }

/-- The engine calls a posted callback. -/
def runTask (w : World net) : Task → World net
  | .subscribeNotifications => subscribeNotifications accept err w
  | .sendMasterInquiry => sendMasterInquiry accept err w
  | .subscribeAck e => act w .notification 0 (Sentinel.subscribeAck net e .nil)
  | .masterInquiryAck e => act w .inquiry 0 (Sentinel.masterInquiryAck net e .nil)

end Functions

inductive Event (net : Resolver) where
  /-- Sentinel gets a new master. -/
  | switchMaster (new : Master net)
  /-- Sentinel processes a SUBSCRIBE or an inquiry, or answers with an error. -/
  | sentinelSubscribe (error : Option Bytes)
  | sentinelInquiry (error : Option Bytes)
  | subscriberConnected
  | subscriberConnectFailed
  | subscriberLost
  | dispatcherConnected
  | dispatcherLost
  /-- A delivery on one of the connections. -/
  | deliverPush
  | deliverAnswer
  | subscribeRetryTimer
  | masterInquiryRetryTimer
  /-- The engine calls the posted callback `i`. -/
  | posted (i : Nat)

/-- What hiredis decides during a step: whether it accepts a command, and the error of the
context. -/
structure Choice where
  accept : Bool
  err : ContextError

def step {net : Resolver} (sentinelMasterName : MasterName) (c : Choice) (w : World net) :
    Event net → Option (World net)
  | .switchMaster new => some { w with
      master := new
      epoch := w.epoch + 1
      inbox := if w.subscribed then w.inbox ++ [.switchMaster w.master new (w.epoch + 1)]
        else w.inbox }
  | .sentinelSubscribe error =>
    if 0 < w.subscribes then
      match error with
      | none => some { w with subscribes := w.subscribes - 1, subscribed := true,
                              inbox := w.inbox ++ [.subscribe] }
      | some text => some { w with subscribes := w.subscribes - 1,
                                   inbox := w.inbox ++ [.error text] }
    else none
  | .sentinelInquiry error =>
    if 0 < w.inquiries then
      let a := match error with
        | none => .master w.master w.epoch
        | some text => .error text
      some { w with inquiries := w.inquiries - 1, answers := w.answers ++ [a] }
    else none
  | .subscriberConnected =>
    if w.subscriber.connected then none else some (subscriberSetConnected c.accept c.err w)
  | .subscriberConnectFailed =>
    if w.subscriber.connected then none else some (subscriberSetDisconnected w)
  | .subscriberLost => if w.subscriber.connected then some (subscriberLost c.err w) else none
  | .dispatcherConnected =>
    if w.dispatcher.connected then none else some (dispatcherSetConnected c.accept c.err w)
  | .dispatcherLost => if w.dispatcher.connected then some (dispatcherLost c.err w) else none
  | .deliverPush =>
    match w.inbox with
    | m :: inbox => some (push sentinelMasterName c.err { w with inbox := inbox } m)
    | [] => none
  | .deliverAnswer =>
    match w.answers with
    | a :: answers => some (answer c.err { w with answers := answers } a)
    | [] => none
  | .subscribeRetryTimer =>
    if w.subscribeRetryTimer then
      some (subscribeNotifications c.accept c.err { w with subscribeRetryTimer := false })
    else none
  | .masterInquiryRetryTimer =>
    if w.masterInquiryRetryTimer then
      some (sendMasterInquiry c.accept c.err { w with masterInquiryRetryTimer := false })
    else none
  | .posted i => (w.posted[i]?).map fun t =>
    runTask c.accept c.err { w with posted := w.posted.eraseIdx i } t

/-- The discovery after `setStateChangedCb`, and Sentinel with its first master. -/
def sys {net : Resolver} (sentinelMasterName : MasterName) (first : Master net) :
    Sys (World net) (Choice × Event net) where
  init := waitSubscriber ⟨first, 0, ⟨false, false⟩, false, 0, false, [], ⟨false, false⟩, 0, [], [],
    false, false, [], false⟩
  step w e := if w.ended then none else step sentinelMasterName e.1 w e.2

/-- Both connections are up, the subscription is active and nothing is pending. -/
structure AtRest {net : Resolver} (w : World net) : Prop where
  subscriber : w.subscriber.connected = true
  dispatcher : w.dispatcher.connected = true
  subscribed : w.subscribed = true
  subscribes : w.subscribes = 0
  inbox : w.inbox = []
  inquiries : w.inquiries = 0
  answers : w.answers = []
  posted : w.posted = []
  subscribeRetryTimer : w.subscribeRetryTimer = false
  masterInquiryRetryTimer : w.masterInquiryRetryTimer = false

instance {net : Resolver} (w : World net) : Decidable (AtRest w) :=
  decidable_of_iff (w.subscriber.connected = true ∧ w.dispatcher.connected = true ∧
    w.subscribed = true ∧
      w.subscribes = 0 ∧ w.inbox.isEmpty = true ∧ w.inquiries = 0 ∧ w.answers.isEmpty = true ∧
      w.posted.isEmpty = true ∧ w.subscribeRetryTimer = false ∧
      w.masterInquiryRetryTimer = false) <| by
    simp only [List.isEmpty_iff]
    constructor
    · rintro ⟨h1, h2, h3, h4, h5, h6, h7, h8, h9, h10⟩
      exact ⟨h1, h2, h3, h4, h5, h6, h7, h8, h9, h10⟩
    · rintro ⟨h1, h2, h3, h4, h5, h6, h7, h8, h9, h10⟩
      exact ⟨h1, h2, h3, h4, h5, h6, h7, h8, h9, h10⟩

/-- The last report is the host and the port of the current master of Sentinel. -/
def Agrees {net : Resolver} (w : World net) : Prop :=
  ∃ address ∈ reportedAddress w.master.host w.master.port,
    w.reports.getLast?.map (fun r => r.info.hosts.map pair) = some [address]

/-- The epoch of the answer that an event delivers. -/
def Event.answered {net : Resolver} (w : World net) : Event net → Option Nat
  | .deliverAnswer => w.answers.head?.bind Answer.epoch
  | _ => none

/-- A reply to an inquiry is not older than a notification that was delivered before. -/
def Fresh {net : Resolver} (w : World net) (e : Choice × Event net) : Prop :=
  ∀ n ∈ e.2.answered w, ∀ r ∈ w.reports, r.source = .notification → r.epoch ≤ n

instance {net : Resolver} (w : World net) (e : Choice × Event net) : Decidable (Fresh w e) :=
  inferInstanceAs (Decidable (∀ n ∈ e.2.answered w, _))

/-- The master that an event delivers. -/
def Event.delivered {net : Resolver} (w : World net) : Event net → Option (Master net)
  | .deliverPush =>
    match w.inbox with
    | .switchMaster _ new _ :: _ => some new
    | _ => none
  | .deliverAnswer =>
    match w.answers with
    | .master m _ :: _ => some m
    | _ => none
  | _ => none

/-- A standard host and port, and the host is no IPv6 address that is another one with the port
behind it. -/
def Master.Clear {net : Resolver} (m : Master net) : Prop :=
  Standard net m.host m.port ∧ ¬ AmbiguousLiteral net m.host m.port

/-- No reply is overtaken, and no host and port that are delivered are misread. -/
def Sound {net : Resolver} (w : World net) (e : Choice × Event net) : Prop :=
  Fresh w e ∧ ∀ m ∈ e.2.delivered w, m.Clear

instance {net : Resolver} (m : Master net) : Decidable m.Clear :=
  inferInstanceAs (Decidable (_ ∧ _))

instance {net : Resolver} (w : World net) (e : Choice × Event net) : Decidable (Sound w e) :=
  inferInstanceAs (Decidable (_ ∧ ∀ m ∈ e.2.delivered w, _))

/-! ## What the acks do -/

section Acks

variable {net : Resolver}

theorem subscribeAck_isError {error : ErrorCode} (h : error.isError = true) (reply : Reply) :
    Sentinel.subscribeAck net error reply = .ok .armRetryTimer := by
  rw [Sentinel.subscribeAck, if_pos h]

theorem masterInquiryAck_isError {error : ErrorCode} (h : error.isError = true) (reply : Reply) :
    Sentinel.masterInquiryAck net error reply = .ok .armRetryTimer := by
  rw [Sentinel.masterInquiryAck, if_pos h]

/-- The notification that Sentinel sends is parsed to the address of the new master. -/
theorem subscribeAck_switchMaster (sentinelMasterName : MasterName) (err : ContextError)
    (old new : Master net) (e : Nat) :
    Sentinel.subscribeAck net (getRedisError err
      (some ((Push.switchMaster old new e).reply sentinelMasterName)))
      (asyncRedisReply (some ((Push.switchMaster old new e).reply sentinelMasterName))) =
      .ok (.stateChanged (databaseInfo new.address)) := by
  refine subscribeAck_reply.mpr ⟨_, new.address,
    parseSubscribeReply_notification.mpr ⟨_, [], rfl⟩, ?_, rfl⟩
  refine parseNotificationMessage_some.mpr ⟨_, _, _, _, _,
    List.splitOn_intercalate _ ?_ (by simp), new.parses⟩
  intro l hl
  simp only [List.mem_cons, List.not_mem_nil, or_false] at hl
  rcases hl with rfl | rfl | rfl | rfl | rfl
  · exact sentinelMasterName.no_blank
  · exact old.host_no_blank
  · exact old.port_no_blank
  · exact new.host_no_blank
  · exact new.port_no_blank

theorem masterInquiryAck_master (err : ContextError) (m : Master net) (e : Nat) :
    Sentinel.masterInquiryAck net (getRedisError err (some (Answer.master m e).reply))
      (asyncRedisReply (some (Answer.master m e).reply)) =
      .ok (.stateChanged (databaseInfo m.address)) :=
  masterInquiryAck_reply.mpr ⟨m.address,
    parseMasterInquiryReply_some.mpr ⟨_, _, [], rfl, m.parses⟩, rfl⟩

theorem push_subscribe (n : MasterName) (err : ContextError) (w : World net) :
    push n err w .subscribe = waitDispatcher w := rfl

theorem push_error (n : MasterName) (err : ContextError) (w : World net) (text : Bytes) :
    push n err w (.error text) = { w with subscribeRetryTimer := true } := by
  unfold push
  simp only [Push.reply, subscribeAck_isError (isError_errorReply err text), act, armRetryTimer]

theorem push_switchMaster (n : MasterName) (err : ContextError) (w : World net)
    (old new : Master net) (e : Nat) :
    push n err w (.switchMaster old new e) =
      { w with reports := w.reports ++ [⟨.notification, e, databaseInfo new.address⟩] } := by
  unfold push
  simp only [subscribeAck_switchMaster, act]
  rfl

theorem answer_error (err : ContextError) (w : World net) (text : Bytes) :
    answer err w (.error text) = { w with masterInquiryRetryTimer := true } := by
  unfold answer
  simp only [Answer.reply, masterInquiryAck_isError (isError_errorReply err text),
    act, armRetryTimer]

theorem answer_master (err : ContextError) (w : World net) (m : Master net) (e : Nat) :
    answer err w (.master m e) =
      { w with reports := w.reports ++ [⟨.inquiry, e, databaseInfo m.address⟩] } := by
  unfold answer
  simp only [masterInquiryAck_master, act]
  rfl

end Acks

/-! ## The invariant

Where the last report is not the current master, something will bring a newer one: the subscription
is not active, an inquiry is due, or a message with the current master is under way. -/

section Invariant

variable {net : Resolver}

/-- An inquiry is due, or is under way and not answered, or it will be sent again. -/
inductive Inquiring (w : World net) : Prop
  | posted (h : .sendMasterInquiry ∈ w.posted)
  | failed (e : ErrorCode) (h : .masterInquiryAck e ∈ w.posted)
  | waiting (h : w.dispatcher.connectAck = true) (hd : w.dispatcher.connected = false)
  | timer (h : w.masterInquiryRetryTimer = true)
  | sent (h : 0 < w.inquiries)
  | error (text : Bytes) (h : .error text ∈ w.answers)

/-- What will bring a newer report. -/
inductive Pending (w : World net) : Prop
  | unsubscribed (h : w.subscribed = false)
  | subscribe (h : .subscribe ∈ w.inbox)
  | inquiring (h : Inquiring w)
  | answer (m : Master net) (h : .master m w.epoch ∈ w.answers)
  | notification (old new : Master net) (h : .switchMaster old new w.epoch ∈ w.inbox)

/-- The last report is of the current epoch. -/
def Current (w : World net) : Prop := ∃ r, w.reports.getLast? = some r ∧ r.epoch = w.epoch

/-- A posted ack gets an error. -/
def Task.Failed : Task → Prop
  | .subscribeAck e => e.isError = true
  | .masterInquiryAck e => e.isError = true
  | _ => True

structure Inv (w : World net) : Prop where
  inbox : ∀ old new e, .switchMaster old new e ∈ w.inbox →
    e ≤ w.epoch ∧ (e = w.epoch → new = w.master)
  /-- While the subscription is active, the last notification under way is that of the current
  epoch. -/
  last : w.inbox.filterMap Push.epoch = [] ∨
    w.subscribed = true ∧ (w.inbox.filterMap Push.epoch).getLast? = some w.epoch
  answers : ∀ m e, .master m e ∈ w.answers → e ≤ w.epoch ∧ (e = w.epoch → m = w.master)
  sorted : (w.answers.filterMap Answer.epoch).Pairwise (· ≤ ·)
  reports : ∀ r ∈ w.reports, r.epoch ≤ w.epoch ∧
    (r.epoch = w.epoch → r.info = databaseInfo w.master.address ∧ w.master.Clear)
  answered : ∀ r ∈ w.reports, r.source = .inquiry →
    ∀ e ∈ w.answers.filterMap Answer.epoch, r.epoch ≤ e
  failed : ∀ t ∈ w.posted, t.Failed
  pending : Current w ∨ Pending w

/-- What the parser reads of a clear master is its host and its port. -/
theorem Master.Clear.pair_address (hnet : StandardIPv6 net) {m : Master net} (h : m.Clear) :
    reportedAddress m.host m.port = some (pair m.address) :=
  (h.1.pair_iff hnet m.parses).mpr h.2

theorem Inv.agrees (hnet : StandardIPv6 net) {w : World net} (h : Inv w)
    (hr : AtRest w) : Agrees w := by
  have hc : Current w := by
    refine h.pending.resolve_right ?_
    rintro (hs | hs | (hs | ⟨e, hs⟩ | ⟨-, hs⟩ | hs | hs | ⟨t, hs⟩) | ⟨m, hs⟩ | ⟨old, new, hs⟩)
    · rw [hr.subscribed] at hs; cases hs
    · rw [hr.inbox] at hs; cases hs
    · rw [hr.posted] at hs; cases hs
    · rw [hr.posted] at hs; cases hs
    · rw [hr.dispatcher] at hs; cases hs
    · rw [hr.masterInquiryRetryTimer] at hs; cases hs
    · rw [hr.inquiries] at hs; cases hs
    · rw [hr.answers] at hs; cases hs
    · rw [hr.answers] at hs; cases hs
    · rw [hr.inbox] at hs; cases hs
  obtain ⟨r, hl, he⟩ := hc
  obtain ⟨hi, hclear⟩ := (h.reports r (List.mem_of_getLast? hl)).2 he
  refine ⟨_, hclear.pair_address hnet, ?_⟩
  rw [hl, Option.map_some, hi]
  rfl

/-- A step that concerns only the connections, the timers and what is posted. -/
theorem Inv.of_frame {w w' : World net} (h : Inv w) (hm : w'.master = w.master)
    (he : w'.epoch = w.epoch)
    (hs : w'.subscribed = w.subscribed) (hi : w'.inbox = w.inbox) (ha : w'.answers = w.answers)
    (hr : w'.reports = w.reports) (hf : ∀ t ∈ w'.posted, t.Failed)
      (hq : Inquiring w → Inquiring w') : Inv w' := by
  refine ⟨?_, ?_, ?_, ?_, ?_, ?_, hf, ?_⟩
  · rw [hi, he, hm]; exact h.inbox
  · rw [hi, he, hs]; exact h.last
  · rw [ha, he, hm]; exact h.answers
  · rw [ha]; exact h.sorted
  · rw [hr, he, hm]; exact h.reports
  · rw [hr, ha]; exact h.answered
  · refine h.pending.imp ?_ ?_
    · rw [Current, Current, hr, he]; exact id
    · rintro (h | h | h | ⟨m, h⟩ | ⟨old, new, h⟩)
      · exact .unsubscribed (hs.trans h)
      · exact .subscribe (hi ▸ h)
      · exact .inquiring (hq h)
      · exact .answer m (by rw [he, ha]; exact h)
      · exact .notification old new (by rw [he, hi]; exact h)

/-- More posted callbacks and more inquiries do not end what is pending. -/
theorem Inquiring.mono {w w' : World net} (h : Inquiring w) (hp : ∀ t ∈ w.posted, t ∈ w'.posted)
    (hd : w'.dispatcher = w.dispatcher) (ht : w.masterInquiryRetryTimer = true →
      w'.masterInquiryRetryTimer = true)
    (hi : w.inquiries ≤ w'.inquiries) (ha : w'.answers = w.answers) : Inquiring w' := by
  cases h with
  | posted h => exact .posted (hp _ h)
  | failed e h => exact .failed e (hp _ h)
  | waiting h h' => exact .waiting (hd ▸ h) (hd ▸ h')
  | timer h => exact .timer (ht h)
  | sent h => exact .sent (Nat.lt_of_lt_of_le h hi)
  | error t h => exact .error t (ha ▸ h)

/-! ## Commands and posted callbacks -/

theorem dispatchAsync_isError {c : Conn} {accept : Bool} {err : ContextError} {e : ErrorCode}
    (h : c.dispatchAsync accept err = some e) : e.isError = true := by
  unfold Conn.dispatchAsync at h
  split at h
  · cases h; rfl
  · split at h
    · cases h
    · cases h; exact isError_nullReply err

/-- What `sendMasterInquiry` changes: the inquiry is sent, or an error is posted. -/
theorem sendMasterInquiry_cases (accept : Bool) (err : ContextError) (w : World net) :
    sendMasterInquiry accept err w = { w with inquiries := w.inquiries + 1 } ∨
      ∃ e, e.isError = true ∧
        sendMasterInquiry accept err w = { w with
          posted := w.posted ++ [.masterInquiryAck e] } := by
  unfold sendMasterInquiry
  split
  · exact .inl rfl
  · exact .inr ⟨_, dispatchAsync_isError ‹_›, rfl⟩

theorem subscribeNotifications_cases (accept : Bool) (err : ContextError) (w : World net) :
    subscribeNotifications accept err w = { w with channel := true,
                                                   subscribes := w.subscribes + 1 } ∨
      ∃ e, e.isError = true ∧
        subscribeNotifications accept err w =
        { w with posted := w.posted ++ [.subscribeAck e] } := by
  unfold subscribeNotifications
  split
  · exact .inl rfl
  · exact .inr ⟨_, dispatchAsync_isError ‹_›, rfl⟩

/-- A step of the subscriber alone. -/
theorem Inquiring.of_eq {w w' : World net} (h : Inquiring w) (hp : w'.posted = w.posted)
    (hd : w'.dispatcher = w.dispatcher) (ht : w'.masterInquiryRetryTimer =
      w.masterInquiryRetryTimer)
    (hi : w'.inquiries = w.inquiries) (ha : w'.answers = w.answers) : Inquiring w' :=
  h.mono (fun _ hm => hp ▸ hm) hd (fun h => ht.trans h) (Nat.le_of_eq hi.symm) ha

theorem failed_append {w : World net} (h : ∀ t ∈ w.posted, t.Failed) {t : Task} (ht : t.Failed) :
    ∀ t' ∈ w.posted ++ [t], t'.Failed := by
  intro t' hm
  rcases List.mem_append.mp hm with hm | hm
  · exact h t' hm
  · rw [List.mem_singleton.mp hm]; exact ht

theorem Inv.subscribeNotifications {w : World net} (h : Inv w) (accept : Bool)
    (err : ContextError) :
    Inv (subscribeNotifications accept err w) := by
  rcases subscribeNotifications_cases accept err w with he | ⟨e, hf, he⟩ <;> rw [he]
  · exact h.of_frame rfl rfl rfl rfl rfl rfl h.failed fun hq => hq.of_eq rfl rfl rfl rfl rfl
  · refine h.of_frame rfl rfl rfl rfl rfl rfl (failed_append h.failed hf) fun hq => ?_
    exact hq.mono (fun t ht => List.mem_append_left _ ht) rfl id (Nat.le_refl _) rfl

/-- `sendMasterInquiry`, which is due in `w`, is called in a state `v` in which it is not due any
more. -/
theorem Inv.sendMasterInquiry {w v : World net} (h : Inv w) (accept : Bool) (err : ContextError)
    (hm : v.master = w.master) (he : v.epoch = w.epoch) (hs : v.subscribed = w.subscribed)
    (hi : v.inbox = w.inbox) (ha : v.answers = w.answers) (hr : v.reports = w.reports)
    (hf : ∀ t ∈ v.posted, t.Failed) : Inv (sendMasterInquiry accept err v) := by
  rcases sendMasterInquiry_cases accept err v with hc | ⟨e, hfe, hc⟩ <;> rw [hc]
  · exact h.of_frame hm he hs hi ha hr hf fun _ => .sent (Nat.succ_pos _)
  · exact h.of_frame hm he hs hi ha hr (failed_append hf hfe) fun _ =>
      .failed e (List.mem_append_right _ (List.mem_singleton.mpr rfl))

theorem Inv.posted_step {w : World net} (h : Inv w) (accept : Bool) (err : ContextError)
    {i : Nat} {t : Task} (ht : w.posted[i]? = some t) : Inv (runTask accept err
      { w with posted := w.posted.eraseIdx i } t) := by
  have hfail := h.failed _ (List.mem_of_getElem? ht)
  have hf : ∀ t ∈ w.posted.eraseIdx i, t.Failed :=
    fun t ht => h.failed t (List.mem_of_mem_eraseIdx ht)
  -- An inquiry that is due stays so if the task has nothing to do with it.
  have hkeep : t ≠ .sendMasterInquiry → (∀ e, t ≠ .masterInquiryAck e) →
      Inv { w with posted := w.posted.eraseIdx i } := by
    intro hsend hack
    refine h.of_frame rfl rfl rfl rfl rfl rfl hf fun hq => ?_
    cases hq with
    | posted hq => exact .posted ((mem_taken ht hq).resolve_left (Ne.symm hsend))
    | failed e hq => exact .failed e ((mem_taken ht hq).resolve_left (Ne.symm (hack e)))
    | waiting hq hd => exact .waiting hq hd
    | timer hq => exact .timer hq
    | sent hq => exact .sent hq
    | error t hq => exact .error t hq
  cases t with
  | subscribeNotifications =>
    exact (hkeep (by simp) (by simp)).subscribeNotifications accept err
  | sendMasterInquiry => exact h.sendMasterInquiry accept err rfl rfl rfl rfl rfl rfl hf
  | subscribeAck e =>
    simp only [runTask, subscribeAck_isError hfail, act, armRetryTimer]
    exact (hkeep (by simp) (by simp)).of_frame rfl rfl rfl rfl rfl rfl hf fun hq =>
      hq.of_eq rfl rfl rfl rfl rfl
  | masterInquiryAck e =>
    simp only [runTask, masterInquiryAck_isError hfail, act, armRetryTimer]
    exact h.of_frame rfl rfl rfl rfl rfl rfl hf fun _ => .timer rfl

/-! ## The connections -/

theorem Inv.dispatcherSetConnected {w : World net} (h : Inv w) (accept : Bool)
    (err : ContextError) :
    Inv (dispatcherSetConnected accept err w) := by
  unfold Agreement.dispatcherSetConnected
  simp only
  split
  · have hsent := h.sendMasterInquiry (v := { w with
      dispatcher := { w.dispatcher with connected := true } })
      accept err rfl rfl rfl rfl rfl rfl h.failed
    refine hsent.of_frame rfl rfl rfl rfl rfl rfl hsent.failed fun _ => ?_
    rcases sendMasterInquiry_cases accept err
      { w with dispatcher := { w.dispatcher with connected := true } } with
      hc | ⟨e, -, hc⟩ <;> rw [hc]
    · exact .sent (Nat.succ_pos _)
    · exact .failed e (List.mem_append_right _ (List.mem_singleton.mpr rfl))
  · rename_i hslot
    refine h.of_frame rfl rfl rfl rfl rfl rfl h.failed fun hq => ?_
    cases hq with
    | posted hq => exact .posted hq
    | failed e hq => exact .failed e hq
    | waiting hq _ => exact absurd hq hslot
    | timer hq => exact .timer hq
    | sent hq => exact .sent hq
    | error t hq => exact .error t hq

theorem Inv.subscriberSetConnected {w : World net} (h : Inv w) (accept : Bool)
    (err : ContextError) :
    Inv (subscriberSetConnected accept err w) := by
  unfold Agreement.subscriberSetConnected
  have hc : Inv { w with subscriber := { w.subscriber with connected := true } } :=
    h.of_frame rfl rfl rfl rfl rfl rfl h.failed fun hq => hq.of_eq rfl rfl rfl rfl rfl
  simp only
  split
  · have hs := hc.subscribeNotifications accept err
    exact hs.of_frame rfl rfl rfl rfl rfl rfl hs.failed fun hq => hq.of_eq rfl rfl rfl rfl rfl
  · exact hc

theorem subscriberSetDisconnected_eq (w : World net) : subscriberSetDisconnected w =
    { w with subscriber := ⟨false, true⟩ } := rfl

theorem Inv.subscriberLost {w : World net} (h : Inv w) (err : ContextError) :
    Inv (subscriberLost err w) := by
  have hlost : ∀ b, Inv { w with subscriber := ⟨false, true⟩, channel := false, subscribes := 0,
                                 subscribed := false, inbox := [], subscribeRetryTimer := b } := by
    intro b
    exact ⟨fun _ _ _ hm => (by cases hm), .inl rfl, h.answers, h.sorted, h.reports,
      h.answered, h.failed, .inr (.unsubscribed rfl)⟩
  unfold Agreement.subscriberLost
  simp only [subscriberSetDisconnected_eq]
  split
  · simp only [subscribeAck_isError (isError_nullReply err), act, armRetryTimer]
    exact hlost true
  · exact hlost w.subscribeRetryTimer

/-- The null replies arm the retry timer. -/
theorem repeat_null (err : ContextError) (w : World net) (k : Nat) :
    Nat.repeat (fun w : World net =>
        act w .inquiry 0 (Sentinel.masterInquiryAck net (getRedisError err none)
          (asyncRedisReply none))) k w =
      { w with masterInquiryRetryTimer := w.masterInquiryRetryTimer || decide (0 < k) } := by
  induction k with
  | zero => simp [Nat.repeat]
  | succ k ih =>
    rw [Nat.repeat, ih]
    simp only [masterInquiryAck_isError (isError_nullReply err), act, armRetryTimer]
    simp

theorem Inv.dispatcherLost {w : World net} (h : Inv w) (err : ContextError) :
    Inv (dispatcherLost err w) := by
  unfold Agreement.dispatcherLost
  simp only [repeat_null]
  refine ⟨h.inbox, h.last, fun _ _ hm => (by cases hm), List.Pairwise.nil, h.reports,
    fun _ _ _ e he => (by cases he), h.failed, ?_⟩
  refine h.pending.imp id fun hp => ?_
  have hlost : 0 < w.inquiries ∨ w.answers ≠ [] →
      (w.masterInquiryRetryTimer || decide (0 < w.inquiries + w.answers.length)) = true := by
    intro hpos
    have : 0 < w.inquiries + w.answers.length := by
      rcases hpos with hpos | hpos
      · omega
      · have := List.length_pos_iff.mpr hpos
        omega
    simp [this]
  cases hp with
  | unsubscribed hp => exact .unsubscribed hp
  | subscribe hp => exact .subscribe hp
  | answer m hp => exact .inquiring (.timer (hlost (.inr (List.ne_nil_of_mem hp))))
  | notification old new hp => exact .notification old new hp
  | inquiring hp =>
    refine .inquiring ?_
    cases hp with
    | posted hp => exact .posted hp
    | failed e hp => exact .failed e hp
    | waiting hp _ => exact .waiting hp rfl
    | timer hp => exact .timer (by simp [hp])
    | sent hp => exact .timer (hlost (.inl hp))
    | error t hp => exact .timer (hlost (.inr (List.ne_nil_of_mem hp)))

/-! ## Sentinel -/

theorem Inv.switchMaster {w : World net} (h : Inv w) (new : Master net) :
    Inv { w with
      master := new
      epoch := w.epoch + 1
      inbox := if w.subscribed then w.inbox ++ [.switchMaster w.master new (w.epoch + 1)]
        else w.inbox } := by
  refine ⟨fun old m e hm => ?_, ?_, fun m e hm => ?_, h.sorted, fun r hr => ?_,
    h.answered, h.failed, ?_⟩
  · have hold : Push.switchMaster old m e ∈ w.inbox →
        e ≤ w.epoch + 1 ∧ (e = w.epoch + 1 → m = new) := by
      intro hm
      have := (h.inbox old m e hm).1
      exact ⟨by omega, fun he => by omega⟩
    simp only at hm
    split at hm
    · rcases List.mem_append.mp hm with hm | hm
      · exact hold hm
      · cases List.mem_singleton.mp hm
        exact ⟨Nat.le_refl _, fun _ => rfl⟩
    · exact hold hm
  · simp only
    split
    · rename_i hs
      refine .inr ⟨hs, ?_⟩
      rw [List.filterMap_append]
      exact List.getLast?_concat
    · rename_i hs
      exact .inl (h.last.resolve_right fun hl => hs hl.1)
  · have := (h.answers m e hm).1
    exact ⟨Nat.le_succ_of_le this, fun he => absurd he (by simp only; omega)⟩
  · have := (h.reports r hr).1
    exact ⟨Nat.le_succ_of_le this, fun he => absurd he (by simp only; omega)⟩
  · right
    by_cases hs : w.subscribed = true
    · refine .notification w.master new ?_
      simp only [hs, if_true]
      exact List.mem_append_right _ (List.mem_singleton.mpr rfl)
    · exact .unsubscribed (by simpa using hs)

/-- A message of Sentinel that announces no master. -/
theorem Inv.pushed {w : World net} (h : Inv w) {m : Push net} (hm : m.epoch = none)
    (n : Nat) {b : Bool} (hb : w.subscribed = true → b = true)
    (hp : Current w ∨ Pending { w with subscribes := n, subscribed := b,
                                       inbox := w.inbox ++ [m] }) :
    Inv { w with subscribes := n, subscribed := b, inbox := w.inbox ++ [m] } := by
  refine ⟨fun old new e hx => ?_, ?_, h.answers, h.sorted, h.reports, h.answered, h.failed, hp⟩
  · rcases List.mem_append.mp hx with hx | hx
    · exact h.inbox old new e hx
    · rw [← List.mem_singleton.mp hx] at hm
      cases hm
  · have he : (w.inbox ++ [m]).filterMap Push.epoch = w.inbox.filterMap Push.epoch := by
      rw [List.filterMap_append, List.filterMap_cons_none hm]
      exact List.append_nil _
    simp only [he]
    exact h.last.imp_right fun hl => ⟨hb hl.1, hl.2⟩

theorem Inv.sentinelSubscribe {w : World net} (h : Inv w) (n : Nat) :
    Inv { w with subscribes := n, subscribed := true, inbox := w.inbox ++ [.subscribe] } :=
  h.pushed rfl n (fun _ => rfl) (.inr (.subscribe
    (List.mem_append_right _ (List.mem_singleton.mpr rfl))))

theorem Inv.sentinelSubscribeError {w : World net} (h : Inv w) (n : Nat) (text : Bytes) :
    Inv { w with subscribes := n, inbox := w.inbox ++ [.error text] } := by
  refine h.pushed rfl n id (h.pending.imp_right fun hp => ?_)
  cases hp with
  | unsubscribed hp => exact .unsubscribed hp
  | subscribe hp => exact .subscribe (List.mem_append_left _ hp)
  | inquiring hp => exact .inquiring (hp.of_eq rfl rfl rfl rfl rfl)
  | answer m hp => exact .answer m hp
  | notification old new hp => exact .notification old new (List.mem_append_left _ hp)

/-- Sentinel answers an inquiry with its current master, or with an error. -/
theorem Inv.sentinelInquiry {w : World net} (h : Inv w) (n : Nat)
    (error : Option Bytes) {a : Answer net}
    (ha : a = match error with | none => .master w.master w.epoch | some text => .error text) :
    Inv { w with inquiries := n, answers := w.answers ++ [a] } := by
  have hle : ∀ e ∈ w.answers.filterMap Answer.epoch, e ≤ w.epoch := by
    intro e he
    obtain ⟨x, hx, hxe⟩ := List.mem_filterMap.mp he
    cases x with
    | error t => cases hxe
    | master m e' => cases hxe; exact (h.answers m e hx).1
  have hepoch : ∀ e ∈ [a].filterMap Answer.epoch, e = w.epoch := by
    intro e he
    cases error with
    | none => rw [ha] at he; exact List.mem_singleton.mp he
    | some text => rw [ha] at he; cases he
  refine ⟨h.inbox, h.last, fun m e hm => ?_, ?_, h.reports, fun r hr hs e he => ?_,
    h.failed, .inr ?_⟩
  · rcases List.mem_append.mp hm with hm | hm
    · exact h.answers m e hm
    · have hm := List.mem_singleton.mp hm
      cases error with
      | none => rw [ha] at hm; cases hm; exact ⟨Nat.le_refl _, fun _ => rfl⟩
      | some text => rw [ha] at hm; cases hm
  · simp only [List.filterMap_append]
    refine List.pairwise_append.mpr ⟨h.sorted, ?_, fun e he e' he' => ?_⟩
    · cases error with
      | none => rw [ha]; exact List.pairwise_singleton _ _
      | some text => rw [ha]; exact List.Pairwise.nil
    · rw [hepoch e' he']; exact hle e he
  · simp only [List.filterMap_append] at he
    rcases List.mem_append.mp he with he | he
    · exact h.answered r hr hs e he
    · rw [hepoch e he]; exact (h.reports r hr).1
  · cases error with
    | none => exact .answer w.master (List.mem_append_right _ (List.mem_singleton.mpr ha.symm))
    | some text => exact .inquiring (.error text
      (List.mem_append_right _ (List.mem_singleton.mpr ha.symm)))

/-! ## Deliveries -/

/-- A message that announces no master is taken from the inbox. -/
theorem Inv.inbox_tail {w : World net} (h : Inv w) {m : Push net} {inbox : List (Push net)}
    (hw : w.inbox = m :: inbox) (hm : m.epoch = none)
    (hp : Current w ∨ Pending { w with inbox := inbox }) : Inv { w with inbox := inbox } := by
  refine ⟨fun old new e hx => h.inbox old new e (by rw [hw]; exact List.mem_cons_of_mem _ hx), ?_,
    h.answers, h.sorted, h.reports, h.answered, h.failed, hp⟩
  have hl := h.last
  rw [hw, List.filterMap_cons_none hm] at hl
  exact hl

theorem Inv.push_subscribe {w : World net} (h : Inv w) {inbox : List (Push net)}
    (hw : w.inbox = .subscribe :: inbox) : Inv (waitDispatcher { w with inbox := inbox }) := by
  have hq : Inquiring (waitDispatcher { w with inbox := inbox }) := by
    unfold waitDispatcher
    by_cases hc : w.dispatcher.connected = true
    · refine .posted ?_
      simp only [hc, if_true]
      exact List.mem_append_right _ (List.mem_singleton.mpr rfl)
    · exact .waiting rfl (by simpa using hc)
  have hf : ∀ t ∈ (waitDispatcher { w with inbox := inbox }).posted, t.Failed := by
    unfold waitDispatcher
    simp only
    split
    · exact failed_append h.failed trivial
    · exact h.failed
  have hl := h.last
  rw [hw, List.filterMap_cons_none rfl] at hl
  exact ⟨fun old new e hx => h.inbox old new e (by rw [hw]; exact List.mem_cons_of_mem _ hx), hl,
    h.answers, h.sorted, h.reports, h.answered, hf, .inr (.inquiring hq)⟩

theorem Inv.push_error {w : World net} (h : Inv w) {text : Bytes} {inbox : List (Push net)}
    (hw : w.inbox = .error text :: inbox) :
    Inv { w with inbox := inbox, subscribeRetryTimer := true } := by
  have ht : Inv { w with inbox := inbox } := by
    refine h.inbox_tail hw rfl (h.pending.imp_right fun hp => ?_)
    have hmem : ∀ m ∈ w.inbox, m ≠ .error text → m ∈ inbox := by
      intro m hm hne
      rw [hw] at hm
      exact (List.mem_cons.mp hm).resolve_left hne
    cases hp with
    | unsubscribed hp => exact .unsubscribed hp
    | subscribe hp => exact .subscribe (hmem _ hp (by simp))
    | inquiring hp => exact .inquiring (hp.of_eq rfl rfl rfl rfl rfl)
    | answer m hp => exact .answer m hp
    | notification old new hp => exact .notification old new (hmem _ hp (by simp))
  exact ht.of_frame rfl rfl rfl rfl rfl rfl h.failed fun hq => hq.of_eq rfl rfl rfl rfl rfl

/-- A notification: its master is the current one, or another notification is behind it. -/
theorem Inv.push_switchMaster {w : World net} (h : Inv w) {old new : Master net} {e : Nat}
    {inbox : List (Push net)} (hw : w.inbox = .switchMaster old new e :: inbox)
      (hclear : new.Clear) :
    Inv { w with inbox := inbox,
                 reports := w.reports ++ [⟨.notification, e, databaseInfo new.address⟩] } := by
  have he := h.inbox old new e (by rw [hw]; exact List.mem_cons_self)
  have hlast : inbox.filterMap Push.epoch = [] ∧ e = w.epoch ∨
      w.subscribed = true ∧ (inbox.filterMap Push.epoch).getLast? = some w.epoch := by
    have hl := h.last
    rw [hw, List.filterMap_cons_some (by rfl)] at hl
    obtain ⟨hs, hl⟩ := hl.resolve_left (by simp)
    cases hr : inbox.filterMap Push.epoch with
    | nil => rw [hr] at hl; exact .inl ⟨rfl, Option.some.inj hl⟩
    | cons x l => rw [hr, List.getLast?_cons_cons] at hl; exact .inr ⟨hs, hl⟩
  refine ⟨fun old new e hx => h.inbox old new e (by rw [hw]; exact List.mem_cons_of_mem _ hx),
    hlast.imp_left And.left, h.answers, h.sorted, fun r hr => ?_,
    fun r hr hs e' he' => ?_, h.failed, ?_⟩
  · rcases List.mem_append.mp hr with hr | hr
    · exact h.reports r hr
    · cases List.mem_singleton.mp hr
      exact ⟨he.1, fun hx => by rw [← he.2 hx]; exact ⟨rfl, hclear⟩⟩
  · rcases List.mem_append.mp hr with hr | hr
    · exact h.answered r hr hs e' he'
    · rw [List.mem_singleton.mp hr] at hs
      cases hs
  · rcases hlast with ⟨-, hx⟩ | ⟨-, hl⟩
    · exact .inl ⟨_, List.getLast?_concat, hx⟩
    · obtain ⟨m, hm, hme⟩ := List.mem_filterMap.mp (List.mem_of_getLast? hl)
      cases m with
      | switchMaster old' new' e' => cases hme; exact .inr (.notification old' new' hm)
      | _ => cases hme

theorem Inv.answer_error {w : World net} (h : Inv w) {text : Bytes} {answers : List (Answer net)}
    (hw : w.answers = .error text :: answers) :
    Inv { w with answers := answers, masterInquiryRetryTimer := true } := by
  have hsub : answers.filterMap Answer.epoch = w.answers.filterMap Answer.epoch := by
    rw [hw, List.filterMap_cons_none rfl]
  refine ⟨h.inbox, h.last, fun m e hm =>
    h.answers m e (by rw [hw]; exact List.mem_cons_of_mem _ hm), ?_,
    h.reports, ?_, h.failed, .inr (.inquiring (.timer rfl))⟩
  · simp only [hsub]; exact h.sorted
  · simp only [hsub]; exact h.answered

/-- An answer that no notification has overtaken: its master is the current one, or a newer message
is under way. -/
theorem Inv.answer_master {w : World net} (h : Inv w) {m : Master net} {e : Nat}
    {answers : List (Answer net)} (hw : w.answers = .master m e :: answers) (hclear : m.Clear)
    (hfresh : ∀ r ∈ w.reports, r.source = .notification → r.epoch ≤ e) :
    Inv { w with answers := answers, reports := w.reports ++
                   [⟨.inquiry, e, databaseInfo m.address⟩] } := by
  have he := h.answers m e (by rw [hw]; exact List.mem_cons_self)
  have hmap : w.answers.filterMap Answer.epoch = e :: answers.filterMap Answer.epoch := by
    rw [hw, List.filterMap_cons_some (by rfl)]
  have hsorted := h.sorted
  rw [hmap, List.pairwise_cons] at hsorted
  -- No report so far is newer than the answer.
  have hle : ∀ r ∈ w.reports, r.epoch ≤ e := by
    intro r hr
    cases hs : r.source with
    | notification => exact hfresh r hr hs
    | inquiry => exact h.answered r hr hs e (by rw [hmap]; exact List.mem_cons_self)
  refine ⟨h.inbox, h.last, fun m e hx =>
    h.answers m e (by rw [hw]; exact List.mem_cons_of_mem _ hx), hsorted.2,
    fun r hr => ?_, fun r hr hs e' he' => ?_, h.failed, ?_⟩
  · rcases List.mem_append.mp hr with hr | hr
    · exact h.reports r hr
    · cases List.mem_singleton.mp hr
      exact ⟨he.1, fun hx => by rw [← he.2 hx]; exact ⟨rfl, hclear⟩⟩
  · rcases List.mem_append.mp hr with hr | hr
    · exact h.answered r hr hs e' (by rw [hmap]; exact List.mem_cons_of_mem _ he')
    · rw [List.mem_singleton.mp hr]
      exact hsorted.1 e' he'
  · by_cases hx : e = w.epoch
    · exact .inl ⟨_, List.getLast?_concat, hx⟩
    · right
      have hlt : e < w.epoch := Nat.lt_of_le_of_ne he.1 hx
      have hnot : ¬ Current w := by
        rintro ⟨r, hl, hre⟩
        have := hle r (List.mem_of_getLast? hl)
        omega
      cases h.pending.resolve_left hnot with
      | unsubscribed hp => exact .unsubscribed hp
      | subscribe hp => exact .subscribe hp
      | notification old new hp => exact .notification old new hp
      | answer m' hp =>
        rw [hw] at hp
        refine .answer m' ((List.mem_cons.mp hp).resolve_left fun heq => ?_)
        cases heq
        exact hx rfl
      | inquiring hp =>
        refine .inquiring ?_
        cases hp with
        | posted hp => exact .posted hp
        | failed e hp => exact .failed e hp
        | waiting hp hd => exact .waiting hp hd
        | timer hp => exact .timer hp
        | sent hp => exact .sent hp
        | error t hp =>
          rw [hw] at hp
          exact .error t ((List.mem_cons.mp hp).resolve_left (by simp))

/-! ## The steps -/

theorem Inv.step {w w' : World net} {n : MasterName} {c : Choice} {ev : Event net} (h : Inv w)
    (hg : Sound w (c, ev)) (hs : step n c w ev = some w') : Inv w' := by
  cases ev with
  | switchMaster new => cases hs; exact h.switchMaster new
  | sentinelSubscribe error =>
    simp only [Agreement.step] at hs
    split at hs
    · split at hs
      · cases hs; exact h.sentinelSubscribe _
      · cases hs; exact h.sentinelSubscribeError _ _
    · cases hs
  | sentinelInquiry error =>
    simp only [Agreement.step] at hs
    split at hs
    · cases hs; exact h.sentinelInquiry _ error rfl
    · cases hs
  | subscriberConnected =>
    simp only [Agreement.step] at hs
    split at hs
    · cases hs
    · cases hs; exact h.subscriberSetConnected _ _
  | subscriberConnectFailed =>
    simp only [Agreement.step] at hs
    split at hs
    · cases hs
    · cases hs
      rw [subscriberSetDisconnected_eq]
      exact h.of_frame rfl rfl rfl rfl rfl rfl h.failed fun hq => hq.of_eq rfl rfl rfl rfl rfl
  | subscriberLost =>
    simp only [Agreement.step] at hs
    split at hs
    · cases hs; exact h.subscriberLost _
    · cases hs
  | dispatcherConnected =>
    simp only [Agreement.step] at hs
    split at hs
    · cases hs
    · cases hs; exact h.dispatcherSetConnected _ _
  | dispatcherLost =>
    simp only [Agreement.step] at hs
    split at hs
    · cases hs; exact h.dispatcherLost _
    · cases hs
  | deliverPush =>
    simp only [Agreement.step] at hs
    split at hs
    · rename_i m inbox hw
      cases hs
      cases m with
      | subscribe => rw [Agreement.push_subscribe]; exact h.push_subscribe hw
      | error text => rw [Agreement.push_error]; exact h.push_error hw
      | switchMaster old new e =>
        rw [Agreement.push_switchMaster]
        exact h.push_switchMaster hw (hg.2 new (by rw [Event.delivered, hw]; rfl))
    · cases hs
  | deliverAnswer =>
    simp only [Agreement.step] at hs
    split at hs
    · rename_i a answers hw
      cases hs
      cases a with
      | error text => rw [Agreement.answer_error]; exact h.answer_error hw
      | master m e =>
        rw [Agreement.answer_master]
        refine h.answer_master hw (hg.2 m (by rw [Event.delivered, hw]; rfl)) (hg.1 e ?_)
        rw [Event.answered, hw]
        rfl
    · cases hs
  | subscribeRetryTimer =>
    simp only [Agreement.step] at hs
    split at hs
    · cases hs
      have hv : Inv { w with subscribeRetryTimer := false } :=
        h.of_frame rfl rfl rfl rfl rfl rfl h.failed fun hq => hq.of_eq rfl rfl rfl rfl rfl
      exact hv.subscribeNotifications _ _
    · cases hs
  | masterInquiryRetryTimer =>
    simp only [Agreement.step] at hs
    split at hs
    · cases hs; exact h.sendMasterInquiry _ _ rfl rfl rfl rfl rfl rfl h.failed
    · cases hs
  | posted i =>
    obtain ⟨t, ht, rfl⟩ := Option.map_eq_some_iff.mp hs
    exact h.posted_step _ _ ht

theorem inv_init (n : MasterName) (first : Master net) : Inv (sys n first).init :=
  ⟨fun _ _ _ hm => (by cases hm), .inl rfl, fun _ _ hm => (by cases hm), List.Pairwise.nil,
    fun _ hr => (by cases hr),
    fun _ hr => (by cases hr), fun _ ht => (by cases ht), .inr (.unsubscribed rfl)⟩

end Invariant

/-- **Agreement.** With an `inet_pton` that accepts standard texts only: in every run in which no
reply to an inquiry is delivered after the notification of a later change, and no host that is
delivered is an IPv6 address that is another one together with its port, the last report is the host
and the port of the current master of Sentinel in every state in which both connections are up, the
subscription is active and nothing is pending. -/
theorem sentinel_agreement {net : Resolver} (hnet : StandardIPv6 net)
    (sentinelMasterName : MasterName)
    (first : Master net) (w : World net) (h : (sys sentinelMasterName first).Reach Sound w)
    (hr : AtRest w) :
    Agrees w := by
  refine Inv.agrees hnet (h.invariant (inv_init _ _) fun w ev w' hi hg hs => ?_) hr
  have hs : (if w.ended then none else step sentinelMasterName ev.1 w ev.2) = some w' := hs
  split at hs
  · cases hs
  · exact hi.step hg hs

/-- A resolver that knows no IPv6 literal and no service. -/
def plainNet : Resolver := ⟨fun _ => false, fun _ => none⟩

def masterA : Master plainNet where
  host := str "10.0.0.1"
  port := str "6379"
  address := ⟨str "10.0.0.1", htons ⟨6379, by decide⟩, false⟩
  host_no_blank := by decide
  port_no_blank := by decide
  parses := by decide

def masterB : Master plainNet where
  host := str "10.0.0.2"
  port := str "6379"
  address := ⟨str "10.0.0.2", htons ⟨6379, by decide⟩, false⟩
  host_no_blank := by decide
  port_no_blank := by decide
  parses := by decide

/-- A step in which hiredis accepts every command. -/
def accepted (e : Event plainNet) : Choice × Event plainNet := (⟨true, .other⟩, e)

theorem plainNet_standard : StandardIPv6 plainNet :=
  ⟨fun _ h => (by cases h), fun _ h => (by cases h)⟩

/-- The subscription, the inquiry, and then a change of the master. -/
theorem sentinel_agreement_notified :
    ∃ w, (sys ⟨str "mymaster", by decide⟩ masterA).Reach Sound w ∧
      w.master.host = masterB.host ∧ Agrees w := by
  obtain ⟨w, h, hw⟩ := Sys.reach_run_map (S := sys ⟨str "mymaster", by decide⟩ masterA) (G := Sound)
    ([.subscriberConnected, .sentinelSubscribe none, .deliverPush, .dispatcherConnected,
      .sentinelInquiry none, .deliverAnswer, .switchMaster masterB, .deliverPush].map accepted)
    (fun w => (w.master.host, decide (AtRest w))) (b := (masterB.host, true)) (by decide +kernel)
  obtain ⟨hm, hr⟩ := Prod.mk.inj hw
  exact ⟨w, h, hm, sentinel_agreement plainNet_standard _ _ _ h (of_decide_eq_true hr)⟩

/-- Sentinel answers the inquiry, and then changes its master. The notification is delivered before
the answer, which brings the old master back. -/
theorem sentinel_agreement_stale :
    ¬ ∀ (net : Resolver), StandardIPv6 net →
      ∀ (sentinelMasterName : MasterName) (first : Master net) (w : World net),
      (sys sentinelMasterName first).Reach Sys.always w → AtRest w → Agrees w := by
  intro hall
  have h : (sys ⟨str "mymaster", by decide⟩ masterA).Reach Sys.always _ :=
    Sys.reach_run ([.subscriberConnected, .sentinelSubscribe none, .deliverPush,
      .dispatcherConnected,
      .sentinelInquiry none, .switchMaster masterB, .deliverPush, .deliverAnswer].map accepted) rfl
  have hlast := hall _ plainNet_standard _ _ _ h ⟨rfl, rfl, rfl, rfl, rfl, rfl, rfl, rfl, rfl, rfl⟩
  unfold Agrees at hlast
  revert hlast
  decide +kernel

end Agreement
end Sentinel
end Sdl
