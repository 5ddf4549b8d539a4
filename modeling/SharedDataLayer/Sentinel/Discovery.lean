import SharedDataLayer.Hiredis.Core
import SharedDataLayer.HostAndPort

/-!
# The messages of Sentinel (`src/redis/asyncsentineldatabasediscovery.cpp`)

`AsyncSentinelDatabaseDiscovery` learns the address of the master over two connections: it
subscribes to the notifications of the channel `+switch-master`, and it inquires the master by its
name. Here are the parsers of the messages and the two acks, each as the action that it leads to;
the systems that call them are in `Sentinel/Isolation.lean` and `Sentinel/Agreement.lean`.

The parsers access the elements of an array reply without a check of its length. An access out of
bounds is undefined behaviour in the source, and an exception here.

* `parseSubscribeReply_notification`, `parseNotificationMessage_some`,
  `parseMasterInquiryReply_some`: what the parsers accept.
* `subscribeAck_reply`, `masterInquiryAck_reply`: the addresses that the acks pass on.
-/

namespace Sdl
namespace Sentinel

open Redis

/-! ## The information about a database (`private/redis/databaseinfo.hpp`) -/

inductive DatabaseInfo.Type where
  | single | redundant | cluster
  deriving DecidableEq

inductive DatabaseInfo.Discovery where
  | hiredis | sentinel
  deriving DecidableEq

structure DatabaseInfo where
  hosts : List HostAndPort
  type : DatabaseInfo.Type
  ns : Option Bytes
  discovery : DatabaseInfo.Discovery
  deriving DecidableEq

/-- What is passed to the callback for an address. -/
def databaseInfo (hostAndPort : HostAndPort) : DatabaseInfo :=
  ⟨[hostAndPort], .single, none, .sentinel⟩

/-! ## The parsers -/

/-- An access out of the bounds of a vector. -/
inductive OutOfBounds where
  | outOfBounds

/-- `replyVector[i]`. -/
def element (replyVector : List Reply) (i : Nat) : Except OutOfBounds Reply :=
  match replyVector[i]? with
  | some r => .ok r
  | none => .error .outOfBounds

/-- `SubscribeReply`. Its type `UNKNOWN` is never returned by the parser. -/
inductive SubscribeReply where
  | subscribeReply
  | notification (message : Bytes)

/-- `none` is the null pointer: a parsing error. -/
def parseSubscribeReply (reply : Reply) : Except OutOfBounds (Option SubscribeReply) :=
  if reply.getType = .array then do
    let first ← element reply.getArray 0
    if first.getType = .string then
      if first.getString = str "subscribe" then .ok (some .subscribeReply)
      else if first.getString = str "message" then do
        let third ← element reply.getArray 2
        if third.getType = .string then .ok (some (.notification third.getString)) else .ok none
      else .ok none
    else .ok none
  else .ok none

section Parse

variable (net : Resolver)

/-- The address of a host and a port; an exception of the constructor is a parsing error. -/
def hostAndPort (host port : Bytes) : Option HostAndPort :=
  match HostAndPort.new net (host ++ chr ':' :: port) ⟨0, by decide⟩ with
  | .ok h => some h
  | .error _ => none

def parseMasterInquiryReply (reply : Reply) : Except OutOfBounds (Option HostAndPort) :=
  if reply.getType = .array then do
    let host ← element reply.getArray 0
    if host.getType = .string then do
      let port ← element reply.getArray 1
      if port.getType = .string then .ok (hostAndPort net host.getString port.getString)
      else .ok none
    else .ok none
  else .ok none

/-- The fields of a notification are the name of the master, its old host and port, and its new
ones. The name is not looked at. -/
def parseNotificationMessage (message : Bytes) : Option HostAndPort :=
  match message.splitOn (chr ' ') with
  | [_, _, _, host, port] => hostAndPort net host port
  | _ => none

/-! ## The acks -/

/-- What an ack leads to. -/
inductive Action where
  /-- `dispatcher->waitConnectedAsync(sendMasterInquiry)`. -/
  | waitConnected
  /-- `stateChangedCb`, if it is set. -/
  | stateChanged (info : DatabaseInfo)
  /-- The retry timer is armed. -/
  | armRetryTimer
  | abort (message : String)

def subscribeAck (error : ErrorCode) (reply : Reply) : Except OutOfBounds Action :=
  if error.isError then .ok .armRetryTimer
  else do
    match ← parseSubscribeReply reply with
    | some .subscribeReply => .ok .waitConnected
    | some (.notification message) =>
      match parseNotificationMessage net message with
      | some h => .ok (.stateChanged (databaseInfo h))
      | none => .ok (.abort "Notification message parsing error.")
    | none => .ok (.abort "SUBSCRIBE command reply parsing error.")

def masterInquiryAck (error : ErrorCode) (reply : Reply) : Except OutOfBounds Action :=
  if error.isError then .ok .armRetryTimer
  else do
    match ← parseMasterInquiryReply net reply with
    | some h => .ok (.stateChanged (databaseInfo h))
    | none => .ok (.abort "Master inquiry reply parsing error.")

end Parse

/-! ## What is accepted -/

theorem Reply.getType_array {r : Reply} : r.getType = .array ↔ ∃ rs, r = .array rs := by
  cases r <;> simp [Reply.getType]

theorem Reply.getType_string {r : Reply} : r.getType = .string ↔ ∃ s, r = .string s := by
  cases r <;> simp [Reply.getType]

/-- A check of the parsers that is passed. -/
theorem ite_ok_some {α : Type} {c : Prop} [Decidable c] {x : Except OutOfBounds (Option α)} {a : α}
    (h : (if c then x else .ok none) = .ok (some a)) : c ∧ x = .ok (some a) := by
  split at h
  · exact ⟨‹_›, h⟩
  · cases h

theorem element_bind {α : Type} {rs : List Reply} {i : Nat}
    {f : Reply → Except OutOfBounds α} {a : α}
    (h : (element rs i >>= f) = .ok a) : ∃ r, rs[i]? = some r ∧ f r = .ok a := by
  unfold element at h
  cases hr : rs[i]? with
  | none => rw [hr] at h; cases h
  | some r => rw [hr] at h; exact ⟨r, rfl, h⟩

/-- A notification is an array whose first element is `message` and whose third one is a string. -/
theorem parseSubscribeReply_notification {reply : Reply} {text : Bytes} :
    parseSubscribeReply reply = .ok (some (.notification text)) ↔
      ∃ channel rest, reply = .array (.string (str "message") :: channel ::
        .string text :: rest) := by
  constructor
  · intro h
    obtain ⟨ha, h⟩ := ite_ok_some h
    obtain ⟨rs, rfl⟩ := Reply.getType_array.mp ha
    obtain ⟨first, hf, h⟩ := element_bind h
    obtain ⟨hs, h⟩ := ite_ok_some h
    obtain ⟨kind, rfl⟩ := Reply.getType_string.mp hs
    split at h
    · cases h
    obtain ⟨hk, h⟩ := ite_ok_some h
    obtain ⟨third, ht, h⟩ := element_bind h
    obtain ⟨hs, h⟩ := ite_ok_some h
    obtain ⟨text', rfl⟩ := Reply.getType_string.mp hs
    cases h
    have hk : kind = str "message" := hk
    match rs, hf, ht with
    | _ :: channel :: _ :: rest, hf, ht =>
      cases hf; cases ht
      exact ⟨channel, rest, by rw [hk]; rfl⟩
  · rintro ⟨channel, rest, rfl⟩
    rfl

theorem parseMasterInquiryReply_some {net : Resolver} {reply : Reply} {h : HostAndPort} :
    parseMasterInquiryReply net reply = .ok (some h) ↔
      ∃ host port rest, reply = .array (.string host :: .string port :: rest) ∧
        hostAndPort net host port = some h := by
  constructor
  · intro hp
    obtain ⟨ha, hp⟩ := ite_ok_some hp
    obtain ⟨rs, rfl⟩ := Reply.getType_array.mp ha
    obtain ⟨first, hf, hp⟩ := element_bind hp
    obtain ⟨hs, hp⟩ := ite_ok_some hp
    obtain ⟨host, rfl⟩ := Reply.getType_string.mp hs
    obtain ⟨second, ht, hp⟩ := element_bind hp
    obtain ⟨hs, hp⟩ := ite_ok_some hp
    obtain ⟨port, rfl⟩ := Reply.getType_string.mp hs
    match rs, hf, ht with
    | _ :: _ :: rest, hf, ht =>
      cases hf; cases ht
      exact ⟨host, port, rest, rfl, Except.ok.inj hp⟩
  · rintro ⟨host, port, rest, rfl, hh⟩
    exact congrArg Except.ok hh

/-- A notification message has five fields; the last two are the address. -/
theorem parseNotificationMessage_some {net : Resolver} {message : Bytes} {h : HostAndPort} :
    parseNotificationMessage net message = some h ↔ ∃ name oldHost oldPort host port,
      message.splitOn (chr ' ') = [name, oldHost, oldPort, host, port] ∧
      hostAndPort net host port = some h := by
  unfold parseNotificationMessage
  constructor
  · intro hp
    split at hp
    · exact ⟨_, _, _, _, _, ‹_›, hp⟩
    · cases hp
  · rintro ⟨name, oldHost, oldPort, host, port, hm, hh⟩
    rw [hm]
    exact hh

/-- `subscribeAck` passes on the address of a notification. -/
theorem subscribeAck_reply {net : Resolver} {reply : Reply} {info : DatabaseInfo} :
    subscribeAck net .none reply = .ok (.stateChanged info) ↔
      ∃ text h, parseSubscribeReply reply = .ok (some (.notification text)) ∧
        parseNotificationMessage net text = some h ∧ info = databaseInfo h := by
  unfold subscribeAck
  rw [if_neg (by decide)]
  cases parseSubscribeReply reply with
  | error e => simp [bind, Except.bind]
  | ok o =>
    cases o with
    | none => simp [bind, Except.bind]
    | some s =>
      cases s with
      | subscribeReply => simp [bind, Except.bind]
      | notification text =>
        cases hp : parseNotificationMessage net text <;> simp [bind, Except.bind, hp, eq_comm]

/-- `masterInquiryAck` passes on the address of a reply. -/
theorem masterInquiryAck_reply {net : Resolver} {reply : Reply} {info : DatabaseInfo} :
    masterInquiryAck net .none reply = .ok (.stateChanged info) ↔
      ∃ h, parseMasterInquiryReply net reply = .ok (some h) ∧ info = databaseInfo h := by
  unfold masterInquiryAck
  rw [if_neg (by decide)]
  cases parseMasterInquiryReply net reply with
  | error e => simp [bind, Except.bind]
  | ok o => cases o <;> simp [bind, Except.bind, eq_comm]

end Sentinel
end Sdl
