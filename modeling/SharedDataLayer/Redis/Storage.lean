import SharedDataLayer.Error
import SharedDataLayer.Redis.Server

/-!
# The storage (`src/redis/asyncredisstorage.cpp`)

An operation either posts its ack to the engine or gives a command to the dispatcher with the
callback for the reply (`Request`). The callback of a command calls the client's ack; that of
`removeAllAsync` goes on with `removeAsync` (`CbResult`). What an operation does depends on nothing
but the constant members of the storage (`Config`) and on whether there is a dispatcher.

* `escapeRedisSearchPatternCharacters_eq`: the loop puts a backslash before each special character.
* `Op.request_invalid`, `Op.request_empty`: what is acked without a command.
-/

namespace Sdl
namespace Redis

open Spec

/-- `NO_PUBLISHER`. -/
def NO_PUBLISHER : Bytes := str "shareddatalayer::NO_PUBLISHER"

/-- The constant members of `AsyncRedisStorage`. Its constructor throws if the publisher is
empty. -/
structure Config where
  publisherId : Option Bytes
  publisherId_ne : publisherId ≠ some []
  areNotificationsEnabled : Namespace → Bool

def Config.getPublishMessage (cfg : Config) : Bytes := cfg.publisherId.getD NO_PUBLISHER

/-- A client's ack with the arguments that it is called with. -/
inductive Ack where
  | modifyAck (error : ErrorCode)
  | modifyIfAck (error : ErrorCode) (status : Bool)
  | getAck (error : ErrorCode) (dataMap : DataMap)
  | findKeysAck (error : ErrorCode) (keys : Keys)
  deriving DecidableEq

/-- The error of an ack. -/
def Ack.error : Ack → ErrorCode
  | .modifyAck e => e
  | .modifyIfAck e _ => e
  | .getAck e _ => e
  | .findKeysAck e _ => e

/-- `CommandCb`: the callback of a command. The last three are the lambdas of `getAsync`, `findKeys`
and `removeAllAsync` with what they capture. -/
inductive CommandCb where
  | modificationCommandCallback
  | conditionalCommandCallback
  | getCb (keys : Keys)
  | findKeysCb
  | removeAllCb (ns : Namespace)

/-- What an operation does. -/
inductive Request where
  | postCallback (ack : Ack)
  | dispatchAsync (commandCb : CommandCb) (ns : Namespace) (contents : Contents)

/-- What the callback of a command does. -/
inductive CbResult where
  | ack (a : Ack)
  | removeAsync (ns : Namespace) (keys : Keys)

/-! ## Reading the replies -/

/-- The body of the loop of `buildDataMap`. -/
def insertReply (dataMap : DataMap) (p : Key × Reply) : DataMap :=
  if p.2.getType = .string then dataMap.insert p.1 p.2.getString else dataMap

/-- `buildDataMap`. Redis replies to `MGET` with one reply for each key. -/
def buildDataMap (keys : Keys) (replyVector : List Reply) : DataMap :=
  (keys.elems.zip replyVector).foldl insertReply OrdMap.empty

/-- The body of the loop of `getKeys`. -/
def insertKey (keys : Keys) (i : Reply) : Keys :=
  if i.getType = .string then keys.insert (getKey i.getString) () else keys

/-- `getKeys`. -/
def getKeys (replyVector : List Reply) : Keys := replyVector.foldl insertKey OrdMap.empty

def modificationCommandCallback (error : ErrorCode) : Ack := .modifyAck error

def conditionalCommandCallback (error : ErrorCode) (reply : Reply) : Ack :=
  if error.isError || reply.getType = .nil ||
    (reply.getType = .integer && reply.getInteger != 1) then
    .modifyIfAck error false
  else .modifyIfAck error true

/-- The callback of a command with the dispatcher's error and reply. -/
def CommandCb.call (error : ErrorCode) (reply : Reply) : CommandCb → CbResult
  | .modificationCommandCallback => .ack (Sdl.Redis.modificationCommandCallback error)
  | .conditionalCommandCallback => .ack (Sdl.Redis.conditionalCommandCallback error reply)
  | .getCb keys =>
    .ack (if error.isError then .getAck error OrdMap.empty
      else .getAck .none (buildDataMap keys reply.getArray))
  | .findKeysCb =>
    .ack (if error.isError then .findKeysAck error OrdMap.empty
      else .findKeysAck .none (getKeys reply.getArray))
  | .removeAllCb ns =>
    if error.isError then .ack (.modifyAck error)
    else if reply.getArray.isEmpty then .ack (.modifyAck .none)
    else .removeAsync ns (getKeys reply.getArray)

/-! ## Search patterns -/

/-- The characters that are special in a search pattern. -/
def redisSearchPatternCharacters : Bytes := str "*?[]\\"

/-- `std::string::find_first_of` from `pos` on. -/
def findFirstOf (s chars : Bytes) (pos : Nat) : Option Nat :=
  ((s.drop pos).findIdx? (chars.contains ·)).map (pos + ·)

theorem findFirstOf_lt {s chars : Bytes} {pos found : Nat}
    (h : findFirstOf s chars pos = some found) :
    pos ≤ found ∧ found < s.length := by
  obtain ⟨i, hi, rfl⟩ := Option.map_eq_some_iff.mp h
  have := (List.findIdx?_eq_some_iff_getElem.mp hi).1
  rw [List.length_drop] at this
  omega

/-- The loop of `escapeRedisSearchPatternCharacters` from `pos` on. -/
def escapeFrom (s : Bytes) (pos : Nat) : Bytes :=
  match h : findFirstOf s redisSearchPatternCharacters pos with
  | none => s
  | some found => escapeFrom (s.insertIdx found (chr '\\')) (found + 2)
termination_by s.length - pos
decreasing_by
  have := findFirstOf_lt h
  rw [List.length_insertIdx_of_le_length (by omega)]
  omega

def escapeRedisSearchPatternCharacters (stringToProcess : Bytes) : Bytes :=
  escapeFrom stringToProcess 0

/-- A character with the backslash that escapes it. -/
def escapeChar (c : Byte) : Bytes :=
  if redisSearchPatternCharacters.contains c then [chr '\\', c] else [c]

theorem escapeFrom_none {s : Bytes} {pos : Nat}
    (h : findFirstOf s redisSearchPatternCharacters pos = none) : escapeFrom s pos = s := by
  rw [escapeFrom]
  split <;> simp_all

theorem escapeFrom_some {s : Bytes} {pos found : Nat}
    (h : findFirstOf s redisSearchPatternCharacters pos = some found) :
    escapeFrom s pos = escapeFrom (s.insertIdx found (chr '\\')) (found + 2) := by
  rw [escapeFrom]
  split <;> simp_all

theorem insertIdx_append (a s : Bytes) (x : Byte) :
    (a ++ s).insertIdx a.length x = a ++ x :: s := by
  induction a with
  | nil => simp
  | cons b a ih => simp [ih]

theorem escapeFrom_append (a s : Bytes) :
    escapeFrom (a ++ s) a.length = a ++ s.flatMap escapeChar := by
  induction s generalizing a with
  | nil => rw [escapeFrom_none (by simp [findFirstOf])]; rfl
  | cons c s ih =>
    rw [List.flatMap_cons]
    by_cases hc : redisSearchPatternCharacters.contains c = true
    · -- The loop stops at `c` and goes on after it.
      have hf : findFirstOf (a ++ c :: s) redisSearchPatternCharacters a.length =
        some a.length := by
        simp only [findFirstOf, List.drop_left, List.findIdx?_cons, hc]
        rfl
      have hs := ih (a ++ [chr '\\', c])
      have he : escapeChar c = [chr '\\', c] := by simp only [escapeChar, hc, if_true]
      rw [escapeFrom_some hf, insertIdx_append, he]
      simpa using hs
    · -- Nothing is done at `c`.
      have hf : findFirstOf (a ++ c :: s) redisSearchPatternCharacters a.length =
          findFirstOf (a ++ [c] ++ s) redisSearchPatternCharacters (a ++ [c]).length := by
        simp only [findFirstOf, List.drop_left, List.findIdx?_cons, hc]
        simp [Function.comp_def, Nat.add_assoc, Nat.add_comm 1]
      have he : escapeChar c = [c] := by simp only [escapeChar, hc, Bool.false_eq_true, if_false]
      have hs := ih (a ++ [c])
      rw [he, ← List.append_assoc, ← hs, List.append_assoc, List.singleton_append]
      rw [List.append_assoc, List.singleton_append] at hf
      cases hg : findFirstOf (a ++ c :: s) redisSearchPatternCharacters a.length with
      | none => rw [escapeFrom_none hg, escapeFrom_none (hf.symm.trans hg)]
      | some found => rw [escapeFrom_some hg, escapeFrom_some (hf.symm.trans hg)]

theorem escapeRedisSearchPatternCharacters_eq (s : Bytes) :
    escapeRedisSearchPatternCharacters s = s.flatMap escapeChar :=
  escapeFrom_append [] s

def buildKeyPrefixSearchPattern (ns : Namespace) (keyPrefix : Bytes) : Bytes :=
  [chr '{'] ++ ns ++ [chr '}'] ++ [SEPARATOR] ++
    escapeRedisSearchPatternCharacters keyPrefix ++ [chr '*']

def buildNamespaceKeySearchPattern (ns : Namespace) (pattern : Bytes) : Bytes :=
  [chr '{'] ++ ns ++ [chr '}'] ++ [SEPARATOR] ++ pattern

/-! ## The operations -/

/-- The operations of `AsyncStorage` on data. -/
inductive Op where
  | setAsync (ns : Namespace) (dataMap : DataMap)
  | setIfAsync (ns : Namespace) (key : Key) (oldData newData : Data)
  | setIfNotExistsAsync (ns : Namespace) (key : Key) (data : Data)
  | getAsync (ns : Namespace) (keys : Keys)
  | removeAsync (ns : Namespace) (keys : Keys)
  | removeIfAsync (ns : Namespace) (key : Key) (data : Data)
  | findKeysAsync (ns : Namespace) (keyPrefix : Bytes)
  | listKeys (ns : Namespace) (pattern : Bytes)
  | removeAllAsync (ns : Namespace)

/-- Whether the operation can be performed, and the error to ack if it cannot. `dispatcher` says
whether the storage has one. -/
def canOperationBePerformed (dispatcher : Bool) (ns : Namespace) (noKeysGiven : Option Bool) :
    Bool × ErrorCode :=
  if !isValidNamespace ns then (false, .storage .invalidNamespace)
  else if noKeysGiven = some true then (false, .none)
  else if !dispatcher then (false, .storage .redisNotYetDiscovered)
  else (true, .none)

variable (cfg : Config) (dispatcher : Bool)

/-- The form of every operation: check, then post the ack or dispatch the command. -/
def operation (ns : Namespace) (noKeysGiven : Option Bool) (ack : ErrorCode → Ack)
    (commandCb : CommandCb) (contents : Contents) : Request :=
  let (ok, ec) := canOperationBePerformed dispatcher ns noKeysGiven
  if !ok then .postCallback (ack ec) else .dispatchAsync commandCb ns contents

def setAsync (ns : Namespace) (dataMap : DataMap) : Request :=
  operation dispatcher ns (some dataMap.isEmpty) .modifyAck .modificationCommandCallback <|
    if cfg.areNotificationsEnabled ns then
      contentsBuilder.buildDataMapStrings (str "MSETPUB") ns dataMap ns cfg.getPublishMessage
    else contentsBuilder.buildDataMap (str "MSET") ns dataMap

def setIfAsync (ns : Namespace) (key : Key) (oldData newData : Data) : Request :=
  operation dispatcher ns none (.modifyIfAck · false) .conditionalCommandCallback <|
    if cfg.areNotificationsEnabled ns then
      contentsBuilder.buildKeyData2Strings
        (str "SETIEPUB") ns key newData oldData ns cfg.getPublishMessage
    else contentsBuilder.buildKeyData2 (str "SETIE") ns key newData oldData

def removeIfAsync (ns : Namespace) (key : Key) (data : Data) : Request :=
  operation dispatcher ns none (.modifyIfAck · false) .conditionalCommandCallback <|
    if cfg.areNotificationsEnabled ns then
      contentsBuilder.buildKeyDataStrings (str "DELIEPUB") ns key data ns cfg.getPublishMessage
    else contentsBuilder.buildKeyData (str "DELIE") ns key data

def setIfNotExistsAsync (ns : Namespace) (key : Key) (data : Data) : Request :=
  operation dispatcher ns none (.modifyIfAck · false) .conditionalCommandCallback <|
    if cfg.areNotificationsEnabled ns then
      contentsBuilder.buildKeyDataStrings (str "SETNXPUB") ns key data ns cfg.getPublishMessage
    else contentsBuilder.buildKeyData (str "SETNX") ns key data

def getAsync (ns : Namespace) (keys : Keys) : Request :=
  operation dispatcher ns (some keys.isEmpty) (.getAck · OrdMap.empty) (.getCb keys) <|
    contentsBuilder.buildKeys (str "MGET") ns keys

def removeAsync (ns : Namespace) (keys : Keys) : Request :=
  operation dispatcher ns (some keys.isEmpty) .modifyAck .modificationCommandCallback <|
    if cfg.areNotificationsEnabled ns then
      contentsBuilder.buildKeysStrings (str "DELPUB") ns keys ns cfg.getPublishMessage
    else contentsBuilder.buildKeys (str "DEL") ns keys

def findKeys (ns : Namespace) (keyPattern : Bytes) : Request :=
  operation dispatcher ns none (.findKeysAck · OrdMap.empty) .findKeysCb <|
    ContentsBuilder.buildStrings (str "KEYS") keyPattern

def findKeysAsync (ns : Namespace) (keyPrefix : Bytes) : Request :=
  findKeys dispatcher ns (buildKeyPrefixSearchPattern ns keyPrefix)

def listKeys (ns : Namespace) (pattern : Bytes) : Request :=
  findKeys dispatcher ns (buildNamespaceKeySearchPattern ns pattern)

def removeAllAsync (ns : Namespace) : Request :=
  operation dispatcher ns none .modifyAck (.removeAllCb ns) <|
    ContentsBuilder.buildStrings (str "KEYS") (buildKeyPrefixSearchPattern ns [])

/-- What an operation does. -/
def Op.request : Op → Request
  | .setAsync ns dataMap => Redis.setAsync cfg dispatcher ns dataMap
  | .setIfAsync ns key oldData newData => Redis.setIfAsync cfg dispatcher ns key oldData newData
  | .setIfNotExistsAsync ns key data => Redis.setIfNotExistsAsync cfg dispatcher ns key data
  | .getAsync ns keys => Redis.getAsync dispatcher ns keys
  | .removeAsync ns keys => Redis.removeAsync cfg dispatcher ns keys
  | .removeIfAsync ns key data => Redis.removeIfAsync cfg dispatcher ns key data
  | .findKeysAsync ns keyPrefix => Redis.findKeysAsync dispatcher ns keyPrefix
  | .listKeys ns pattern => Redis.listKeys dispatcher ns pattern
  | .removeAllAsync ns => Redis.removeAllAsync dispatcher ns

/-- The namespace of an operation. -/
def Op.ns : Op → Namespace
  | .setAsync ns _ | .setIfAsync ns _ _ _ | .setIfNotExistsAsync ns _ _ | .getAsync ns _
  | .removeAsync ns _ | .removeIfAsync ns _ _ | .findKeysAsync ns _ | .listKeys ns _
  | .removeAllAsync ns => ns

/-- The operation has no keys to work on. -/
def Op.noKeysGiven : Op → Bool
  | .setAsync _ dataMap => dataMap.isEmpty
  | .getAsync _ keys | .removeAsync _ keys => keys.isEmpty
  | _ => false

/-- The ack of an operation that is not performed. -/
def Op.refuse (error : ErrorCode) : Op → Ack
  | .setAsync _ _ | .removeAsync _ _ | .removeAllAsync _ => .modifyAck error
  | .setIfAsync _ _ _ _ | .setIfNotExistsAsync _ _ _ | .removeIfAsync _ _ _ =>
    .modifyIfAck error false
  | .getAsync _ _ => .getAck error OrdMap.empty
  | .findKeysAsync _ _ | .listKeys _ _ => .findKeysAck error OrdMap.empty

theorem operation_invalid {ns : Namespace} (h : isValidNamespace ns = false) (n : Option Bool)
    (ack : ErrorCode → Ack) (cb : CommandCb) (c : Contents) :
    operation dispatcher ns n ack cb c = .postCallback (ack (.storage .invalidNamespace)) := by
  simp [operation, canOperationBePerformed, h]

theorem operation_empty {ns : Namespace} (h : isValidNamespace ns = true)
    (ack : ErrorCode → Ack) (cb : CommandCb) (c : Contents) :
    operation dispatcher ns (some true) ack cb c = .postCallback (ack .none) := by
  simp [operation, canOperationBePerformed, h]

theorem operation_dispatch {ns : Namespace} {n : Option Bool} (h : isValidNamespace ns = true)
    (hn : n ≠ some true) (ack : ErrorCode → Ack) (cb : CommandCb) (c : Contents) :
    operation true ns n ack cb c = .dispatchAsync cb ns c := by
  simp [operation, canOperationBePerformed, h, hn]

/-- A command is dispatched only if there is a dispatcher. -/
theorem operation_dispatcher {ns ns' : Namespace} {n : Option Bool} {ack : ErrorCode → Ack}
    {cb cb' : CommandCb} {c c' : Contents}
    (h : operation dispatcher ns n ack cb c = .dispatchAsync cb' ns' c') : dispatcher = true := by
  unfold operation canOperationBePerformed at h
  cases dispatcher with
  | true => rfl
  | false =>
    exfalso
    revert h
    simp only
    repeat' split
    all_goals simp_all

/-- The two ways of an operation, and the error that is acked if it is not performed. -/
theorem operation_cases (ns : Namespace) (n : Option Bool) (ack : ErrorCode → Ack) (cb : CommandCb)
    (c : Contents) :
    (∃ e, operation dispatcher ns n ack cb c = .postCallback (ack e) ∧
      (e = .none ∧ n = some true ∨ ∃ c, e = .storage c ∧ c ≠ .success)) ∨
    operation dispatcher ns n ack cb c = .dispatchAsync cb ns c := by
  unfold operation canOperationBePerformed
  by_cases hv : isValidNamespace ns = true
  · by_cases hn : n = some true
    · exact .inl ⟨.none, by simp [hv, hn], .inl ⟨rfl, hn⟩⟩
    · cases dispatcher with
      | false => exact .inl ⟨.storage .redisNotYetDiscovered, by simp [hv, hn],
        .inr ⟨_, rfl, by decide⟩⟩
      | true => exact .inr (by simp [hv, hn])
  · exact .inl ⟨.storage .invalidNamespace, by simp [hv], .inr ⟨_, rfl, by decide⟩⟩

/-- Every operation has the form of `operation`. The command of `removeAllAsync` is a search. -/
theorem Op.request_eq (op : Op) :
    ∃ n cb c, op.request cfg dispatcher = operation dispatcher op.ns n (fun e => op.refuse e) cb c ∧
      (op.noKeysGiven = true ↔ n = some true) ∧
      ∀ ns, cb = .removeAllCb ns → ∃ pattern,
      c = ContentsBuilder.buildStrings (str "KEYS") pattern := by
  cases op with
  | removeAllAsync ns => exact ⟨_, _, _, rfl, by simp [Op.noKeysGiven], fun _ _ => ⟨_, rfl⟩⟩
  | _ => exact ⟨_, _, _, rfl, by simp [Op.noKeysGiven], fun _ h => by cases h⟩

theorem Op.error_refuse (op : Op) (e : ErrorCode) : (op.refuse e).error = e := by cases op <;> rfl

theorem Op.request_dispatcher {op : Op} {cb : CommandCb} {ns : Namespace} {c : Contents}
    (h : op.request cfg dispatcher = .dispatchAsync cb ns c) : dispatcher = true := by
  obtain ⟨n, cb', c', he, -⟩ := op.request_eq cfg dispatcher
  rw [he] at h
  exact operation_dispatcher dispatcher h

/-- An invalid namespace is acked without a command. -/
theorem Op.request_invalid {op : Op} (h : isValidNamespace op.ns = false) :
    op.request cfg dispatcher = .postCallback (op.refuse (.storage .invalidNamespace)) := by
  obtain ⟨n, cb, c, he, -⟩ := op.request_eq cfg dispatcher
  rw [he, operation_invalid dispatcher h]

/-- Without keys an operation is acked with success and without a command. -/
theorem Op.request_empty {op : Op} (h : isValidNamespace op.ns = true)
    (hn : op.noKeysGiven = true) :
    op.request cfg dispatcher = .postCallback (op.refuse .none) := by
  obtain ⟨n, cb, c, he, hk, -⟩ := op.request_eq cfg dispatcher
  rw [he, hk.mp hn, operation_empty dispatcher h]

end Redis
end Sdl
