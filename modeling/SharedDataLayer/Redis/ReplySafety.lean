import SharedDataLayer.Redis.Storage
import SharedDataLayer.Sentinel.Discovery

/-!
# Replies that are not trusted (`src/redis/asyncredisreply.cpp` and its consumers)

A `redisReply` of hiredis is a tree of any shape. `AsyncRedisReply` copies it; a type that its map
does not have (an error in an array, a type of RESP3) leaves the member `type` unset. Four functions
read the copy by position. What is undefined behaviour in the source is an exception here: an access
out of bounds, `front()` of an empty vector, and a read of an unset type.

* `AsyncRedisReply.new_type`, `new_array`, `new_string`: what the copy holds of the tree.
* `parseSubscribeReply_some`, `parseMasterInquiryReply_some`: what the parsers accept.
* `parseSubscribeReply_defined` and its siblings: on which trees each consumer is defined.
* `consumer_correct_iff`: the four together.
-/

namespace Sdl
namespace Redis
namespace Untrusted

open Spec Sentinel

/-! ## The trees -/

/-- `redisReply`. `str` holds its `len` bytes, `element` its `elements` pointers. -/
inductive RedisReply where
  | mk (type : Int) (integer : Int) (str : Bytes) (element : List RedisReply)

namespace RedisReply

def type : RedisReply → Int
  | .mk t _ _ _ => t

def str : RedisReply → Bytes
  | .mk _ _ s _ => s

def element : RedisReply → List RedisReply
  | .mk _ _ _ es => es

end RedisReply

def REDIS_REPLY_STRING : Int := 1
def REDIS_REPLY_ARRAY : Int := 2
def REDIS_REPLY_INTEGER : Int := 3
def REDIS_REPLY_NIL : Int := 4
def REDIS_REPLY_STATUS : Int := 5
def REDIS_REPLY_ERROR : Int := 6

def typeMap (type : Int) : Option ReplyType :=
  if type = REDIS_REPLY_NIL then some .nil
  else if type = REDIS_REPLY_INTEGER then some .integer
  else if type = REDIS_REPLY_STATUS then some .status
  else if type = REDIS_REPLY_STRING then some .string
  else if type = REDIS_REPLY_ARRAY then some .array
  else none

/-- `Reply::DataItem`. -/
structure DataItem where
  str : Bytes
  len : Nat

/-- The members of an `AsyncRedisReply`. The type is `none` if it was not set. -/
inductive AsyncRedisReply where
  | mk (type : Option ReplyType) (integer : Int) (dataItem : DataItem)
    (replyVector : List AsyncRedisReply)

mutual

/-- The constructor, with `parseReply`. -/
def AsyncRedisReply.new : RedisReply → AsyncRedisReply
  | .mk type integer str element =>
    match typeMap type with
    | some .integer => .mk (some .integer) integer ⟨[], 0⟩ []
    | some .status => .mk (some .status) 0 ⟨str, str.length⟩ []
    | some .string => .mk (some .string) 0 ⟨str, str.length⟩ []
    | some .array => .mk (some .array) 0 ⟨[], 0⟩ (AsyncRedisReply.parseArray element)
    | some .nil => .mk (some .nil) 0 ⟨[], 0⟩ []
    | none => .mk none 0 ⟨[], 0⟩ []

def AsyncRedisReply.parseArray : List RedisReply → List AsyncRedisReply
  | [] => []
  | e :: es => AsyncRedisReply.new e :: AsyncRedisReply.parseArray es

end

/-- Undefined behaviour. -/
inductive Undefined where
  | outOfBounds | emptyFront | unsetType
  deriving DecidableEq

namespace AsyncRedisReply

def getType : AsyncRedisReply → Except Undefined ReplyType
  | .mk (some t) _ _ _ => .ok t
  | .mk none _ _ _ => .error .unsetType

def getString : AsyncRedisReply → DataItem
  | .mk _ _ d _ => d

def getArray : AsyncRedisReply → List AsyncRedisReply
  | .mk _ _ _ v => v

end AsyncRedisReply

/-! ## The consumers -/

/-- `v[i]`. -/
def access {α : Type} (v : List α) (i : Nat) : Except Undefined α :=
  match v[i]? with
  | some x => .ok x
  | none => .error .outOfBounds

/-- `v.front()`. -/
def front {α : Type} : List α → Except Undefined α
  | x :: _ => .ok x
  | [] => .error .emptyFront

def parseSubscribeReply (reply : AsyncRedisReply) : Except Undefined (Option SubscribeReply) := do
  let replyType ← reply.getType
  if replyType = .array then
    let first ← access reply.getArray 0
    let firstElementType ← first.getType
    if firstElementType = .string then
      let kind := first.getString.str
      if kind = str "subscribe" then .ok (some .subscribeReply)
      else if kind = str "message" then
        let third ← access reply.getArray 2
        let thirdElementType ← third.getType
        if thirdElementType = .string then .ok (some (.notification third.getString.str))
        else .ok none
      else .ok none
    else .ok none
  else .ok none

def parseMasterInquiryReply (net : Resolver) (reply : AsyncRedisReply) :
    Except Undefined (Option HostAndPort) := do
  let replyType ← reply.getType
  if replyType = .array then
    let host ← access reply.getArray 0
    let hostElementType ← host.getType
    if hostElementType = .string then
      let port ← access reply.getArray 1
      let portElementType ← port.getType
      if portElementType = .string then .ok (hostAndPort net host.getString.str port.getString.str)
      else .ok none
    else .ok none
  else .ok none

/-- The set of the names. -/
def parseCommandListReply (reply : AsyncRedisReply) : Except Undefined (OrdSet Bytes) :=
  reply.getArray.foldlM (fun availableCommands j => do
    let command ← front j.getArray
    .ok (availableCommands.insert command.getString.str ())) OrdMap.empty

/-- The loop that copies the bytes of an item. -/
def copyData (item : DataItem) : Except Undefined Data :=
  (List.range item.len).mapM fun k => access item.str k

/-- The body of the loop, for the key `j` and its position `i`. -/
def insertReply (replyVector : List AsyncRedisReply) (dataMap : DataMap) (j : Key × Nat) :
    Except Undefined DataMap := do
  let reply ← access replyVector j.2
  let type ← reply.getType
  if type = .string then
    let data ← copyData reply.getString
    .ok (dataMap.insert j.1 data)
  else .ok dataMap

def buildDataMap (keys : Keys) (replyVector : List AsyncRedisReply) : Except Undefined DataMap :=
  keys.elems.zipIdx.foldlM (insertReply replyVector) OrdMap.empty

/-- What reads a reply. -/
inductive Consumer where
  | subscribeReply
  | masterInquiryReply
  | commandListReply
  | dataMap (keys : Keys)

/-! ## What is expected of them -/

namespace RedisReply

def IsString (r : RedisReply) (s : Bytes) : Prop := r.type = REDIS_REPLY_STRING ∧ r.str = s

def IsArray (r : RedisReply) (es : List RedisReply) : Prop :=
  r.type = REDIS_REPLY_ARRAY ∧ r.element = es

/-- The type is in the map. -/
def Known (r : RedisReply) : Prop := ∃ t, typeMap r.type = some t

end RedisReply

/-- The replies of a subscription. -/
inductive Subscribed : RedisReply → SubscribeReply → Prop
  | subscribe {rr first : RedisReply} {rest : List RedisReply} (ha : rr.IsArray (first :: rest))
    (hf : first.IsString (str "subscribe")) : Subscribed rr .subscribeReply
  | message {rr first second third : RedisReply} {rest : List RedisReply} {text : Bytes}
    (ha : rr.IsArray (first :: second :: third :: rest)) (hf : first.IsString (str "message"))
    (ht : third.IsString text) : Subscribed rr (.notification text)

/-- The replies to an inquiry. -/
inductive Inquired (net : Resolver) : RedisReply → HostAndPort → Prop
  | master {rr first second : RedisReply} {rest : List RedisReply} {host port : Bytes}
    {a : HostAndPort}
    (ha : rr.IsArray (first :: second :: rest)) (hh : first.IsString host)
      (hp : second.IsString port)
    (hn : hostAndPort net host port = some a) : Inquired net rr a

/-- Nothing undefined happens, and the parsers give a result for the well-formed replies and null
for all others. -/
def Correct (net : Resolver) (rr : RedisReply) : Consumer → Prop
  | .subscribeReply => ∃ res, parseSubscribeReply (.new rr) = .ok res ∧ ∀ x,
    res = some x ↔ Subscribed rr x
  | .masterInquiryReply => ∃ res, parseMasterInquiryReply net (.new rr) = .ok res ∧ ∀ a,
    res = some a ↔ Inquired net rr a
  | .commandListReply => ∃ res, parseCommandListReply (.new rr) = .ok res
  | .dataMap keys => ∃ res, buildDataMap keys (AsyncRedisReply.new rr).getArray = .ok res

/-- An array is long enough for what is accessed, and what is asked for its type has a known one. -/
def LongEnough (rr : RedisReply) : Consumer → Prop
  | .subscribeReply => rr.Known ∧ (rr.type = REDIS_REPLY_ARRAY →
      ∃ first, rr.element[0]? = some first ∧ first.Known ∧
        (first.IsString (str "message") → ∃ third, rr.element[2]? = some third ∧ third.Known))
  | .masterInquiryReply => rr.Known ∧ (rr.type = REDIS_REPLY_ARRAY →
      ∃ first, rr.element[0]? = some first ∧ first.Known ∧
        (first.type = REDIS_REPLY_STRING → ∃ second, rr.element[1]? = some second ∧ second.Known))
  | .commandListReply => rr.type = REDIS_REPLY_ARRAY →
      ∀ j ∈ rr.element, j.type = REDIS_REPLY_ARRAY ∧ j.element ≠ []
  | .dataMap keys => ∀ i < keys.elems.length, rr.type = REDIS_REPLY_ARRAY ∧
      ∃ e, rr.element[i]? = some e ∧ e.Known

/-! ## The copy -/

section Copy

theorem access_eq_ok {α : Type} {v : List α} {i : Nat} {x : α} : access v i = .ok x ↔
    v[i]? = some x := by
  unfold access
  cases v[i]? with
  | none => exact iff_of_false (fun h => by cases h) (fun h => by cases h)
  | some y => simp

theorem typeMap_array {t : Int} : typeMap t = some .array ↔ t = REDIS_REPLY_ARRAY := by
  unfold typeMap
  repeat' split
  all_goals simp_all [REDIS_REPLY_NIL, REDIS_REPLY_INTEGER, REDIS_REPLY_STATUS, REDIS_REPLY_STRING,
    REDIS_REPLY_ARRAY]

theorem typeMap_string {t : Int} : typeMap t = some .string ↔ t = REDIS_REPLY_STRING := by
  unfold typeMap
  repeat' split
  all_goals simp_all [REDIS_REPLY_NIL, REDIS_REPLY_INTEGER, REDIS_REPLY_STATUS, REDIS_REPLY_STRING,
    REDIS_REPLY_ARRAY]

namespace AsyncRedisReply

theorem parseArray_eq (es : List RedisReply) : parseArray es = es.map AsyncRedisReply.new := by
  induction es with
  | nil => rfl
  | cons e es ih => rw [parseArray, ih, List.map_cons]

theorem new_type {rr : RedisReply} {t : ReplyType} : (new rr).getType = .ok t ↔
    typeMap rr.type = some t := by
  obtain ⟨type, integer, str, element⟩ := rr
  simp only [new, RedisReply.type]
  cases typeMap type with
  | none => exact iff_of_false (fun h => by cases h) (fun h => by cases h)
  | some u => cases u <;> simp [getType]

theorem new_array (rr : RedisReply) :
    (new rr).getArray = if rr.type = REDIS_REPLY_ARRAY then rr.element.map new else [] := by
  obtain ⟨type, integer, str, element⟩ := rr
  simp only [new, RedisReply.type, RedisReply.element, ← typeMap_array, ← parseArray_eq]
  cases typeMap type with
  | none => rfl
  | some u => cases u <;> rfl

theorem new_string {rr : RedisReply} (h : rr.type = REDIS_REPLY_STRING) :
    (new rr).getString = ⟨rr.str, rr.str.length⟩ := by
  obtain ⟨type, integer, str, element⟩ := rr
  have ht : typeMap type = some .string := typeMap_string.mpr h
  simp only [new, ht, RedisReply.str]
  rfl

/-- An element of the copy. -/
theorem access_new {rr : RedisReply} (h : rr.type = REDIS_REPLY_ARRAY) {i : Nat}
    {x : AsyncRedisReply} :
    access (new rr).getArray i = .ok x ↔ ∃ e, rr.element[i]? = some e ∧ x = new e := by
  rw [access_eq_ok, new_array, if_pos h, List.getElem?_map, Option.map_eq_some_iff]
  simp only [eq_comm]

end AsyncRedisReply

end Copy

/-! ## What the parsers accept -/

section Accept

open AsyncRedisReply

/-- A check of the parsers that is passed. -/
theorem ite_some_ok {α : Type} {c : Prop} [Decidable c] {x : Except Undefined (Option α)} {a : α} :
    (if c then x else .ok none) = .ok (some a) ↔ c ∧ x = .ok (some a) := by
  by_cases h : c
  · simp [h]
  · simp [h]

/-- The type is the one that is wanted. -/
theorem type_some {α : Type} {rr : RedisReply} {want : ReplyType} {code : Int}
    (hcode : ∀ {t}, typeMap t = some want ↔ t = code) {x : Except Undefined (Option α)} {a : α} :
    ((new rr).getType >>= fun t => if t = want then x else .ok none) = .ok (some a) ↔
      rr.type = code ∧ x = .ok (some a) := by
  simp only [bind_ok_iff, new_type, ite_some_ok]
  constructor
  · rintro ⟨t, ht, rfl, hx⟩
    exact ⟨hcode.mp ht, hx⟩
  · rintro ⟨ht, hx⟩
    exact ⟨_, hcode.mpr ht, rfl, hx⟩

/-- An element that is asked for is a string. -/
theorem access_string_some {α : Type} {rr : RedisReply}
    (harray : rr.type = REDIS_REPLY_ARRAY) {i : Nat}
    {f : AsyncRedisReply → Except Undefined (Option α)} {a : α} :
    (access (new rr).getArray i >>= fun x => x.getType >>= fun t =>
      if t = ReplyType.string then f x else .ok none) = .ok (some a) ↔
    ∃ e, rr.element[i]? = some e ∧ e.type = REDIS_REPLY_STRING ∧ f (new e) = .ok (some a) := by
  rw [bind_ok_iff]
  constructor
  · rintro ⟨x, hx, h⟩
    obtain ⟨e, he, rfl⟩ := (access_new harray).mp hx
    exact ⟨e, he, (type_some typeMap_string).mp h⟩
  · rintro ⟨e, he, h⟩
    exact ⟨_, (access_new harray).mpr ⟨e, he, rfl⟩, (type_some typeMap_string).mpr h⟩

theorem parseSubscribeReply_some {rr : RedisReply} {x : SubscribeReply} :
    parseSubscribeReply (new rr) = .ok (some x) ↔ Subscribed rr x := by
  unfold parseSubscribeReply
  rw [type_some typeMap_array]
  constructor
  · rintro ⟨harray, h⟩
    obtain ⟨first, hf, hfs, h⟩ := (access_string_some harray).mp h
    simp only [new_string hfs] at h
    split at h
    · rename_i hk
      cases h
      cases he : rr.element with
      | nil => rw [he] at hf; cases hf
      | cons e es => rw [he] at hf; cases hf; exact .subscribe ⟨harray, he⟩ ⟨hfs, hk⟩
    · obtain ⟨hk, h⟩ := ite_some_ok.mp h
      obtain ⟨third, ht, hts, h⟩ := (access_string_some harray).mp h
      cases h
      rw [new_string hts]
      match he : rr.element with
      | first' :: second :: third' :: rest =>
        rw [he] at hf ht
        cases hf; cases ht
        exact .message ⟨harray, he⟩ ⟨hfs, hk⟩ ⟨hts, rfl⟩
      | [_, _] => rw [he] at ht; cases ht
      | [_] => rw [he] at ht; cases ht
      | [] => rw [he] at ht; cases ht
  · intro h
    cases h with
    | subscribe ha hf =>
      refine ⟨ha.1, (access_string_some ha.1).mpr ⟨_, by rw [ha.2]; rfl, hf.1, ?_⟩⟩
      rw [new_string hf.1, hf.2]
      rfl
    | message ha hf ht =>
      refine ⟨ha.1, (access_string_some ha.1).mpr ⟨_, by rw [ha.2]; rfl, hf.1, ?_⟩⟩
      rw [new_string hf.1, hf.2, if_neg (by decide), if_pos rfl]
      refine (access_string_some ha.1).mpr ⟨_, by rw [ha.2]; rfl, ht.1, ?_⟩
      rw [new_string ht.1, ht.2]

theorem parseMasterInquiryReply_some {net : Resolver} {rr : RedisReply} {a : HostAndPort} :
    parseMasterInquiryReply net (new rr) = .ok (some a) ↔ Inquired net rr a := by
  unfold parseMasterInquiryReply
  rw [type_some typeMap_array]
  constructor
  · rintro ⟨harray, h⟩
    obtain ⟨first, hf, hfs, h⟩ := (access_string_some harray).mp h
    obtain ⟨second, hs, hss, h⟩ := (access_string_some harray).mp h
    rw [new_string hfs, new_string hss] at h
    match he : rr.element with
    | first' :: second' :: rest =>
      rw [he] at hf hs
      cases hf; cases hs
      exact .master ⟨harray, he⟩ ⟨hfs, rfl⟩ ⟨hss, rfl⟩ (Except.ok.inj h)
    | [_] => rw [he] at hs; cases hs
    | [] => rw [he] at hs; cases hs
  · rintro ⟨ha, hh, hp, hn⟩
    refine ⟨ha.1, (access_string_some ha.1).mpr ⟨_, by rw [ha.2]; rfl, hh.1, ?_⟩⟩
    refine (access_string_some ha.1).mpr ⟨_, by rw [ha.2]; rfl, hp.1, ?_⟩
    rw [new_string hh.1, new_string hp.1, hh.2, hp.2, hn]

end Accept

/-! ## Where the consumers are defined -/

section Defined

open AsyncRedisReply

theorem defined_bind {α β : Type} {x : Except Undefined α} {f : α → Except Undefined β} :
    (∃ v, (x >>= f) = .ok v) ↔ ∃ a, x = .ok a ∧ ∃ v, f a = .ok v := by
  simp only [bind_ok_iff]
  constructor
  · rintro ⟨v, a, hx, hf⟩
    exact ⟨a, hx, v, hf⟩
  · rintro ⟨a, hx, v, hf⟩
    exact ⟨v, a, hx, hf⟩

theorem defined_ite {α : Type} {c : Prop} [Decidable c] {x : Except Undefined α} {a : α} :
    (∃ v, (if c then x else .ok a) = .ok v) ↔ (c → ∃ v, x = .ok v) := by
  by_cases h : c
  · simp [h]
  · simp [h]

/-- The type is asked for, and compared with one of the known ones. -/
theorem type_defined {α : Type} {rr : RedisReply} {want : ReplyType} {code : Int}
    (hcode : ∀ {t}, typeMap t = some want ↔ t = code) {x : Except Undefined α} {a : α} :
    (∃ v, ((new rr).getType >>= fun t => if t = want then x else .ok a) = .ok v) ↔
      rr.Known ∧ (rr.type = code → ∃ v, x = .ok v) := by
  simp only [defined_bind, new_type, defined_ite]
  constructor
  · rintro ⟨t, ht, hx⟩
    exact ⟨⟨t, ht⟩, fun ha => hx (Option.some.inj (ht.symm.trans (hcode.mpr ha)))⟩
  · rintro ⟨⟨t, ht⟩, hx⟩
    refine ⟨t, ht, fun ha => hx (hcode.mp ?_)⟩
    rw [ht, ha]

theorem access_defined {α : Type} {rr : RedisReply} (harray : rr.type = REDIS_REPLY_ARRAY) {i : Nat}
    {f : AsyncRedisReply → Except Undefined α} :
    (∃ v, (access (new rr).getArray i >>= f) = .ok v) ↔ ∃ e, rr.element[i]? = some e ∧ ∃ v,
    f (new e) = .ok v := by
  simp only [defined_bind, access_new harray]
  constructor
  · rintro ⟨_, ⟨e, he, rfl⟩, hf⟩
    exact ⟨e, he, hf⟩
  · rintro ⟨e, he, hf⟩
    exact ⟨_, ⟨e, he, rfl⟩, hf⟩

/-- A loop is defined if every iteration is. -/
theorem foldlM_defined {α β : Type} {f : β → α → Except Undefined β} {P : α → Prop}
    (h : ∀ b x, (∃ v, f b x = .ok v) ↔ P x) (l : List α) (b : β) : (∃ v, l.foldlM f b = .ok v) ↔
      ∀ x ∈ l, P x := by
  induction l generalizing b with
  | nil => exact iff_of_true ⟨b, rfl⟩ fun x hx => absurd hx List.not_mem_nil
  | cons x l ih =>
    rw [List.foldlM_cons, defined_bind, List.forall_mem_cons, ← h b x]
    simp only [ih]
    constructor
    · rintro ⟨b', hb', hl⟩
      exact ⟨⟨b', hb'⟩, hl⟩
    · rintro ⟨⟨b', hb'⟩, hl⟩
      exact ⟨b', hb', hl⟩

theorem parseSubscribeReply_defined (rr : RedisReply) :
    (∃ res, parseSubscribeReply (new rr) = .ok res) ↔ LongEnough rr .subscribeReply := by
  unfold parseSubscribeReply
  rw [type_defined typeMap_array]
  refine and_congr_right fun _ => forall_congr' fun harray => ?_
  rw [access_defined harray]
  refine exists_congr fun first => and_congr_right fun _ => ?_
  rw [type_defined typeMap_string]
  refine and_congr_right fun _ => ?_
  -- Only for a message is the third element looked at.
  constructor
  · rintro h ⟨hs, hm⟩
    have h := h hs
    rw [new_string hs, hm, if_neg (by decide), if_pos rfl, access_defined harray] at h
    obtain ⟨third, ht, h⟩ := h
    exact ⟨third, ht, ((type_defined typeMap_string).mp h).1⟩
  · intro h hs
    rw [new_string hs]
    by_cases hk : first.str = str "subscribe"
    · exact ⟨_, if_pos hk⟩
    · rw [if_neg hk, defined_ite]
      intro hm
      obtain ⟨third, ht, hknown⟩ := h ⟨hs, hm⟩
      rw [access_defined harray]
      exact ⟨third, ht, (type_defined typeMap_string).mpr ⟨hknown, fun _ => ⟨_, rfl⟩⟩⟩

theorem parseMasterInquiryReply_defined (net : Resolver) (rr : RedisReply) :
    (∃ res, parseMasterInquiryReply net (new rr) = .ok res) ↔
    LongEnough rr .masterInquiryReply := by
  unfold parseMasterInquiryReply
  rw [type_defined typeMap_array]
  refine and_congr_right fun _ => forall_congr' fun harray => ?_
  rw [access_defined harray]
  refine exists_congr fun first => and_congr_right fun _ => ?_
  rw [type_defined typeMap_string]
  refine and_congr_right fun _ => forall_congr' fun hs => ?_
  rw [access_defined harray]
  refine exists_congr fun second => and_congr_right fun _ => ?_
  rw [type_defined typeMap_string]
  exact ⟨fun h => h.1, fun h => ⟨h, fun _ => ⟨_, rfl⟩⟩⟩

theorem front_defined {α β : Type} {v : List α} {f : α → β} :
    (∃ r, (front v >>= fun x => .ok (f x)) = .ok r) ↔ v ≠ [] := by
  cases v with
  | nil => exact iff_of_false (fun ⟨_, h⟩ => by cases h) (fun h => h rfl)
  | cons x v => exact iff_of_true ⟨f x, rfl⟩ (by simp)

/-- An element that is no array has an empty vector. -/
theorem parseCommandListReply_defined (rr : RedisReply) :
    (∃ res, parseCommandListReply (new rr) = .ok res) ↔ LongEnough rr .commandListReply := by
  unfold parseCommandListReply
  have hstep : ∀ (b : OrdSet Bytes) (j : AsyncRedisReply), (∃ v, (do
      let command ← front j.getArray
      .ok (b.insert command.getString.str ())) = Except.ok v) ↔ j.getArray ≠ [] :=
      fun b j => front_defined
  rw [foldlM_defined hstep, new_array]
  by_cases harray : rr.type = REDIS_REPLY_ARRAY
  · rw [if_pos harray, List.forall_mem_map]
    have helem : ∀ j : RedisReply, (new j).getArray ≠ [] ↔ j.type = REDIS_REPLY_ARRAY ∧
      j.element ≠ [] := by
      intro j
      rw [new_array]
      by_cases hj : j.type = REDIS_REPLY_ARRAY
      · simp [hj]
      · simp [hj]
    simp only [helem, LongEnough, harray, true_imp_iff]
  · rw [if_neg harray]
    exact iff_of_true (fun x hx => absurd hx List.not_mem_nil) fun h => absurd h harray

/-- The loop copies the bytes of a string. -/
theorem copyData_new {e : RedisReply} (h : e.type = REDIS_REPLY_STRING) :
    copyData (new e).getString = .ok e.str := by
  have hmap : ∀ (s : Bytes) (l : List Nat), (∀ k ∈ l, k < s.length) →
      l.mapM (fun k => access s k) = .ok (l.map fun k => s.getD k (chr ' ')) := by
    intro s l hl
    induction l with
    | nil => rfl
    | cons k l ih =>
      have hk : access s k = .ok (s.getD k (chr ' ')) := by
        rw [access_eq_ok, List.getD_eq_getElem?_getD]
        have hlt := hl k List.mem_cons_self
        simp [hlt]
      rw [List.mapM_cons, hk, ih fun k hk => hl k (List.mem_cons_of_mem _ hk)]
      rfl
  rw [new_string h, copyData, hmap e.str _ fun k hk => List.mem_range.mp hk]
  congr 1
  apply List.ext_getElem
  · simp
  · intro k h₁ h₂
    simp [h₂]

theorem insertReply_defined {rr : RedisReply} {dataMap : DataMap} {j : Key × Nat} :
    (∃ v, insertReply (new rr).getArray dataMap j = .ok v) ↔
      rr.type = REDIS_REPLY_ARRAY ∧ ∃ e, rr.element[j.2]? = some e ∧ e.Known := by
  unfold insertReply
  by_cases harray : rr.type = REDIS_REPLY_ARRAY
  · rw [access_defined harray]
    simp only [harray, true_and]
    refine exists_congr fun e => and_congr_right fun _ => ?_
    rw [type_defined typeMap_string]
    refine ⟨fun h => h.1, fun h => ⟨h, fun hs => ?_⟩⟩
    rw [copyData_new hs]
    exact ⟨_, rfl⟩
  · rw [new_array, if_neg harray]
    exact iff_of_false (fun ⟨_, h⟩ => by cases h) fun h => harray h.1

theorem buildDataMap_defined (rr : RedisReply) (keys : Keys) :
    (∃ res, buildDataMap keys (new rr).getArray = .ok res) ↔ LongEnough rr (.dataMap keys) := by
  unfold buildDataMap
  rw [foldlM_defined fun b x => @insertReply_defined rr b x]
  constructor
  · intro h i hi
    exact h (keys.elems[i], i) (List.mk_mem_zipIdx_iff_getElem?.mpr (List.getElem?_eq_getElem hi))
  · rintro h ⟨k, i⟩ hx
    have hi := List.mk_mem_zipIdx_iff_getElem?.mp hx
    exact h i (List.getElem?_eq_some_iff.mp hi).1

end Defined

/-- **Reply parsing.** Each consumer reads a tree without undefined behaviour, and the parsers
accept exactly the well-formed replies, if and only if the arrays of the tree are long enough for it
and it asks for known types only. -/
theorem consumer_correct_iff (net : Resolver) (rr : RedisReply) (c : Consumer) : Correct net rr c ↔
    LongEnough rr c := by
  cases c with
  | subscribeReply =>
    rw [← parseSubscribeReply_defined]
    refine exists_congr fun res => and_iff_left_of_imp fun hres x => ?_
    rw [← parseSubscribeReply_some, hres, Except.ok.injEq]
  | masterInquiryReply =>
    rw [← parseMasterInquiryReply_defined net]
    refine exists_congr fun res => and_iff_left_of_imp fun hres a => ?_
    rw [← parseMasterInquiryReply_some, hres, Except.ok.injEq]
  | commandListReply => exact parseCommandListReply_defined rr
  | dataMap keys => exact buildDataMap_defined rr keys

/-- An empty array. -/
def emptyArray : RedisReply := .mk REDIS_REPLY_ARRAY 0 [] []

/-- An array of one error. -/
def errorInArray : RedisReply := .mk REDIS_REPLY_ARRAY 0 [] [.mk REDIS_REPLY_ERROR 0 (str "ERR") []]

/-- The first element of an empty array is accessed, and the type of an error in an array is not
set. -/
theorem emptyArray_undefined :
    parseSubscribeReply (.new emptyArray) = .error .outOfBounds ∧
    (∀ net, parseMasterInquiryReply net (.new emptyArray) = .error .outOfBounds) ∧
    parseCommandListReply (.new errorInArray) = .error .emptyFront ∧
    buildDataMap (OrdMap.empty.insert (str "key") ())
    (AsyncRedisReply.new emptyArray).getArray = .error .outOfBounds ∧
    parseSubscribeReply (.new errorInArray) = .error .unsetType ∧
    ¬ ∀ net rr, rr.type ≠ REDIS_REPLY_ERROR → ∀ c, Correct net rr c := by
  have hsub : parseSubscribeReply (.new emptyArray) = .error .outOfBounds := rfl
  refine ⟨hsub, fun net => rfl, rfl, rfl, rfl, fun h => ?_⟩
  obtain ⟨res, hres, -⟩ := h ⟨fun _ => false, fun _ => none⟩ emptyArray (by decide) .subscribeReply
  rw [hsub] at hres
  cases hres

end Untrusted
end Redis
end Sdl
