import SharedDataLayer.Redis.ReplySafety
import SharedDataLayer.Redis.Search

/-!
# The codec of the database keys
(`src/redis/contentsbuilder.cpp`, `src/redis/asyncredisstorage.cpp`)

`ContentsBuilder::addKey` puts the namespace and the key into one argument of a command, and
`getKey` takes the key out of a string of the reply to `KEYS`. Between them are hiredis, which sends
as many bytes as the sizes say, and the copy of the reply, which keeps the bytes and their number.
`getKey` reads that number of bytes from the buffer of the copy.

* `getKey_new`: on the copy of a reply the decoder is that of `Redis/Contents.lean`.
* `keyCodec_exact`: the round trip, and that no two entries share a database key.
-/

namespace Sdl
namespace Redis
namespace Untrusted

open Spec

/-- `std::string(item.str.c_str(), item.len)`. The buffer ends in a NUL. -/
def DataItem.read (item : DataItem) : Except Undefined Bytes :=
  if item.len ≤ item.str.length + 1 then .ok ((item.str ++ [chr '\x00']).take item.len)
  else .error .outOfBounds

def getKey (item : DataItem) : Except Undefined Key := do
  let str ← item.read
  .ok (Redis.getKey str)

/-! ## Decoding a copy -/

section Decode

open AsyncRedisReply

/-- The number of bytes is that of the string. -/
theorem getKey_item {item : DataItem} (h : item.len = item.str.length) :
    getKey item = .ok (Redis.getKey item.str) := by
  have hread : item.read = .ok item.str := by
    rw [DataItem.read, if_pos (by omega), h, List.take_left]
  rw [getKey, hread]
  rfl

/-- The copy keeps the number of bytes, whatever the reply is. -/
theorem new_len (rr : RedisReply) : (new rr).getString.len = (new rr).getString.str.length := by
  obtain ⟨type, integer, str, element⟩ := rr
  simp only [new]
  cases typeMap type with
  | none => rfl
  | some t => cases t <;> rfl

theorem getKey_new {rr : RedisReply} (h : rr.type = REDIS_REPLY_STRING) :
    getKey (new rr).getString = .ok (Redis.getKey rr.str) := by
  rw [getKey_item (new_len rr), new_string h]

end Decode

/-! ## The codec -/

/-- The reply that holds a string. -/
def stringReply (s : Bytes) : RedisReply := .mk REDIS_REPLY_STRING 0 s []

/-- **Key codec.** For valid namespaces and any keys: `addKey` adds the argument `{ns},key`, which
hiredis sends as it is; `getKey` of the reply that holds it gives the key; and two such arguments
are equal for the same namespace and key only. -/
theorem keyCodec_exact {ns ns' : Namespace} (hv : isValidNamespace ns = true)
    (hv' : isValidNamespace ns' = true) (k k' : Key) (contents : Contents) :
    (contentsBuilder.addKey contents ns k).argv = contents.argv ++ [encode ns k] ∧
    encode ns k = [chr '{'] ++ ns ++ [chr '}', chr ','] ++ k ∧
    getKey (AsyncRedisReply.new (stringReply (encode ns k))).getString = .ok k ∧
    (encode ns k = encode ns' k' ↔ ns = ns' ∧ k = k') := by
  refine ⟨?_, ?_, ?_, ?_⟩
  · rw [Contents.argv_eq, Contents.argv_eq, ContentsBuilder.addKey_stack]
    rfl
  · rw [encode_eq]
    simp [SEPARATOR]
  · rw [getKey_new rfl]
    exact congrArg Except.ok (getKey_encode hv k)
  · constructor
    · exact encode_inj hv hv'
    · rintro ⟨rfl, rfl⟩
      rfl

/-- A key of a separator, both braces and a NUL. -/
def separatorsKey : Key := [SEPARATOR, chr '}', chr '{', chr '}', SEPARATOR, chr '\x00']

theorem keyCodec_exact_separators :
    getKey (AsyncRedisReply.new (stringReply (encode (str "ns") separatorsKey))).getString =
      .ok separatorsKey ∧
      encode (str "ns") separatorsKey ≠ encode (str "n") [] := by
  obtain ⟨-, -, hkey, hinj⟩ := @keyCodec_exact (str "ns") (str "n") (by decide)
    (by decide) separatorsKey [] .empty
  refine ⟨hkey, fun h => ?_⟩
  exact absurd (hinj.mp h).2 (by decide)

end Untrusted
end Redis
end Sdl
