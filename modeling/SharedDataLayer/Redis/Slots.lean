import SharedDataLayer.Redis.Store
import Mathlib.Logic.Function.Iterate

/-!
# Hash slots of a Redis cluster

A node of a cluster executes a command only if all its keys are in one slot, and if that slot is its
own. The cluster dispatcher gives the namespace to hiredis-vip as the key that the command is routed
by.

`hashTag` and `crc16` are those of the Redis cluster specification.

* `keyHashSlot_encode`: the slot of a database key is that of its namespace.
* `slots_agree`: every command of the storage is in the slot that it is sent to.
-/

namespace Sdl
namespace Redis

open Spec

/-! ## The slot of a key -/

/-- One bit of CRC-16, the highest first. -/
def crc16Bit (crc : BitVec 16) : BitVec 16 := if crc.msb then crc <<< 1 ^^^ 0x1021#16 else crc <<< 1

def crc16Byte (crc : BitVec 16) (b : Byte) : BitVec 16 :=
  crc16Bit^[8] (crc ^^^ BitVec.ofNat 16 b.val <<< 8)

def crc16 (s : Bytes) : BitVec 16 := s.foldl crc16Byte 0

example : crc16 (str "123456789") = 0x31C3#16 := by decide +kernel

/-- What is hashed of a key: the text between the first `{` and the first `}` after it, if there is
one and it is not empty. -/
def hashTag (key : Bytes) : Bytes :=
  match find key (chr '{') with
  | none => key
  | some s =>
    match find (key.drop (s + 1)) (chr '}') with
    | none | some 0 => key
    | some n => (key.drop (s + 1)).take n

def keyHashSlot (key : Bytes) : Nat := (crc16 (hashTag key)).toNat % 16384

/-- A key of the database is hashed by its namespace. -/
theorem hashTag_encode {ns : Namespace} (hv : isValidNamespace ns = true) (k : Key) :
    hashTag (encode ns k) = ns := by
  obtain ⟨hne, hchars⟩ := isValidNamespace_iff.mp hv
  have hopen : find (encode ns k) (chr '{') = some 0 := by
    rw [encode_eq]
    exact find_append_cons (List.not_mem_nil (a := chr '{'))
  have hrest : (encode ns k).drop 1 = ns ++ chr '}' :: SEPARATOR :: k := by
    rw [encode_eq]
    rfl
  have hclose : find (ns ++ chr '}' :: SEPARATOR :: k) (chr '}') = some ns.length :=
    find_append_cons fun hm => (hchars _ hm).2.2 rfl
  have hlen : ns.length ≠ 0 := by simpa using hne
  unfold hashTag
  rw [hopen]
  simp only [Nat.zero_add, hrest, hclose]
  exact List.take_left

/-- A valid namespace has no hash tag. -/
theorem hashTag_namespace {ns : Namespace} (hv : isValidNamespace ns = true) : hashTag ns = ns := by
  have hopen : find ns (chr '{') = none := by
    unfold find
    rw [List.findIdx?_eq_none_iff]
    exact fun x hx => beq_false_of_ne ((isValidNamespace_iff.mp hv).2 x hx).2.1
  unfold hashTag
  rw [hopen]

theorem keyHashSlot_encode {ns : Namespace} (hv : isValidNamespace ns = true) (k : Key) :
    keyHashSlot (encode ns k) = keyHashSlot ns := by
  unfold keyHashSlot
  rw [hashTag_encode hv, hashTag_namespace hv]

/-! ## The commands -/

/-- The keys of a command. `KEYS` has none. -/
def Command.keyArgs : Command → List Bytes
  | .mset es => es.map Prod.fst
  | .setie key _ _ | .setnx key _ | .delie key _ => [key]
  | .mget ks | .del ks => ks
  | .keys _ => []

/-- The arguments of `redisClusterAsyncCommandArgvWithKey`. -/
structure ClusterCommand where
  key : Bytes
  argv : List Bytes

/-- What `AsyncHiredisClusterCommandDispatcher::dispatchAsync` gives to hiredis-vip. -/
def clusterCommand : Request → Option ClusterCommand
  | .postCallback _ => none
  | .dispatchAsync _ ns contents => some ⟨ns, contents.argv⟩

/-- The node of the routing key is the one of every key of the command. -/
def ClusterCommand.Routed (c : ClusterCommand) : Prop :=
  ∃ p, parse c.argv = some p ∧ ∀ k ∈ p.command.keyArgs, keyHashSlot k = keyHashSlot c.key

/-- A command that works on keys has those of one namespace. -/
theorem StoreOp.mem_keyArgs {op : StoreOp} {x : Bytes} (h : x ∈ op.command.keyArgs) :
    ∃ k, x = encode op.ns k := by
  cases op with
  | set ns m =>
    simp only [StoreOp.command, Command.keyArgs, List.map_map, List.mem_map] at h
    obtain ⟨e, -, rfl⟩ := h
    exact ⟨e.1, rfl⟩
  | get ns keys | remove ns keys =>
    obtain ⟨k, -, rfl⟩ := List.mem_map.mp h
    exact ⟨k, rfl⟩
  | setIf ns k | setIfNotExists ns k | removeIf ns k => exact ⟨k, List.mem_singleton.mp h⟩

/-- Every dispatched operation has a valid namespace and, where it takes keys, some. -/
theorem Op.dispatched {cfg : Config} {dispatcher : Bool} {op : Op} {cb : CommandCb}
    {ns : Namespace} {c : Contents} (h : op.request cfg dispatcher = .dispatchAsync cb ns c) :
    dispatcher = true ∧ ns = op.ns ∧ isValidNamespace op.ns = true ∧ op.noKeysGiven = false := by
  have hd := Op.request_dispatcher cfg dispatcher h
  have hv : isValidNamespace op.ns = true := by
    by_contra hv
    rw [Op.request_invalid cfg dispatcher (by simpa using hv)] at h
    cases h
  have hk : op.noKeysGiven = false := by
    by_contra hk
    rw [Op.request_empty cfg dispatcher hv (by simpa using hk)] at h
    cases h
  obtain ⟨n, cb', c', he, hn, -⟩ := op.request_eq cfg dispatcher
  subst hd
  have hne : n ≠ some true := fun e => by
    rw [hn.mpr e] at hk
    cases hk
  rw [he, operation_dispatch hv hne] at h
  cases h
  exact ⟨rfl, rfl, hv, hk⟩

/-- The command of a store operation is routed by its namespace. -/
theorem StoreOp.routed {cfg : Config} {op : StoreOp} {cb : CommandCb}
    {ns : Namespace} {c : Contents} (h : op.toOp.request cfg true = .dispatchAsync cb ns c) :
    (⟨ns, c.argv⟩ : ClusterCommand).Routed := by
  obtain ⟨-, rfl, hv, hk⟩ := Op.dispatched h
  obtain ⟨c', hc', hp⟩ := StoreOp.request_dispatch cfg hv hk
  rw [hc'] at h
  cases h
  refine ⟨_, hp, fun x hx => ?_⟩
  obtain ⟨k, rfl⟩ := StoreOp.mem_keyArgs hx
  exact keyHashSlot_encode hv k

/-- A search has no keys. -/
theorem routed_keys (ns pattern : Bytes) :
    (⟨ns, (ContentsBuilder.buildStrings (str "KEYS") pattern).argv⟩ : ClusterCommand).Routed := by
  refine ⟨⟨.keys pattern, none⟩, ?_, fun k hk => by cases hk⟩
  rw [Contents.argv_eq]
  exact parse_plain rfl rfl rfl

/-- The slot of every database key of a valid namespace is that of the namespace, whatever bytes the
key has. So every command that an operation gives to the cluster dispatcher, with the namespace as
its routing key, has all its keys in the slot that it is sent to. -/
theorem slots_agree (cfg : Config) (dispatcher : Bool) :
    (∀ ns, isValidNamespace ns = true → ∀ k, keyHashSlot (encode ns k) = keyHashSlot ns) ∧
      ∀ (op : Op) (c : ClusterCommand), clusterCommand (op.request cfg dispatcher) = some c →
        c.key = op.ns ∧ c.Routed := by
  refine ⟨fun ns hv k => keyHashSlot_encode hv k, fun op c hc => ?_⟩
  cases hr : op.request cfg dispatcher with
  | postCallback a =>
    rw [hr] at hc
    cases hc
  | dispatchAsync cb ns contents =>
    rw [hr] at hc
    cases hc
    obtain ⟨rfl, hns, hv, hk⟩ := Op.dispatched hr
    refine ⟨hns, ?_⟩
    cases op with
    | setAsync ns dataMap => exact @StoreOp.routed cfg (.set _ dataMap) _ _ _ hr
    | setIfAsync ns key old new => exact @StoreOp.routed cfg (.setIf _ key old new) _ _ _ hr
    | setIfNotExistsAsync ns key data =>
      exact @StoreOp.routed cfg (.setIfNotExists _ key data) _ _ _ hr
    | getAsync ns keys => exact @StoreOp.routed cfg (.get _ keys) _ _ _ hr
    | removeAsync ns keys => exact @StoreOp.routed cfg (.remove _ keys) _ _ _ hr
    | removeIfAsync ns key data => exact @StoreOp.routed cfg (.removeIf _ key data) _ _ _ hr
    | findKeysAsync ns keyPrefix | listKeys ns keyPrefix | removeAllAsync ns =>
      have hv : isValidNamespace ns = true := hv
      simp only [Op.request, Redis.findKeysAsync, Redis.listKeys, findKeys,
        Redis.removeAllAsync] at hr
      rw [operation_dispatch hv (by simp)] at hr
      cases hr
      exact routed_keys _ _

/-- Keys with braces and separators. -/
theorem slots_agree_braces :
    keyHashSlot (encode (str "ns") (str "\x7ba\x7d,b")) = keyHashSlot (str "ns") :=
  (slots_agree ⟨none, by decide, fun _ => false⟩ true).1 (str "ns") (by decide) _

end Redis
end Sdl
