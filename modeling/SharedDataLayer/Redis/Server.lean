import SharedDataLayer.Redis.Contents
import SharedDataLayer.Redis.Glob

/-!
# The Redis server

A flat store of byte strings, and the commands that the storage sends to it. A command is an
argument vector: its name is looked up in `commandTable` and its arguments are taken apart. A `PUB`
command is the plain one with a channel and a message as its last two arguments; for which replies
the module publishes the message is a parameter of the model (`Choices.publishes`), and so is the
order in which `KEYS` visits the keys (`Choices.scan`).

* `Db.find_mset`, `Db.find_del`: the store after a command, key by key.
* `mem_keys`: `KEYS` returns the keys that match.
-/

namespace Sdl
namespace Redis

open Spec

/-! ## Replies (`private/redis/reply.hpp`, `src/redis/asyncredisreply.cpp`) -/

/-- A reply that is not an error. -/
inductive Reply where
  | nil
  | integer (n : Int)
  | status (s : Bytes)
  | string (s : Bytes)
  | array (rs : List Reply)

/-- `Reply::Type`. -/
inductive ReplyType where
  | nil | integer | status | string | array
  deriving DecidableEq

namespace Reply

def getType : Reply → ReplyType
  | .nil => .nil
  | .integer _ => .integer
  | .status _ => .status
  | .string _ => .string
  | .array _ => .array

def getInteger : Reply → Int
  | .integer n => n
  | _ => 0

def getString : Reply → Bytes
  | .status s => s
  | .string s => s
  | _ => []

def getArray : Reply → List Reply
  | .array rs => rs
  | _ => []

end Reply

/-! ## The store -/

/-- The keys of the database with their values. -/
abbrev Db := OrdMap Bytes Bytes

namespace Db

def mset (db : Db) (es : List (Bytes × Bytes)) : Db := es.foldl (fun db e => db.assign e.1 e.2) db

def del (db : Db) (ks : List Bytes) : Db := ks.foldl OrdMap.erase db

theorem find_del (db : Db) (ks : List Bytes) (x : Bytes) :
    (db.del ks).find x = if x ∈ ks then none else db.find x := by
  unfold del
  induction ks generalizing db with
  | nil => simp
  | cons k ks ih =>
    rw [List.foldl_cons, ih, OrdMap.find_erase]
    by_cases hx : x ∈ ks <;> by_cases hk : x = k <;> simp [hx, hk]

/-- A key that is not set keeps its value. -/
theorem find_mset_of_not_mem {db : Db} {es : List (Bytes × Bytes)} {x : Bytes}
    (h : x ∉ es.map Prod.fst) : (db.mset es).find x = db.find x := by
  unfold mset
  induction es generalizing db with
  | nil => rfl
  | cons e es ih =>
    rw [List.map_cons, List.mem_cons, not_or] at h
    rw [List.foldl_cons, ih h.2, OrdMap.find_assign, if_neg h.1]

/-- A key that is set once has the value that it is set to. -/
theorem find_mset {db : Db} {es : List (Bytes × Bytes)}
    (hnd : (es.map Prod.fst).Nodup) {x v : Bytes}
    (h : (x, v) ∈ es) : (db.mset es).find x = some v := by
  induction es generalizing db with
  | nil => cases h
  | cons e es ih =>
    rw [List.map_cons, List.nodup_cons] at hnd
    show (Db.mset (db.assign e.1 e.2) es).find x = some v
    rcases List.mem_cons.mp h with rfl | h
    · rw [find_mset_of_not_mem hnd.1, OrdMap.find_assign, if_pos rfl]
    · exact ih hnd.2 h

end Db

/-! ## Commands -/

/-- A command without its publication. -/
inductive Command where
  | mset (es : List (Bytes × Bytes))
  | setie (key new old : Bytes)
  | setnx (key value : Bytes)
  | delie (key value : Bytes)
  | mget (keys : List Bytes)
  | del (keys : List Bytes)
  | keys (pattern : Bytes)

/-- What the server leaves open. -/
structure Choices where
  /-- The order in which `KEYS` visits the keys. -/
  scan : Db → List Bytes
  scan_perm : ∀ db, (scan db).Perm db.elems
  /-- Whether the module publishes for the `PUB` variant of a command that has this reply. -/
  publishes : Command → Reply → Bool

/-- The server: the store, and the messages that were published on the channels. -/
structure Server where
  db : Db
  published : List (Bytes × Bytes)

/-- The arguments of `MSET`: keys and values in turn. -/
def pairs : List Bytes → Option (List (Bytes × Bytes))
  | [] => some []
  | k :: v :: args => (pairs args).map ((k, v) :: ·)
  | [_] => none

/-- The command of a name from its arguments. -/
def commandTable : List (Bytes × (List Bytes → Option Command)) :=
  [(str "MSET", fun args => if args = [] then none else (pairs args).map .mset),
    (str "SETIE", fun | [key, new, old] => some (.setie key new old) | _ => none),
    (str "SETNX", fun | [key, value] => some (.setnx key value) | _ => none),
    (str "DELIE", fun | [key, value] => some (.delie key value) | _ => none),
    (str "MGET", fun args => if args = [] then none else some (.mget args)),
    (str "DEL", fun args => if args = [] then none else some (.del args)),
    (str "KEYS", fun | [pattern] => some (.keys pattern) | _ => none)]

/-- The commands that have a `PUB` variant, under its name. -/
def pubTable : List (Bytes × Bytes) :=
  [(str "MSETPUB", str "MSET"), (str "SETIEPUB", str "SETIE"), (str "SETNXPUB", str "SETNX"),
    (str "DELIEPUB", str "DELIE"), (str "DELPUB", str "DEL")]

/-- A command, with the channel and the message of a `PUB` variant. -/
structure Parsed where
  command : Command
  publication : Option (Bytes × Bytes)

/-- The last two arguments of a `PUB` command, and those before. -/
def splitPublication (args : List Bytes) : Option (List Bytes × Bytes × Bytes) :=
  match args.reverse with
  | message :: channel :: rest => some (rest.reverse, channel, message)
  | _ => none

/-- The command of an argument vector. -/
def parse : List Bytes → Option Parsed
  | [] => none
  | name :: args =>
    match pubTable.lookup name with
    | some plain => do
      let (args, channel, message) ← splitPublication args
      let command ← (← commandTable.lookup plain) args
      some ⟨command, some (channel, message)⟩
    | none => do
      let command ← (← commandTable.lookup name) args
      some ⟨command, none⟩

/-- A value as a reply. -/
def valueReply : Option Bytes → Reply
  | some v => .string v
  | none => .nil

variable (r : Choices)

/-- The reply and the store after a command. -/
def Command.exec (db : Db) : Command → Reply × Db
  | .mset es => (.status (str "OK"), db.mset es)
  | .setie key new old =>
    if db.find key = some old then (.status (str "OK"), db.assign key new) else (.nil, db)
  | .setnx key value =>
    if (db.find key).isSome then (.integer 0, db) else (.integer 1, db.assign key value)
  | .delie key value =>
    if db.find key = some value then (.integer 1, db.erase key) else (.integer 0, db)
  | .mget ks => (.array (ks.map fun k => valueReply (db.find k)), db)
  | .del ks => (.integer (ks.dedup.countP fun k => (db.find k).isSome), db.del ks)
  | .keys pattern => (.array (((r.scan db).filter (globMatches pattern)).map .string), db)

/-- The server executes an argument vector. `none` is an error reply: an unknown command or a wrong
number of arguments. -/
def exec (s : Server) (argv : List Bytes) : Option (Reply × Server) := do
  let p ← parse argv
  let (reply, db) := p.command.exec r s.db
  let published := match p.publication with
    | some cm => if r.publishes p.command reply then s.published ++ [cm] else s.published
    | none => s.published
  some (reply, ⟨db, published⟩)

/-- `KEYS` returns the keys that match. -/
theorem mem_keys {db : Db} {pattern x : Bytes} :
    x ∈ (r.scan db).filter (globMatches pattern) ↔
      (db.find x).isSome ∧ globMatches pattern x = true := by
  rw [List.mem_filter, (r.scan_perm db).mem_iff, OrdMap.mem_elems]

end Redis
end Sdl
