import SharedDataLayer.Redis.Storage

/-!
# The abstract store, and its refinement

The abstract store maps a namespace and a key to data. An operation acts at once on the entries of
its own namespace (`StoreOp.act`), and on nothing if the namespace is not valid (`StoreOp.spec`).
The model of the code refines it through `abs`, which reads the entry of a namespace and a key in
the database of the server.

* `StoreOp.request_dispatch`: the command that an operation sends, as the server takes it apart.
* `StoreOp.simulates`: the command does to its namespace what the abstract operation does.
* `perform_spec`: one operation; `store_refinement`: every sequence of operations.
-/

namespace Sdl
namespace Redis

open Spec

/-! ## The abstract store -/

/-- The data of every namespace and key. -/
abbrev Store := Namespace → Key → Option Data

/-- The operations on the store. -/
inductive StoreOp where
  | set (ns : Namespace) (dataMap : DataMap)
  | setIf (ns : Namespace) (key : Key) (oldData newData : Data)
  | setIfNotExists (ns : Namespace) (key : Key) (data : Data)
  | get (ns : Namespace) (keys : Keys)
  | remove (ns : Namespace) (keys : Keys)
  | removeIf (ns : Namespace) (key : Key) (data : Data)

namespace StoreOp

/-- The operation of `AsyncRedisStorage`. -/
def toOp : StoreOp → Op
  | .set ns dataMap => .setAsync ns dataMap
  | .setIf ns key oldData newData => .setIfAsync ns key oldData newData
  | .setIfNotExists ns key data => .setIfNotExistsAsync ns key data
  | .get ns keys => .getAsync ns keys
  | .remove ns keys => .removeAsync ns keys
  | .removeIf ns key data => .removeIfAsync ns key data

def ns (op : StoreOp) : Namespace := op.toOp.ns

/-- The ack, and the entries of the namespace after the operation. -/
def act (t : Key → Option Data) : StoreOp → Ack × (Key → Option Data)
  | .set _ dataMap => (.modifyAck .none, fun k => (dataMap.find k).or (t k))
  | .setIf _ key oldData newData =>
    if t key = some oldData then (.modifyIfAck .none true, Function.update t key (some newData))
    else (.modifyIfAck .none false, t)
  | .setIfNotExists _ key data =>
    if (t key).isSome then (.modifyIfAck .none false, t)
    else (.modifyIfAck .none true, Function.update t key (some data))
  | .get _ keys => (.getAck .none (OrdMap.ofFn keys t), t)
  | .remove _ keys => (.modifyAck .none, fun k => if k ∈ keys.elems then none else t k)
  | .removeIf _ key data =>
    if t key = some data then (.modifyIfAck .none true, Function.update t key none)
    else (.modifyIfAck .none false, t)

/-- The ack, and the store after the operation. -/
def spec (op : StoreOp) (s : Store) : Ack × Store :=
  if isValidNamespace op.ns then
    ((op.act (s op.ns)).1, Function.update s op.ns (op.act (s op.ns)).2)
  else (op.toOp.refuse (.storage .invalidNamespace), s)

theorem spec_valid {op : StoreOp} {s : Store} {a : Ack} {t : Key → Option Data}
    (hv : isValidNamespace op.ns = true) (ha : op.act (s op.ns) = (a, t)) :
    op.spec s = (a, Function.update s op.ns t) := by
  rw [spec, if_pos hv, ha]

/-- The acks of a sequence of operations, and the store after it. -/
def specAll : List StoreOp → Store → List Ack × Store
  | [], s => ([], s)
  | op :: ops, s => ((op.spec s).1 :: (specAll ops (op.spec s).2).1, (specAll ops (op.spec s).2).2)

/-- The operation changes entries: it has a notifying variant. -/
def modifies : StoreOp → Bool
  | .get _ _ => false
  | _ => true

/-! ## The commands -/

/-- The callback of the operation's command. -/
def commandCb : StoreOp → CommandCb
  | .set _ _ | .remove _ _ => .modificationCommandCallback
  | .setIf _ _ _ _ | .setIfNotExists _ _ _ | .removeIf _ _ _ => .conditionalCommandCallback
  | .get _ keys => .getCb keys

/-- The command of the operation, without a publication. -/
def command : StoreOp → Command
  | .set ns dataMap => .mset (dataMap.toList.map fun e => (encode ns e.1, e.2))
  | .setIf ns key oldData newData => .setie (encode ns key) newData oldData
  | .setIfNotExists ns key data => .setnx (encode ns key) data
  | .get ns keys => .mget (keys.elems.map (encode ns))
  | .remove ns keys => .del (keys.elems.map (encode ns))
  | .removeIf ns key data => .delie (encode ns key) data

/-- The channel and the message of the operation's command. -/
def publication (cfg : Config) (op : StoreOp) : Option (Bytes × Bytes) :=
  if op.modifies && cfg.areNotificationsEnabled op.ns then some (op.ns, cfg.getPublishMessage)
  else none

end StoreOp

theorem pairs_flatMap {ns : Namespace} (l : List (Key × Data)) :
    pairs (l.flatMap fun e => [encode ns e.1, e.2]) =
      some (l.map fun e => (encode ns e.1, e.2)) := by
  induction l with
  | nil => rfl
  | cons e l ih => simp [pairs, ih]

theorem splitPublication_append (args : List Bytes) (c m : Bytes) :
    splitPublication (args ++ [c, m]) = some (args, c, m) := by
  simp [splitPublication]

/-- A plain command is parsed by the table. -/
theorem parse_plain {name : Bytes} {f : List Bytes → Option Command} {args : List Bytes}
    {cmd : Command} (hp : pubTable.lookup name = none) (hf : commandTable.lookup name = some f)
    (ha : f args = some cmd) : parse (name :: args) = some ⟨cmd, none⟩ := by
  simp [parse, hp, hf, ha]

/-- A `PUB` command is the plain one with a channel and a message behind its arguments. -/
theorem parse_pub {name plain : Bytes} {f : List Bytes → Option Command} {args : List Bytes}
    {cmd : Command} {c m : Bytes} (hp : pubTable.lookup name = some plain)
    (hf : commandTable.lookup plain = some f) (ha : f args = some cmd) :
    parse (name :: (args ++ [c, m])) = some ⟨cmd, some (c, m)⟩ := by
  simp [parse, hp, hf, ha, splitPublication_append]

/-- The contents of an operation with a notifying variant: the plain command `name`, or `pubName`
with the namespace and the message. -/
theorem parse_variant {cfg : Config} {ns : Namespace} (pubName name : Bytes) (args : List Bytes)
    {f : List Bytes → Option Command} {cmd : Command} {c c' : Contents}
    (hp : pubTable.lookup pubName = some name)
    (hn : pubTable.lookup name = none) (hf : commandTable.lookup name = some f)
    (ha : f args = some cmd) (hc : c.stack = pubName :: (args ++ [ns, cfg.getPublishMessage]))
    (hc' : c'.stack = name :: args) :
    parse (if cfg.areNotificationsEnabled ns then c else c').argv =
      some ⟨cmd, if cfg.areNotificationsEnabled ns then
        some (ns, cfg.getPublishMessage) else none⟩ := by
  split
  · rw [Contents.argv_eq, hc]; exact parse_pub hp hf ha
  · rw [Contents.argv_eq, hc']; exact parse_plain hn hf ha

/-- The command that an operation sends, as the server takes it apart. -/
theorem StoreOp.request_dispatch (cfg : Config) {op : StoreOp} (hv : isValidNamespace op.ns = true)
    (hk : op.toOp.noKeysGiven = false) :
    ∃ c, op.toOp.request cfg true = .dispatchAsync op.commandCb op.ns c ∧
      parse c.argv = some ⟨op.command, op.publication cfg⟩ := by
  cases op with
  | set ns m =>
    have hm : m.isEmpty = false := hk
    have hv : isValidNamespace ns = true := hv
    refine ⟨_, (operation_dispatch hv (by simp [hm]) _ _ _ : setAsync cfg true ns m = _), ?_⟩
    refine parse_variant (str "MSETPUB") (str "MSET")
      (m.toList.flatMap fun e => [encode ns e.1, e.2]) rfl rfl rfl ?_ ?_ ?_
    · obtain ⟨l, hl⟩ := m
      cases l with
      | nil => cases hm
      | cons e l =>
        show Option.map _ (pairs _) = _
        rw [pairs_flatMap]; rfl
    · simp [ContentsBuilder.buildDataMapStrings, encode]
    · simp [ContentsBuilder.buildDataMap, encode]
  | setIf ns k old new =>
    have hv : isValidNamespace ns = true := hv
    exact ⟨_, (operation_dispatch hv (by simp) _ _ _ : setIfAsync cfg true ns k old new = _),
      parse_variant (str "SETIEPUB") (str "SETIE") [encode ns k, new, old] rfl rfl rfl rfl rfl rfl⟩
  | setIfNotExists ns k d =>
    have hv : isValidNamespace ns = true := hv
    exact ⟨_, (operation_dispatch hv (by simp) _ _ _ : setIfNotExistsAsync cfg true ns k d = _),
      parse_variant (str "SETNXPUB") (str "SETNX") [encode ns k, d] rfl rfl rfl rfl rfl rfl⟩
  | get ns ks =>
    have hks : ks.isEmpty = false := hk
    have hv : isValidNamespace ns = true := hv
    refine ⟨_, (operation_dispatch hv (by simp [hks]) _ _ _ : getAsync true ns ks = _), ?_⟩
    rw [Contents.argv_eq]
    obtain ⟨l, hl⟩ := ks
    cases l with
    | nil => cases hks
    | cons e l =>
      simp only [ContentsBuilder.buildKeys, ContentsBuilder.addKeys_stack,
        ContentsBuilder.addString_stack, Contents.empty_stack, List.nil_append,
        List.singleton_append]
      exact parse_plain rfl rfl rfl
  | remove ns ks =>
    have hks : ks.isEmpty = false := hk
    have hv : isValidNamespace ns = true := hv
    refine ⟨_, (operation_dispatch hv (by simp [hks]) _ _ _ : removeAsync cfg true ns ks = _), ?_⟩
    refine parse_variant (str "DELPUB") (str "DEL") (ks.elems.map (encode ns)) rfl rfl rfl ?_ ?_ ?_
    · obtain ⟨l, hl⟩ := ks
      cases l with
      | nil => cases hks
      | cons e l => rfl
    · simp [ContentsBuilder.buildKeysStrings, encode]
    · simp [ContentsBuilder.buildKeys, encode]
  | removeIf ns k d =>
    have hv : isValidNamespace ns = true := hv
    exact ⟨_, (operation_dispatch hv (by simp) _ _ _ : removeIfAsync cfg true ns k d = _),
      parse_variant (str "DELIEPUB") (str "DELIE") [encode ns k, d] rfl rfl rfl rfl rfl rfl⟩

/-! ## One operation -/

/-- The entries of a namespace in the database. -/
def entries (db : Db) (ns : Namespace) : Key → Option Data := fun k => db.find (encode ns k)

/-- The store that the server holds. -/
def abs (s : Server) : Store := fun ns => if isValidNamespace ns then entries s.db ns
  else fun _ => none

@[simp] theorem encode_right_inj {ns : Namespace} {k k' : Key} :
    encode ns k = encode ns k' ↔ k = k' := by
  simp [encode_eq]

theorem insertReply_valueReply (m : DataMap) (k : Key) (o : Option Data) :
    insertReply m (k, valueReply o) = match o with | some v => m.insert k v | none => m := by
  cases o <;> rfl

/-- The loop of `buildDataMap` over the replies of `MGET` for the keys of `l`. -/
theorem find_foldl_insertReply (t : Key → Option Data) {l : List Key} {m : DataMap} (hl : l.Nodup)
    (hm : ∀ k ∈ l, m.find k = none) (x : Key) :
    ((l.zip (l.map fun k => valueReply (t k))).foldl insertReply m).find x =
      if x ∈ l then t x else m.find x := by
  induction l generalizing m with
  | nil => simp
  | cons k l ih =>
    rw [List.nodup_cons] at hl
    have hml : ∀ y ∈ l, m.find y = none := fun y hy => hm y (by simp [hy])
    rw [List.map_cons, List.zip_cons_cons, List.foldl_cons, insertReply_valueReply]
    cases hk : t k with
    | none =>
      rw [ih hl.2 hml]
      by_cases hx : x = k
      · subst hx; simp [hl.1, hk, hm x (by simp)]
      · simp [hx]
    | some v =>
      have hi : ∀ y ∈ l, (m.insert k v).find y = none := fun y hy => by
        have hyk : y ≠ k := fun e => hl.1 (e ▸ hy)
        rw [OrdMap.find_insert, if_neg hyk]; exact hml y hy
      rw [ih hl.2 hi, OrdMap.find_insert, hm k (by simp)]
      by_cases hx : x = k
      · subst hx; simp [hl.1, hk]
      · simp [hx]

/-- Positional decoding: the replies of `MGET` are in the order of the keys. -/
theorem buildDataMap_mget (keys : Keys) (t : Key → Option Data) :
    buildDataMap keys (keys.elems.map fun k => valueReply (t k)) = OrdMap.ofFn keys t := by
  apply OrdMap.ext_find
  intro x
  unfold buildDataMap
  rw [OrdMap.find_ofFn, find_foldl_insertReply t keys.elems_nodup fun k _ => OrdMap.find_empty k]
  by_cases hx : x ∈ keys.elems <;> simp [hx]

theorem entries_mset (db : Db) (ns : Namespace) (m : DataMap) (k : Key) :
    entries (db.mset (m.toList.map fun e => (encode ns e.1, e.2))) ns k =
      (m.find k).or (entries db ns k) := by
  have hkeys : (m.toList.map fun e => (encode ns e.1, e.2)).map Prod.fst =
    m.elems.map (encode ns) := by
    simp [OrdMap.elems, Function.comp_def]
  unfold entries
  cases hm : m.find k with
  | some v =>
    rw [Option.some_or]
    refine Db.find_mset ?_ (List.mem_map.mpr ⟨(k, v), OrdMap.mem_toList.mpr hm, rfl⟩)
    rw [hkeys]
    exact m.elems_nodup.map fun a b h => encode_right_inj.mp h
  | none =>
    rw [Option.none_or]
    refine Db.find_mset_of_not_mem ?_
    rw [hkeys]
    simp [OrdMap.mem_elems, hm]

theorem entries_assign (db : Db) (ns : Namespace) (k : Key) (v : Data) :
    entries (db.assign (encode ns k) v) ns = Function.update (entries db ns) k (some v) := by
  funext x
  simp [entries, Function.update_apply]

theorem entries_erase (db : Db) (ns : Namespace) (k : Key) :
    entries (db.erase (encode ns k)) ns = Function.update (entries db ns) k none := by
  funext x
  simp [entries, Function.update_apply]

/-- The simulation from what the command and the abstract operation do. -/
theorem StoreOp.simulates_of {r : Choices} {db db' : Db} {op : StoreOp} {reply : Reply} {a : Ack}
    {t : Key → Option Data} (he : op.command.exec r db = (reply, db'))
    (ha : op.act (entries db op.ns) = (a, t)) (hc : op.commandCb.call .none reply = .ack a)
    (ht : entries db' op.ns = t) (hx : ∀ x, (∀ k, x ≠ encode op.ns k) → db'.find x = db.find x) :
    op.commandCb.call .none (op.command.exec r db).1 = .ack (op.act (entries db op.ns)).1 ∧
      entries (op.command.exec r db).2 op.ns = (op.act (entries db op.ns)).2 ∧
      ∀ x, (∀ k, x ≠ encode op.ns k) → (op.command.exec r db).2.find x = db.find x := by
  rw [he, ha]
  exact ⟨hc, ht, hx⟩

/-- **Simulation.** The command does to the entries of its namespace what the abstract operation
does, its callback calls the ack of the abstract operation, and no other key changes. -/
theorem StoreOp.simulates (r : Choices) (db : Db) (op : StoreOp) :
    op.commandCb.call .none (op.command.exec r db).1 = .ack (op.act (entries db op.ns)).1 ∧
      entries (op.command.exec r db).2 op.ns = (op.act (entries db op.ns)).2 ∧
      ∀ x, (∀ k, x ≠ encode op.ns k) → (op.command.exec r db).2.find x = db.find x := by
  cases op with
  | set ns m =>
    refine simulates_of rfl rfl rfl (funext (entries_mset db ns m)) fun x hx => ?_
    refine Db.find_mset_of_not_mem fun h => ?_
    simp only [List.map_map, List.mem_map, Function.comp_apply] at h
    obtain ⟨e, -, rfl⟩ := h
    exact hx _ rfl
  | setIf ns k old new =>
    by_cases h : entries db ns k = some old
    · exact simulates_of (if_pos h) (if_pos h) rfl (entries_assign db ns k new)
        fun x hx => OrdMap.find_assign_of_ne (hx k)
    · exact simulates_of (if_neg h) (if_neg h) rfl rfl fun _ _ => rfl
  | setIfNotExists ns k d =>
    by_cases h : (entries db ns k).isSome
    · exact simulates_of (if_pos h) (if_pos h) rfl rfl fun _ _ => rfl
    · exact simulates_of (if_neg h) (if_neg h) rfl (entries_assign db ns k d)
        fun x hx => OrdMap.find_assign_of_ne (hx k)
  | get ns ks =>
    refine simulates_of rfl rfl ?_ rfl fun _ _ => rfl
    show CbResult.ack (.getAck .none (buildDataMap ks ((ks.elems.map (encode ns)).map _))) = _
    rw [List.map_map]
    exact congrArg (fun m => CbResult.ack (.getAck .none m)) (buildDataMap_mget ks (entries db ns))
  | remove ns ks =>
    refine simulates_of rfl rfl rfl (funext fun k => ?_) fun x hx => ?_
    · show (db.del (ks.elems.map (encode ns))).find (encode ns k) = if k ∈ ks.elems then none else _
      rw [Db.find_del]
      simp [entries, StoreOp.ns, StoreOp.toOp, Op.ns]
    · rw [Db.find_del, if_neg]
      intro h
      obtain ⟨k, -, rfl⟩ := List.mem_map.mp h
      exact hx k rfl
  | removeIf ns k d =>
    by_cases h : entries db ns k = some d
    · exact simulates_of (if_pos h) (if_pos h) rfl (entries_erase db ns k)
        fun x hx => OrdMap.find_erase_of_ne (hx k)
    · exact simulates_of (if_neg h) (if_neg h) rfl rfl fun _ _ => rfl

/-! ## Runs -/

/-- A request on a connected dispatcher: the server executes the command, and its callback is called
with the reply and no error. `none` is an error reply. -/
def perform (r : Choices) (s : Server) : Request → Option (CbResult × Server)
  | .postCallback ack => some (.ack ack, s)
  | .dispatchAsync cb _ contents => (exec r s contents.argv).map fun p => (cb.call .none p.1, p.2)

/-- The acks of a sequence of operations, and the server after it. -/
def performAll (cfg : Config) (r : Choices) : List StoreOp → Server → Option (List Ack × Server)
  | [], s => some ([], s)
  | op :: ops, s =>
    match perform r s (op.toOp.request cfg true) with
    | some (.ack a, s') => (performAll cfg r ops s').map fun p => (a :: p.1, p.2)
    | _ => none

/-- The messages that an operation publishes when its command has this reply. -/
def StoreOp.messages (cfg : Config) (r : Choices) (op : StoreOp) (reply : Reply) :
    List (Bytes × Bytes) :=
  match op.publication cfg with
  | some cm => if r.publishes op.command reply then [cm] else []
  | none => []

theorem exec_command {cfg : Config} {r : Choices} {s : Server} {op : StoreOp} {argv : List Bytes}
    (h : parse argv = some ⟨op.command, op.publication cfg⟩) :
    exec r s argv = some ((op.command.exec r s.db).1, ⟨(op.command.exec r s.db).2,
      s.published ++ op.messages cfg r (op.command.exec r s.db).1⟩) := by
  unfold exec StoreOp.messages
  rw [h]
  cases op.publication cfg with
  | none => simp
  | some cm => by_cases hp : r.publishes op.command (op.command.exec r s.db).1 = true <;> simp [hp]

/-- An operation without keys does nothing. -/
theorem StoreOp.act_empty {op : StoreOp} (h : op.toOp.noKeysGiven = true) (t : Key → Option Data) :
    op.act t = (op.toOp.refuse .none, t) := by
  have hnil : ∀ {α β : Type} [LinearOrder α] (m : OrdMap α β), m.isEmpty = true →
    m = OrdMap.empty := by
    intro α β _ m hm
    obtain ⟨l, hl⟩ := m
    obtain rfl := List.isEmpty_iff.mp hm
    rfl
  cases op with
  | set ns m => obtain rfl := hnil m h; rfl
  | get ns ks => obtain rfl := hnil ks h; rfl
  | remove ns ks => obtain rfl := hnil ks h; rfl
  | setIf | setIfNotExists | removeIf => cases h

/-- **One operation.** Its ack and the store after it are those of the abstract operation, and the
only keys that change are those of its own namespace. -/
theorem perform_spec (cfg : Config) (r : Choices) (s : Server) (op : StoreOp) :
    ∃ s', perform r s (op.toOp.request cfg true) = some (.ack (op.spec (abs s)).1, s') ∧
      abs s' = (op.spec (abs s)).2 ∧
      ∀ x, (∀ k, isValidNamespace op.ns = true → x ≠ encode op.ns k) →
        s'.db.find x = s.db.find x := by
  by_cases hv : isValidNamespace op.ns = true
  · have habs : abs s op.ns = entries s.db op.ns := if_pos hv
    by_cases hk : op.toOp.noKeysGiven = true
    · refine ⟨s, ?_, ?_, fun _ _ => rfl⟩
      · rw [Op.request_empty cfg true hv hk, StoreOp.spec, if_pos hv, StoreOp.act_empty hk]; rfl
      · rw [StoreOp.spec, if_pos hv, StoreOp.act_empty hk]; simp
    · obtain ⟨c, hc, hp⟩ := StoreOp.request_dispatch cfg hv (by simpa using hk)
      obtain ⟨ha, ht, hx⟩ := op.simulates r s.db
      refine ⟨⟨(op.command.exec r s.db).2,
        s.published ++ op.messages cfg r (op.command.exec r s.db).1⟩, ?_, ?_,
        fun x h => hx x fun k => h k hv⟩
      · rw [hc, perform, exec_command hp, Option.map_some, ha, StoreOp.spec, if_pos hv, habs]
      · rw [StoreOp.spec, if_pos hv, habs]
        funext ns
        show _ = Function.update (abs s) op.ns _ ns
        by_cases hns : ns = op.ns
        · subst hns
          rw [Function.update_self, abs, if_pos hv]; exact ht
        · rw [Function.update_of_ne hns]
          by_cases hvn : isValidNamespace ns = true
          · rw [abs, if_pos hvn, abs, if_pos hvn]
            funext k
            exact hx _ fun k' e => hns (encode_inj hvn hv e).1
          · rw [abs, if_neg hvn, abs, if_neg hvn]
  · refine ⟨s, ?_, ?_, fun _ _ => rfl⟩
    · rw [Op.request_invalid cfg true (Bool.eq_false_iff.mpr hv), StoreOp.spec, if_neg hv]; rfl
    · rw [StoreOp.spec, if_neg hv]

/-- A run: its acks and the store after it are those of the abstract operations, and no key changes
that is not of the namespace of one of the operations. -/
theorem performAll_spec (cfg : Config) (r : Choices) (s : Server) (ops : List StoreOp) :
    ∃ s', performAll cfg r ops s = some ((StoreOp.specAll ops (abs s)).1, s') ∧
      abs s' = (StoreOp.specAll ops (abs s)).2 ∧
      ∀ x, (∀ op ∈ ops, ∀ k, isValidNamespace op.ns = true → x ≠ encode op.ns k) →
        s'.db.find x = s.db.find x := by
  induction ops generalizing s with
  | nil => exact ⟨s, rfl, rfl, fun _ _ => rfl⟩
  | cons op ops ih =>
    obtain ⟨s₁, h₁, habs₁, hx₁⟩ := perform_spec cfg r s op
    obtain ⟨s₂, h₂, habs₂, hx₂⟩ := ih s₁
    rw [habs₁] at h₂ habs₂
    refine ⟨s₂, ?_, habs₂, fun x hx => ?_⟩
    · rw [performAll, h₁]
      simp only [h₂, Option.map_some]
      rfl
    · rw [hx₂ x fun o ho => hx o (by simp [ho]), hx₁ x (hx op (by simp))]

/-- The notifying variant: the same callback and the same reply, the same store, and the publication
of the message on the channel of the namespace. -/
theorem StoreOp.notifying {cfg cfg' : Config} (r : Choices) (s : Server) {op : StoreOp}
    (hv : isValidNamespace op.ns = true) (hk : op.toOp.noKeysGiven = false)
    (hm : op.modifies = true) (hn : cfg.areNotificationsEnabled op.ns = true)
      (hn' : cfg'.areNotificationsEnabled op.ns = false) :
    ∃ cb c c' reply db, op.toOp.request cfg true = .dispatchAsync cb op.ns c ∧
      op.toOp.request cfg' true = .dispatchAsync cb op.ns c' ∧
      exec r s c'.argv = some (reply, ⟨db, s.published⟩) ∧
      exec r s c.argv = some (reply, ⟨db, s.published ++
        if r.publishes op.command reply then [(op.ns, cfg.getPublishMessage)] else []⟩) := by
  obtain ⟨c, hc, hp⟩ := StoreOp.request_dispatch cfg hv hk
  obtain ⟨c', hc', hp'⟩ := StoreOp.request_dispatch cfg' hv hk
  refine ⟨_, c, c', (op.command.exec r s.db).1, (op.command.exec r s.db).2, hc, hc', ?_, ?_⟩
  · rw [exec_command hp', StoreOp.messages, StoreOp.publication, hn']
    simp
  · rw [exec_command hp, StoreOp.messages, StoreOp.publication, hn, hm]
    rfl

/-- **Refinement.** For every sequence of operations on a connected storage, on every database:

* the acks and the database are those of the abstract operations, and no other key changes;
* an operation reads and changes entries of its own namespace only;
* the notifying variant has the effect and the reply of the plain command, and publishes the message
  on the channel of the namespace, if the module publishes for that reply;
* without keys, or with an invalid namespace, the ack is posted and no command is sent. -/
theorem store_refinement (cfg : Config) (r : Choices) (s : Server) (ops : List StoreOp) :
    (∃ s', performAll cfg r ops s = some ((StoreOp.specAll ops (abs s)).1, s') ∧
      abs s' = (StoreOp.specAll ops (abs s)).2 ∧
      ∀ x, (∀ op ∈ ops, ∀ k, isValidNamespace op.ns = true → x ≠ encode op.ns k) →
        s'.db.find x = s.db.find x) ∧
    (∀ (op : StoreOp) (t : Server), entries s.db op.ns = entries t.db op.ns →
      (perform r s (op.toOp.request cfg true)).map Prod.fst =
        (perform r t (op.toOp.request cfg true)).map Prod.fst) ∧
    (∀ (op : StoreOp) (ns : Namespace), ns ≠ op.ns → isValidNamespace ns = true →
      (perform r s (op.toOp.request cfg true)).map (fun p => entries p.2.db ns) =
        some (entries s.db ns)) ∧
    (∀ (op : StoreOp) (cfg' : Config), isValidNamespace op.ns = true → op.toOp.noKeysGiven = false →
      op.modifies = true → cfg.areNotificationsEnabled op.ns = true →
      cfg'.areNotificationsEnabled op.ns = false →
      ∃ cb c c' reply db, op.toOp.request cfg true = .dispatchAsync cb op.ns c ∧
        op.toOp.request cfg' true = .dispatchAsync cb op.ns c' ∧
        exec r s c'.argv = some (reply, ⟨db, s.published⟩) ∧
        exec r s c.argv = some (reply, ⟨db, s.published ++
          if r.publishes op.command reply then [(op.ns, cfg.getPublishMessage)] else []⟩)) ∧
    (∀ op : StoreOp, isValidNamespace op.ns = true → op.toOp.noKeysGiven = true →
      op.toOp.request cfg true = .postCallback (op.toOp.refuse .none)) ∧
    (∀ op : StoreOp, isValidNamespace op.ns = false →
      op.toOp.request cfg true = .postCallback (op.toOp.refuse (.storage .invalidNamespace))) := by
  refine ⟨performAll_spec cfg r s ops, fun op t ht => ?_, fun op ns hne hv => ?_,
    fun op cfg' hv hk hm hn hn' => StoreOp.notifying r s hv hk hm hn hn',
    fun op hv hk => Op.request_empty cfg true hv hk, fun op hv => Op.request_invalid cfg true hv⟩
  · obtain ⟨s', hs, -⟩ := perform_spec cfg r s op
    obtain ⟨t', ht', -⟩ := perform_spec cfg r t op
    have habs : abs s op.ns = abs t op.ns := by unfold abs; rw [ht]
    rw [hs, ht', Option.map_some, Option.map_some, StoreOp.spec, StoreOp.spec, habs]
    split <;> rfl
  · obtain ⟨s', hs, -, hx⟩ := perform_spec cfg r s op
    rw [hs, Option.map_some]
    refine congrArg some (funext fun k => hx _ fun k' hv' e => hne (encode_inj hv hv' e).1)

end Redis
end Sdl
