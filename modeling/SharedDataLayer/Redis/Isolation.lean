import SharedDataLayer.Redis.Search
import SharedDataLayer.Redis.RemoveAll

/-!
# What a namespace sees of the others

Clients of any configuration perform operations on one database, in any order; between the search
and the deletion of a `removeAllAsync` others go on. The clients of a namespace see the acks of its
operations. These are the same as if the operations of the other namespaces had never been
performed, and so are the entries of the namespace afterwards.

Where the namespace has special characters this is so only without searches: its pattern finds keys
of other namespaces (`Redis/Search.lean`).

* `Op.perform_other`: an operation of another namespace keeps the view.
* `Op.perform_own`: an operation acks the same on every database with the same view.
* `namespaces_isolated`: for every run.
-/

namespace Sdl
namespace Redis
namespace Isolation

open Spec

/-! ## The runs -/

/-- An operation is named by its namespace and a number. -/
abbrev Call := Namespace × Nat

/-- The server, the operations that have still to delete what they have found, and the acks. -/
structure World where
  server : Server
  waiting : List (Call × Config × Keys)
  acks : List (Call × Ack)

inductive Event where
  /-- A client performs an operation. -/
  | perform (n : Nat) (cfg : Config) (r : Choices) (op : Op)
  /-- The second command of a `removeAllAsync`. -/
  | remove (c : Call) (r : Choices)

def Event.ns : Event → Namespace
  | .perform _ _ _ op => op.ns
  | .remove c _ => c.1

/-- The callback of the command of the operation `c` has been called. -/
def World.after (w : World) (c : Call) (cfg : Config) : Option (CbResult × Server) → World
  | some (.ack a, s) => { w with server := s, acks := w.acks ++ [(c, a)] }
  | some (.removeAsync ns keys, s) => { w with server := s,
                                               waiting := w.waiting ++ [((ns, c.2), cfg, keys)] }
  | none => w

/-- An event that cannot happen is skipped. -/
def step (w : World) : Event → World
  | .perform n cfg r op => w.after (op.ns, n) cfg (perform r w.server (op.request cfg true))
  | .remove c r =>
    match w.waiting.lookup c with
    | some (cfg, keys) =>
      { w with waiting := w.waiting.filter fun x => x.1 ≠ c }.after c cfg
        (perform r w.server (removeAsync cfg true c.1 keys))
    | none => w

/-- The operation searches keys. -/
def searches : Op → Bool
  | .findKeysAsync _ _ | .listKeys _ _ | .removeAllAsync _ => true
  | _ => false

def Event.searches : Event → Bool
  | .perform _ _ _ op => Isolation.searches op
  | .remove _ _ => true

/-! ## The view of a namespace -/

/-- What the clients of the namespace see. -/
structure Same (ns : Namespace) (w w' : World) : Prop where
  encoded : Encoded w.server.db ∧ Encoded w'.server.db
  entries : abs w.server ns = abs w'.server ns
  waiting : w.waiting.filter (fun x => x.1.1 = ns) = w'.waiting.filter fun x => x.1.1 = ns
  acks : w.acks.filter (fun x => x.1.1 = ns) = w'.acks.filter fun x => x.1.1 = ns

/-- The operation of the storage that an operation on the store is. -/
theorem exists_storeOp {op : Op} (h : searches op = false) : ∃ o : StoreOp, op = o.toOp := by
  cases op with
  | setAsync ns m => exact ⟨.set ns m, rfl⟩
  | setIfAsync ns k old new => exact ⟨.setIf ns k old new, rfl⟩
  | setIfNotExistsAsync ns k d => exact ⟨.setIfNotExists ns k d, rfl⟩
  | getAsync ns ks => exact ⟨.get ns ks, rfl⟩
  | removeAsync ns ks => exact ⟨.remove ns ks, rfl⟩
  | removeIfAsync ns k d => exact ⟨.removeIf ns k d, rfl⟩
  | findKeysAsync | listKeys | removeAllAsync => cases h

section View

variable {r : Choices} {cfg : Config} {s t : Server} {ns : Namespace}

/-- An operation on the store, for its own namespace and for another one. -/
theorem perform_store (o : StoreOp) (he : Encoded s.db) :
    ∃ s', perform r s (o.toOp.request cfg true) = some (.ack (o.spec (abs s)).1, s') ∧
      abs s' = (o.spec (abs s)).2 ∧ Encoded s'.db := by
  obtain ⟨s', hp, habs, -⟩ := perform_spec cfg r s o
  exact ⟨s', hp, habs, he.perform hp⟩

theorem spec_abs_other {o : StoreOp} {st : Store} (hne : o.ns ≠ ns) : (o.spec st).2 ns = st ns := by
  unfold StoreOp.spec
  split
  · exact Function.update_of_ne (Ne.symm hne) ..
  · rfl

/-- The abstract operation depends on the entries of its own namespace. -/
theorem spec_abs_own (o : StoreOp) {st st' : Store} (h : st o.ns = st' o.ns) :
    (o.spec st).1 = (o.spec st').1 ∧ (o.spec st).2 o.ns = (o.spec st').2 o.ns := by
  unfold StoreOp.spec
  split
  · simp only [Function.update_self, h, and_self]
  · exact ⟨rfl, h⟩

/-- A search leaves the server as it is, and what it goes on with is about its own namespace. -/
theorem perform_search {op : Op} (h : searches op = true) :
    ∃ res, perform r s (op.request cfg true) = some (res, s) ∧
      ∀ ns' keys, res = .removeAsync ns' keys → ns' = op.ns := by
  by_cases hv : isValidNamespace op.ns = true
  · cases op with
    | findKeysAsync ns p => exact ⟨_, perform_findKeys hv r s _, fun _ _ he => (by cases he)⟩
    | listKeys ns g => exact ⟨_, perform_findKeys hv r s _, fun _ _ he => (by cases he)⟩
    | removeAllAsync ns =>
      have hd : removeAllAsync true ns = .dispatchAsync (.removeAllCb ns) ns
          (ContentsBuilder.buildStrings (str "KEYS") (buildKeyPrefixSearchPattern ns [])) :=
        operation_dispatch hv (by simp) _ _ _
      refine ⟨CommandCb.call .none (.array (keysReply r s.db (buildKeyPrefixSearchPattern ns [])))
        (.removeAllCb ns), ?_, ?_⟩
      · show perform r s (removeAllAsync true ns) = _
        rw [hd, perform, exec_keys]
        rfl
      · intro ns' keys he
        simp only [CommandCb.call] at he
        split at he
        · cases he
        · split at he
          · cases he
          · cases he
            rfl
    | setAsync | setIfAsync | setIfNotExistsAsync | getAsync | removeAsync | removeIfAsync =>
      cases h
  · refine ⟨.ack (op.refuse (.storage .invalidNamespace)), ?_, fun _ _ he => (by cases he)⟩
    rw [Op.request_invalid cfg true (Bool.eq_false_iff.mpr hv)]
    rfl

/-- An operation of another namespace keeps the entries of the namespace. -/
theorem perform_other {op : Op} (hne : op.ns ≠ ns) (he : Encoded s.db) :
    ∃ res s', perform r s (op.request cfg true) = some (res, s') ∧
      abs s' ns = abs s ns ∧ Encoded s'.db ∧
      ∀ ns' keys, res = .removeAsync ns' keys → ns' = op.ns := by
  cases hs : searches op with
  | true =>
    obtain ⟨res, hp, hres⟩ := perform_search hs
    exact ⟨res, s, hp, rfl, he, hres⟩
  | false =>
    obtain ⟨o, rfl⟩ := exists_storeOp hs
    obtain ⟨s', hp, habs, henc⟩ := perform_store o he
    exact ⟨_, s', hp, by rw [habs, spec_abs_other hne], henc, fun _ _ h => (by cases h)⟩

/-- Two sets of keys with the same elements. -/
theorem keys_ext {ks ks' : Keys} (h : ∀ k, k ∈ ks.elems ↔ k ∈ ks'.elems) : ks = ks' := by
  refine OrdMap.ext_find fun k => ?_
  have hk := h k
  rw [OrdMap.mem_elems, OrdMap.mem_elems] at hk
  cases h1 : ks.find k with
  | none =>
    cases h2 : ks'.find k with
    | none => rfl
    | some v =>
      rw [h1, h2] at hk
      cases hk.mpr rfl
  | some v =>
    cases h2 : ks'.find k with
    | none =>
      rw [h1, h2] at hk
      cases hk.mp rfl
    | some v' => rfl

/-- What a search with a pattern of a namespace without special characters finds. -/
theorem getKeys_congr (hv : isValidNamespace ns = true) (hns : hasSpecial ns = false)
    (hs : Encoded s.db) (ht : Encoded t.db) (h : abs s ns = abs t ns) (p : Bytes) :
    getKeys (keysReply r s.db ([chr '{'] ++ ns ++ [chr '}'] ++ [SEPARATOR] ++ p)) =
      getKeys (keysReply r t.db ([chr '{'] ++ ns ++ [chr '}'] ++ [SEPARATOR] ++ p)) := by
  have hentries : entries s.db ns = entries t.db ns := by
    unfold abs at h
    rwa [if_pos hv, if_pos hv] at h
  have hfound : ∀ db, Encoded db → ∀ k,
      k ∈ (getKeys (keysReply r db ([chr '{'] ++ ns ++ [chr '}'] ++ [SEPARATOR] ++ p))).elems ↔
        (entries db ns k).isSome = true ∧ globMatches p k = true := by
    intro db hdb k
    rw [mem_getKeys_keysReply hdb]
    constructor
    · rintro ⟨ns', hv', hsome, hm⟩
      obtain ⟨rfl, hp⟩ := (globMatches_namespace hns hv hv').mp hm
      exact ⟨hsome, hp⟩
    · rintro ⟨hsome, hp⟩
      exact ⟨ns, hv, hsome, (globMatches_namespace hns hv hv).mpr ⟨rfl, hp⟩⟩
  refine keys_ext fun k => ?_
  rw [hfound s.db hs, hfound t.db ht, hentries]

theorem isEmpty_getKeys (l : List Bytes) :
    (getKeys (l.map .string)).isEmpty = (l.map Reply.string).isEmpty := by
  cases l with
  | nil => rfl
  | cons x l =>
    have hmem : getKey x ∈ (getKeys ((x :: l).map .string)).elems :=
      mem_getKeys.mpr ⟨x, by simp, rfl⟩
    show _ = false
    rw [Bool.eq_false_iff]
    intro he
    rw [OrdMap.elems, List.isEmpty_iff.mp he] at hmem
    cases hmem

/-- An operation does the same on every database with the same entries of its namespace. -/
theorem perform_own {op : Op} (hop : searches op = true → hasSpecial op.ns = false)
    (hs : Encoded s.db) (ht : Encoded t.db) (h : abs s op.ns = abs t op.ns) :
    ∃ res s' t', perform r s (op.request cfg true) = some (res, s') ∧
      perform r t (op.request cfg true) = some (res, t') ∧ abs s' op.ns = abs t' op.ns ∧
      Encoded s'.db ∧ Encoded t'.db ∧
      ∀ ns' keys, res = .removeAsync ns' keys → ns' = op.ns := by
  cases hsearch : searches op with
  | false =>
    obtain ⟨o, rfl⟩ := exists_storeOp hsearch
    obtain ⟨s', hps, habs, henc⟩ := @perform_store r cfg s o hs
    obtain ⟨t', hpt, habt, hent⟩ := @perform_store r cfg t o ht
    obtain ⟨hack, hst⟩ := spec_abs_own o h
    refine ⟨_, s', t', hps, by rw [hpt, hack], ?_, henc, hent, fun _ _ he => (by cases he)⟩
    rw [habs, habt]
    exact hst
  | true =>
    have hns := hop hsearch
    suffices hres : (perform r s (op.request cfg true)).map Prod.fst =
      (perform r t (op.request cfg true)).map Prod.fst by
      obtain ⟨res, hps, hown⟩ := @perform_search r cfg s op hsearch
      obtain ⟨res', hpt, -⟩ := @perform_search r cfg t op hsearch
      rw [hps, hpt] at hres
      cases hres
      exact ⟨_, s, t, hps, hpt, h, hs, ht, hown⟩
    by_cases hv : isValidNamespace op.ns = true
    · have hkeys := fun p => @getKeys_congr r s t op.ns hv hns hs ht h p
      cases op with
      | findKeysAsync ns p =>
        have hv : isValidNamespace ns = true := hv
        have hp := hkeys (escapeRedisSearchPatternCharacters p ++ [chr '*'])
        rw [← List.append_assoc] at hp
        show (perform r s (findKeys true ns _)).map Prod.fst =
          (perform r t (findKeys true ns _)).map Prod.fst
        rw [perform_findKeys hv, perform_findKeys hv]
        exact congrArg (fun ks => some (CbResult.ack (.findKeysAck .none ks))) hp
      | listKeys ns g =>
        have hv : isValidNamespace ns = true := hv
        show (perform r s (findKeys true ns _)).map Prod.fst =
          (perform r t (findKeys true ns _)).map Prod.fst
        rw [perform_findKeys hv, perform_findKeys hv]
        exact congrArg (fun ks => some (CbResult.ack (.findKeysAck .none ks))) (hkeys g)
      | removeAllAsync ns =>
        have hp := hkeys (escapeRedisSearchPatternCharacters [] ++ [chr '*'])
        rw [← List.append_assoc] at hp
        have hp : getKeys (keysReply r s.db (buildKeyPrefixSearchPattern ns [])) =
            getKeys (keysReply r t.db (buildKeyPrefixSearchPattern ns [])) := hp
        have hd : removeAllAsync true ns = .dispatchAsync (.removeAllCb ns) ns
            (ContentsBuilder.buildStrings (str "KEYS") (buildKeyPrefixSearchPattern ns [])) :=
          operation_dispatch hv (by simp) _ _ _
        have hempty : (keysReply r s.db (buildKeyPrefixSearchPattern ns [])).isEmpty =
            (keysReply r t.db (buildKeyPrefixSearchPattern ns [])).isEmpty := by
          unfold keysReply at hp ⊢
          rw [← isEmpty_getKeys, ← isEmpty_getKeys, hp]
        show (perform r s (removeAllAsync true ns)).map Prod.fst =
          (perform r t (removeAllAsync true ns)).map Prod.fst
        rw [hd, perform, perform, exec_keys, exec_keys]
        simp only [Option.map_some, CommandCb.call, Reply.getArray, hp]
        refine congrArg some (if_congr Iff.rfl rfl (if_congr ?_ rfl rfl))
        rw [hempty]
      | setAsync | setIfAsync | setIfNotExistsAsync | getAsync | removeAsync | removeIfAsync =>
        cases hsearch
    · rw [Op.request_invalid cfg true (Bool.eq_false_iff.mpr hv)]
      rfl

end View

/-! ## The steps -/

section Steps

variable {ns : Namespace} {w w' : World}

/-- A step of another namespace. -/
theorem Same.other (h : Same ns w w') {c : Call} (hc : c.1 ≠ ns) {cfg : Config}
    {s : Server} {res : CbResult} (habs : abs s ns = abs w.server ns) (he : Encoded s.db)
    (hres : ∀ ns' keys, res = .removeAsync ns' keys → ns' ≠ ns) :
    Same ns (w.after c cfg (some (res, s))) w' := by
  cases res with
  | ack a =>
    refine ⟨⟨he, h.encoded.2⟩, habs.trans h.entries, h.waiting, ?_⟩
    show (w.acks ++ [(c, a)]).filter _ = _
    rw [List.filter_append, List.filter_cons_of_neg (by simpa using hc),
      List.filter_nil, List.append_nil]
    exact h.acks
  | removeAsync ns' keys =>
    have hne := hres ns' keys rfl
    refine ⟨⟨he, h.encoded.2⟩, habs.trans h.entries, ?_, h.acks⟩
    show (w.waiting ++ [((ns', c.2), cfg, keys)]).filter _ = _
    rw [List.filter_append, List.filter_cons_of_neg (by simpa using hne),
      List.filter_nil, List.append_nil]
    exact h.waiting

/-- A step of the namespace, with the same result on both sides. -/
theorem Same.own (h : Same ns w w') (c : Call) (cfg : Config) {s s' : Server} (res : CbResult)
    (habs : abs s ns = abs s' ns) (he : Encoded s.db) (he' : Encoded s'.db) :
    Same ns (w.after c cfg (some (res, s))) (w'.after c cfg (some (res, s'))) := by
  cases res with
  | ack a =>
    refine ⟨⟨he, he'⟩, habs, h.waiting, ?_⟩
    show (w.acks ++ [(c, a)]).filter _ = (w'.acks ++ [(c, a)]).filter _
    rw [List.filter_append, List.filter_append, h.acks]
  | removeAsync ns' keys =>
    refine ⟨⟨he, he'⟩, habs, ?_, h.acks⟩
    show (w.waiting ++ [((ns', c.2), cfg, keys)]).filter _ =
      (w'.waiting ++ [((ns', c.2), cfg, keys)]).filter _
    rw [List.filter_append, List.filter_append, h.waiting]

/-- A deletion that waits is found by its name. -/
theorem lookup_filter {β : Type} {l : List (Call × β)} {c : Call} (hc : c.1 = ns) :
    (l.filter fun x => x.1.1 = ns).lookup c = l.lookup c := by
  induction l with
  | nil => rfl
  | cons x l ih =>
    by_cases hx : x.1.1 = ns
    · rw [List.filter_cons_of_pos (by simpa using hx), List.lookup_cons, List.lookup_cons, ih]
    · have hne : c ≠ x.1 := fun e => hx (e ▸ hc)
      rw [List.filter_cons_of_neg (by simpa using hx), List.lookup_cons, beq_false_of_ne hne, ih]

/-- The deletion does not wait any more. -/
theorem Same.taken (h : Same ns w w') (c : Call) :
    Same ns { w with waiting := w.waiting.filter fun x => x.1 ≠ c }
      { w' with waiting := w'.waiting.filter fun x => x.1 ≠ c } := by
  refine ⟨h.encoded, h.entries, ?_, h.acks⟩
  show (w.waiting.filter _).filter _ = (w'.waiting.filter _).filter _
  rw [List.filter_comm, h.waiting, List.filter_comm]

theorem Same.taken_other (h : Same ns w w') {c : Call} (hc : c.1 ≠ ns) :
    Same ns { w with waiting := w.waiting.filter fun x => x.1 ≠ c } w' := by
  refine ⟨h.encoded, h.entries, ?_, h.acks⟩
  show (w.waiting.filter _).filter _ = _
  rw [List.filter_filter, ← h.waiting]
  refine List.filter_congr fun x _ => ?_
  by_cases hx : x.1.1 = ns
  · have hne : x.1 ≠ c := fun e => hc (e ▸ hx)
    simp [hx, hne]
  · simp [hx]

theorem Same.step_other (h : Same ns w w') {e : Event} (he : e.ns ≠ ns) :
    Same ns (step w e) w' := by
  cases e with
  | perform n cfg r op =>
    obtain ⟨res, s', hp, habs, henc, hres⟩ := @perform_other r cfg w.server ns op he h.encoded.1
    simp only [step, hp]
    exact h.other he habs henc fun ns' keys hr => hres ns' keys hr ▸ he
  | remove c r =>
    simp only [step]
    split
    · rename_i cfg keys hl
      obtain ⟨s', hp, habs, henc⟩ := @perform_store r cfg w.server (.remove c.1 keys) h.encoded.1
      have hp : perform r w.server (removeAsync cfg true c.1 keys) = _ := hp
      rw [hp]
      have hother : ((StoreOp.remove c.1 keys).spec (abs w.server)).2 ns = abs w.server ns :=
        spec_abs_other he
      exact (h.taken_other he).other he (by rw [habs, hother]) henc fun _ _ hr => (by cases hr)
    · exact h

theorem Same.step_own (h : Same ns w w') {e : Event} (he : e.ns = ns)
    (hs : e.searches = true → hasSpecial ns = false) :
    Same ns (step w e) (step w' e) := by
  subst he
  cases e with
  | perform n cfg r op =>
    obtain ⟨res, s', t', hp, hp', habs, henc, henc', -⟩ :=
      @perform_own r cfg w.server w'.server op hs h.encoded.1 h.encoded.2 h.entries
    simp only [step, hp, hp']
    exact h.own _ cfg res habs henc henc'
  | remove c r =>
    have hlookup : w.waiting.lookup c = w'.waiting.lookup c := by
      have hw := @lookup_filter c.1 _ w.waiting c rfl
      have hw' := @lookup_filter c.1 _ w'.waiting c rfl
      have hwaiting : w.waiting.filter (fun x => x.1.1 = c.1) = w'.waiting.filter fun x =>
        x.1.1 = c.1 := h.waiting
      rw [← hw, ← hw', hwaiting]
    simp only [step, hlookup]
    split
    · rename_i cfg keys hl
      obtain ⟨s', hp, habs, henc⟩ := @perform_store r cfg w.server (.remove c.1 keys) h.encoded.1
      obtain ⟨t', hp', habs', henc'⟩ := @perform_store r cfg w'.server
        (.remove c.1 keys) h.encoded.2
      obtain ⟨hack, hst⟩ := spec_abs_own (.remove c.1 keys) h.entries
      have hp : perform r w.server (removeAsync cfg true c.1 keys) = _ := hp
      have hp' : perform r w'.server (removeAsync cfg true c.1 keys) = _ := hp'
      rw [hp, hp', hack]
      refine (h.taken c).own c cfg _ ?_ henc henc'
      rw [habs, habs']
      exact hst
    · exact h

end Steps

/-- **Isolation of namespaces.** For every run of operations of any clients on a database that was
written through the storage, and every namespace, if it has no special characters or the run has no
search in it: the acks of its operations and its entries after the run are those of the run of its
operations alone, on any database with the same entries of the namespace. -/
theorem namespaces_isolated (ns : Namespace) (es : List Event) {s t : Server} (hs : Encoded s.db)
    (ht : Encoded t.db) (h : abs s ns = abs t ns) (hes : ∀ e ∈ es, e.ns = ns → e.searches = true →
      hasSpecial ns = false) :
    (es.foldl step ⟨s, [], []⟩).acks.filter (fun x => x.1.1 = ns) =
        ((es.filter fun e => e.ns = ns).foldl step ⟨t, [], []⟩).acks.filter (fun x => x.1.1 = ns) ∧
      abs (es.foldl step ⟨s, [], []⟩).server ns =
        abs ((es.filter fun e => e.ns = ns).foldl step ⟨t, [], []⟩).server ns := by
  have hsame : Same ns ⟨s, [], []⟩ ⟨t, [], []⟩ := ⟨⟨hs, ht⟩, h, rfl, rfl⟩
  have hrun : Same ns (es.foldl step ⟨s, [], []⟩)
    ((es.filter fun e => e.ns = ns).foldl step ⟨t, [], []⟩) := by
    refine purge (fun w w' e he hown hw => ?_) (fun w w' e _ hother hw => ?_) hsame
    · have hown : e.ns = ns := by simpa using hown
      exact hw.step_own hown (hes e he hown)
    · exact hw.step_other (by simpa using hother)
  exact ⟨hrun.acks, hrun.entries⟩

/-- An entry is created and found, while another namespace removes all its entries. -/
theorem namespaces_isolated_removeAll :
    let create : Event := .perform 0 Config.plain Choices.sorted
      (.setIfNotExistsAsync (str "a") (str "k") (str "v"))
    let find : Event := .perform 1 Config.plain Choices.sorted (.findKeysAsync (str "a") [])
    let es := [.perform 0 Config.plain Choices.sorted
      (.setIfNotExistsAsync (str "b") (str "k") (str "v")), create,
      .perform 1 Config.plain Choices.sorted (.removeAllAsync (str "b")), find,
      .remove (str "b", 1) Choices.sorted]
    (es.foldl step ⟨⟨OrdMap.empty, []⟩, [], []⟩).acks.filter (fun x => x.1.1 = str "a") =
      [((str "a", 0), .modifyIfAck .none true),
        ((str "a", 1), .findKeysAck .none (OrdMap.empty.insert (str "k") ()))] := by
  intro create find es
  have hempty : Encoded (⟨OrdMap.empty, []⟩ : Server).db := fun x hx => by cases hx
  have h := (namespaces_isolated (str "a") es hempty hempty rfl fun e he hns _ => (by decide)).1
  rw [h]
  decide +kernel

end Isolation
end Redis
end Sdl
