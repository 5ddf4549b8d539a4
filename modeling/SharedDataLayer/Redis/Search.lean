import SharedDataLayer.Redis.Store

/-!
# Searching keys

`findKeysAsync`, `listKeys` and `removeAllAsync` search with `KEYS` and a pattern that starts with
the namespace. The characters of a key prefix are escaped in it; those of the namespace are not.

* `globMatches_prefix`, `globMatches_namespace`: the patterns of a namespace without special
  characters match what they are meant to.
* `special_pattern`: for every other namespace, the pattern of all its keys misses one of them or
  matches a key of another namespace.
* `keySearch_exact_iff`: the two searches are exact for the namespaces without special characters,
  and only for these.
-/

namespace Sdl
namespace Redis

open Spec Spec.Glob

/-! ## Databases that were written through the storage -/

/-- Every key is the key of an entry of a valid namespace. -/
def Encoded (db : Db) : Prop :=
  ∀ x, (db.find x).isSome → ∃ ns k, isValidNamespace ns = true ∧ x = encode ns k

/-- The database was written through `AsyncRedisStorage`, by clients of any configuration. -/
inductive Written (r : Choices) : Server → Prop
  | empty : Written r ⟨OrdMap.empty, []⟩
  | perform {s s' : Server} {cfg : Config} {op : StoreOp} {a : CbResult} :
    Written r s → perform r s (op.toOp.request cfg true) = some (a, s') → Written r s'

theorem Encoded.perform {cfg : Config} {r : Choices} {s s' : Server} {op : StoreOp} {a : CbResult}
    (h : Encoded s.db) (hp : perform r s (op.toOp.request cfg true) = some (a, s')) :
    Encoded s'.db := by
  obtain ⟨t, ht, -, hx⟩ := perform_spec cfg r s op
  rw [hp] at ht
  cases ht
  intro x hs
  by_cases hk : ∃ k, isValidNamespace op.ns = true ∧ x = encode op.ns k
  · obtain ⟨k, hv, rfl⟩ := hk; exact ⟨op.ns, k, hv, rfl⟩
  · rw [hx x fun k hv e => hk ⟨k, hv, e⟩] at hs
    exact h x hs

theorem Written.encoded {r : Choices} {s : Server} (h : Written r s) : Encoded s.db := by
  induction h with
  | empty => intro x hx; cases hx
  | perform _ hp ih => exact ih.perform hp

/-! ## The keys of a search -/

theorem mem_foldl_insertKey {l : List Bytes} {ks : Keys} {k : Key} :
    k ∈ ((l.map Reply.string).foldl insertKey ks).elems ↔ k ∈ ks.elems ∨ ∃ x ∈ l, getKey x = k := by
  induction l generalizing ks with
  | nil => simp
  | cons x l ih =>
    rw [List.map_cons, List.foldl_cons, ih]
    show k ∈ (ks.insert (getKey x) ()).elems ∨ _ ↔ _
    rw [OrdMap.mem_elems, OrdMap.mem_elems, OrdMap.find_insert]
    by_cases hk : k = getKey x
    · subst hk; simp
    · simp [hk, Ne.symm hk]

theorem mem_getKeys {l : List Bytes} {k : Key} :
    k ∈ (getKeys (l.map .string)).elems ↔ ∃ x ∈ l, getKey x = k := by
  unfold getKeys
  rw [mem_foldl_insertKey]
  simp [OrdMap.elems, OrdMap.empty]

/-- The reply of `KEYS`. -/
def keysReply (r : Choices) (db : Db) (pattern : Bytes) : List Reply :=
  ((r.scan db).filter (globMatches pattern)).map .string

/-- The keys that are read from the reply of `KEYS`: those of the entries that match, of whatever
namespace. -/
theorem mem_getKeys_keysReply {r : Choices} {db : Db} (hdb : Encoded db)
    {pattern : Bytes} {k : Key} :
    k ∈ (getKeys (keysReply r db pattern)).elems ↔ ∃ ns, isValidNamespace ns = true ∧
      (db.find (encode ns k)).isSome ∧ globMatches pattern (encode ns k) = true := by
  unfold keysReply
  rw [mem_getKeys]
  constructor
  · rintro ⟨x, hx, rfl⟩
    obtain ⟨hs, hm⟩ := (mem_keys r).mp hx
    obtain ⟨ns, k, hv, rfl⟩ := hdb x hs
    rw [getKey_encode hv]
    exact ⟨ns, hv, hs, hm⟩
  · rintro ⟨ns, hv, hs, hm⟩
    exact ⟨encode ns k, (mem_keys r).mpr ⟨hs, hm⟩, getKey_encode hv k⟩

theorem exec_keys (r : Choices) (s : Server) (pattern : Bytes) :
    exec r s (ContentsBuilder.buildStrings (str "KEYS") pattern).argv =
      some (.array (keysReply r s.db pattern), s) := by
  have hp : parse (ContentsBuilder.buildStrings (str "KEYS") pattern).argv =
      some ⟨.keys pattern, none⟩ := by
    rw [Contents.argv_eq]
    exact parse_plain rfl rfl rfl
  unfold exec
  rw [hp]
  rfl

/-- A search on a connected storage. -/
theorem perform_findKeys {ns : Namespace} (hv : isValidNamespace ns = true)
    (r : Choices) (s : Server) (pattern : Bytes) :
    perform r s (findKeys true ns pattern) =
      some (.ack (.findKeysAck .none (getKeys (keysReply r s.db pattern))), s) := by
  have hd : findKeys true ns pattern = .dispatchAsync .findKeysCb ns
      (ContentsBuilder.buildStrings (str "KEYS") pattern) := operation_dispatch hv (by simp) _ _ _
  rw [hd, perform, exec_keys]
  rfl

/-! ## Namespaces without special characters -/

/-- The characters of a namespace that `KEYS` does not take as they are. -/
def hasSpecial (ns : Namespace) : Bool := ns.any isSpecial

theorem toks_escape (p t : Bytes) :
    toks .normal (escapeRedisSearchPatternCharacters p ++ t) = p.map lit ++ toks .normal t := by
  rw [escapeRedisSearchPatternCharacters_eq]
  induction p with
  | nil => rfl
  | cons c p ih =>
    rw [List.flatMap_cons, List.append_assoc]
    by_cases hc : redisSearchPatternCharacters.contains c = true
    · have he : escapeChar c = [chr '\\', c] := if_pos hc
      rw [he]
      show toks .normal (chr '\\' :: c :: (p.flatMap escapeChar ++ t)) = _
      rw [toks_escaped, ih]
      rfl
    · have he : escapeChar c = [c] := if_neg hc
      have hs : isSpecial c = false := by
        rw [Bool.eq_false_iff]
        intro h
        apply hc
        simp only [isSpecial, Bool.or_eq_true, beq_iff_eq] at h
        rcases h with ((rfl | rfl) | rfl) | rfl <;> decide
      rw [he]
      simp [toks, step_literal hs, ih]

/-- The literals at the start of a pattern of a namespace without special characters. -/
theorem toks_namespace {ns : Namespace} (hs : hasSpecial ns = false) (t : Bytes) :
    toks .normal ([chr '{'] ++ ns ++ [chr '}'] ++ [SEPARATOR] ++ t) =
      (chr '{' :: (ns ++ [chr '}', SEPARATOR])).map lit ++ toks .normal t := by
  have hl : ∀ c ∈ chr '{' :: (ns ++ [chr '}', SEPARATOR]), isSpecial c = false := by
    intro c hc
    simp only [List.mem_cons, List.mem_append, List.not_mem_nil, or_false] at hc
    rcases hc with rfl | hc | rfl | rfl
    · decide
    · simpa using List.any_eq_false.mp hs c hc
    · decide
    · decide
  rw [← toks_literal hl]
  simp

theorem encode_append (ns : Namespace) (k : Key) :
    encode ns k = chr '{' :: (ns ++ [chr '}', SEPARATOR]) ++ k := by
  rw [encode_eq]; simp

/-- A pattern of a namespace without special characters matches keys of that namespace only. -/
theorem globMatches_namespace {ns ns' : Namespace} (hs : hasSpecial ns = false)
    (hv : isValidNamespace ns = true) (hv' : isValidNamespace ns' = true) {t : Bytes} {k : Key} :
    globMatches ([chr '{'] ++ ns ++ [chr '}'] ++ [SEPARATOR] ++ t) (encode ns' k) = true ↔
      ns' = ns ∧ globMatches t k = true := by
  unfold globMatches
  rw [toks_namespace hs, matches_append_lits]
  constructor
  · rintro ⟨v, he, hm⟩
    rw [← encode_append] at he
    obtain ⟨rfl, rfl⟩ := encode_inj hv' hv he
    exact ⟨rfl, hm⟩
  · rintro ⟨rfl, hm⟩
    exact ⟨k, encode_append ns' k, hm⟩

/-- An escaped prefix with a star matches the keys with that prefix. -/
theorem globMatches_prefix {p k : Bytes} :
    globMatches (escapeRedisSearchPatternCharacters p ++ [chr '*']) k = true ↔ p <+: k := by
  have hstar : toks .normal [chr '*'] = [.star] := rfl
  unfold globMatches
  rw [toks_escape, hstar, matches_append_lits]
  constructor
  · rintro ⟨v, rfl, -⟩; exact List.prefix_append p v
  · rintro ⟨v, rfl⟩; exact ⟨v, rfl, matches_star⟩

/-- The search for all keys of a namespace without special characters finds its keys. -/
theorem mem_getKeys_all {ns : Namespace} (hv : isValidNamespace ns = true)
    (hs : hasSpecial ns = false) {r : Choices} {db : Db} (hdb : Encoded db) {k : Key} :
    k ∈ (getKeys (keysReply r db (buildKeyPrefixSearchPattern ns []))).elems ↔
      (entries db ns k).isSome := by
  rw [mem_getKeys_keysReply hdb, buildKeyPrefixSearchPattern, List.append_assoc]
  constructor
  · rintro ⟨ns', hv', hsome, hm⟩
    obtain ⟨rfl, -⟩ := (globMatches_namespace hs hv hv').mp hm
    exact hsome
  · intro hsome
    exact ⟨ns, hv, hsome, (globMatches_namespace hs hv hv).mpr
      ⟨rfl, globMatches_prefix.mpr (List.nil_prefix)⟩⟩

/-! ## Namespaces with special characters -/

/-- The end of the pattern of all keys of a namespace: the separator is a literal and the star a
star, or both are inside a class that is not closed. -/
theorem toks_separator_star (m : Mode) :
    toks m [SEPARATOR, chr '*'] = [lit SEPARATOR, .star] ∨ ∃ p,
      toks m [SEPARATOR, chr '*'] = [.one p] := by
  cases m with
  | normal => exact .inl rfl
  | escaped => exact .inl rfl
  | opened | cls | clsEscaped | clsItem | clsRange => exact .inr ⟨_, rfl⟩

section Special

variable {c : Byte} {q : Bytes}

/-- The tokens of the pattern from the first special character `c` on. -/
def specialToks (c : Byte) (q : Bytes) : List (Tok Byte) :=
  toks .normal (c :: q ++ [chr '}', SEPARATOR, chr '*'])

/-- A class or a backslash needs two bytes for its token, so the final star stands one place too
early to be behind the separator, or there is none. -/
theorem not_matches_of_short {S M : List (Tok Byte)} (hc : c = chr '[' ∨ c = chr '\\')
    (he : specialToks c q = S ++ .star :: M) (hS : Single S) (hlen : (c :: q).length < S.length) :
    matchesToks (specialToks c q) (c :: q ++ [chr '}', SEPARATOR]) = false := by
  have hle : (specialToks c q).length ≤ (c :: q).length + 2 := by
    have hb : ∀ m : Mode, (toks m (q ++ [chr '}', SEPARATOR, chr '*'])).length ≤ q.length + 3 := by
      intro m
      have := length_toks_le m (q ++ [chr '}', SEPARATOR, chr '*'])
      rw [List.length_append] at this
      simp only [List.length_cons, List.length_nil] at this
      split at this <;> omega
    rw [List.length_cons]
    rcases hc with rfl | rfl
    · exact hb .opened
    · exact hb .escaped
  rw [he, List.length_append, List.length_cons] at hle
  have hM : M = [] := List.length_eq_zero_iff.mp (by omega)
  subst hM
  have hSl : S.length = (c :: q).length + 1 := by simp only [List.length_nil] at hle; omega
  -- The tokens in front of the separator.
  obtain ⟨A, m, hA⟩ : ∃ A m, specialToks c q = A ++ toks m [SEPARATOR, chr '*'] := by
    refine ⟨(read .normal (c :: q ++ [chr '}'])).1, (read .normal (c :: q ++ [chr '}'])).2, ?_⟩
    rw [← toks_append, specialToks]; simp
  rcases toks_separator_star m with hm | ⟨p, hm⟩
  · rw [hm, he] at hA
    have hSA : S = A ++ [lit SEPARATOR] := by
      have : S ++ [Tok.star] = (A ++ [lit SEPARATOR]) ++ [Tok.star] := by rw [hA]; simp
      exact List.append_cancel_right this
    rw [Bool.eq_false_iff]
    intro hmatch
    rw [he, matches_append_single hS] at hmatch
    obtain ⟨x, y, hxy, hx, hmx, -⟩ := hmatch
    -- `S` matches the namespace and its closing brace, and its last token is the separator.
    have hx' : x = c :: q ++ [chr '}'] := by
      have : x ++ y = (c :: q ++ [chr '}']) ++ [SEPARATOR] := by rw [← hxy]; simp
      exact (List.append_inj this (by rw [hx, hSl]; simp)).1
    rw [hSA, matches_append_single (fun t ht => hS t (by simp [hSA, ht]))] at hmx
    obtain ⟨x', y', hxy', hx'', -, hy'⟩ := hmx
    have hAl : A.length = (c :: q).length := by
      rw [hSA, List.length_append, List.length_singleton] at hSl; omega
    have hy : y' = [chr '}'] := (List.append_inj (hxy'.symm.trans hx') (by rw [hx'', hAl])).2
    rw [hy] at hy'
    revert hy'
    decide
  · rw [hm, he] at hA
    have := congrArg List.getLast? hA
    simp at this

/-- The pattern misses a key of the namespace, or `c :: q` can be replaced. -/
theorem special_rest (hc : isSpecial c = true) :
    (∃ k, matchesToks (specialToks c q) (c :: q ++ chr '}' :: SEPARATOR :: k) = false) ∨
      ∃ w, w ≠ [] ∧ w ≠ c :: q ∧ (∀ b ∈ w, b = chr 'a' ∨ b ∈ c :: q) ∧
        matchesToks (specialToks c q) (w ++ [chr '}', SEPARATOR]) = true := by
  by_cases hall : ∃ k, matchesToks (specialToks c q) (c :: q ++ chr '}' :: SEPARATOR :: k) = false
  · exact .inl hall
  right
  have hm : ∀ k, matchesToks (specialToks c q) (c :: q ++ chr '}' :: SEPARATOR :: k) = true := by
    intro k
    rw [← Bool.not_eq_false]
    exact fun h => hall ⟨k, h⟩
  rcases single_or_star (specialToks c q) with hS | ⟨S, M, he, hS⟩
  · -- Without a star only strings of one length match.
    have h0 := matches_length hS (hm [])
    have h1 := matches_length hS (hm [chr 'a'])
    simp only [List.length_append, List.length_cons, List.length_nil] at h0 h1
    omega
  · by_cases hlen : S.length ≤ (c :: q).length
    · -- The first star stands in the namespace: put an `a` there.
      have hm0 := hm []
      rw [he] at hm0 ⊢
      obtain ⟨x, y, hxy, hx, hins⟩ := matches_insert hS hm0
      obtain ⟨u, hu⟩ : ∃ u, c :: q = x ++ u := by
        obtain ⟨u, hu⟩ := List.prefix_of_prefix_length_le (List.prefix_append x y)
          (hxy ▸ List.prefix_append (c :: q) _) (by omega)
        exact ⟨u, hu.symm⟩
      have hy : y = u ++ [chr '}', SEPARATOR] := by
        rw [hu, List.append_assoc] at hxy
        exact (List.append_cancel_left hxy).symm
      refine ⟨x ++ [chr 'a'] ++ u, by simp, ?_, ?_, ?_⟩
      · intro e
        have := congrArg List.length (e.trans hu)
        simp only [List.length_append, List.length_singleton] at this
        omega
      · intro b hb
        rw [hu]
        simp only [List.mem_append, List.mem_singleton] at hb ⊢
        tauto
      · have := hins [chr 'a']
        rw [hy] at this
        simpa using this
    · simp only [isSpecial, Bool.or_eq_true, beq_iff_eq] at hc
      rcases hc with ((rfl | rfl) | hc) | hc
      · -- A star is its own first token.
        cases S with
        | nil => simp at hlen
        | cons t S =>
          have ht : Tok.star = t := (List.cons.inj he).1
          obtain ⟨p, hp⟩ := hS t (by simp)
          rw [← ht] at hp
          cases hp
      · -- A question mark matches an `a` too.
        refine ⟨chr 'a' :: q, by simp, ?_, ?_, ?_⟩
        · intro e; exact absurd (List.cons.inj e).1 (by decide)
        · intro b hb; simp only [List.mem_cons] at hb ⊢; tauto
        · exact matches_one_cons.mpr ⟨rfl, (matches_one_cons.mp (hm [])).2⟩
      · exact absurd (hm []) (by rw [not_matches_of_short (.inl hc) he hS (by omega)]; simp)
      · exact absurd (hm []) (by rw [not_matches_of_short (.inr hc) he hS (by omega)]; simp)

end Special

/-- The pattern of all keys of a namespace. -/
theorem buildKeyPrefixSearchPattern_nil (ns : Namespace) :
    buildKeyPrefixSearchPattern ns [] = [chr '{'] ++ ns ++ [chr '}'] ++
      [SEPARATOR] ++ [chr '*'] := by
  rw [buildKeyPrefixSearchPattern, escapeRedisSearchPatternCharacters_eq]
  simp

/-- The pattern of all keys of a namespace with a special character misses one of the keys, or it
matches a key of another namespace. -/
theorem special_pattern {ns : Namespace} (hv : isValidNamespace ns = true)
    (hs : hasSpecial ns = true) :
    (∃ k, globMatches (buildKeyPrefixSearchPattern ns []) (encode ns k) = false) ∨
      ∃ ns' k, isValidNamespace ns' = true ∧ ns' ≠ ns ∧
        globMatches (buildKeyPrefixSearchPattern ns []) (encode ns' k) = true := by
  obtain ⟨c, hf⟩ : ∃ c, ns.find? isSpecial = some c :=
    Option.isSome_iff_exists.mp (by rw [List.find?_isSome]; simpa [hasSpecial] using hs)
  obtain ⟨hc, l, q, rfl, hl⟩ := List.find?_eq_some_iff_append.mp hf
  have htoks : toks .normal (buildKeyPrefixSearchPattern (l ++ c :: q) []) =
      (chr '{' :: l).map lit ++ specialToks c q := by
    have hl' : ∀ b ∈ chr '{' :: l, isSpecial b = false := by
      intro b hb
      rcases List.mem_cons.mp hb with rfl | hb
      · decide
      · simpa using hl b hb
    rw [specialToks, ← toks_literal hl', buildKeyPrefixSearchPattern_nil]
    simp
  have hg : ∀ w k, globMatches (buildKeyPrefixSearchPattern (l ++ c :: q) []) (encode (l ++ w) k) =
      matchesToks (specialToks c q) (w ++ chr '}' :: SEPARATOR :: k) := by
    intro w k
    have hw : encode (l ++ w) k = chr '{' :: l ++ (w ++ chr '}' :: SEPARATOR :: k) := by
      rw [encode_eq]; simp
    rw [globMatches, htoks, hw, Bool.eq_iff_iff, matches_append_lits]
    constructor
    · rintro ⟨v, he, hm⟩
      rw [List.append_cancel_left he]; exact hm
    · exact fun hm => ⟨_, rfl, hm⟩
  rcases special_rest (q := q) hc with ⟨k, hk⟩ | ⟨w, hw0, hwne, hwb, hwm⟩
  · exact .inl ⟨k, by rw [hg]; exact hk⟩
  · refine .inr ⟨l ++ w, [], ?_, fun e => hwne (List.append_cancel_left e), by rw [hg]; exact hwm⟩
    rw [isValidNamespace_iff] at hv ⊢
    refine ⟨by simp [hw0], fun b hb => ?_⟩
    rcases List.mem_append.mp hb with hb | hb
    · exact hv.2 b (by simp [hb])
    · rcases hwb b hb with rfl | hb
      · decide
      · exact hv.2 b (List.mem_append_right _ hb)

/-! ## Exactness -/

/-- A search on a connected storage is exact: it acks the keys of the namespace that satisfy `P`,
and leaves the server as it is. -/
def Exact (r : Choices) (s : Server) (ns : Namespace) (search : Request) (P : Key → Prop) : Prop :=
  ∃ ks, perform r s search = some (.ack (.findKeysAck .none ks), s) ∧
    ∀ k, k ∈ ks.elems ↔ (entries s.db ns k).isSome ∧ P k

/-- Both searches are exact on every database that was written through the storage. -/
def SearchExact (ns : Namespace) : Prop :=
  ∀ (r : Choices) (s : Server), Written r s →
    (∀ p, Exact r s ns (findKeysAsync true ns p) fun k => p <+: k) ∧
      ∀ g, Exact r s ns (listKeys true ns g) fun k => globMatches g k = true

/-- A search whose pattern goes on with `t` after a namespace without special characters. -/
theorem exact_of_not_special {ns : Namespace} (hv : isValidNamespace ns = true)
    (hs : hasSpecial ns = false) {r : Choices} {s : Server} (hw : Written r s) {t : Bytes}
    {P : Key → Prop} (hP : ∀ k, globMatches t k = true ↔ P k) :
    Exact r s ns (findKeys true ns ([chr '{'] ++ ns ++ [chr '}'] ++ [SEPARATOR] ++ t)) P := by
  refine ⟨_, perform_findKeys hv r s _, fun k => ?_⟩
  rw [mem_getKeys_keysReply hw.encoded]
  constructor
  · rintro ⟨ns', hv', hsome, hm⟩
    obtain ⟨rfl, ht⟩ := (globMatches_namespace hs hv hv').mp hm
    exact ⟨hsome, (hP k).mp ht⟩
  · rintro ⟨hsome, hm⟩
    exact ⟨ns, hv, hsome, (globMatches_namespace hs hv hv).mpr ⟨rfl, (hP k).mpr hm⟩⟩

/-- A server that visits the keys in their order and publishes always. -/
def Choices.sorted : Choices := ⟨OrdMap.elems, fun _ => List.Perm.refl _, fun _ _ => true⟩

/-- The configuration without notifications. -/
def Config.plain : Config := ⟨none, by simp, fun _ => false⟩

/-- `setIfNotExistsAsync` of a key that does not exist. -/
theorem perform_create (cfg : Config) (r : Choices) {s : Server} {ns : Namespace}
    (hv : isValidNamespace ns = true) {k : Key} (h : entries s.db ns k = none) (d : Data) :
    ∃ t, perform r s ((StoreOp.setIfNotExists ns k d).toOp.request cfg true) =
        some (.ack (.modifyIfAck .none true), t) ∧
      ∀ n x, isValidNamespace n = true →
        entries t.db n x = if n = ns ∧ x = k then some d else entries s.db n x := by
  have hk : abs s ns k = none := by rw [abs, if_pos hv]; exact h
  have ha : (StoreOp.setIfNotExists ns k d).act (abs s ns) =
      (.modifyIfAck .none true, Function.update (abs s ns) k (some d)) :=
    if_neg (by rw [hk]; simp)
  have hspec : (StoreOp.setIfNotExists ns k d).spec (abs s) = (.modifyIfAck .none true,
      Function.update (abs s) ns (Function.update (abs s ns) k (some d))) :=
      StoreOp.spec_valid hv ha
  obtain ⟨t, hp, habs, -⟩ := perform_spec cfg r s (.setIfNotExists ns k d)
  rw [hspec] at hp habs
  refine ⟨t, hp, fun n x hn => ?_⟩
  have he : ∀ u : Server, entries u.db n = abs u n := fun u => (if_pos hn).symm
  rw [he, he, habs]
  show Function.update (abs s) ns _ n x = _
  by_cases hns : n = ns
  · subst hns
    rw [Function.update_self, Function.update_apply]
    simp
  · rw [Function.update_of_ne hns]
    simp [hns]

/-- The database that holds one entry. -/
theorem written_single (r : Choices) {ns : Namespace} (hv : isValidNamespace ns = true) (k : Key)
    (d : Data) :
    ∃ s, Written r s ∧ ∀ ns' k', isValidNamespace ns' = true →
      ((entries s.db ns' k').isSome ↔ ns' = ns ∧ k' = k) := by
  obtain ⟨t, hp, ht⟩ := @perform_create .plain r ⟨OrdMap.empty, []⟩ ns hv k rfl d
  refine ⟨t, .perform .empty hp, fun n x hn => ?_⟩
  rw [ht n x hn]
  split
  · rename_i h; simp [h]
  · rename_i h; simp [h, entries]

/-- **Key search.** For a valid namespace, both searches are exact on every database that was
written through the storage, if and only if the namespace has none of the characters that are
special in a pattern: it is put into the pattern without escaping them. -/
theorem keySearch_exact_iff {ns : Namespace} (hv : isValidNamespace ns = true) :
    SearchExact ns ↔ hasSpecial ns = false := by
  constructor
  · intro h
    rw [Bool.eq_false_iff]
    intro hs
    have hfind : ∀ r s, Written r s → ∀ k, k ∈ (getKeys (keysReply r s.db
        (buildKeyPrefixSearchPattern ns []))).elems ↔ (entries s.db ns k).isSome := by
      intro r s hw k
      obtain ⟨ks, hp, hk⟩ := (h r s hw).1 []
      rw [findKeysAsync, perform_findKeys hv] at hp
      cases hp
      simpa using hk k
    let r := Choices.sorted
    rcases special_pattern hv hs with ⟨k, hk⟩ | ⟨ns', k, hv', hne, hk⟩
    · -- A key of the namespace that is not found.
      obtain ⟨s, hw, hs⟩ := written_single r hv k []
      have hmem := (hfind r s hw k).mpr ((hs ns k hv).mpr ⟨rfl, rfl⟩)
      obtain ⟨n, hn, hsome, hm⟩ := (mem_getKeys_keysReply hw.encoded).mp hmem
      obtain ⟨rfl, -⟩ := (hs n k hn).mp hsome
      rw [hk] at hm
      cases hm
    · -- A key of another namespace that is found.
      obtain ⟨s, hw, hs⟩ := written_single r hv' k []
      have hmem := (mem_getKeys_keysReply (r := r) hw.encoded).mpr
        ⟨ns', hv', (hs ns' k hv').mpr ⟨rfl, rfl⟩, hk⟩
      exact hne ((hs ns k hv).mp ((hfind r s hw k).mp hmem)).1.symm
  · intro hs r s hw
    refine ⟨fun p => ?_, fun g => ?_⟩
    · rw [findKeysAsync, buildKeyPrefixSearchPattern, List.append_assoc]
      exact exact_of_not_special hv hs hw fun k => globMatches_prefix
    · exact exact_of_not_special hv hs hw fun k => Iff.rfl

theorem keySearch_exact_iff_ns :
    isValidNamespace (str "ns") = true ∧ (SearchExact (str "ns") ↔ hasSpecial (str "ns") = false) :=
  ⟨by decide, keySearch_exact_iff (by decide)⟩

/-- `listKeys` of the namespace `a*` finds the key `k` of the namespace `ab`. -/
theorem listKeys_finds_foreign_key : ¬ ∀ ns, isValidNamespace ns = true → SearchExact ns := by
  intro h
  let db : Db := OrdMap.empty.assign (encode (str "ab") (str "k")) (str "data")
  have hw : Written .sorted ⟨db, []⟩ :=
    @Written.perform .sorted ⟨OrdMap.empty, []⟩ ⟨db, []⟩ .plain
      (.setIfNotExists (str "ab") (str "k") (str "data"))
        (.ack (.modifyIfAck .none true)) .empty rfl
  obtain ⟨ks, hp, hk⟩ := (h (str "a*") (by decide) .sorted ⟨db, []⟩ hw).2 (str "*")
  have hp' : perform .sorted ⟨db, []⟩ (listKeys true (str "a*") (str "*")) =
      some (.ack (.findKeysAck .none (OrdMap.empty.insert (str "k") ())), ⟨db, []⟩) := rfl
  rw [hp'] at hp
  cases hp
  have := ((hk (str "k")).mp (by decide)).1
  revert this
  decide

end Redis
end Sdl
