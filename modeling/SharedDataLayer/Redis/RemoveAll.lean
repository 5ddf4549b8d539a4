import SharedDataLayer.Redis.Search
import SharedDataLayer.Spec.Sys

/-!
# `removeAllAsync` among other clients

The operation sends `KEYS`, and its callback sends `DEL` (or `DELPUB`) for the keys that it reads
from the reply. Between any two of its steps other clients of the storage perform operations. A
command may fail before or after the server has executed it; then its callback gets an error.

`Executed` records each command of the operation with the database before and after it. `Correct`
says what the operation promises, in these terms.

* `Stage`: how far the operation is, and what its commands have done; `Stage.step` is one step.
* `removeAll_correct_iff`: every run is correct for the namespaces without special characters, and
  only for these.
-/

namespace Sdl
namespace Redis
namespace RemoveAll

open Spec

/-- Where the operation is: a command that is not executed yet, the callback of one that has
completed, an ack that is posted, or the end. -/
inductive Phase where
  | sent (commandCb : CommandCb) (contents : Contents)
  | replied (commandCb : CommandCb) (error : ErrorCode) (reply : Reply)
  | posted (ack : Ack)
  | done

def Phase.isDone : Phase → Bool
  | .done => true
  | _ => false

/-- A command of the operation that the server has executed. -/
structure Executed where
  argv : List Bytes
  before : Db
  after : Db

/-- The server and the operation. `created` are the keys that other clients brought into existence
since the last command of the operation but one: since `KEYS`. -/
structure World where
  server : Server
  phase : Phase
  commands : List Executed
  acks : List Ack
  created : List Bytes

inductive Event where
  /-- The server executes the command. -/
  | exec
  /-- The command fails: before the server executes it, or its reply is lost. -/
  | fail (error : ErrorCode)
  /-- The callback of the command is called. -/
  | callback
  /-- The posted ack is called. -/
  | posted
  /-- Another client performs an operation. -/
  | other (cfg : Config) (op : StoreOp)

/-- What a request of the storage waits for. -/
def phaseOf : Request → Phase
  | .postCallback ack => .posted ack
  | .dispatchAsync cb _ contents => .sent cb contents

/-- The keys that exist after a step and not before. -/
def createdKeys (before after : Db) : List Bytes :=
  after.elems.filter fun x => (before.find x).isNone

/-- The keys that were created since `KEYS`, when a command of the operation is executed. -/
def World.createdAfter (w : World) : List Bytes := if w.commands.isEmpty then [] else w.created

def step (cfg : Config) (r : Choices) (w : World) : Event → Option World
  | .exec =>
    match w.phase with
    | .sent cb c => (exec r w.server c.argv).map fun p =>
      { w with server := p.2, phase := .replied cb .none p.1,
               commands := w.commands ++ [⟨c.argv, w.server.db, p.2.db⟩],
               created := w.createdAfter }
    | _ => none
  | .fail e =>
    if e.isError then
      match w.phase with
      | .sent cb _ => some { w with phase := .replied cb e .nil }
      | .replied cb _ _ => some { w with phase := .replied cb e .nil }
      | _ => none
    else none
  | .callback =>
    match w.phase with
    | .replied cb e reply =>
      match cb.call e reply with
      | .ack a => some { w with phase := .done, acks := w.acks ++ [a] }
      | .removeAsync ns keys => some { w with phase := phaseOf (removeAsync cfg true ns keys) }
    | _ => none
  | .posted =>
    match w.phase with
    | .posted a => some { w with phase := .done, acks := w.acks ++ [a] }
    | _ => none
  | .other cfg' op =>
    (perform r w.server (op.toOp.request cfg' true)).map fun p =>
      { w with server := p.2, created := w.created ++ createdKeys w.server.db p.2.db }

theorem step_exec {cfg : Config} {r : Choices} {w : World} {cb : CommandCb}
    {c : Contents} {reply : Reply}
    {s : Server} (hp : w.phase = .sent cb c) (he : exec r w.server c.argv = some (reply, s)) :
    step cfg r w .exec = some { w with
      server := s, phase := .replied cb .none reply,
      commands := w.commands ++ [⟨c.argv, w.server.db, s.db⟩], created := w.createdAfter } := by
  simp [step, hp, he]

theorem step_callback_ack {cfg : Config} {r : Choices} {w : World} {cb : CommandCb} {e : ErrorCode}
    {reply : Reply} {a : Ack} (hp : w.phase = .replied cb e reply) (hc : cb.call e reply = .ack a) :
    step cfg r w .callback = some { w with phase := .done, acks := w.acks ++ [a] } := by
  simp [step, hp, hc]

theorem step_callback_removeAsync {cfg : Config} {r : Choices} {w : World} {cb : CommandCb}
    {e : ErrorCode} {reply : Reply} {ns : Namespace} {keys : Keys}
    (hp : w.phase = .replied cb e reply) (hc : cb.call e reply = .removeAsync ns keys) :
    step cfg r w .callback = some { w with phase := phaseOf (removeAsync cfg true ns keys) } := by
  simp [step, hp, hc]

/-- The operation on a connected storage. -/
def sys (cfg : Config) (r : Choices) (ns : Namespace) (s : Server) : Sys World Event where
  init := ⟨s, phaseOf (removeAllAsync true ns), [], [], []⟩
  step := step cfg r

/-- What the operation promises. -/
structure Correct (ns : Namespace) (w : World) : Prop where
  /-- The ack is called once. -/
  once : w.acks.length = if w.phase.isDone then 1 else 0
  /-- The first command changes nothing, and there is at most one more. -/
  single : ∀ q qs, w.commands = q :: qs → q.after = q.before ∧ qs.length ≤ 1
  /-- No entry of another namespace is changed. -/
  foreign : ∀ q ∈ w.commands, ∀ ns', isValidNamespace ns' = true → ns' ≠ ns →
    entries q.after ns' = entries q.before ns'
  /-- No key that did not exist when `KEYS` was executed is deleted. -/
  fresh : ∀ q qs, w.commands = q :: qs → ∀ d ∈ qs, ∀ k, entries q.before ns k = none →
    entries d.after ns k = entries d.before ns k
  /-- After success every entry that existed when `KEYS` was executed is gone, unless it was created
  again. -/
  success : ∀ a ∈ w.acks, a.error.isError = false → ∃ q qs, w.commands = q :: qs ∧
    ∀ k, (entries q.before ns k).isSome → encode ns k ∉ w.created → entries w.server.db ns k = none
  /-- After an error nothing was deleted, or every entry that `KEYS` found. -/
  failure : ∀ a ∈ w.acks, a.error.isError = true → ∀ q qs, w.commands = q :: qs →
    qs = [] ∨ ∀ d ∈ qs, ∀ k, (entries q.before ns k).isSome → entries d.after ns k = none

/-! ## The stages -/

/-- The pattern of the search. -/
def pattern (ns : Namespace) : Bytes := buildKeyPrefixSearchPattern ns []

/-- `KEYS` was executed on a database of the storage and changed nothing. -/
def Searched (q : Executed) : Prop := q.after = q.before ∧ Encoded q.before

/-- `d` deletes what `q` found. -/
structure Deletes (ns : Namespace) (q d : Executed) : Prop where
  own : ∀ k, entries d.after ns k =
    if (entries q.before ns k).isSome then none else entries d.before ns k
  other : ∀ x, (∀ k, x ≠ encode ns k) → d.after.find x = d.before.find x

/-- The entries that `q` found are gone or were created again. -/
def Gone (ns : Namespace) (q : Executed) (s : Server) (created : List Bytes) : Prop :=
  ∀ k, (entries q.before ns k).isSome → encode ns k ∉ created → entries s.db ns k = none

/-- The commands that were executed. -/
inductive Progress (ns : Namespace) (s : Server) (created : List Bytes) : List Executed → Prop
  | none : Progress ns s created []
  | searched {q : Executed} : Searched q → Progress ns s created [q]
  | deleted {q d : Executed} : Searched q → Deletes ns q d → Gone ns q s created →
    Progress ns s created [q, d]

/-- How far the operation is. -/
inductive Stage (r : Choices) (ns : Namespace) (s : Server) (created : List Bytes) :
    Phase → List Executed → List Ack → Prop
  | keysSent : Stage r ns s created
      (.sent (.removeAllCb ns) (ContentsBuilder.buildStrings (str "KEYS") (pattern ns))) [] []
  | keysReplied {q : Executed} : Searched q → Stage r ns s created
      (.replied (.removeAllCb ns) .none (.array (keysReply r q.before (pattern ns)))) [q] []
  | delSent {q : Executed} {c : Contents} {pub : Option (Bytes × Bytes)} : Searched q →
    parse c.argv = some ⟨.del ((getKeys (keysReply r q.before (pattern ns))).elems.map (encode ns)),
      pub⟩ →
    Stage r ns s created (.sent .modificationCommandCallback c) [q] []
  | delReplied {q d : Executed} {reply : Reply} : Searched q → Deletes ns q d →
    Gone ns q s created →
    Stage r ns s created (.replied .modificationCommandCallback .none reply) [q, d] []
  | failed {cb : CommandCb} {e : ErrorCode} {cs : List Executed} :
    cb = .removeAllCb ns ∨ cb = .modificationCommandCallback → e.isError = true →
    Progress ns s created cs → Stage r ns s created (.replied cb e .nil) cs []
  | doneOk {a : Ack} {q : Executed} {qs : List Executed} : a.error.isError = false →
    Progress ns s created (q :: qs) → Gone ns q s created → Stage r ns s created .done (q :: qs) [a]
  | doneError {a : Ack} {cs : List Executed} : a.error.isError = true → Progress ns s created cs →
    Stage r ns s created .done cs [a]

/-- The invariant. -/
structure Inv (r : Choices) (ns : Namespace) (w : World) : Prop where
  encoded : Encoded w.server.db
  stage : Stage r ns w.server w.created w.phase w.commands w.acks

/-! ## What the stages mean -/

section Meaning

variable {r : Choices} {ns : Namespace} {s s' : Server} {created created' : List Bytes} {p : Phase}
  {cs : List Executed} {acks : List Ack}

theorem Stage.progress (h : Stage r ns s created p cs acks) : Progress ns s created cs := by
  cases h with
  | keysSent => exact .none
  | keysReplied hq => exact .searched hq
  | delSent hq => exact .searched hq
  | delReplied hq hd hg => exact .deleted hq hd hg
  | failed _ _ hp => exact hp
  | doneOk _ hp => exact hp
  | doneError _ hp => exact hp

/-- A step that keeps what is gone keeps the stage. -/
theorem Progress.mono (hg : ∀ q, Gone ns q s created → Gone ns q s' created')
    (h : Progress ns s created cs) : Progress ns s' created' cs := by
  cases h with
  | none => exact .none
  | searched hq => exact .searched hq
  | deleted hq hd hgo => exact .deleted hq hd (hg _ hgo)

theorem Stage.mono (hg : ∀ q, Gone ns q s created → Gone ns q s' created')
    (h : Stage r ns s created p cs acks) : Stage r ns s' created' p cs acks := by
  cases h with
  | keysSent => exact .keysSent
  | keysReplied hq => exact .keysReplied hq
  | delSent hq hp => exact .delSent hq hp
  | delReplied hq hd hgo => exact .delReplied hq hd (hg _ hgo)
  | failed hcb he hp => exact .failed hcb he (hp.mono hg)
  | doneOk ha hp hgo => exact .doneOk ha (hp.mono hg) (hg _ hgo)
  | doneError ha hp => exact .doneError ha (hp.mono hg)

theorem Deletes.foreign {q d : Executed} (h : Deletes ns q d) {ns' : Namespace}
    (hv : isValidNamespace ns = true) (hv' : isValidNamespace ns' = true) (hne : ns' ≠ ns) :
    entries d.after ns' = entries d.before ns' :=
  funext fun _ => h.other _ fun _ e => hne (encode_inj hv' hv e).1

end Meaning

theorem Inv.correct {r : Choices} {ns : Namespace} (hv : isValidNamespace ns = true) {w : World}
    (h : Inv r ns w) : Correct ns w := by
  obtain ⟨s, p, cs, acks, created⟩ := w
  have hst : Stage r ns s created p cs acks := h.stage
  have hpr := hst.progress
  refine ⟨?_, ?_, ?_, ?_, ?_, ?_⟩
  · show acks.length = if p.isDone then 1 else 0
    cases hst <;> rfl
  · rintro q qs (rfl : cs = q :: qs)
    cases hpr with
    | searched hq => exact ⟨hq.1, by simp⟩
    | deleted hq => exact ⟨hq.1, by simp⟩
  · intro x (hx : x ∈ cs) ns' hv' hne
    cases hpr with
    | none => cases hx
    | searched hq =>
      obtain rfl := List.mem_singleton.mp hx
      rw [hq.1]
    | deleted hq hd =>
      simp only [List.mem_cons, List.not_mem_nil, or_false] at hx
      rcases hx with rfl | rfl
      · rw [hq.1]
      · exact hd.foreign hv hv' hne
  · rintro q qs (rfl : cs = q :: qs) d hd k hk
    cases hpr with
    | searched => cases hd
    | deleted _ hdel =>
      obtain rfl := List.mem_singleton.mp hd
      rw [hdel.own, hk]; rfl
  · intro a (ha : a ∈ acks) hok
    cases hst with
    | doneOk _ _ hg => exact ⟨_, _, rfl, hg⟩
    | doneError he =>
      obtain rfl := List.mem_singleton.mp ha
      rw [hok] at he; cases he
    | keysSent | keysReplied | delSent | delReplied | failed => cases ha
  · rintro a - - q qs (rfl : cs = q :: qs)
    cases hpr with
    | searched => exact .inl rfl
    | deleted _ hdel =>
      refine .inr fun d hd k hk => ?_
      obtain rfl := List.mem_singleton.mp hd
      rw [hdel.own, if_pos hk]

/-! ## The steps -/

section Steps

variable {cfg : Config} {r : Choices} {ns : Namespace} (hv : isValidNamespace ns = true)
  (hs : hasSpecial ns = false)

theorem Encoded.del {db : Db} (h : Encoded db) (ks : List Bytes) : Encoded (db.del ks) := by
  intro x hx
  rw [Db.find_del] at hx
  split at hx
  · cases hx
  · exact h x hx

/-- What the server does for `DEL` and `DELPUB`. -/
theorem exec_del {s : Server} {argv : List Bytes} {ks : List Bytes} {pub : Option (Bytes × Bytes)}
    (h : parse argv = some ⟨.del ks, pub⟩) :
    ∃ reply published, exec r s argv = some (reply, ⟨s.db.del ks, published⟩) := by
  unfold exec
  rw [h]
  exact ⟨_, _, rfl⟩

include hv hs in
/-- `DEL` for the keys that `q` found. -/
theorem deletes_of_del {q : Executed} (hq : Searched q) (argv : List Bytes) (db : Db) :
    Deletes ns q ⟨argv, db,
      db.del ((getKeys (keysReply r q.before (pattern ns))).elems.map (encode ns))⟩ := by
  constructor
  · intro k
    show (Db.del _ _).find (encode ns k) = _
    have hk : k ∈ (getKeys (keysReply r q.before (pattern ns))).elems ↔
      (entries q.before ns k).isSome :=
      mem_getKeys_all hv hs hq.2
    rw [Db.find_del]
    by_cases hsome : (entries q.before ns k).isSome
    · rw [if_pos hsome, if_pos (List.mem_map_of_mem (hk.mpr hsome))]
    · rw [if_neg hsome, if_neg]
      · rfl
      · intro hmem
        obtain ⟨k', hk', e⟩ := List.mem_map.mp hmem
        rw [encode_right_inj] at e
        exact hsome (hk.mp (e ▸ hk'))
  · intro x hx
    show (Db.del _ _).find x = _
    rw [Db.find_del, if_neg]
    intro hmem
    obtain ⟨k, -, rfl⟩ := List.mem_map.mp hmem
    exact hx k rfl

/-- What another client does keeps what is gone. -/
theorem Gone.other {q : Executed} {s s' : Server} {created : List Bytes} (h : Gone ns q s created) :
    Gone ns q s' (created ++ createdKeys s.db s'.db) := by
  intro k hk hc
  rw [List.mem_append, not_or] at hc
  have hnone : s.db.find (encode ns k) = none := h k hk hc.1
  by_contra hsome
  apply hc.2
  refine List.mem_filter.mpr ⟨OrdMap.mem_elems.mpr (Option.isSome_iff_ne_none.mpr hsome), ?_⟩
  rw [hnone]; rfl

include hv in
/-- The second command: the keys that were found are not empty, so it is sent. -/
theorem phaseOf_removeAsync {db : Db} (h : (keysReply r db (pattern ns)).isEmpty = false) :
    ∃ c pub, phaseOf (removeAsync cfg true ns (getKeys (keysReply r db (pattern ns)))) =
        .sent .modificationCommandCallback c ∧
      parse c.argv = some
        ⟨.del ((getKeys (keysReply r db (pattern ns))).elems.map (encode ns)), pub⟩ := by
  have hne : (getKeys (keysReply r db (pattern ns))).isEmpty = false := by
    unfold keysReply at h ⊢
    cases hl : (r.scan db).filter (globMatches (pattern ns)) with
    | nil => rw [hl] at h; cases h
    | cons x l =>
      have hmem : getKey x ∈ (getKeys ((x :: l).map .string)).elems :=
        mem_getKeys.mpr ⟨x, by simp, rfl⟩
      rw [Bool.eq_false_iff]
      intro he
      rw [OrdMap.elems, List.isEmpty_iff.mp he] at hmem
      cases hmem
  obtain ⟨c, hc, hp⟩ := @StoreOp.request_dispatch cfg (.remove ns _) hv hne
  exact ⟨c, _, congrArg phaseOf hc, hp⟩

include hv hs in
theorem Inv.step {w w' : World} {e : Event} (h : Inv r ns w) (hst : step cfg r w e = some w') :
    Inv r ns w' := by
  obtain ⟨s, p, cs, acks, created⟩ := w
  have hstage : Stage r ns s created p cs acks := h.stage
  have henc : Encoded s.db := h.encoded
  cases e with
  | exec =>
    cases hstage with
    | keysSent =>
      rw [step_exec rfl (exec_keys r s (pattern ns))] at hst
      cases hst
      exact ⟨henc, .keysReplied (q := ⟨_, s.db, s.db⟩) ⟨rfl, henc⟩⟩
    | delSent hq hp =>
      rename_i q c pub
      obtain ⟨reply, published, he⟩ := exec_del (r := r) (s := s) hp
      rw [step_exec rfl he] at hst
      cases hst
      have hd := deletes_of_del (r := r) hv hs hq c.argv s.db
      exact ⟨Encoded.del henc _, .delReplied hq hd fun k hk _ => (hd.own k).trans (if_pos hk)⟩
    | keysReplied | delReplied | failed | doneOk | doneError => cases hst
  | fail e =>
    rw [RemoveAll.step] at hst
    split at hst
    · rename_i he
      have hpr := hstage.progress
      cases hstage with
      | keysSent => cases hst; exact ⟨henc, .failed (.inl rfl) he hpr⟩
      | keysReplied hq => cases hst; exact ⟨henc, .failed (.inl rfl) he hpr⟩
      | delSent hq hp => cases hst; exact ⟨henc, .failed (.inr rfl) he hpr⟩
      | delReplied hq hd hg => cases hst; exact ⟨henc, .failed (.inr rfl) he hpr⟩
      | failed hcb => cases hst; exact ⟨henc, .failed hcb he hpr⟩
      | doneOk | doneError => cases hst
    · cases hst
  | callback =>
    cases hstage with
    | keysReplied hq =>
      rename_i q
      cases hemp : (keysReply r q.before (pattern ns)).isEmpty with
      | true =>
        have hcall : CommandCb.call .none (.array (keysReply r q.before (pattern ns)))
            (.removeAllCb ns) = .ack (.modifyAck .none) := if_pos hemp
        rw [step_callback_ack rfl hcall] at hst
        cases hst
        refine ⟨henc, .doneOk rfl (.searched hq) fun k hk _ => ?_⟩
        -- Nothing was found, so there was nothing.
        have hmem := (mem_getKeys_all hv hs (r := r) hq.2).mpr hk
        rw [show keysReply r q.before (buildKeyPrefixSearchPattern ns []) = [] from
          List.isEmpty_iff.mp hemp] at hmem
        cases hmem
      | false =>
        have hcall : CommandCb.call .none (.array (keysReply r q.before (pattern ns)))
            (.removeAllCb ns) = .removeAsync ns (getKeys (keysReply r q.before (pattern ns))) :=
          if_neg (by rw [Reply.getArray, hemp]; simp)
        obtain ⟨c, pub, hph, hp⟩ := @phaseOf_removeAsync cfg r ns hv _ hemp
        rw [step_callback_removeAsync rfl hcall, hph] at hst
        cases hst
        exact ⟨henc, .delSent hq hp⟩
    | delReplied hq hd hg =>
      cases hst
      exact ⟨henc, .doneOk rfl (.deleted hq hd hg) hg⟩
    | failed hcb he hp =>
      rename_i cb e
      have hcall : CommandCb.call e .nil cb = .ack (.modifyAck e) := by
        rcases hcb with rfl | rfl
        · exact if_pos he
        · rfl
      rw [step_callback_ack rfl hcall] at hst
      cases hst
      exact ⟨henc, .doneError he hp⟩
    | keysSent | delSent | doneOk | doneError => cases hst
  | posted =>
    cases hstage <;> cases hst
  | other cfg' op =>
    obtain ⟨⟨a, s'⟩, hp, rfl⟩ := Option.map_eq_some_iff.mp hst
    exact ⟨henc.perform hp, hstage.mono fun q hg => hg.other⟩

end Steps

theorem init_phase {cfg : Config} {r : Choices} {ns : Namespace} (hv : isValidNamespace ns = true)
    (s : Server) : (sys cfg r ns s).init = ⟨s, .sent (.removeAllCb ns)
      (ContentsBuilder.buildStrings (str "KEYS") (pattern ns)), [], [], []⟩ := by
  have hd : removeAllAsync true ns = .dispatchAsync (.removeAllCb ns) ns
      (ContentsBuilder.buildStrings (str "KEYS") (pattern ns)) :=
        operation_dispatch hv (by simp) _ _ _
  show World.mk s (phaseOf (removeAllAsync true ns)) [] [] [] = _
  rw [hd]
  rfl

theorem inv_init {cfg : Config} {r : Choices} {ns : Namespace} (hv : isValidNamespace ns = true)
    {s : Server} (hs : Encoded s.db) : Inv r ns (sys cfg r ns s).init := by
  rw [init_phase hv]
  exact ⟨hs, .keysSent⟩

/-! ## Namespaces with special characters -/

/-- The world after `KEYS`. -/
def searched (r : Choices) (ns : Namespace) (s s' : Server) (created : List Bytes) : World :=
  ⟨s', .replied (.removeAllCb ns) .none (.array (keysReply r s.db (pattern ns))),
    [⟨(ContentsBuilder.buildStrings (str "KEYS") (pattern ns)).argv, s.db, s.db⟩], [], created⟩

theorem reach_step {cfg : Config} {r : Choices} {ns : Namespace} {s : Server}
    {w w' : World} {e : Event}
    (h : (sys cfg r ns s).Reach Sys.always w) (hst : step cfg r w e = some w') :
    (sys cfg r ns s).Reach Sys.always w' := h.step trivial hst

theorem reach_searched {cfg : Config} {r : Choices} {ns : Namespace}
    (hv : isValidNamespace ns = true)
    (s : Server) : (sys cfg r ns s).Reach Sys.always (searched r ns s s []) := by
  have h0 := Sys.Reach.init (S := sys cfg r ns s) (G := Sys.always)
  rw [init_phase hv] at h0
  exact reach_step h0 (step_exec rfl (exec_keys r s (pattern ns)))

/-- A key of the namespace that the pattern misses stays, and the ack says success. -/
theorem not_correct_of_missed {ns : Namespace} (hv : isValidNamespace ns = true) {k : Key}
    (hk : globMatches (pattern ns) (encode ns k) = false) :
    ∃ (s : Server) (w : World), Written .sorted s ∧
      (sys .plain .sorted ns s).Reach Sys.always w ∧ ¬ Correct ns w := by
  obtain ⟨s, hw, hs⟩ := written_single .sorted hv k []
  have hemp : (keysReply .sorted s.db (pattern ns)).isEmpty = true := by
    unfold keysReply
    rw [List.isEmpty_iff, List.map_eq_nil_iff, List.eq_nil_iff_forall_not_mem]
    intro x hx
    obtain ⟨hsome, hm⟩ := (mem_keys .sorted).mp hx
    obtain ⟨ns', k', hv', rfl⟩ := hw.encoded x hsome
    obtain ⟨rfl, rfl⟩ := (hs ns' k' hv').mp hsome
    rw [hk] at hm
    cases hm
  have hcall : CommandCb.call .none (.array (keysReply .sorted s.db (pattern ns)))
      (.removeAllCb ns) = .ack (.modifyAck .none) := if_pos hemp
  refine ⟨s, _, hw, reach_step (reach_searched hv s) (step_callback_ack rfl hcall), fun hc => ?_⟩
  obtain ⟨q, qs, hq, hgone⟩ := hc.success (.modifyAck .none) (by simp [searched]) rfl
  cases hq
  have hsome := (hs ns k hv).mpr ⟨rfl, rfl⟩
  rw [show entries s.db ns k = none from hgone k hsome (by simp [searched])] at hsome
  cases hsome

/-- A key of another namespace that the pattern matches: the key of the same name that another
client creates after `KEYS` is deleted. -/
theorem not_correct_of_foreign {ns ns' : Namespace} (hv : isValidNamespace ns = true)
    (hv' : isValidNamespace ns' = true) (hne : ns' ≠ ns) {k : Key}
    (hk : globMatches (pattern ns) (encode ns' k) = true) :
    ∃ (s : Server) (w : World), Written .sorted s ∧
      (sys .plain .sorted ns s).Reach Sys.always w ∧ ¬ Correct ns w := by
  obtain ⟨s, hw, hs⟩ := written_single .sorted hv' k []
  have hnone : entries s.db ns k = none := by
    rw [← Option.not_isSome_iff_eq_none, hs ns k hv]
    exact fun h => hne h.1.symm
  have hmem : k ∈ (getKeys (keysReply .sorted s.db (pattern ns))).elems :=
    (mem_getKeys_keysReply hw.encoded).mpr ⟨ns', hv', (hs ns' k hv').mpr ⟨rfl, rfl⟩, hk⟩
  have hemp : (keysReply .sorted s.db (pattern ns)).isEmpty = false := by
    rw [Bool.eq_false_iff]
    intro h
    rw [List.isEmpty_iff.mp h] at hmem
    cases hmem
  have hcall : CommandCb.call .none (.array (keysReply .sorted s.db (pattern ns)))
      (.removeAllCb ns) = .removeAsync ns (getKeys (keysReply .sorted s.db (pattern ns))) :=
    if_neg (by rw [Reply.getArray, hemp]; simp)
  -- Another client creates the key, and then `DEL` is executed.
  obtain ⟨t, ht, htk⟩ := perform_create .plain .sorted hv hnone []
  obtain ⟨c, pub, hph, hp⟩ := @phaseOf_removeAsync .plain .sorted ns hv _ hemp
  obtain ⟨reply, published, he⟩ := exec_del (r := .sorted) (s := t) hp
  have h1 : (sys .plain .sorted ns s).Reach Sys.always
      (searched .sorted ns s t ([] ++ createdKeys s.db t.db)) := by
    refine reach_step (e := .other .plain (.setIfNotExists ns k [])) (reach_searched hv s) ?_
    show Option.map _ (perform .sorted s _) = _
    rw [ht]
    rfl
  have h2 := reach_step h1 (step_callback_removeAsync rfl hcall)
  rw [hph] at h2
  refine ⟨s, _, hw, reach_step h2 (step_exec rfl he), fun hc => ?_⟩
  have hfresh : entries (t.db.del _) ns k = entries t.db ns k :=
    hc.fresh _ _ rfl _ (List.mem_singleton_self _) k hnone
  rw [htk ns k hv, if_pos ⟨rfl, rfl⟩, entries, Db.find_del,
    if_pos (List.mem_map_of_mem hmem)] at hfresh
  cases hfresh

/-- **`removeAllAsync`.** For a valid namespace, every run of the operation among other clients, on
every database that was written through the storage, is correct if and only if the namespace has
none of the characters that are special in a pattern. -/
theorem removeAll_correct_iff {ns : Namespace} (hv : isValidNamespace ns = true) :
    (∀ (cfg : Config) (r : Choices) (s : Server) (w : World), Written r s →
      (sys cfg r ns s).Reach Sys.always w → Correct ns w) ↔ hasSpecial ns = false := by
  constructor
  · intro h
    rw [Bool.eq_false_iff]
    intro hs
    obtain ⟨s, w, hw, hr, hn⟩ : ∃ (s : Server) (w : World), Written .sorted s ∧
        (sys .plain .sorted ns s).Reach Sys.always w ∧ ¬ Correct ns w := by
      rcases special_pattern hv hs with ⟨k, hk⟩ | ⟨ns', k, hv', hne, hk⟩
      · exact not_correct_of_missed hv hk
      · exact not_correct_of_foreign hv hv' hne hk
    exact hn (h .plain .sorted s w hw hr)
  · intro hs cfg r s w hw hr
    exact (hr.invariant (I := Inv r ns) (inv_init hv hw.encoded)
      fun _ _ _ hi _ hst => hi.step hv hs hst).correct hv

theorem removeAll_correct_iff_ns :
    isValidNamespace (str "ns") = true ∧
      ((∀ (cfg : Config) (r : Choices) (s : Server) (w : World), Written r s →
        (sys cfg r (str "ns") s).Reach Sys.always w → Correct (str "ns") w) ↔
          hasSpecial (str "ns") = false) :=
  ⟨by decide, removeAll_correct_iff (by decide)⟩

/-- The database holds the key `k` of the namespace `ab`. `removeAllAsync` of the namespace `a*`
finds it, another client creates the key `k` of `a*`, and that one is deleted. -/
theorem removeAll_deletes_created_key :
    ¬ ∀ ns, isValidNamespace ns = true → ∀ (cfg : Config) (r : Choices) (s : Server) (w : World),
      Written r s → (sys cfg r ns s).Reach Sys.always w → Correct ns w := by
  intro h
  have hk : globMatches (pattern (str "a*")) (encode (str "ab") (str "k")) = true := by
    rw [pattern, buildKeyPrefixSearchPattern_nil]
    decide
  obtain ⟨s, w, hw, hr, hn⟩ := @not_correct_of_foreign (str "a*") (str "ab") (by decide) (by decide)
    (by decide) (str "k") hk
  exact hn (h (str "a*") (by decide) .plain .sorted s w hw hr)

end RemoveAll
end Redis
end Sdl
