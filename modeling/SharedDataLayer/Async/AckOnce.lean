import SharedDataLayer.Async.Frame
import SharedDataLayer.Spec.Tokens

/-!
# Every operation is acknowledged exactly once

Each operation that was issued has one token: the callback of its command in the dispatcher, a
posted callback, or its ack. The steps move tokens. While a callback is being called its token is in
no place; `e` below are the tokens in that state. So the invariant, `Inv held f e w`, is about the
inside of a step as well: `held` is the command whose callback is being called, and `f` the commands
that still get a null reply while hiredis frees the context.

* `Inv.request`, `Inv.issue`, `Inv.callAck`, `Inv.callCb`: each takes the token of its operation.
* `Inv.handleReply`, `Inv.freeContext`, `Inv.destroy`: the ways of a command.
* `acknowledged_iff`: what holds of every reachable state in which no freed dispatcher has been
  used.
* `ack_exactly_once`: this is so exactly in the runs in which the engine calls no failure of a
  `COMMAND` whose dispatcher has been replaced.
* `ack_useAfterFree`: such a failure ends the process, and an ack that is posted behind it is lost.
-/

namespace Sdl
namespace Async

open Spec Redis Hiredis

/-! ## Tokens -/

/-- The operation of a callback. -/
def opOf : Cb ClientCb → Option Nat
  | .verifyConnectionReply => none
  | .client k => some k.op

/-- The operation of a posted callback. -/
def Task.op : Task → Option Nat
  | .ack op _ => some op
  | .dispatcher (.callCommandCbWithError _ cb _) => opOf cb
  | .dispatcher (.connectAck _) => none

/-- The operations whose commands are in flight, without the one whose callback is being called. -/
def inflight (held : Option Nat) (d : Core ClientCb) : List Nat :=
  (d.cbs.filter fun c => some c.1 ≠ held).filterMap fun c => opOf c.2

/-- The operations in flight in the installed dispatcher. -/
def World.inflight (held : Option Nat) (w : World) : List Nat :=
  match w.dispatcher with
  | some d => Async.inflight held d.core
  | none => []

/-- The number of tokens of the operation `n`. -/
def World.count (held : Option Nat) (w : World) (n : Nat) : Nat :=
  (w.inflight held).count n + (w.posted.filterMap Task.op).count n + (w.acks.map Prod.fst).count n

/-- A posted callback of a command gets an error. -/
def Task.Failed : Task → Prop
  | .dispatcher (.callCommandCbWithError _ _ e) => e.isError = true
  | _ => True

/-- The dispatcher while callbacks are being called. -/
structure Mid (held : Option Nat) (f : Option (List Nat)) (d : Dispatcher ClientCb) : Prop where
  ok : d.core.Ok held
  pending : d.core.serviceState = .disconnected → d.core.freeing = true ∨ d.core.pending = []
  timer : d.connectionRetryTimer = some .connect → d.core.serviceState = .disconnected
  freeing : d.core.freeing = f.isSome
  rest : ∀ l, f = some l → d.core.pending = l

structure Inv (held : Option Nat) (f : Option (List Nat)) (e : List Nat) (w : World) : Prop where
  mid : ∀ d, w.dispatcher = some d → Mid held f d
  tokens : ∀ n, e.count n + w.count held n = if n < w.nextOp then 1 else 0
  failed : ∀ t ∈ w.posted, t.Failed
  valid : w.aborted ≠ some invalidCallback

section Calls

variable {cfg : Config} {env : Env} {held : Option Nat} {f : Option (List Nat)}
    {e : List Nat} {w : World}

theorem Mid.dispatchAsync {d : Dispatcher ClientCb} (h : Mid held f d) (accept : Bool)
    (err : ContextError) (cb : Cb ClientCb) :
    Mid held f { d with core := (d.core.dispatchAsync accept err cb true).1 } := by
  have hok := h.ok.dispatchAsync accept err cb true
  rcases d.core.dispatchAsync_cases accept err cb true h.ok.lt with
    ⟨e, n, -, he⟩ | ⟨hfree, hs, he⟩ <;>
    rw [he] at hok ⊢
  · exact ⟨hok, h.pending, h.timer, h.freeing, h.rest⟩
  · -- The command is accepted: the service is connected and nothing is being freed.
    have hs := hs rfl
    refine ⟨hok, fun hd => ?_, fun ht => ?_, h.freeing, fun l hl => ?_⟩
    · rw [show d.core.serviceState = .disconnected from hd] at hs; cases hs
    · rw [h.timer ht] at hs; cases hs
    · have := h.freeing
      rw [hfree, hl] at this
      cases this

/-- What `dispatchAsync` does to the tokens: the operation of the callback gets one. -/
theorem dispatchAsync_count {d : Core ClientCb} (h : d.Ok held) (accept : Bool) (err : ContextError)
    (cb : Cb ClientCb) (check : Bool) (n : Nat) :
    (inflight held (d.dispatchAsync accept err cb check).1).count n +
        (((d.dispatchAsync accept err cb check).2.map Task.dispatcher).filterMap Task.op).count n =
      (inflight held d).count n + (opOf cb).toList.count n := by
  rcases d.dispatchAsync_cases accept err cb check h.lt with ⟨e, m, -, he⟩ | ⟨-, -, he⟩ <;> rw [he]
  · have : [Task.dispatcher (.callCommandCbWithError d.self cb e)].filterMap Task.op =
      (opOf cb).toList := by
      cases cb <;> rfl
    rw [List.map_singleton, this]
    rfl
  · have hne : some d.nextCb ≠ held := fun he => Nat.lt_irrefl _ (h.lt _ (h.held _ he.symm))
    have hpush : (d.cbs ++ [(d.nextCb, cb)]).filter (fun c => some c.1 ≠ held) =
        d.cbs.filter (fun c => some c.1 ≠ held) ++ [(d.nextCb, cb)] := by
      rw [List.filter_append, List.filter_cons_of_pos (by simpa using hne), List.filter_nil]
    unfold inflight
    rw [hpush, List.filterMap_append, List.count_append]
    cases cb <;> rfl

theorem dispatchAsync_failed (d : Core ClientCb) (accept : Bool) (err : ContextError)
    (cb : Cb ClientCb)
    (check : Bool) : ∀ t ∈ (d.dispatchAsync accept err cb check).2.map Task.dispatcher,
      t.Failed := by
  intro t ht
  obtain ⟨p, hp, rfl⟩ := List.mem_map.mp ht
  obtain ⟨self, cb, e, rfl, he⟩ := (d.dispatchAsync_slot accept err cb check).2.2 p hp
  exact he

/-- The dispatcher has accepted or posted the callbacks whose operations are `l`. -/
theorem Inv.dispatched {d d' : Dispatcher ClientCb} {l : List Nat} {ps : List (Posted ClientCb)}
    (h : Inv held f (l ++ e) w) (hd : w.dispatcher = some d) (hm : Mid held f d')
    (hc : ∀ n, (inflight held d'.core).count n +
      ((ps.map Task.dispatcher).filterMap Task.op).count n =
      (inflight held d.core).count n + l.count n)
    (hf : ∀ t ∈ ps.map Task.dispatcher, t.Failed) :
    Inv held f e { w with dispatcher := some d', posted := w.posted ++ ps.map .dispatcher } := by
  refine ⟨fun x hx => (by cases hx; exact hm), fun n => ?_, fun t ht => ?_, h.valid⟩
  · have ht := h.tokens n
    have hn := hc n
    unfold World.count World.inflight at ht ⊢
    simp only [hd, List.filterMap_append, List.count_append] at ht ⊢
    omega
  · rcases List.mem_append.mp ht with ht | ht
    · exact h.failed t ht
    · exact hf t ht

/-- A request takes the token of its operation. -/
theorem Inv.request {n : Nat} (h : Inv held f (n :: e) w) {r : Request}
    (hr : ∀ cb ns c, r = .dispatchAsync cb ns c → w.dispatcher.isSome) :
    Inv held f e (request env w n r) := by
  cases r with
  | postCallback a =>
    refine ⟨h.mid, fun m => ?_, fun t ht => ?_, h.valid⟩
    · have ht := h.tokens m
      rw [List.count_cons] at ht
      show e.count m + ((w.inflight held).count m +
        ((w.posted ++ [Task.ack n a]).filterMap Task.op).count m + (w.acks.map Prod.fst).count m) =
        _
      have hp : ((w.posted ++ [Task.ack n a]).filterMap Task.op).count m =
          (w.posted.filterMap Task.op).count m + if n == m then 1 else 0 := by
        rw [List.filterMap_append, List.count_append]
        show _ + [n].count m = _
        rw [List.count_singleton]
      unfold World.count at ht
      rw [hp]
      show _ = if m < w.nextOp then 1 else 0
      omega
    · rcases List.mem_append.mp ht with ht | ht
      · exact h.failed t ht
      · rw [List.mem_singleton.mp ht]; trivial
  | dispatchAsync cb ns c =>
    obtain ⟨d, hd⟩ := Option.isSome_iff_exists.mp (hr cb ns c rfl)
    have hm := h.mid d hd
    simp only [Async.request, hd]
    exact h.dispatched hd (hm.dispatchAsync _ _ _)
      (dispatchAsync_count hm.ok _ _ (.client ⟨n, cb⟩) true)
      (dispatchAsync_failed d.core _ _ _ true)

/-- A new operation gets its token. -/
theorem Inv.issue (h : Inv held f e w) (op : Op) : Inv held f e (issue cfg env w op) := by
  have hnew : Inv held f (w.nextOp :: e) { w with nextOp := w.nextOp + 1 } := by
    refine ⟨h.mid, fun n => ?_, h.failed, h.valid⟩
    have ht := h.tokens n
    have hnew := count_issued w.nextOp n
    show (w.nextOp :: e).count n + w.count held n = if n < w.nextOp + 1 then 1 else 0
    rw [List.count_cons]
    omega
  refine hnew.request fun cb ns c hr => ?_
  exact Op.request_dispatcher cfg _ hr

theorem Inv.issues (h : Inv held f e w) (ops : List Op) :
    Inv held f e (ops.foldl (Async.issue cfg env) w) := by
  induction ops generalizing w with
  | nil => exact h
  | cons op ops ih => exact ih (h.issue op)

theorem Inv.callAck {n : Nat} (h : Inv held f (n :: e) w) (a : Ack) :
    Inv held f e (callAck cfg env w n a) := by
  refine Inv.issues ?_ _
  refine ⟨h.mid, fun m => ?_, h.failed, h.valid⟩
  have ht := h.tokens m
  rw [List.count_cons] at ht
  show e.count m + ((w.inflight held).count m + (w.posted.filterMap Task.op).count m +
    ((w.acks ++ [(n, a)]).map Prod.fst).count m) = if m < w.nextOp then 1 else 0
  have hp : ((w.acks ++ [(n, a)]).map Prod.fst).count m =
      (w.acks.map Prod.fst).count m + if n == m then 1 else 0 := by
    rw [List.map_append, List.count_append, ← List.count_singleton]
    rfl
  unfold World.count at ht
  rw [hp]
  omega

/-- A change of the dispatcher, with the tokens that are taken from it or put into it. -/
theorem Inv.set_dispatcher {held' : Option Nat} {f' : Option (List Nat)} {e' : List Nat}
    {d d' : Dispatcher ClientCb} (h : Inv held f e w) (hd : w.dispatcher = some d)
    (hm : Mid held' f' d') (hi : ∀ n, e'.count n + (inflight held' d'.core).count n =
      e.count n + (inflight held d.core).count n) :
    Inv held' f' e' { w with dispatcher := some d' } := by
  refine ⟨fun x hx => by cases hx; exact hm, fun n => ?_, h.failed, h.valid⟩
  have ht := h.tokens n
  have hn := hi n
  show e'.count n + ((inflight held' d'.core).count n + (w.posted.filterMap Task.op).count n +
    (w.acks.map Prod.fst).count n) = if n < w.nextOp then 1 else 0
  unfold World.count World.inflight at ht
  simp only [hd] at ht
  omega

theorem Inv.verifyConnectionReply (h : Inv held f e w) (self : Nat)
    {err : ErrorCode} {reply : Reply}
    (hs : verified err reply = .setConnected → ∀ d, w.dispatcher = some d →
      d.core.serviceState ≠ .disconnected) :
    Inv held f e (verifyConnectionReply cfg env w self err reply) := by
  unfold Async.verifyConnectionReply
  split
  · exact h
  · rename_i d hd
    have hm := h.mid d hd
    split
    · split
      · refine h.set_dispatcher hd ?_ fun n => ?_
        · unfold Dispatcher.retryVerification
          split
          · exact ⟨hm.ok, hm.pending, fun ht => (by cases ht), hm.freeing, hm.rest⟩
          · exact hm
        · unfold Dispatcher.retryVerification
          split <;> rfl
      · rename_i hv
        refine Inv.issues ?_ _
        refine h.set_dispatcher hd ⟨⟨hm.ok.nodup, hm.ok.lt, hm.ok.pending, hm.ok.held⟩,
          fun hc => ?_, fun ht => ?_, hm.freeing, hm.rest⟩ fun _ => rfl
        · cases hc
        · exact absurd (hm.timer ht) (hs hv d hd)
      · refine ⟨h.mid, h.tokens, h.failed, ?_⟩
        show some missingCommands ≠ some invalidCallback
        decide
    · exact h

/-- The callback of a command takes the token of its operation. -/
theorem Inv.callCb {cb : Cb ClientCb} (h : Inv held f ((opOf cb).toList ++ e) w) (self : Nat)
    {err : ErrorCode} {reply : Reply}
    (hs : verified err reply = .setConnected → ∀ d, w.dispatcher = some d →
      d.core.serviceState ≠ .disconnected) :
    Inv held f e (callCb cfg env w self cb err reply) := by
  cases cb with
  | verifyConnectionReply => exact Inv.verifyConnectionReply h self hs
  | client k =>
    have hk : Inv held f (k.op :: e) w := h
    simp only [Async.callCb]
    split
    · exact hk.callAck _
    · exact hk.request fun cb ns c hr => operation_dispatcher _ hr

/-- The token of a command whose callback is found. -/
theorem inflight_findCb {d : Core ClientCb} (h : d.Ok none) {i : Nat} {cb : Cb ClientCb}
    (hf : d.findCb i = some cb) (n : Nat) :
    (inflight none d).count n = (opOf cb).toList.count n + (inflight (some i) d).count n := by
  have hall : inflight none d = d.cbs.filterMap fun c => opOf c.2 := by
    unfold inflight
    rw [List.filter_eq_self.mpr]
    simp
  have hheld : inflight (some i) d = (d.cbs.filter fun c => c.1 ≠ i).filterMap
    fun c => opOf c.2 := by
    unfold inflight
    simp only [ne_eq, Option.some.injEq]
  rw [hall, hheld]
  exact count_lookup opOf n h.nodup hf

theorem inflight_removeCb (d : Core ClientCb) (i : Nat) :
    inflight none (d.removeCb i) = inflight (some i) d := by
  unfold inflight Core.removeCb
  rw [List.filter_filter]
  congr 1
  apply List.filter_congr
  intro c _
  simp

theorem Mid.removeCb {d : Dispatcher ClientCb} {i : Nat} (h : Mid (some i) f d) :
    Mid none f { d with core := d.core.removeCb i } :=
  ⟨h.ok.removeCb, h.pending, h.timer, h.freeing, h.rest⟩

/-- A change of the dispatcher, if there is one, that keeps the tokens. -/
theorem Inv.map_dispatcher {held' : Option Nat} {f' : Option (List Nat)}
    {g : Dispatcher ClientCb → Dispatcher ClientCb} (h : Inv held f e w)
    (hm : ∀ d, Mid held f d → Mid held' f' (g d))
    (hi : ∀ d, inflight held' (g d).core = inflight held d.core) :
    Inv held' f' e { w with dispatcher := w.dispatcher.map g } := by
  cases hd : w.dispatcher with
  | none =>
    refine ⟨fun d hx => (by cases hx), fun n => ?_, h.failed, h.valid⟩
    have ht := h.tokens n
    unfold World.count World.inflight at ht ⊢
    simp only [hd] at ht
    exact ht
  | some d =>
    refine h.set_dispatcher hd (hm d (h.mid d hd)) fun n => ?_
    rw [hi]

/-- The callback has returned, and its item is removed. -/
theorem Inv.removeCb {i : Nat} (h : Inv (some i) f e w) :
    Inv none f e { w with dispatcher := w.dispatcher.map fun d =>
                            { d with core := d.core.removeCb i } } :=
  h.map_dispatcher (fun _ hm => hm.removeCb) fun d => inflight_removeCb d.core i

/-- The pending commands after the first of them is completed. -/
def restOf (f : Option (List Nat)) : Option (List Nat) := f.map List.tail

theorem pending_completed {d : Core ClientCb} {i : Nat} {l : List Nat} (hp : d.pending = i :: l)
    (hnd : (i :: l).Nodup) : (d.completed i).pending = l := by
  show d.pending.filter (· ≠ i) = l
  rw [hp, List.filter_cons_of_neg (by simp), List.filter_eq_self]
  intro j hj
  have : j ≠ i := fun e => (List.nodup_cons.mp hnd).1 (e ▸ hj)
  simpa using this

/-- `handleReply` for the first pending command. -/
theorem Inv.handleReply {d : Dispatcher ClientCb} {i : Nat} {l : List Nat} (h : Inv none f e w)
    (hd : w.dispatcher = some d) (hp : d.core.pending = i :: l) {err : ErrorCode} {reply : Reply}
    (hs : verified err reply = .setConnected → d.core.serviceState ≠ .disconnected) :
    Inv none (restOf f) e (handleReply cfg env w i err reply) := by
  have hm := h.mid d hd
  obtain ⟨hok, k, hk⟩ := hm.ok.completed (i := i) (by rw [hp]; exact List.mem_cons_self)
  have hnd : (i :: l).Nodup := by rw [← hp, ← hm.ok.eq_pending]; exact hm.ok.nodup
  -- The callback is called while the token is in no place.
  have h1 : Inv (some i) (restOf f) ((opOf k).toList ++ e)
      { w with dispatcher := some { d with core := d.core.completed i } } := by
    refine h.set_dispatcher hd ⟨hok, fun hs => ?_, hm.timer, ?_, fun l' hl' => ?_⟩ fun n => ?_
    · rcases hm.pending hs with hf | hf
      · exact .inl hf
      · rw [hf] at hp; cases hp
    · rw [restOf, Option.isSome_map]; exact hm.freeing
    · obtain ⟨q, hq, rfl⟩ := Option.map_eq_some_iff.mp hl'
      rw [pending_completed hp hnd, ← hm.rest q hq, hp]
      rfl
    · have hc := inflight_findCb hm.ok hk n
      show ((opOf k).toList ++ e).count n + (inflight (some i) d.core).count n = _
      rw [List.count_append]
      omega
  have h2 := @Inv.callCb cfg env _ _ _ _ _ h1 d.core.self err reply fun hv x hx => by
    cases hx; exact hs hv
  unfold Async.handleReply
  simp only [hd, hk]
  exact h2.removeCb

/-! ## Null replies -/

/-- A callback that gets an error does not connect the dispatcher. -/
theorem verified_ne {err : ErrorCode} {reply : Reply} (h : err.isError = true) :
    verified err reply ≠ .setConnected := by
  rw [verified_error h]
  exact fun hc => by cases hc

theorem Inv.nullReplies {l : List Nat} (h : Inv none (some l) e w) :
    Inv none (some []) e (nullReplies cfg env w l) := by
  induction l generalizing w with
  | nil => exact h
  | cons i l ih =>
    apply ih
    cases hd : w.dispatcher with
    | none =>
      unfold Async.handleReply
      simp only [hd]
      exact ⟨fun d hx => (by rw [hd] at hx; cases hx), h.tokens, h.failed, h.valid⟩
    | some d =>
      exact h.handleReply hd ((h.mid d hd).rest _ rfl) fun hv =>
        absurd hv (verified_ne (isError_nullReply env.err))

/-- hiredis starts to free the context of a dispatcher; its service state may have changed just
before. -/
theorem Inv.setFreeing {d d' : Dispatcher ClientCb} {s : ServiceState} (h : Inv none none e w)
    (hd : w.dispatcher = some d) (hc : d'.core = { d.core with serviceState := s })
    (ht : d'.connectionRetryTimer = some .connect → s = .disconnected) :
    Inv none (some d.core.pending) e (setFreeing { w with dispatcher := some d' } true) := by
  have hok := (h.mid d hd).ok
  have hmid : Mid none (some d.core.pending)
    { d' with core := { d'.core with freeing := true } } := by
    refine ⟨?_, fun _ => .inl rfl, fun hx => ?_, rfl, fun l hl => ?_⟩ <;> rw [hc]
    · exact ⟨hok.nodup, hok.lt, hok.pending, hok.held⟩
    · exact ht hx
    · exact Option.some.inj hl
  have hinf : inflight none { d'.core with freeing := true } =
    inflight none d.core := by rw [hc]; rfl
  refine h.set_dispatcher hd hmid fun n => ?_
  exact congrArg (fun l => e.count n + l.count n) hinf

theorem Mid.pending_nil {d : Dispatcher ClientCb} (h : Mid none none d)
    (hs : d.core.serviceState = .disconnected) : d.core.pending = [] := by
  rcases h.pending hs with hf | hp
  · rw [h.freeing] at hf; cases hf
  · exact hp

/-- The pending commands are completed while the context is being freed. -/
theorem Inv.freeing {d d' : Dispatcher ClientCb} {s : ServiceState} (h : Inv none none e w)
    (hd : w.dispatcher = some d) (hc : d'.core = { d.core with serviceState := s })
    (ht : d'.connectionRetryTimer = some .connect → s = .disconnected) :
    Inv none (some []) e
      (Async.nullReplies cfg env (Async.setFreeing
        { w with dispatcher := some d' } true) d.core.pending) :=
  (h.setFreeing hd hc ht).nullReplies

theorem Mid.freed {d : Dispatcher ClientCb} (h : Mid none (some []) d) :
    Mid none none { d with core := { d.core with freeing := false } } :=
  ⟨⟨h.ok.nodup, h.ok.lt, h.ok.pending, h.ok.held⟩, fun _ => .inr (h.rest _ rfl), h.timer, rfl,
    fun _ hl => (by cases hl)⟩

/-- Nothing is pending when the dispatcher gets disconnected. -/
theorem Mid.disconnected {d : Dispatcher ClientCb} (h : Mid none none d)
    (hp : d.core.pending = []) :
    Mid none none { d with link := .none }.setDisconnected :=
  ⟨⟨h.ok.nodup, h.ok.lt, h.ok.pending, h.ok.held⟩, fun _ => .inr hp, fun _ => rfl,
    h.freeing, h.rest⟩

theorem Mid.connect {d : Dispatcher ClientCb} (h : Mid none none d)
    (hs : d.connectionRetryTimer = some .connect) (ok : Bool) :
    Mid none none ({ d with connectionRetryTimer := none }.connect ok) := by
  unfold Dispatcher.connect
  split
  · exact ⟨h.ok, h.pending, fun ht => (by cases ht), h.freeing, h.rest⟩
  · have hp := h.pending_nil (h.timer hs)
    exact ⟨⟨h.ok.nodup, h.ok.lt, h.ok.pending, h.ok.held⟩, fun _ => .inr hp, fun _ => rfl,
      h.freeing, h.rest⟩

theorem inflight_connect (d : Dispatcher ClientCb) (t : Option RetryAction) (ok : Bool) :
    inflight held ({ d with connectionRetryTimer := t }.connect ok).core =
      inflight held d.core := by
  unfold Dispatcher.connect
  split <;> rfl

/-! ## The destructor -/

theorem Inv.congr {e' : List Nat} (h : Inv held f e w) (hc : ∀ n, e'.count n = e.count n) :
    Inv held f e' w := by
  refine ⟨h.mid, fun n => ?_, h.failed, h.valid⟩
  rw [hc n]
  exact h.tokens n

/-- The commands of the old dispatcher are completed one after the other. -/
theorem Inv.dropReplies {old : Core ClientCb} {l : List Nat} (hok : old.Ok none)
    (hl : old.pending = l) (h : Inv none none (inflight none old) w) :
    Inv none none [] (l.foldl (dropReply cfg env) (w, old)).1 := by
  induction l generalizing old w with
  | nil =>
    have : old.cbs = [] := by
      have := hok.eq_pending
      rw [hl] at this
      exact List.map_eq_nil_iff.mp this
    exact h.congr fun n => by rw [inflight, this]; rfl
  | cons i l ih =>
    obtain ⟨hok', k, hk⟩ := hok.completed (i := i) (by rw [hl]; exact List.mem_cons_self)
    have hnd : (i :: l).Nodup := by rw [← hl, ← hok.eq_pending]; exact hok.nodup
    have hstep : dropReply cfg env (w, old) i =
        (Async.callCb cfg env w old.self k (getRedisError env.err none) .nil,
          (old.completed i).removeCb i) := by
      unfold dropReply
      simp only [hk]
    have htoken : Inv none none ((opOf k).toList ++
      inflight none ((old.completed i).removeCb i)) w := by
      refine h.congr fun n => ?_
      rw [inflight_findCb hok hk, inflight_removeCb, List.count_append]
      rfl
    rw [List.foldl_cons, hstep]
    refine ih hok'.removeCb ?_ ?_
    · exact pending_completed hl hnd
    · exact Inv.callCb htoken old.self fun hv =>
        absurd hv (verified_ne (isError_nullReply env.err))

/-- No command of a disconnected dispatcher is in flight. -/
theorem Mid.inflight_nil {d : Dispatcher ClientCb} (h : Mid none none d)
    (hs : d.core.serviceState = .disconnected) : inflight none d.core = [] := by
  have hc : d.core.cbs.map Prod.fst = [] := by rw [h.ok.eq_pending, h.pending_nil hs]
  rw [inflight, List.map_eq_nil_iff.mp hc]
  rfl

theorem mid_of_life {d : Dispatcher ClientCb} (h : d.Life) : Mid none none d :=
  ⟨h.ok, fun hs => .inr (h.pending hs), h.timer, h.freeing, fun _ hl => (by cases hl)⟩

theorem Inv.serviceStateChanged (h : Inv none none [] w) (ok : Bool) :
    Inv none none [] (serviceStateChanged cfg env w ok) := by
  have hnew : Mid none none (Dispatcher.new w.nextSelf ok : Dispatcher ClientCb) :=
    mid_of_life (Dispatcher.life_new _ _)
  have hempty : inflight none (Dispatcher.new w.nextSelf ok : Dispatcher ClientCb).core = [] := by
    unfold Dispatcher.new Dispatcher.connect
    split <;> rfl
  have hinst : Inv none none (w.inflight none)
      { w with dispatcher := some (Dispatcher.new w.nextSelf ok), nextSelf := w.nextSelf + 1 } := by
    refine ⟨fun d hd => (by cases hd; exact hnew), fun n => ?_, h.failed, h.valid⟩
    have ht := h.tokens n
    show (w.inflight none).count n + ((inflight none (Dispatcher.new w.nextSelf ok).core).count n +
      (w.posted.filterMap Task.op).count n + (w.acks.map Prod.fst).count n) =
      if n < w.nextOp then 1 else 0
    unfold World.count at ht
    rw [List.count_nil] at ht
    rw [hempty, List.count_nil]
    omega
  unfold Async.serviceStateChanged
  cases hd : w.dispatcher with
  | none =>
    have hold : w.inflight none = [] := by rw [World.inflight, hd]
    rw [hold] at hinst
    exact hinst
  | some old =>
    have hold : w.inflight none = inflight none old.core := by rw [World.inflight, hd]
    rw [hold] at hinst
    simp only [destroy]
    split
    · rename_i hs
      rw [(h.mid old hd).inflight_nil hs] at hinst
      exact hinst
    · exact hinst.dropReplies (h.mid old hd).ok rfl

/-! ## The steps -/

theorem Inv.verifyConnection {d d' : Dispatcher ClientCb} (h : Inv none none e w)
    (hd : w.dispatcher = some d)
    (hc : d'.core = d.core) : Inv none none e (verifyConnection env w d') := by
  have hm := h.mid d hd
  obtain ⟨c, hcv⟩ : ∃ c, c = { d'.core with serviceState := ServiceState.connectionVerification } :=
    ⟨_, rfl⟩
  have hok : c.Ok none := by
    rw [hcv, hc]
    exact ⟨hm.ok.nodup, hm.ok.lt, hm.ok.pending, hm.ok.held⟩
  have hinf : inflight none c = inflight none d.core := by rw [hcv, hc]; rfl
  have hfree : c.freeing = false := by rw [hcv, hc]; exact hm.freeing
  unfold Async.verifyConnection Dispatcher.verifyConnection
  simp only [← hcv]
  refine Inv.dispatched (l := []) h hd ⟨hok.dispatchAsync _ _ _ _, fun hs => ?_,
    fun ht => ?_, ?_, ?_⟩
    (fun n => ?_) (dispatchAsync_failed c _ _ _ _)
  · rw [(c.dispatchAsync_slot _ _ _ _).2.1, hcv] at hs
    cases hs
  · cases ht
  · rcases c.dispatchAsync_cases (env.accept d'.core.nextCb) env.err .verifyConnectionReply
      false hok.lt with
      ⟨_, _, -, he⟩ | ⟨-, -, he⟩ <;> rw [he] <;> exact hfree
  · exact fun _ hl => (by cases hl)
  · rw [dispatchAsync_count hok, hinf]
    rfl

theorem inv_init : Inv none none [] (sys cfg).init :=
  ⟨fun d hd => (by cases hd), fun n => (by simp [sys, World.count, World.inflight]),
    fun t ht => (by cases ht), fun h => (by cases h)⟩

theorem Inv.runTask {t : Task} {i : Nat} (h : Inv none none [] w) (ht : w.posted[i]? = some t) :
    Inv none none [] (runTask cfg env { w with posted := w.posted.eraseIdx i } t) := by
  have htoken : Inv none none t.op.toList { w with posted := w.posted.eraseIdx i } := by
    refine ⟨h.mid, fun n => ?_, fun t ht => h.failed t (List.mem_of_mem_eraseIdx ht), h.valid⟩
    have htok := h.tokens n
    have hcount := count_taken ht Task.op n
    show t.op.toList.count n + ((w.inflight none).count n +
      ((w.posted.eraseIdx i).filterMap Task.op).count n +
      (w.acks.map Prod.fst).count n) = if n < w.nextOp then 1 else 0
    unfold World.count at htok
    rw [List.count_nil] at htok
    omega
  have hfail := h.failed _ (List.mem_of_getElem? ht)
  cases t with
  | ack n a => exact htoken.callAck a
  | dispatcher p =>
    cases p with
    | connectAck a => exact htoken
    | callCommandCbWithError self cb err =>
      have hcb : Inv none none ((opOf cb).toList ++ [])
        { w with posted := w.posted.eraseIdx i } := by
        rw [List.append_nil]; exact htoken
      simp only [Async.runTask, Async.callCommandCbWithError]
      split
      · exact hcb.callCb self fun hv => absurd hv (verified_ne hfail)
      · -- It is the failure of a `COMMAND`, which no operation waits for.
        rename_i hu
        cases cb with
        | client k => exact absurd rfl hu
        | verifyConnectionReply => exact ⟨htoken.mid, htoken.tokens, htoken.failed,
          fun hf => by cases hf⟩

theorem Inv.step {w' : World} {ev : Env × Event} (h : Inv none none [] w)
    (hs : step cfg w ev = some w') : Inv none none [] w' := by
  obtain ⟨env, ev⟩ := ev
  cases ev with
  | issue op => cases hs; exact h.issue op
  | serviceStateChanged ok => cases hs; exact h.serviceStateChanged ok
  | posted i =>
    obtain ⟨t, ht, rfl⟩ := Option.map_eq_some_iff.mp hs
    exact h.runTask ht
  | connected =>
    obtain ⟨d, hd, hs⟩ := Option.bind_eq_some_iff.mp hs
    split at hs
    · cases hs; exact h.verifyConnection hd rfl
    · cases hs
  | connectFailed =>
    obtain ⟨d, hd, hs⟩ := Option.bind_eq_some_iff.mp hs
    split at hs
    · cases hs
      have hf : Inv none (some []) [] (Async.nullReplies cfg env (Async.setFreeing
          { w with dispatcher := some { d with link := .none }.setDisconnected } true)
            d.core.pending) :=
        h.freeing hd rfl fun _ => rfl
      exact hf.map_dispatcher (fun _ hm => hm.freed) fun _ => rfl
    · cases hs
  | reply rr =>
    obtain ⟨d, hd, hs⟩ := Option.bind_eq_some_iff.mp hs
    obtain ⟨i, hi, rfl⟩ := Option.map_eq_some_iff.mp hs
    obtain ⟨l, hl⟩ := List.head?_eq_some_iff.mp hi
    refine h.handleReply hd hl fun _ hdis => ?_
    rw [(h.mid d hd).pending_nil hdis] at hl
    cases hl
  | lost =>
    obtain ⟨d, hd, hs⟩ := Option.bind_eq_some_iff.mp hs
    split at hs
    · cases hs
      have hw : { w with dispatcher := some d } = w := by rw [← hd]
      have hf : Inv none (some []) [] (Async.nullReplies cfg env (Async.setFreeing
          { w with dispatcher := some d } true) d.core.pending) :=
        h.freeing hd rfl (h.mid d hd).timer
      rw [hw] at hf
      have hfreed := hf.map_dispatcher (fun _ hm => hm.freed.disconnected (hm.rest _ rfl)) fun _ =>
        rfl
      simp only [freeContext, Async.setFreeing, Option.map_map]
      exact hfreed
    · cases hs
  | timer ok =>
    obtain ⟨d, hd, hs⟩ := Option.bind_eq_some_iff.mp hs
    split at hs
    · cases hs
      exact h.set_dispatcher hd ((h.mid d hd).connect ‹_› ok) fun n => by rw [inflight_connect]
    · cases hs; exact h.verifyConnection hd rfl
    · cases hs

theorem sys_step {w' : World} {e : Env × Event} (hs : (sys cfg).step w e = some w') :
    step cfg w e = some w' := by
  have hs : (if w.aborted.isSome then none else step cfg w e) = some w' := hs
  split at hs
  · cases hs
  · exact hs

theorem Inv.of_reach {w : World} (h : (sys cfg).Reach Sys.always w) : Inv none none [] w :=
  h.invariant inv_init fun _ _ _ hi _ hs => hi.step (sys_step hs)

end Calls

/-! ## The result -/

theorem acks_request (env : Env) (w : World) (n : Nat) (r : Request) :
    (request env w n r).acks = w.acks := by
  cases r with
  | postCallback a => rfl
  | dispatchAsync cb ns c =>
    simp only [request]
    split <;> rfl

/-- The list of callbacks holds exactly the commands that hiredis has accepted and not completed,
and no invalid callback and no freed dispatcher has ended the process. No operation has been
acknowledged twice; where no command and no posted callback is left, each one that has been issued
has been acknowledged once. -/
structure Acknowledged (w : World) : Prop where
  cbs : ∀ d, w.dispatcher = some d → d.core.cbs.map Prod.fst = d.core.pending
  valid : w.aborted ≠ some invalidCallback
  alive : w.aborted ≠ some .useAfterFree
  once : ∀ n, (w.acks.map Prod.fst).count n ≤ 1
  all : (∀ d, w.dispatcher = some d → d.core.pending = []) → w.posted = [] →
    ∀ n, (w.acks.map Prod.fst).count n = if n < w.nextOp then 1 else 0

/-- The posted callback that the engine calls is not the failure of a `COMMAND` whose dispatcher has
been replaced. -/
def Installed (w : World) (e : Env × Event) : Prop := ∀ t ∈ e.2.task w, t.usable w = true

instance (w : World) (e : Env × Event) : Decidable (Installed w e) :=
  inferInstanceAs (Decidable (∀ t ∈ e.2.task w, _))

/-- The tokens give everything but the life of the process. -/
theorem acknowledged_iff {w : World} (hi : Inv none none [] w) :
    Acknowledged w ↔ w.aborted ≠ some .useAfterFree := by
  refine ⟨fun h => h.alive, fun ha => ⟨fun d hd => (hi.mid d hd).ok.eq_pending, hi.valid, ha,
    fun n => ?_, fun hp hposted n => ?_⟩⟩
  · have ht := hi.tokens n
    unfold World.count at ht
    split at ht <;> omega
  · have hinf : w.inflight none = [] := by
      unfold World.inflight
      split
      · rename_i d hd
        have hc : d.core.cbs.map Prod.fst = [] := by rw [(hi.mid d hd).ok.eq_pending, hp d hd]
        rw [inflight, List.map_eq_nil_iff.mp hc]
        rfl
      · rfl
    have ht := hi.tokens n
    unfold World.count at ht
    rw [hinf, hposted] at ht
    simpa using ht

theorem acknowledged_step_iff {cfg : Config} {w w' : World} {e : Env × Event}
    (hi : Inv none none [] w) (ha : Acknowledged w) (hs : (sys cfg).step w e = some w') :
    Acknowledged w' ↔ Installed w e := by
  have hs := sys_step hs
  rw [acknowledged_iff (hi.step hs)]
  exact step_freed_iff ha.alive hs

/-- **Every operation is acknowledged once.** For every run: in all its states the list of callbacks
holds exactly the commands that hiredis has accepted and not completed, no invalid callback and no
freed dispatcher has ended the process, no operation has been acknowledged twice, and where no
command and no posted callback is left each operation that has been issued has been acknowledged
once; exactly if the engine calls no posted failure of a `COMMAND` whose dispatcher has been
replaced. The call that issues an operation calls no ack. -/
theorem ack_exactly_once (cfg : Config) (es : List (Env × Event)) :
    ((sys cfg).Holds Acknowledged (sys cfg).init es ↔ (sys cfg).Meets Installed (sys cfg).init es) ∧
      ∀ env v op, (issue cfg env v op).acks = v.acks := by
  refine ⟨?_, fun env v op => acks_request env _ _ _⟩
  have hinit : Inv none none [] (sys cfg).init := inv_init
  have hstep : ∀ w e w', Inv none none [] w → (sys cfg).step w e = some w' → Inv none none [] w' :=
    fun w e w' hi hs => hi.step (sys_step hs)
  rw [← Sys.holds_and_iff hstep hinit es]
  refine Sys.holds_iff_meets (fun w e w' hw hs => ?_) ⟨(acknowledged_iff hinit).mpr
    fun hf => (by cases hf), hinit⟩ es
  rw [← acknowledged_step_iff hw.2 hw.1 hs]
  exact and_iff_left (hstep w e w' hw.2 hs)

/-- An operation before discovery, and a `removeAllAsync` whose `DEL` is in flight when discovery
replaces the dispatcher: its ack comes from the destructor. -/
example :
    let env : Env := ⟨fun _ => true, .eof, fun _ => [], []⟩
    let commands : Reply := .array (getRequiredRedisModuleCommands.map fun c => .array [.string c])
    ((sys ⟨none, by decide, fun _ => false⟩).run Installed
      (sys ⟨none, by decide, fun _ => false⟩).init
      [(env, .issue (.removeAllAsync (str "ns"))), (env, .serviceStateChanged true),
        (env, .connected), (env, .reply (.reply commands)),
        (env, .issue (.removeAllAsync (str "ns"))),
        (env, .reply (.reply (.array [.string (str "\x7bns\x7d,k")]))),
        (env, .serviceStateChanged true), (env, .posted 0)]).map
      (fun w => (w.acks.map Prod.fst, w.nextOp, w.posted.isEmpty)) =
        some ([1, 0], 2, true) := by
  decide +kernel

/-- The `COMMAND` of a new connection is refused, and an operation is issued; then discovery
replaces the dispatcher. The engine calls the failure of the `COMMAND` on the freed dispatcher, and
the ack of the operation, which is posted behind it, is never called. -/
theorem ack_useAfterFree : ∃ w, (sys ⟨none, by decide, fun _ => false⟩).Reach Sys.always w ∧
    ¬ Acknowledged w ∧
    w.nextOp = 1 ∧ w.acks = [] ∧ ∀ e, (sys ⟨none, by decide, fun _ => false⟩).step w e = none := by
  let env : Env := ⟨fun _ => false, .eof, fun _ => [], []⟩
  obtain ⟨w, h, hw⟩ := Sys.reach_run_map (S := sys ⟨none, by decide, fun _ => false⟩)
    (G := Sys.always)
    [(env, .serviceStateChanged true), (env, .connected),
      (env, .issue (.removeAllAsync (str "ns"))),
      (env, .serviceStateChanged true), (env, .posted 0)]
    (fun w => (w.aborted, w.nextOp, w.acks.isEmpty)) (b := (some .useAfterFree, 1, true))
      (by decide +kernel)
  obtain ⟨haborted, hw⟩ := Prod.mk.inj hw
  obtain ⟨hnext, hacks⟩ := Prod.mk.inj hw
  refine ⟨w, h, fun ha => ha.alive haborted, hnext, List.isEmpty_iff.mp hacks, fun e => ?_⟩
  simp only [sys, haborted, Option.isSome_some, if_true]

end Async
end Sdl
