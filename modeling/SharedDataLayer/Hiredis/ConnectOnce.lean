import SharedDataLayer.Hiredis.ConnectAck
import SharedDataLayer.Hiredis.Dispatcher
import SharedDataLayer.Spec.Sys

/-!
# Connect acks over the life of a dispatcher

Both dispatchers as systems, without commands of a client: what happens to their connect acks
depends on registrations, connections and verifications only.

* `Single.reach_ackInv`: `AsyncHiredisCommandDispatcher`, if a registration replaces no ack that
  still waits, and `setConnected` finds no ack that was posted already.
* `Cluster.reach_ackInv`: `AsyncHiredisClusterCommandDispatcher`, which is connected once and for
  all; the first condition is enough.
* `connectAck_once`: both.
-/

namespace Sdl
namespace Hiredis

open Spec Redis

/-! ## `AsyncHiredisCommandDispatcher` -/

namespace Single

structure World where
  acks : Acks
  link : Link
  timer : Option RetryAction
  aborted : Bool

def World.dispatcher (w : World) : Dispatcher Empty := ⟨w.acks.core, w.link, w.timer⟩

/-- The dispatcher after a function that posts callbacks. -/
def World.update (w : World) (d : Dispatcher Empty) (posted : List (Posted Empty)) : World where
  acks := { w.acks with core := d.core, posted := w.acks.posted ++ posted }
  link := d.link
  timer := d.connectionRetryTimer
  aborted := w.aborted

inductive Event where
  /-- The client calls `waitConnectedAsync`. -/
  | waitConnectedAsync
  /-- `connectCb` with success. In what follows, `k` is the number of registrations from inside a
  connect ack, and `accept` and `err` say whether hiredis accepts the verification. -/
  | connected (accept : Bool) (err : ContextError) (k : Nat)
  /-- `connectCb` with a failure; hiredis frees the context. -/
  | connectFailed (err : ContextError)
  /-- The reply to the first pending command. -/
  | reply (rr : RedisReply) (k : Nat)
  /-- The connection is lost: null replies, then `disconnectCb`. -/
  | lost (err : ContextError)
  /-- The retry timer. `ok` says whether hiredis returns a context. -/
  | timer (ok : Bool) (accept : Bool) (err : ContextError) (k : Nat)
  /-- The engine calls the posted callback `i`. -/
  | posted (i : Nat) (k : Nat)

variable (usedForSentinel : Bool)

def verifyConnection (w : World) (accept : Bool) (err : ContextError) (k : Nat) : World :=
  if usedForSentinel then { w with acks := w.acks.setConnected k }
  else w.update (w.dispatcher.verifyConnection accept err).1
    (w.dispatcher.verifyConnection accept err).2

def verifyConnectionReply (w : World) (error : ErrorCode) (reply : Reply) (k : Nat) : World :=
  match verified error reply with
  | .retry => w.update w.dispatcher.retryVerification []
  | .setConnected => { w with acks := w.acks.setConnected k }
  | .abort => { w with aborted := true }

/-- `handleReply` for the command `cb`. -/
def handleReply (w : World) (cb : Nat) (error : ErrorCode) (reply : Reply) (k : Nat) : World :=
  let w := { w with acks := { w.acks with core := w.acks.core.completed cb } }
  match w.acks.core.findCb cb with
  | none => { w with aborted := true }
  | some _ =>
    let w := verifyConnectionReply w error reply k
    { w with acks := { w.acks with core := w.acks.core.removeCb cb } }

/-- Null replies to the pending commands. -/
def freeContext (w : World) (err : ContextError) : World :=
  w.acks.core.pending.foldl (fun w cb => handleReply w cb (getRedisError err none) .nil 0) w

def step (w : World) : Event → Option World
  | .waitConnectedAsync => some { w with acks := w.acks.register }
  | .connected accept err k =>
    if w.link = .connecting then some (verifyConnection usedForSentinel
      { w with link := .up } accept err k)
    else none
  | .connectFailed err =>
    if w.link = .connecting then
      some { freeContext (w.update w.dispatcher.setDisconnected []) err with link := .none }
    else none
  | .reply rr k =>
    match w.acks.core.pending with
    | cb :: _ => some (handleReply w cb (getRedisError .other (some rr))
      (asyncRedisReply (some rr)) k)
    | [] => none
  | .lost err =>
    if w.link = .up then
      let w := { freeContext w err with link := .none }
      some (w.update w.dispatcher.setDisconnected [])
    else none
  | .timer ok accept err k =>
    match w.timer with
    | some .connect => some ({ w with timer := none }.update
      ({ w with timer := none }.dispatcher.connect ok) [])
    | some .verifyConnection => some (verifyConnection usedForSentinel
      { w with timer := none } accept err k)
    | none => none
  | .posted i k =>
    match w.acks.posted[i]? with
    | some (.connectAck ack) => some { w with acks := w.acks.runPosted i ack k }
    | some (.callCommandCbWithError _ _ e) =>
      some (verifyConnectionReply { w with
        acks := { w.acks with posted := w.acks.posted.eraseIdx i } } e .nil k)
    | none => none

/-- The dispatcher after its constructor. An abort ends the process. -/
def sys (ok : Bool) : Sys World Event where
  init :=
    let d : Dispatcher Empty := Dispatcher.new 0 ok
    ⟨{ Acks.new with core := d.core }, d.link, d.connectionRetryTimer, false⟩
  step w e := if w.aborted then none else step usedForSentinel w e

/-- The step calls `setConnected`. -/
def connects (w : World) : Event → Bool
  | .connected _ _ _ => usedForSentinel
  | .timer _ _ _ _ => usedForSentinel && w.timer = some .verifyConnection
  | .reply (.reply r) _ => checkRedisModuleCommands (parseCommandListReply r)
  | _ => false

/-- The registrations of the step outside of `setConnected`. -/
def Event.registrations : Event → Nat
  | .waitConnectedAsync => 1
  | .posted _ k => k
  | _ => 0

/-- A registration replaces no ack that still waits for the connection, and `setConnected` finds no
ack that was posted or called already. -/
def Undisturbed (w : World) (e : Event) : Prop :=
  (connects usedForSentinel w e = true → w.acks.SlotWaits) ∧ w.acks.CanRegister e.registrations

instance (w : World) (e : Event) : Decidable (Undisturbed usedForSentinel w e) :=
  inferInstanceAs (Decidable (_ ∧ _))

theorem update_inv {w : World} (h : w.acks.AckInv) {d : Dispatcher Empty} {ps : List (Posted Empty)}
    (hc : d.core.connectAck = w.acks.core.connectAck)
    (hs : d.core.serviceState = .connected → w.acks.core.serviceState = .connected)
    (hp : ∀ p ∈ ps, p.ack = none ∧ p.Failed) : (w.update d ps).acks.AckInv := by
  refine h.of_frame ?_ rfl rfl rfl hc hs fun p hm => ?_
  · show ((w.acks.posted ++ ps).filterMap Posted.ack).Perm _
    rw [List.filterMap_append, List.filterMap_eq_nil_iff.mpr
      fun p hm => (hp p hm).1, List.append_nil]
    rfl
  · exact (List.mem_append.mp hm).imp_right fun hm => (hp p hm).2

theorem verifyConnection_inv {w : World} (h : w.acks.AckInv)
    (hw : usedForSentinel = true → w.acks.SlotWaits) (accept : Bool)
      (err : ContextError) (k : Nat) :
    (verifyConnection usedForSentinel w accept err k).acks.AckInv := by
  unfold verifyConnection
  split
  · rename_i hu; exact h.setConnected (hw hu) k
  · obtain ⟨hc, hs, hp⟩ := Core.dispatchAsync_slot
      { w.acks.core with serviceState := .connectionVerification } accept err
        .verifyConnectionReply false
    refine update_inv h hc (fun he => ?_) fun p hp' => ?_
    · rw [show (w.dispatcher.verifyConnection accept err).1.core.serviceState = _ from hs] at he
      cases he
    · obtain ⟨self, cb, e, rfl, he⟩ := hp p hp'
      exact ⟨rfl, he⟩

theorem verifyConnectionReply_inv {w : World} (h : w.acks.AckInv) {e : ErrorCode} {r : Reply}
    (hw : verified e r = .setConnected → w.acks.SlotWaits) (k : Nat) :
    (verifyConnectionReply w e r k).acks.AckInv := by
  unfold verifyConnectionReply
  split
  · refine update_inv h ?_ ?_ (by simp) <;> unfold Dispatcher.retryVerification <;> split <;>
      simp [World.dispatcher]
  · rename_i hv; exact h.setConnected (hw hv) k
  · exact h

theorem handleReply_inv {w : World} (h : w.acks.AckInv) {cb : Nat} {e : ErrorCode} {r : Reply}
    (hw : verified e r = .setConnected → w.acks.SlotWaits) (k : Nat) :
    (handleReply w cb e r k).acks.AckInv := by
  have hc : ({ w.acks with core := w.acks.core.completed cb } : Acks).AckInv :=
    h.of_frame (.refl _) rfl rfl rfl rfl (fun hs => hs) fun _ hp => .inl hp
  unfold handleReply
  simp only
  split
  · exact hc
  · exact (verifyConnectionReply_inv (w := { w with acks := _ }) hc hw k).of_frame
      (.refl _) rfl rfl rfl rfl
      (fun hs => hs) fun _ hp => .inl hp

theorem freeContext_inv {w : World} (h : w.acks.AckInv) (err : ContextError) :
    (freeContext w err).acks.AckInv := by
  unfold freeContext
  generalize w.acks.core.pending = l
  induction l generalizing w with
  | nil => exact h
  | cons cb l ih =>
    refine ih (handleReply_inv h (fun hv => ?_) 0)
    rw [verified_error (isError_nullReply err)] at hv
    cases hv

/-- Each step of a run that meets the condition keeps the invariant. -/
theorem step_inv {w w' : World} {e : Event} (h : w.acks.AckInv)
    (hu : Undisturbed usedForSentinel w e)
    (hst : step usedForSentinel w e = some w') : w'.acks.AckInv := by
  obtain ⟨hc, hr⟩ := hu
  cases e with
  | waitConnectedAsync => cases hst; exact h.register hr
  | connected accept err k =>
    simp only [step] at hst
    split at hst
    · cases hst; exact verifyConnection_inv usedForSentinel
        (w := { w with link := .up }) h hc accept err k
    · cases hst
  | connectFailed err =>
    simp only [step] at hst
    split at hst
    · cases hst
      exact freeContext_inv (update_inv h rfl (fun hs => by cases hs) (by simp)) err
    · cases hst
  | reply rr k =>
    simp only [step] at hst
    split at hst
    · cases hst
      refine handleReply_inv h (fun hv => hc ?_) k
      cases rr with
      | reply r =>
        show checkRedisModuleCommands (parseCommandListReply r) = true
        by_contra hno
        have : verified .none r = .abort := by
          unfold verified
          rw [if_neg (by simp [ErrorCode.isError]), if_neg hno]
        rw [getRedisError, asyncRedisReply, this] at hv
        cases hv
      | error text =>
        rw [verified_error (isError_errorReply .other text)] at hv
        cases hv
    · cases hst
  | lost err =>
    simp only [step] at hst
    split at hst
    · cases hst
      exact update_inv (w := { freeContext w err with link := _ }) (freeContext_inv h err) rfl
        (fun hs => by cases hs) (by simp)
    · cases hst
  | timer ok accept err k =>
    simp only [step] at hst
    split at hst
    · cases hst
      refine update_inv (w := { w with timer := none }) h ?_ ?_ (by simp) <;>
        unfold Dispatcher.connect <;> split <;> simp [World.dispatcher, Dispatcher.setDisconnected]
    · rename_i ht
      cases hst
      refine verifyConnection_inv _ (w := { w with timer := none }) h (fun hs => hc ?_) accept err k
      simp [connects, hs, ht]
    · cases hst
  | posted i k =>
    simp only [step] at hst
    split at hst
    · rename_i ack hi; cases hst; exact h.runPosted hi hr
    · rename_i self cb e hi
      cases hst
      obtain ⟨he, hw⟩ := h.takePosted hi
      refine verifyConnectionReply_inv (w := { w with acks := _ }) hw (fun hv => ?_) k
      rw [verified_error he] at hv
      cases hv
    · cases hst

theorem reach_ackInv {ok : Bool} {w : World}
    (h : (sys usedForSentinel ok).Reach (Undisturbed usedForSentinel) w) : w.acks.AckInv := by
  refine h.invariant (I := fun w => w.acks.AckInv) ?_ fun s e s' hi hg hst => ?_
  · cases ok
    · exact Acks.ackInv_new.of_frame (.refl _) rfl rfl rfl rfl (fun hs => by cases hs)
        fun _ hp => .inl hp
    · exact Acks.ackInv_new
  · simp only [sys] at hst
    split at hst
    · cases hst
    · exact step_inv usedForSentinel hi hg hst

end Single

/-! ## `AsyncHiredisClusterCommandDispatcher` -/

namespace Cluster

structure World where
  acks : Acks
  /-- The retry timer is armed. Its action is `connect`. -/
  timer : Bool
  aborted : Bool

inductive Event where
  /-- The client calls `waitConnectedAsync`. -/
  | waitConnectedAsync
  /-- hiredis completes the pending command `i`, with a null reply and the error `err` of the
  context if a node is lost. The state of the dispatcher does not depend on the nodes
  (`handleDisconnect`). -/
  | reply (i : Nat) (rr : Option RedisReply) (err : ContextError) (k : Nat)
  /-- The retry timer. -/
  | timer (ok : Bool) (accept : Bool) (err : ContextError)
  /-- The engine calls the posted callback `i`. -/
  | posted (i : Nat) (k : Nat)

def verifyConnection (w : World) (accept : Bool) (err : ContextError) : World :=
  let (core, posted) := w.acks.core.dispatchAsync accept err .verifyConnectionReply false
  { w with acks := { w.acks with core := core, posted := w.acks.posted ++ posted } }

def verifyConnectionReply (w : World) (error : ErrorCode) (reply : Reply) (k : Nat) : World :=
  match verified error reply with
  | .retry => { w with timer := true }
  | .setConnected => { w with acks := w.acks.setConnected k }
  | .abort => { w with aborted := true }

/-- `handleReply` for the command `cb`. -/
def handleReply (w : World) (cb : Nat) (error : ErrorCode) (reply : Reply) (k : Nat) : World :=
  let w := { w with acks := { w.acks with core := w.acks.core.completed cb } }
  match w.acks.core.findCb cb with
  | none => { w with aborted := true }
  | some _ =>
    let w := verifyConnectionReply w error reply k
    { w with acks := { w.acks with core := w.acks.core.removeCb cb } }

/-- `disconnectHiredisCluster`: a connected context is freed, with null replies to the pending
commands. -/
def disconnectHiredisCluster (w : World) (err : ContextError) : World :=
  let w := if w.acks.core.serviceState = .connected then
      w.acks.core.pending.foldl (fun w cb => handleReply w cb (getRedisError err none) .nil 0) w
    else w
  { w with acks := { w.acks with core := { w.acks.core with serviceState := .disconnected } } }

/-- `connect`. `ok` says whether hiredis returns a context without an error. -/
def connect (w : World) (ok accept : Bool) (err : ContextError) : World :=
  let w := disconnectHiredisCluster w err
  if ok then verifyConnection w accept err else { w with timer := true }

def step (w : World) : Event → Option World
  | .waitConnectedAsync => some { w with acks := w.acks.register }
  | .reply i rr err k =>
    match w.acks.core.pending[i]? with
    | some cb => some (handleReply w cb (getRedisError err rr) (asyncRedisReply rr) k)
    | none => none
  | .timer ok accept err => if w.timer then some (connect { w with timer := false } ok accept err)
    else none
  | .posted i k =>
    match w.acks.posted[i]? with
    | some (.connectAck ack) => some { w with acks := w.acks.runPosted i ack k }
    | some (.callCommandCbWithError _ _ e) =>
      some (verifyConnectionReply { w with
        acks := { w.acks with posted := w.acks.posted.eraseIdx i } } e .nil k)
    | none => none

/-- The dispatcher after its constructor. An abort ends the process. -/
def sys (ok accept : Bool) (err : ContextError) : Sys World Event where
  init := connect ⟨Acks.new, false, false⟩ ok accept err
  step w e := if w.aborted then none else step w e

/-- The registrations of the step outside of `setConnected`. -/
def Event.registrations : Event → Nat
  | .waitConnectedAsync => 1
  | .posted _ k => k
  | _ => 0

/-- A registration replaces no ack that still waits for the connection. -/
def Undisturbed (w : World) (e : Event) : Prop := w.acks.CanRegister e.registrations

instance (w : World) (e : Event) : Decidable (Undisturbed w e) :=
  inferInstanceAs (Decidable (w.acks.CanRegister _))

/-- The verifications that are under way: a pending command, a posted failure, a retry, or one that
has succeeded. -/
def World.verifications (w : World) : Nat :=
  w.acks.core.pending.length + w.acks.commands + w.timer.toNat +
    if w.acks.core.serviceState = .connected then 1 else 0

/-- There is at most one verification, so the dispatcher is connected at most once; before that no
ack is posted or called. -/
structure Inv (w : World) : Prop where
  acks : w.acks.AckInv
  single : w.verifications ≤ 1
  quiet : w.acks.core.serviceState ≠ .connected → w.acks.handled = []

/-- No verification is under way. -/
theorem Inv.idle {w : World} (h0 : w.verifications = 0) :
    w.acks.core.pending = [] ∧ w.acks.commands = 0 ∧ w.timer = false ∧
      w.acks.core.serviceState ≠ .connected := by
  unfold World.verifications at h0
  split at h0
  · omega
  · rename_i hs
    refine ⟨List.length_eq_zero_iff.mp (by omega), by omega, ?_, hs⟩
    cases ht : w.timer with
    | false => rfl
    | true => rw [ht] at h0; simp at h0

theorem verifyConnectionReply_inv {w : World} (h : Inv w) (h0 : w.verifications = 0) (e : ErrorCode)
    (r : Reply) (k : Nat) : Inv (verifyConnectionReply w e r k) := by
  obtain ⟨hp, hc, ht, hs⟩ := Inv.idle h0
  unfold verifyConnectionReply
  split
  · refine ⟨h.acks, ?_, h.quiet⟩
    simp only [World.verifications, hp, hc, hs, if_false]
    decide
  · obtain ⟨hp', hc', hs'⟩ := w.acks.setConnected_commands k
    refine ⟨h.acks.setConnected (fun a _ hm => ?_) k, ?_, fun hn => absurd hs' hn⟩
    · rw [h.quiet hs] at hm; cases hm
    · simp only [World.verifications, hp', hc', hs', hp, hc, ht, if_true]
      decide
  · exact ⟨h.acks, h.single, h.quiet⟩

theorem handleReply_inv {w : World} (h : Inv w) {cb : Nat}
    (hcb : cb ∈ w.acks.core.pending) (e : ErrorCode)
    (r : Reply) (k : Nat) : Inv (handleReply w cb e r k) := by
  -- Without the command that has completed, no verification is under way.
  have hlt : (w.acks.core.pending.filter (· ≠ cb)).length < w.acks.core.pending.length :=
    List.length_filter_lt_length_iff_exists.mpr ⟨cb, hcb, by simp⟩
  have h0 : World.verifications { w with
    acks := { w.acks with core := w.acks.core.completed cb } } = 0 := by
    have h1 := h.single
    unfold World.verifications at h1
    show (w.acks.core.pending.filter (· ≠ cb)).length + w.acks.commands + w.timer.toNat +
      (if w.acks.core.serviceState = .connected then 1 else 0) = 0
    omega
  have hw : Inv { w with acks := { w.acks with core := w.acks.core.completed cb } } :=
    ⟨h.acks.of_frame (.refl _) rfl rfl rfl rfl (fun hs => hs) fun _ hp => .inl hp, by omega,
      h.quiet⟩
  unfold handleReply
  simp only
  split
  · exact ⟨hw.acks, hw.single, hw.quiet⟩
  · have hv := verifyConnectionReply_inv hw h0 e r k
    exact ⟨hv.acks.of_frame (.refl _) rfl rfl rfl rfl (fun hs => hs) fun _ hp => .inl hp,
      hv.single, hv.quiet⟩

/-- The verification is pending, or its failure is posted. -/
theorem dispatchAsync_length {d : Core Empty} (hp : d.pending = []) (accept : Bool)
    (err : ContextError) :
    (d.dispatchAsync accept err .verifyConnectionReply false).1.pending.length +
      (d.dispatchAsync accept err .verifyConnectionReply false).2.countP
      (fun p => p.ack.isNone) = 1 := by
  unfold Core.dispatchAsync
  rw [if_neg (by simp)]
  simp only
  split
  · simp [hp]
  · simp [Core.removeCb, hp, Posted.ack]

theorem verifyConnection_inv {w : World} (h : Inv w) (h0 : w.verifications = 0) (accept : Bool)
    (err : ContextError) : Inv (verifyConnection w accept err) := by
  obtain ⟨hp, hc, ht, hs⟩ := Inv.idle h0
  obtain ⟨hslot, hstate, hposted⟩ := w.acks.core.dispatchAsync_slot accept err
    .verifyConnectionReply false
  have hlen := dispatchAsync_length hp accept err
  unfold verifyConnection
  generalize w.acks.core.dispatchAsync accept err .verifyConnectionReply false = q at *
  obtain ⟨core, ps⟩ := q
  have hs' : core.serviceState ≠ .connected := by
    rw [show core.serviceState = _ from hstate]; exact hs
  have hacks : ∀ p ∈ ps, p.ack = none ∧ p.Failed := by
    intro p hm
    obtain ⟨self, cb, e, rfl, he⟩ := hposted p hm
    exact ⟨rfl, he⟩
  have hack : (w.acks.posted ++ ps).filterMap Posted.ack = w.acks.postedAcks := by
    rw [List.filterMap_append, List.filterMap_eq_nil_iff.mpr fun p hm => (hacks p hm).1,
      List.append_nil]
    rfl
  refine ⟨h.acks.of_frame (.of_eq hack) rfl rfl rfl hslot (fun hc => absurd hc hs') fun p hm => ?_,
    ?_, fun _ => ?_⟩
  · exact (List.mem_append.mp hm).imp_right fun hm => (hacks p hm).2
  · show core.pending.length + (w.acks.posted ++ ps).countP
      (fun p => p.ack.isNone) + w.timer.toNat +
      (if core.serviceState = .connected then 1 else 0) ≤ 1
    have hc' : w.acks.posted.countP (fun p => p.ack.isNone) = 0 := hc
    rw [List.countP_append, hc', ht, if_neg hs', Bool.toNat_false]
    simp only at hlen
    omega
  · show w.acks.called ++ (w.acks.posted ++ ps).filterMap Posted.ack = []
    rw [hack]
    exact h.quiet hs

theorem connect_inv {w : World} (h : Inv w) (h0 : w.verifications = 0) (ok accept : Bool)
    (err : ContextError) : Inv (connect w ok accept err) := by
  obtain ⟨hp, hc, ht, hs⟩ := Inv.idle h0
  -- The dispatcher is not connected, so nothing is freed.
  have hd : disconnectHiredisCluster w err =
      { w with acks := { w.acks with core :=
                                       { w.acks.core with serviceState := .disconnected } } } := by
    unfold disconnectHiredisCluster
    rw [if_neg hs]
  have h0' : (disconnectHiredisCluster w err).verifications = 0 := by
    rw [hd]
    show w.acks.core.pending.length + w.acks.commands + w.timer.toNat + 0 = 0
    rw [hp, hc, ht]
    rfl
  have hw : Inv (disconnectHiredisCluster w err) := by
    refine ⟨?_, by omega, fun _ => ?_⟩
    · rw [hd]
      exact h.acks.of_frame (.refl _) rfl rfl rfl rfl (fun hs => by cases hs) fun _ hp => .inl hp
    · rw [hd]; exact h.quiet hs
  unfold connect
  simp only
  split
  · exact verifyConnection_inv hw h0' accept err
  · obtain ⟨hp', hc', -, hs'⟩ := Inv.idle h0'
    refine ⟨hw.acks, ?_, hw.quiet⟩
    simp only [World.verifications, hp', hc', hs', if_false]
    decide

/-- Steps that keep the commands and the service state. -/
theorem Inv.of_acks {w : World} (h : Inv w) {acks : Acks} (ha : acks.AckInv)
    (hp : acks.core.pending = w.acks.core.pending) (hc : acks.commands = w.acks.commands)
    (hs : acks.core.serviceState = w.acks.core.serviceState)
    (hq : w.acks.core.serviceState ≠ .connected → acks.handled = []) :
    Inv { w with acks := acks } := by
  refine ⟨ha, ?_, fun hn => hq (hs ▸ hn)⟩
  have h1 := h.single
  unfold World.verifications at h1 ⊢
  rw [hp, hc, hs]
  exact h1

theorem step_inv {w w' : World} {e : Event} (h : Inv w) (hu : Undisturbed w e)
    (hst : step w e = some w') :
    Inv w' := by
  cases e with
  | waitConnectedAsync =>
    cases hst
    refine h.of_acks (h.acks.register hu) rfl (Acks.commands_register _) rfl fun hs => ?_
    rw [Acks.handled_register, if_neg hs]
    exact h.quiet hs
  | reply i rr err k =>
    simp only [step] at hst
    split at hst
    · rename_i cb hi; cases hst; exact handleReply_inv h (List.mem_of_getElem? hi) _ _ k
    · cases hst
  | timer ok accept err =>
    simp only [step] at hst
    split at hst
    · rename_i ht
      cases hst
      have h1 := h.single
      have h0 : World.verifications { w with timer := false } = 0 := by
        unfold World.verifications at h1 ⊢
        rw [ht, Bool.toNat_true] at h1
        rw [Bool.toNat_false]
        simp only
        omega
      have hw : Inv { w with timer := false } := ⟨h.acks, by omega, h.quiet⟩
      exact connect_inv hw h0 ok accept err
    · cases hst
  | posted i k =>
    simp only [step] at hst
    split at hst
    · rename_i ack hi
      cases hst
      have hperm := taken_perm hi
      obtain ⟨hp, hc⟩ := Acks.registers_commands k
        { w.acks with posted := w.acks.posted.eraseIdx i, called := w.acks.called ++ [ack] }
      refine h.of_acks (h.acks.runPosted hi hu) hp (hc.trans ?_)
        (Acks.registers_state k _) fun hs => ?_
      · show (w.acks.posted.eraseIdx i).countP _ = w.acks.posted.countP _
        rw [← hperm.countP_eq]
        simp [Posted.ack]
      · -- An ack is posted only by a connected dispatcher.
        have hm : ack ∈ w.acks.handled := List.mem_append_right _
          (List.mem_filterMap.mpr ⟨_, List.mem_of_getElem? hi, rfl⟩)
        rw [h.quiet hs] at hm
        cases hm
    · rename_i self cb e hi
      cases hst
      obtain ⟨-, hw⟩ := h.acks.takePosted hi
      have hperm := taken_perm hi
      have hcount : w.acks.commands = (w.acks.posted.eraseIdx i).countP
        (fun p => p.ack.isNone) + 1 := by
        unfold Acks.commands
        rw [← hperm.countP_eq, List.countP_cons_of_pos (by simp [Posted.ack])]
      have h0 : World.verifications
          { w with acks := { w.acks with posted := w.acks.posted.eraseIdx i } } = 0 := by
        have h1 := h.single
        unfold World.verifications at h1
        show w.acks.core.pending.length + (w.acks.posted.eraseIdx i).countP
          (fun p => p.ack.isNone) +
          w.timer.toNat + (if w.acks.core.serviceState = .connected then 1 else 0) = 0
        omega
      refine verifyConnectionReply_inv ⟨hw, by omega, fun hs => ?_⟩ h0 e .nil k
      have hq : (w.acks.called ++ w.acks.postedAcks) = [] := h.quiet hs
      have hacks : ((w.acks.posted.eraseIdx i).filterMap Posted.ack).Perm w.acks.postedAcks :=
        hperm.filterMap Posted.ack
      rw [List.append_eq_nil_iff] at hq
      rw [hq.2] at hacks
      show w.acks.called ++ (w.acks.posted.eraseIdx i).filterMap Posted.ack = []
      rw [hq.1, List.perm_nil.mp hacks]
      rfl
    · cases hst

theorem reach_ackInv {ok accept : Bool} {err : ContextError} {w : World}
    (h : (sys ok accept err).Reach Undisturbed w) : w.acks.AckInv := by
  refine (h.invariant (I := Inv) ?_ fun s e s' hi hg hst => ?_).acks
  · exact connect_inv ⟨Acks.ackInv_new, by decide, fun _ => rfl⟩ (by decide) ok accept err
  · simp only [sys] at hst
    split at hst
    · cases hst
    · exact step_inv hi hg hst

end Cluster

/-! ## Both dispatchers -/

/-- **Connect acks.** In every run of either dispatcher in which no registration replaces an ack
that still waits for the connection, and `setConnected` never finds an ack that was posted or called
already (which the cluster dispatcher never does), every connect ack is called at most once, and
exactly once when the dispatcher has been connected after its registration and all posted callbacks
have run. -/
theorem connectAck_once (usedForSentinel ok accept : Bool) (err : ContextError) :
    (∀ w, (Single.sys usedForSentinel ok).Reach (Single.Undisturbed usedForSentinel) w →
      w.acks.Once) ∧
      ∀ w, (Cluster.sys ok accept err).Reach Cluster.Undisturbed w → w.acks.Once :=
  ⟨fun _ h => (Single.reach_ackInv usedForSentinel h).once,
    fun _ h => (Cluster.reach_ackInv h).once⟩

/-- The reply of `COMMAND` with the commands of the module. -/
def commandReply : RedisReply :=
  .reply (.array (getRequiredRedisModuleCommands.map fun c => .array [.string c]))

/-- An ack that is registered before the connection is up is called once when it is verified. -/
theorem connectAck_once_registered :
    ∃ w, (Single.sys false true).Reach (Single.Undisturbed false) w ∧ w.acks.Once ∧
      w.acks.called = [0] := by
  have h : (Single.sys false true).Reach (Single.Undisturbed false) _ :=
    Sys.reach_run [.waitConnectedAsync, .connected true .other 0, .reply commandReply 0] rfl
  exact ⟨_, h, (connectAck_once false true true .other).1 _ h, rfl⟩

/-- An ack that is registered while the dispatcher is connected is posted and called. After the loss
of the connection and the reconnect, `setConnected` calls it a second time. -/
theorem connectAck_called_twice :
    ¬ ∀ (usedForSentinel ok : Bool) (w : Single.World),
      (Single.sys usedForSentinel ok).Reach Sys.always w → w.acks.Once := by
  intro h
  have hr : (Single.sys false true).Reach Sys.always _ :=
    Sys.reach_run [.connected true .other 0, .reply commandReply 0,
      .waitConnectedAsync, .posted 0 0,
      .lost .eof, .timer true true .other 0, .connected true .other 0, .reply commandReply 0] rfl
  have := (h false true _ hr).1 0
  revert this
  decide

end Hiredis
end Sdl
