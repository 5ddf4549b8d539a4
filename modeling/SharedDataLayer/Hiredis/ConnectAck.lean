import SharedDataLayer.Hiredis.Core
import SharedDataLayer.Spec.Tokens

/-!
# The connect ack

`waitConnectedAsync` stores the ack in the one slot of the dispatcher, and also posts it if the
dispatcher is connected. `setConnected` calls the ack of the slot and empties the slot. `Acks` is
the part of a dispatcher and of the engine that this is about, with the acks that were called.

The slot goes wrong in two ways: a registration replaces an ack that still waits for the connection,
and `setConnected` finds an ack that was posted already. `CanRegister` and `SlotWaits` exclude them.

* `AckInv.register`, `AckInv.setConnected`, `AckInv.runPosted`: the steps keep the invariant.
* `AckInv.once`: every ack is called once, when the dispatcher has been connected.
-/

namespace Sdl
namespace Hiredis

open Spec

/-- The acks of a dispatcher without commands of a client. The acks are numbered in the order of
their registration; those below `reached` were registered before a moment in which the dispatcher
was connected. -/
structure Acks where
  core : Core Empty
  posted : List (Posted Empty)
  called : List Nat
  nextAck : Nat
  reached : Nat

/-- The ack of a posted callback. -/
def Posted.ack {κ : Type} : Posted κ → Option Nat
  | .connectAck a => some a
  | .callCommandCbWithError _ _ _ => none

/-- A posted callback of a command gets an error. -/
def Posted.Failed {κ : Type} : Posted κ → Prop
  | .connectAck _ => True
  | .callCommandCbWithError _ _ e => e.isError = true

namespace Acks

def new : Acks := ⟨Core.new 0, [], [], 0, 0⟩

/-- The acks that are posted. -/
def postedAcks (w : Acks) : List Nat := w.posted.filterMap Posted.ack

/-- The acks that were called or are posted. -/
def handled (w : Acks) : List Nat := w.called ++ w.postedAcks

/-- The client calls `waitConnectedAsync`. -/
def register (w : Acks) : Acks :=
  { w with
    core := (w.core.waitConnectedAsync w.nextAck).1
    posted := w.posted ++ (w.core.waitConnectedAsync w.nextAck).2
    nextAck := w.nextAck + 1
    reached := if w.core.serviceState = .connected then w.nextAck + 1 else w.reached }

/-- The client calls `waitConnectedAsync` `k` times. -/
def registers : Nat → Acks → Acks
  | 0, w => w
  | k + 1, w => registers k w.register

/-- An ack is called. From inside it the client registers `k` more. -/
def call (w : Acks) (ack k : Nat) : Acks := registers k { w with called := w.called ++ [ack] }

/-- The service state becomes `CONNECTED`. -/
def enterConnected (w : Acks) : Acks :=
  { w with core := { w.core with serviceState := .connected }, reached := w.nextAck }

/-- The slot is emptied. -/
def clearSlot (w : Acks) : Acks := { w with core := { w.core with connectAck := none } }

/-- `setConnected`. -/
def setConnected (w : Acks) (k : Nat) : Acks :=
  match w.core.connectAck with
  | some ack => (w.enterConnected.call ack k).clearSlot
  | none => w.enterConnected

/-- The engine calls a posted connect ack. -/
def runPosted (w : Acks) (i ack k : Nat) : Acks :=
  { w with posted := w.posted.eraseIdx i }.call ack k

/-- Every ack is called at most once, and once if the dispatcher was connected after its
registration and all posted callbacks have run. -/
def Once (w : Acks) : Prop :=
  (∀ a, w.called.count a ≤ 1) ∧ (w.posted = [] → ∀ a < w.reached, w.called.count a = 1)

/-- The ack of the slot was called or is posted. -/
def SlotHandled (w : Acks) : Prop := ∀ a, w.core.connectAck = some a → a ∈ w.handled

/-- The ack of the slot still waits for the connection. -/
def SlotWaits (w : Acks) : Prop := ∀ a, w.core.connectAck = some a → a ∉ w.handled

instance (w : Acks) : Decidable w.SlotHandled :=
  decidable_of_iff (w.core.connectAck.all fun a => decide (a ∈ w.handled)) (by
    unfold SlotHandled
    cases w.core.connectAck <;> simp)

instance (w : Acks) : Decidable w.SlotWaits :=
  decidable_of_iff (w.core.connectAck.all fun a => decide (a ∉ w.handled)) (by
    unfold SlotWaits
    cases w.core.connectAck <;> simp)

/-- `k` registrations replace no ack that still waits. -/
def CanRegister (w : Acks) (k : Nat) : Prop :=
  w.core.serviceState = .connected ∨ k = 0 ∨ k = 1 ∧ w.SlotHandled

instance (w : Acks) (k : Nat) : Decidable (w.CanRegister k) :=
  inferInstanceAs (Decidable (_ ∨ _ ∨ _ ∧ _))

/-- The invariant of the acks. -/
structure AckInv (w : Acks) : Prop where
  nodup : w.handled.Nodup
  lt : ∀ a ∈ w.handled, a < w.nextAck
  slot : ∀ a, w.core.connectAck = some a → a < w.nextAck
  all : ∀ a < w.nextAck, a ∈ w.handled ∨ w.core.connectAck = some a
  le : w.reached ≤ w.nextAck
  reached : ∀ a < w.reached, a ∈ w.handled
  connected : w.core.serviceState = .connected → w.reached = w.nextAck
  failed : ∀ p ∈ w.posted, p.Failed

theorem ackInv_new : AckInv new := by
  constructor <;> simp [new, Core.new, handled, postedAcks]

theorem AckInv.once {w : Acks} (h : AckInv w) : w.Once := by
  constructor
  · intro a
    exact List.nodup_iff_count_le_one.mp (List.Nodup.of_append_left h.nodup) a
  · intro hp a ha
    have hmem : a ∈ w.called := by simpa [handled, postedAcks, hp] using h.reached a ha
    exact List.count_eq_one_of_mem (List.Nodup.of_append_left h.nodup) hmem

/-- A step that leaves the acks alone, and does not make the dispatcher connected. -/
theorem AckInv.of_frame {w w' : Acks} (h : AckInv w) (hp : w'.postedAcks.Perm w.postedAcks)
    (hc : w'.called = w.called) (hn : w'.nextAck = w.nextAck) (hr : w'.reached = w.reached)
    (hs : w'.core.connectAck = w.core.connectAck)
    (hst : w'.core.serviceState = .connected → w.core.serviceState = .connected)
    (hf : ∀ p ∈ w'.posted, p ∈ w.posted ∨ p.Failed) : AckInv w' := by
  have hh : w'.handled.Perm w.handled := by unfold handled; rw [hc]; exact hp.append_left _
  constructor
  · exact hh.nodup_iff.mpr h.nodup
  · rw [hn]; exact fun a ha => h.lt a (hh.mem_iff.mp ha)
  · rw [hs, hn]; exact h.slot
  · rw [hs, hn]; exact fun a ha => (h.all a ha).imp_left hh.mem_iff.mpr
  · rw [hr, hn]; exact h.le
  · rw [hr]; exact fun a ha => hh.mem_iff.mpr (h.reached a ha)
  · rw [hr, hn]; exact fun hc => h.connected (hst hc)
  · exact fun p hp => (hf p hp).elim (h.failed p) id

theorem handled_register (w : Acks) :
    w.register.handled = if w.core.serviceState = .connected then w.handled ++ [w.nextAck]
      else w.handled := by
  unfold handled postedAcks register Core.waitConnectedAsync
  by_cases hs : w.core.serviceState = .connected <;> simp [hs, Posted.ack]

theorem failed_register {w : Acks} (h : ∀ p ∈ w.posted, p.Failed) :
    ∀ p ∈ w.register.posted, p.Failed := by
  intro p hp
  rcases List.mem_append.mp hp with hp | hp
  · exact h p hp
  · unfold Core.waitConnectedAsync at hp
    simp only at hp
    split at hp
    · rw [List.mem_singleton.mp hp]; trivial
    · cases hp

theorem AckInv.register {w : Acks} (h : AckInv w) (hk : w.CanRegister 1) : AckInv w.register := by
  have hn : w.register.nextAck = w.nextAck + 1 := rfl
  have hslot : w.register.core.connectAck = some w.nextAck := rfl
  have hnew : w.nextAck ∉ w.handled := fun hm => Nat.lt_irrefl _ (h.lt _ hm)
  by_cases hs : w.core.serviceState = .connected
  · -- The ack is posted; all earlier ones are handled.
    have hh : w.register.handled = w.handled ++ [w.nextAck] := by rw [handled_register, if_pos hs]
    have hr : w.register.reached = w.nextAck + 1 := if_pos hs
    have hall : ∀ a < w.nextAck + 1, a ∈ w.handled ++ [w.nextAck] := by
      intro a ha
      rw [List.mem_append, List.mem_singleton]
      rcases Nat.lt_succ_iff_lt_or_eq.mp ha with ha | rfl
      · exact .inl (h.reached a (h.connected hs ▸ ha))
      · exact .inr rfl
    constructor
    · rw [hh, List.nodup_append]
      refine ⟨h.nodup, by simp, ?_⟩
      intro a ha b hb e
      rw [List.mem_singleton] at hb
      exact hnew (hb ▸ e ▸ ha)
    · rw [hh, hn]
      intro a ha
      rcases List.mem_append.mp ha with ha | ha
      · exact Nat.lt_succ_of_lt (h.lt a ha)
      · rw [List.mem_singleton.mp ha]; exact Nat.lt_succ_self _
    · rw [hslot, hn]
      intro a ha
      cases ha
      exact Nat.lt_succ_self _
    · rw [hh, hn]
      exact fun a ha => .inl (hall a ha)
    · rw [hr, hn]
    · rw [hr, hh]; exact hall
    · rw [hr, hn]; exact fun _ => rfl
    · exact failed_register h.failed
  · -- The ack waits in the slot; the one it replaces is handled.
    have hh : w.register.handled = w.handled := by rw [handled_register, if_neg hs]
    have hr : w.register.reached = w.reached := if_neg hs
    have hdone : w.SlotHandled := by
      rcases hk with hk | hk | hk
      · exact absurd hk hs
      · cases hk
      · exact hk.2
    constructor
    · rw [hh]; exact h.nodup
    · rw [hh, hn]
      exact fun a ha => Nat.lt_succ_of_lt (h.lt a ha)
    · rw [hslot, hn]
      intro a ha
      cases ha
      exact Nat.lt_succ_self _
    · rw [hh, hslot, hn]
      intro a ha
      rcases Nat.lt_succ_iff_lt_or_eq.mp ha with ha | rfl
      · rcases h.all a ha with hm | hm
        · exact .inl hm
        · exact .inl (hdone a hm)
      · exact .inr rfl
    · rw [hr, hn]; exact Nat.le_succ_of_le h.le
    · rw [hr, hh]; exact h.reached
    · exact fun hc => absurd hc hs
    · exact failed_register h.failed

theorem AckInv.registers {w : Acks} {k : Nat} (h : AckInv w) (hk : w.CanRegister k) :
    AckInv (registers k w) := by
  induction k generalizing w with
  | zero => exact h
  | succ k ih =>
    rcases hk with hs | hk | ⟨hk, hd⟩
    · exact ih (h.register (.inl hs)) (.inl hs)
    · cases hk
    · obtain rfl : k = 0 := by omega
      exact h.register (.inr (.inr ⟨rfl, hd⟩))

theorem registers_state (k : Nat) (w : Acks) :
    (Acks.registers k w).core.serviceState = w.core.serviceState := by
  induction k generalizing w with
  | zero => rfl
  | succ k ih => exact ih w.register

/-- The posted callbacks of commands. -/
def commands (w : Acks) : Nat := w.posted.countP fun p => p.ack.isNone

theorem commands_register (w : Acks) : w.register.commands = w.commands := by
  unfold commands register Core.waitConnectedAsync
  rw [List.countP_append]
  split <;> simp [Posted.ack]

/-- Registrations and `setConnected` leave the commands alone. -/
theorem registers_commands (k : Nat) (w : Acks) :
    (Acks.registers k w).core.pending = w.core.pending ∧
    (Acks.registers k w).commands = w.commands := by
  induction k generalizing w with
  | zero => exact ⟨rfl, rfl⟩
  | succ k ih =>
    obtain ⟨hp, hc⟩ := ih w.register
    exact ⟨hp, hc.trans (commands_register w)⟩

theorem setConnected_commands (w : Acks) (k : Nat) :
    (w.setConnected k).core.pending = w.core.pending ∧ (w.setConnected k).commands = w.commands ∧
      (w.setConnected k).core.serviceState = .connected := by
  unfold Acks.setConnected
  split
  · rename_i ack _
    obtain ⟨hp, hc⟩ := registers_commands k { w.enterConnected with called := w.called ++ [ack] }
    exact ⟨hp, hc, registers_state k { w.enterConnected with called := w.called ++ [ack] }⟩
  · exact ⟨rfl, rfl, rfl⟩

theorem AckInv.setConnected {w : Acks} (h : AckInv w) (hw : w.SlotWaits) (k : Nat) :
    AckInv (w.setConnected k) := by
  unfold Acks.setConnected
  split
  · rename_i ack hslot
    have hnew : ack ∉ w.handled := hw ack hslot
    have hperm : ((w.called ++ [ack]) ++ w.postedAcks).Perm (ack :: w.handled) := by
      unfold handled
      rw [List.append_assoc, List.singleton_append]
      exact List.perm_middle
    have hmem : ∀ a, a ∈ (w.called ++ [ack]) ++ w.postedAcks ↔ a = ack ∨ a ∈ w.handled := by
      intro a
      rw [hperm.mem_iff, List.mem_cons]
    have hall : ∀ a < w.nextAck, a ∈ (w.called ++ [ack]) ++ w.postedAcks := by
      intro a ha
      rw [hmem]
      rcases h.all a ha with hm | hm
      · exact .inr hm
      · rw [hslot] at hm; cases hm; exact .inl rfl
    have hc : AckInv { w.enterConnected with called := w.called ++ [ack] } := by
      refine ⟨?_, ?_, h.slot, fun a ha => .inl (hall a ha), Nat.le_refl _, hall,
        fun _ => rfl, h.failed⟩
      · exact hperm.nodup_iff.mpr (List.nodup_cons.mpr ⟨hnew, h.nodup⟩)
      · intro a ha
        rcases (hmem a).mp ha with rfl | ha
        · exact h.slot a hslot
        · exact h.lt a ha
    -- The registrations from inside the ack are posted, and the slot is emptied after them.
    have hreg := hc.registers (k := k) (.inl rfl)
    have hstate := registers_state k { w.enterConnected with called := w.called ++ [ack] }
    refine ⟨hreg.nodup, hreg.lt, ?_, fun a ha => .inl ?_, hreg.le, hreg.reached, hreg.connected,
      hreg.failed⟩
    · intro a ha; cases ha
    · exact hreg.reached a (by rw [hreg.connected hstate]; exact ha)
  · rename_i hslot
    refine ⟨h.nodup, h.lt, h.slot, h.all, Nat.le_refl _, fun a ha => ?_, fun _ => rfl, h.failed⟩
    rcases h.all a ha with hm | hm
    · exact hm
    · rw [hslot] at hm; cases hm

theorem handled_runPosted {w : Acks} {i ack : Nat} (hi : w.posted[i]? = some (.connectAck ack)) :
    ((w.called ++ [ack]) ++ (w.posted.eraseIdx i).filterMap Posted.ack).Perm w.handled := by
  have hp : (ack :: (w.posted.eraseIdx i).filterMap Posted.ack).Perm w.postedAcks :=
    (taken_perm hi).filterMap Posted.ack
  rw [List.append_assoc, List.singleton_append]
  exact hp.append_left _

/-- A posted callback of a command is taken from the engine. -/
theorem AckInv.takePosted {w : Acks} {i self : Nat} {cb : Cb Empty} {e : ErrorCode} (h : AckInv w)
    (hi : w.posted[i]? = some (.callCommandCbWithError self cb e)) :
    e.isError = true ∧ AckInv { w with posted := w.posted.eraseIdx i } := by
  refine ⟨h.failed _ (List.mem_of_getElem? hi),
    h.of_frame ?_ rfl rfl rfl rfl (fun hs => hs) fun p hp =>
    .inl (List.mem_of_mem_eraseIdx hp)⟩
  exact (taken_perm hi).filterMap Posted.ack

theorem AckInv.runPosted {w : Acks} {i ack k : Nat} (h : AckInv w)
    (hi : w.posted[i]? = some (.connectAck ack)) (hk : w.CanRegister k) :
    AckInv (w.runPosted i ack k) := by
  have hperm := handled_runPosted hi
  have hmem : ∀ a, a ∈ (w.called ++ [ack]) ++ (w.posted.eraseIdx i).filterMap Posted.ack ↔
    a ∈ w.handled :=
    fun a => hperm.mem_iff
  have hc : AckInv { w with posted := w.posted.eraseIdx i, called := w.called ++ [ack] } := by
    refine ⟨hperm.nodup_iff.mpr h.nodup, fun a ha => h.lt a ((hmem a).mp ha),
      h.slot, fun a ha => ?_,
      h.le, fun a ha => (hmem a).mpr (h.reached a ha), h.connected,
      fun p hp => h.failed p (List.mem_of_mem_eraseIdx hp)⟩
    exact (h.all a ha).imp_left (hmem a).mpr
  refine hc.registers ?_
  rcases hk with hs | hk | ⟨hk, hd⟩
  · exact .inl hs
  · exact .inr (.inl hk)
  · exact .inr (.inr ⟨hk, fun a ha => (hmem a).mpr (hd a ha)⟩)

end Acks

end Hiredis
end Sdl
