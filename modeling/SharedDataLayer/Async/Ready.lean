import SharedDataLayer.Spec.Sys
import SharedDataLayer.Spec.Tokens

/-!
# The readiness of the storage (`src/redis/asyncredisstorage.cpp`)

A client waits with `waitReadyAsync`. Before discovery its ack is put into the slot `readyAck` of
the storage, and `serviceStateChanged` hands a function that calls the slot to the dispatcher; after
discovery the ack goes to the dispatcher directly. Each report of the discovery replaces the
dispatcher, and the functions that the old one still holds are gone with it.

Of a dispatcher it is assumed that a function given to `waitConnectedAsync` is called once: when the
dispatcher gets connected, or, if it is connected already, by the engine. A later function does not
disturb an earlier one. (What the two hiredis dispatchers do is in `Hiredis/ConnectOnce.lean`.) A
new dispatcher is not connected.

The slot has room for one ack, and nothing carries the acks of the old dispatcher over to the new
one. So the result is about the runs in which neither matters.

* `Undisturbed`: no ack is waiting in the slot when another one is put there, and no ack is waiting
  directly in a dispatcher that discovery replaces.
* `readyAck_once`: in these runs no ReadyAck is lost, and none is called twice.
* `readyAck_lost`: the first of two acks that wait for discovery is lost.
-/

namespace Sdl
namespace Async
namespace Ready

open Spec

/-- What is given to `waitConnectedAsync`: a function that calls the ack `n`, or the one that calls
the ack in the slot and clears the slot. -/
inductive ConnectAck where
  | ack (n : Nat)
  | slot
  deriving DecidableEq

structure Dispatcher where
  connected : Bool
  acks : List ConnectAck

/-- `waitConnectedAsync`: the function waits, or is posted. -/
def Dispatcher.waitConnectedAsync (d : Dispatcher) (connectAck : ConnectAck) :
    Dispatcher × List ConnectAck :=
  if d.connected then (d, [connectAck]) else ({ d with acks := d.acks ++ [connectAck] }, [])

/-- The acks are numbered in the order of their registration. `due` is the number of those that were
registered when an installed dispatcher was connected last. -/
structure World where
  dispatcher : Option Dispatcher
  readyAck : Option Nat
  posted : List ConnectAck
  called : List Nat
  registered : Nat
  due : Nat
  badFunctionCall : Bool

def waitReadyAsync (w : World) : World :=
  match w.dispatcher with
  | some d =>
    let r := d.waitConnectedAsync (.ack w.registered)
    { w with dispatcher := some r.1, posted := w.posted ++ r.2, registered := w.registered + 1 }
  | none => { w with readyAck := some w.registered, registered := w.registered + 1 }

def serviceStateChanged (w : World) : World :=
  let dispatcher : Dispatcher := ⟨false, []⟩
  match w.readyAck with
  | some _ =>
    let r := dispatcher.waitConnectedAsync .slot
    { w with dispatcher := some r.1, posted := w.posted ++ r.2 }
  | none => { w with dispatcher := some dispatcher }

/-- The ack `n` is called. The client waits from inside it `react n` times, for other namespaces. -/
def callAck (react : Nat → Nat) (w : World) (n : Nat) : World :=
  Nat.repeat waitReadyAsync (react n) { w with called := w.called ++ [n] }

/-- A function that was given to `waitConnectedAsync` is called. An empty `std::function` throws. -/
def call (react : Nat → Nat) (w : World) : ConnectAck → World
  | .ack n => callAck react w n
  | .slot =>
    match w.readyAck with
    | some n => { callAck react w n with readyAck := none }
    | none => { w with badFunctionCall := true }

/-- The dispatcher gets connected. -/
def setConnected (react : Nat → Nat) (w : World) (d : Dispatcher) : World :=
  d.acks.foldl (call react) { w with dispatcher := some ⟨true, []⟩ }

inductive Event where
  | waitReadyAsync
  /-- Discovery reports a database. -/
  | serviceStateChanged
  /-- The installed dispatcher gets connected, or disconnected. -/
  | connected (react : Nat → Nat)
  | disconnected
  /-- The engine calls the posted function `i`. -/
  | posted (i : Nat) (react : Nat → Nat)

/-- Whether the installed dispatcher is connected. -/
def World.isConnected (w : World) : Bool := w.dispatcher.any Dispatcher.connected

/-- What is registered while the dispatcher is connected is due. -/
def World.note (w : World) : World := if w.isConnected then { w with due := w.registered } else w

def step (w : World) : Event → Option World
  | .waitReadyAsync => some (waitReadyAsync w)
  | .serviceStateChanged => some (serviceStateChanged w)
  | .connected react => w.dispatcher.bind fun d => if d.connected then none
    else some (setConnected react w d)
  | .disconnected => w.dispatcher.bind fun d =>
    if d.connected then some { w with dispatcher := some { d with connected := false } } else none
  | .posted i react => (w.posted[i]?).map fun k => call react
    { w with posted := w.posted.eraseIdx i } k

/-- The storage before discovery. -/
def sys : Sys World Event where
  init := ⟨none, none, [], [], 0, 0, false⟩
  step w e := (step w e).map World.note

/-- The functions that wait in the dispatcher. -/
def World.waiting (w : World) : List ConnectAck := (w.dispatcher.map Dispatcher.acks).getD []

/-- The ack that a function calls directly. -/
def ConnectAck.direct : ConnectAck → Option Nat
  | .ack n => some n
  | .slot => none

/-- Before discovery an ack is registered only if no other one waits for it; discovery replaces a
dispatcher only if no ack waits in it directly. -/
def Undisturbed (w : World) : Event → Prop
  | .waitReadyAsync => w.dispatcher.isNone → w.readyAck = none
  | .serviceStateChanged => w.waiting.filterMap ConnectAck.direct = []
  | _ => True

instance (w : World) (e : Event) : Decidable (Undisturbed w e) :=
  match e with
  | .waitReadyAsync => inferInstanceAs (Decidable (_ → _))
  | .serviceStateChanged => inferInstanceAs (Decidable (_ = _))
  | .connected _ | .disconnected | .posted _ _ => inferInstanceAs (Decidable True)

/-! ## The invariant

An ack has been called, or is in one of three places: a function that waits in the dispatcher or is
posted, or the slot. While a function is being called, `l` are the functions that are still to be
called in the same step, that one included. -/

structure Inv (l : List ConnectAck) (w : World) : Prop where
  tokens : ∀ n, w.called.count n + ((l ++ w.waiting ++
    w.posted).filterMap ConnectAck.direct).count n +
    w.readyAck.toList.count n = if n < w.registered then 1 else 0
  slot : w.dispatcher.isSome → (l ++ w.waiting).count .slot = w.readyAck.toList.length
  posted : .slot ∉ w.posted
  undiscovered : w.dispatcher = none → l = [] ∧ w.posted = []
  idle : ∀ d, w.dispatcher = some d → d.connected = true → d.acks = []
  waits : ∀ n, .ack n ∈ w.waiting ∨ w.readyAck = some n → w.due ≤ n
  due : w.due ≤ w.registered
  good : w.badFunctionCall = false

theorem inv_init : Inv [] sys.init :=
  ⟨fun n => (by simp [sys, World.waiting]), fun h => (by cases h), fun h => (by cases h),
    fun _ => ⟨rfl, rfl⟩, fun d h => (by cases h), fun n h => (by simp [sys, World.waiting] at h),
    Nat.le_refl _, rfl⟩

section Calls

variable {l : List ConnectAck} {w : World}

theorem Inv.waitReadyAsync (h : Inv l w) (hw : w.dispatcher.isNone → w.readyAck = none) :
    Inv l (waitReadyAsync w) := by
  have hnew : ∀ n, (if n < w.registered then 1 else 0) + [w.registered].count n =
      if n < w.registered + 1 then 1 else 0 := by
    intro n
    rw [List.count_singleton]
    exact count_issued w.registered n
  unfold Ready.waitReadyAsync
  cases hd : w.dispatcher with
  | none =>
    obtain ⟨rfl, hp⟩ := h.undiscovered hd
    have hr := hw (by rw [hd]; rfl)
    refine ⟨fun n => ?_, fun hs => (by cases hs), h.posted, fun _ => ⟨rfl, hp⟩,
      fun d hx => (by cases hx), fun n hn => ?_, Nat.le_succ_of_le h.due, h.good⟩
    · have ht := h.tokens n
      have hn := hnew n
      simp only [World.waiting, hd, hp, hr, Option.map_none, Option.getD_none, List.append_nil,
        List.filterMap_nil, List.count_nil, Option.toList_none, Option.toList_some] at ht ⊢
      omega
    · rcases hn with hn | hn
      · simp [World.waiting] at hn
      · cases hn; exact h.due
  | some d =>
    have hslot := h.slot (by rw [hd]; rfl)
    have hwait : w.waiting = d.acks := by rw [World.waiting, hd]; rfl
    have hdirect : [ConnectAck.ack w.registered].filterMap ConnectAck.direct = [w.registered] := rfl
    unfold Dispatcher.waitConnectedAsync
    by_cases hc : d.connected = true
    · -- The function is posted.
      simp only [hc, if_true]
      refine ⟨fun n => ?_, fun _ => ?_, fun hm => ?_, fun hx => (by cases hx),
        fun x hx _ => (by cases hx; exact h.idle d hd hc), fun n hn => ?_,
        Nat.le_succ_of_le h.due, h.good⟩
      · have ht := h.tokens n
        have hn := hnew n
        rw [hwait] at ht
        show w.called.count n + ((l ++ d.acks ++
          (w.posted ++ [ConnectAck.ack w.registered])).filterMap
          ConnectAck.direct).count n + w.readyAck.toList.count n = if n < w.registered + 1 then 1
            else 0
        rw [← List.append_assoc, List.filterMap_append, hdirect, List.count_append]
        omega
      · rw [hwait] at hslot; exact hslot
      · rcases List.mem_append.mp hm with hm | hm
        · exact h.posted hm
        · cases List.mem_singleton.mp hm
      · refine h.waits n (hn.imp_left fun hn => ?_)
        rw [hwait]; exact hn
    · -- The function waits.
      rw [Bool.not_eq_true] at hc
      simp only [hc, Bool.false_eq_true, if_false, List.append_nil]
      refine ⟨fun n => ?_, fun _ => ?_, h.posted, fun hx => (by cases hx),
        fun x hx hx' => (by cases hx; cases hx'), fun n hn => ?_, Nat.le_succ_of_le h.due, h.good⟩
      · have ht := h.tokens n
        have hn := hnew n
        rw [hwait] at ht
        show w.called.count n + ((l ++ (d.acks ++ [ConnectAck.ack w.registered]) ++
          w.posted).filterMap
          ConnectAck.direct).count n + w.readyAck.toList.count n = if n < w.registered + 1 then 1
            else 0
        simp only [List.filterMap_append, List.count_append, hdirect] at ht ⊢
        omega
      · rw [hwait] at hslot
        show (l ++ (d.acks ++ [ConnectAck.ack w.registered])).count ConnectAck.slot = _
        rw [← List.append_assoc, List.count_append, hslot]
        rfl
      · rcases hn with hn | hn
        · rcases List.mem_append.mp hn with hn | hn
          · exact h.waits n (.inl (by rw [hwait]; exact hn))
          · cases List.mem_singleton.mp hn; exact h.due
        · exact h.waits n (.inr hn)

theorem isSome_waitReadyAsync (w : World) :
    (waitReadyAsync w).dispatcher.isSome = w.dispatcher.isSome := by
  unfold waitReadyAsync
  split <;> simp [*]

/-- The waits from inside an ack, when discovery has installed a dispatcher. -/
theorem Inv.waits_repeat (h : Inv l w) (hd : w.dispatcher.isSome = true) (k : Nat) :
    Inv l (Nat.repeat Ready.waitReadyAsync k w) ∧
      (Nat.repeat Ready.waitReadyAsync k w).dispatcher.isSome = true := by
  induction k with
  | zero => exact ⟨h, hd⟩
  | succ k ih =>
    refine ⟨ih.1.waitReadyAsync fun hn => ?_, ?_⟩
    · rw [Option.isNone_iff_eq_none] at hn
      rw [hn] at ih
      cases ih.2
    · rw [Nat.repeat, isSome_waitReadyAsync]; exact ih.2

/-- Where there is a dispatcher, `waitReadyAsync` does not use the slot. -/
theorem waitReadyAsync_clear (hd : w.dispatcher.isSome = true) :
    { waitReadyAsync w with readyAck := none } = waitReadyAsync { w with readyAck := none } := by
  obtain ⟨d, hd⟩ := Option.isSome_iff_exists.mp hd
  unfold waitReadyAsync
  simp only [hd]

theorem repeat_clear (hd : w.dispatcher.isSome = true) (k : Nat) :
    { Nat.repeat waitReadyAsync k w with readyAck := none } =
      Nat.repeat waitReadyAsync k { w with readyAck := none } := by
  have hsome : ∀ k, (Nat.repeat waitReadyAsync k w).dispatcher.isSome = true := by
    intro k
    induction k with
    | zero => exact hd
    | succ k ih => rw [Nat.repeat, isSome_waitReadyAsync]; exact ih
  induction k with
  | zero => rfl
  | succ k ih =>
    rw [Nat.repeat, Nat.repeat, ← ih]
    exact waitReadyAsync_clear (hsome k)

/-- A function that is called takes its ack with it. -/
theorem Inv.call {react : Nat → Nat} {k : ConnectAck} (h : Inv (k :: l) w) :
    Inv l (call react w k) ∧ (call react w k).dispatcher.isSome = true := by
  have hd : w.dispatcher.isSome = true := by
    cases hn : w.dispatcher with
    | none => cases (h.undiscovered hn).1
    | some d => rfl
  have hslot := h.slot hd
  cases k with
  | ack n =>
    refine Inv.waits_repeat (w := { w with called := w.called ++ [n] }) ?_ hd _
    refine ⟨fun m => ?_, fun _ => ?_, h.posted, fun hx => ?_, h.idle, h.waits, h.due, h.good⟩
    · have ht := h.tokens m
      show (w.called ++ [n]).count m + ((l ++ w.waiting ++
        w.posted).filterMap ConnectAck.direct).count m +
        w.readyAck.toList.count m = if m < w.registered then 1 else 0
      rw [List.cons_append, List.cons_append, List.filterMap_cons] at ht
      simp only [ConnectAck.direct, List.count_cons] at ht
      rw [List.count_append, List.count_singleton]
      omega
    · rw [List.cons_append, List.count_cons_of_ne (by simp)] at hslot
      exact hslot
    · have hx : w.dispatcher = none := hx
      rw [hx] at hd; cases hd
  | slot =>
    rw [List.cons_append, List.count_cons_self] at hslot
    cases hr : w.readyAck with
    | none => rw [hr] at hslot; cases hslot
    | some n =>
      have hcall : Ready.call react w .slot = Nat.repeat Ready.waitReadyAsync (react n)
          { w with called := w.called ++ [n], readyAck := none } := by
        simp only [Ready.call, hr]
        exact repeat_clear (w := { w with called := w.called ++ [n] }) hd _
      rw [hcall]
      rw [hr] at hslot
      refine Inv.waits_repeat (w := { w with called := w.called ++ [n], readyAck := none }) ?_ hd _
      refine ⟨fun m => ?_, fun _ => Nat.succ.inj hslot, h.posted, fun hx => ?_, h.idle,
        fun m hm => ?_, h.due, h.good⟩
      · have ht := h.tokens m
        show (w.called ++ [n]).count m + ((l ++ w.waiting ++
          w.posted).filterMap ConnectAck.direct).count m +
          (none : Option Nat).toList.count m = if m < w.registered then 1 else 0
        rw [List.cons_append, List.cons_append, List.filterMap_cons] at ht
        simp only [ConnectAck.direct, hr, Option.toList_some] at ht
        rw [List.count_append, Option.toList_none, List.count_nil]
        omega
      · have hx : w.dispatcher = none := hx
        rw [hx] at hd; cases hd
      · rcases hm with hm | hm
        · exact h.waits m (.inl hm)
        · cases hm

theorem Inv.calls {react : Nat → Nat} (h : Inv l w) : Inv [] (l.foldl (Ready.call react) w) := by
  induction l generalizing w with
  | nil => exact h
  | cons k l ih => exact ih h.call.1

end Calls

/-! ## The steps -/

theorem Inv.serviceStateChanged {w : World} (h : Inv [] w)
    (hu : w.waiting.filterMap ConnectAck.direct = []) : Inv [] (serviceStateChanged w) := by
  have ht : ∀ n, w.called.count n + (w.posted.filterMap ConnectAck.direct).count n +
      w.readyAck.toList.count n = if n < w.registered then 1 else 0 := by
    intro n
    have ht := h.tokens n
    rw [List.nil_append, List.filterMap_append, hu] at ht
    exact ht
  unfold Ready.serviceStateChanged
  cases hr : w.readyAck with
  | none =>
    rw [hr] at ht
    refine ⟨ht, fun _ => rfl, h.posted, fun hx => (by cases hx), fun d hd _ => (by cases hd; rfl),
      fun n hn => ?_, h.due, h.good⟩
    rcases hn with hn | hn <;> cases hn
  | some m =>
    rw [hr] at ht
    refine ⟨fun n => ?_, fun _ => ?_, ?_, fun hx => (by cases hx),
      fun d hd hc => (by cases hd; cases hc), fun n hn => ?_, h.due, h.good⟩
    · show w.called.count n + ((.slot :: (w.posted ++ [])).filterMap ConnectAck.direct).count n +
        (some m).toList.count n = if n < w.registered then 1 else 0
      rw [List.append_nil]
      exact ht n
    · simp [World.waiting, Dispatcher.waitConnectedAsync]
    · simpa [Dispatcher.waitConnectedAsync] using h.posted
    · refine h.waits n (.inr ?_)
      simpa [World.waiting, Dispatcher.waitConnectedAsync, hr] using hn

theorem Inv.posted_step {w : World} (h : Inv [] w) {i : Nat} {k : ConnectAck}
    (hk : w.posted[i]? = some k) :
    Inv [k] { w with posted := w.posted.eraseIdx i } := by
  have hmem := List.mem_of_getElem? hk
  have hne : k ≠ .slot := fun e => h.posted (e ▸ hmem)
  refine ⟨fun n => ?_, fun hd => ?_, fun hm => h.posted (List.mem_of_mem_eraseIdx hm),
    fun hx => ?_, h.idle, h.waits, h.due, h.good⟩
  · have ht := h.tokens n
    have hcount := count_taken hk ConnectAck.direct n
    have hone : [k].filterMap ConnectAck.direct = k.direct.toList := by cases k <;> rfl
    show w.called.count n + (([k] ++ w.waiting ++
      w.posted.eraseIdx i).filterMap ConnectAck.direct).count n +
      w.readyAck.toList.count n = if n < w.registered then 1 else 0
    simp only [List.nil_append, List.filterMap_append, List.count_append, hone] at ht ⊢
    omega
  · have hs := h.slot hd
    show ([k] ++ w.waiting).count .slot = _
    rw [List.singleton_append, List.count_cons_of_ne hne]
    exact hs
  · have hx : w.dispatcher = none := hx
    rw [(h.undiscovered hx).2] at hmem
    cases hmem

theorem World.isConnected_iff (w : World) :
    w.isConnected = true ↔ ∃ d, w.dispatcher = some d ∧ d.connected = true := by
  unfold World.isConnected
  cases w.dispatcher <;> simp

/-- Nothing waits when the dispatcher is connected. -/
theorem Inv.waiting_nil {w : World} (h : Inv [] w) (hc : w.isConnected = true) :
    w.waiting = [] ∧ w.readyAck = none := by
  obtain ⟨d, hd, hc⟩ := w.isConnected_iff.mp hc
  have hwait : w.waiting = [] := by rw [World.waiting, hd]; exact h.idle d hd hc
  have hslot := h.slot (by rw [hd]; rfl)
  rw [hwait] at hslot
  refine ⟨hwait, ?_⟩
  cases hr : w.readyAck with
  | none => rfl
  | some n => rw [hr] at hslot; cases hslot

theorem Inv.note {w : World} (h : Inv [] w) : Inv [] w.note := by
  unfold World.note
  split
  · rename_i hc
    obtain ⟨hwait, hr⟩ := h.waiting_nil hc
    refine ⟨h.tokens, h.slot, h.posted, h.undiscovered, h.idle, fun n hn => ?_,
      Nat.le_refl _, h.good⟩
    rcases hn with hn | hn
    · have hn : ConnectAck.ack n ∈ w.waiting := hn
      rw [hwait] at hn; cases hn
    · have hn : w.readyAck = some n := hn
      rw [hr] at hn; cases hn
  · exact h

theorem Inv.step {w w' : World} {e : Event} (h : Inv [] w) (hu : Undisturbed w e)
    (hs : step w e = some w') :
    Inv [] w' := by
  cases e with
  | waitReadyAsync => cases hs; exact h.waitReadyAsync hu
  | serviceStateChanged => cases hs; exact h.serviceStateChanged hu
  | posted i react =>
    obtain ⟨k, hk, rfl⟩ := Option.map_eq_some_iff.mp hs
    exact (h.posted_step hk).call.1
  | connected react =>
    obtain ⟨d, hd, hs⟩ := Option.bind_eq_some_iff.mp hs
    split at hs
    · cases hs
    · cases hs
      have hwait : w.waiting = d.acks := by rw [World.waiting, hd]; rfl
      refine Inv.calls ⟨fun n => ?_, fun _ => ?_, h.posted, fun hx => (by cases hx),
        fun x hx _ => (by cases hx; rfl), fun n hn => ?_, h.due, h.good⟩
      · have ht := h.tokens n
        rw [List.nil_append, hwait] at ht
        show w.called.count n + ((d.acks ++ [] ++ w.posted).filterMap ConnectAck.direct).count n +
          _ = _
        rw [List.append_nil]
        exact ht
      · have hslot := h.slot (by rw [hd]; rfl)
        rw [List.nil_append, hwait] at hslot
        show (d.acks ++ []).count ConnectAck.slot = _
        rw [List.append_nil]
        exact hslot
      · exact h.waits n (.inr (hn.resolve_left fun hn => by cases hn))
  | disconnected =>
    obtain ⟨d, hd, hs⟩ := Option.bind_eq_some_iff.mp hs
    split at hs
    · cases hs
      have hwait : World.waiting { w with dispatcher := some { d with connected := false } } =
        w.waiting := by
        rw [World.waiting, World.waiting, hd]; rfl
      refine ⟨fun n => ?_, fun _ => ?_, h.posted, fun hx => (by cases hx),
        fun x hx hc => (by cases hx; cases hc), fun n hn => ?_, h.due, h.good⟩
      · rw [hwait]; exact h.tokens n
      · rw [hwait]; exact h.slot (by rw [hd]; rfl)
      · rw [hwait] at hn; exact h.waits n hn
    · cases hs

/-! ## The result -/

/-- Every ack that is due has been called once when no posted function is left, and no ack is ever
called twice. -/
def World.Once (w : World) : Prop :=
  (∀ n, w.called.count n ≤ 1) ∧ (w.posted = [] → ∀ n < w.due, w.called.count n = 1)

/-- **Readiness acks.** In every run in which no ack is put into the occupied slot and no dispatcher
is replaced in which an ack waits directly, no ack is called twice, every ack that was registered
before or while the installed dispatcher was connected has been called exactly once when all posted
callbacks have run, and no empty function is called. While the dispatcher is connected these are all
the acks. -/
theorem readyAck_once (w : World) (h : sys.Reach Undisturbed w) :
    w.Once ∧ (w.isConnected = true → w.due = w.registered) ∧ w.badFunctionCall = false := by
  have hi : Inv [] w ∧ (w.isConnected = true → w.due = w.registered) := by
    refine h.invariant (I := fun w => Inv [] w ∧ (w.isConnected = true → w.due = w.registered))
      ⟨inv_init, fun hc => by cases hc⟩ fun w e w' hi hu hs => ?_
    obtain ⟨v, hv, rfl⟩ := Option.map_eq_some_iff.mp hs
    refine ⟨(hi.1.step hu hv).note, ?_⟩
    unfold World.note
    split
    · exact fun _ => rfl
    · rename_i hc
      exact fun hc' => absurd hc' hc
  obtain ⟨hi, hdue⟩ := hi
  refine ⟨⟨fun n => ?_, fun hp n hn => ?_⟩, hdue, hi.good⟩
  · have ht := hi.tokens n
    split at ht <;> omega
  · -- An ack that is due is neither in the dispatcher nor in the slot.
    have ht := hi.tokens n
    have hwait : (w.waiting.filterMap ConnectAck.direct).count n = 0 := by
      rw [List.count_eq_zero, List.mem_filterMap]
      rintro ⟨k, hk, hkn⟩
      cases k with
      | ack m => cases hkn; exact Nat.not_lt.mpr (hi.waits n (.inl hk)) hn
      | slot => cases hkn
    have hslot : w.readyAck.toList.count n = 0 := by
      rw [List.count_eq_zero, Option.mem_toList]
      exact fun hr => Nat.not_lt.mpr (hi.waits n (.inr hr)) hn
    rw [hp, List.nil_append, List.append_nil, hwait, hslot,
      if_pos (Nat.lt_of_lt_of_le hn hi.due)] at ht
    exact ht

/-- A wait before discovery, discovery twice, the connection, and a wait from inside the ack. -/
theorem readyAck_once_discovered :
    ∃ w, sys.Reach Undisturbed w ∧ w.Once ∧ w.posted = [] ∧ w.due = 2 ∧ w.called = [0, 1] := by
  have h : sys.Reach Undisturbed _ :=
    Sys.reach_run [.waitReadyAsync, .serviceStateChanged, .serviceStateChanged,
      .connected fun n => if n = 0 then 1 else 0, .posted 0 fun _ => 0] rfl
  exact ⟨_, h, (readyAck_once _ h).1, rfl, rfl, rfl⟩

/-- Two clients wait for their namespaces before discovery. The ack of the second one replaces that
of the first one in the slot. -/
theorem readyAck_lost : ¬ ∀ w, sys.Reach Sys.always w → w.Once := by
  intro h
  have hr : sys.Reach Sys.always _ :=
    Sys.reach_run [.waitReadyAsync, .waitReadyAsync, .serviceStateChanged,
      .connected fun _ => 0] rfl
  have hlost := (h _ hr).2 rfl 0
  revert hlost
  decide

end Ready
end Async
end Sdl
