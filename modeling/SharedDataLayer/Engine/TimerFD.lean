import Mathlib.Algebra.Group.Nat.Defs
import Mathlib.Data.List.Sort
import Mathlib.Data.List.Perm.Basic
import SharedDataLayer.Spec.Sys

/-!
# The timers of the engine (`src/timerfd.cpp`, `src/timer.cpp`)

The timers of one `TimerFD` are kept in a multimap by their deadlines, and the kernel timer is
programmed to the first one. Time is in nanoseconds. The clock is the clock of the kernel timer
and advances at any time, also inside of callbacks. An expiry of the kernel timer is pending from
its deadline until it is read; `timerfd_settime` discards it.

A `Timer::Duration` is a signed 64-bit number, and `toAbsolute` adds two of them. If the sum is
too large, the behaviour is undefined, and the model follows the program no further.

An iterator of the multimap is the number of the arm that inserted its entry. What a callback does
is any list of operations on timers: `script k` is that of the `k`-th callback that a call of
`handleEvents` runs. A timer that was destroyed is not used any more.

The history `log` has the calls of the operations, also those inside of callbacks, and the
callbacks. It is written where they are called and nothing of the program reads it.

* `waits_concat`: what is waited for after one more thing that has happened.
* `Inv.arm`, `Inv.disarm`, `Inv.destroy`: what an operation keeps; `mem_arm`, `mem_disarm`: what it
  does to the queue.
* `handleExpiredTimers_spec`: what the loop does.
* `timerQueue_correct`: the queue, the kernel timer and the callbacks in every run.
-/

namespace Sdl
namespace TimerFD

open Spec

/-- An entry of the queue. The callback is that of the arm `id`. -/
structure Entry where
  deadline : Nat
  timer : Nat
  id : Nat
  deriving DecidableEq

structure Timer where
  alive : Bool
  armed : Bool
  iterator : Nat

/-- The kernel timer: its deadline, and whether the expiry was read. -/
structure Kernel where
  deadline : Nat
  read : Bool
  deriving DecidableEq

/-- A positive `Timer::Duration`. -/
abbrev Duration := { d : Nat // 0 < d ∧ d < 2 ^ 63 }

/-- What has happened to a timer, and when. -/
inductive Happened where
  | arm (timer time : Nat) (duration : Duration)
  | disarm (timer : Nat)
  | destroy (timer : Nat)
  | callback (entry : Entry) (time : Nat)

structure World where
  now : Nat
  /-- In the order of an iteration. -/
  queue : List Entry
  timers : Nat → Timer
  /-- `none` is a disarmed timer. -/
  kernel : Option Kernel
  /-- The number of the next arm. -/
  nextId : Nat
  log : List Happened
  /-- The first entry of an empty queue was popped, an iterator without an entry was erased, a
  callback of a destroyed timer was run, or a deadline was too large. -/
  undefined : Bool

/-- An operation on timers, or the time that passes. -/
inductive Op where
  | arm (timer : Nat) (duration : Duration)
  | disarm (timer : Nat)
  | destroy (timer : Nat)
  | tick (dt : Nat)

namespace World

/-! ## The kernel timer -/

def setTimeForTimerFD (w : World) (seconds nanoseconds : Nat) : World :=
  { w with kernel :=
      if seconds = 0 ∧ nanoseconds = 0 then none
      else some ⟨seconds * 1000000000 + nanoseconds, false⟩ }

def disarmTimerFD (w : World) : World := w.setTimeForTimerFD 0 0

def armTimerFD (w : World) (duration : Nat) : World :=
  w.setTimeForTimerFD (duration / 1000000000) (duration % 1000000000)

/-- `timerExpired`: whether there is an expiry to read. -/
def timerExpired (w : World) : Bool :=
  match w.kernel with
  | some k => !k.read && k.deadline ≤ w.now
  | none => false

/-- The read of the expiry. -/
def readTimerFD (w : World) : World :=
  { w with kernel := w.kernel.map fun k => { k with read := true } }

/-! ## The queue -/

def isFirst (w : World) (it : Nat) : Bool := w.queue.head?.map Entry.id = some it

/-- `queue.erase(it)`. -/
def erase (w : World) (it : Nat) : World :=
  { w with queue := w.queue.eraseP (fun e => e.id = it)
           undefined := w.undefined || !w.queue.any (fun e => e.id = it) }

/-- `none` if the sum overflows. -/
def toAbsolute (w : World) (duration : Duration) : Option Nat :=
  if w.now + duration < 2 ^ 63 then some (w.now + duration) else none

/-- `queue.insert`, and the iterator of the timer. A multimap inserts after the entries with the
same key. -/
def insert (w : World) (absolute timer : Nat) : World :=
  { w with queue := w.queue.orderedInsert (fun a b => a.deadline < b.deadline)
             ⟨absolute, timer, w.nextId⟩
           nextId := w.nextId + 1
           timers := Function.update w.timers timer
             { w.timers timer with iterator := w.nextId } }

/-- `TimerFD::arm`. -/
def armTimer (w : World) (timer : Nat) (duration : Duration) : World :=
  match w.toAbsolute duration with
  | none => { w with undefined := true }
  | some absolute =>
    let i := w.nextId
    let w := w.insert absolute timer
    if w.isFirst i then w.armTimerFD absolute else w

/-- `TimerFD::disarm`. -/
def disarmTimer (w : World) (timer : Nat) : World :=
  let wasFirst := w.isFirst (w.timers timer).iterator
  let w := w.erase (w.timers timer).iterator
  match w.queue with
  | [] => w.disarmTimerFD
  | first :: _ => if wasFirst then w.armTimerFD first.deadline else w

def setArmed (w : World) (timer : Nat) (armed : Bool) : World :=
  { w with timers := Function.update w.timers timer { w.timers timer with armed := armed } }

/-- `Timer::disarm`. -/
def disarm (w : World) (timer : Nat) : World :=
  if (w.timers timer).armed then (w.disarmTimer timer).setArmed timer false else w

/-- `Timer::arm`. -/
def arm (w : World) (timer : Nat) (duration : Duration) : World :=
  ((w.disarm timer).armTimer timer duration).setArmed timer true

/-- `Timer::~Timer`. -/
def destroy (w : World) (timer : Nat) : World :=
  let w := w.disarm timer
  { w with timers := Function.update w.timers timer { w.timers timer with alive := false } }

def record (w : World) (x : Happened) : World := { w with log := w.log ++ [x] }

/-- An operation, if the timer exists. -/
def op (w : World) (o : Op) : World :=
  if w.undefined then w else
  match o with
  | .arm timer duration =>
    if (w.timers timer).alive then (w.record (.arm timer w.now duration)).arm timer duration else w
  | .disarm timer => if (w.timers timer).alive then (w.record (.disarm timer)).disarm timer else w
  | .destroy timer =>
    if (w.timers timer).alive then (w.record (.destroy timer)).destroy timer else w
  | .tick dt => { w with now := w.now + dt }

/-! ## The expiry -/

/-- The callback marks its timer as not armed, and does `ops`. -/
def popAndExecuteFirstTimer (w : World) (ops : List Op) : World :=
  match w.queue with
  | [] => { w with undefined := true }
  | e :: queue =>
    let w : World := { w with queue := queue, log := w.log ++ [.callback e w.now]
                              undefined := w.undefined || !(w.timers e.timer).alive }
    ops.foldl op (w.setArmed e.timer false)

/-- The loop of `handleExpiredTimers`, from its `k`-th iteration on. `none` if `fuel` iterations do
not end it. -/
def expiredLoop (now : Nat) (script : Nat → List Op) : Nat → Nat → World → Option World
  | 0, _, _ => none
  | fuel + 1, k, w =>
    let w := w.popAndExecuteFirstTimer (script k)
    if w.undefined then some w else
    match w.queue with
    | [] => some w.disarmTimerFD
    | first :: _ =>
      if first.deadline ≤ now then expiredLoop now script fuel (k + 1) w
      else some (w.armTimerFD first.deadline)

/-- One iteration for each entry of the queue is enough. -/
def handleExpiredTimers (w : World) (script : Nat → List Op) : Option World :=
  expiredLoop w.now script (w.queue.length + 1) 0 w

/-- `handleEvents`. The time `dt` passes between the read and the loop. -/
def handleEvents (w : World) (dt : Nat) (script : Nat → List Op) : Option World :=
  if w.undefined then some w
  else if w.timerExpired then
    ({ w.readTimerFD with now := w.now + dt } : World).handleExpiredTimers script
  else some w

end World

/-- An operation outside of callbacks, or a call of `handleEvents`, with or without an expiry. -/
inductive Event where
  | op (o : Op)
  | handleEvents (dt : Nat) (script : Nat → List Op)

def sys (now : Nat) : Sys World Event where
  init := ⟨now, [], fun _ => ⟨true, false, 0⟩, none, 0, [], false⟩
  step w
    | .op o => some (w.op o)
    | .handleEvents dt script => w.handleEvents dt script

/-! ## What is expected -/

namespace Happened

def timer : Happened → Nat
  | arm timer _ _ | disarm timer | destroy timer => timer
  | callback entry _ => entry.timer

def isArm : Happened → Bool
  | arm .. => true
  | _ => false

def callback? : Happened → Option Entry
  | callback entry _ => some entry
  | _ => none

/-- The deadline of an arm is a signed 64-bit number. -/
def InRange : Happened → Prop
  | arm _ time duration => time + duration < 2 ^ 63
  | _ => True

instance : (x : Happened) → Decidable x.InRange
  | arm _ time duration => inferInstanceAs (Decidable (time + duration.1 < 2 ^ 63))
  | disarm _ | destroy _ | callback .. => inferInstanceAs (Decidable True)

end Happened

/-- By deadline, and by the order of the arms for equal deadlines. -/
def Before (a b : Entry) : Prop := a.deadline < b.deadline ∨ a.deadline = b.deadline ∧ a.id < b.id

/-- `e` is that of an arm, and since then its timer was not armed again, not disarmed and not
destroyed, and its callback was not run. -/
def Waits (log : List Happened) (e : Entry) : Prop :=
  ∃ l₁ time, ∃ duration : Duration, ∃ l₂, log = l₁ ++ .arm e.timer time duration :: l₂ ∧
    e = ⟨time + duration, e.timer, l₁.countP Happened.isArm⟩ ∧ ∀ x ∈ l₂, x.timer ≠ e.timer

/-- The queue, the kernel timer and the callbacks that were run. -/
structure TimerQueue (w : World) : Prop where
  armed : ∀ t, w.queue.countP (·.timer = t) = if (w.timers t).armed then 1 else 0
  waiting : ∀ e, e ∈ w.queue ↔ Waits w.log e
  disarmed : w.kernel = none ↔ w.queue = []
  programmed : ∀ k, w.kernel = some k → k.read = false ∧
    (∃ e ∈ w.queue, e.deadline = k.deadline) ∧ ∀ e ∈ w.queue, k.deadline ≤ e.deadline
  callbacks : ∀ l₁ e time l₂, w.log = l₁ ++ .callback e time :: l₂ → Waits l₁ e ∧ e.deadline ≤ time
  defined : w.undefined = false

/-- The entries whose callbacks were run. -/
def World.ran (w : World) : List Entry := w.log.filterMap Happened.callback?

/-- A call of `handleEvents` returns, and has run callbacks in their order: all that are due, unless
a callback has armed a timer with a deadline that is too large. -/
def RunsInOrder (w : World) (dt : Nat) (script : Nat → List Op) : Prop :=
  ∃ w', w.handleEvents dt script = some w' ∧
    (∃ es, w'.ran = w.ran ++ es ∧ es.Pairwise Before) ∧
    (w.timerExpired = true → (∀ x ∈ w'.log, x.InRange) → ∀ e ∈ w'.queue, w.now + dt < e.deadline)

/-! ## The kernel timer -/

section Kernel

variable {w : World}

/-- The seconds and nanoseconds of a deadline are its time again. -/
theorem armTimerFD_kernel {d : Nat} (hd : 0 < d) : (w.armTimerFD d).kernel = some ⟨d, false⟩ := by
  have hsum : d / 1000000000 * 1000000000 + d % 1000000000 = d := by omega
  have hpos : ¬ (d / 1000000000 = 0 ∧ d % 1000000000 = 0) := by omega
  simp only [World.armTimerFD, World.setTimeForTimerFD, if_neg hpos, hsum]

theorem disarmTimerFD_kernel : w.disarmTimerFD.kernel = none := by
  simp [World.disarmTimerFD, World.setTimeForTimerFD]

/-- The kernel timer is programmed to the first deadline. -/
def Synced (w : World) : Prop := w.kernel = w.queue.head?.map fun e => ⟨e.deadline, false⟩

end Kernel

/-! ## The order of the queue -/

section Order

theorem Before.trans {a b c : Entry} (hab : Before a b) (hbc : Before b c) : Before a c := by
  unfold Before at *
  omega

theorem Before.ne {a b : Entry} (h : Before a b) : a ≠ b := by
  rintro rfl
  unfold Before at h
  omega

/-- A new entry comes after those with the same deadline. -/
theorem pairwise_insert {q : List Entry} {e : Entry} (hq : q.Pairwise Before)
    (hid : ∀ x ∈ q, x.id < e.id) :
    (q.orderedInsert (fun a b => a.deadline < b.deadline) e).Pairwise Before := by
  induction q with
  | nil => exact List.pairwise_singleton _ _
  | cons x q ih =>
    obtain ⟨hx, hq⟩ := List.pairwise_cons.mp hq
    rw [List.orderedInsert_cons]
    split
    · rename_i hlt
      refine List.pairwise_cons.mpr ⟨fun y hy => ?_, List.pairwise_cons.mpr ⟨hx, hq⟩⟩
      have hex : Before e x := .inl hlt
      rcases List.mem_cons.mp hy with rfl | hy
      · exact hex
      · exact hex.trans (hx y hy)
    · rename_i hge
      refine List.pairwise_cons.mpr ⟨fun y hy => ?_,
        ih hq fun y hy => hid y (List.mem_cons_of_mem _ hy)⟩
      rcases (List.mem_orderedInsert _).mp hy with rfl | hy
      · have := hid x List.mem_cons_self
        unfold Before
        omega
      · exact hx y hy

/-- The first entry after an insertion is the new one or the old first one. -/
theorem head_insert (q : List Entry) (e : Entry) :
    (q.orderedInsert (fun a b => a.deadline < b.deadline) e).head? = some e ∨
      ∃ x, q.head? = some x ∧
        (q.orderedInsert (fun a b => a.deadline < b.deadline) e).head? = some x := by
  cases q with
  | nil => exact .inl rfl
  | cons x q =>
    rw [List.orderedInsert_cons]
    split
    · exact .inl rfl
    · exact .inr ⟨x, rfl, rfl⟩

end Order

/-! ## The history -/

section History

variable {log : List Happened} {x : Happened}

/-- A history that ends with `x` is cut at its end or before. -/
theorem concat_eq {l₁ l₂ : List Happened} {c : Happened} (h : log ++ [x] = l₁ ++ c :: l₂) :
    (log = l₁ ∧ x = c ∧ l₂ = []) ∨ ∃ l, l₂ = l ++ [x] ∧ log = l₁ ++ c :: l := by
  rcases List.eq_nil_or_concat l₂ with rfl | ⟨l, y, rfl⟩
  · obtain ⟨rfl, hx⟩ := List.append_inj' h rfl
    exact .inl ⟨rfl, List.singleton_inj.mp hx, rfl⟩
  · rw [List.concat_eq_append] at h ⊢
    rw [← List.cons_append, ← List.append_assoc] at h
    obtain ⟨rfl, hx⟩ := List.append_inj' h rfl
    cases hx
    exact .inr ⟨l, rfl, rfl⟩

/-- An entry waits after one more thing has happened: it did before, and this is about another
timer, or this is its arm. -/
theorem waits_concat {e : Entry} : Waits (log ++ [x]) e ↔
    (Waits log e ∧ x.timer ≠ e.timer) ∨
      ∃ time, ∃ duration : Duration, x = .arm e.timer time duration ∧
        e = ⟨time + duration, e.timer, log.countP Happened.isArm⟩ := by
  constructor
  · rintro ⟨l₁, time, d, l₂, hlog, he, hl₂⟩
    rcases concat_eq hlog with ⟨rfl, hx, rfl⟩ | ⟨l, rfl, rfl⟩
    · exact .inr ⟨time, d, hx, he⟩
    · exact .inl ⟨⟨l₁, time, d, l, rfl, he, fun y hy => hl₂ y (List.mem_append_left _ hy)⟩,
        hl₂ x (List.mem_append_right _ (List.mem_singleton_self x))⟩
  · rintro (⟨⟨l₁, time, d, l₂, rfl, he, hl₂⟩, hx⟩ | ⟨time, d, rfl, he⟩)
    · refine ⟨l₁, time, d, l₂ ++ [x], by simp, he, fun y hy => ?_⟩
      rcases List.mem_append.mp hy with hy | hy
      · exact hl₂ y hy
      · exact List.mem_singleton.mp hy ▸ hx
    · exact ⟨log, time, d, [], rfl, he, fun y hy => absurd hy List.not_mem_nil⟩

/-- Every callback is one that was waited for, and its deadline has come. -/
def OnTime (log : List Happened) : Prop :=
  ∀ l₁ e time l₂, log = l₁ ++ .callback e time :: l₂ → Waits l₁ e ∧ e.deadline ≤ time

theorem OnTime.concat (h : OnTime log)
    (hx : ∀ e time, x = .callback e time → Waits log e ∧ e.deadline ≤ time) :
    OnTime (log ++ [x]) := by
  intro l₁ e time l₂ hlog
  rcases concat_eq hlog with ⟨rfl, hc, -⟩ | ⟨l, -, hl⟩
  · exact hx e time hc
  · exact h l₁ e time l hl

end History

/-! ## The invariant -/

/-- The timers of the entries are those that are armed. -/
structure Inv (w : World) : Prop where
  sorted : w.queue.Pairwise Before
  entries : ∀ e ∈ w.queue, (w.timers e.timer).armed = true ∧ (w.timers e.timer).alive = true ∧
    (w.timers e.timer).iterator = e.id
  armed : ∀ t, (w.timers t).armed = true → ∃ e ∈ w.queue, e.timer = t
  positive : ∀ e ∈ w.queue, 0 < e.deadline
  ids : ∀ a ∈ w.queue, ∀ b ∈ w.queue, a.id = b.id → a = b
  fresh : ∀ e ∈ w.queue, e.id < w.nextId
  defined : w.undefined = false

/-- The queue has the entries that the history waits for. -/
structure Logged (w : World) : Prop where
  arms : w.nextId = w.log.countP Happened.isArm
  waiting : ∀ e, e ∈ w.queue ↔ Waits w.log e
  onTime : OnTime w.log
  inRange : ∀ x ∈ w.log, x.InRange

/-- A deadline was too large. -/
structure Overflowed (w : World) : Prop where
  undefined : w.undefined = true
  arm : ∃ x ∈ w.log, ¬ x.InRange

namespace Inv

variable {w : World}

theorem nodup (h : Inv w) : w.queue.Nodup := h.sorted.imp Before.ne

/-- A timer has one entry at most. -/
theorem timer_inj (h : Inv w) {a b : Entry} (ha : a ∈ w.queue) (hb : b ∈ w.queue)
    (ht : a.timer = b.timer) : a = b := by
  have hid : a.id = b.id := by
    rw [← (h.entries a ha).2.2, ← (h.entries b hb).2.2, ht]
  exact h.ids a ha b hb hid

/-- The other entries are of other timers. -/
theorem others (h : Inv w) {l₁ l₂ : List Entry} {e : Entry} (hq : w.queue = l₁ ++ e :: l₂)
    {x : Entry} : x ∈ l₁ ++ l₂ ↔ x ∈ w.queue ∧ x.timer ≠ e.timer := by
  have hnodup : (e :: (l₁ ++ l₂)).Nodup := List.nodup_middle.mp (hq ▸ h.nodup)
  have hmem : ∀ y, y ∈ w.queue ↔ y = e ∨ y ∈ l₁ ++ l₂ := by
    intro y
    rw [hq, List.mem_append, List.mem_cons, List.mem_append]
    tauto
  constructor
  · intro hx
    refine ⟨(hmem x).mpr (.inr hx), fun hxe => ?_⟩
    rw [h.timer_inj ((hmem x).mpr (.inr hx)) ((hmem e).mpr (.inl rfl)) hxe] at hx
    exact (List.nodup_cons.mp hnodup).1 hx
  · rintro ⟨hx, hxe⟩
    rcases (hmem x).mp hx with rfl | hx
    · exact absurd rfl hxe
    · exact hx

/-- No deadline is before that of the first entry. -/
theorem first_le (h : Inv w) {e : Entry} {q : List Entry} (hq : w.queue = e :: q) {x : Entry}
    (hx : x ∈ w.queue) : e.deadline ≤ x.deadline := by
  rw [hq] at hx
  rcases List.mem_cons.mp hx with rfl | hx
  · exact Nat.le_refl _
  · have hbefore := (List.pairwise_cons.mp (hq ▸ h.sorted)).1 x hx
    unfold Before at hbefore
    omega

/-- No entry is of a timer that is not armed. -/
theorem unarmed (h : Inv w) {t : Nat} (ht : (w.timers t).armed = false) {x : Entry}
    (hx : x ∈ w.queue) : x.timer ≠ t := by
  intro hxt
  have harmed := (h.entries x hx).1
  rw [hxt, ht] at harmed
  cases harmed

/-- The kernel timer, the clock and the history are not in it. -/
theorem setTime (h : Inv w) (s n : Nat) : Inv (w.setTimeForTimerFD s n) :=
  ⟨h.sorted, h.entries, h.armed, h.positive, h.ids, h.fresh, h.defined⟩

theorem tick (h : Inv w) (dt : Nat) : Inv { w with now := w.now + dt } :=
  ⟨h.sorted, h.entries, h.armed, h.positive, h.ids, h.fresh, h.defined⟩

theorem read (h : Inv w) : Inv w.readTimerFD :=
  ⟨h.sorted, h.entries, h.armed, h.positive, h.ids, h.fresh, h.defined⟩

theorem record (h : Inv w) (x : Happened) : Inv (w.record x) :=
  ⟨h.sorted, h.entries, h.armed, h.positive, h.ids, h.fresh, h.defined⟩

/-- The entry of an armed timer is the one of its iterator. -/
theorem find (h : Inv w) {t : Nat} (ht : (w.timers t).armed = true) :
    ∃ l₁ e l₂, w.queue = l₁ ++ e :: l₂ ∧ e.timer = t ∧ e.id = (w.timers t).iterator ∧
      w.queue.eraseP (fun x => x.id = (w.timers t).iterator) = l₁ ++ l₂ := by
  obtain ⟨e, he, rfl⟩ := h.armed t ht
  have hid := (h.entries e he).2.2
  obtain ⟨e', l₁, l₂, hl₁, hid', hq, herase⟩ := @List.exists_of_eraseP _
    (fun x => decide (x.id = (w.timers e.timer).iterator)) _ _ he (by simpa using hid.symm)
  have hid' : e'.id = (w.timers e.timer).iterator := by simpa using hid'
  have he' : e' ∈ w.queue := by
    rw [hq]
    simp
  have heq : e' = e := h.ids e' he' e he (hid'.trans hid)
  exact ⟨l₁, e', l₂, hq, by rw [heq], hid', herase⟩

/-- A timer is armed exactly if it has an entry, and it has one then. -/
theorem countP (w : World) (h : Inv w) (t : Nat) :
    w.queue.countP (·.timer = t) = if (w.timers t).armed then 1 else 0 := by
  by_cases ht : (w.timers t).armed = true
  · obtain ⟨l₁, e, l₂, hq, het, -, -⟩ := h.find ht
    have hzero : (l₁ ++ l₂).countP (·.timer = t) = 0 :=
      List.countP_eq_zero.mpr fun x hx => by simpa [het] using ((h.others hq).mp hx).2
    rw [List.countP_append] at hzero
    rw [if_pos ht, hq, List.countP_append, List.countP_cons_of_pos (by simpa using het)]
    omega
  · rw [if_neg ht]
    refine List.countP_eq_zero.mpr fun x hx => ?_
    simpa using h.unarmed (by simpa using ht) hx

end Inv

/-! ## The operations -/

section Ops

variable {w : World}

theorem armTimer_eq (w : World) (t : Nat) (d : Duration) (hd : w.now + d < 2 ^ 63) :
    ∃ k, w.armTimer t d = { w.insert (w.now + d) t with kernel := k } := by
  unfold World.armTimer World.toAbsolute
  rw [if_pos hd]
  simp only
  split
  · exact ⟨_, rfl⟩
  · exact ⟨w.kernel, rfl⟩

theorem armTimer_undefined (w : World) (t : Nat) (d : Duration) (hd : ¬ w.now + d < 2 ^ 63) :
    w.armTimer t d = { w with undefined := true } := by
  unfold World.armTimer World.toAbsolute
  rw [if_neg hd]

theorem disarmTimer_eq (w : World) (t : Nat) :
    ∃ k, w.disarmTimer t = { w.erase (w.timers t).iterator with kernel := k } := by
  unfold World.disarmTimer
  simp only
  split
  · exact ⟨_, rfl⟩
  · split
    · exact ⟨_, rfl⟩
    · exact ⟨w.kernel, rfl⟩

/-- What `Timer::disarm` does not touch. -/
theorem disarm_frame (w : World) (t : Nat) : (w.disarm t).now = w.now ∧
    (w.disarm t).nextId = w.nextId ∧ (w.disarm t).log = w.log := by
  unfold World.disarm
  split
  · obtain ⟨k, hk⟩ := disarmTimer_eq w t
    rw [hk]
    exact ⟨rfl, rfl, rfl⟩
  · exact ⟨rfl, rfl, rfl⟩

/-- What a disarmed timer leaves. -/
theorem disarm_timers (w : World) (t : Nat) :
    ((w.disarm t).timers t).armed = false ∧
      ((w.disarm t).timers t).alive = (w.timers t).alive := by
  unfold World.disarm
  split
  · obtain ⟨k, hk⟩ := disarmTimer_eq w t
    rw [hk]
    simp [World.setArmed, World.erase]
  · rename_i ht
    exact ⟨by simpa using ht, rfl⟩

/-- The entry of the timer is gone, the others stay. -/
theorem mem_disarm (h : Inv w) (t : Nat) {x : Entry} :
    x ∈ (w.disarm t).queue ↔ x ∈ w.queue ∧ x.timer ≠ t := by
  unfold World.disarm
  split
  · rename_i ht
    obtain ⟨l₁, e, l₂, hq, het, -, herase⟩ := h.find ht
    obtain ⟨k, hk⟩ := disarmTimer_eq w t
    rw [hk]
    show x ∈ w.queue.eraseP _ ↔ _
    rw [herase, ← het]
    exact h.others hq
  · rename_i ht
    exact ⟨fun hx => ⟨hx, h.unarmed (by simpa using ht) hx⟩, fun hx => hx.1⟩

theorem disarm_sublist (w : World) (t : Nat) : (w.disarm t).queue.Sublist w.queue := by
  unfold World.disarm
  split
  · obtain ⟨k, hk⟩ := disarmTimer_eq w t
    rw [hk]
    exact List.eraseP_sublist
  · exact List.Sublist.refl _

theorem Inv.disarm (h : Inv w) (t : Nat) : Inv (w.disarm t) := by
  have hsub := disarm_sublist w t
  have hmem := @mem_disarm w h t
  have hother : ∀ s, s ≠ t → (w.disarm t).timers s = w.timers s := by
    intro s hs
    unfold World.disarm
    split
    · obtain ⟨k, hk⟩ := disarmTimer_eq w t
      rw [hk]
      simp [World.setArmed, World.erase, hs]
    · rfl
  constructor
  · exact h.sorted.sublist hsub
  · intro x hx
    rw [hother _ (hmem.mp hx).2]
    exact h.entries x (hsub.subset hx)
  · intro s hs
    have hst : s ≠ t := by
      rintro rfl
      rw [(disarm_timers w s).1] at hs
      cases hs
    rw [hother s hst] at hs
    obtain ⟨x, hx, rfl⟩ := h.armed s hs
    exact ⟨x, hmem.mpr ⟨hx, hst⟩, rfl⟩
  · exact fun x hx => h.positive x (hsub.subset hx)
  · exact fun a ha b hb => h.ids a (hsub.subset ha) b (hsub.subset hb)
  · rw [(disarm_frame w t).2.1]
    exact fun x hx => h.fresh x (hsub.subset hx)
  · unfold World.disarm
    split
    · rename_i ht
      obtain ⟨l₁, e, l₂, hq, -, hid, -⟩ := h.find ht
      obtain ⟨k, hk⟩ := disarmTimer_eq w t
      have hany : w.queue.any (fun x => x.id = (w.timers t).iterator) = true :=
        List.any_eq_true.mpr ⟨e, by rw [hq]; simp, by simpa using hid⟩
      rw [hk]
      simp [World.setArmed, World.erase, h.defined, hany]
    · exact h.defined

/-- The entry of the timer is the new one, the others stay. -/
theorem mem_arm (h : Inv w) {t : Nat} {d : Duration} (hd : w.now + d < 2 ^ 63) {x : Entry} :
    x ∈ (w.arm t d).queue ↔ x = ⟨w.now + d, t, w.nextId⟩ ∨ x ∈ w.queue ∧ x.timer ≠ t := by
  obtain ⟨hnow, hnext, -⟩ := disarm_frame w t
  obtain ⟨k, hk⟩ := armTimer_eq (w.disarm t) t d (hnow ▸ hd)
  unfold World.arm
  rw [hk, ← mem_disarm h t, ← hnow, ← hnext]
  exact List.mem_orderedInsert _

theorem Inv.arm (h : Inv w) {t : Nat} (halive : (w.timers t).alive = true) {d : Duration}
    (hd : w.now + d < 2 ^ 63) : Inv (w.arm t d) := by
  obtain ⟨hunarmed, halive'⟩ := disarm_timers w t
  obtain ⟨hnow, -⟩ := disarm_frame w t
  have h := h.disarm t
  unfold World.arm
  rw [halive] at halive'
  rw [← hnow] at hd
  generalize w.disarm t = v at h hunarmed halive' hd
  obtain ⟨k, hk⟩ := armTimer_eq v t d hd
  rw [hk]
  have hmem : ∀ x, x ∈ (v.insert (v.now + d) t).queue ↔
      x = ⟨v.now + d, t, v.nextId⟩ ∨ x ∈ v.queue := fun x => List.mem_orderedInsert _
  constructor
  · exact pairwise_insert h.sorted h.fresh
  · intro x hx
    rcases (hmem x).mp hx with rfl | hx
    · simp [World.setArmed, World.insert, halive']
    · simp only [World.setArmed, World.insert, Function.update_of_ne (h.unarmed hunarmed hx)]
      exact h.entries x hx
  · intro s hs
    by_cases hst : s = t
    · exact ⟨_, (hmem _).mpr (.inl rfl), hst.symm⟩
    · simp only [World.setArmed, World.insert, Function.update_of_ne hst] at hs
      obtain ⟨x, hx, hxs⟩ := h.armed s hs
      exact ⟨x, (hmem x).mpr (.inr hx), hxs⟩
  · intro x hx
    rcases (hmem x).mp hx with rfl | hx
    · exact Nat.add_pos_right _ d.2.1
    · exact h.positive x hx
  · intro a ha b hb hab
    rcases (hmem a).mp ha with rfl | ha <;> rcases (hmem b).mp hb with rfl | hb
    · rfl
    · exact absurd hab.symm (h.fresh b hb).ne
    · exact absurd hab (h.fresh a ha).ne
    · exact h.ids a ha b hb hab
  · intro x hx
    rcases (hmem x).mp hx with rfl | hx
    · exact Nat.lt_succ_self _
    · exact (h.fresh x hx).trans (Nat.lt_succ_self _)
  · exact h.defined

theorem Inv.destroy (h : Inv w) (t : Nat) : Inv (w.destroy t) := by
  have hunarmed := (disarm_timers w t).1
  have h := h.disarm t
  unfold World.destroy
  generalize w.disarm t = v at h hunarmed
  constructor
  · exact h.sorted
  · intro x hx
    simp only [Function.update_of_ne (h.unarmed hunarmed hx)]
    exact h.entries x hx
  · intro s hs
    by_cases hst : s = t
    · rw [hst] at hs
      simp [hunarmed] at hs
    · simp only [Function.update_of_ne hst] at hs
      exact h.armed s hs
  · exact h.positive
  · exact h.ids
  · exact h.fresh
  · exact h.defined

end Ops

/-! ## The kernel timer after an operation -/

section Sync

variable {w : World}

theorem disarmTimer_kernel (h : Inv w) (t : Nat) : (w.disarmTimer t).kernel =
    if w.isFirst (w.timers t).iterator ∨ (w.erase (w.timers t).iterator).queue = [] then
      (w.erase (w.timers t).iterator).queue.head?.map fun e => ⟨e.deadline, false⟩
    else w.kernel := by
  unfold World.disarmTimer
  simp only
  split
  · rename_i hq
    rw [if_pos (.inr hq), disarmTimerFD_kernel, hq]
    rfl
  · rename_i first rest hq
    have hpos : 0 < first.deadline := by
      refine h.positive first (@List.eraseP_subset _
        (fun e => decide (e.id = (w.timers t).iterator)) _ _ ?_)
      rw [show w.queue.eraseP (fun e => e.id = (w.timers t).iterator) = first :: rest from hq]
      exact List.mem_cons_self
    by_cases hfirst : w.isFirst (w.timers t).iterator = true
    · rw [if_pos hfirst, if_pos (.inl hfirst), armTimerFD_kernel hpos, hq]
      rfl
    · rw [if_neg hfirst, if_neg]
      · rfl
      · rw [hq]
        simpa using hfirst

theorem Synced.disarm (h : Inv w) (hs : Synced w) (t : Nat) : Synced (w.disarm t) := by
  unfold World.disarm
  split
  · have hkernel := disarmTimer_kernel h t
    obtain ⟨k, hk⟩ := disarmTimer_eq w t
    have hqueue : (w.disarmTimer t).queue = (w.erase (w.timers t).iterator).queue := by rw [hk]
    show (w.disarmTimer t).kernel = (w.disarmTimer t).queue.head?.map _
    rw [hkernel, hqueue]
    split
    · rfl
    · rename_i hkeep
      rw [not_or] at hkeep
      -- The first entry is another one, and stays.
      rw [hs]
      cases hq : w.queue with
      | nil => exact absurd (by simp [World.erase, hq]) hkeep.2
      | cons y q =>
        have hy : y.id ≠ (w.timers t).iterator := by
          intro hy
          exact hkeep.1 (by simp [World.isFirst, hq, hy])
        simp [World.erase, hq, List.eraseP_cons_of_neg, hy]
  · exact hs

theorem Synced.arm (h : Inv w) (hs : Synced w) (t : Nat) {d : Duration}
    (hd : w.now + d < 2 ^ 63) : Synced (w.arm t d) := by
  have hs := hs.disarm h t
  have h := h.disarm t
  obtain ⟨hnow, -⟩ := disarm_frame w t
  unfold World.arm
  rw [← hnow] at hd
  generalize w.disarm t = v at h hs hd
  show (v.armTimer t d).kernel = (v.armTimer t d).queue.head?.map _
  obtain ⟨k, hk⟩ := armTimer_eq v t d hd
  have hqueue : (v.armTimer t d).queue = (v.insert (v.now + d) t).queue := by rw [hk]
  have harm : v.armTimer t d = if (v.insert (v.now + d) t).isFirst v.nextId then
      (v.insert (v.now + d) t).armTimerFD (v.now + d) else v.insert (v.now + d) t := by
    unfold World.armTimer World.toAbsolute
    rw [if_pos hd]
  rw [hqueue]
  rcases head_insert v.queue ⟨v.now + d, t, v.nextId⟩ with hhead | ⟨x, hx, hhead⟩
  · have hhead : (v.insert (v.now + d) t).queue.head? = some ⟨v.now + d, t, v.nextId⟩ := hhead
    rw [harm, if_pos (by simp [World.isFirst, hhead]),
      armTimerFD_kernel (Nat.add_pos_right _ d.2.1), hhead]
    rfl
  · have hhead : (v.insert (v.now + d) t).queue.head? = some x := hhead
    have hold := h.fresh x (List.mem_of_head? hx)
    rw [harm, if_neg (by simp [World.isFirst, hhead]; omega), hhead, ← hx]
    exact hs

end Sync

/-! ## The history of an operation -/

section Log

variable {w w' : World}

/-- An operation on a timer leaves the entries of the others, and an arm adds its own. -/
theorem Logged.record {x : Happened} (h : Logged w) (hx : x.InRange) (hc : x.callback? = none)
    (hlog : w'.log = w.log ++ [x]) (hnext : w'.nextId = w.nextId + if x.isArm then 1 else 0)
    (hmem : ∀ e, e ∈ w'.queue ↔ (e ∈ w.queue ∧ x.timer ≠ e.timer) ∨
      ∃ time, ∃ duration : Duration, x = .arm e.timer time duration ∧
        e = ⟨time + duration, e.timer, w.nextId⟩) : Logged w' := by
  constructor
  · rw [hnext, hlog, List.countP_append, List.countP_singleton, h.arms]
  · intro e
    rw [hmem, hlog, waits_concat, h.waiting, h.arms]
  · rw [hlog]
    refine h.onTime.concat fun e time hcall => ?_
    rw [hcall] at hc
    cases hc
  · intro y hy
    rw [hlog] at hy
    rcases List.mem_append.mp hy with hy | hy
    · exact h.inRange y hy
    · exact List.mem_singleton.mp hy ▸ hx

theorem Logged.arm (hw : Inv w) (h : Logged w) (t : Nat) {d : Duration}
    (hd : w.now + d < 2 ^ 63) : Logged ((w.record (.arm t w.now d)).arm t d) := by
  obtain ⟨hnow, hnext, hlog⟩ := disarm_frame (w.record (.arm t w.now d)) t
  have hfits : ((w.record (.arm t w.now d)).disarm t).now + d < 2 ^ 63 := by rwa [hnow]
  obtain ⟨k, hk⟩ := armTimer_eq _ t d hfits
  refine h.record (x := .arm t w.now d) hd rfl ?_ ?_ fun e => ?_
  · unfold World.arm
    rw [hk]
    exact hlog
  · unfold World.arm
    rw [hk]
    exact congrArg (· + 1) hnext
  · rw [mem_arm (hw.record _) hd, or_comm]
    refine or_congr (and_congr_right fun _ => ne_comm) ⟨?_, ?_⟩
    · rintro rfl
      exact ⟨w.now, d, rfl, rfl⟩
    · rintro ⟨time, d', hx, he⟩
      cases hx
      exact he

/-- The history of a call that leaves the queue without the entry of its timer. -/
theorem Logged.disarm (hw : Inv w) (h : Logged w) (t : Nat) {x : Happened} (hx : x.timer = t)
    (harm : x.isArm = false) (hc : x.callback? = none) : Logged ((w.record x).disarm t) := by
  obtain ⟨-, hnext, hlog⟩ := disarm_frame (w.record x) t
  have hnone : ∀ s time d, x ≠ .arm s time d := by
    rintro s time d rfl
    cases harm
  have hrange : x.InRange := by
    cases x with
    | arm s time d => exact absurd rfl (hnone s time d)
    | _ => trivial
  refine h.record hrange hc hlog (by rw [hnext, harm]; rfl) fun e => ?_
  rw [mem_disarm (hw.record x), hx]
  constructor
  · exact fun he => .inl ⟨he.1, he.2.symm⟩
  · rintro (he | ⟨time, d, hx, -⟩)
    · exact ⟨he.1, he.2.symm⟩
    · exact absurd hx (hnone _ _ _)

/-- The invariant and the history. -/
structure Kept (w : World) : Prop where
  inv : Inv w
  logged : Logged w

/-- The kernel timer and the clock are not in it. -/
theorem Kept.setTime (h : Kept w) (s n : Nat) : Kept (w.setTimeForTimerFD s n) :=
  ⟨h.inv.setTime s n, h.logged.arms, h.logged.waiting, h.logged.onTime, h.logged.inRange⟩

theorem Kept.read (h : Kept w) : Kept w.readTimerFD :=
  ⟨h.inv.read, h.logged.arms, h.logged.waiting, h.logged.onTime, h.logged.inRange⟩

theorem Kept.tick (h : Kept w) (dt : Nat) : Kept { w with now := w.now + dt } :=
  ⟨h.inv.tick dt, h.logged.arms, h.logged.waiting, h.logged.onTime, h.logged.inRange⟩

theorem arm_overflowed (w : World) (t : Nat) {d : Duration} (hd : ¬ w.now + d < 2 ^ 63) :
    Overflowed ((w.record (.arm t w.now d)).arm t d) := by
  obtain ⟨hnow, -, hlog⟩ := disarm_frame (w.record (.arm t w.now d)) t
  unfold World.arm
  rw [armTimer_undefined _ t d (by rwa [hnow])]
  refine ⟨rfl, .arm t w.now d, ?_, hd⟩
  show _ ∈ ((w.record (.arm t w.now d)).disarm t).log
  rw [hlog]
  exact List.mem_append_right _ (List.mem_singleton_self _)

/-- One operation: the invariant and the history, with the kernel timer, or the overflow. -/
theorem op_spec (h : Kept w) (o : Op) :
    (Kept (w.op o) ∧ (Synced w → Synced (w.op o))) ∨ Overflowed (w.op o) := by
  have hsame : (Kept w ∧ (Synced w → Synced w)) ∨ Overflowed w := .inl ⟨h, id⟩
  have hkept := h
  obtain ⟨hinv, hlog⟩ := h
  unfold World.op
  rw [if_neg (by simp [hinv.defined])]
  cases o with
  | arm t d =>
    simp only
    split
    · rename_i halive
      by_cases hd : w.now + d < 2 ^ 63
      · have hrec := hinv.record (.arm t w.now d)
        exact .inl ⟨⟨hrec.arm halive hd, hlog.arm hinv t hd⟩, fun hs => Synced.arm hrec hs t hd⟩
      · exact .inr (arm_overflowed w t hd)
    · exact hsame
  | disarm t =>
    simp only
    split
    · have hrec := hinv.record (.disarm t)
      exact .inl ⟨⟨hrec.disarm t, hlog.disarm hinv t rfl rfl rfl⟩,
        fun hs => Synced.disarm hrec hs t⟩
    · exact hsame
  | destroy t =>
    simp only
    split
    · have hrec := hinv.record (.destroy t)
      have hlog := @Logged.disarm w hinv hlog t (.destroy t) rfl rfl rfl
      exact .inl ⟨⟨hrec.destroy t, hlog.arms, hlog.waiting, hlog.onTime, hlog.inRange⟩,
        fun hs => Synced.disarm hrec hs t⟩
    · exact hsame
  | tick dt =>
    exact .inl ⟨hkept.tick dt, id⟩

/-- Nothing follows an overflow. -/
theorem Overflowed.op (h : Overflowed w) (o : Op) : w.op o = w := if_pos h.undefined

/-- An operation runs no callback. -/
theorem op_ran (w : World) (o : Op) : (w.op o).ran = w.ran := by
  have hrecord : ∀ x : Happened, x.callback? = none → (w.record x).ran = w.ran := by
    intro x hx
    simp [World.ran, World.record, hx]
  have hdisarm : ∀ (v : World) t, (v.disarm t).ran = v.ran := by
    intro v t
    unfold World.ran
    rw [(disarm_frame v t).2.2]
  have harm : ∀ (v : World) t d, (v.arm t d).ran = v.ran := by
    intro v t d
    rw [← hdisarm v t]
    unfold World.arm
    by_cases hd : (v.disarm t).now + d < 2 ^ 63
    · obtain ⟨k, hk⟩ := armTimer_eq _ t d hd
      rw [hk]
      rfl
    · rw [armTimer_undefined _ t d hd]
      rfl
  unfold World.op
  split
  · rfl
  · cases o with
    | arm t d =>
      simp only
      split
      · rw [harm, hrecord _ rfl]
      · rfl
    | disarm t =>
      simp only
      split
      · rw [hdisarm, hrecord _ rfl]
      · rfl
    | destroy t =>
      simp only
      split
      · show ((w.record (.destroy t)).disarm t).ran = w.ran
        rw [hdisarm, hrecord _ rfl]
      · rfl
    | tick dt => rfl

end Log

/-! ## What an operation does to the timers that are due -/

section Due

/-- The number of the entries that are due. -/
def due (now : Nat) (q : List Entry) : Nat := q.countP (·.deadline ≤ now)

/-- No entry that is due was added. -/
structure Later (now : Nat) (w w' : World) : Prop where
  clock : w.now ≤ w'.now
  mem : ∀ x ∈ w'.queue, x ∈ w.queue ∨ now < x.deadline
  due : due now w'.queue ≤ due now w.queue

variable {now : Nat} {w : World}

theorem Later.refl (now : Nat) (w : World) : Later now w w :=
  ⟨Nat.le_refl _, fun _ hx => .inl hx, Nat.le_refl _⟩

theorem Later.trans {w' w'' : World} (h₁ : Later now w w') (h₂ : Later now w' w'') :
    Later now w w'' := by
  refine ⟨h₁.clock.trans h₂.clock, fun x hx => ?_, h₂.due.trans h₁.due⟩
  rcases h₂.mem x hx with hx | hx
  · exact h₁.mem x hx
  · exact .inr hx

theorem later_disarm (now : Nat) (w : World) (t : Nat) : Later now w (w.disarm t) := by
  have hsub := disarm_sublist w t
  refine ⟨?_, fun x hx => .inl (hsub.subset hx), hsub.countP_le⟩
  rw [(disarm_frame w t).1]

theorem later_arm (hnow : now ≤ w.now) (t : Nat) (d : Duration) : Later now w (w.arm t d) := by
  have hdis := later_disarm now w t
  refine hdis.trans ?_
  unfold World.arm
  have hnow' := hnow.trans hdis.clock
  generalize w.disarm t = v at hnow'
  by_cases hfits : v.now + d < 2 ^ 63
  · obtain ⟨k, hk⟩ := armTimer_eq v t d hfits
    rw [hk]
    have hd := d.2.1
    refine ⟨Nat.le_refl _, fun x hx => ?_, ?_⟩
    · rcases (List.mem_orderedInsert _).mp hx with rfl | hx
      · exact .inr (by simp only; omega)
      · exact .inl hx
    · show due now (v.insert (v.now + d) t).queue ≤ due now v.queue
      have hcount : due now (v.insert (v.now + d) t).queue =
          due now (⟨v.now + d, t, v.nextId⟩ :: v.queue) :=
        (List.perm_orderedInsert _ _ _).countP_eq _
      have hlate : ¬ v.now + d ≤ now := by omega
      rw [hcount, due, List.countP_cons_of_neg (by simpa using hlate)]
      exact Nat.le_refl _
  · rw [armTimer_undefined v t d hfits]
    exact ⟨Nat.le_refl _, fun _ hx => .inl hx, Nat.le_refl _⟩

theorem later_record (now : Nat) (w : World) (x : Happened) : Later now w (w.record x) :=
  ⟨Nat.le_refl _, fun _ hx => .inl hx, Nat.le_refl _⟩

theorem later_op (hnow : now ≤ w.now) (o : Op) : Later now w (w.op o) := by
  unfold World.op
  split
  · exact Later.refl now w
  · cases o with
    | arm t d =>
      simp only
      split
      · exact (later_record now w _).trans (@later_arm now (w.record _) hnow t d)
      · exact Later.refl now w
    | disarm t =>
      simp only
      split
      · exact (later_record now w _).trans (later_disarm now _ t)
      · exact Later.refl now w
    | destroy t =>
      simp only
      split
      · have h := (later_record now w (.destroy t)).trans (later_disarm now _ t)
        exact ⟨h.clock, h.mem, h.due⟩
      · exact Later.refl now w
    | tick dt => exact ⟨Nat.le_add_right _ _, fun _ hx => .inl hx, Nat.le_refl _⟩

/-- All operations of a callback. -/
theorem ops_spec (h : Kept w ∨ Overflowed w) (hnow : now ≤ w.now) (ops : List Op) :
    (Kept (ops.foldl World.op w) ∨ Overflowed (ops.foldl World.op w)) ∧
      Later now w (ops.foldl World.op w) ∧ (ops.foldl World.op w).ran = w.ran := by
  induction ops generalizing w with
  | nil => exact ⟨h, Later.refl now w, rfl⟩
  | cons o ops ih =>
    have hlater := later_op hnow o
    have hop : Kept (w.op o) ∨ Overflowed (w.op o) := by
      rcases h with h | h
      · exact (op_spec h o).imp_left And.left
      · exact .inr (by rwa [h.op o])
    obtain ⟨hkept, hlater', hran⟩ := ih hop (hnow.trans hlater.clock)
    exact ⟨hkept, hlater.trans hlater', hran.trans (op_ran w o)⟩

end Due

/-! ## The loop -/

section Loop

variable {now : Nat} {w : World}

/-- The first entry is taken out and its callback is about to run. -/
def World.popped (w : World) (e : Entry) (q : List Entry) : World :=
  World.setArmed { w with queue := q, log := w.log ++ [.callback e w.now]
                          undefined := w.undefined || !(w.timers e.timer).alive } e.timer false

theorem Inv.pop (h : Inv w) {e : Entry} {q : List Entry} (hq : w.queue = e :: q) :
    Inv (w.popped e q) := by
  have hmem : ∀ x, x ∈ q ↔ x ∈ w.queue ∧ x.timer ≠ e.timer := fun x => @others w h [] q e hq x
  have hsub : ∀ x ∈ q, x ∈ w.queue := fun x hx => ((hmem x).mp hx).1
  constructor
  · exact (List.pairwise_cons.mp (hq ▸ h.sorted)).2
  · intro x hx
    simp only [World.popped, World.setArmed, Function.update_of_ne ((hmem x).mp hx).2]
    exact h.entries x (hsub x hx)
  · intro t ht
    have hte : t ≠ e.timer := by
      rintro rfl
      simp [World.popped, World.setArmed] at ht
    simp only [World.popped, World.setArmed, Function.update_of_ne hte] at ht
    obtain ⟨x, hx, rfl⟩ := h.armed t ht
    exact ⟨x, (hmem x).mpr ⟨hx, hte⟩, rfl⟩
  · exact fun x hx => h.positive x (hsub x hx)
  · exact fun a ha b hb => h.ids a (hsub a ha) b (hsub b hb)
  · exact fun x hx => h.fresh x (hsub x hx)
  · have hhead : e ∈ w.queue := hq ▸ List.mem_cons_self
    simp [World.popped, World.setArmed, h.defined, (h.entries e hhead).2.1]

/-- A callback is that of an entry that waits, at its deadline or later. -/
theorem Logged.pop (hw : Inv w) (h : Logged w) {e : Entry} {q : List Entry}
    (hq : w.queue = e :: q) (he : e.deadline ≤ w.now) : Logged (w.popped e q) := by
  constructor
  · show w.nextId = (w.log ++ [Happened.callback e w.now]).countP Happened.isArm
    rw [List.countP_append, List.countP_singleton, h.arms]
    rfl
  · intro x
    show x ∈ q ↔ Waits (w.log ++ [.callback e w.now]) x
    rw [waits_concat, ← h.waiting]
    constructor
    · intro hx
      obtain ⟨hxq, hxe⟩ := (@Inv.others w hw [] q e hq x).mp hx
      exact .inl ⟨hxq, hxe.symm⟩
    · rintro (⟨hxq, hxe⟩ | ⟨time, d, hx, -⟩)
      · exact (@Inv.others w hw [] q e hq x).mpr ⟨hxq, hxe.symm⟩
      · cases hx
  · refine h.onTime.concat fun e' time hcall => ?_
    cases hcall
    exact ⟨(h.waiting e).mp (hq ▸ List.mem_cons_self), he⟩
  · intro x hx
    rcases List.mem_append.mp hx with hx | hx
    · exact h.inRange x hx
    · rw [List.mem_singleton.mp hx]
      trivial

/-- The first entry is popped and its callback run. -/
theorem pop_spec (h : Kept w) {e : Entry} {q : List Entry} (hq : w.queue = e :: q)
    (he : e.deadline ≤ now) (hnow : now ≤ w.now) (ops : List Op) :
    (Kept (w.popAndExecuteFirstTimer ops) ∨ Overflowed (w.popAndExecuteFirstTimer ops)) ∧
    now ≤ (w.popAndExecuteFirstTimer ops).now ∧
    (w.popAndExecuteFirstTimer ops).ran = w.ran ++ [e] ∧
    (∀ x ∈ (w.popAndExecuteFirstTimer ops).queue, Before e x) ∧
    due now (w.popAndExecuteFirstTimer ops).queue < due now w.queue := by
  have hpop : w.popAndExecuteFirstTimer ops = ops.foldl World.op (w.popped e q) := by
    unfold World.popAndExecuteFirstTimer
    rw [hq]
    rfl
  have hbefore := (List.pairwise_cons.mp (hq ▸ h.inv.sorted)).1
  have hkept : Kept (w.popped e q) := ⟨h.inv.pop hq, h.logged.pop h.inv hq (he.trans hnow)⟩
  obtain ⟨hkept', hlater, hran⟩ := @ops_spec now _ (.inl hkept) hnow ops
  rw [hpop]
  refine ⟨hkept', hnow.trans hlater.clock, ?_, fun x hx => ?_, ?_⟩
  · rw [hran]
    simp [World.ran, World.popped, World.setArmed, Happened.callback?]
  · -- An entry that was armed by the callback is later than all that are due.
    rcases hlater.mem x hx with hx | hx
    · exact hbefore x hx
    · exact .inl (by omega)
  · have hle : due now (ops.foldl World.op (w.popped e q)).queue ≤ due now q := hlater.due
    have hone : due now w.queue = due now q + 1 := by
      rw [hq, due, List.countP_cons_of_pos (by simpa using he)]
      rfl
    omega

/-- The loop has left the queue without an entry that is due, and the kernel timer programmed. -/
structure Expired (now : Nat) (w : World) : Prop extends Kept w where
  synced : Synced w
  later : ∀ x ∈ w.queue, now < x.deadline

/-- The queue is empty, and the kernel timer is disarmed. -/
theorem Kept.disarmed (h : Kept w) (hq : w.queue = []) : Expired now w.disarmTimerFD := by
  have hnone : ∀ x ∈ w.queue, now < x.deadline := by
    rw [hq]
    exact fun x hx => absurd hx List.not_mem_nil
  refine ⟨h.setTime 0 0, ?_, hnone⟩
  show w.disarmTimerFD.kernel = w.queue.head?.map _
  rw [disarmTimerFD_kernel, hq]
  rfl

/-- The first entry is not due, and the kernel timer is armed for it. -/
theorem Kept.rearmed (h : Kept w) {e : Entry} {q : List Entry} (hq : w.queue = e :: q)
    (hlater : now < e.deadline) : Expired now (w.armTimerFD e.deadline) := by
  have hall : ∀ x ∈ w.queue, now < x.deadline :=
    fun x hx => hlater.trans_le (h.inv.first_le hq hx)
  have hpos : 0 < e.deadline := h.inv.positive e (hq ▸ List.mem_cons_self)
  refine ⟨h.setTime _ _, ?_, hall⟩
  show (w.armTimerFD e.deadline).kernel = w.queue.head?.map _
  rw [armTimerFD_kernel hpos, hq]
  rfl

/-- From a due entry on, the loop ends, has run callbacks in their order, and has programmed the
kernel timer. -/
theorem expiredLoop_spec (script : Nat → List Op) (fuel k : Nat) (h : Kept w) {e : Entry}
    {q : List Entry} (hq : w.queue = e :: q) (he : e.deadline ≤ now) (hnow : now ≤ w.now)
    (hfuel : due now w.queue ≤ fuel) :
    ∃ w', World.expiredLoop now script fuel k w = some w' ∧ (Expired now w' ∨ Overflowed w') ∧
      ∃ es, w'.ran = w.ran ++ es ∧ es.Pairwise Before ∧
        ∀ x, (∀ y ∈ w.queue, Before x y) → ∀ y ∈ es, Before x y := by
  induction fuel generalizing k w e q with
  | zero =>
    have hpos : 0 < due now w.queue := by
      rw [hq, due, List.countP_cons_of_pos (by simpa using he)]
      exact Nat.succ_pos _
    omega
  | succ fuel ih =>
    obtain ⟨hkept, hnow', hran, hbefore, hdue⟩ := pop_spec h hq he hnow (script k)
    have hfirst : ∀ x, (∀ y ∈ w.queue, Before x y) → Before x e :=
      fun x hx => hx e (hq ▸ List.mem_cons_self)
    have hone : ∀ x, (∀ y ∈ w.queue, Before x y) → ∀ y ∈ [e], Before x y :=
      fun x hx y hy => List.mem_singleton.mp hy ▸ hfirst x hx
    simp only [World.expiredLoop]
    generalize w.popAndExecuteFirstTimer (script k) = v at *
    rcases hkept with hv | hv
    · rw [if_neg (by simp [hv.inv.defined])]
      cases hqueue : v.queue with
      | nil =>
        exact ⟨_, rfl, .inl (hv.disarmed hqueue), [e], hran, List.pairwise_singleton _ _, hone⟩
      | cons first rest =>
        simp only
        by_cases hd : first.deadline ≤ now
        · rw [if_pos hd]
          obtain ⟨w', hw', hend, es, hran', hpair, hbound⟩ :=
            ih (k + 1) hv hqueue hd hnow' (by omega)
          refine ⟨w', hw', hend, e :: es, by rw [hran', hran, List.append_assoc]; rfl,
            List.pairwise_cons.mpr ⟨hbound e hbefore, hpair⟩, fun x hx y hy => ?_⟩
          rcases List.mem_cons.mp hy with rfl | hy
          · exact hfirst x hx
          · exact (hfirst x hx).trans (hbound e hbefore y hy)
        · rw [if_neg hd]
          exact ⟨_, rfl, .inl (hv.rearmed hqueue (Nat.lt_of_not_le hd)), [e], hran,
            List.pairwise_singleton _ _, hone⟩
    · rw [if_pos hv.undefined]
      exact ⟨v, rfl, .inr hv, [e], hran, List.pairwise_singleton _ _, hone⟩

/-- What holds between the calls of the engine. -/
structure Between (w : World) : Prop extends Kept w where
  synced : Synced w

theorem handleEvents_spec (h : Between w) (dt : Nat) (script : Nat → List Op) :
    ∃ w', w.handleEvents dt script = some w' ∧ (Between w' ∨ Overflowed w') ∧
      (w.timerExpired = true → Expired (w.now + dt) w' ∨ Overflowed w') ∧
      ∃ es, w'.ran = w.ran ++ es ∧ es.Pairwise Before := by
  unfold World.handleEvents
  rw [if_neg (by simp [h.inv.defined])]
  split
  · rename_i hexp
    -- What expired is the deadline of the first entry.
    obtain ⟨e, q, hq, he⟩ : ∃ e q, w.queue = e :: q ∧ e.deadline ≤ w.now := by
      unfold World.timerExpired at hexp
      rw [h.synced] at hexp
      cases hq : w.queue with
      | nil =>
        rw [hq] at hexp
        cases hexp
      | cons e q =>
        rw [hq] at hexp
        exact ⟨e, q, rfl, by simpa using hexp⟩
    have hfuel : due (w.now + dt) w.queue ≤ w.queue.length + 1 :=
      List.countP_le_length.trans (Nat.le_succ _)
    have hkept : Kept { w.readTimerFD with now := w.now + dt } := h.toKept.read.tick dt
    obtain ⟨w', hw', hend, es, hran, hpair, -⟩ := expiredLoop_spec script (w.queue.length + 1) 0
      hkept hq (he.trans (Nat.le_add_right _ _)) (Nat.le_refl _) hfuel
    exact ⟨w', hw', hend.imp_left fun hx => ⟨hx.toKept, hx.synced⟩, fun _ => hend, es, hran, hpair⟩
  · rename_i hexp
    exact ⟨w, rfl, .inl h, fun hx => absurd hx hexp, [], by simp, List.Pairwise.nil⟩

end Loop

/-! ## The runs -/

section Runs

variable {now : Nat} {w : World}

theorem reach_between (h : (sys now).Reach Sys.always w) : Between w ∨ Overflowed w := by
  refine Sys.Reach.invariant (I := fun w => Between w ∨ Overflowed w) ?_
    (fun w e w' hw _ hst => ?_) h
  · refine .inl ⟨⟨⟨List.Pairwise.nil, ?_, ?_, ?_, ?_, ?_, rfl⟩, ⟨rfl, fun e => ?_, ?_, ?_⟩⟩, rfl⟩
    · exact fun e he => absurd he List.not_mem_nil
    · exact fun t ht => by cases ht
    · exact fun e he => absurd he List.not_mem_nil
    · exact fun e he => absurd he List.not_mem_nil
    · exact fun e he => absurd he List.not_mem_nil
    · refine ⟨fun he => absurd he List.not_mem_nil, ?_⟩
      rintro ⟨l₁, time, d, l₂, hlog, -⟩
      exact absurd hlog.symm (by simp [sys])
    · exact fun l₁ e time l₂ hlog => absurd hlog.symm (by simp [sys])
    · exact fun x hx => absurd hx List.not_mem_nil
  · rcases hw with hw | hw
    · cases e with
      | op o =>
        cases hst
        exact (op_spec hw.toKept o).imp_left fun hk => ⟨hk.1, hk.2 hw.synced⟩
      | handleEvents dt script =>
        obtain ⟨v, hv, hbetween, -⟩ := handleEvents_spec hw dt script
        have hst : w.handleEvents dt script = some w' := hst
        rw [hv] at hst
        cases hst
        exact hbetween
    · -- Nothing follows.
      cases e with
      | op o =>
        cases hst
        rw [hw.op o]
        exact .inr hw
      | handleEvents dt script =>
        have hst : w.handleEvents dt script = some w' := hst
        unfold World.handleEvents at hst
        rw [if_pos hw.undefined] at hst
        cases hst
        exact .inr hw

theorem Between.timerQueue (h : Between w) : TimerQueue w := by
  refine ⟨h.inv.countP w, h.logged.waiting, ?_, fun k hk => ?_, h.logged.onTime, h.inv.defined⟩
  · rw [h.synced, Option.map_eq_none_iff, List.head?_eq_none_iff]
  · rw [h.synced] at hk
    obtain ⟨e, he, rfl⟩ := Option.map_eq_some_iff.mp hk
    obtain ⟨q, hq⟩ := List.head?_eq_some_iff.mp he
    exact ⟨rfl, ⟨e, List.mem_of_head? he, rfl⟩, fun x hx => h.inv.first_le hq hx⟩

theorem Between.runsInOrder (h : Between w) (dt : Nat) (script : Nat → List Op) :
    RunsInOrder w dt script := by
  obtain ⟨w', hw', -, hend, hran⟩ := handleEvents_spec h dt script
  refine ⟨w', hw', hran, fun hexp hrange => ?_⟩
  rcases hend hexp with hx | hx
  · exact hx.later
  · obtain ⟨x, hxlog, hxrange⟩ := hx.arm
    exact absurd (hrange x hxlog) hxrange

end Runs

/-- **Timer queue correctness.** In a run of operations and expiries, whatever the callbacks do,
the queue has the entries of the arms that nothing has happened to their timers since, the armed
timers are those with an entry, the kernel timer is programmed to the earliest deadline, a callback
is that of such an arm and not before its deadline, and the callbacks of an expiry run in the order
of their deadlines, exactly if every deadline of the run is a signed 64-bit number. -/
theorem timerQueue_correct (now : Nat) (w : World) (h : (sys now).Reach Sys.always w) :
    (TimerQueue w ∧ ∀ dt script, RunsInOrder w dt script) ↔ ∀ x ∈ w.log, x.InRange := by
  rcases reach_between h with hw | hw
  · exact iff_of_true ⟨hw.timerQueue, hw.runsInOrder⟩ hw.logged.inRange
  · refine iff_of_false (fun hq => ?_) fun hrange => ?_
    · have hdefined := hq.1.defined
      rw [hw.undefined] at hdefined
      cases hdefined
    · obtain ⟨x, hx, hxrange⟩ := hw.arm
      exact hxrange (hrange x hx)

/-- Two timers expire together; the callback of the first one cancels the second one and is armed
again. -/
def cancelInCallback : List Event :=
  [.op (.arm 0 ⟨5, by decide⟩), .op (.arm 1 ⟨7, by decide⟩), .op (.tick 9),
    .handleEvents 1 fun _ => [.disarm 1, .arm 0 ⟨3, by decide⟩]]

theorem cancelInCallback_correct : ∃ w, (sys 100).Reach Sys.always w ∧
    w.ran = [⟨105, 0, 0⟩] ∧ w.queue = [⟨113, 0, 2⟩] ∧ w.kernel = some ⟨113, false⟩ ∧
    TimerQueue w := by
  obtain ⟨w, hw, hv⟩ := Sys.reach_run_map (S := sys 100) (G := Sys.always) cancelInCallback
    (fun w => (w.ran, w.queue, w.kernel, decide (∀ x ∈ w.log, x.InRange)))
    (b := ([⟨105, 0, 0⟩], [⟨113, 0, 2⟩], some ⟨113, false⟩, true)) (by decide +kernel)
  simp only [Prod.mk.injEq, decide_eq_true_eq] at hv
  exact ⟨w, hw, hv.1, hv.2.1, hv.2.2.1, ((timerQueue_correct 100 w hw).mpr hv.2.2.2).1⟩

/-- A timer is armed for the longest duration. -/
theorem longestDuration_undefined : ¬ ∀ now w, (sys now).Reach Sys.always w →
    TimerQueue w ∧ ∀ dt script, RunsInOrder w dt script := by
  intro h
  obtain ⟨w, hw, hv⟩ := Sys.reach_run_map (S := sys 100) (G := Sys.always)
    [.op (.arm 0 ⟨2 ^ 63 - 1, by decide⟩)] World.undefined (b := true) (by decide +kernel)
  have hdefined := (h 100 w hw).1.defined
  rw [hv] at hdefined
  cases hdefined

end TimerFD
end Sdl
