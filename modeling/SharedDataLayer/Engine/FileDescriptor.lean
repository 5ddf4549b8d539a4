import SharedDataLayer.Engine.EngineImpl
import SharedDataLayer.Spec.Ownership

/-!
# Who owns a native descriptor (`src/filedescriptor.cpp`)

`FileDescriptor` closes its native descriptor when it is destroyed, closed or assigned to, after its
at close function was called. `EngineImpl::addMonitoredFD(FileDescriptor&)` sets this function, and
it stops the monitoring. The descriptors, the objects, the engine and the rest of the code (it opens
and closes descriptors of its own, and may add them by number) are one system here: any of them may
run in a handler, in the middle of a batch.

The kernel gives the number of a closed descriptor to the next one that is opened, so each opening
has a number of its own (`opened`). `close` also takes the descriptor out of the interest set.
`System::close` aborts if the descriptor is not open, and `System::epoll_ctl` throws if the kernel
refuses: `failed`.

* `Contract`: what the header asks of the callers.
* `Ledger`, `Owners`, `Watched`: the parts of the invariant, each with a lemma for each thing that
  happens to a descriptor.
* `descriptors_owned`: no run leaks a descriptor, closes one twice, or keeps a handler of a closed
  one.
-/

namespace Sdl
namespace FileDescriptors

open Spec EngineImpl

/-- An at close function: the one of `addMonitoredFD`, or one of the client, which leaves the engine
alone. -/
inductive AtClose where
  | deleteMonitoredFD
  | client
  deriving DecidableEq

/-- `none` is a negative descriptor, and an empty function. -/
structure FileDescriptor where
  fd : Option Fd
  atCloseCb : Option AtClose
  deriving DecidableEq

structure World where
  engine : EngineImpl.World
  /-- The open descriptors of the kernel, each with the number of its opening. -/
  opened : OrdMap Fd Nat
  nextOpening : Nat
  /-- The openings that were closed. -/
  closed : List Nat
  objects : OrdMap Nat FileDescriptor
  /-- The descriptors that code without a `FileDescriptor` owns. -/
  held : List Fd
  /-- For each registration the opening it was made for. -/
  watches : OrdMap Nat Nat
  failed : Bool

def native (m : OrdMap Nat FileDescriptor) (o : Nat) : Option Fd :=
  (m.find o).bind FileDescriptor.fd

def onClose (m : OrdMap Nat FileDescriptor) (o : Nat) : Option AtClose :=
  (m.find o).bind FileDescriptor.atCloseCb

namespace World

def monitored (w : World) (fd : Fd) : Bool := (w.engine.handlers.find fd).isSome

/-- `EngineImpl::addMonitoredFD` with a native descriptor. `epoll_ctl` refuses one that is not open,
or is in the set. -/
def addMonitoredFD (w : World) (fd : Fd) (events : Nat) : World :=
  if w.monitored fd then { w with engine := w.engine.addMonitoredFD fd events }
  else
    match w.opened.find fd, w.engine.interest.find fd with
    | some opening, none => { w with engine := w.engine.addMonitoredFD fd events
                                     watches := w.watches.assign w.engine.nextRegistration opening }
    | _, _ => { w with failed := true }

/-- `epoll_ctl` refuses a descriptor that is not in the set. -/
def modifyMonitoredFD (w : World) (fd : Fd) (events : Nat) : World :=
  { w with engine := w.engine.modifyMonitoredFD fd events
           failed := w.failed || w.monitored fd && (w.engine.interest.find fd).isNone }

def deleteMonitoredFD (w : World) (fd : Fd) : World :=
  { w with engine := w.engine.deleteMonitoredFD fd
           failed := w.failed || w.monitored fd && (w.engine.interest.find fd).isNone }

/-- `System::close`. -/
def closeNative (w : World) (fd : Fd) : World :=
  match w.opened.find fd with
  | none => { w with failed := true }
  | some opening => { w with opened := w.opened.erase fd, closed := w.closed ++ [opening]
                             engine := { w.engine with interest := w.engine.interest.erase fd } }

def callAtClose (w : World) (fd : Fd) : Option AtClose → World
  | some .deleteMonitoredFD => w.deleteMonitoredFD fd
  | some .client | none => w

/-- `FileDescriptor::close`. The function stays. -/
def close (w : World) (o : Nat) : World :=
  match w.objects.find o with
  | some ⟨some fd, cb⟩ =>
    let w := (w.callAtClose fd cb).closeNative fd
    { w with objects := w.objects.assign o ⟨none, cb⟩ }
  | _ => w

/-- The end of both moves. What a function is after it was moved from is not specified: `left`. -/
def move (w : World) (o p : Nat) (left : Option AtClose) : World :=
  { w with objects := (w.objects.assign o ⟨native w.objects p, onClose w.objects p⟩).assign p
             ⟨none, left⟩ }

/-- `EngineImpl::addMonitoredFD` with an object. -/
def addObject (w : World) (o : Nat) (fd : Fd) (events : Nat) : World :=
  let w := w.addMonitoredFD fd events
  { w with objects := w.objects.assign o ⟨native w.objects o, some .deleteMonitoredFD⟩ }

def op (w : World) : Op → World
  | .add fd events => w.addMonitoredFD fd events
  | .modify fd events => w.modifyMonitoredFD fd events
  | .delete fd => w.deleteMonitoredFD fd

end World

inductive Event where
  /-- Other code opens or closes a descriptor. -/
  | opens (fd : Fd)
  | closes (fd : Fd)
  | construct (o : Nat) (fd : Option Fd)
  | moveConstruct (o p : Nat) (left : Option AtClose)
  | moveAssign (o p : Nat) (left : Option AtClose)
  | atClose (o : Nat) (isSet : Bool)
  | close (o : Nat)
  | destroy (o : Nat)
  | addObject (o : Nat) (events : Nat)
  | op (o : Op)
  | epollWait (batch : List (Fd × Nat))
  | turn

/-- The steps that are code of a handler, or of the application while no batch is handled. -/
def Event.isCode : Event → Bool
  | .epollWait _ | .turn => false
  | _ => true

def codeRuns (w : World) : Bool :=
  match w.engine.phase with
  | .idle | .batch _ true => true
  | .batch _ false => false

def World.isObject (w : World) (o : Nat) : Bool := (w.objects.find o).isSome

def World.step (w : World) : Event → Option World
  | .opens fd =>
    if (w.opened.find fd).isSome then none
    else some { w with opened := w.opened.assign fd w.nextOpening, nextOpening := w.nextOpening + 1
                       held := fd :: w.held }
  | .closes fd => some { w.closeNative fd with held := w.held.filter (· ≠ fd) }
  | .construct o fd =>
    if w.isObject o then none
    else some { w with objects := w.objects.assign o ⟨fd, none⟩,
                       held := w.held.filter (some · ≠ fd) }
  | .moveConstruct o p left => if w.isObject o || !w.isObject p then none
    else some (w.move o p left)
  | .moveAssign o p left => if w.isObject o && w.isObject p then
    some ((w.close o).move o p left) else none
  | .atClose o isSet =>
    if w.isObject o then some { w with objects := w.objects.assign o
                                         ⟨native w.objects o, if isSet then
      some .client else none⟩ }
    else none
  | .close o => if w.isObject o then some (w.close o) else none
  | .destroy o =>
    if w.isObject o then
      let w := w.close o
      some { w with objects := w.objects.erase o }
    else none
  | .addObject o events =>
    match native w.objects o with
    | some fd => some (w.addObject o fd events)
    | none => if w.isObject o then some { w with failed := true } else none
  | .op o => some (w.op o)
  | .epollWait batch => (w.engine.step (.epollWait batch)).map fun engine =>
    { w with engine := engine }
  | .turn => (w.engine.step .turn).map fun engine => { w with engine := engine }

/-- An abort ends the process, and so does the exception. -/
def sys : Sys World Event where
  init := ⟨EngineImpl.sys.init, OrdMap.empty, 0, [], OrdMap.empty, [], OrdMap.empty, false⟩
  step w e :=
    if w.engine.aborted || w.failed then none
    else if e.isCode && !codeRuns w then none
    else w.step e

/-! ## What is expected -/

/-- The object of the descriptor deletes it. -/
def ByObject (w : World) (fd : Fd) : Prop :=
  ∃ p ∈ w.objects.toList, p.2.fd = some fd ∧ p.2.atCloseCb = some .deleteMonitoredFD

instance (w : World) (fd : Fd) : Decidable (ByObject w fd) :=
  inferInstanceAs (Decidable (∃ p ∈ _, _))

/-- The descriptor is monitored and no object deletes it: it was added by its number, or the
function was replaced. -/
def ByNumber (w : World) (fd : Fd) : Prop := w.monitored fd = true ∧ ¬ ByObject w fd

instance (w : World) (fd : Fd) : Decidable (ByNumber w fd) := inferInstanceAs (Decidable (_ ∧ _))

/-- The header of the engine: a descriptor that was added by its number must be deleted by its
number, and one that was added with its object is deleted by the object. An object takes the
ownership of what it is given. -/
def Contract (w : World) : Event → Prop
  | .closes fd => fd ∈ w.held ∧ ¬ ByNumber w fd
  | .construct _ (some fd) => fd ∈ w.held
  | .close o | .destroy o | .moveAssign o _ _ => ∀ fd ∈ native w.objects o, ¬ ByNumber w fd
  | .addObject o _ => ∃ fd ∈ native w.objects o, w.monitored fd = false
  | .op (.add fd _) => (w.opened.find fd).isSome ∧ w.monitored fd = false
  | .op (.modify fd _) => w.monitored fd = true
  | .op (.delete fd) => ByNumber w fd
  | _ => True

instance (w : World) (e : Event) : Decidable (Contract w e) := by
  unfold Contract
  split <;> infer_instance

inductive Owner where
  | object (o : Nat)
  | rest

def Owns (objects : OrdMap Nat FileDescriptor) (held : List Fd) : Owner → Fd → Prop
  | .object o, fd => native objects o = some fd
  | .rest, fd => fd ∈ held

/-- What every run keeps. Nothing aborts or throws; every open descriptor has one owner; every
opening is still open or was closed once; a handler belongs to the opening it was registered for,
and that one is still open. -/
structure Owned (w : World) : Prop where
  fine : w.engine.aborted = false ∧ w.failed = false
  owner : Exclusive (fun fd => (w.opened.find fd).isSome) (Owns w.objects w.held)
  ledger : Ledger w.opened.find w.closed w.nextOpening
  watched : ∀ fd r, w.engine.handlers.find fd = some (some r) → ∃ k, w.watches.find r = some k ∧
    w.opened.find fd = some k
  delivered : Delivered w.engine

/-! ## The objects -/

section Objects

variable {m : OrdMap Nat FileDescriptor} {o x : Nat} {d : FileDescriptor}

@[simp] theorem native_assign : native (m.assign o d) x = if x = o then d.fd else native m x := by
  rw [native, OrdMap.find_assign]
  split <;> rfl

@[simp] theorem onClose_assign : onClose (m.assign o d) x = if x = o then d.atCloseCb
  else onClose m x := by
  rw [onClose, OrdMap.find_assign]
  split <;> rfl

@[simp] theorem native_erase : native (m.erase o) x = if x = o then none else native m x := by
  rw [native, OrdMap.find_erase]
  split <;> rfl

@[simp] theorem onClose_erase : onClose (m.erase o) x = if x = o then none else onClose m x := by
  rw [onClose, OrdMap.find_erase]
  split <;> rfl

theorem native_none (h : (m.find o).isSome = false) : native m o = none := by
  rw [Option.isSome_eq_false_iff, Option.isNone_iff_eq_none] at h
  rw [native, h]
  rfl

theorem byObject_iff {w : World} {fd : Fd} :
    ByObject w fd ↔ ∃ o, native w.objects o = some fd ∧
      onClose w.objects o = some .deleteMonitoredFD := by
  constructor
  · rintro ⟨⟨o, d⟩, hmem, hfd, hcb⟩
    have hfind := OrdMap.mem_toList.mp hmem
    exact ⟨o, by rw [native, hfind]; exact hfd, by rw [onClose, hfind]; exact hcb⟩
  · rintro ⟨o, hfd, hcb⟩
    obtain ⟨d, hfind, hfd⟩ := Option.bind_eq_some_iff.mp hfd
    rw [onClose, hfind] at hcb
    exact ⟨(o, d), OrdMap.mem_toList.mpr hfind, hfd, hcb⟩

end Objects

/-! ## The invariant -/

/-- The handlers are of open descriptors, and an object with the function of `addMonitoredFD` is
monitored. -/
structure Watched (w : World) : Prop where
  watch : ∀ fd r, w.engine.handlers.find fd = some (some r) → ∃ k, w.watches.find r = some k ∧
    w.opened.find fd = some k
  deletes : ∀ o fd, native w.objects o = some fd → onClose w.objects o = some .deleteMonitoredFD →
    (w.engine.handlers.find fd).isSome

structure Inv (w : World) : Prop where
  engine : EngineImpl.Inv w.engine
  fine : w.engine.aborted = false ∧ w.failed = false
  owner : Exclusive (fun fd => (w.opened.find fd).isSome) (Owns w.objects w.held)
  ledger : Ledger w.opened.find w.closed w.nextOpening
  watched : Watched w

section Steps

variable {w : World}

theorem owns_live (h : Inv w) {a : Owner} {fd : Fd} (ha : Owns w.objects w.held a fd) :
    ∃ k, w.opened.find fd = some k :=
  Option.isSome_iff_exists.mp ((h.owner.owner fd).mpr ⟨a, ha⟩)

/-- If an object deletes a descriptor, then the one that owns it. -/
theorem Inv.registered (h : Inv w) {o : Nat} {fd : Fd} (ho : native w.objects o = some fd)
    (hn : ¬ ByNumber w fd)
    (hm : w.monitored fd = true) : onClose w.objects o = some .deleteMonitoredFD := by
  have hby : ByObject w fd := Decidable.byContradiction fun hb => hn ⟨hm, hb⟩
  obtain ⟨o', ho', hcb⟩ := byObject_iff.mp hby
  cases h.owner.one (.object o) (.object o') fd ho ho'
  exact hcb

/-- The interest set has no descriptor without a handler. -/
theorem interest_erase {e : EngineImpl.World} (h : EngineImpl.Inv e) {fd : Fd}
    (hfd : e.handlers.find fd = none) :
    { e with interest := e.interest.erase fd } = e := by
  have herase : e.interest.erase fd = e.interest := by
    apply OrdMap.ext_find
    intro x
    rw [OrdMap.find_erase]
    split
    · rename_i hx
      have := h.sync fd
      rw [hfd, Option.isSome_none, eq_comm, Option.isSome_eq_false_iff,
        Option.isNone_iff_eq_none] at this
      rw [hx, this]
    · rfl
  rw [herase]

/-- The descriptor is closed, its owner has nothing more, and it has no handler. -/
theorem Inv.release (h : Inv w) {fd : Fd} {k : Nat} (hfd : w.opened.find fd = some k)
    {e : EngineImpl.World} (he : EngineImpl.Inv e) (hfine : e.aborted = false)
    (hh : ∀ x, e.handlers.find x = if x = fd then none else w.engine.handlers.find x)
    {objects : OrdMap Nat FileDescriptor}
    {held : List Fd} (hown : ∀ a x, Owns objects held a x ↔ Owns w.objects w.held a x ∧ x ≠ fd)
    (hcb : ∀ o x, native objects o = some x → onClose objects o = onClose w.objects o) :
    Inv { w with engine := e, opened := w.opened.erase fd, closed := w.closed ++ [k],
                 objects := objects, held := held } := by
  have hkeep : ∀ x hd, e.handlers.find x = some hd →
    x ≠ fd ∧ w.engine.handlers.find x = some hd := by
    intro x hd hx
    rw [hh] at hx
    split at hx
    · cases hx
    · rename_i hne
      exact ⟨hne, hx⟩
  refine ⟨he, ⟨hfine, h.fine.2⟩, h.owner.release (fun x => ?_) hown,
    h.ledger.release hfd fun x => OrdMap.find_erase .., ⟨fun x r hx => ?_, fun o x ho hdel => ?_⟩⟩
  · show ((w.opened.erase fd).find x).isSome ↔ _
    rw [OrdMap.find_erase]
    by_cases hx : x = fd
    · simp [hx]
    · simp [hx]
  · obtain ⟨hne, hx⟩ := hkeep x _ hx
    obtain ⟨j, hj, hopen⟩ := h.watched.watch x r hx
    exact ⟨j, hj, (OrdMap.find_erase_of_ne hne).trans hopen⟩
  · obtain ⟨ho', hne⟩ := (hown (.object o) x).mp ho
    show (e.handlers.find x).isSome
    rw [hh, if_neg hne]
    exact h.watched.deletes o x ho' (by rw [← hcb o x ho]; exact hdel)

/-- The owners change, the descriptors do not. -/
theorem Inv.reown (h : Inv w) {objects : OrdMap Nat FileDescriptor} {held : List Fd}
    (hown : Exclusive (fun fd => (w.opened.find fd).isSome) (Owns objects held))
    (hdel : ∀ o fd, native objects o = some fd → onClose objects o = some .deleteMonitoredFD →
      (w.engine.handlers.find fd).isSome) : Inv { w with objects := objects, held := held } :=
  ⟨h.engine, h.fine, hown, h.ledger, h.watched.watch, hdel⟩

theorem Inv.opens (h : Inv w) {fd : Fd} (hfd : w.opened.find fd = none) :
    Inv { w with opened := w.opened.assign fd w.nextOpening, nextOpening := w.nextOpening + 1,
                 held := fd :: w.held } := by
  refine ⟨h.engine, h.fine, h.owner.acquire (r := fd) (a := .rest) (by simp [hfd])
    (fun x => ?_) (fun b x => ?_),
    h.ledger.acquire hfd fun x => OrdMap.find_assign .., ⟨fun x r hx => ?_, h.watched.deletes⟩⟩
  · show ((w.opened.assign fd w.nextOpening).find x).isSome ↔ _
    rw [OrdMap.find_assign]
    by_cases hx : x = fd
    · simp [hx]
    · simp [hx]
  · cases b with
    | object o => simp [Owns]
    | rest => simp [Owns]
  · obtain ⟨k, hk, hopen⟩ := h.watched.watch x r hx
    refine ⟨k, hk, (OrdMap.find_assign_of_ne ?_).trans hopen⟩
    rintro rfl
    rw [hfd] at hopen
    cases hopen

theorem Inv.closes (h : Inv w) {fd : Fd} (hheld : fd ∈ w.held) (hn : ¬ ByNumber w fd) :
    Inv { w.closeNative fd with held := w.held.filter (· ≠ fd) } := by
  obtain ⟨k, hk⟩ := owns_live h (a := .rest) hheld
  have hnone : w.engine.handlers.find fd = none := by
    rw [← Option.not_isSome_iff_eq_none]
    intro hm
    have hby : ByObject w fd := Decidable.byContradiction fun hb => hn ⟨hm, hb⟩
    obtain ⟨o, ho, -⟩ := byObject_iff.mp hby
    cases h.owner.one (.object o) .rest fd ho hheld
  unfold World.closeNative
  rw [hk]
  simp only [interest_erase h.engine hnone]
  refine h.release hk h.engine h.fine.1 (fun x => ?_) (fun a x => ?_) (fun _ _ _ => rfl)
  · split
    · rename_i hx
      rw [hx, hnone]
    · rfl
  · cases a with
    | object o =>
      refine ⟨fun ho => ⟨ho, ?_⟩, And.left⟩
      rintro rfl
      cases h.owner.one (.object o) .rest x ho hheld
    | rest => simp [Owns]

theorem deleteMonitoredFD_handlers {e : EngineImpl.World} {fd x : Fd}
    (hfd : (e.handlers.find fd).isSome) :
    (e.deleteMonitoredFD fd).aborted = e.aborted ∧
      (e.deleteMonitoredFD fd).handlers.find x = if x = fd then none else e.handlers.find x := by
  obtain ⟨hd, hhd⟩ := Option.isSome_iff_exists.mp hfd
  unfold EngineImpl.World.deleteMonitoredFD
  rw [hhd]
  exact ⟨rfl, OrdMap.find_erase ..⟩

/-- `epoll_ctl` does not refuse. -/
theorem Inv.deleteMonitoredFD_eq (h : Inv w) {fd : Fd} (hm : w.monitored fd = true) :
    w.deleteMonitoredFD fd = { w with engine := w.engine.deleteMonitoredFD fd } := by
  unfold World.deleteMonitoredFD
  have hsome : (w.engine.interest.find fd).isSome = true := (h.engine.sync fd).symm.trans hm
  rw [Option.isNone_eq_false_iff.mpr hsome, Bool.and_false, Bool.or_false]

/-- Before the descriptor is closed, its function has taken the handler away. -/
theorem Inv.callAtClose_eq (h : Inv w) {o : Nat} {fd : Fd} (ho : native w.objects o = some fd)
    (hn : ¬ ByNumber w fd) :
    ∃ e, w.callAtClose fd (onClose w.objects o) = { w with engine := e } ∧ EngineImpl.Inv e ∧
      e.aborted = false ∧
      ∀ x, e.handlers.find x = if x = fd then none else w.engine.handlers.find x := by
  by_cases hm : w.monitored fd = true
  · refine ⟨w.engine.deleteMonitoredFD fd, ?_, h.engine.delete fd, ?_,
      fun x => (deleteMonitoredFD_handlers hm).2⟩
    · rw [h.registered ho hn hm]
      exact h.deleteMonitoredFD_eq hm
    · rw [(deleteMonitoredFD_handlers (x := fd) hm).1]
      exact h.fine.1
  · have hcb : onClose w.objects o ≠ some .deleteMonitoredFD :=
      fun hcb => hm (h.watched.deletes o fd ho hcb)
    refine ⟨w.engine, ?_, h.engine, h.fine.1, fun x => ?_⟩
    · unfold World.callAtClose
      split
      · rename_i hcb'
        exact absurd hcb' hcb
      · rfl
      · rfl
    · split
      · rename_i hx
        rw [hx, ← Option.not_isSome_iff_eq_none]
        exact hm
      · rfl

theorem Inv.close (h : Inv w) {o : Nat} (hn : ∀ fd ∈ native w.objects o, ¬ ByNumber w fd) :
    Inv (w.close o) ∧ native (w.close o).objects o = none := by
  unfold World.close
  split
  · rename_i fd cb hfind
    have ho : native w.objects o = some fd := by rw [native, hfind]; rfl
    have hcb : onClose w.objects o = cb := by rw [onClose, hfind]; rfl
    obtain ⟨e, heq, hinv, hfine, hh⟩ := h.callAtClose_eq ho (hn fd ho)
    obtain ⟨k, hk⟩ := owns_live h (a := .object o) ho
    rw [hcb] at heq
    simp only [heq, World.closeNative, hk]
    rw [interest_erase hinv (by rw [hh, if_pos rfl])]
    refine ⟨h.release hk hinv hfine hh (fun a x => ?_) (fun p x hp => ?_), by
      rw [native_assign, if_pos rfl]⟩
    · cases a with
      | object p =>
        simp only [Owns, native_assign]
        by_cases hp : p = o
        · subst hp
          rw [if_pos rfl, ho]
          simp [eq_comm]
        · rw [if_neg hp]
          refine ⟨fun hp' => ⟨hp', ?_⟩, And.left⟩
          rintro rfl
          cases h.owner.one (.object p) (.object o) x hp' ho
          exact hp rfl
      | rest =>
        refine ⟨fun hheld => ⟨hheld, ?_⟩, And.left⟩
        rintro rfl
        cases h.owner.one .rest (.object o) x hheld ho
    · rw [native_assign] at hp
      rw [onClose_assign]
      split at hp
      · cases hp
      · rename_i hne
        rw [if_neg hne]
  · rename_i hno
    refine ⟨h, ?_⟩
    cases hfind : w.objects.find o with
    | none => rw [native, hfind]; rfl
    | some d =>
      obtain ⟨fd, cb⟩ := d
      cases fd with
      | none => rw [native, hfind]; rfl
      | some fd => exact absurd hfind (hno fd cb)

theorem native_move {o p x : Nat} {left : Option AtClose} : native (w.move o p left).objects x =
    if x = p then none else if x = o then native w.objects p else native w.objects x := by
  rw [World.move, native_assign, native_assign]

/-- What `p` had is now of `o`, also if both are the same object: it has nothing then. -/
theorem Inv.owns_move (h : Inv w) {o p : Nat} (ho : native w.objects o = none)
    (left : Option AtClose) (b : Owner) (x : Fd) :
    Owns (w.move o p left).objects w.held b x ↔
      if native w.objects p = some x then b = .object o else
      Owns w.objects w.held b x := by
  cases b with
  | object y =>
    simp only [Owns, native_move, Owner.object.injEq]
    by_cases hyp : y = p
    · subst hyp
      rw [if_pos rfl]
      split
      · rename_i hy
        refine ⟨fun hno => (by cases hno), ?_⟩
        rintro rfl
        rw [ho] at hy
        cases hy
      · rename_i hy
        simp [hy]
    · rw [if_neg hyp]
      by_cases hyo : y = o
      · subst hyo
        simp [ho]
      · rw [if_neg hyo]
        split
        · rename_i hp
          refine ⟨fun hy => ?_, fun hy => absurd hy hyo⟩
          cases h.owner.one (.object y) (.object p) x hy hp
          exact absurd rfl hyp
        · exact Iff.rfl
  | rest =>
    split
    · rename_i hp
      refine ⟨fun hheld => ?_, fun hb => (by cases hb)⟩
      cases h.owner.one .rest (.object p) x hheld hp
    · exact Iff.rfl

/-- An object without a descriptor gets that of another one, which is left without. -/
theorem Inv.move (h : Inv w) {o p : Nat} (ho : native w.objects o = none) (left : Option AtClose) :
    Inv (w.move o p left) := by
  refine h.reown ?_ fun x fd hx hdel => ?_
  · obtain hp | ⟨fd, hp⟩ := Option.eq_none_or_eq_some (native w.objects p)
    · refine h.owner.congr fun a x => ?_
      have hown := h.owns_move (p := p) ho left a x
      rwa [if_neg (by rw [hp]; exact Option.some_ne_none x ∘ Eq.symm)] at hown
    · refine h.owner.handOver (r := fd) (a := .object o) ((h.owner.owner fd).mpr ⟨.object p,
        hp⟩) fun b x => ?_
      have hown := h.owns_move (p := p) ho left b x
      simp only [hp, Option.some.injEq, eq_comm (a := fd)] at hown
      exact hown
  · have hx' : native (w.move o p left).objects x = some fd := hx
    rw [native_move] at hx'
    rw [onClose_assign, onClose_assign] at hdel
    split at hx'
    · cases hx'
    · rename_i hxp
      rw [if_neg hxp] at hdel
      split at hx'
      · rename_i hxo
        rw [if_pos hxo] at hdel
        exact h.watched.deletes p fd hx' hdel
      · rename_i hxo
        rw [if_neg hxo] at hdel
        exact h.watched.deletes x fd hx' hdel

theorem Inv.construct (h : Inv w) {o : Nat} (ho : native w.objects o = none) {fd : Option Fd}
    (hheld : ∀ x ∈ fd, x ∈ w.held) :
    Inv { w with objects := w.objects.assign o ⟨fd, none⟩,
                 held := w.held.filter (some · ≠ fd) } := by
  refine h.reown ?_ fun x y hx hdel => ?_
  · cases fd with
    | none =>
      refine h.owner.congr fun a x => ?_
      cases a with
      | object p =>
        simp only [Owns, native_assign]
        by_cases hp : p = o
        · rw [if_pos hp, hp, ho]
        · rw [if_neg hp]
      | rest => simp [Owns]
    | some fd =>
      have hfd : fd ∈ w.held := hheld fd rfl
      refine h.owner.handOver (r := fd) (a := .object o) ((h.owner.owner fd).mpr ⟨.rest,
        hfd⟩) fun b x => ?_
      cases b with
      | object p =>
        simp only [Owns, native_assign]
        by_cases hp : p = o
        · rw [if_pos hp, hp, ho]
          by_cases hx : x = fd
          · simp [hx]
          · simp [hx, Ne.symm hx]
        · rw [if_neg hp]
          split
          · rename_i hx
            simp only [Owner.object.injEq, hp, iff_false]
            intro hp'
            cases h.owner.one (.object p) .rest x hp' (hx ▸ hfd)
          · exact Iff.rfl
      | rest =>
        by_cases hx : x = fd
        · simp [Owns, hx]
        · simp [Owns, hx]
  · rw [native_assign] at hx
    rw [onClose_assign] at hdel
    split at hx
    · rename_i hxo
      rw [if_pos hxo] at hdel
      cases hdel
    · rename_i hxo
      rw [if_neg hxo] at hdel
      exact h.watched.deletes x y hx hdel

theorem Inv.destroy (h : Inv w) {o : Nat} (ho : native w.objects o = none) :
    Inv { w with objects := w.objects.erase o } := by
  refine h.reown (h.owner.congr fun a x => ?_) fun x fd hx hdel => ?_
  · cases a with
    | object p =>
      simp only [Owns, native_erase]
      by_cases hp : p = o
      · rw [if_pos hp, hp, ho]
      · rw [if_neg hp]
    | rest => exact Iff.rfl
  · rw [native_erase] at hx
    rw [onClose_erase] at hdel
    split at hx
    · cases hx
    · rename_i hxo
      rw [if_neg hxo] at hdel
      exact h.watched.deletes x fd hx hdel

/-- Another function for an object. -/
theorem Inv.setAtClose (h : Inv w) {o : Nat} {cb : Option AtClose}
    (hcb : cb = some .deleteMonitoredFD → ∀ fd ∈ native w.objects o,
      (w.engine.handlers.find fd).isSome) :
    Inv { w with objects := w.objects.assign o ⟨native w.objects o, cb⟩ } := by
  have hnat : ∀ x, native (w.objects.assign o ⟨native w.objects o, cb⟩) x = native w.objects x := by
    intro x
    rw [native_assign]
    split
    · rename_i hx
      rw [hx]
    · rfl
  refine h.reown (h.owner.congr fun a x => ?_) fun x fd hx hdel => ?_
  · cases a with
    | object p => simp only [Owns, hnat]
    | rest => exact Iff.rfl
  · rw [hnat] at hx
    rw [onClose_assign] at hdel
    split at hdel
    · rename_i hxo
      exact hcb hdel fd (hxo ▸ hx)
    · exact h.watched.deletes x fd hx hdel

theorem Inv.add (h : Inv w) {fd : Fd} (events : Nat) (hopen : (w.opened.find fd).isSome)
    (hm : w.monitored fd = false) :
    Inv (w.addMonitoredFD fd events) ∧ (w.addMonitoredFD fd events).objects = w.objects ∧
      ((w.addMonitoredFD fd events).engine.handlers.find fd).isSome := by
  obtain ⟨k, hk⟩ := Option.isSome_iff_exists.mp hopen
  have hnone : w.engine.handlers.find fd = none :=
    Option.isNone_iff_eq_none.mp (Option.isSome_eq_false_iff.mp hm)
  have hint : w.engine.interest.find fd = none := by
    have := h.engine.sync fd
    rw [hnone, Option.isSome_none, eq_comm, Option.isSome_eq_false_iff,
      Option.isNone_iff_eq_none] at this
    exact this
  have hengine : w.engine.addMonitoredFD fd events =
      { w.engine with interest := w.engine.interest.insert fd events
                      handlers := w.engine.handlers.insert fd (some w.engine.nextRegistration)
                      nextRegistration := w.engine.nextRegistration + 1 } := by
    unfold EngineImpl.World.addMonitoredFD
    rw [hnone]
    rfl
  have heq : w.addMonitoredFD fd events = { w with engine := w.engine.addMonitoredFD fd events
                                                   watches := w.watches.assign
                                                     w.engine.nextRegistration k } := by
    unfold World.addMonitoredFD
    rw [hm, hk, hint]
    rfl
  have hh : ∀ x, (w.engine.addMonitoredFD fd events).handlers.find x =
      if x = fd then some (some w.engine.nextRegistration) else w.engine.handlers.find x := by
    intro x
    rw [hengine]
    show (w.engine.handlers.insert fd _).find x = _
    rw [OrdMap.find_insert, hnone]
    rfl
  rw [heq]
  refine ⟨⟨h.engine.add fd events, ⟨?_, h.fine.2⟩, h.owner, h.ledger,
    ⟨fun x r hx => ?_, fun o x ho hdel => ?_⟩⟩, rfl, ?_⟩
  · show (w.engine.addMonitoredFD fd events).aborted = false
    rw [hengine]
    exact h.fine.1
  · have hx' : (w.engine.addMonitoredFD fd events).handlers.find x = some (some r) := hx
    rw [hh] at hx'
    show ∃ j, (w.watches.assign w.engine.nextRegistration k).find r = some j ∧ _
    rw [OrdMap.find_assign]
    split at hx'
    · rename_i hxfd
      cases hx'
      exact ⟨k, if_pos rfl, hxfd ▸ hk⟩
    · -- the numbers of the registrations that there are differ from that of this one
      obtain ⟨r', hr', hlt, -⟩ := h.engine.filled x _ hx'
      cases hr'
      rw [if_neg (Nat.ne_of_lt hlt)]
      exact h.watched.watch x r hx'
  · show ((w.engine.addMonitoredFD fd events).handlers.find x).isSome
    rw [hh]
    split
    · rfl
    · exact h.watched.deletes o x ho hdel
  · show ((w.engine.addMonitoredFD fd events).handlers.find fd).isSome
    rw [hh, if_pos rfl]
    rfl

theorem Inv.modify (h : Inv w) {fd : Fd} {events : Nat} (hm : w.monitored fd = true) :
    Inv (w.modifyMonitoredFD fd events) := by
  have hsome : (w.engine.interest.find fd).isSome = true := (h.engine.sync fd).symm.trans hm
  have hfailed : (w.failed || w.monitored fd && (w.engine.interest.find fd).isNone) = false := by
    rw [Option.isNone_eq_false_iff.mpr hsome, Bool.and_false, Bool.or_false]
    exact h.fine.2
  have hengine : w.engine.modifyMonitoredFD fd events =
      { w.engine with interest := w.engine.interest.assign fd events } := by
    unfold EngineImpl.World.modifyMonitoredFD
    exact if_pos hm
  refine ⟨h.engine.modify fd events, ⟨?_, hfailed⟩, h.owner, h.ledger,
    ⟨fun x r hx => ?_, fun o x ho hdel => ?_⟩⟩
  · show (w.engine.modifyMonitoredFD fd events).aborted = false
    rw [hengine]
    exact h.fine.1
  · refine h.watched.watch x r ?_
    have hx' : (w.engine.modifyMonitoredFD fd events).handlers.find x = some (some r) := hx
    rwa [hengine] at hx'
  · show ((w.engine.modifyMonitoredFD fd events).handlers.find x).isSome
    rw [hengine]
    exact h.watched.deletes o x ho hdel

theorem Inv.delete (h : Inv w) {fd : Fd} (hn : ByNumber w fd) : Inv (w.deleteMonitoredFD fd) := by
  rw [h.deleteMonitoredFD_eq hn.1]
  refine ⟨h.engine.delete fd, ⟨?_, h.fine.2⟩, h.owner, h.ledger,
    ⟨fun x r hx => ?_, fun o x ho hdel => ?_⟩⟩
  · show (w.engine.deleteMonitoredFD fd).aborted = false
    rw [(deleteMonitoredFD_handlers (x := fd) hn.1).1]
    exact h.fine.1
  · refine h.watched.watch x r ?_
    have hx' : (w.engine.deleteMonitoredFD fd).handlers.find x = some (some r) := hx
    rw [(deleteMonitoredFD_handlers hn.1).2] at hx'
    split at hx'
    · cases hx'
    · exact hx'
  · show ((w.engine.deleteMonitoredFD fd).handlers.find x).isSome
    rw [(deleteMonitoredFD_handlers hn.1).2]
    split
    · rename_i hx
      exact absurd (byObject_iff.mpr ⟨o, hx ▸ ho, hdel⟩) hn.2
    · exact h.watched.deletes o x ho hdel

/-- The loop has no empty handlers to insert. -/
theorem turn_handlers {e : EngineImpl.World} {k : Nat} (h : EngineImpl.Inv (e.turn k)) :
    (e.turn k).aborted = e.aborted ∧ ∀ x, (e.turn k).handlers.find x = e.handlers.find x := by
  have hrecord : ∀ call, (e.record k call).aborted = e.aborted ∧
    (e.record k call).handlers = e.handlers := by
    intro call
    unfold EngineImpl.World.record
    split <;> exact ⟨rfl, rfl⟩
  unfold EngineImpl.World.turn at h ⊢
  split at h
  · rename_i fd events hbuf
    refine ⟨(hrecord _).1, fun x => ?_⟩
    have hfilled := h.filled fd
    simp only [EngineImpl.World.callHandler] at hfilled ⊢
    rw [OrdMap.find_insert] at hfilled ⊢
    split
    · rename_i hx
      cases hfd : e.handlers.find fd with
      | none =>
        obtain ⟨r, hr, -⟩ := hfilled none (by rw [if_pos rfl, hfd]; rfl)
        cases hr
      | some hd => rw [hx, hfd]; rfl
    · rfl
  · rw [(hrecord none).2]
    exact ⟨(hrecord none).1, fun x => rfl⟩
  · exact ⟨rfl, fun x => rfl⟩

/-- The kernel and the loop leave the handlers alone. -/
theorem Inv.loop (h : Inv w) {e : EngineImpl.World} (he : EngineImpl.Inv e)
    (ha : e.aborted = w.engine.aborted)
    (hh : ∀ x, e.handlers.find x = w.engine.handlers.find x) : Inv { w with engine := e } := by
  refine ⟨he, ⟨ha.trans h.fine.1, h.fine.2⟩, h.owner, h.ledger,
    ⟨fun x r hx => ?_, fun o x ho hdel => ?_⟩⟩
  · exact h.watched.watch x r ((hh x).symm.trans hx)
  · show (e.handlers.find x).isSome
    rw [hh]
    exact h.watched.deletes o x ho hdel

theorem epollWait_handlers (e : EngineImpl.World) (batch : List (Fd × Nat)) :
    (e.epollWait batch).aborted = e.aborted ∧ (e.epollWait batch).handlers = e.handlers := by
  simp only [EngineImpl.World.epollWait]
  split <;> exact ⟨rfl, rfl⟩

theorem Inv.epollWait (h : Inv w) {batch : List (Fd × Nat)} {e : EngineImpl.World}
    (hst : w.engine.step (.epollWait batch) = some e) : Inv { w with engine := e } := by
  have he := step_inv h.engine hst
  simp only [EngineImpl.World.step] at hst
  split at hst
  · cases hst
    obtain ⟨ha, hh⟩ := epollWait_handlers w.engine batch
    exact h.loop he ha fun x => by rw [hh]
  · cases hst

theorem Inv.turn (h : Inv w) {e : EngineImpl.World} (hst : w.engine.step .turn = some e) :
    Inv { w with engine := e } := by
  have he := step_inv h.engine hst
  simp only [EngineImpl.World.step] at hst
  split at hst
  · cases hst
    exact h.loop he (turn_handlers he).1 (turn_handlers he).2
  · cases hst

end Steps

theorem step_keeps {w w' : World} {e : Event} (h : Inv w) (hc : Contract w e)
    (hst : w.step e = some w') : Inv w' := by
  cases e with
  | opens fd =>
    simp only [World.step] at hst
    split at hst
    · cases hst
    · rename_i hfd
      cases hst
      exact h.opens (Option.not_isSome_iff_eq_none.mp hfd)
  | closes fd =>
    cases hst
    exact h.closes hc.1 hc.2
  | construct o fd =>
    simp only [World.step] at hst
    split at hst
    · cases hst
    · rename_i ho
      cases hst
      refine h.construct (native_none (Bool.not_eq_true _ ▸ ho)) fun x hx => ?_
      cases hx
      exact hc
  | moveConstruct o p left =>
    simp only [World.step] at hst
    split at hst
    · cases hst
    · rename_i ho
      cases hst
      rw [Bool.not_eq_true, Bool.or_eq_false_iff] at ho
      exact h.move (native_none ho.1) left
  | moveAssign o p left =>
    simp only [World.step] at hst
    split at hst
    · cases hst
      obtain ⟨hinv, ho⟩ := h.close hc
      exact hinv.move ho left
    · cases hst
  | atClose o isSet =>
    simp only [World.step] at hst
    split at hst
    · cases hst
      refine h.setAtClose fun hcb => ?_
      split at hcb <;> cases hcb
    · cases hst
  | close o =>
    simp only [World.step] at hst
    split at hst
    · cases hst
      exact (h.close hc).1
    · cases hst
  | destroy o =>
    simp only [World.step] at hst
    split at hst
    · cases hst
      obtain ⟨hinv, ho⟩ := h.close hc
      exact hinv.destroy ho
    · cases hst
  | addObject o events =>
    obtain ⟨fd, ho, hm⟩ := hc
    simp only [World.step, Option.mem_def.mp ho] at hst
    cases hst
    obtain ⟨hinv, hobjects, hsome⟩ := h.add events
      ((h.owner.owner fd).mpr ⟨.object o, Option.mem_def.mp ho⟩) hm
    refine hinv.setAtClose fun _ x hx => ?_
    rw [hobjects, Option.mem_def.mp ho] at hx
    cases hx
    exact hsome
  | op o =>
    cases hst
    cases o with
    | add fd events => exact (h.add events hc.1 hc.2).1
    | modify fd events => exact h.modify hc
    | delete fd => exact h.delete hc
  | epollWait batch =>
    obtain ⟨e, he, rfl⟩ := Option.map_eq_some_iff.mp hst
    exact h.epollWait he
  | turn =>
    obtain ⟨e, he, rfl⟩ := Option.map_eq_some_iff.mp hst
    exact h.turn he

theorem init_inv : Inv sys.init := by
  refine ⟨EngineImpl.reach_inv .init, ⟨rfl, rfl⟩,
    ⟨fun fd => ⟨fun hfd => ?_, ?_⟩, fun a b fd ha _ => ?_⟩,
    ⟨fun k => ⟨fun hk => ?_, ?_⟩, fun k hk => ?_, List.nodup_nil, fun _ _ _ hr => ?_⟩,
      ⟨fun _ _ hr => ?_, fun _ _ ho => ?_⟩⟩
  · cases hfd
  · rintro ⟨a, ha⟩
    cases a with
    | object o => cases ha
    | rest => cases ha
  · cases a with
    | object o => cases ha
    | rest => cases ha
  · exact absurd hk (Nat.not_lt_zero k)
  · rintro (hk | ⟨fd, hfd⟩)
    · cases hk
    · cases hfd
  · cases hk
  · cases hr
  · cases hr
  · cases ho

/-- **Descriptor ownership.** In every run of the engine, the `FileDescriptor` objects and the other
code that keeps to the contract of the headers, with objects moved, closed and destroyed in the
middle of a batch and numbers of descriptors used again, nothing aborts or throws, every open
descriptor has exactly one owner, every opening is still open or was closed once, and a handler is
only ever that of the opening it was registered for. -/
theorem descriptors_owned (w : World) (h : sys.Reach Contract w) : Owned w := by
  have hinv : Inv w := by
    refine Sys.Reach.invariant init_inv (fun w e w' hinv hc hst => ?_) h
    simp only [sys] at hst
    split at hst
    · cases hst
    · split at hst
      · cases hst
      · exact step_keeps hinv hc hst
  refine ⟨hinv.fine, hinv.owner, hinv.ledger, hinv.watched.watch, fun fd => ?_, hinv.engine.turns,
    hinv.engine.right⟩
  rw [OrdMap.mem_elems, OrdMap.mem_elems, hinv.engine.sync]

/-- Two descriptors have an event each. The handler of the first one destroys both objects, one of
them after a move, and the number of the second one is used again. -/
def reuseInBatch : List Event :=
  [.opens 3, .construct 0 (some 3), .addObject 0 1, .opens 4, .construct 1 (some 4), .addObject 1 1,
    .epollWait [(3, 1), (4, 1)], .turn, .moveConstruct 2 1 none, .destroy 1, .moveAssign 2 2 none,
    .destroy 0, .opens 4,
    .construct 3 (some 4), .addObject 3 1, .turn, .turn]

/-- The handler of the new descriptor does not get the event of the old one. -/
theorem reuseInBatch_owned : ∃ w, sys.Reach Contract w ∧
    w.engine.turns.map Turn.call = [some (some 0, 1), none] ∧
    w.closed = [1, 0] ∧ w.opened.toList = [(4, 2)] ∧ Owned w := by
  obtain ⟨w, hw, hv⟩ := Sys.reach_run_map (S := sys) (G := Contract) reuseInBatch
    (fun w => (w.engine.turns.map Turn.call, w.closed, w.opened.toList))
    (b := ([some (some 0, 1), none], [1, 0], [(4, 2)])) (by decide +kernel)
  simp only [Prod.mk.injEq] at hv
  exact ⟨w, hw, hv.1, hv.2.1, hv.2.2, descriptors_owned w hw⟩

end FileDescriptors
end Sdl
