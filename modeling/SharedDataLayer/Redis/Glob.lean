import SharedDataLayer.Basic
import SharedDataLayer.Spec.Glob

/-!
# The glob patterns of `KEYS`

The documented syntax (the comment of `AsyncStorage::listKeys` repeats it): `*` matches any string,
`?` any byte, `[ae]` one of the bytes, `[^e]` any other byte, `[a-b]` a range, and `\x` the byte `x`
itself. The pattern is read byte by byte; `Mode` is what has been read of the token that is not yet
complete. A class that is not closed ends with the pattern, and a final `\` is a literal.

* `toks_literal`: bytes that are not special are literals.
* `length_toks_le`: a pattern has no more tokens than bytes.
* `toks_append`: a pattern is read from left to right.
-/

namespace Sdl
namespace Redis

open Spec.Glob

/-- A set of bytes. -/
abbrev ByteClass := Byte → Bool

/-- The part of a token that has been read. `cls` is inside a class that holds the bytes `p` and is
negated if `neg`; `clsItem` has also read `a`, which may start a range. -/
inductive Mode where
  | normal
  | escaped
  | opened
  | cls (neg : Bool) (p : ByteClass)
  | clsEscaped (neg : Bool) (p : ByteClass)
  | clsItem (neg : Bool) (p : ByteClass) (a : Byte)
  | clsRange (neg : Bool) (p : ByteClass) (a : Byte)

def Mode.isNormal : Mode → Bool
  | .normal => true
  | _ => false

/-- `p` and the byte `a`. -/
def ByteClass.add (p : ByteClass) (a : Byte) : ByteClass := fun b => p b || b == a

/-- `p` and the bytes between `a` and `c`, in either order. -/
def ByteClass.addRange (p : ByteClass) (a c : Byte) : ByteClass := fun b =>
  p b || (decide (min a c ≤ b) && decide (b ≤ max a c))

/-- The token of a class. -/
def classTok (neg : Bool) (p : ByteClass) : Tok Byte := .one fun b => p b != neg

/-- The next byte where an item of a class may start. -/
def clsStep (neg : Bool) (p : ByteClass) (c : Byte) : Mode × Option (Tok Byte) :=
  if c = chr ']' then (.normal, some (classTok neg p))
  else if c = chr '\\' then (.clsEscaped neg p, none)
  else (.clsItem neg p c, none)

/-- The next byte: the mode after it, and the token that it completes. -/
def Mode.step : Mode → Byte → Mode × Option (Tok Byte)
  | .normal, c =>
    if c = chr '*' then (.normal, some .star)
    else if c = chr '?' then (.normal, some (.one fun _ => true))
    else if c = chr '[' then (.opened, none)
    else if c = chr '\\' then (.escaped, none)
    else (.normal, some (lit c))
  | .escaped, c => (.normal, some (lit c))
  | .opened, c => if c = chr '^' then (.cls true fun _ => false, none)
    else clsStep false (fun _ => false) c
  | .cls neg p, c => clsStep neg p c
  | .clsEscaped neg p, c => (.cls neg (p.add c), none)
  | .clsItem neg p a, c => if c = chr '-' then (.clsRange neg p a, none)
    else clsStep neg (p.add a) c
  | .clsRange neg p a, c => (.cls neg (p.addRange a c), none)

/-- The token that the end of the pattern completes. -/
def Mode.flush : Mode → Option (Tok Byte)
  | .normal => none
  | .escaped => some (lit (chr '\\'))
  | .opened => some (classTok false fun _ => false)
  | .cls neg p => some (classTok neg p)
  | .clsEscaped neg p => some (classTok neg (p.add (chr '\\')))
  | .clsItem neg p a => some (classTok neg (p.add a))
  | .clsRange neg p a => some (classTok neg ((p.add a).add (chr '-')))

/-- The tokens of the rest of a pattern. -/
def toks : Mode → Bytes → List (Tok Byte)
  | m, [] => m.flush.toList
  | m, c :: s => (m.step c).2.toList ++ toks (m.step c).1 s

/-- `KEYS` with this pattern returns the key. -/
def globMatches (pattern key : Bytes) : Bool := matchesToks (toks .normal pattern) key

-- The patterns of the comment of `listKeys`.
example : ["hello", "hallo", "hxllo"].all (fun k => globMatches (str "h?llo") (str k)) = true := by
  decide
example : ["hllo", "heeeello"].all (fun k => globMatches (str "h*llo") (str k)) = true := by decide
example : globMatches (str "h[ae]llo") (str "hallo") = true ∧
    globMatches (str "h[ae]llo") (str "hillo") = false := by decide
example : globMatches (str "h[^e]llo") (str "hbllo") = true ∧
    globMatches (str "h[^e]llo") (str "hello") = false := by decide
example : globMatches (str "h[a-b]llo") (str "hbllo") = true := by decide
example : globMatches (str "h\\[?llo\\*") (str "h[ello*") = true := by decide

/-! ## Reading a pattern from left to right -/

/-- The tokens that a part of a pattern completes, and the mode after it. -/
def read : Mode → Bytes → List (Tok Byte) × Mode
  | m, [] => ([], m)
  | m, c :: s => ((m.step c).2.toList ++ (read (m.step c).1 s).1, (read (m.step c).1 s).2)

theorem toks_append (m : Mode) (s t : Bytes) :
    toks m (s ++ t) = (read m s).1 ++ toks (read m s).2 t := by
  induction s generalizing m with
  | nil => rfl
  | cons c s ih => simp [toks, read, ih]

/-- A byte that starts something other than a literal. -/
def isSpecial (c : Byte) : Bool :=
  c == chr '*' || c == chr '?' || c == chr '[' || c == chr '\\'

theorem step_literal {c : Byte} (h : isSpecial c = false) :
    Mode.normal.step c = (.normal, some (lit c)) := by
  simp only [isSpecial, Bool.or_eq_false_iff, beq_eq_false_iff_ne] at h
  obtain ⟨⟨⟨h1, h2⟩, h3⟩, h4⟩ := h
  simp [Mode.step, h1, h2, h3, h4]

/-- Bytes that are not special are literals. -/
theorem toks_literal {l : Bytes} (h : ∀ c ∈ l, isSpecial c = false) (t : Bytes) :
    toks .normal (l ++ t) = l.map lit ++ toks .normal t := by
  induction l with
  | nil => rfl
  | cons c l ih =>
    have hc := step_literal (h c (by simp))
    have hl := ih fun x hx => h x (by simp [hx])
    simp [toks, hc, hl]

/-- A backslash makes the byte after it a literal. -/
theorem toks_escaped (c : Byte) (t : Bytes) :
    toks .normal (chr '\\' :: c :: t) = lit c :: toks .normal t := rfl

/-- After the last byte of a token nothing is left incomplete. -/
theorem step_some_normal {m : Mode} {c : Byte} {t : Tok Byte} (h : (m.step c).2 = some t) :
    (m.step c).1 = .normal := by
  cases m <;> simp only [Mode.step, clsStep] at h ⊢ <;> grind

/-- A pattern has no more tokens than bytes; an incomplete token may add one at its end. -/
theorem length_toks_le (m : Mode) (s : Bytes) :
    (toks m s).length ≤ max s.length (if m.isNormal then 0 else 1) := by
  induction s generalizing m with
  | nil => cases m <;> simp [toks, Mode.flush, Mode.isNormal]
  | cons c s ih =>
    have hs := ih (m.step c).1
    rw [toks, List.length_append, List.length_cons]
    cases ht : (m.step c).2 with
    | none =>
      simp only [Option.toList_none, List.length_nil]
      split at hs <;> omega
    | some t =>
      rw [step_some_normal ht] at hs
      simp only [Mode.isNormal, if_true] at hs
      rw [step_some_normal ht]
      simp only [Option.toList_some, List.length_singleton]
      omega

end Redis
end Sdl
