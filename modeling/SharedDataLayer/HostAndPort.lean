import Mathlib.Data.List.TakeWhile
import SharedDataLayer.Basic

/-!
# Addresses (`src/hostandport.cpp`)

`HostAndPort` parses the text of an address with an optional port. `inet_pton` and `getservbyname_r`
belong to the C library; they are given by a `Resolver`. A port is kept in network byte order.
-/

namespace Sdl

abbrev Port := Fin 65536

/-- The functions of the C library that the parser calls, on C strings. -/
structure Resolver where
  /-- `inet_pton(AF_INET6, ..) == 1`. -/
  inetPton6 : Bytes → Bool
  /-- The port of the service, in network byte order. -/
  getservbyname : Bytes → Option Port

/-- What a C function sees of the string. -/
def cStr (s : Bytes) : Bytes := s.takeWhile fun b => b.val ≠ 0

def htons (n : Port) : Port := Fin.ofNat 65536 (n.val % 256 * 256 + n.val / 256)

/-- The exceptions of the constructor. -/
inductive HostAndPortError where
  | emptyPort
  | invalidPort (port : Bytes)
  | emptyHost
  deriving DecidableEq

structure HostAndPort where
  host : Bytes
  port : Port
  literalIPv6 : Bool
  deriving DecidableEq

def isDigit (b : Byte) : Bool := chr '0' ≤ b && b ≤ chr '9'

/-- The value of a string of decimal digits. -/
def decimal (s : Bytes) : Nat := s.foldl (fun n b => 10 * n + (b.val - (chr '0').val)) 0

/-- The digits, if there is one at least and the value fits into 16 bits. -/
def lexicalCastDigits (s : Bytes) : Option Port :=
  if h : s ≠ [] ∧ s.all isDigit ∧ decimal s < 65536 then some ⟨decimal s, h.2.2⟩ else none

/-- `boost::lexical_cast<uint16_t>`. A sign is accepted; a minus takes the value modulo `2^16`. -/
def lexicalCastUint16 (s : Bytes) : Option Port :=
  match s with
  | c :: digits =>
    if c = chr '-' then (lexicalCastDigits digits).map fun n => -n
    else if c = chr '+' then lexicalCastDigits digits
    else lexicalCastDigits s
  | [] => none

def isInBrackets (s : Bytes) : Bool := s.head? = some (chr '[') && s.getLast? = some (chr ']')

def removeBrackets (s : Bytes) : Bytes := (s.drop 1).take (s.length - 2)

/-- `std::string::rfind`. -/
def rfind (s : Bytes) (c : Byte) : Option Nat :=
  (s.reverse.findIdx? (· = c)).map fun i => s.length - 1 - i

section Parse

variable (net : Resolver)

def stringToPort (port : Bytes) : Except HostAndPortError Port :=
  if port = [] then .error .emptyPort
  else
    match lexicalCastUint16 port with
    | some n => .ok (htons n)
    | none =>
      match net.getservbyname (cStr port) with
      | some p => .ok p
      | none => .error (.invalidPort port)

def isLiteralIPv6 (s : Bytes) : Bool := net.inetPton6 (cStr s)

/-- The last check of `parse`. -/
def checkHost (h : HostAndPort) : Except HostAndPortError HostAndPort :=
  if h.host = [] then .error .emptyHost else .ok h

def HostAndPort.parse (addressAndOptionalPort : Bytes) (defaultPort : Port) :
    Except HostAndPortError HostAndPort :=
  match rfind addressAndOptionalPort (chr ':') with
  | none => checkHost ⟨addressAndOptionalPort, defaultPort, false⟩
  | some pos =>
    if isLiteralIPv6 net addressAndOptionalPort then checkHost ⟨addressAndOptionalPort,
      defaultPort, true⟩
    else
      let host := addressAndOptionalPort.take pos
      let host := if isInBrackets host then removeBrackets host else host
      match stringToPort net (addressAndOptionalPort.drop (pos + 1)) with
      | .ok port => checkHost ⟨host, port, isLiteralIPv6 net host⟩
      | .error e => .error e

/-- The constructor. -/
def HostAndPort.new (addressAndOptionalPort : Bytes) (defaultPort : Port) :
    Except HostAndPortError HostAndPort :=
  if isInBrackets addressAndOptionalPort then
    HostAndPort.parse net (removeBrackets addressAndOptionalPort) defaultPort
  else HostAndPort.parse net addressAndOptionalPort defaultPort

end Parse

def ntohs (n : Port) : Port := htons n

/-- An unsigned number as `operator<<` prints it. -/
def decimalText (n : Nat) : Bytes := (Nat.toDigits 10 n).map chr

def HostAndPort.getString (h : HostAndPort) : Bytes :=
  if h.literalIPv6 then (chr '[' :: h.host ++ [chr ']']) ++ chr ':' :: decimalText (ntohs h.port)
  else h.host ++ chr ':' :: decimalText (ntohs h.port)

/-- `operator==`: the host and the port, in network byte order. -/
def HostAndPort.equals (h hp : HostAndPort) : Bool := h.port == hp.port && h.host == hp.host

/-! ## What the parser makes of an address -/

section Lemmas

theorem htons_htons (n : Port) : htons (htons n) = n := by
  apply Fin.ext
  have hn := n.isLt
  -- The two bytes, which the swap exchanges.
  have hswap : (htons n).val = n.val % 256 * 256 + n.val / 256 := by
    simp only [htons, Fin.ofNat]
    omega
  have hback : (htons (htons n)).val = (htons n).val % 256 * 256 + (htons n).val / 256 := by
    simp only [htons, Fin.ofNat]
    omega
  rw [hback, hswap]
  omega

theorem htons_inj {m n : Port} : htons m = htons n ↔ m = n := by
  refine ⟨fun h => ?_, fun h => by rw [h]⟩
  rw [← htons_htons m, h, htons_htons]

theorem cStr_eq {s : Bytes} (h : ∀ b ∈ s, b.val ≠ 0) : cStr s = s := by
  refine List.takeWhile_eq_self_iff.mpr fun b hb => ?_
  exact decide_eq_true (h b hb)

theorem rfind_eq_none {s : Bytes} {c : Byte} : rfind s c = none ↔ c ∉ s := by
  simp only [rfind, Option.map_eq_none_iff, List.findIdx?_eq_none_iff, List.mem_reverse,
    decide_eq_false_iff_not]
  exact ⟨fun h hc => h c hc rfl, fun h x hx he => h (he ▸ hx)⟩

/-- The last `c` stands before a text without `c`. -/
theorem rfind_append {h p : Bytes} {c : Byte} (hp : c ∉ p) :
    rfind (h ++ c :: p) c = some h.length := by
  have hnone : p.reverse.findIdx? (· = c) = none := by
    rw [List.findIdx?_eq_none_iff]
    intro x hx
    exact decide_eq_false fun he => hp (he ▸ List.mem_reverse.mp hx)
  have hrev : (h ++ c :: p).reverse = p.reverse ++ c :: h.reverse := by simp
  rw [rfind, hrev, List.findIdx?_append, hnone]
  simp only [List.findIdx?_cons, decide_true, if_true, Option.map_some, Option.none_or,
    List.length_append, List.length_cons, List.length_reverse]
  congr 1
  omega

theorem rfind_lt {s : Bytes} {c : Byte} {pos : Nat} (h : rfind s c = some pos) :
    pos < s.length := by
  have hmem : c ∈ s := by
    by_contra hc
    rw [rfind_eq_none.mpr hc] at h
    cases h
  have hlen := List.length_pos_of_mem hmem
  obtain ⟨i, -, rfl⟩ := Option.map_eq_some_iff.mp h
  omega

theorem isDigit_ne {b c : Byte} (h : isDigit b = true) (hc : c.val < 48 ∨ 57 < c.val) : b ≠ c := by
  rintro rfl
  simp only [isDigit, Bool.and_eq_true, decide_eq_true_eq] at h
  have h₁ : 48 ≤ b.val := h.1
  have h₂ : b.val ≤ 57 := h.2
  omega

theorem lexicalCastDigits_eq_some {s : Bytes} {v : Port} (h : lexicalCastDigits s = some v) :
    s ≠ [] ∧ ∀ b ∈ s, isDigit b = true := by
  unfold lexicalCastDigits at h
  split at h
  · rename_i hs
    exact ⟨hs.1, List.all_eq_true.mp hs.2.1⟩
  · cases h

/-- Digits have no sign. -/
theorem lexicalCastUint16_digits {s : Bytes} {v : Port} (h : lexicalCastDigits s = some v) :
    lexicalCastUint16 s = some v := by
  obtain ⟨hne, hd⟩ := lexicalCastDigits_eq_some h
  cases s with
  | nil => exact absurd rfl hne
  | cons c digits =>
    have hc := hd c List.mem_cons_self
    simp only [lexicalCastUint16]
    rw [if_neg (isDigit_ne hc (by decide)), if_neg (isDigit_ne hc (by decide))]
    exact h

variable {net : Resolver}

theorem stringToPort_digits {s : Bytes} {v : Port} (h : lexicalCastDigits s = some v) :
    stringToPort net s = .ok (htons v) := by
  unfold stringToPort
  rw [if_neg (lexicalCastDigits_eq_some h).1, lexicalCastUint16_digits h]

theorem isInBrackets_eq_false {s : Bytes} (h : chr '[' ∉ s) : isInBrackets s = false := by
  cases s with
  | nil => rfl
  | cons b s =>
    have hb : b ≠ chr '[' := fun he => h (he ▸ List.mem_cons_self)
    simp [isInBrackets, hb]

theorem isInBrackets_brackets (h : Bytes) : isInBrackets (chr '[' :: h ++ [chr ']']) = true := by
  unfold isInBrackets
  rw [List.getLast?_concat]
  simp

theorem removeBrackets_brackets (h : Bytes) : removeBrackets (chr '[' :: h ++ [chr ']']) = h := by
  simp [removeBrackets]

theorem length_removeBrackets_le (s : Bytes) : (removeBrackets s).length ≤ s.length := by
  rw [removeBrackets, List.length_take, List.length_drop]
  omega

theorem length_removeBrackets_lt {s : Bytes} (h : isInBrackets s = true) :
    (removeBrackets s).length < s.length := by
  cases s with
  | nil => cases h
  | cons b s =>
    rw [removeBrackets, List.length_take, List.length_cons]
    omega

namespace HostAndPort

/-- A host without a port. -/
theorem new_name {h : Bytes} (defaultPort : Port) (hne : h ≠ []) (hc : chr ':' ∉ h)
    (hb : isInBrackets h = false) :
    HostAndPort.new net h defaultPort = .ok ⟨h, defaultPort, false⟩ := by
  unfold HostAndPort.new HostAndPort.parse
  rw [hb, rfind_eq_none.mpr hc]
  simp [checkHost, hne]

theorem parse_literal {h : Bytes} (defaultPort : Port) (hc : chr ':' ∈ h)
    (hl : isLiteralIPv6 net h = true) :
    HostAndPort.parse net h defaultPort = .ok ⟨h, defaultPort, true⟩ := by
  have hne : h ≠ [] := List.ne_nil_of_mem hc
  unfold HostAndPort.parse
  cases hr : rfind h (chr ':') with
  | none => exact absurd hc (rfind_eq_none.mp hr)
  | some pos => simp [hl, checkHost, hne]

/-- An IPv6 literal without a port. -/
theorem new_literal {h : Bytes} (defaultPort : Port) (hc : chr ':' ∈ h)
    (hl : isLiteralIPv6 net h = true)
    (hb : isInBrackets h = false) : HostAndPort.new net h defaultPort = .ok ⟨h,
      defaultPort, true⟩ := by
  unfold HostAndPort.new
  rw [hb]
  exact parse_literal defaultPort hc hl

/-- The text in the brackets is parsed instead. -/
theorem new_bracketed (h : Bytes) (defaultPort : Port) :
    HostAndPort.new net (chr '[' :: h ++ [chr ']']) defaultPort =
      HostAndPort.parse net h defaultPort := by
  unfold HostAndPort.new
  rw [isInBrackets_brackets, if_pos rfl, removeBrackets_brackets]

/-- A host with a decimal port, if both together are no IPv6 literal. -/
theorem new_port {x p : Bytes} {v : Port} (defaultPort : Port) (hp : lexicalCastDigits p = some v)
    (hl : isLiteralIPv6 net (x ++ chr ':' :: p) = false)
    (hne : (if isInBrackets x then removeBrackets x else x) ≠ []) :
    HostAndPort.new net (x ++ chr ':' :: p) defaultPort =
      .ok ⟨if isInBrackets x then removeBrackets x else x, htons v,
        isLiteralIPv6 net (if isInBrackets x then removeBrackets x else x)⟩ := by
  obtain ⟨hpne, hd⟩ := lexicalCastDigits_eq_some hp
  have hcolon : chr ':' ∉ p := fun hm => isDigit_ne (hd _ hm) (by decide) rfl
  have hb : isInBrackets (x ++ chr ':' :: p) = false := by
    have hlast : (x ++ chr ':' :: p).getLast? ≠ some (chr ']') := by
      intro he
      rw [List.getLast?_append_of_ne_nil _ (by simp)] at he
      cases p with
      | nil => exact absurd rfl hpne
      | cons b p =>
        rw [List.getLast?_cons_cons] at he
        exact isDigit_ne (hd _ (List.mem_of_getLast? he)) (by decide) rfl
    unfold isInBrackets
    rw [decide_eq_false hlast, Bool.and_false]
  have hdrop : (x ++ chr ':' :: p).drop (x.length + 1) = p := by
    rw [← List.drop_drop, List.drop_left]
    rfl
  unfold HostAndPort.new HostAndPort.parse
  rw [hb, rfind_append hcolon]
  simp only [Bool.false_eq_true, if_false, hl, hdrop, List.take_left, stringToPort_digits hp,
    checkHost, if_neg hne]

/-- Either the text is the host, or the host is a part of it. -/
theorem parse_ok {s : Bytes} {p : Port} {a : HostAndPort} (h : HostAndPort.parse net s p = .ok a) :
    a.host ≠ [] ∧ (a.host.length < s.length ∨
      a.host = s ∧ a.port = p ∧ (chr ':' ∈ s → isLiteralIPv6 net s = true)) := by
  have hcheck : ∀ b : HostAndPort, checkHost b = .ok a → a.host ≠ [] ∧ a = b := by
    intro b hb
    unfold checkHost at hb
    split at hb
    · cases hb
    · rename_i hne
      cases hb
      exact ⟨hne, rfl⟩
  unfold HostAndPort.parse at h
  cases hr : rfind s (chr ':') with
  | none =>
    rw [hr] at h
    obtain ⟨hne, rfl⟩ := hcheck _ h
    exact ⟨hne, .inr ⟨rfl, rfl, fun hc => absurd hc (rfind_eq_none.mp hr)⟩⟩
  | some pos =>
    rw [hr] at h
    by_cases hl : isLiteralIPv6 net s = true
    · simp only [hl, if_true] at h
      obtain ⟨hne, rfl⟩ := hcheck _ h
      exact ⟨hne, .inr ⟨rfl, rfl, fun _ => hl⟩⟩
    · simp only [hl] at h
      generalize stringToPort net (s.drop (pos + 1)) = port at h
      cases port with
      | error e => cases h
      | ok port =>
        obtain ⟨hne, rfl⟩ := hcheck _ h
        refine ⟨hne, .inl ?_⟩
        have hpos := rfind_lt hr
        have hlen : (s.take pos).length < s.length := by
          rw [List.length_take]
          omega
        show (if isInBrackets (s.take pos) then removeBrackets (s.take pos)
          else s.take pos).length < s.length
        split
        · have := length_removeBrackets_le (s.take pos)
          omega
        · exact hlen

theorem new_host_ne_nil {s : Bytes} {p : Port} {a : HostAndPort}
    (h : HostAndPort.new net s p = .ok a) :
    a.host ≠ [] := by
  unfold HostAndPort.new at h
  split at h
  · exact (parse_ok h).1
  · exact (parse_ok h).1

/-- The default port does not decide whether a text is parsed. -/
theorem new_ok_port {s : Bytes} {p : Port} (p' : Port) (h : ∃ a, HostAndPort.new net s p = .ok a) :
    ∃ a, HostAndPort.new net s p' = .ok a := by
  have hparse : ∀ t, (∃ a, HostAndPort.parse net t p = .ok a) →
    ∃ a, HostAndPort.parse net t p' = .ok a := by
    intro t
    rintro ⟨a, ha⟩
    unfold HostAndPort.parse checkHost at ha ⊢
    by_cases ht : t = []
    · rw [ht] at ha
      cases ha
    cases hr : rfind t (chr ':') with
    | none => exact ⟨_, by rw [if_neg ht]⟩
    | some pos =>
      rw [hr] at ha
      by_cases hl : isLiteralIPv6 net t = true
      · exact ⟨_, by simp only [hl, if_true]; rw [if_neg ht]⟩
      · simp only [hl] at ha ⊢
        exact ⟨a, ha⟩
  unfold HostAndPort.new at h ⊢
  by_cases hb : isInBrackets s = true
  · simp only [hb, if_true] at h ⊢
    exact hparse _ h
  · simp only [hb] at h ⊢
    exact hparse _ h

/-- A host is parsed to itself exactly if it has no brackets, and no colons but those of an IPv6
address. -/
theorem new_self_iff {s : Bytes} {p p' : Port} (hne : s ≠ []) :
    (∃ a, HostAndPort.new net s p = .ok a ∧ a.host = s ∧ a.port = p') ↔
      (isInBrackets s = false ∧ (chr ':' ∈ s → isLiteralIPv6 net s = true)) ∧ p = p' := by
  constructor
  · rintro ⟨a, hn, hhost, hport⟩
    unfold HostAndPort.new at hn
    cases hb : isInBrackets s with
    | true =>
      rw [hb, if_pos rfl] at hn
      have hlt := length_removeBrackets_lt hb
      rcases (parse_ok hn).2 with h | ⟨h, -, -⟩
      · rw [hhost] at h
        omega
      · rw [← h, hhost] at hlt
        omega
    | false =>
      rw [hb, if_neg Bool.false_ne_true] at hn
      rcases (parse_ok hn).2 with h | ⟨-, hp, hl⟩
      · rw [hhost] at h
        omega
      · exact ⟨⟨rfl, hl⟩, hp.symm.trans hport⟩
  · rintro ⟨⟨hb, hl⟩, rfl⟩
    by_cases hc : chr ':' ∈ s
    · exact ⟨_, new_literal p hc (hl hc) hb, rfl, rfl⟩
    · exact ⟨_, new_name p hne hc hb, rfl, rfl⟩

end HostAndPort

end Lemmas

end Sdl
