import SharedDataLayer.Config.Addresses

/-!
# The syntax of an address

What `HostAndPort` makes of each form of an address, of the text that `getString` prints, and of a
text without a host or without a port. A port in the text is a number, and `getPort` gives it in
network byte order; the default port is in that order already. The text is tried as an IPv6 address
up to its first NUL only.

* `lexicalCastDigits_decimalText`: a printed port is read back.
* `Address.parses`, `Address.reads_back`: every form of an address, and its round trip.
* `EmptyHostPart.rejected`: no address has an empty host.
* `addressSyntax_iff`: which texts are treated as they should be.
-/

namespace Sdl

open Config

/-- A host name or an IPv4 address. -/
structure HostName (h : Bytes) : Prop where
  nonempty : h ≠ []
  noColon : chr ':' ∉ h
  noBrackets : chr '[' ∉ h ∧ chr ']' ∉ h

def inBrackets (s : Bytes) : Bytes := chr '[' :: s ++ [chr ']']

def withPort (s : Bytes) (n : DecimalPort) : Bytes := s ++ chr ':' :: n.text

/-- The forms of an address: its text, its host and its port. -/
inductive Address (net : Resolver) (defaultPort : Port) : Bytes → Bytes → Port → Prop
  | name {h} (hn : HostName h) : Address net defaultPort h h defaultPort
  | nameInBrackets {h} (hn : HostName h) : Address net defaultPort (inBrackets h) h defaultPort
  | nameWithPort {h} (hn : HostName h) (n : DecimalPort) :
    Address net defaultPort (withPort h n) h (htons n.value)
  | nameInBracketsWithPort {h} (hn : HostName h) (n : DecimalPort) :
    Address net defaultPort (withPort (inBrackets h) n) h (htons n.value)
  | literal {a} (ha : net.inetPton6 a = true) : Address net defaultPort a a defaultPort
  | literalInBrackets {a} (ha : net.inetPton6 a = true) : Address net defaultPort
    (inBrackets a) a defaultPort
  | literalInBracketsWithPort {a} (ha : net.inetPton6 a = true) (n : DecimalPort) :
    Address net defaultPort (withPort (inBrackets a) n) a (htons n.value)

/-- Nothing, a port without a host, or empty brackets with a port. -/
inductive EmptyHost : Bytes → Prop
  | nothing : EmptyHost []
  | port {p : Bytes} (hp : chr ':' ∉ p) : EmptyHost (chr ':' :: p)
  | bracketsWithPort {p : Bytes} (hp : chr ':' ∉ p) : EmptyHost (inBrackets [] ++ chr ':' :: p)

/-- A text whose host part is empty. If the text is in brackets, what is in them is the address: the
host of `[]:80]` is not empty. -/
inductive EmptyHostPart : Bytes → Prop
  | plain {t : Bytes} (h : EmptyHost t) (hb : isInBrackets t = false) : EmptyHostPart t
  | bracketed {t : Bytes} (h : EmptyHost t) : EmptyHostPart (inBrackets t)

def Rejected (net : Resolver) (t : Bytes) : Prop :=
  ∀ defaultPort, ∃ e, HostAndPort.new net t defaultPort = .error e

/-- The address is parsed to the host and the port, and what is printed of it is parsed to the
same. -/
def Parses (net : Resolver) (t : Bytes) (defaultPort : Port) (host : Bytes) (port : Port) : Prop :=
  ∃ hp, HostAndPort.new net t defaultPort = .ok hp ∧ hp.host = host ∧ hp.port = port ∧
    ∀ otherPort, ∃ hp', HostAndPort.new net hp.getString otherPort = .ok hp' ∧ hp'.equals hp = true

/-- What the constructor should do with the text. -/
structure AddressSyntax (net : Resolver) (t : Bytes) : Prop where
  address : ∀ defaultPort host port, Address net defaultPort t host port →
    Parses net t defaultPort host port
  emptyHost : EmptyHostPart t → Rejected net t
  emptyPort : t.getLast? = some (chr ':') → net.inetPton6 t = false → Rejected net t

/-- The text ends in a colon, and is an IPv6 address up to a NUL in it. -/
def CutLiteral (net : Resolver) (t : Bytes) : Prop :=
  t.getLast? = some (chr ':') ∧ (∃ b ∈ t, b.val = 0) ∧ net.inetPton6 (cStr t) = true

/-! ## A printed port -/

section Decimal

theorem chr_val {c : Char} (hc : c.isDigit = true) : (chr c).val = c.toNat ∧
    isDigit (chr c) = true := by
  simp only [Char.isDigit, Bool.and_eq_true, decide_eq_true_eq] at hc
  have h₁ : 48 ≤ c.toNat := hc.1
  have h₂ : c.toNat ≤ 57 := hc.2
  have hval : (chr c).val = c.toNat := Nat.mod_eq_of_lt (by omega)
  refine ⟨hval, ?_⟩
  simp only [isDigit, Bool.and_eq_true, decide_eq_true_eq, Fin.le_def, hval]
  exact ⟨h₁, h₂⟩

theorem decimal_map {l : List Char} (hl : ∀ c ∈ l, c.isDigit = true) :
    decimal (l.map chr) = Nat.ofDigitChars 10 l 0 := by
  rw [decimal, Nat.ofDigitChars_eq_foldl, List.foldl_map]
  generalize 0 = n
  induction l generalizing n with
  | nil => rfl
  | cons c l ih =>
    rw [List.foldl_cons, List.foldl_cons, (chr_val (hl c List.mem_cons_self)).1]
    exact ih (fun c hc => hl c (List.mem_cons_of_mem _ hc)) _

theorem lexicalCastDigits_decimalText (n : Port) : lexicalCastDigits (decimalText n) = some n := by
  have hdigits : ∀ c ∈ Nat.toDigits 10 n, c.isDigit = true := fun c hc =>
    Nat.isDigit_of_mem_toDigits (by decide) (by decide) hc
  have hval : decimal (decimalText n) = n :=
    (decimal_map hdigits).trans Nat.ofDigitChars_ten_toDigits
  have hne : decimalText n ≠ [] := fun he => Nat.toDigits_ne_nil (List.map_eq_nil_iff.mp he)
  have hall : (decimalText n).all isDigit = true := by
    rw [List.all_eq_true]
    intro b hb
    obtain ⟨c, hc, rfl⟩ := List.mem_map.mp hb
    exact (chr_val (hdigits c hc)).2
  unfold lexicalCastDigits
  rw [dif_pos ⟨hne, hall, by rw [hval]; exact n.isLt⟩]
  exact congrArg some (Fin.ext hval)

/-- What `getString` prints of a port. -/
def printedPort (p : Port) : DecimalPort :=
  ⟨decimalText (ntohs p), ntohs p, lexicalCastDigits_decimalText _⟩

end Decimal

/-! ## Texts that are no IPv6 address -/

section Literal

variable {net : Resolver}

/-- A text with one colon, whatever is before its first NUL. -/
theorem isLiteralIPv6_count (hnet : StandardIPv6 net) {s : Bytes} (h : s.count (chr ':') ≤ 1) :
    isLiteralIPv6 net s = false := by
  by_contra hl
  have hl : net.inetPton6 (cStr s) = true := by simpa [isLiteralIPv6] using hl
  have hcolons := hnet.colons _ hl
  have hcount : (cStr s).count (chr ':') ≤ s.count (chr ':') :=
    (List.takeWhile_sublist _).count_le _
  omega

theorem isLiteralIPv6_bracket (hnet : StandardIPv6 net) (s : Bytes) :
    isLiteralIPv6 net (chr '[' :: s) = false := by
  by_contra hl
  have hl : net.inetPton6 (cStr (chr '[' :: s)) = true := by simpa [isLiteralIPv6] using hl
  have hmem : chr '[' ∈ cStr (chr '[' :: s) := by
    rw [cStr, List.takeWhile_cons_of_pos (by decide)]
    exact List.mem_cons_self
  exact (hnet.chars _ hl _ hmem).2.1 rfl

theorem decimalPort_no_colon (n : DecimalPort) : chr ':' ∉ n.text := fun hm =>
  isDigit_ne ((lexicalCastDigits_eq_some n.valid).2 _ hm) (by decide) rfl

theorem count_withPort {h p : Bytes} (hh : chr ':' ∉ h) (hp : chr ':' ∉ p) :
    (h ++ chr ':' :: p).count (chr ':') = 1 := by
  rw [List.count_append, List.count_cons_self, List.count_eq_zero.mpr hh, List.count_eq_zero.mpr hp]

end Literal

/-! ## The forms of an address -/

section Forms

variable {net : Resolver}

theorem isInBrackets_name {h : Bytes} (hn : HostName h) : isInBrackets h = false :=
  isInBrackets_eq_false hn.noBrackets.1

theorem isLiteralIPv6_name (hnet : StandardIPv6 net) {h : Bytes} (hn : HostName h) :
    isLiteralIPv6 net h = false := by
  apply isLiteralIPv6_count hnet
  rw [List.count_eq_zero.mpr hn.noColon]
  exact Nat.zero_le 1

theorem new_withPort (hnet : StandardIPv6 net) {h : Bytes} (hn : HostName h) (n : DecimalPort)
    (defaultPort : Port) :
    HostAndPort.new net (withPort h n) defaultPort = .ok ⟨h, htons n.value, false⟩ := by
  have hl : isLiteralIPv6 net (h ++ chr ':' :: n.text) = false :=
    isLiteralIPv6_count hnet (Nat.le_of_eq (count_withPort hn.noColon (decimalPort_no_colon n)))
  have hhost : (if isInBrackets h then removeBrackets h else h) = h := by
    rw [isInBrackets_name hn]
    rfl
  have hnew := HostAndPort.new_port defaultPort n.valid hl (by rw [hhost]; exact hn.nonempty)
  rw [hhost, isLiteralIPv6_name hnet hn] at hnew
  exact hnew

/-- In brackets with a port, a name or an IPv6 address. -/
theorem new_inBrackets_withPort (hnet : StandardIPv6 net) {h : Bytes} (hne : h ≠ [])
    (n : DecimalPort)
    (defaultPort : Port) : HostAndPort.new net (withPort (inBrackets h) n) defaultPort =
      .ok ⟨h, htons n.value, isLiteralIPv6 net h⟩ := by
  have hl : isLiteralIPv6 net (inBrackets h ++ chr ':' :: n.text) = false :=
    isLiteralIPv6_bracket hnet _
  have hhost : (if isInBrackets (inBrackets h) then removeBrackets (inBrackets h)
    else inBrackets h) = h := by
    rw [inBrackets, isInBrackets_brackets, if_pos rfl, removeBrackets_brackets]
  have hnew := HostAndPort.new_port defaultPort n.valid hl (by rw [hhost]; exact hne)
  rw [hhost] at hnew
  exact hnew

theorem literal_ne_nil (hnet : StandardIPv6 net) {a : Bytes}
    (ha : net.inetPton6 a = true) : a ≠ [] :=
  List.ne_nil_of_mem (literal_facts hnet ha).2.1

/-- The value that is made of an address. -/
theorem Address.parses (hnet : StandardIPv6 net) {t host : Bytes} {defaultPort port : Port}
    (h : Address net defaultPort t host port) :
    HostAndPort.new net t defaultPort = .ok ⟨host, port, isLiteralIPv6 net host⟩ ∧
      (HostName host ∨ net.inetPton6 host = true) := by
  cases h with
  | name hn =>
    rw [isLiteralIPv6_name hnet hn]
    exact ⟨HostAndPort.new_name _ hn.nonempty hn.noColon (isInBrackets_name hn), .inl hn⟩
  | nameInBrackets hn =>
    rw [isLiteralIPv6_name hnet hn]
    have hparse := @HostAndPort.new_name net _ defaultPort hn.nonempty hn.noColon
      (isInBrackets_name hn)
    unfold HostAndPort.new at hparse
    rw [isInBrackets_name hn] at hparse
    exact ⟨(HostAndPort.new_bracketed host defaultPort).trans hparse, .inl hn⟩
  | nameWithPort hn n =>
    rw [isLiteralIPv6_name hnet hn]
    exact ⟨new_withPort hnet hn n _, .inl hn⟩
  | nameInBracketsWithPort hn n => exact ⟨new_inBrackets_withPort hnet hn.nonempty n _, .inl hn⟩
  | literal ha =>
    obtain ⟨hl, hc, hb⟩ := literal_facts hnet ha
    rw [hl]
    exact ⟨HostAndPort.new_literal _ hc hl hb, .inr ha⟩
  | literalInBrackets ha =>
    obtain ⟨hl, hc, -⟩ := literal_facts hnet ha
    rw [hl]
    exact ⟨(HostAndPort.new_bracketed host defaultPort).trans (HostAndPort.parse_literal _ hc hl),
      .inr ha⟩
  | literalInBracketsWithPort ha n =>
    exact ⟨new_inBrackets_withPort hnet (literal_ne_nil hnet ha) n _, .inr ha⟩

/-- What is printed of a value is an address with the same host and port. -/
theorem new_getString (hnet : StandardIPv6 net) {host : Bytes}
    (hh : HostName host ∨ net.inetPton6 host = true) (port otherPort : Port) : HostAndPort.new net
      (HostAndPort.getString ⟨host, port, isLiteralIPv6 net host⟩) otherPort = .ok ⟨host, port,
        isLiteralIPv6 net host⟩ := by
  have hport : htons (ntohs port) = port := htons_htons port
  rcases hh with hn | ha
  · have hnew := new_withPort hnet hn (printedPort port) otherPort
    rw [printedPort, hport] at hnew
    rw [isLiteralIPv6_name hnet hn]
    exact hnew
  · obtain ⟨hl, -, -⟩ := literal_facts hnet ha
    have hnew := new_inBrackets_withPort hnet (literal_ne_nil hnet ha) (printedPort port) otherPort
    rw [printedPort, hport, hl] at hnew
    rw [hl]
    exact hnew

theorem Address.reads_back (hnet : StandardIPv6 net) {t host : Bytes} {defaultPort port : Port}
    (h : Address net defaultPort t host port) : Parses net t defaultPort host port := by
  obtain ⟨hnew, hh⟩ := h.parses hnet
  refine ⟨_, hnew, rfl, rfl, fun otherPort => ⟨_, new_getString hnet hh port otherPort, ?_⟩⟩
  simp [HostAndPort.equals]

end Forms

/-! ## Texts that are rejected -/

section Rejection

variable {net : Resolver}

/-- A text with a colon that is no IPv6 address up to its first NUL. -/
theorem parse_withPort {x p : Bytes} (hp : chr ':' ∉ p)
    (hl : isLiteralIPv6 net (x ++ chr ':' :: p) = false)
    (defaultPort : Port) : HostAndPort.parse net (x ++ chr ':' :: p) defaultPort =
      match stringToPort net p with
      | .ok port => checkHost ⟨if isInBrackets x then removeBrackets x else x, port,
          isLiteralIPv6 net (if isInBrackets x then removeBrackets x else x)⟩
      | .error e => .error e := by
  have hdrop : (x ++ chr ':' :: p).drop (x.length + 1) = p := by
    rw [← List.drop_drop, List.drop_left]
    rfl
  unfold HostAndPort.parse
  rw [rfind_append hp]
  cases hport : stringToPort net p with
  | ok port => simp only [hl, Bool.false_eq_true, if_false, hdrop, List.take_left, hport]
  | error e => simp only [hl, Bool.false_eq_true, if_false, hdrop, hport]

theorem EmptyHost.parse (hnet : StandardIPv6 net) {t : Bytes} (h : EmptyHost t)
    (defaultPort : Port) :
    ∃ e, HostAndPort.parse net t defaultPort = .error e := by
  have hport : ∀ {x p : Bytes}, chr ':' ∉ p → isLiteralIPv6 net (x ++ chr ':' :: p) = false →
      (if isInBrackets x then removeBrackets x else x) = [] →
      ∃ e, HostAndPort.parse net (x ++ chr ':' :: p) defaultPort = .error e := by
    intro x p hp hl hx
    rw [parse_withPort hp hl, hx]
    cases stringToPort net p with
    | ok port => exact ⟨.emptyHost, rfl⟩
    | error e => exact ⟨e, rfl⟩
  cases h with
  | nothing => exact ⟨.emptyHost, rfl⟩
  | port hp =>
    exact hport (x := []) hp (isLiteralIPv6_count hnet
      (Nat.le_of_eq (count_withPort List.not_mem_nil hp))) rfl
  | bracketsWithPort hp => exact hport hp (isLiteralIPv6_bracket hnet _) rfl

theorem EmptyHostPart.rejected (hnet : StandardIPv6 net) {t : Bytes} (h : EmptyHostPart t) :
    Rejected net t := by
  intro defaultPort
  cases h with
  | plain h hb =>
    unfold HostAndPort.new
    rw [hb]
    exact h.parse hnet defaultPort
  | bracketed h =>
    rw [inBrackets, HostAndPort.new_bracketed]
    exact h.parse hnet defaultPort

/-- A text that ends in a colon is not in brackets. -/
theorem new_of_last_colon {t : Bytes} (ht : t.getLast? = some (chr ':')) (defaultPort : Port) :
    HostAndPort.new net t defaultPort = HostAndPort.parse net t defaultPort := by
  have hb : isInBrackets t = false := by
    rw [isInBrackets, ht]
    simp only [Option.some.injEq]
    rw [decide_eq_false (by decide : ¬ chr ':' = chr ']'), Bool.and_false]
  unfold HostAndPort.new
  rw [hb]
  rfl

theorem rejected_of_last_colon {t : Bytes} (ht : t.getLast? = some (chr ':'))
    (hl : isLiteralIPv6 net t = false) :
    Rejected net t := by
  intro defaultPort
  rw [new_of_last_colon ht]
  obtain ⟨x, rfl⟩ := List.getLast?_eq_some_iff.mp ht
  exact ⟨.emptyPort, parse_withPort List.not_mem_nil hl defaultPort⟩

end Rejection

/-- **Address syntax.** With an `inet_pton` that accepts standard texts only, every form of an
address is parsed to its host and port and reads back from what is printed of it, and a text without
a host is rejected. A text that ends in a colon is treated as it should be exactly if it is not an
IPv6 address that a NUL cuts off. -/
theorem addressSyntax_iff (net : Resolver) (hnet : StandardIPv6 net) (t : Bytes) :
    AddressSyntax net t ↔ ¬ CutLiteral net t := by
  constructor
  · rintro h ⟨hlast, ⟨b, hb, hnul⟩, hcut⟩
    have hno : net.inetPton6 t = false := by
      by_contra hl
      exact (hnet.chars t (by simpa using hl) b hb).2.2.2 hnul
    obtain ⟨e, he⟩ := h.emptyPort hlast hno (htons DEFAULT_PORT)
    rw [new_of_last_colon hlast, HostAndPort.parse_literal _
      (List.mem_of_getLast? hlast) hcut] at he
    cases he
  · intro h
    refine ⟨fun _ _ _ ha => ha.reads_back hnet, fun he => he.rejected hnet, fun hlast hno => ?_⟩
    apply rejected_of_last_colon hlast
    by_contra hl
    have hl : net.inetPton6 (cStr t) = true := by simpa [isLiteralIPv6] using hl
    -- What is tried is not the text, so the text has a NUL.
    refine h ⟨hlast, ?_, hl⟩
    by_contra hnul
    rw [cStr_eq fun b hb hz => hnul ⟨b, hb, hz⟩, hno] at hl
    cases hl

/-- `[::1]:6380`. -/
theorem addressSyntax_loopback :
    ∃ hp, HostAndPort.new loopbackNet (str "[::1]:6380") (htons DEFAULT_PORT) = .ok hp ∧
      hp.host = str "::1" ∧
      ntohs hp.port = (6380 : Nat) ∧ hp.getString = str "[::1]:6380" := by
  let n : DecimalPort := ⟨str "6380", ⟨6380, by decide⟩, by decide⟩
  have hform := (addressSyntax_iff loopbackNet loopbackNet_standard (str "[::1]:6380")).mpr
    fun h => absurd h.1 (by decide +kernel)
  have haddress : Address loopbackNet (htons DEFAULT_PORT) (str "[::1]:6380") (str "::1")
    (htons n.value) :=
    Address.literalInBracketsWithPort (a := str "::1") (by decide) n
  obtain ⟨hp, hnew, hhost, hport, -⟩ := hform.address _ _ _ haddress
  refine ⟨hp, hnew, hhost, by rw [hport]; decide, ?_⟩
  have hvalue := (haddress.parses loopbackNet_standard).1
  rw [hnew] at hvalue
  cases hvalue
  decide +kernel

/-- An IPv6 address, a NUL and a colon. -/
def loopbackCut : Bytes := str "::1" ++ [⟨0, Nat.zero_lt_succ 255⟩, chr ':']

/-- It is taken as a host with the default port. -/
theorem loopbackCut_accepted :
    HostAndPort.new loopbackNet loopbackCut (htons DEFAULT_PORT) = .ok ⟨loopbackCut,
      htons DEFAULT_PORT, true⟩ ∧
      loopbackCut.getLast? = some (chr ':') ∧ loopbackNet.inetPton6 loopbackCut = false ∧
      ¬ ∀ net, StandardIPv6 net → ∀ t, AddressSyntax net t := by
  have hnew : HostAndPort.new loopbackNet loopbackCut (htons DEFAULT_PORT) =
      .ok ⟨loopbackCut, htons DEFAULT_PORT, true⟩ :=
      HostAndPort.new_literal _ (by decide) (by decide) (by decide)
  refine ⟨hnew, by decide, by decide, fun h => ?_⟩
  obtain ⟨e, he⟩ := (h loopbackNet loopbackNet_standard loopbackCut).emptyPort (by decide)
    (by decide) (htons DEFAULT_PORT)
  rw [hnew] at he
  cases he

end Sdl
