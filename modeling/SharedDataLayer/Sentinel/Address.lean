import SharedDataLayer.AddressSyntax
import SharedDataLayer.Sentinel.Discovery

/-!
# The address that Sentinel reports

Sentinel reports a host and a port in two ways: as the two strings of the reply to an inquiry, and
as the last two of the five fields of a notification. In both the two are put together with a colon
and `HostAndPort` splits them again, after it has tried the whole as an IPv6 address.

* `splitOn_message`: the fields of a notification.
* `hostAndPort_self_iff`: when the split gives back the host and the port.
* `Standard`, `reportedAddress`: what Sentinel reports, and the address that it means by it.
* `reported_address_iff`: what `stateChangedCb` is called with.
-/

namespace Sdl
namespace Sentinel

open Config Redis

/-- The text of a notification. -/
def message (name oldHost oldPort host port : Bytes) : Bytes :=
  [chr ' '].intercalate [name, oldHost, oldPort, host, port]

/-- How Sentinel reports a host and a port. -/
inductive Report (host port : Bytes) where
  | inquiryReply
  | notification (channel : Reply) (name oldHost oldPort : Bytes)
    (fields : ∀ f ∈ [name, oldHost, oldPort, host, port], chr ' ' ∉ f)

/-- What the ack of the report leads to. -/
def Report.ack (net : Resolver) {host port : Bytes} : Report host port → Except OutOfBounds Action
  | .inquiryReply => masterInquiryAck net .none (.array [.string host, .string port])
  | .notification channel name oldHost oldPort _ =>
    subscribeAck net .none
      (.array [.string (str "message"), channel, .string (message name oldHost oldPort host port)])

/-- The callback is called with one address, of this host and port. -/
def PassesOn (action : Except OutOfBounds Action) (host : Bytes) (port : Port) : Prop :=
  ∃ info, action = .ok (.stateChanged info) ∧ info.hosts.map pair = [(host, htons port)]

/-- An IPv6 address that is another one with the port behind it. -/
def AmbiguousLiteral (net : Resolver) (host port : Bytes) : Prop :=
  net.inetPton6 host = true ∧ net.inetPton6 (host ++ chr ':' :: port) = true

instance (net : Resolver) (host port : Bytes) : Decidable (AmbiguousLiteral net host port) :=
  inferInstanceAs (Decidable (_ ∧ _))

/-- The address that Sentinel means: the host as it stands, and the port in decimal digits. -/
def reportedAddress (host port : Bytes) : Option (Bytes × Port) :=
  (lexicalCastDigits port).map fun n => (host, htons n)

/-- What Sentinel reports: a host name or an IPv6 address, and a port from 1 to 65535. -/
structure Standard (net : Resolver) (host port : Bytes) : Prop where
  host : HostName host ∨ net.inetPton6 host = true
  port : ∃ n ∈ lexicalCastDigits port, 1 ≤ n.val

instance (host : Bytes) : Decidable (HostName host) :=
  decidable_of_iff (host ≠ [] ∧ chr ':' ∉ host ∧ chr '[' ∉ host ∧ chr ']' ∉ host)
    ⟨fun h => ⟨h.1, h.2.1, h.2.2⟩, fun h => ⟨h.nonempty, h.noColon, h.noBrackets⟩⟩

instance (net : Resolver) (host port : Bytes) : Decidable (Standard net host port) :=
  decidable_of_iff ((HostName host ∨ net.inetPton6 host = true) ∧
      (lexicalCastDigits port).any (fun n => decide (1 ≤ n.val)) = true)
    ⟨fun h => ⟨h.1, by simpa [Option.any_eq_true] using h.2⟩,
      fun h => ⟨h.host, by simpa [Option.any_eq_true] using h.port⟩⟩

section Report

variable {net : Resolver}

/-- With the port behind it only an ambiguous host is an IPv6 address. -/
theorem isLiteralIPv6_withPort (hnet : StandardIPv6 net) {host : Bytes}
    (hh : HostName host ∨ net.inetPton6 host = true) (p : DecimalPort)
    (ha : ¬ AmbiguousLiteral net host p.text) :
    isLiteralIPv6 net (host ++ chr ':' :: p.text) = false := by
  rcases hh with hn | hl
  · exact isLiteralIPv6_count hnet (Nat.le_of_eq
      (count_withPort hn.noColon (decimalPort_no_colon p)))
  · have hnul : ∀ b ∈ host ++ chr ':' :: p.text, b.val ≠ 0 := by
      intro b hb
      rcases List.mem_append.mp hb with hb | hb
      · exact (hnet.chars host hl b hb).2.2.2
      · rcases List.mem_cons.mp hb with rfl | hb
        · decide
        · exact decimalPort_no_nul p b hb
    rw [isLiteralIPv6, cStr_eq hnul]
    by_contra hp
    exact ha ⟨hl, by simpa using hp⟩

theorem host_facts (hnet : StandardIPv6 net) {host : Bytes}
    (hh : HostName host ∨ net.inetPton6 host = true) :
    host ≠ [] ∧ isInBrackets host = false := by
  rcases hh with hn | hl
  · exact ⟨hn.nonempty, isInBrackets_name hn⟩
  · exact ⟨literal_ne_nil hnet hl, (literal_facts hnet hl).2.2⟩

/-- An ambiguous host with its port is taken for a host without a port. -/
theorem hostAndPort_ambiguous (hnet : StandardIPv6 net) {host port : Bytes}
    (h : AmbiguousLiteral net host port) :
    hostAndPort net host port = some ⟨host ++ chr ':' :: port, ⟨0, by decide⟩, true⟩ := by
  obtain ⟨hl, hc, hb⟩ := literal_facts hnet h.2
  rw [hostAndPort, HostAndPort.new_literal _ hc hl hb]

/-- The host and the port are split again as they were, unless both together are another address. -/
theorem hostAndPort_self_iff (hnet : StandardIPv6 net) {host : Bytes}
    (hh : HostName host ∨ net.inetPton6 host = true) (p : DecimalPort) :
    (∃ a, hostAndPort net host p.text = some a ∧ pair a = (host, htons p.value)) ↔
      ¬ AmbiguousLiteral net host p.text := by
  obtain ⟨hne, hb⟩ := host_facts hnet hh
  constructor
  · rintro ⟨a, hnew, ha⟩ hamb
    -- The whole text is the host, which is longer.
    rw [hostAndPort_ambiguous hnet hamb] at hnew
    cases hnew
    have hlen : (host ++ chr ':' :: p.text).length = host.length :=
      congrArg (fun x => x.1.length) ha
    rw [List.length_append, List.length_cons] at hlen
    omega
  · intro ha
    have hhost : (if isInBrackets host then removeBrackets host else host) = host := by
      rw [hb]
      rfl
    have hnew := HostAndPort.new_port ⟨0, by decide⟩ p.valid (isLiteralIPv6_withPort hnet hh p ha)
      (by rw [hhost]; exact hne)
    rw [hhost] at hnew
    rw [hostAndPort, hnew]
    exact ⟨_, rfl, rfl⟩

section Standard

variable {host port : Bytes}

theorem Standard.address (h : Standard net host port) :
    ∃ p : DecimalPort, p.text = port ∧ reportedAddress host port = some (host, htons p.value) := by
  obtain ⟨n, hn, -⟩ := h.port
  exact ⟨⟨port, n, hn⟩, rfl, by rw [reportedAddress, Option.mem_def.mp hn, Option.map_some]⟩

/-- The port that Sentinel reports is never 0. -/
theorem Standard.port_ne (h : Standard net host port) {a : Bytes × Port}
    (ha : reportedAddress host port = some a) :
    a.2 ≠ ⟨0, by decide⟩ := by
  obtain ⟨n, hn, hpos⟩ := h.port
  rw [reportedAddress, Option.mem_def.mp hn] at ha
  cases ha
  intro h0
  have hz : n = ⟨0, by decide⟩ := htons_inj.mp (h0.trans (by decide))
  rw [hz] at hpos
  exact absurd hpos (by decide)

/-- What Sentinel reports is always accepted. -/
theorem Standard.parses (hnet : StandardIPv6 net) (h : Standard net host port) :
    ∃ a, hostAndPort net host port = some a := by
  by_cases ha : AmbiguousLiteral net host port
  · exact ⟨_, hostAndPort_ambiguous hnet ha⟩
  · obtain ⟨p, rfl, -⟩ := h.address
    obtain ⟨a, hp, -⟩ := (hostAndPort_self_iff hnet h.host p).mpr ha
    exact ⟨a, hp⟩

/-- It is understood as it is meant unless it is ambiguous. -/
theorem Standard.pair_iff (hnet : StandardIPv6 net) (h : Standard net host port) {a : HostAndPort}
    (ha : hostAndPort net host port = some a) :
    reportedAddress host port = some (pair a) ↔ ¬ AmbiguousLiteral net host port := by
  obtain ⟨p, rfl, hr⟩ := h.address
  rw [hr, Option.some_inj, ← hostAndPort_self_iff hnet h.host p]
  constructor
  · exact fun hp => ⟨a, ha, hp.symm⟩
  · rintro ⟨a', ha', hp⟩
    cases ha.symm.trans ha'
    exact hp.symm

end Standard

theorem splitOn_message {name oldHost oldPort host port : Bytes}
    (h : ∀ f ∈ [name, oldHost, oldPort, host, port], chr ' ' ∉ f) :
    (message name oldHost oldPort host port).splitOn (chr ' ') = [name, oldHost,
      oldPort, host, port] :=
  List.splitOn_intercalate _ h (by simp)

/-- Either way the callback gets what the split gives. -/
theorem Report.ack_iff {host port : Bytes} (r : Report host port) {info : DatabaseInfo} :
    r.ack net = .ok (.stateChanged info) ↔ ∃ a, hostAndPort net host port = some a ∧
      info = databaseInfo a := by
  cases r with
  | inquiryReply =>
    rw [Report.ack, masterInquiryAck_reply]
    constructor
    · rintro ⟨a, ha, hi⟩
      obtain ⟨_, _, _, hr, ha⟩ := parseMasterInquiryReply_some.mp ha
      cases hr
      exact ⟨a, ha, hi⟩
    · rintro ⟨a, ha, hi⟩
      exact ⟨a, parseMasterInquiryReply_some.mpr ⟨host, port, [], rfl, ha⟩, hi⟩
  | notification channel name oldHost oldPort hf =>
    have hparse : ∀ a, parseNotificationMessage net (message name oldHost oldPort host port) =
      some a ↔
        hostAndPort net host port = some a := by
      intro a
      rw [parseNotificationMessage, splitOn_message hf]
    rw [Report.ack, subscribeAck_reply]
    constructor
    · rintro ⟨text, a, ht, ha, hi⟩
      obtain ⟨_, _, hr⟩ := parseSubscribeReply_notification.mp ht
      cases hr
      exact ⟨a, (hparse a).mp ha, hi⟩
    · rintro ⟨a, ha, hi⟩
      exact ⟨_, a, parseSubscribeReply_notification.mpr ⟨channel, [], rfl⟩, (hparse a).mpr ha, hi⟩

end Report

/-- **Sentinel address fidelity.** With an `inet_pton` that accepts standard texts only, the
callback is called with the reported host and port exactly if the host is no IPv6 address, or none
any more with the port behind it. -/
theorem reported_address_iff (net : Resolver) (hnet : StandardIPv6 net) (host : Bytes)
    (hh : HostName host ∨ net.inetPton6 host = true) (p : DecimalPort) (r : Report host p.text) :
    PassesOn (r.ack net) host p.value ↔ ¬ AmbiguousLiteral net host p.text := by
  rw [← hostAndPort_self_iff hnet hh p]
  constructor
  · rintro ⟨info, hi, hp⟩
    obtain ⟨a, ha, rfl⟩ := r.ack_iff.mp hi
    exact ⟨a, ha, List.singleton_inj.mp hp⟩
  · rintro ⟨a, ha, hp⟩
    exact ⟨databaseInfo a, r.ack_iff.mpr ⟨a, ha, rfl⟩, congrArg (fun x => [x]) hp⟩

/-- A port of five digits is no part of an IPv6 address. -/
theorem reported_address_loopback :
    PassesOn (masterInquiryAck loopbackNet .none (.array [.string (str "::1"),
      .string (str "26379")]))
      (str "::1") ⟨26379, by decide⟩ :=
  (reported_address_iff loopbackNet loopbackNet_standard (str "::1") (.inr (by decide))
    ⟨str "26379", ⟨26379, by decide⟩, by decide⟩ .inquiryReply).mpr fun h =>
      absurd h.2 (by decide +kernel)

/-- A link-local address, and the address that it is with a port behind it. -/
def linkLocalNet : Resolver := ⟨fun s => s = str "fe80::1" || s = str "fe80::1:6379", fun _ => none⟩

theorem linkLocalNet_standard : StandardIPv6 linkLocalNet := by
  refine ⟨fun s hs => ?_, fun s hs => ?_⟩ <;> simp only [linkLocalNet, Bool.or_eq_true,
    decide_eq_true_eq] at hs <;>
    rcases hs with rfl | rfl <;> decide +kernel

/-- The port is taken for a part of the address, and the master is connected on port 0. -/
theorem reported_address_port_zero :
    (∃ info, masterInquiryAck linkLocalNet .none (.array [.string (str "fe80::1"),
      .string (str "6379")]) =
      .ok (.stateChanged info) ∧ info.hosts.map pair = [(str "fe80::1:6379", ⟨0, by decide⟩)]) ∧
    ¬ ∀ net, StandardIPv6 net → ∀ host, HostName host ∨ net.inetPton6 host = true →
    ∀ (p : DecimalPort)
      (r : Report host p.text), 1 ≤ p.value.val → PassesOn (r.ack net) host p.value := by
  refine ⟨⟨_, rfl, by decide +kernel⟩, fun h => ?_⟩
  obtain ⟨info, hi, hp⟩ := h linkLocalNet linkLocalNet_standard (str "fe80::1") (.inr (by decide))
    ⟨str "6379", ⟨6379, by decide⟩, by decide⟩ .inquiryReply (by decide)
  cases hi
  exact absurd hp (by decide +kernel)

end Sentinel
end Sdl
