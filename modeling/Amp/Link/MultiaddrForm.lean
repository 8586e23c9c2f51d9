import Amp.Lib.Reader
import Amp.Link.AdpMultiaddr

set_option autoImplicit false

/- The form of a multiaddr, and that exactly the texts of that form are read. -/
namespace Amp

open Adp (Bytes IpEndpoint kWireVersion)
open Text

/-- A port in decimal. -/
def PortText (text : String) (port : Nat) : Prop :=
  Decimal text port ∧ 1 ≤ port ∧ port ≤ 65535

/-- Four octets in decimal, with dots between them. -/
structure Dotted (host : String) (octets : List Nat) : Prop where
  parts : ∃ parts, Separated '.' parts host ∧ List.Forall₂ Decimal parts octets
  four : octets.length = 4
  bytes : ∀ octet ∈ octets, octet ≤ 255

/-- One to sixty-three letters, digits and hyphens, with no hyphen at either end. -/
structure DnsLabel (label : String) : Prop where
  size : 1 ≤ label.length ∧ label.length ≤ 63
  chars : ∀ char ∈ label.toList, char.isAlphanum = true ∨ char = '-'
  inner : label.toList.head? ≠ some '-' ∧ label.toList.getLast? ≠ some '-'

structure DnsName (host : String) : Prop where
  size : host.length ≤ 253
  labels : ∃ labels, Separated '.' labels host ∧ ∀ label ∈ labels, DnsLabel label

/-- The hosts of each kind, and what one says of the address. -/
inductive HostText [Inet] : String → String → ParsedAdpMultiaddr → Prop
  | ip4 {host : String} {octets : List Nat} (dotted : Dotted host octets) :
      HostText "ip4" host
        { endpoint := { family := .v4, addr := octets.map UInt8.ofNat ++ List.replicate 12 0 } }
  | ip6 {literal : String} {addr : Bytes} (zone : '%' ∉ literal.toList)
      (known : Inet.inetPton literal = some addr) :
      HostText "ip6" literal { endpoint := { family := .v6, addr := addr } }
  | bracketed {literal : String} {addr : Bytes} (zone : '%' ∉ literal.toList)
      (known : Inet.inetPton literal = some addr) :
      HostText "ip6" ("[" ++ literal ++ "]") { endpoint := { family := .v6, addr := addr } }
  | name {kind host : String} (kinds : kind ∈ ["dns", "dns4", "dns6"]) (name : DnsName host) :
      HostText kind host { endpoint := {}, hostname := host, hostFamily := hostFamilyOf kind }

/-- What stands for the wire version. -/
def WireText (token : String) (wire : Nat) : Prop :=
  (token = kAdpMultiaddrLegacyVersion ∧ wire = 0) ∨ (Decimal token kWireVersion ∧ wire = kWireVersion)

/-- The eight components of a multiaddr, and what it says. -/
inductive Components [Inet] : List String → ParsedAdpMultiaddr → Prop
  | mk {kind host port version peerId : String} {named : ParsedAdpMultiaddr} {number wire : Nat}
      (hosted : HostText kind host named) (ported : PortText port number)
      (versioned : WireText version wire) (identified : peerId ≠ "") :
      Components [kind, host, "udp", port, "adp", version, "p2p", peerId]
        { named with
          endpoint := { named.endpoint with port := number }
          peerId := peerId
          ampWire := wire }

/-- A slash, and eight components with slashes between them. -/
def MultiaddrText [Inet] (text : String) (parsed : ParsedAdpMultiaddr) : Prop :=
  ∃ parts, text = "/" ++ "/".intercalate parts ∧ (∀ part ∈ parts, '/' ∉ part.toList) ∧
    Components parts parsed

section Numbers

theorem parsePort_ok_iff (text : String) (port : Nat) :
    parsePort text = .ok port ↔ PortText text port := by
  unfold parsePort PortText
  constructor
  · intro read
    split at read
    · rename_i number scanned
      obtain ⟨decimal, room⟩ := (fromChars_whole_iff _ _ _).mp scanned
      by_cases zero : number = 0
      · simp [zero] at read
      · simp only [zero, if_false, Except.ok.injEq] at read
        rw [← read]
        exact ⟨decimal, by omega, room⟩
    · cases read
  · rintro ⟨decimal, positive, room⟩
    rw [(fromChars_whole_iff _ _ _).mpr ⟨decimal, room⟩]
    have port : port ≠ 0 := by omega
    simp [port]

theorem parseOctet_ok_iff (text : String) (octet : UInt8) : parseOctet text = .ok octet ↔
    ∃ value, Decimal text value ∧ value ≤ 255 ∧ octet = UInt8.ofNat value := by
  unfold parseOctet
  constructor
  · intro read
    split at read
    · rename_i value scanned
      obtain ⟨decimal, -⟩ := (fromChars_whole_iff _ _ _).mp scanned
      by_cases large : 255 < value
      · simp [large] at read
      · simp only [large, if_false, Except.ok.injEq] at read
        exact ⟨value, decimal, by omega, read.symm⟩
    · cases read
  · rintro ⟨value, decimal, small, rfl⟩
    rw [(fromChars_whole_iff _ _ _).mpr ⟨decimal, by omega⟩]
    have fits : ¬ 255 < value := by omega
    simp [fits]

theorem parseWire_ok_iff (token : String) (wire : Nat) :
    parseWire token = .ok wire ↔ WireText token wire := by
  unfold parseWire WireText
  have read_iff := fromCharsInt_whole_iff token (show 0 < kWireVersion by decide) (by decide)
  by_cases legacy : token = kAdpMultiaddrLegacyVersion
  · have other : ¬ Decimal token kWireVersion := by
      intro decimal
      have dot : '.' ∈ token.toList := by rw [legacy]; decide
      exact absurd dot (decimal.not_mem (by decide))
    simp only [legacy, if_true, Except.ok.injEq, true_and]
    rw [legacy] at other
    simp only [other, false_and, or_false]
    exact eq_comm
  · simp only [legacy, if_false, false_and, false_or]
    constructor
    · intro read
      split at read
      · rename_i number scanned
        split at read
        · cases read
        split at read
        · cases read
        · rename_i ours
          have ours : number = kWireVersion := not_not.mp ours
          rw [ours] at scanned read
          exact ⟨read_iff.mp scanned, (Except.ok.inj read).symm⟩
      · cases read
    · rintro ⟨decimal, rfl⟩
      rw [read_iff.mpr decimal]
      rfl

end Numbers

section Hosts

theorem forall₂_octets {parts : List String} {addr : Bytes} :
    List.Forall₂ (fun part octet => parseOctet part = .ok octet) parts addr ↔
      ∃ octets, List.Forall₂ Decimal parts octets ∧ (∀ octet ∈ octets, octet ≤ 255) ∧
        addr = octets.map UInt8.ofNat := by
  induction parts generalizing addr with
  | nil =>
      constructor
      · intro read
        exact ⟨[], .nil, by simp, List.forall₂_nil_left_iff.mp read⟩
      · rintro ⟨octets, read, -, rfl⟩
        rw [List.forall₂_nil_left_iff.mp read]
        exact .nil
  | cons part parts ih =>
      constructor
      · intro read
        obtain ⟨octet, rest, first, later, rfl⟩ := List.forall₂_cons_left_iff.mp read
        obtain ⟨value, decimal, small, rfl⟩ := (parseOctet_ok_iff part octet).mp first
        obtain ⟨octets, decimals, bytes, rfl⟩ := ih.mp later
        refine ⟨value :: octets, .cons decimal decimals, ?_, rfl⟩
        rintro octet (_ | ⟨_, among⟩)
        · exact small
        · exact bytes octet among
      · rintro ⟨octets, read, bytes, rfl⟩
        obtain ⟨value, rest, decimal, decimals, rfl⟩ := List.forall₂_cons_left_iff.mp read
        have small : value ≤ 255 := bytes value List.mem_cons_self
        have later := ih.mpr ⟨rest, decimals, fun octet among => bytes octet (.tail _ among), rfl⟩
        exact .cons ((parseOctet_ok_iff part _).mpr ⟨value, decimal, small, rfl⟩) later

theorem parseIp4HostPort_ok_iff (host port : String) (endpoint : IpEndpoint) :
    parseIp4HostPort host port = .ok endpoint ↔ ∃ octets number, Dotted host octets ∧
      PortText port number ∧ endpoint = {
        family := .v4
        addr := octets.map UInt8.ofNat ++ List.replicate 12 0
        port := number } := by
  unfold parseIp4HostPort
  constructor
  · intro read
    by_cases count : (split host '.').length = 4
    case neg =>
      simp only [ne_eq, count, not_false_eq_true, if_true] at read
      cases read
    case pos =>
      simp only [ne_eq, count, not_true_eq_false, if_false] at read
      obtain ⟨addr, parsed, read⟩ := Reader.bind_ok_iff.mp read
      obtain ⟨number, ported, read⟩ := Reader.bind_ok_iff.mp read
      obtain ⟨octets, decimals, bytes, rfl⟩ := forall₂_octets.mp (Reader.mapM_ok_iff.mp parsed)
      have four : octets.length = 4 := by rw [← decimals.length_eq, count]
      exact ⟨octets, number, ⟨⟨_, split_separated host '.', decimals⟩, four, bytes⟩,
        (parsePort_ok_iff port number).mp ported, (Except.ok.inj read).symm⟩
  · rintro ⟨octets, number, ⟨⟨parts, separated, decimals⟩, four, bytes⟩, ported, rfl⟩
    have count : parts.length = 4 := by rw [decimals.length_eq, four]
    have parsed := Reader.mapM_ok_iff.mpr (forall₂_octets.mpr ⟨octets, decimals, bytes, rfl⟩)
    simp only [separated.split_eq, count, ne_eq, not_true_eq_false, if_false]
    exact Reader.bind_ok_iff.mpr ⟨_, parsed,
      Reader.bind_ok_iff.mpr ⟨number, (parsePort_ok_iff port number).mpr ported, rfl⟩⟩

theorem cStr_of_not_mem {text : String} (whole : '\x00' ∉ text.toList) : cStr text = text := by
  unfold cStr
  have kept : text.toList.takeWhile (· != '\x00') = text.toList := by
    rw [List.takeWhile_eq_self_iff]
    intro char among
    exact bne_iff_ne.mpr fun same => whole (same ▸ among)
  rw [kept, String.ofList_toList]

theorem unbracketed_cases (host : String) :
    host = unbracketed host ∨ host = "[" ++ unbracketed host ++ "]" := by
  unfold unbracketed
  split
  · rename_i inner front
    split
    · rename_i back
      right
      apply String.toList_inj.mp
      have whole : inner.dropLast ++ [']'] = inner := List.dropLast_append_getLast? ']' back
      simp only [String.toList_append, String.toList_ofList, front]
      show '[' :: inner = '[' :: (inner.dropLast ++ [']'])
      rw [whole]
    · exact .inl rfl
  · exact .inl rfl

theorem unbracketed_bracketed (literal : String) : unbracketed ("[" ++ literal ++ "]") = literal := by
  have chars : ("[" ++ literal ++ "]").toList = '[' :: (literal.toList ++ [']']) := by
    simp only [String.toList_append]
    rfl
  unfold unbracketed
  rw [chars]
  simp

theorem unbracketed_of_head {host : String} (front : host.toList.head? ≠ some '[') :
    unbracketed host = host := by
  unfold unbracketed
  split
  · rename_i inner opened
    rw [opened] at front
    exact absurd rfl front
  · rfl

variable [Inet] [LawfulInet]

theorem unbracketed_literal {literal : String} {addr : Bytes}
    (known : Inet.inetPton literal = some addr) : unbracketed literal = literal := by
  apply unbracketed_of_head
  intro front
  have among : '[' ∈ literal.toList := List.mem_of_mem_head? front
  have plain := LawfulInet.literal literal addr known '[' among
  exact absurd plain (by decide)

theorem parseIp6HostPort_ok_iff {host : String} (whole : '\x00' ∉ host.toList) (port : String)
    (endpoint : IpEndpoint) : parseIp6HostPort host port = .ok endpoint ↔
      ∃ literal addr number, (host = literal ∨ host = "[" ++ literal ++ "]") ∧
        '%' ∉ literal.toList ∧ Inet.inetPton literal = some addr ∧ PortText port number ∧
        endpoint = { family := .v6, addr := addr, port := number } := by
  unfold parseIp6HostPort
  constructor
  · intro read
    by_cases zone : '%' ∈ (unbracketed host).toList
    case pos =>
      simp only [zone, if_true] at read
      cases read
    case neg =>
      simp only [zone, if_false] at read
      have plain : '\x00' ∉ (unbracketed host).toList := by
        intro among
        rcases unbracketed_cases host with same | same
        · exact whole (same ▸ among)
        · apply whole
          rw [same]
          simp [among]
      rw [cStr_of_not_mem plain] at read
      split at read
      · cases read
      · rename_i addr known
        obtain ⟨number, ported, read⟩ := Reader.bind_ok_iff.mp read
        exact ⟨unbracketed host, addr, number, unbracketed_cases host, zone, known,
          (parsePort_ok_iff port number).mp ported, (Except.ok.inj read).symm⟩
  · rintro ⟨literal, addr, number, form, zone, known, ported, rfl⟩
    have plain : '\x00' ∉ literal.toList := by
      intro among
      have char := LawfulInet.literal literal addr known '\x00' among
      exact absurd char (by decide)
    have bare : unbracketed host = literal := by
      rcases form with rfl | rfl
      · exact unbracketed_literal known
      · exact unbracketed_bracketed literal
    simp only [bare, zone, if_false, cStr_of_not_mem plain, known]
    exact Reader.bind_ok_iff.mpr ⟨number, (parsePort_ok_iff port number).mpr ported, rfl⟩

omit [Inet] [LawfulInet] in
theorem isAlphanum_iff (char : Char) : char.isAlphanum = true ↔
    (char.isUpper = true ∨ char.isLower = true) ∨ char.isDigit = true := by
  show ((char.isUpper || char.isLower) || char.isDigit) = true ↔ _
  rw [Bool.or_eq_true, Bool.or_eq_true]

omit [Inet] [LawfulInet] in
theorem isDnsLabel_iff (label : String) : isDnsLabel label = true ↔ DnsLabel label := by
  unfold isDnsLabel
  simp only [Bool.and_eq_true, decide_eq_true_eq, List.all_eq_true, Bool.or_eq_true, beq_iff_eq]
  constructor
  · rintro ⟨⟨filled, short, front, back⟩, chars⟩
    have size : 1 ≤ label.length := by
      rw [← String.length_toList]
      exact List.length_pos_iff.mpr filled
    refine ⟨⟨size, short⟩, ?_, front, back⟩
    intro char among
    simpa [isAlphanum_iff, or_assoc, or_comm, or_left_comm] using chars char among
  · rintro ⟨⟨size, short⟩, chars, front, back⟩
    have filled : label.toList ≠ [] := by
      rw [← String.length_toList] at size
      exact List.length_pos_iff.mp size
    refine ⟨⟨filled, short, front, back⟩, ?_⟩
    intro char among
    simpa [isAlphanum_iff, or_assoc, or_comm, or_left_comm] using chars char among

omit [Inet] [LawfulInet] in
theorem isDnsName_iff (host : String) : isDnsName host = true ↔ DnsName host := by
  unfold isDnsName
  simp only [Bool.and_eq_true, decide_eq_true_eq, List.all_eq_true]
  constructor
  · rintro ⟨⟨-, short⟩, labels⟩
    exact ⟨short, _, split_separated host '.', fun label among =>
      (isDnsLabel_iff label).mp (labels label among)⟩
  · rintro ⟨short, labels, separated, valid⟩
    rw [separated.split_eq]
    refine ⟨⟨?_, short⟩, fun label among => (isDnsLabel_iff label).mpr (valid label among)⟩
    rintro rfl
    have alone : labels = [""] := by
      rw [← separated.split_eq]
      rfl
    have size := (valid "" (by rw [alone]; exact List.mem_cons_self)).size.1
    exact absurd size (by decide)

end Hosts

section Parsing

variable [Inet] [LawfulInet]

omit [LawfulInet] in
theorem HostText.kind_mem {kind host : String} {named : ParsedAdpMultiaddr}
    (hosted : HostText kind host named) : kind ∈ ["ip4", "ip6", "dns", "dns4", "dns6"] := by
  cases hosted with
  | ip4 => decide
  | ip6 => decide
  | bracketed => decide
  | name kinds => exact .tail _ (.tail _ kinds)

theorem parseComponents_ok {parts : List String} (whole : ∀ part ∈ parts, '\x00' ∉ part.toList)
    {parsed : ParsedAdpMultiaddr} (read : parseComponents parts = .ok parsed) :
    Components parts parsed := by
  unfold parseComponents at read
  split at read
  case h_2 => cases read
  case h_1 kind host udp port adp version p2p peerId =>
    have plain : '\x00' ∉ host.toList := whole host (by simp)
    simp only at read
    split at read
    · cases read
    rename_i layout
    simp only [not_or, not_not, not_and] at layout
    obtain ⟨kinds, rfl, rfl, rfl⟩ := layout
    obtain ⟨wire, versioned, read⟩ := Reader.bind_ok_iff.mp read
    have versioned := (parseWire_ok_iff version wire).mp versioned
    split at read
    · cases read
    rename_i identified
    split at read
    · rename_i dns
      split at read
      · cases read
      rename_i name
      obtain ⟨number, ported, read⟩ := Reader.bind_ok_iff.mp read
      have dns : kind ∈ ["dns", "dns4", "dns6"] := by simpa using dns
      have named := (isDnsName_iff host).mp (Bool.eq_true_of_not_eq_false name)
      rw [← Except.ok.inj read]
      exact .mk (.name dns named) ((parsePort_ok_iff port number).mp ported) versioned identified
    · rename_i dns
      split at read
      · rename_i ip4
        obtain ⟨endpoint, hosted, read⟩ := Reader.bind_ok_iff.mp read
        rw [← Except.ok.inj read]
        obtain ⟨octets, number, dotted, ported, rfl⟩ :=
          (parseIp4HostPort_ok_iff host port endpoint).mp hosted
        rw [ip4]
        exact .mk (.ip4 dotted) ported versioned identified
      · rename_i ip4
        have ip6 : kind = "ip6" := by
          by_contra other
          exact dns (Bool.eq_true_of_not_eq_false (kinds ip4 other))
        obtain ⟨endpoint, hosted, read⟩ := Reader.bind_ok_iff.mp read
        rw [← Except.ok.inj read]
        obtain ⟨literal, addr, number, form, zone, known, ported, rfl⟩ :=
          (parseIp6HostPort_ok_iff plain port endpoint).mp hosted
        rw [ip6]
        rcases form with rfl | rfl
        · exact .mk (.ip6 zone known) ported versioned identified
        · exact .mk (.bracketed zone known) ported versioned identified

theorem components_parse {parts : List String} (whole : ∀ part ∈ parts, '\x00' ∉ part.toList)
    {parsed : ParsedAdpMultiaddr} (components : Components parts parsed) :
    parseComponents parts = .ok parsed := by
  obtain ⟨hosted, ported, versioned, identified⟩ := components
  rename_i kind host port version peerId named number wire
  have plain : '\x00' ∉ host.toList := whole host (by simp)
  have versioned := (parseWire_ok_iff version wire).mpr versioned
  have readPort := (parsePort_ok_iff port number).mpr ported
  unfold parseComponents
  cases hosted with
  | ip4 dotted =>
      have hosted := (parseIp4HostPort_ok_iff host port _).mpr ⟨_, number, dotted, ported, rfl⟩
      simp [kAdpMultiaddrProtocol, versioned, identified, hosted, bind, Except.bind, pure, Except.pure]
  | ip6 zone known =>
      have hosted := (parseIp6HostPort_ok_iff plain port _).mpr
        ⟨_, _, number, .inl rfl, zone, known, ported, rfl⟩
      simp [kAdpMultiaddrProtocol, versioned, identified, hosted, bind, Except.bind, pure, Except.pure]
  | bracketed zone known =>
      have hosted := (parseIp6HostPort_ok_iff plain port _).mpr
        ⟨_, _, number, .inr rfl, zone, known, ported, rfl⟩
      simp [kAdpMultiaddrProtocol, versioned, identified, hosted, bind, Except.bind, pure, Except.pure]
  | name kinds valid =>
      have dns : kind = "dns" ∨ kind = "dns4" ∨ kind = "dns6" := by simpa using kinds
      have valid := (isDnsName_iff host).mpr valid
      simp [kAdpMultiaddrProtocol, versioned, identified, dns, valid, readPort, bind, Except.bind, pure,
        Except.pure]

/-- A text is read exactly where it has the form of a multiaddr, and for what it says. -/
theorem parseAdpMultiaddr_ok_iff {text : String} (whole : '\x00' ∉ text.toList)
    (parsed : ParsedAdpMultiaddr) :
    parseAdpMultiaddr text = .ok parsed ↔ MultiaddrText text parsed := by
  unfold parseAdpMultiaddr MultiaddrText
  have plain : ∀ {parts : List String}, text = "/" ++ "/".intercalate parts →
      ∀ part ∈ parts, '\x00' ∉ part.toList := by
    intro parts form part among inside
    apply whole
    rw [form, String.toList_append, List.mem_append]
    exact .inr (mem_intercalate inside "/" among)
  constructor
  · intro read
    split at read
    · rename_i components front
      have separated := split_separated (String.ofList components) '/'
      have form : text = "/" ++ "/".intercalate (split (String.ofList components) '/') := by
        apply String.toList_inj.mp
        have joined := congrArg String.toList separated.joined
        rw [String.toList_ofList] at joined
        rw [String.toList_append, front]
        exact congrArg (List.cons '/') joined
      exact ⟨_, form, separated.apart, parseComponents_ok (plain form) read⟩
    · cases read
  · rintro ⟨parts, form, apart, components⟩
    have filled : parts ≠ [] := by
      rintro rfl
      cases components
    have separated : Separated '/' parts ("/".intercalate parts) := ⟨filled, apart, rfl⟩
    have front : text.toList = '/' :: ("/".intercalate parts).toList := by
      rw [form, String.toList_append]
      rfl
    rw [front]
    simp only [String.ofList_toList, separated.split_eq]
    exact components_parse (plain form) components

end Parsing

section Formatting

variable [Inet] [LawfulInet]

omit [LawfulInet] in
theorem HostText.kind_plain {kind host : String} {named : ParsedAdpMultiaddr}
    (hosted : HostText kind host named) : '/' ∉ kind.toList ∧ '\x00' ∉ kind.toList := by
  have plain : ∀ kind ∈ ["ip4", "ip6", "dns", "dns4", "dns6"],
      '/' ∉ kind.toList ∧ '\x00' ∉ kind.toList := by decide
  exact plain kind hosted.kind_mem

/-- A host of its kind, with the port and the peer written after it, is read back. -/
theorem parse_written {kind host peerId : String} {named : ParsedAdpMultiaddr} {port : Nat}
    (hosted : HostText kind host named) (slash : '/' ∉ host.toList) (whole : '\x00' ∉ host.toList)
    (positive : 0 < port) (small : port < 65536) (identified : peerId ≠ "")
    (peerSlash : '/' ∉ peerId.toList) (peerWhole : '\x00' ∉ peerId.toList) :
    parseAdpMultiaddr ("/" ++ kind ++ "/" ++ host ++ adpUdpSegment port ++ "/p2p/" ++ peerId) =
      .ok { named with
        endpoint := { named.endpoint with port := port }
        peerId := peerId
        ampWire := kWireVersion } := by
  obtain ⟨kindSlash, kindWhole⟩ := hosted.kind_plain
  have portSlash : '/' ∉ (toString port).toList := (decimal_toString port).not_mem (by decide)
  have portWhole : '\x00' ∉ (toString port).toList := (decimal_toString port).not_mem (by decide)
  have form : "/" ++ kind ++ "/" ++ host ++ adpUdpSegment port ++ "/p2p/" ++ peerId =
      "/" ++ "/".intercalate
        [kind, host, "udp", toString port, "adp", toString kWireVersion, "p2p", peerId] := by
    simp only [String.intercalate_cons_cons, String.intercalate_singleton, adpUdpSegment,
      kAdpMultiaddrProtocol, adpMultiaddrVersionToken, String.append_assoc]
    rfl
  have apart : ∀ part ∈ [kind, host, "udp", toString port, "adp", toString kWireVersion, "p2p", peerId],
      '/' ∉ part.toList := by
    simp only [List.forall_mem_cons]
    exact ⟨kindSlash, slash, by decide, portSlash, by decide, by decide, by decide, peerSlash,
      List.forall_mem_nil _⟩
  have plain : '\x00' ∉
      ("/" ++ kind ++ "/" ++ host ++ adpUdpSegment port ++ "/p2p/" ++ peerId).toList := by
    simp only [adpUdpSegment, String.toList_append, List.mem_append, not_or, and_assoc]
    exact ⟨by decide, kindWhole, by decide, whole, by decide, portWhole, by decide, by decide,
      by decide, by decide, by decide, peerWhole⟩
  rw [parseAdpMultiaddr_ok_iff plain]
  exact ⟨_, form, apart, .mk hosted ⟨decimal_toString port, positive, by omega⟩
    (.inr ⟨decimal_toString kWireVersion, rfl⟩) identified⟩

/-- An IPv4 address as it is written. -/
def dottedText (addr : Bytes) : String :=
  let octet := fun index => toString (addr.getD index 0).toNat
  octet 0 ++ "." ++ octet 1 ++ "." ++ octet 2 ++ "." ++ octet 3

omit [Inet] [LawfulInet] in
theorem dottedText_dotted (addr : Bytes) : Dotted (dottedText addr)
    [(addr.getD 0 0).toNat, (addr.getD 1 0).toNat, (addr.getD 2 0).toNat, (addr.getD 3 0).toNat] where
  parts := by
    refine ⟨[toString (addr.getD 0 0).toNat, toString (addr.getD 1 0).toNat,
      toString (addr.getD 2 0).toNat, toString (addr.getD 3 0).toNat], ⟨by simp, ?_, ?_⟩, ?_⟩
    · have dot : ∀ number : Nat, '.' ∉ (toString number).toList :=
        fun number => (decimal_toString number).not_mem (by decide)
      simp only [List.forall_mem_cons]
      exact ⟨dot _, dot _, dot _, dot _, List.forall_mem_nil _⟩
    · simp only [String.intercalate_cons_cons, String.intercalate_singleton, dottedText,
        String.append_assoc]
      rfl
    · exact .cons (decimal_toString _) (.cons (decimal_toString _) (.cons (decimal_toString _)
        (.cons (decimal_toString _) .nil)))
  four := rfl
  bytes := by
    have byte : ∀ octet : UInt8, octet.toNat ≤ 255 := fun octet => Nat.le_of_lt_succ octet.toNat_lt
    simp only [List.forall_mem_cons]
    exact ⟨byte _, byte _, byte _, byte _, List.forall_mem_nil _⟩

omit [Inet] [LawfulInet] in
theorem dottedText_not_mem (addr : Bytes) {char : Char} (digit : char.isDigit = false)
    (dot : char ≠ '.') : char ∉ (dottedText addr).toList := by
  have octet : ∀ number : Nat, char ∉ (toString number).toList :=
    fun number => (decimal_toString number).not_mem digit
  have point : char ∉ ".".toList := by simpa using dot
  simp only [dottedText, String.toList_append, List.mem_append, not_or, and_assoc]
  exact ⟨octet _, point, octet _, point, octet _, point, octet _⟩

theorem format_ip4 {endpoint : IpEndpoint} {peerId : String} (family : endpoint.family = .v4)
    (positive : 0 < endpoint.port) (small : endpoint.port < 65536) (identified : peerId ≠ "")
    (slash : '/' ∉ peerId.toList) (whole : '\x00' ∉ peerId.toList) :
    ∃ text, formatAdpMultiaddr endpoint peerId = .ok text ∧ parseAdpMultiaddr text = .ok {
      endpoint := {
        family := .v4
        addr := [endpoint.addr.getD 0 0, endpoint.addr.getD 1 0, endpoint.addr.getD 2 0,
          endpoint.addr.getD 3 0] ++ List.replicate 12 0
        port := endpoint.port }
      peerId := peerId
      ampWire := kWireVersion } := by
  have read := parse_written (.ip4 (dottedText_dotted endpoint.addr))
    (dottedText_not_mem _ (by decide) (by decide)) (dottedText_not_mem _ (by decide) (by decide))
    positive small identified slash whole
  refine ⟨_, ?_, read.trans ?_⟩
  · unfold formatAdpMultiaddr
    simp only [identified, if_false, family]
    simp only [dottedText, bind, Except.bind, pure, Except.pure, String.append_assoc]
    rfl
  · simp

theorem format_ip6 {endpoint : IpEndpoint} {peerId : String} (family : endpoint.family = .v6)
    (sized : endpoint.addr.length = 16) (positive : 0 < endpoint.port) (small : endpoint.port < 65536)
    (identified : peerId ≠ "") (slash : '/' ∉ peerId.toList) (whole : '\x00' ∉ peerId.toList) :
    ∃ text, formatAdpMultiaddr endpoint peerId = .ok text ∧ parseAdpMultiaddr text = .ok {
      endpoint := { family := .v6, addr := endpoint.addr, port := endpoint.port }
      peerId := peerId
      ampWire := kWireVersion } := by
  obtain ⟨literal, written, known⟩ := LawfulInet.inverse endpoint.addr sized
  have plain : ∀ char, char.isHexDigit = false → char ≠ ':' → char ≠ '.' → char ∉ literal.toList := by
    intro char digit colon dot among
    rcases LawfulInet.literal literal _ known char among with hex | same | same
    · exact absurd hex (by simp [digit])
    · exact colon same
    · exact dot same
  have read := parse_written (.ip6 (plain '%' (by decide) (by decide) (by decide)) known)
    (plain '/' (by decide) (by decide) (by decide)) (plain _ (by decide) (by decide) (by decide))
    positive small identified slash whole
  refine ⟨_, ?_, read⟩
  unfold formatAdpMultiaddr
  simp only [identified, if_false, family, formatIp6Host, written]
  simp only [bind, Except.bind, pure, Except.pure, String.append_assoc]
  rfl

/-- An address written is read back, and exactly the texts that have the form are read. -/
structure MultiaddrLaws : Prop where
  roundTrip : ∀ (endpoint : IpEndpoint) (peerId : String), endpoint.addr.length = 16 →
    0 < endpoint.port → endpoint.port < 65536 → endpoint.scopeId = 0 → peerId ≠ "" →
    '/' ∉ peerId.toList → '\x00' ∉ peerId.toList →
    ∃ text parsed, formatAdpMultiaddr endpoint peerId = .ok text ∧
      parseAdpMultiaddr text = .ok parsed ∧ parsed.endpoint.same endpoint = true ∧
      parsed.peerId = peerId ∧ parsed.hostname = "" ∧ parsed.ampWire = kWireVersion
  read_iff : ∀ text : String, '\x00' ∉ text.toList → ∀ parsed,
    parseAdpMultiaddr text = .ok parsed ↔ MultiaddrText text parsed

theorem multiaddr_laws : MultiaddrLaws where
  roundTrip := by
    intro endpoint peerId sized positive small scope identified slash whole
    cases family : endpoint.family with
    | v4 =>
        obtain ⟨text, written, read⟩ := format_ip4 family positive small identified slash whole
        refine ⟨text, _, written, read, ?_, rfl, rfl, rfl⟩
        rcases octets : endpoint.addr with _ | ⟨a, _ | ⟨b, _ | ⟨c, _ | ⟨d, rest⟩⟩⟩⟩
        case cons.cons.cons.cons => simp [IpEndpoint.same, Adp.Family.addrBytes, family, octets]
        all_goals exact absurd sized (by simp [octets])
    | v6 =>
        obtain ⟨text, written, read⟩ := format_ip6 family sized positive small identified slash whole
        refine ⟨text, _, written, read, ?_, rfl, rfl, rfl⟩
        simp [IpEndpoint.same, family, scope]
  read_iff := fun _ whole parsed => parseAdpMultiaddr_ok_iff whole parsed

end Formatting

section Sample

/-- A group of an IPv6 literal, its leading zeros written out. -/
def sampleGroup (high low : UInt8) : String := String.ofList
  [Nat.digitChar (high.toNat / 16), Nat.digitChar (high.toNat % 16),
    Nat.digitChar (low.toNat / 16), Nat.digitChar (low.toNat % 16)]

def sampleGroups : Bytes → List String
  | high :: low :: rest => sampleGroup high low :: sampleGroups rest
  | _ => []

def hexValue (char : Char) : Option Nat :=
  if char.isDigit then some (char.toNat - 48)
  else if 'a' ≤ char ∧ char ≤ 'f' then some (char.toNat - 87)
  else none

def groupBytes (group : String) : Except Unit Bytes :=
  match group.toList.map hexValue with
  | [some a, some b, some c, some d] => .ok [UInt8.ofNat (a * 16 + b), UInt8.ofNat (c * 16 + d)]
  | _ => .error ()

/-- IPv6 literals of eight groups of four digits each. -/
local instance sampleInet : Inet where
  inetPton literal :=
    match (split literal ':').mapM groupBytes with
    | .ok groups => if groups.length = 8 then some groups.flatten else none
    | .error _ => none
  inetNtop addr := some (":".intercalate (sampleGroups addr))

theorem hexValue_digitChar : ∀ digit < 16, hexValue (Nat.digitChar digit) = some digit := by decide

theorem groupBytes_sampleGroup (high low : UInt8) :
    groupBytes (sampleGroup high low) = .ok [high, low] := by
  have nibble : ∀ octet : UInt8, UInt8.ofNat (octet.toNat / 16 * 16 + octet.toNat % 16) = octet := by
    intro octet
    rw [Nat.div_add_mod' octet.toNat 16, UInt8.ofNat_toNat]
  have big : ∀ octet : UInt8, octet.toNat / 16 < 16 := by
    intro octet
    have bound := octet.toNat_lt
    omega
  have small : ∀ octet : UInt8, octet.toNat % 16 < 16 := fun octet => Nat.mod_lt _ (by decide)
  simp only [groupBytes, sampleGroup, String.toList_ofList, List.map_cons, List.map_nil]
  rw [hexValue_digitChar _ (big high), hexValue_digitChar _ (small high),
    hexValue_digitChar _ (big low), hexValue_digitChar _ (small low)]
  show Except.ok [_, _] = _
  rw [nibble, nibble]

theorem hexValue_hex {char : Char} {value : Nat} (known : hexValue char = some value) :
    char.isHexDigit = true := by
  unfold hexValue at known
  unfold Char.isHexDigit
  split at known
  · rename_i digit
    simp [digit]
  · split at known
    · rename_i inside
      have low := Char.le_def.mp inside.1
      have high := Char.le_def.mp inside.2
      simp only [Bool.or_eq_true, Bool.and_eq_true, decide_eq_true_eq]
      exact .inl (.inr ⟨low, high⟩)
    · cases known

theorem groupBytes_ok {group : String} {bytes : Bytes} (known : groupBytes group = .ok bytes) :
    bytes.length = 2 ∧ ∀ char ∈ group.toList, char.isHexDigit = true := by
  unfold groupBytes at known
  split at known
  · rename_i a b c d digits
    refine ⟨by rw [← Except.ok.inj known]; rfl, ?_⟩
    intro char among
    have valued := List.mem_map_of_mem (f := hexValue) among
    rw [digits] at valued
    simp only [List.mem_cons, List.not_mem_nil, or_false] at valued
    rcases valued with valued | valued | valued | valued
    all_goals exact hexValue_hex valued
  · cases known

theorem sampleGroups_bytes (addr : Bytes) (even : addr.length % 2 = 0) : ∃ groups,
    List.Forall₂ (fun group bytes => groupBytes group = .ok bytes) (sampleGroups addr) groups ∧
      groups.flatten = addr ∧ 2 * groups.length = addr.length := by
  fun_induction sampleGroups addr with
  | case1 high low rest ih =>
      have shorter : rest.length % 2 = 0 := by
        simp only [List.length_cons] at even
        omega
      obtain ⟨groups, read, whole, count⟩ := ih shorter
      refine ⟨[high, low] :: groups, .cons (groupBytes_sampleGroup high low) read, ?_, ?_⟩
      · rw [List.flatten_cons, whole]
        rfl
      · simp only [List.length_cons]
        omega
  | case2 addr short =>
      have empty : addr = [] := by
        rcases addr with _ | ⟨one, _ | ⟨two, rest⟩⟩
        · rfl
        · cases even
        · exact absurd rfl (short one two rest)
      exact ⟨[], .nil, by rw [empty]; rfl, by rw [empty]; rfl⟩

theorem inetPton_sample {literal : String} {addr : Bytes} (known : sampleInet.inetPton literal = some addr) :
    ∃ groups, List.Forall₂ (fun group bytes => groupBytes group = .ok bytes) (split literal ':') groups ∧
      groups.length = 8 ∧ groups.flatten = addr := by
  unfold sampleInet at known
  simp only at known
  split at known
  · rename_i groups read
    split at known
    · rename_i eight
      exact ⟨groups, Reader.mapM_ok_iff.mp read, eight, Option.some.inj known⟩
    · cases known
  · cases known

theorem groupBytes_each {texts : List String} {groups : List Bytes}
    (read : List.Forall₂ (fun group bytes => groupBytes group = .ok bytes) texts groups) :
    groups.flatten.length = 2 * groups.length ∧
      ∀ text ∈ texts, ∀ char ∈ text.toList, char.isHexDigit = true := by
  induction read with
  | nil => exact ⟨rfl, fun _ among => absurd among List.not_mem_nil⟩
  | cons first _ ih =>
      obtain ⟨pair, digits⟩ := groupBytes_ok first
      constructor
      · rw [List.flatten_cons, List.length_append, pair, ih.1, List.length_cons]
        omega
      · rw [List.forall_mem_cons]
        exact ⟨digits, ih.2⟩

local instance : LawfulInet where
  sized := by
    intro literal addr known
    obtain ⟨groups, read, eight, rfl⟩ := inetPton_sample known
    rw [(groupBytes_each read).1, eight]
  literal := by
    intro literal addr known char among
    obtain ⟨groups, read, -, -⟩ := inetPton_sample known
    rw [(split_separated literal ':').joined] at among
    rcases of_mem_intercalate among with colon | ⟨group, taken, inside⟩
    · exact .inr (.inl (by simpa using colon))
    · exact .inl ((groupBytes_each read).2 group taken char inside)
  inverse := by
    intro addr sized
    obtain ⟨groups, read, whole, count⟩ := sampleGroups_bytes addr (by omega)
    have digits := (groupBytes_each read).2
    have filled : sampleGroups addr ≠ [] := by
      intro empty
      rw [empty, List.forall₂_nil_left_iff] at read
      rw [read, sized] at count
      cases count
    have separated : Separated ':' (sampleGroups addr) (":".intercalate (sampleGroups addr)) :=
      ⟨filled, fun group taken colon => absurd (digits group taken ':' colon) (by decide), rfl⟩
    have eight : groups.length = 8 := by omega
    refine ⟨_, rfl, ?_⟩
    unfold sampleInet
    simp only [separated.split_eq, Reader.mapM_ok_iff.mpr read, eight, if_true, whole]

/-- The endpoint of a peer at an IPv6 address. -/
def samplePeerEndpoint : IpEndpoint where
  family := .v6
  addr := [0x20, 0x01, 0x1d, 0xb8, 0x85, 0xa3, 0x10, 0x01, 0x90, 0x02, 0x8a, 0x2e, 0x13, 0x70, 0x73, 0x34]
  port := 4001

theorem multiaddr_laws_sample : ∃ text parsed,
    formatAdpMultiaddr samplePeerEndpoint "12D3KooWpeer" = .ok text ∧
      parseAdpMultiaddr text = .ok parsed ∧ parsed.endpoint.same samplePeerEndpoint = true ∧
      parsed.peerId = "12D3KooWpeer" ∧ parsed.hostname = "" ∧ parsed.ampWire = kWireVersion :=
  multiaddr_laws.roundTrip samplePeerEndpoint "12D3KooWpeer" rfl (by decide) (by decide) rfl (by decide)
    (by decide) (by decide)

end Sample

end Amp
