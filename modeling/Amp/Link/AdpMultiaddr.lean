import Amp.L1.Datagrams
import Amp.Lib.Reader
import Amp.Lib.Text
import Amp.Link.DialBook

set_option autoImplicit false

/- The addresses endpoints are dialed at, read and written (AdpMultiaddr.cpp). A text has one
character for each byte. -/
namespace Amp

open Adp (Bytes IpEndpoint kWireVersion)
open Text (split fromChars fromCharsInt Decimal Separated)

/-- `inet_pton` and `inet_ntop` for IPv6: an address is its sixteen bytes. -/
class Inet where
  inetPton : String → Option Bytes
  inetNtop : Bytes → Option String

/-- What is known of them: each undoes the other, and a literal has hexadecimal digits, colons and
dots alone. -/
class LawfulInet [Inet] : Prop where
  sized : ∀ literal addr, Inet.inetPton literal = some addr → addr.length = 16
  literal : ∀ literal addr, Inet.inetPton literal = some addr →
    ∀ char ∈ literal.toList, char.isHexDigit = true ∨ char = ':' ∨ char = '.'
  inverse : ∀ addr, addr.length = 16 →
    ∃ literal, Inet.inetNtop addr = some literal ∧ Inet.inetPton literal = some addr

def kAdpMultiaddrProtocol : String := "adp"

def kAdpMultiaddrLegacyVersion : String := "1.0.0"

/-- A text as `c_str` gives it: up to its first NUL. -/
def cStr (text : String) : String := String.ofList (text.toList.takeWhile (· != '\x00'))

def parsePort (text : String) : Except String Nat :=
  match fromChars 65535 text.toList with
  | some (port, []) => if port = 0 then .error "amp addr: bad udp port" else .ok port
  | _ => .error "amp addr: bad udp port"

/-- One turn of the loop of `ParseIp4HostPort`. -/
def parseOctet (text : String) : Except String UInt8 :=
  match fromChars 4294967295 text.toList with
  | some (value, []) =>
      if 255 < value then .error "amp addr: bad ipv4 octet" else .ok (UInt8.ofNat value)
  | _ => .error "amp addr: bad ipv4 octet"

def parseIp4HostPort (host port : String) : Except String IpEndpoint :=
  let parts := split host '.'
  if parts.length ≠ 4 then .error "amp addr: bad ipv4 host"
  else do
    let octets ← parts.mapM parseOctet
    let port ← parsePort port
    return { family := .v4, addr := octets ++ List.replicate 12 0, port := port }

/-- The host without its brackets. -/
def unbracketed (host : String) : String :=
  match host.toList with
  | '[' :: inner =>
      if inner.getLast? = some ']' then String.ofList inner.dropLast else host
  | _ => host

def parseIp6HostPort [Inet] (host port : String) : Except String IpEndpoint :=
  let host := unbracketed host
  if '%' ∈ host.toList then .error "amp addr: ipv6 zone id unsupported"
  else
    match Inet.inetPton (cStr host) with
    | none => .error "amp addr: bad ipv6 host"
    | some addr => do
        let port ← parsePort port
        return { family := .v6, addr := addr, port := port }

def isDnsLabel (label : String) : Bool :=
  decide (label.toList ≠ [] ∧ label.length ≤ 63 ∧ label.toList.head? ≠ some '-' ∧
    label.toList.getLast? ≠ some '-') &&
    label.toList.all fun char => char.isLower || char.isUpper || char.isDigit || char == '-'

def isDnsName (host : String) : Bool :=
  decide (host ≠ "" ∧ host.length ≤ 253) && (split host '.').all isDnsLabel

/-- What the address says of the wire version, `0` where it says nothing. -/
def parseWire (token : String) : Except String Nat :=
  if token = kAdpMultiaddrLegacyVersion then .ok 0
  else
    match fromCharsInt token.toList with
    | some (wire, []) =>
        if wire ≤ 0 ∨ (Adp.kVersionNegotiationNibble : Int) ≤ wire then
          .error "amp addr: unsupported multiaddr layout"
        else if wire ≠ kWireVersion then
          .error ("amp addr: wire v" ++ toString wire ++ ", not ours")
        else .ok wire.toNat
    | _ => .error "amp addr: unsupported multiaddr layout"

def hostFamilyOf (kind : String) : HostFamily :=
  if kind = "dns4" then .v4 else if kind = "dns6" then .v6 else .any

/-- `ParseAdpMultiaddr`, from the components on. -/
def parseComponents [Inet] (parts : List String) : Except String ParsedAdpMultiaddr :=
  match parts with
  | [kind, host, udp, port, adp, version, p2p, peerId] =>
      let dns := decide (kind = "dns" ∨ kind = "dns4" ∨ kind = "dns6")
      if (kind ≠ "ip4" ∧ kind ≠ "ip6" ∧ dns = false) ∨ udp ≠ "udp" ∨ adp ≠ kAdpMultiaddrProtocol ∨
          p2p ≠ "p2p" then
        .error "amp addr: unsupported multiaddr layout"
      else do
        let wire ← parseWire version
        if peerId = "" then .error "amp addr: missing peer id"
        else if dns then
          if isDnsName host = false then .error "amp addr: bad hostname"
          else
            let port ← parsePort port
            return {
              endpoint := { port := port }
              peerId := peerId
              hostname := host
              hostFamily := hostFamilyOf kind
              ampWire := wire }
        else
          let endpoint ← if kind = "ip4" then parseIp4HostPort host port else parseIp6HostPort host port
          return { endpoint := endpoint, peerId := peerId, ampWire := wire }
  | _ => .error "amp addr: expected 8 components"

def parseAdpMultiaddr [Inet] (multiaddr : String) : Except String ParsedAdpMultiaddr :=
  match multiaddr.toList with
  | '/' :: components => parseComponents (split (String.ofList components) '/')
  | _ => .error "amp addr: expected leading slash"

instance [Inet] : MultiaddrParser := ⟨parseAdpMultiaddr⟩

/-- An address names a peer, and one with a hostname has nothing of an endpoint but its port. -/
theorem parseAdpMultiaddr_fields [Inet] {multiaddr : String} {parsed : ParsedAdpMultiaddr}
    (read : parseAdpMultiaddr multiaddr = .ok parsed) : parsed.peerId ≠ "" ∧
      (parsed.hostname ≠ "" → parsed.endpoint = { port := parsed.endpoint.port }) := by
  unfold parseAdpMultiaddr at read
  split at read
  case h_2 => cases read
  unfold parseComponents at read
  split at read
  case h_2 => cases read
  dsimp only at read
  split at read
  · cases read
  obtain ⟨wire, -, read⟩ := Reader.bind_ok_iff.mp read
  split at read
  · cases read
  rename_i named
  split at read
  · split at read
    · cases read
    obtain ⟨number, -, read⟩ := Reader.bind_ok_iff.mp read
    rw [← Except.ok.inj read]
    exact ⟨named, fun _ => rfl⟩
  · split at read
    all_goals
      obtain ⟨endpoint, -, read⟩ := Reader.bind_ok_iff.mp read
      rw [← Except.ok.inj read]
      exact ⟨named, fun host => absurd rfl host⟩

def formatIp6Host [Inet] (endpoint : IpEndpoint) : Except String String :=
  match Inet.inetNtop endpoint.addr with
  | none => .error "amp addr: ipv6 format failed"
  | some host => .ok host

def adpMultiaddrVersionToken : String := toString kWireVersion

def adpUdpSegment (port : Nat) : String :=
  "/udp/" ++ toString port ++ "/" ++ kAdpMultiaddrProtocol ++ "/" ++ adpMultiaddrVersionToken

def formatAdpMultiaddr [Inet] (endpoint : IpEndpoint) (peerId : String) : Except String String :=
  if peerId = "" then .error "amp addr: missing peer id"
  else do
    let host ← match endpoint.family with
      | .v4 =>
          let octet := fun index => toString (endpoint.addr.getD index 0).toNat
          pure ("/ip4/" ++ octet 0 ++ "." ++ octet 1 ++ "." ++ octet 2 ++ "." ++ octet 3)
      | .v6 => do
          let host ← formatIp6Host endpoint
          pure ("/ip6/" ++ host)
    return host ++ adpUdpSegment endpoint.port ++ "/p2p/" ++ peerId

end Amp
