import Mathlib.Tactic.NormNum

set_option autoImplicit false

/- Wire v2 constants, packet types and endpoints of the ADP transport
(include/amp/L1/Types.h and PacketProtection.h). -/
namespace Amp.Adp

abbrev Bytes := List UInt8

abbrev PeerKey := Bytes

def kWireVersion : Nat := 2
def kAssocIdBytes : Nat := 8
def kHmacBytes : Nat := 16
def kHeaderBytes : Nat := 1 + kAssocIdBytes + 4 + 4
def kSealedHeaderBytes : Nat := 1 + kAssocIdBytes + 4
def kMaxDatagramBytes : Nat := 1232
def kMaxPayload : Nat := kMaxDatagramBytes - kHeaderBytes - kHmacBytes
def kPacketTagBytes : Nat := 16
def kMaxSealedPayload : Nat := kMaxDatagramBytes - kSealedHeaderBytes - kPacketTagBytes

def kDefaultSkewMs : Int := 60000
def kDefaultReliableWindow : Nat := 128
def kDefaultReplayWindow : Nat := kDefaultReliableWindow
def kDefaultRtxIntervalMs : Int := 50
def kDefaultMaxRtx : Int := 20
def kRtoGranularityMs : Int := 10
def kMaxRtoMs : Int := 2000
def kPreAuthMaxRtx : Int := 2
def kPreAuthDialMaxRtx : Int := 6
def kAliveTimeoutMs : Int := 5000
def kKeepaliveFlagEchoRequest : Nat := 1
def kKeepaliveLivenessNumerator : Int := 5
def kKeepaliveLivenessDenominator : Int := 2
def kMaxPeerKeepaliveIntervalMs : Nat := 600000

/-- `0xffffffff`, the last value of the 32-bit counters. -/
def kSeqMax : Nat := 4294967295

inductive QosClass where
  | bestEffort
  | reliable
  deriving DecidableEq, Repr

inductive PacketType where
  | dataBestEffort
  | dataReliable
  | ack
  | close
  | keepalive
  | plainBestEffort
  | plainReliable
  deriving DecidableEq, Repr

namespace PacketType

def code : PacketType → Nat
  | dataBestEffort => 0
  | dataReliable => 1
  | ack => 2
  | close => 3
  | keepalive => 4
  | plainBestEffort => 5
  | plainReliable => 6

/-- The cast of the low nibble, refused above `kMaxPacketType`. -/
def ofCode : Nat → Option PacketType
  | 0 => some dataBestEffort
  | 1 => some dataReliable
  | 2 => some ack
  | 3 => some close
  | 4 => some keepalive
  | 5 => some plainBestEffort
  | 6 => some plainReliable
  | _ => none

def isSealed : PacketType → Bool
  | dataBestEffort | dataReliable => true
  | _ => false

def isReliableData : PacketType → Bool
  | dataReliable | plainReliable => true
  | _ => false

def isBestEffortData : PacketType → Bool
  | dataBestEffort | plainBestEffort => true
  | _ => false

end PacketType

structure AssocId where
  bytes : Bytes := List.replicate kAssocIdBytes 0
  size : bytes.length = kAssocIdBytes := by rfl
  deriving DecidableEq

/-- The numbering a sealed packet's number belongs to; part of the nonce. -/
inductive PacketSpace where
  | bestEffort
  | reliable
  | carrierBestEffort
  | carrierReliable
  deriving DecidableEq, Repr

def PacketSpace.code : PacketSpace → Nat
  | bestEffort => 0
  | reliable => 1
  | carrierBestEffort => 2
  | carrierReliable => 3

inductive Family where
  | v4
  | v6
  deriving DecidableEq, Repr

structure IpEndpoint where
  family : Family := .v4
  addr : Bytes := List.replicate 16 0
  port : Nat := 0
  scopeId : Nat := 0
  deriving DecidableEq, Repr

/-- How many leading address bytes a family uses. -/
def Family.addrBytes : Family → Nat
  | .v4 => 4
  | .v6 => 16

/-- `IpEndpoint::operator==`: the scope counts for IPv6 only. -/
def IpEndpoint.same (left right : IpEndpoint) : Bool :=
  left.family == right.family && left.port == right.port &&
    (left.family != .v6 || left.scopeId == right.scopeId) &&
    left.addr.take left.family.addrBytes == right.addr.take left.family.addrBytes

structure WirePacket where
  version : Nat := kWireVersion
  type : PacketType := .plainBestEffort
  assoc : AssocId := {}
  seq : Nat := 0
  timestampMs : Nat := 0
  payload : Bytes := []
  deriving DecidableEq

structure Message where
  assoc : AssocId
  seq : Nat
  qos : QosClass
  wasSealed : Bool
  payload : Bytes
  deriving DecidableEq

/-- ADP transport policy a deployment may tune. -/
structure AdpTuning where
  reliableWindow : Nat := kDefaultReliableWindow
  replayWindow : Nat := kDefaultReplayWindow
  rtxIntervalMs : Int := kDefaultRtxIntervalMs
  maxRtx : Int := kDefaultMaxRtx
  skewMs : Int := kDefaultSkewMs
  aliveTimeoutMs : Int := kAliveTimeoutMs
  deriving DecidableEq, Repr

end Amp.Adp
