import Amp.L3.ChannelWire

set_option autoImplicit false

/- What is said on channel 0, and how its reader takes it apart (SessionControl.cpp,
Capability.cpp). -/
namespace Amp

open Adp (Bytes)

inductive SessionControlKind where
  | rekeyRequest
  | rekeyAck
  deriving DecidableEq, Repr

def SessionControlKind.code : SessionControlKind → UInt8
  | .rekeyRequest => 1
  | .rekeyAck => 2

def kSessionControlWireVersion : UInt8 := 2

/-- `SessionControlCodec::LooksLike`. -/
def looksLikeSessionControl (wire : Bytes) : Bool :=
  match wire with
  | version :: kind :: rest => decide (4 ≤ rest.length) && version == kSessionControlWireVersion &&
      (kind == SessionControlKind.rekeyRequest.code || kind == SessionControlKind.rekeyAck.code)
  | _ => false

structure SessionRekeyMessage where
  kind : SessionControlKind := .rekeyRequest
  targetEpoch : UInt32 := 0
  deriving DecidableEq, Repr

namespace SessionControlCodec

def encode (message : SessionRekeyMessage) : Bytes :=
  kSessionControlWireVersion :: message.kind.code :: LittleEndian.encode 4 message.targetEpoch.toNat

def decode (wire : Bytes) : Except String SessionRekeyMessage :=
  match wire with
  | version :: kind :: epoch =>
      if epoch.length ≠ 4 then .error "amp session control: bad length"
      else if version ≠ kSessionControlWireVersion then .error "amp session control: bad version"
      else if kind = SessionControlKind.rekeyRequest.code then
        .ok ⟨.rekeyRequest, .ofNat (LittleEndian.decode epoch)⟩
      else if kind = SessionControlKind.rekeyAck.code then
        .ok ⟨.rekeyAck, .ofNat (LittleEndian.decode epoch)⟩
      else .error "amp session control: bad kind"
  | _ => .error "amp session control: bad length"

end SessionControlCodec

/-- Channel 0 capability payload (binary v1). -/
structure CapabilityPayload where
  localPeerId : Bytes
  listenMultiaddrs : List Bytes
  protocols : List Bytes
  deriving DecidableEq, Repr

structure CapabilityExtension where
  ampWire : UInt8
  nodeVersion : Bytes
  features : List Bytes
  deriving DecidableEq, Repr

def kCapabilityExtensionTag : UInt8 := 3

namespace CapabilityCodec

open ChannelWire

def appendStrings : List Bytes → Except String Bytes
  | [] => .ok []
  | item :: items =>
      match encodeLenUtf8Le item with
      | .error message => .error message
      | .ok encoded =>
          match appendStrings items with
          | .error message => .error message
          | .ok rest => .ok (encoded ++ rest)

def appendStringList (items : List Bytes) : Except String Bytes :=
  if 0xFFFF < items.length then .error "amp cap: too many strings"
  else
    match appendStrings items with
    | .error message => .error message
    | .ok texts => .ok (appendU16 items.length ++ texts)

def encode (payload : CapabilityPayload) : Except String Bytes := do
  let peer ← encodeLenUtf8Le payload.localPeerId
  let addrs ← appendStringList payload.listenMultiaddrs
  let protos ← appendStringList payload.protocols
  return 1 :: (peer ++ (addrs ++ protos))

def encodeExtension (extension : CapabilityExtension) : Except String Bytes := do
  let version ← encodeLenUtf8Le extension.nodeVersion
  let features ← appendStringList extension.features
  return kCapabilityExtensionTag :: extension.ampWire :: (version ++ features)

def readStrings : Nat → Bytes → Except String (List Bytes × Bytes)
  | 0, wire => .ok ([], wire)
  | count + 1, wire => do
      let (text, wire) ← decodeLenUtf8Le wire
      let (texts, wire) ← readStrings count wire
      return (text :: texts, wire)

def readStringList (wire : Bytes) : Except String (List Bytes × Bytes) := do
  let (count, wire) ← readField 2 "amp cap: truncated string list count" wire
  readStrings count wire

def decode (wire : Bytes) : Except String CapabilityPayload :=
  match wire with
  | 1 :: wire => do
      let (peer, wire) ← decodeLenUtf8Le wire
      let (addrs, wire) ← readStringList wire
      let (protocols, wire) ← readStringList wire
      if wire.isEmpty then return ⟨peer, addrs, protocols⟩
      throw "amp cap: trailing bytes"
  | _ => .error "amp cap: bad version"

def isExtension (wire : Bytes) : Bool := wire.head? == some kCapabilityExtensionTag

/-- Bytes past the features are a later version's fields. -/
def decodeExtension (wire : Bytes) : Except String CapabilityExtension :=
  match wire with
  | tag :: ampWire :: wire =>
      if tag ≠ kCapabilityExtensionTag then .error "amp cap: not a capability extension"
      else do
        let (version, wire) ← decodeLenUtf8Le wire
        let (features, _) ← readStringList wire
        return ⟨ampWire, version, features⟩
  | _ => .error "amp cap: not a capability extension"

end CapabilityCodec

end Amp
