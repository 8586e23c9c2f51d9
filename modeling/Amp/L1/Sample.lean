import Amp.L1.Connection

set_option autoImplicit false

/- Keyed checksums in the place of the two primitives the library gives, with
which runs of the model can be evaluated. -/
namespace Amp.Adp

def checksum (bytes : Bytes) : UInt8 := bytes.foldl (· * 3 + ·) 7

instance sampleHmac : Hmac where
  hmacSha256 key input := List.replicate 32 (checksum (key ++ input))
  hmacSha256_length _ _ := List.length_replicate

/-- Session keys reduced to one byte: a tag over everything sealed, checked on opening. -/
structure TagProtection where
  key : UInt8
  deriving DecidableEq

namespace TagProtection

def tag (protection : TagProtection) (space : PacketSpace) (number : Nat)
    (header plaintext : Bytes) : Bytes :=
  List.replicate kPacketTagBytes (checksum (protection.key :: UInt8.ofNat space.code ::
    UInt8.ofNat number :: (header ++ plaintext)))

def openBody (protection : TagProtection) (space : PacketSpace) (number : Nat)
    (header body : Bytes) : Except String Bytes :=
  let plaintext := body.take (body.length - kPacketTagBytes)
  if body = plaintext ++ protection.tag space number header plaintext then .ok plaintext
  else .error "amp: packet does not open"

instance : PacketProtection TagProtection where
  sealPacket protection space number header plaintext :=
    .ok (plaintext ++ protection.tag space number header plaintext)
  openPacket protection space number header body _ :=
    protection.openBody space number header body

theorem take_tag (protection : TagProtection) (space : PacketSpace) (number : Nat)
    (header plaintext : Bytes) :
    let body := plaintext ++ protection.tag space number header plaintext
    body.take (body.length - kPacketTagBytes) = plaintext := by
  intro body
  have size : body.length - kPacketTagBytes = plaintext.length := by
    simp [body, tag]
  rw [size, List.take_left]

instance : LawfulProtection TagProtection where
  open_seal sealer opener space number header plaintext body opened now done ok := by
    cases done
    simp only [PacketProtection.openPacket, openBody] at ok
    split at ok
    · cases ok
      exact take_tag sealer space number header plaintext
    · cases ok

end TagProtection

def samplePort : EndpointPort := ⟨1000, fun _ _ => .sent⟩

def sampleParams : OpenParams where
  key := []
  id := ⟨List.replicate kAssocIdBytes 0, List.length_replicate⟩
  peer := { port := 1 }

end Amp.Adp
