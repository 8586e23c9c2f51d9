import Amp.L1.Connection
import Amp.Lib.LittleEndian

set_option autoImplicit false

/- How the packets of a session are sealed (SessionAead.cpp, SessionCrypto.cpp). -/
namespace Amp

open Adp (Bytes PacketSpace)

def kSessionKeyBytes : Nat := 32
def kAeadNonceSize : Nat := 24

inductive Direction where
  | initiatorToResponder
  | responderToInitiator
  deriving DecidableEq, Repr

def Direction.code : Direction → UInt8
  | initiatorToResponder => 0
  | responderToInitiator => 1

theorem Direction.code_injective {left right : Direction} (same : left.code = right.code) :
    left = right := by
  cases left <;> cases right <;> first | rfl | (exact absurd same (by decide))

/-- The library's AEAD over a key, a nonce and associated data; `none` is a nonzero
return code. -/
class Aead where
  encrypt (key nonce aad plaintext : Bytes) : Option Bytes
  decrypt (key nonce aad ciphertext : Bytes) : Option Bytes

/-- A correct and unforgeable AEAD: a ciphertext opens under what it was made with and
under nothing else, and carries a tag. -/
class LawfulAead [Aead] : Prop where
  decrypt_encrypt : ∀ {key nonce aad plaintext ciphertext : Bytes},
    Aead.encrypt key nonce aad plaintext = some ciphertext →
    Aead.decrypt key nonce aad ciphertext = some plaintext
  decrypt_foreign : ∀ {key nonce aad plaintext ciphertext : Bytes},
    Aead.encrypt key nonce aad plaintext = some ciphertext → ∀ {otherKey otherNonce other : Bytes},
    ¬ (otherKey = key ∧ otherNonce = nonce ∧ other = aad) →
    Aead.decrypt otherKey otherNonce other ciphertext = none
  tagged : ∀ {key nonce aad plaintext ciphertext : Bytes},
    Aead.encrypt key nonce aad plaintext = some ciphertext →
    Adp.kPacketTagBytes ≤ ciphertext.length

/-- The library's ciphertext is as long as its plaintext, and a tag. -/
class SizedAead [Aead] : Prop where
  encrypt_length : ∀ {key nonce aad plaintext ciphertext : Bytes},
    Aead.encrypt key nonce aad plaintext = some ciphertext →
    ciphertext.length = plaintext.length + Adp.kPacketTagBytes

namespace SessionAead

variable [Aead]

/-- The buffer handed over always has room for the tag, so its size check is left out. -/
def encryptInto (sessionKey plaintext aad nonce : Bytes) : Except String Bytes :=
  if sessionKey.length ≠ kSessionKeyBytes then .error "Invalid session key size"
  else if nonce.length ≠ kAeadNonceSize then .error "Invalid nonce size"
  else
    match Aead.encrypt sessionKey nonce aad plaintext with
    | none => .error "AEAD encrypt failed"
    | some ciphertext => .ok ciphertext

def decrypt (sessionKey nonce ciphertext aad : Bytes) : Except String Bytes :=
  if sessionKey.length ≠ kSessionKeyBytes then .error "Invalid session key size"
  else if nonce.length ≠ kAeadNonceSize then .error "Invalid nonce size"
  else
    match Aead.decrypt sessionKey nonce aad ciphertext with
    | none => .error "AEAD decrypt failed"
    | some plaintext => .ok plaintext

end SessionAead

namespace SessionCrypto

def packetNonce (direction : Direction) (space : PacketSpace) (sessionEpoch number : UInt32) :
    Bytes :=
  direction.code :: UInt8.ofNat space.code ::
    (LittleEndian.encode 4 sessionEpoch.toNat ++ (LittleEndian.encode 4 number.toNat ++
      List.replicate 14 0))

@[simp] theorem packetNonce_length (direction : Direction) (space : PacketSpace)
    (sessionEpoch number : UInt32) :
    (packetNonce direction space sessionEpoch number).length = kAeadNonceSize := by
  simp [packetNonce, kAeadNonceSize]

theorem encode_word_injective {left right : UInt32}
    (same : LittleEndian.encode 4 left.toNat = LittleEndian.encode 4 right.toNat) :
    left = right := by
  apply UInt32.toNat_inj.mp
  exact LittleEndian.encode_injective 4 _ _ left.toNat_lt right.toNat_lt same

theorem space_code_injective {left right : PacketSpace}
    (same : UInt8.ofNat left.code = UInt8.ofNat right.code) : left = right := by
  cases left <;> cases right <;> first | rfl | (exact absurd same (by decide))

/-- A nonce says which packet of which epoch it is for. -/
theorem packetNonce_injective {direction other : Direction} {space otherSpace : PacketSpace}
    {sessionEpoch number otherEpoch otherNumber : UInt32}
    (same : packetNonce direction space sessionEpoch number =
      packetNonce other otherSpace otherEpoch otherNumber) :
    direction = other ∧ space = otherSpace ∧ sessionEpoch = otherEpoch ∧ number = otherNumber := by
  simp only [packetNonce, List.cons.injEq] at same
  obtain ⟨towards, numbering, words⟩ := same
  have epochs := List.append_inj words (by simp)
  have numbers := List.append_inj epochs.2 (by simp)
  exact ⟨Direction.code_injective towards, space_code_injective numbering,
    encode_word_injective epochs.1, encode_word_injective numbers.1⟩

variable [Aead]

/-- `SealPacket`: the bytes appended to `out`. -/
def sealPacket (key : Bytes) (direction : Direction) (sessionEpoch : UInt32) (space : PacketSpace)
    (number : UInt32) (header plaintext : Bytes) : Except String Bytes :=
  SessionAead.encryptInto key plaintext header (packetNonce direction space sessionEpoch number)

def openPacket (key : Bytes) (direction : Direction) (sessionEpoch : UInt32) (space : PacketSpace)
    (number : UInt32) (header body : Bytes) : Except String Bytes :=
  if body.length < Adp.kPacketTagBytes then .error "amp: sealed packet too short"
  else SessionAead.decrypt key (packetNonce direction space sessionEpoch number) body header

variable {key header plaintext body : Bytes} {direction : Direction}
  {sessionEpoch number : UInt32} {space : PacketSpace}

theorem sealPacket_ok
    (sealed : sealPacket key direction sessionEpoch space number header plaintext = .ok body) :
    key.length = kSessionKeyBytes ∧ Aead.encrypt key
      (packetNonce direction space sessionEpoch number) header plaintext = some body := by
  unfold sealPacket SessionAead.encryptInto at sealed
  rw [packetNonce_length] at sealed
  split at sealed
  · cases sealed
  · rename_i sized
    simp only [ne_eq, not_true_eq_false, ↓reduceIte] at sealed
    split at sealed
    · cases sealed
    · rename_i ciphertext made
      cases sealed
      exact ⟨not_not.mp sized, made⟩

variable [LawfulAead]

/-- Under the key it was sealed with and the place it was sealed for, a packet opens. -/
theorem openPacket_same
    (sealed : sealPacket key direction sessionEpoch space number header plaintext = .ok body) :
    openPacket key direction sessionEpoch space number header body = .ok plaintext := by
  obtain ⟨sized, made⟩ := sealPacket_ok sealed
  have tagged : ¬ body.length < Adp.kPacketTagBytes := Nat.not_lt.mpr (LawfulAead.tagged made)
  simp [openPacket, SessionAead.decrypt, tagged, sized, LawfulAead.decrypt_encrypt made]

/-- Under any other key, or for any other place, it does not. -/
theorem openPacket_foreign
    (sealed : sealPacket key direction sessionEpoch space number header plaintext = .ok body)
    {otherKey otherHeader : Bytes} {other : Direction} {otherEpoch otherNumber : UInt32}
    {otherSpace : PacketSpace} (sized : otherKey.length = kSessionKeyBytes)
    (differs : ¬ (otherKey = key ∧ other = direction ∧ otherEpoch = sessionEpoch ∧
      otherSpace = space ∧ otherNumber = number ∧ otherHeader = header)) :
    openPacket otherKey other otherEpoch otherSpace otherNumber otherHeader body =
      .error "AEAD decrypt failed" := by
  obtain ⟨_, made⟩ := sealPacket_ok sealed
  have tagged : ¬ body.length < Adp.kPacketTagBytes := Nat.not_lt.mpr (LawfulAead.tagged made)
  have refused : Aead.decrypt otherKey (packetNonce other otherSpace otherEpoch otherNumber)
      otherHeader body = none := by
    apply LawfulAead.decrypt_foreign made
    rintro ⟨sameKey, sameNonce, sameHeader⟩
    obtain ⟨towards, numbering, epochs, numbers⟩ := packetNonce_injective sameNonce
    exact differs ⟨sameKey, towards, epochs, numbering, numbers, sameHeader⟩
  simp [openPacket, SessionAead.decrypt, tagged, sized, refused]

/-- Whatever opens a packet gets what was sealed. -/
theorem openPacket_ok
    (sealed : sealPacket key direction sessionEpoch space number header plaintext = .ok body)
    {otherKey otherHeader opened : Bytes} {other : Direction} {otherEpoch otherNumber : UInt32}
    {otherSpace : PacketSpace}
    (opens : openPacket otherKey other otherEpoch otherSpace otherNumber otherHeader body =
      .ok opened) : opened = plaintext := by
  by_cases same : otherKey = key ∧ other = direction ∧ otherEpoch = sessionEpoch ∧
      otherSpace = space ∧ otherNumber = number ∧ otherHeader = header
  · obtain ⟨rfl, rfl, rfl, rfl, rfl, rfl⟩ := same
    rw [openPacket_same sealed] at opens
    cases opens
    rfl
  · by_cases sized : otherKey.length = kSessionKeyBytes
    · rw [openPacket_foreign sealed sized same] at opens
      cases opens
    · unfold openPacket SessionAead.decrypt at opens
      rw [if_pos sized] at opens
      split at opens <;> cases opens

end SessionCrypto

end Amp
