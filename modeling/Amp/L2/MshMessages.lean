import Amp.L1.Types

set_option autoImplicit false

/- The messages of the handshake (MshMessages.cpp). -/
namespace Amp

open Adp (Bytes)

def kMshVersion : UInt8 := 1
def kFinishedMacBytes : Nat := 32
def kHandshakeNonceBytes : Nat := 32

/-- The library's ML-KEM-768, with what it is to draw at random as an argument. -/
class MlKem where
  publicKeyBytes : Nat
  ciphertextBytes : Nat
  sharedSecretBytes : Nat
  /-- The public and the private key. -/
  generateKeyPair : Bytes → Except String (Bytes × Bytes)
  /-- For a public key, a ciphertext and the secret shared by it. -/
  encapsulate : Bytes → Bytes → Except String (Bytes × Bytes)
  /-- With the private key, the secret of a ciphertext. -/
  decapsulate : Bytes → Bytes → Except String Bytes

/-- The library's ML-DSA-65. -/
class MlDsa where
  publicKeyBytes : Nat
  secretKeyBytes : Nat
  signatureBytes : Nat
  /-- The secret key, what it is to draw, and the message. -/
  sign : Bytes → Bytes → Bytes → Except String Bytes
  /-- The public key, the message and a signature. -/
  verify : Bytes → Bytes → Bytes → Except String Bool

inductive MshMessageType where
  | clientHello
  | serverHello
  | clientPayload
  | serverPayload
  | finished
  /-- A byte that is none of them. -/
  | unknown (byte : UInt8)
  deriving DecidableEq, Repr

namespace MshMessageType

def code : MshMessageType → UInt8
  | .clientHello => 1
  | .serverHello => 2
  | .clientPayload => 3
  | .serverPayload => 4
  | .finished => 5
  | .unknown byte => byte

def ofCode (byte : UInt8) : MshMessageType :=
  if byte = 1 then .clientHello
  else if byte = 2 then .serverHello
  else if byte = 3 then .clientPayload
  else if byte = 4 then .serverPayload
  else if byte = 5 then .finished
  else .unknown byte

end MshMessageType

structure MshHello where
  version : UInt8 := kMshVersion
  kemPublicKey : Bytes
  nonce : Bytes
  deriving DecidableEq, Repr

structure MshPayload where
  kemCiphertext : Bytes
  identityPublicKey : Bytes
  staticKemPublicKey : Bytes
  identitySignature : Bytes
  deriving DecidableEq, Repr

structure MshFinished where
  mac : Bytes
  deriving DecidableEq, Repr

namespace MshMessages

def readFixed (wire : Bytes) (n : Nat) : Except String (Bytes × Bytes) :=
  if wire.length < n then .error "amp msh: truncated fixed field"
  else .ok (wire.take n, wire.drop n)

def expectEmpty (wire : Bytes) : Except String Unit :=
  if wire = [] then .ok () else .error "amp msh: trailing bytes"

def expectType (wire : Bytes) (expected : MshMessageType) : Except String Bytes :=
  match wire with
  | [] => .error "amp msh: empty message"
  | byte :: rest =>
      if byte ≠ expected.code then .error "amp msh: unexpected message type" else .ok rest

/-- `kAmpIdentityBindPrefix`. -/
def kAmpIdentityBindPrefix : Bytes :=
  "noise-libp2p-static-key:".toList.map fun letter => UInt8.ofNat letter.toNat

def encodeFinished (message : MshFinished) : Except String Bytes :=
  if message.mac.length ≠ kFinishedMacBytes then .error "amp msh: bad finished mac size"
  else .ok (MshMessageType.finished.code :: message.mac)

def decodeFinished (wire : Bytes) : Except String MshFinished := do
  let wire ← expectType wire .finished
  let (mac, wire) ← readFixed wire kFinishedMacBytes
  expectEmpty wire
  return { mac }

variable [MlKem]

def buildIdentitySignMessage (staticKemPublicKey : Bytes) : Except String Bytes :=
  if staticKemPublicKey.length ≠ MlKem.publicKeyBytes then .error "amp msh: bad static kem pk size"
  else .ok (kAmpIdentityBindPrefix ++ staticKemPublicKey)

def encodeHello (type : MshMessageType) (hello : MshHello) : Except String Bytes :=
  if hello.version ≠ kMshVersion then .error "amp msh: bad hello version"
  else if hello.kemPublicKey.length ≠ MlKem.publicKeyBytes then .error "amp msh: bad kem pk size"
  else if hello.nonce.length ≠ kHandshakeNonceBytes then .error "amp msh: bad hello nonce size"
  else .ok (type.code :: hello.version :: (hello.kemPublicKey ++ hello.nonce))

def decodeHello (expected : MshMessageType) (wire : Bytes) : Except String MshHello := do
  let wire ← expectType wire expected
  match wire with
  | [] => .error "amp msh: missing hello version"
  | version :: wire =>
      if version ≠ kMshVersion then .error "amp msh: unsupported hello version"
      else do
        let (kemPublicKey, wire) ← readFixed wire MlKem.publicKeyBytes
        let (nonce, wire) ← readFixed wire kHandshakeNonceBytes
        expectEmpty wire
        return { version, kemPublicKey, nonce }

variable [MlDsa]

def encodePayload (type : MshMessageType) (payload : MshPayload) : Except String Bytes :=
  if payload.kemCiphertext.length ≠ MlKem.ciphertextBytes then .error "amp msh: bad kem ct size"
  else if payload.identityPublicKey.length ≠ MlDsa.publicKeyBytes then
    .error "amp msh: bad identity pk size"
  else if payload.staticKemPublicKey.length ≠ MlKem.publicKeyBytes then
    .error "amp msh: bad static kem pk size"
  else if payload.identitySignature.length ≠ MlDsa.signatureBytes then
    .error "amp msh: bad identity sig size"
  else .ok (type.code :: (payload.kemCiphertext ++ (payload.identityPublicKey ++
    (payload.staticKemPublicKey ++ payload.identitySignature))))

def decodePayload (expected : MshMessageType) (wire : Bytes) : Except String MshPayload := do
  let wire ← expectType wire expected
  let (kemCiphertext, wire) ← readFixed wire MlKem.ciphertextBytes
  let (identityPublicKey, wire) ← readFixed wire MlDsa.publicKeyBytes
  let (staticKemPublicKey, wire) ← readFixed wire MlKem.publicKeyBytes
  let (identitySignature, wire) ← readFixed wire MlDsa.signatureBytes
  expectEmpty wire
  return { kemCiphertext, identityPublicKey, staticKemPublicKey, identitySignature }

section RoundTrip

omit [MlKem] [MlDsa]

theorem readFixed_append {field : Bytes} {n : Nat} (size : field.length = n) (rest : Bytes) :
    readFixed (field ++ rest) n = .ok (field, rest) := by
  unfold readFixed
  rw [if_neg, List.take_left' size, List.drop_left' size]
  rw [List.length_append]
  omega

theorem readFixed_all {field : Bytes} {n : Nat} (size : field.length = n) :
    readFixed field n = .ok (field, []) := by
  have read := readFixed_append size []
  rwa [List.append_nil] at read

theorem expectType_code (type : MshMessageType) (rest : Bytes) :
    expectType (type.code :: rest) type = .ok rest := by
  dsimp only [expectType]
  rw [if_neg (not_not.mpr rfl)]

theorem decodeFinished_encode {message : MshFinished} {wire : Bytes}
    (encoded : encodeFinished message = .ok wire) : decodeFinished wire = .ok message := by
  unfold encodeFinished at encoded
  split at encoded
  · cases encoded
  · rename_i size
    cases encoded
    have mac := readFixed_all (not_not.mp size)
    simp only [decodeFinished, expectType_code, mac, bind, Except.bind]
    rfl

theorem bind_ok {α β : Type} {first : Except String α} {next : α → Except String β} {result : β}
    (done : first.bind next = .ok result) : ∃ value, first = .ok value ∧ next value = .ok result := by
  cases first with
  | error error => cases done
  | ok value => exact ⟨value, rfl, done⟩

theorem expectType_ok {wire rest : Bytes} {expected : MshMessageType}
    (read : expectType wire expected = .ok rest) : wire = expected.code :: rest := by
  cases wire with
  | nil => cases read
  | cons byte tail =>
      dsimp only [expectType] at read
      split at read
      · cases read
      · rename_i same
        cases read
        rw [not_not.mp same]

theorem readFixed_ok {wire field rest : Bytes} {n : Nat} (read : readFixed wire n = .ok (field, rest)) :
    wire = field ++ rest := by
  unfold readFixed at read
  split at read
  · cases read
  · cases read
    exact (List.take_append_drop n wire).symm

theorem expectEmpty_ok {wire : Bytes} {done : Unit} (read : expectEmpty wire = .ok done) :
    wire = [] := by
  unfold expectEmpty at read
  split at read
  · assumption
  · cases read

theorem decodeFinished_ok {wire : Bytes} {message : MshFinished}
    (decoded : decodeFinished wire = .ok message) :
    wire = MshMessageType.finished.code :: message.mac := by
  obtain ⟨span, typed, decoded⟩ := bind_ok decoded
  obtain ⟨field, read, decoded⟩ := bind_ok decoded
  obtain ⟨_, ends, decoded⟩ := bind_ok decoded
  cases decoded
  have blank := expectEmpty_ok ends
  have split := readFixed_ok read
  rw [blank, List.append_nil] at split
  rw [expectType_ok typed, split]

end RoundTrip

theorem decodePayload_encode {type : MshMessageType} {payload : MshPayload} {wire : Bytes}
    (encoded : encodePayload type payload = .ok wire) : decodePayload type wire = .ok payload := by
  unfold encodePayload at encoded
  split at encoded
  · cases encoded
  · rename_i ciphertext
    split at encoded
    · cases encoded
    · rename_i identity
      split at encoded
      · cases encoded
      · rename_i key
        split at encoded
        · cases encoded
        · rename_i signature
          cases encoded
          have ciphertext := readFixed_append (not_not.mp ciphertext) (payload.identityPublicKey ++
            (payload.staticKemPublicKey ++ payload.identitySignature))
          have identity := readFixed_append (not_not.mp identity)
            (payload.staticKemPublicKey ++ payload.identitySignature)
          have key := readFixed_append (not_not.mp key) payload.identitySignature
          have signature := readFixed_all (not_not.mp signature)
          simp only [decodePayload, expectType_code, ciphertext, identity, key, signature, bind,
            Except.bind]
          rfl

end MshMessages

end Amp
