import Amp.L2.MshMessages
import Amp.L2.SessionKeys

set_option autoImplicit false

/- The Finished messages of the handshake (MshHandshake.cpp, SessionKeys.cpp). -/
namespace Amp

open Adp (Bytes Hmac)

def kAmpFinishedInfo : String := "pp-amp-msh-finished-v1"

/-- The library's SHA-256. -/
class Sha256 where
  sha256 : Bytes → Bytes

namespace SessionKeys

variable [Sha256]

/-- `TranscriptHash`: the parts are hashed one after the other. -/
def transcriptHash (parts : List Bytes) : Bytes := Sha256.sha256 parts.flatten

end SessionKeys

namespace MshHandshake

open SessionKeys (transcriptHash)
open MshMessages

variable [Hkdf] [Hmac]

/-- The key of the Finished MACs of a master secret. -/
def finishedKey (masterIkm : Bytes) : Except String Bytes :=
  match Hkdf.extract kAmpHkdfSalt masterIkm with
  | none => .error "amp msh: finished hkdf extract failed"
  | some prk =>
      match Hkdf.expand kSessionKeyBytes kAmpFinishedInfo prk with
      | none => .error "amp msh: finished hkdf expand failed"
      | some key => .ok key

def finishedMac (masterIkm transcriptHash : Bytes) : Except String Bytes :=
  match finishedKey masterIkm with
  | .error error => .error error
  | .ok key => .ok (Hmac.hmacSha256 key transcriptHash)

variable [Sha256]

def buildFinished (masterIkm : Bytes) (transcriptParts : List Bytes) : Except String Bytes :=
  match finishedMac masterIkm (transcriptHash transcriptParts) with
  | .error error => .error error
  | .ok mac => encodeFinished { mac }

def verifyFinished (masterIkm : Bytes) (transcriptParts : List Bytes) (finishedWire : Bytes) :
    Except String Unit :=
  match decodeFinished finishedWire with
  | .error error => .error error
  | .ok finished =>
      match finishedMac masterIkm (transcriptHash transcriptParts) with
      | .error error => .error error
      | .ok expected =>
          if finished.mac ≠ expected then .error "amp msh: finished mismatch" else .ok ()

omit [Sha256] in
theorem finishedMac_length {masterIkm hash mac : Bytes} (made : finishedMac masterIkm hash = .ok mac) :
    mac.length = kFinishedMacBytes := by
  unfold finishedMac at made
  split at made
  · cases made
  · cases made
    exact Hmac.hmacSha256_length _ _

theorem buildFinished_ok {masterIkm wire : Bytes} {parts : List Bytes} :
    buildFinished masterIkm parts = .ok wire ↔ ∃ mac,
      finishedMac masterIkm (transcriptHash parts) = .ok mac ∧
        wire = MshMessageType.finished.code :: mac := by
  unfold buildFinished
  cases made : finishedMac masterIkm (transcriptHash parts) with
  | error error =>
      constructor
      · exact nofun
      · rintro ⟨mac, other, _⟩
        cases other
  | ok mac =>
      have encoded : encodeFinished { mac } = .ok (MshMessageType.finished.code :: mac) := by
        unfold encodeFinished
        rw [if_neg (not_not.mpr (finishedMac_length made))]
      dsimp only
      rw [encoded]
      constructor
      · intro same
        cases same
        exact ⟨mac, rfl, rfl⟩
      · rintro ⟨other, same, rfl⟩
        cases same
        rfl

/-- What is verified is what would be built. -/
theorem verifyFinished_iff {masterIkm wire : Bytes} {parts : List Bytes} :
    verifyFinished masterIkm parts wire = .ok () ↔ buildFinished masterIkm parts = .ok wire := by
  rw [buildFinished_ok]
  unfold verifyFinished
  constructor
  · intro verified
    split at verified
    · cases verified
    · rename_i finished decoded
      split at verified
      · cases verified
      · rename_i expected made
        split at verified
        · cases verified
        · rename_i same
          refine ⟨expected, made, ?_⟩
          rw [decodeFinished_ok decoded, not_not.mp same]
  · rintro ⟨mac, made, rfl⟩
    have encoded : encodeFinished { mac } = .ok (MshMessageType.finished.code :: mac) := by
      unfold encodeFinished
      rw [if_neg (not_not.mpr (finishedMac_length made))]
    rw [decodeFinished_encode encoded, made]
    exact if_neg (not_not.mpr rfl)

section Lawful

variable [LawfulHkdf]

end Lawful

end MshHandshake

end Amp
