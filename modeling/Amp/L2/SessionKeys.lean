import Amp.L2.SessionCrypto

set_option autoImplicit false

/- The keys of a session and of each of its epochs (SessionKeys.cpp). -/
namespace Amp

open Adp (Bytes)

def kAssocKeyBytes : Nat := 32
def kTranscriptHashBytes : Nat := 32
def kAmpHkdfSalt : String := "pp-amp-msh-v1"
def kAmpKAssocInfo : String := "pp-amp-k-assoc-v1"
def kAmpKClientInfo : String := "pp-amp-k-client-v1"
def kAmpKServerInfo : String := "pp-amp-k-server-v1"

structure SessionMaterial where
  kAssoc : Bytes := []
  kSend : Bytes := []
  kRecv : Bytes := []
  sessionEpoch : UInt32 := 1
  initiator : Bool := false
  deriving DecidableEq

/-- The library's HKDF-SHA-256: `extract` takes the salt and the input key material,
`expand` the output length, the info string and the extracted key. -/
class Hkdf where
  extract : String → Bytes → Option Bytes
  expand : Nat → String → Bytes → Option Bytes

/-- `expand` gives up to 255 hashes. -/
def kHkdfBytesMax : Nat := 255 * 32

/-- HKDF fails on nothing but an output that is too long. -/
class LawfulHkdf [Hkdf] : Prop where
  extracts : ∀ (salt : String) (ikm : Bytes), ∃ prk, Hkdf.extract salt ikm = some prk
  expands : ∀ (outLen : Nat) (info : String) (prk : Bytes), outLen ≤ kHkdfBytesMax →
    ∃ out, Hkdf.expand outLen info prk = some out ∧ out.length = outLen

namespace SessionKeys

def epochInfo (label : String) (sessionEpoch : UInt32) : String :=
  label ++ "|epoch:" ++ toString sessionEpoch.toNat

/-- The directions an end sends in and receives in. -/
def outDirection (initiator : Bool) : Direction :=
  if initiator then .initiatorToResponder else .responderToInitiator

def inDirection (initiator : Bool) : Direction :=
  if initiator then .responderToInitiator else .initiatorToResponder

@[simp] theorem inDirection_not (initiator : Bool) :
    inDirection (!initiator) = outDirection initiator := by
  cases initiator <;> rfl

theorem inDirection_ne (initiator : Bool) : inDirection initiator ≠ outDirection initiator := by
  cases initiator <;> decide

variable [Hkdf]

def hkdfExpand (prk : Bytes) (info : String) (outLen : Nat) : Except String Bytes :=
  match Hkdf.expand outLen info prk with
  | none => .error "amp: HKDF expand failed"
  | some out => .ok out

def hkdfExtract (ikm : Bytes) : Except String Bytes :=
  match Hkdf.extract kAmpHkdfSalt ikm with
  | none => .error "amp: HKDF extract failed"
  | some prk => .ok prk

def deriveLabel (prk : Bytes) (label : String) (sessionEpoch : UInt32) : Except String Bytes :=
  hkdfExpand prk (epochInfo label sessionEpoch) kSessionKeyBytes

/-- `Derive` from the extracted key on. -/
def expandKeys (prk : Bytes) (initiator : Bool) (sessionEpoch : UInt32) :
    Except String SessionMaterial :=
  match hkdfExpand prk kAmpKAssocInfo kSessionKeyBytes with
  | .error error => .error error
  | .ok kAssoc =>
      match deriveLabel prk kAmpKClientInfo sessionEpoch with
      | .error error => .error error
      | .ok kClient =>
          match deriveLabel prk kAmpKServerInfo sessionEpoch with
          | .error error => .error error
          | .ok kServer => .ok
              { kAssoc
                sessionEpoch
                initiator
                kSend := if initiator then kClient else kServer
                kRecv := if initiator then kServer else kClient }

def derive (masterIkm transcriptHash : Bytes) (initiator : Bool) (sessionEpoch : UInt32) :
    Except String SessionMaterial :=
  if masterIkm = [] then .error "amp: empty master ikm"
  else if transcriptHash.length ≠ kTranscriptHashBytes then .error "amp: bad transcript hash size"
  else
    match hkdfExtract (masterIkm ++ transcriptHash) with
    | .error error => .error error
    | .ok prk => expandKeys prk initiator sessionEpoch

/-- The key of one direction in one epoch, where it can be derived. -/
def directionKey (prk : Bytes) (direction : Direction) (sessionEpoch : UInt32) : Option Bytes :=
  match direction with
  | .initiatorToResponder =>
      Hkdf.expand kSessionKeyBytes (epochInfo kAmpKClientInfo sessionEpoch) prk
  | .responderToInitiator =>
      Hkdf.expand kSessionKeyBytes (epochInfo kAmpKServerInfo sessionEpoch) prk

/-- Material derived from an extracted key for one end and one epoch. -/
structure Derived (prk : Bytes) (initiator : Bool) (sessionEpoch : UInt32)
    (material : SessionMaterial) : Prop where
  epoch : material.sessionEpoch = sessionEpoch
  side : material.initiator = initiator
  send : directionKey prk (outDirection initiator) sessionEpoch = some material.kSend
  recv : directionKey prk (inDirection initiator) sessionEpoch = some material.kRecv

theorem hkdfExpand_ok {prk out : Bytes} {info : String} {outLen : Nat}
    (done : hkdfExpand prk info outLen = .ok out) : Hkdf.expand outLen info prk = some out := by
  unfold hkdfExpand at done
  split at done
  · cases done
  · rename_i expanded
    cases done
    exact expanded

theorem expandKeys_ok {prk : Bytes} {initiator : Bool} {sessionEpoch : UInt32}
    {material : SessionMaterial} (done : expandKeys prk initiator sessionEpoch = .ok material) :
    Derived prk initiator sessionEpoch material := by
  unfold expandKeys at done
  split at done
  · cases done
  · split at done
    · cases done
    · rename_i client
      split at done
      · cases done
      · rename_i server
        cases done
        have towards := hkdfExpand_ok client
        have back := hkdfExpand_ok server
        refine ⟨rfl, rfl, ?_, ?_⟩
        · cases initiator <;> assumption
        · cases initiator <;> assumption

theorem derive_ok {masterIkm transcriptHash : Bytes} {initiator : Bool} {sessionEpoch : UInt32}
    {material : SessionMaterial}
    (done : derive masterIkm transcriptHash initiator sessionEpoch = .ok material) :
    ∃ prk, Hkdf.extract kAmpHkdfSalt (masterIkm ++ transcriptHash) = some prk ∧
      Derived prk initiator sessionEpoch material := by
  unfold derive at done
  split at done
  · cases done
  · split at done
    · cases done
    · unfold hkdfExtract at done
      cases extracted : Hkdf.extract kAmpHkdfSalt (masterIkm ++ transcriptHash) with
      | none =>
          rw [extracted] at done
          cases done
      | some prk =>
          rw [extracted] at done
          exact ⟨prk, rfl, expandKeys_ok done⟩

/-- The association key is the same for both ends. -/
theorem derive_kAssoc {masterIkm transcriptHash prk : Bytes} {initiator : Bool}
    {sessionEpoch : UInt32} {material : SessionMaterial}
    (done : derive masterIkm transcriptHash initiator sessionEpoch = .ok material)
    (extracted : Hkdf.extract kAmpHkdfSalt (masterIkm ++ transcriptHash) = some prk) :
    Hkdf.expand kSessionKeyBytes kAmpKAssocInfo prk = some material.kAssoc := by
  unfold derive at done
  split at done
  · cases done
  · split at done
    · cases done
    · unfold hkdfExtract at done
      rw [extracted] at done
      dsimp only at done
      unfold expandKeys at done
      split at done
      · cases done
      · rename_i kAssoc expanded
        split at done
        · cases done
        · split at done
          · cases done
          · cases done
            exact hkdfExpand_ok expanded

theorem derive_checks {masterIkm transcriptHash : Bytes} {initiator : Bool} {sessionEpoch : UInt32}
    {material : SessionMaterial}
    (done : derive masterIkm transcriptHash initiator sessionEpoch = .ok material) :
    masterIkm ≠ [] ∧ transcriptHash.length = kTranscriptHashBytes := by
  unfold derive at done
  split at done
  · cases done
  · rename_i filled
    split at done
    · cases done
    · rename_i fit
      exact ⟨filled, not_not.mp fit⟩

theorem derive_misfit {masterIkm transcriptHash : Bytes} (filled : masterIkm ≠ [])
    (misfit : transcriptHash.length ≠ kTranscriptHashBytes) (initiator : Bool)
    (sessionEpoch : UInt32) : derive masterIkm transcriptHash initiator sessionEpoch =
      .error "amp: bad transcript hash size" := by
  unfold derive
  rw [if_neg filled, if_pos misfit]

section Lawful

variable [LawfulHkdf]

theorem hkdfExpand_key (prk : Bytes) (info : String) : ∃ out,
    hkdfExpand prk info kSessionKeyBytes = .ok out ∧ out.length = kSessionKeyBytes := by
  obtain ⟨out, expanded, size⟩ := LawfulHkdf.expands kSessionKeyBytes info prk (by decide)
  unfold hkdfExpand
  rw [expanded]
  exact ⟨out, rfl, size⟩

/-- With its two checks passed, derivation succeeds. -/
theorem derive_fit {masterIkm transcriptHash : Bytes} (filled : masterIkm ≠ [])
    (fit : transcriptHash.length = kTranscriptHashBytes) (initiator : Bool)
    (sessionEpoch : UInt32) :
    ∃ material, derive masterIkm transcriptHash initiator sessionEpoch = .ok material := by
  obtain ⟨prk, extracted⟩ := LawfulHkdf.extracts kAmpHkdfSalt (masterIkm ++ transcriptHash)
  obtain ⟨kAssoc, assoc, _⟩ := hkdfExpand_key prk kAmpKAssocInfo
  obtain ⟨kClient, client, _⟩ := hkdfExpand_key prk (epochInfo kAmpKClientInfo sessionEpoch)
  obtain ⟨kServer, server, _⟩ := hkdfExpand_key prk (epochInfo kAmpKServerInfo sessionEpoch)
  unfold derive hkdfExtract
  rw [if_neg filled, if_neg (not_not.mpr fit), extracted]
  simp only [expandKeys, deriveLabel, assoc, client, server]
  exact ⟨_, rfl⟩

/-- Every key of a direction has the AEAD's key size. -/
theorem directionKey_length {prk out : Bytes} {direction : Direction} {sessionEpoch : UInt32}
    (key : directionKey prk direction sessionEpoch = some out) :
    out.length = kSessionKeyBytes := by
  cases direction with
  | initiatorToResponder =>
      obtain ⟨made, expanded, size⟩ := LawfulHkdf.expands kSessionKeyBytes
        (epochInfo kAmpKClientInfo sessionEpoch) prk (by decide)
      rw [directionKey, expanded] at key
      cases key
      exact size
  | responderToInitiator =>
      obtain ⟨made, expanded, size⟩ := LawfulHkdf.expands kSessionKeyBytes
        (epochInfo kAmpKServerInfo sessionEpoch) prk (by decide)
      rw [directionKey, expanded] at key
      cases key
      exact size

end Lawful

end SessionKeys

end Amp
