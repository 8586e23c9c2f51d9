import Amp.L1.Datagrams
import Amp.L2.SessionKeys

set_option autoImplicit false

/- An established session and its rekeys (Session.cpp). -/
namespace Amp

open Adp (Bytes PacketSpace PacketProtection LawfulProtection SizedProtection)
open SessionKeys (outDirection inDirection Derived derive directionKey)

def kSessionRekeyGraceMs : Int := 1000

structure Session where
  material : SessionMaterial
  masterIkm : Bytes
  transcriptHash : Bytes
  previousRecvKey : Option Bytes := none
  graceUntilMs : Int := 0
  deriving DecidableEq

namespace Session

def fromMaterial (material : SessionMaterial) (masterIkm transcriptHash : Bytes) :
    Except String Session :=
  if material.kAssoc.length ≠ kAssocKeyBytes ∨ material.kSend.length ≠ kSessionKeyBytes ∨
      material.kRecv.length ≠ kSessionKeyBytes then .error "amp session: bad key sizes"
  else if masterIkm = [] then .error "amp session: empty master ikm"
  else if transcriptHash = [] then .error "amp session: empty transcript hash"
  else .ok { material, masterIkm, transcriptHash }

def hasGraceRecvKey (session : Session) (nowMs : Int) : Bool :=
  session.previousRecvKey.isSome && decide (0 < nowMs) && decide (nowMs ≤ session.graceUntilMs)

section Packets

variable [Aead]

def sealPacket (session : Session) (space : PacketSpace) (number : UInt32)
    (header plaintext : Bytes) : Except String Bytes :=
  SessionCrypto.sealPacket session.material.kSend (outDirection session.material.initiator)
    session.material.sessionEpoch space number header plaintext

def openPacket (session : Session) (space : PacketSpace) (number : UInt32)
    (header body : Bytes) (nowMs : Int) : Except String Bytes :=
  match SessionCrypto.openPacket session.material.kRecv (inDirection session.material.initiator)
    session.material.sessionEpoch space number header body with
  | .ok opened => .ok opened
  | .error error =>
      match session.previousRecvKey with
      | none => .error error
      | some previous =>
          if session.hasGraceRecvKey nowMs then
            SessionCrypto.openPacket previous (inDirection session.material.initiator)
              (session.material.sessionEpoch - 1) space number header body
          else .error error

/-- A session is the protection its association's packets go through. -/
instance : PacketProtection Session where
  sealPacket session space number header plaintext :=
    session.sealPacket space (UInt32.ofNat number) header plaintext
  openPacket session space number header body nowMs :=
    session.openPacket space (UInt32.ofNat number) header body nowMs

/-- Whatever session opens a packet, it gets what was sealed. -/
theorem openPacket_ok [LawfulAead] {sealer opener : Session} {space otherSpace : PacketSpace}
    {number otherNumber : UInt32} {header otherHeader plaintext body opened : Bytes} {nowMs : Int}
    (sealed : sealer.sealPacket space number header plaintext = .ok body)
    (opens : opener.openPacket otherSpace otherNumber otherHeader body nowMs = .ok opened) :
    opened = plaintext := by
  unfold openPacket at opens
  split at opens
  · rename_i current
    cases opens
    exact SessionCrypto.openPacket_ok sealed current
  · split at opens
    · cases opens
    · split at opens
      · exact SessionCrypto.openPacket_ok sealed opens
      · cases opens

instance [LawfulAead] : LawfulProtection Session where
  open_seal _ _ _ _ _ _ _ _ _ sealed opens := openPacket_ok sealed opens

/-- What a session seals is longer by a tag. -/
theorem sealPacket_length [SizedAead] {session : Session} {space : PacketSpace} {number : UInt32}
    {header plaintext body : Bytes}
    (sealed : session.sealPacket space number header plaintext = .ok body) :
    body.length = plaintext.length + Adp.kPacketTagBytes :=
  SizedAead.encrypt_length (SessionCrypto.sealPacket_ok sealed).2

instance [SizedAead] : SizedProtection Session where
  seal_length _ _ _ _ _ _ done := sealPacket_length done

end Packets

section Rekeying

variable [Hkdf]

/-- The keys derived for the session's own epoch take the place of the current ones. -/
def refresh (session : Session) : Session × Except String Unit :=
  match derive session.masterIkm session.transcriptHash session.material.initiator
    session.material.sessionEpoch with
  | .error error => (session, .error error)
  | .ok refreshed =>
      ({ session with material := { session.material with
          kSend := refreshed.kSend
          kRecv := refreshed.kRecv } }, .ok ())

def rekey (session : Session) : Session × Except String Unit :=
  let bumped := { session with material := { session.material with
    sessionEpoch := session.material.sessionEpoch + 1 } }
  match bumped.refresh with
  | (session, .error error) => (session, .error error)
  | (session, .ok _) => ({ session with previousRecvKey := none, graceUntilMs := 0 }, .ok ())

def applyRekey (session : Session) (targetEpoch : UInt32) (nowMs : Int) :
    Session × Except String Unit :=
  if targetEpoch ≠ session.material.sessionEpoch + 1 then
    (session, .error "amp session: unexpected rekey epoch")
  else
    { session with
      previousRecvKey := some session.material.kRecv
      graceUntilMs := nowMs + kSessionRekeyGraceMs
      material := { session.material with sessionEpoch := targetEpoch } }.refresh

inductive Call where
  | rekey
  | applyRekey (targetEpoch : UInt32) (nowMs : Int)
  deriving DecidableEq, Repr

def call (session : Session) : Call → Session × Except String Unit
  | .rekey => session.rekey
  | .applyRekey targetEpoch nowMs => session.applyRekey targetEpoch nowMs

def step (session : Session) (call : Call) : Session := (session.call call).1

end Rekeying

end Session

end Amp
