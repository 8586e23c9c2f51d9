import Amp.L2.MshHandshake
import Amp.Link.MshCarrier

set_option autoImplicit false

/- One side of the handshake (MshAdpHandshake.cpp). -/
namespace Amp

open Adp (Bytes Hmac)
open MshMessages

structure MshIdentity where
  mlDsaSecretKey : Bytes
  mlDsaPublicKey : Bytes
  deriving DecidableEq

structure MshAdpEstablished where
  localMaterial : SessionMaterial
  masterIkm : Bytes
  transcriptHash : Bytes
  remoteIdentityPublicKey : Bytes
  deriving DecidableEq

/-- What a call draws at random. -/
structure Coins where
  kem : Bytes := []
  nonce : Bytes := List.replicate kHandshakeNonceBytes 0
  encapsulation : Bytes := []
  signature : Bytes := []
  nonceSize : nonce.length = kHandshakeNonceBytes := by rfl

inductive Role where
  | initiator
  | responder
  deriving DecidableEq, Repr

structure KemState where
  ephemeralSecret : Bytes
  ephemeralPublic : Bytes
  deriving DecidableEq

structure MshAdpHandshake where
  role : Role
  identity : MshIdentity
  chunkedWire : Bool := true
  complete : Bool := false
  started : Bool := false
  localKem : Option KemState := none
  remoteHello : Option MshHello := none
  remotePayload : Option MshPayload := none
  transcript : List Bytes := []
  clientSs : Bytes := []
  masterIkm : Bytes := []
  lastWire : Bytes := []
  lastType : MshMessageType := .unknown 0
  lastBody : Bytes := []
  answeredType : Option MshMessageType := none
  answeredBody : Bytes := []
  /-- Trace: the payloads that `send_` took. -/
  sent : List Bytes := []
  /-- Trace: the messages that `send_` took every payload of. -/
  said : List (MshMessageType × Bytes) := []
  /-- Trace: what `on_complete_` was called with. -/
  outcomes : List (Except String MshAdpEstablished) := []
  /-- Trace: the secrets and transcripts that a Finished was built or checked over. -/
  finishes : List (Bytes × List Bytes) := []

namespace MshAdpHandshake

/-- The state after a call, and what the call returns. -/
abbrev Outcome := MshAdpHandshake × Except String Unit

section Fields

def appendPart (this : MshAdpHandshake) (wire : Bytes) : MshAdpHandshake :=
  { this with transcript := this.transcript ++ [wire] }

def takeHello (this : MshAdpHandshake) (hello : MshHello) (wire : Bytes) : MshAdpHandshake :=
  { this with remoteHello := some hello }.appendPart wire

def takePayload (this : MshAdpHandshake) (payload : MshPayload) (wire : Bytes) : MshAdpHandshake :=
  { this with remotePayload := some payload }.appendPart wire

def setKem (this : MshAdpHandshake) (kem : KemState) : MshAdpHandshake :=
  { this with localKem := some kem }

def setMaster (this : MshAdpHandshake) (masterIkm : Bytes) : MshAdpHandshake :=
  { this with masterIkm := masterIkm }

/-- A Finished is about to be built or checked. -/
def noteFinish (this : MshAdpHandshake) : MshAdpHandshake :=
  { this with finishes := this.finishes ++ [(this.masterIkm, this.transcript)] }

/-- `on_complete_` is called; the handshake is complete. -/
def completeWith (this : MshAdpHandshake) (outcome : Except String MshAdpEstablished) :
    MshAdpHandshake :=
  { this with complete := true, outcomes := this.outcomes ++ [outcome] }

def fail (this : MshAdpHandshake) (message : String) : Outcome :=
  (this.completeWith (.error message), .error message)

end Fields

section Sending

/-- Payloads to `send_`, up to the first that it does not take. -/
def sendAll (send : Bytes → Except String Unit) : List Bytes → MshAdpHandshake → Outcome
  | [], this => (this, .ok ())
  | wire :: rest, this =>
      match send wire with
      | .error error => (this, .error error)
      | .ok _ => sendAll send rest { this with sent := this.sent ++ [wire] }

/-- The payloads of a message at its first send. -/
def wiresOf (this : MshAdpHandshake) (type : MshMessageType) (body : Bytes) : List Bytes :=
  if this.chunkedWire then AmpAdpCarrier.encodeMshChunked type body
  else [AmpAdpCarrier.encodeMsh type body]

def sendMessage (this : MshAdpHandshake) (send : Bytes → Except String Unit)
    (type : MshMessageType) (body : Bytes) : Outcome :=
  let noted := if this.chunkedWire then this
    else { this with
      lastWire := AmpAdpCarrier.encodeMsh type body
      lastType := type
      lastBody := body }
  match sendAll send (this.wiresOf type body) noted with
  | (after, .error error) => (after, .error error)
  | (after, .ok _) => ({ after with said := after.said ++ [(type, body)] }, .ok ())

def lastChunks (this : MshAdpHandshake) : Except String (List Bytes) :=
  if this.lastWire = [] then .error "amp msh adp: nothing to resend"
  else .ok (AmpAdpCarrier.encodeMshChunked this.lastType this.lastBody)

def resend (this : MshAdpHandshake) (send : Bytes → Except String Unit) : Outcome :=
  match this.lastChunks with
  | .error error => (this, .error error)
  | .ok chunks =>
      match sendAll send chunks this with
      | (after, .error error) => (after, .error error)
      | (after, .ok _) => ({ after with said := after.said ++ [(this.lastType, this.lastBody)] }, .ok ())

def isRepeatOfLastAnswered (this : MshAdpHandshake) (type : MshMessageType) (body : Bytes) : Bool :=
  this.answeredType == some type && body == this.answeredBody

end Sending

section Crypto

variable [MlKem]

def combineMasterIkm (clientSs serverSs : Bytes) : Except String Bytes :=
  if clientSs.length ≠ MlKem.sharedSecretBytes ∨ serverSs.length ≠ MlKem.sharedSecretBytes then
    .error "amp msh adp: bad kem shared secret size"
  else .ok (clientSs ++ serverSs)

def newEphemeralKem (coins : Coins) : Except String KemState := do
  let keys ← MlKem.generateKeyPair coins.kem
  return { ephemeralSecret := keys.2, ephemeralPublic := keys.1 }

def encodeHello (type : MshMessageType) (kem : KemState) (coins : Coins) : Except String Bytes :=
  MshMessages.encodeHello type { kemPublicKey := kem.ephemeralPublic, nonce := coins.nonce }

variable [MlDsa]

def verifyPayload (payload : MshPayload) : Except String Unit := do
  let message ← buildIdentitySignMessage payload.staticKemPublicKey
  let ok ← MlDsa.verify payload.identityPublicKey message payload.identitySignature
  if ok then .ok () else .error "amp msh adp: identity signature invalid"

/-- The payload, and the secret it shares with the other side. -/
def buildLocalPayload (this : MshAdpHandshake) (kem : KemState) (remoteKemPk : Bytes)
    (coins : Coins) : Except String (MshPayload × Bytes) :=
  if this.identity.mlDsaPublicKey.length ≠ MlDsa.publicKeyBytes ∨
      this.identity.mlDsaSecretKey.length ≠ MlDsa.secretKeyBytes then
    .error "amp msh adp: bad identity key sizes"
  else do
    let encap ← MlKem.encapsulate remoteKemPk coins.encapsulation
    let message ← buildIdentitySignMessage kem.ephemeralPublic
    let signature ← MlDsa.sign this.identity.mlDsaSecretKey coins.signature message
    return ({
      kemCiphertext := encap.1
      identityPublicKey := this.identity.mlDsaPublicKey
      staticKemPublicKey := kem.ephemeralPublic
      identitySignature := signature }, encap.2)

end Crypto

variable [MlKem] [MlDsa] [Hkdf] [Hmac] [Sha256]

def start (this : MshAdpHandshake) (send : Bytes → Except String Unit) (coins : Coins) : Outcome :=
  if this.role ≠ .initiator then (this, .error "amp msh adp: start on non-initiator")
  else if this.started then (this, .error "amp msh adp: already started")
  else
    let this := { this with started := true }
    match newEphemeralKem coins with
    | .error error => this.fail error
    | .ok kem =>
        let this := this.setKem kem
        match encodeHello .clientHello kem coins with
        | .error error => this.fail error
        | .ok hello => (this.appendPart hello).sendMessage send .clientHello hello

def maybeComplete (this : MshAdpHandshake) : Outcome :=
  if this.complete || this.masterIkm.isEmpty || decide (this.transcript.length < 6) then
    (this, .ok ())
  else
    let transcriptHash := SessionKeys.transcriptHash this.transcript
    match SessionKeys.derive this.masterIkm transcriptHash (this.role == .initiator) 1 with
    | .error error => this.fail error
    | .ok material =>
        (this.completeWith (.ok {
          localMaterial := material
          masterIkm := this.masterIkm
          transcriptHash
          remoteIdentityPublicKey := (this.remotePayload.map MshPayload.identityPublicKey).getD [] }),
        .ok ())

section Responder

def onClientHello (this : MshAdpHandshake) (send : Bytes → Except String Unit) (coins : Coins)
    (body : Bytes) : Outcome :=
  if this.started then (this, .error "amp msh adp: duplicate client hello")
  else
    let this := { this with started := true }
    match decodeHello .clientHello body with
    | .error error => this.fail error
    | .ok parsed =>
        let this := this.takeHello parsed body
        match newEphemeralKem coins with
        | .error error => this.fail error
        | .ok kem =>
            let this := this.setKem kem
            match encodeHello .serverHello kem coins with
            | .error error => this.fail error
            | .ok serverHello =>
                (this.appendPart serverHello).sendMessage send .serverHello serverHello

/-- `ClientPayload` once it is in the transcript. -/
def answerPayload (this : MshAdpHandshake) (send : Bytes → Except String Unit) (coins : Coins)
    (kem : KemState) (remoteHello : MshHello) (payload : MshPayload) : Outcome :=
  match MlKem.decapsulate kem.ephemeralSecret payload.kemCiphertext with
  | .error error => this.fail error
  | .ok clientSs =>
      match this.buildLocalPayload kem remoteHello.kemPublicKey coins with
      | .error error => this.fail error
      | .ok (local_, serverSs) =>
          match encodePayload .serverPayload local_ with
          | .error error => this.fail error
          | .ok serverPayload =>
              match (this.appendPart serverPayload).sendMessage send .serverPayload serverPayload with
              | (this, .error error) => (this, .error error)
              | (this, .ok _) =>
                  match combineMasterIkm clientSs serverSs with
                  | .error error => this.fail error
                  | .ok master => (this.setMaster master, .ok ())

def onClientPayload (this : MshAdpHandshake) (send : Bytes → Except String Unit) (coins : Coins)
    (body : Bytes) : Outcome :=
  match this.remoteHello, this.localKem with
  | some remoteHello, some kem =>
      match decodePayload .clientPayload body with
      | .error error => this.fail error
      | .ok parsed =>
          match verifyPayload parsed with
          | .error error => this.fail error
          | .ok _ =>
              if parsed.staticKemPublicKey ≠ remoteHello.kemPublicKey then
                this.fail "amp msh adp: client payload kem key does not match client hello"
              else (this.takePayload parsed body).answerPayload send coins kem remoteHello parsed
  | _, _ => (this, .error "amp msh adp: client payload out of order")

/-- The responder's own Finished, the last part of the transcript. -/
def answerFinished (this : MshAdpHandshake) (send : Bytes → Except String Unit)
    (finished : Bytes) : Outcome :=
  match (this.appendPart finished).sendMessage send .finished finished with
  | (this, .error error) => (this, .error error)
  | (this, .ok _) => this.maybeComplete

def onInitiatorFinished (this : MshAdpHandshake) (send : Bytes → Except String Unit)
    (body : Bytes) : Outcome :=
  if this.masterIkm = [] then (this, .error "amp msh adp: finished out of order")
  else
    let this := this.noteFinish
    match MshHandshake.verifyFinished this.masterIkm this.transcript body with
    | .error error => this.fail error
    | .ok _ =>
        let this := (this.appendPart body).noteFinish
        match MshHandshake.buildFinished this.masterIkm this.transcript with
        | .error error => this.fail error
        | .ok finished => this.answerFinished send finished

/-- The message that a repeat would repeat. -/
def noteAnswered (this : MshAdpHandshake) (type : MshMessageType) (body : Bytes) :
    MshAdpHandshake :=
  if type = .clientHello ∨ type = .clientPayload then
    { this with answeredType := some type, answeredBody := body }
  else this

def respond (this : MshAdpHandshake) (send : Bytes → Except String Unit) (coins : Coins)
    (type : MshMessageType) (body : Bytes) : Outcome :=
  if !this.chunkedWire && this.isRepeatOfLastAnswered type body then this.resend send
  else
    let this := this.noteAnswered type body
    match type with
    | .clientHello => this.onClientHello send coins body
    | .clientPayload => this.onClientPayload send coins body
    | .finished => this.onInitiatorFinished send body
    | _ => (this, .error "amp msh adp: unexpected responder message")

end Responder

section Initiator

def onServerHello (this : MshAdpHandshake) (send : Bytes → Except String Unit) (coins : Coins)
    (body : Bytes) : Outcome :=
  if this.remoteHello.isSome && !this.chunkedWire then (this, .ok ())
  else if !this.started || this.remoteHello.isSome then
    (this, .error "amp msh adp: server hello out of order")
  else
    match decodeHello .serverHello body with
    | .error error => this.fail error
    | .ok parsed =>
        let this := this.takeHello parsed body
        -- `local_kem_` is set once the handshake started
        let kem := this.localKem.getD ⟨[], []⟩
        match this.buildLocalPayload kem parsed.kemPublicKey coins with
        | .error error => this.fail error
        | .ok (local_, clientSs) =>
            let this := { this with clientSs := clientSs }
            match encodePayload .clientPayload local_ with
            | .error error => this.fail error
            | .ok clientPayload =>
                (this.appendPart clientPayload).sendMessage send .clientPayload clientPayload

/-- `ServerPayload` once it is in the transcript. -/
def finishPayload (this : MshAdpHandshake) (send : Bytes → Except String Unit)
    (payload : MshPayload) : Outcome :=
  let kem := this.localKem.getD ⟨[], []⟩
  match MlKem.decapsulate kem.ephemeralSecret payload.kemCiphertext with
  | .error error => this.fail error
  | .ok serverSs =>
      match combineMasterIkm this.clientSs serverSs with
      | .error error => this.fail error
      | .ok master =>
          let this := (this.setMaster master).noteFinish
          match MshHandshake.buildFinished this.masterIkm this.transcript with
          | .error error => this.fail error
          | .ok finished => (this.appendPart finished).sendMessage send .finished finished

def onServerPayload (this : MshAdpHandshake) (send : Bytes → Except String Unit) (body : Bytes) :
    Outcome :=
  if this.remotePayload.isSome && !this.chunkedWire then (this, .ok ())
  else
    match this.remoteHello with
    | none => (this, .error "amp msh adp: server payload out of order")
    | some remoteHello =>
        if this.clientSs = [] then (this, .error "amp msh adp: server payload out of order")
        else
          match decodePayload .serverPayload body with
          | .error error => this.fail error
          | .ok parsed =>
              match verifyPayload parsed with
              | .error error => this.fail error
              | .ok _ =>
                  if parsed.staticKemPublicKey ≠ remoteHello.kemPublicKey then
                    this.fail "amp msh adp: server payload kem key does not match server hello"
                  else (this.takePayload parsed body).finishPayload send parsed

def onResponderFinished (this : MshAdpHandshake) (body : Bytes) : Outcome :=
  if this.masterIkm = [] then (this, .error "amp msh adp: finished out of order")
  else
    let this := this.noteFinish
    match MshHandshake.verifyFinished this.masterIkm this.transcript body with
    | .error error => this.fail error
    | .ok _ => (this.appendPart body).maybeComplete

def initiate (this : MshAdpHandshake) (send : Bytes → Except String Unit) (coins : Coins)
    (type : MshMessageType) (body : Bytes) : Outcome :=
  match type with
  | .serverHello => this.onServerHello send coins body
  | .serverPayload => this.onServerPayload send body
  | .finished => this.onResponderFinished body
  | _ => (this, .error "amp msh adp: unexpected initiator message")

end Initiator

def handleMsh (this : MshAdpHandshake) (send : Bytes → Except String Unit) (coins : Coins)
    (type : MshMessageType) (body : Bytes) : Outcome :=
  if this.complete then (this, .error "amp msh adp: handshake complete")
  else
    match this.role with
    | .responder => this.respond send coins type body
    | .initiator => this.initiate send coins type body

end MshAdpHandshake

end Amp
