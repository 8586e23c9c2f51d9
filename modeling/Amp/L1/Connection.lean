import Amp.L1.ReplayWindow
import Amp.L1.Wire
import Mathlib.Data.List.AList

set_option autoImplicit false

/- One ADP association (Connection.h, Connection.cpp). Handlers are modelled by
whether they are installed; what they are called with, what the socket takes and
what the session is asked to seal are kept as traces in the state. -/
namespace Amp.Adp

/-- `IPacketProtection`: the session's keys as L1 sees them. `sealPacket` gives
the bytes appended to the clear header. -/
class PacketProtection (π : Type) where
  sealPacket : π → PacketSpace → Nat → Bytes → Bytes → Except String Bytes
  openPacket : π → PacketSpace → Nat → Bytes → Bytes → Int → Except String Bytes

/-- A protection opens a sealed packet to what was sealed, or not at all: keys
that differ refuse, keys that agree give the plaintext back. -/
class LawfulProtection (π : Type) [PacketProtection π] : Prop where
  open_seal : ∀ (sealer opener : π) (space : PacketSpace) (number : Nat)
    (header plaintext body opened : Bytes) (now : Int),
    PacketProtection.sealPacket sealer space number header plaintext = .ok body →
    PacketProtection.openPacket opener space number header body now = .ok opened →
    opened = plaintext

/-- What the socket says of one datagram (`Endpoint::SendRaw`). -/
inductive SendOutcome where
  | sent
  | unreachable (message : String)
  | failed (message : String)
  deriving DecidableEq, Repr

/-- What a connection reads of its endpoint: the clock and the socket. -/
structure EndpointPort where
  nowMs : Int
  sendRaw : IpEndpoint → Bytes → SendOutcome

structure OpenParams where
  key : PeerKey
  id : AssocId := {}
  peer : IpEndpoint := {}
  skewMs : Int := kDefaultSkewMs
  replayWindow : Nat := kDefaultReplayWindow
  reliableWindow : Nat := kDefaultReliableWindow
  rtxIntervalMs : Int := kDefaultRtxIntervalMs
  maxRtx : Int := kDefaultMaxRtx
  aliveTimeoutMs : Int := kAliveTimeoutMs
  reduceRtxUntilAuthenticated : Bool := false
  dialerBackoff : Bool := false

def OpenParams.applyTuning (params : OpenParams) (tuning : AdpTuning) : OpenParams :=
  { params with
    reliableWindow := tuning.reliableWindow
    replayWindow := tuning.replayWindow
    rtxIntervalMs := tuning.rtxIntervalMs
    maxRtx := tuning.maxRtx
    skewMs := tuning.skewMs
    aliveTimeoutMs := tuning.aliveTimeoutMs }

inductive ConnectionErr where
  | closed
  | payloadTooLarge
  | seqWrap
  | windowFull
  | wireError
  | unreachable
  deriving DecidableEq, Repr

structure Failure where
  code : ConnectionErr
  message : String
  deriving DecidableEq, Repr

structure ConnectionStats where
  reliableSent : Nat := 0
  retransmits : Nat := 0
  reliableLost : Nat := 0
  rttSamples : Nat := 0
  rttSumMs : Int := 0
  srttMs : Int := -1
  rttvarMs : Int := -1
  deriving DecidableEq, Repr

structure HeldReliable where
  wasSealed : Bool
  payload : Bytes
  deriving DecidableEq

structure Outstanding where
  type : PacketType
  beforeUpgrade : Bool
  seq : Nat
  payload : Bytes
  nextRtxMs : Int
  attempts : Nat
  baseBackoff : Nat
  firstSentMs : Int
  deriving DecidableEq

/-- One call of `SealPacket` on the protection installed at the time. -/
structure SealCall (π : Type) where
  protection : π
  space : PacketSpace
  number : Nat
  header : Bytes
  plaintext : Bytes
  deriving DecidableEq

structure Connection (π : Type) where
  endpoint : EndpointPort
  id : AssocId
  binderKey : PeerKey
  protection : Option π := none
  preUpgradeKey : Option PeerKey := none
  peer : IpEndpoint
  params : OpenParams
  closed : Bool := false
  peerClosed : Bool := false
  peerUnreachable : Bool := false
  peerVersionMismatch : Bool := false
  peerWireVersions : Bytes := []
  authenticatedMaxRtx : Int
  rtoBackoff : Nat := 0
  authenticated : Bool
  txSeqBe : Nat := 0
  txSeqRel : Nat := 0
  rxBe : ReplayWindow
  rxRel : ReplayWindow
  rxRelNextDeliver : Nat := 1
  rxRelHold : AList (fun _ : Nat => HeldReliable) := ∅
  onMessage : Bool := false
  onPathChange : Bool := false
  lastAuthRxMs : Int := 0
  maxAuthRxTs : Nat := 0
  haveAuthRxTs : Bool := false
  localKeepaliveIntervalMs : Nat := 0
  peerKeepaliveIntervalMs : Nat := 0
  outstanding : List Outstanding := []
  stats : ConnectionStats := {}
  /-- Whether the endpoint still routes datagrams here (`Endpoint::Unregister`). -/
  registered : Bool := true
  /-- Trace: datagrams the socket took, in order. -/
  transmitted : List Bytes := []
  /-- Trace: messages handed to `on_message_`, in order. -/
  delivered : List Message := []
  /-- Trace: calls of `on_path_change_`. -/
  pathChanges : List (IpEndpoint × IpEndpoint) := []
  /-- Trace: payloads of the reliable sends that took a sequence number. -/
  taken : List Bytes := []
  /-- Trace: payloads of the best-effort sends that took a sequence number. -/
  takenBe : List Bytes := []
  /-- Trace: reliable packets `rx_rel_` recorded, in order. -/
  recorded : List WirePacket := []
  /-- Trace: calls of `SealPacket`. -/
  seals : List (SealCall π) := []

def spaceOf (type : PacketType) : PacketSpace :=
  if type = .dataReliable then .reliable else .bestEffort

/-- A 32-bit difference read as a signed number, as the casts to `int32_t` do. -/
def serialDiff (left right : Nat) : Int :=
  let wrapped : Nat := (left + (2 ^ 32 - right % 2 ^ 32)) % 2 ^ 32
  if wrapped < 2 ^ 31 then (wrapped : Int) else (wrapped : Int) - 2 ^ 32

namespace Connection

variable {π : Type}

/-- The constructor, and with it `Connection::Open` for a chosen id. -/
def create (endpoint : EndpointPort) (params : OpenParams) : Connection π where
  endpoint := endpoint
  id := params.id
  binderKey := params.key
  peer := params.peer
  params :=
    if params.reduceRtxUntilAuthenticated then
      { params with
        maxRtx := min params.maxRtx
          (if params.dialerBackoff then kPreAuthDialMaxRtx else kPreAuthMaxRtx) }
    else params
  authenticatedMaxRtx := params.maxRtx
  authenticated := !params.reduceRtxUntilAuthenticated
  rxBe := { windowSize := params.replayWindow, slideOnGap := true }
  rxRel := { windowSize := max params.replayWindow params.reliableWindow, slideOnGap := false }

def isSealing (c : Connection π) : Bool := c.protection.isSome

def rtoMs (c : Connection π) : Int :=
  if c.stats.srttMs < 0 then c.params.rtxIntervalMs
  else
    let rto := c.stats.srttMs + max kRtoGranularityMs (4 * c.stats.rttvarMs)
    let high := max kMaxRtoMs c.params.rtxIntervalMs
    if rto < c.params.rtxIntervalMs then c.params.rtxIntervalMs
    else if high < rto then high else rto

def retransmitIntervalMs (c : Connection π) (doublings : Nat) : Int :=
  if c.authenticated then
    min (c.rtoMs * 2 ^ min doublings 8) (max kMaxRtoMs c.params.rtxIntervalMs)
  else if !c.params.dialerBackoff then c.params.rtxIntervalMs
  else c.params.rtxIntervalMs * 2 ^ min doublings 16

def setPeerEndpoint (c : Connection π) (peer : IpEndpoint) : Connection π :=
  if c.peer.same peer then c
  else { c with
    peer := peer
    pathChanges := if c.onPathChange then c.pathChanges ++ [(c.peer, peer)] else c.pathChanges }

def setProtection (c : Connection π) (protection : π) : Connection π :=
  { c with protection := some protection }

def upgradeBinder (c : Connection π) (key : PeerKey) : Connection π :=
  { c with
    preUpgradeKey := some (c.preUpgradeKey.getD c.binderKey)
    binderKey := key
    params := { c.params with maxRtx := c.authenticatedMaxRtx }
    authenticated := true }

def livenessWindowMs (c : Connection π) : Int :=
  let cadence : Int := max c.localKeepaliveIntervalMs c.peerKeepaliveIntervalMs
  max c.params.aliveTimeoutMs
    (cadence * kKeepaliveLivenessNumerator / kKeepaliveLivenessDenominator)

def looksAlive (c : Connection π) (now : Int) : Bool :=
  if c.closed || c.lastAuthRxMs == 0 then false
  else decide (now - c.lastAuthRxMs ≤ c.livenessWindowMs)

def truncTs (now : Int) : Nat := (now % 2 ^ 32).toNat

def acceptSkew (c : Connection π) (ts : Nat) (now : Int) : Bool :=
  let delta := serialDiff (truncTs now) ts
  decide (delta ≤ c.params.skewMs ∧ -c.params.skewMs ≤ delta)

def maybeLearnPath (c : Connection π) (source : IpEndpoint) : Connection π :=
  if (c.peer.addr.take c.peer.family.addrBytes).all (· == 0) then c.setPeerEndpoint source
  else if !source.same c.peer then c.setPeerEndpoint source
  else c

/-- The body of the loop of `DeliverReliableInOrder`: the packet due next leaves
the hold for the handler. -/
def handOver (c : Connection π) (held : HeldReliable) : Connection π :=
  { c with
    delivered := c.delivered ++
      [⟨c.id, c.rxRelNextDeliver, .reliable, held.wasSealed, held.payload⟩]
    rxRelHold := c.rxRelHold.erase c.rxRelNextDeliver
    rxRelNextDeliver := (c.rxRelNextDeliver + 1) % 2 ^ 32 }

/-- Each turn of the loop takes one held packet, so their count is enough turns. -/
def deliverHeld : Nat → Connection π → Connection π
  | 0, c => c
  | turns + 1, c =>
      match c.rxRelHold.lookup c.rxRelNextDeliver with
      | none => c
      | some held => deliverHeld turns (c.handOver held)

def deliverReliableInOrder (c : Connection π) : Connection π :=
  if !c.onMessage then c else deliverHeld c.rxRelHold.entries.length c

section Sending

variable [PacketProtection π] [Hmac]

def sealDatagram (c : Connection π) (type : PacketType) (seq : Nat) (payload : Bytes) :
    Connection π × Except Failure Bytes :=
  match c.protection with
  | none => (c, .error ⟨.wireError, "adp: no session keys to seal with"⟩)
  | some protection =>
      let header := WireCodec.encodeSealedHeader ⟨type, c.id, seq⟩
      let c := { c with seals := c.seals ++ [⟨protection, spaceOf type, seq, header, payload⟩] }
      match PacketProtection.sealPacket protection (spaceOf type) seq header payload with
      | .error message => (c, .error ⟨.wireError, message⟩)
      | .ok body => (c, .ok (header ++ body))

def openDatagram (c : Connection π) (datagram : Bytes) (now : Int) : Except Failure WirePacket :=
  match c.protection with
  | none => .error ⟨.wireError, "adp: sealed packet before session keys"⟩
  | some protection =>
      match WireCodec.decodeSealedHeader datagram with
      | .error message => .error ⟨.wireError, message⟩
      | .ok header =>
          match PacketProtection.openPacket protection (spaceOf header.type) header.number
              (datagram.take kSealedHeaderBytes) (datagram.drop kSealedHeaderBytes) now with
          | .error message => .error ⟨.wireError, message⟩
          | .ok payload => .ok {
              type := header.type, assoc := header.assoc, seq := header.number, payload := payload }

/-- The datagram `SendPacket` builds: sealed, or encoded and tagged under `key`
when one is given and the binder's key otherwise. -/
def buildDatagram (c : Connection π) (type : PacketType) (seq : Nat) (payload : Bytes)
    (now : Int) (key : Option PeerKey) : Connection π × Except Failure Bytes :=
  if type.isSealed then c.sealDatagram type seq payload
  else
    match WireCodec.encode {
        type := type, assoc := c.id, seq := seq, timestampMs := truncTs now, payload := payload } with
    | .error message => (c, .error ⟨.wireError, message⟩)
    | .ok encoded => (c, .ok (HmacBinder.bind (key.getD c.binderKey) encoded))

def sendPacket (c : Connection π) (type : PacketType) (seq : Nat) (payload : Bytes)
    (now : Int) (key : Option PeerKey) : Connection π × Except Failure Unit :=
  match c.buildDatagram type seq payload now key with
  | (c, .error failure) => (c, .error failure)
  | (c, .ok datagram) =>
      match c.endpoint.sendRaw c.peer datagram with
      | .sent => ({ c with transmitted := c.transmitted ++ [datagram] }, .ok ())
      | .unreachable message =>
          ({ c with peerUnreachable := true }, .error ⟨.unreachable, message⟩)
      | .failed message => (c, .error ⟨.wireError, message⟩)

def close (c : Connection π) : Connection π :=
  if c.closed then c
  else
    let c := (c.sendPacket .close 0 [] c.endpoint.nowMs none).1
    { c with closed := true, registered := false }

def abandon (c : Connection π) : Connection π :=
  if c.closed then c else { c with closed := true, registered := false }

def sendKeepalivePacket (c : Connection π) (now : Int) (intervalMs flags : Nat) :
    Connection π × Except Failure Unit :=
  if c.closed then (c, .error ⟨.closed, "adp: keepalive on closed connection"⟩)
  else if c.peer.port = 0 then
    (c, .error ⟨.wireError, "adp: keepalive without peer endpoint"⟩)
  else c.sendPacket .keepalive 0
    [UInt8.ofNat (intervalMs / 2 ^ 24), UInt8.ofNat (intervalMs / 2 ^ 16),
      UInt8.ofNat (intervalMs / 2 ^ 8), UInt8.ofNat intervalMs, UInt8.ofNat flags] now none

def sendKeepalive (c : Connection π) (now : Int) (intervalMs : Nat) :
    Connection π × Except Failure Unit :=
  { c with localKeepaliveIntervalMs := intervalMs }.sendKeepalivePacket now intervalMs
    kKeepaliveFlagEchoRequest

def stopKeepalive (c : Connection π) (now : Int) : Connection π × Except Failure Unit :=
  if c.localKeepaliveIntervalMs = 0 then (c, .ok ())
  else { c with localKeepaliveIntervalMs := 0 }.sendKeepalivePacket now 0 0

def sendProbe (c : Connection π) (now : Int) : Connection π × Except Failure Unit :=
  c.sendKeepalivePacket now c.localKeepaliveIntervalMs kKeepaliveFlagEchoRequest

/-- `Send` takes the next best-effort number. -/
def numberBestEffort (c : Connection π) (payload : Bytes) : Connection π :=
  { c with txSeqBe := c.txSeqBe + 1, takenBe := c.takenBe ++ [payload] }

/-- `Send` takes the next reliable number and tracks the packet. -/
def numberReliable (c : Connection π) (payload : Bytes) (now : Int) : Connection π :=
  let backoff := if c.authenticated then c.rtoBackoff else 0
  { c with
    txSeqRel := c.txSeqRel + 1
    taken := c.taken ++ [payload]
    outstanding := c.outstanding ++ [{
      type := if c.isSealing then .dataReliable else .plainReliable
      beforeUpgrade := c.preUpgradeKey.isNone
      seq := c.txSeqRel + 1
      payload := payload
      nextRtxMs := now + c.retransmitIntervalMs backoff
      attempts := 0
      baseBackoff := backoff
      firstSentMs := now }]
    stats := { c.stats with reliableSent := c.stats.reliableSent + 1 } }

/-- `Connection::Send`. A reliable packet is tracked before its first send, so a
failed send is only a lost packet. -/
def send (c : Connection π) (qos : QosClass) (payload : Bytes) :
    Connection π × Except Failure Unit :=
  if c.closed then (c, .error ⟨.closed, "adp: send on closed connection"⟩)
  else if (if c.isSealing then kMaxSealedPayload else kMaxPayload) < payload.length then
    (c, .error ⟨.payloadTooLarge, "adp: payload too large"⟩)
  else
    let now := c.endpoint.nowMs
    match qos with
    | .bestEffort =>
        if c.txSeqBe = kSeqMax then (c, .error ⟨.seqWrap, "adp: seq wrap"⟩)
        else
          match (c.numberBestEffort payload).sendPacket
              (if c.isSealing then .dataBestEffort else .plainBestEffort) (c.txSeqBe + 1)
              payload now none with
          | (c, .error failure) => (c, .error ⟨.wireError, failure.message⟩)
          | (c, .ok _) => (c, .ok ())
    | .reliable =>
        if c.params.reliableWindow ≤ c.outstanding.length then
          (c, .error ⟨.windowFull, "adp: reliable window full"⟩)
        else if c.txSeqRel = kSeqMax then (c, .error ⟨.seqWrap, "adp: seq wrap"⟩)
        else
          match (c.numberReliable payload now).sendPacket
              (if c.isSealing then .dataReliable else .plainReliable) (c.txSeqRel + 1)
              payload now none with
          | (c, .error failure) => if c.peerUnreachable then (c, .error failure) else (c, .ok ())
          | (c, .ok _) => (c, .ok ())

def noteRttSample (c : Connection π) (rttMs : Int) : Connection π :=
  let sample := if rttMs < 0 then 0 else rttMs
  let stats := { c.stats with
    rttSamples := c.stats.rttSamples + 1
    rttSumMs := c.stats.rttSumMs + sample }
  if c.stats.srttMs < 0 then
    { c with rtoBackoff := 0, stats := { stats with srttMs := sample, rttvarMs := sample / 2 } }
  else
    let error := if c.stats.srttMs < sample then sample - c.stats.srttMs else c.stats.srttMs - sample
    { c with
      rtoBackoff := 0
      stats := { stats with
        rttvarMs := c.stats.rttvarMs + (error - c.stats.rttvarMs).tdiv 4
        srttMs := c.stats.srttMs + (sample - c.stats.srttMs).tdiv 8 } }

/-- A resend is counted, and after authentication its backoff is remembered. -/
def noteRetransmit (c : Connection π) (doublings : Nat) : Connection π :=
  { c with
    rtoBackoff := if c.authenticated then max c.rtoBackoff (min doublings 8) else c.rtoBackoff
    stats := { c.stats with retransmits := c.stats.retransmits + 1 } }

/-- The key of a resend: a plain packet from before the upgrade goes under the
key it first went out with. -/
def resendKey (c : Connection π) (o : Outstanding) : Option PeerKey :=
  if o.beforeUpgrade && !o.type.isSealed then c.preUpgradeKey else none

/-- One turn of the retransmit loop of `Tick`. -/
def resend (c : Connection π) (o : Outstanding) (now : Int) : Connection π × Outstanding :=
  if now < o.nextRtxMs then (c, o)
  else if c.params.maxRtx ≤ o.attempts then (c, o)
  else
    let doublings := o.baseBackoff + (o.attempts + 1)
    let c := c.noteRetransmit doublings
    let o := { o with
      attempts := o.attempts + 1, nextRtxMs := now + c.retransmitIntervalMs doublings }
    ((c.sendPacket o.type o.seq o.payload now (c.resendKey o)).1, o)

def resendAll (now : Int) : List Outstanding → Connection π → Connection π × List Outstanding
  | [], c => (c, [])
  | o :: rest, c =>
      let (c, o) := c.resend o now
      let (c, rest) := resendAll now rest c
      (c, o :: rest)

/-- A packet `Tick` gives up when it is the oldest outstanding one. -/
def exhausted (c : Connection π) (now : Int) (o : Outstanding) : Bool :=
  decide (c.params.maxRtx ≤ o.attempts ∧ o.nextRtxMs ≤ now)

/-- The end of `Tick`: the exhausted packets at the front are dropped. -/
def dropExhausted (c : Connection π) (outstanding : List Outstanding) (now : Int) :
    Connection π :=
  let kept := outstanding.dropWhile (c.exhausted now)
  { c with
    outstanding := kept
    stats := { c.stats with
      reliableLost := c.stats.reliableLost + (outstanding.length - kept.length) } }

def tick (c : Connection π) (now : Int) : Connection π :=
  if c.closed then c
  else
    let (c, outstanding) := resendAll now c.outstanding c
    c.dropExhausted outstanding now

end Sending

section Receiving

variable [PacketProtection π] [Hmac]

def notePeerKeepalive (c : Connection π) (announced : Nat) : Connection π :=
  { c with peerKeepaliveIntervalMs := min announced kMaxPeerKeepaliveIntervalMs }

def handleKeepalive (c : Connection π) (pkt : WirePacket) (now : Int) : Connection π :=
  match pkt.payload with
  | b0 :: b1 :: b2 :: b3 :: flags :: _ =>
      let c := c.notePeerKeepalive
        (b0.toNat * 2 ^ 24 + b1.toNat * 2 ^ 16 + b2.toNat * 2 ^ 8 + b3.toNat)
      if flags.toNat % 2 = 1 then
        (c.sendKeepalivePacket now c.localKeepaliveIntervalMs 0).1
      else c
  | _ => c

/-- Plain data after the session has keys: only a handshake duplicate is acked. -/
def refusePlainAfterKeys (c : Connection π) (pkt : WirePacket) : Connection π × Bool :=
  if c.protection.isNone || pkt.type.isSealed then (c, false)
  else match pkt.type with
    | .plainBestEffort => (c, true)
    | .plainReliable =>
        if c.rxRel.classify pkt.seq = .duplicate then
          ((c.sendPacket .ack pkt.seq [] c.endpoint.nowMs none).1, true)
        else (c, true)
    | _ => (c, false)

def handlePreUpgradeKeyPacket (c : Connection π) (pkt : WirePacket) (now : Int) :
    Connection π :=
  if !c.acceptSkew pkt.timestampMs now then c
  else match pkt.type with
    | .ack =>
        { c with outstanding :=
            c.outstanding.filter fun o => !(o.beforeUpgrade && o.seq == pkt.seq) }
    | .plainReliable =>
        if c.rxRel.classify pkt.seq = .duplicate then
          (c.sendPacket .ack pkt.seq [] now c.preUpgradeKey).1
        else c
    | _ => c

/-- What the first switch of `HandleAuthenticated` decides. -/
structure Admission where
  fresh : Bool := false
  freshData : Bool := false
  ackReliable : Bool := false
  deriving DecidableEq, Repr

/-- A timestamp newer, in serial order, than every authenticated one. -/
def newerTimestamp (c : Connection π) (pkt : WirePacket) : Bool :=
  !c.haveAuthRxTs || decide (0 < serialDiff pkt.timestampMs c.maxAuthRxTs)

def hasRoom (c : Connection π) (seq : Nat) : Bool :=
  !c.onMessage || decide (c.rxRelHold.entries.length < c.params.reliableWindow) ||
    seq == c.rxRelNextDeliver

/-- `rx_rel_.Accept`, with the packet kept in the trace when it is recorded. -/
def recordReliable (c : Connection π) (pkt : WirePacket) : Connection π × Bool :=
  let (window, accepted) := c.rxRel.accept pkt.seq
  ({ c with
      rxRel := window
      recorded := if accepted then c.recorded ++ [pkt] else c.recorded }, accepted)

def admitReliable (c : Connection π) (pkt : WirePacket) : Connection π × Admission :=
  match c.rxRel.classify pkt.seq with
  | .duplicate => (c, { ackReliable := true })
  | .tooFar => (c, {})
  | .fresh =>
      if c.hasRoom pkt.seq then
        let (c, accepted) := c.recordReliable pkt
        (c, { fresh := accepted, freshData := accepted, ackReliable := accepted })
      else (c, {})

def admitBestEffort (c : Connection π) (pkt : WirePacket) : Connection π × Admission :=
  let (window, accepted) := c.rxBe.accept pkt.seq
  ({ c with rxBe := window }, { fresh := accepted, freshData := accepted })

def admitPacket (c : Connection π) (pkt : WirePacket) : Connection π × Admission :=
  match pkt.type with
  | .dataBestEffort | .plainBestEffort => c.admitBestEffort pkt
  | .dataReliable | .plainReliable => c.admitReliable pkt
  | _ => (c, { fresh := c.newerTimestamp pkt })

def noteTimestamp (c : Connection π) (pkt : WirePacket) : Connection π :=
  if !pkt.type.isSealed && c.newerTimestamp pkt then
    { c with maxAuthRxTs := pkt.timestampMs, haveAuthRxTs := true }
  else c

def noteFresh (c : Connection π) (fresh : Bool) (source : IpEndpoint) (now : Int) :
    Connection π :=
  if fresh then { c with lastAuthRxMs := now }.maybeLearnPath source else c

def handleAck (c : Connection π) (pkt : WirePacket) (now : Int) : Connection π :=
  let c := match c.outstanding.find? fun o => o.seq == pkt.seq && o.attempts == 0 with
    | some o => c.noteRttSample (now - o.firstSentMs)
    | none => c
  { c with outstanding := c.outstanding.filter fun o => o.seq != pkt.seq }

def handleClose (c : Connection π) : Connection π :=
  if !c.authenticated && !c.params.dialerBackoff then c
  else { c with peerClosed := true, closed := true, registered := false }

def sendAck (c : Connection π) (seq : Nat) (wanted : Bool) (now : Int) : Connection π :=
  if wanted then (c.sendPacket .ack seq [] now none).1 else c

/-- `rx_rel_hold_[pkt.seq] = ...`. -/
def holdReliable (c : Connection π) (pkt : WirePacket) : Connection π :=
  { c with rxRelHold := c.rxRelHold.insert pkt.seq ⟨pkt.type.isSealed, pkt.payload⟩ }

def keepReliable (c : Connection π) (pkt : WirePacket) (freshData : Bool) : Connection π :=
  if !freshData then c
  else if c.onMessage then (c.holdReliable pkt).deliverReliableInOrder
  else c

def handleReliable (c : Connection π) (pkt : WirePacket) (admission : Admission) (now : Int) :
    Connection π :=
  (c.sendAck pkt.seq admission.ackReliable now).keepReliable pkt admission.freshData

def deliverBestEffort (c : Connection π) (pkt : WirePacket) (freshData : Bool) : Connection π :=
  if freshData && c.onMessage then
    { c with delivered := c.delivered ++
        [⟨c.id, pkt.seq, .bestEffort, pkt.type.isSealed, pkt.payload⟩] }
  else c

/-- The second switch of `HandleAuthenticated`. -/
def dispatch (c : Connection π) (pkt : WirePacket) (admission : Admission) (now : Int) :
    Connection π :=
  match pkt.type with
  | .ack => c.handleAck pkt now
  | .close => c.handleClose
  | .keepalive => if !c.authenticated then c else c.handleKeepalive pkt now
  | .dataBestEffort | .plainBestEffort => c.deliverBestEffort pkt admission.freshData
  | .dataReliable | .plainReliable => c.handleReliable pkt admission now

/-- `HandleAuthenticated` past its two refusals. -/
def handleAdmitted (c : Connection π) (pkt : WirePacket) (source : IpEndpoint) (now : Int) :
    Connection π :=
  let (c, admission) := c.admitPacket pkt
  ((c.noteTimestamp pkt).noteFresh admission.fresh source now).dispatch pkt admission now

def handleAuthenticated (c : Connection π) (pkt : WirePacket) (source : IpEndpoint) (now : Int) :
    Connection π :=
  if !pkt.type.isSealed && !c.acceptSkew pkt.timestampMs now then c
  else
    match c.refusePlainAfterKeys pkt with
    | (c, true) => c
    | (c, false) => c.handleAdmitted pkt source now

def handleDatagram (c : Connection π) (source : IpEndpoint) (datagram : Bytes) (now : Int) :
    Connection π :=
  match WireCodec.peekType datagram with
  | .error _ => c
  | .ok type =>
      if type.isSealed then
        match c.openDatagram datagram now with
        | .error _ => c
        | .ok pkt => c.handleAuthenticated pkt source now
      else if !HmacBinder.verify c.binderKey datagram then
        match c.preUpgradeKey with
        | some key =>
            if HmacBinder.verify key datagram then
              match WireCodec.decode datagram with
              | .ok pkt => c.handlePreUpgradeKeyPacket pkt now
              | .error _ => c
            else c
        | none => c
      else
        match WireCodec.decode datagram with
        | .error _ => c
        | .ok pkt => c.handleAuthenticated pkt source now

def handleVersionNegotiation (c : Connection π) (versions : Bytes) : Connection π :=
  if c.authenticated || !c.params.dialerBackoff || c.closed then c
  else { c with
    peerVersionMismatch := true
    peerWireVersions := versions
    closed := true
    registered := false }

end Receiving

/-- The calls a connection takes: from the application, the endpoint's socket
and timer, and the session above. -/
inductive Event (π : Type) where
  | send (qos : QosClass) (payload : Bytes)
  | tick (now : Int)
  | datagram (source : IpEndpoint) (bytes : Bytes) (now : Int)
  | versionNegotiation (versions : Bytes)
  | upgradeBinder (key : PeerKey)
  | setProtection (protection : π)
  | setPeerEndpoint (peer : IpEndpoint)
  | onMessage (installed : Bool)
  | onPathChange (installed : Bool)
  | sendKeepalive (now : Int) (intervalMs : Nat)
  | stopKeepalive (now : Int)
  | sendProbe (now : Int)
  | close
  | abandon
  /-- The clock moves, or the socket answers otherwise. -/
  | environment (port : EndpointPort)

def step [PacketProtection π] [Hmac] (c : Connection π) : Event π → Connection π
  | .send qos payload => (c.send qos payload).1
  | .tick now => c.tick now
  | .datagram source bytes now => c.handleDatagram source bytes now
  | .versionNegotiation versions => c.handleVersionNegotiation versions
  | .upgradeBinder key => c.upgradeBinder key
  | .setProtection protection => c.setProtection protection
  | .setPeerEndpoint peer => c.setPeerEndpoint peer
  | .onMessage installed => { c with onMessage := installed }
  | .onPathChange installed => { c with onPathChange := installed }
  | .sendKeepalive now intervalMs => (c.sendKeepalive now intervalMs).1
  | .stopKeepalive now => (c.stopKeepalive now).1
  | .sendProbe now => (c.sendProbe now).1
  | .close => c.close
  | .abandon => c.abandon
  | .environment port => { c with endpoint := port }

end Connection

end Amp.Adp
