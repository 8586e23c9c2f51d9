import Amp.L1.Connection
import Amp.Lib.Duplex
import Amp.Link.CarrierLane
import Amp.Link.LinkIdentity

set_option autoImplicit false

/- A link over a circuit carrier once its handshake has begun (PeerLink.cpp): inner
packets sealed and numbered here, the lane under the reliable ones, and what the lane
releases on its way to the mux. The handshake itself is seen by how it ends. -/
namespace Amp

open Adp (Bytes PacketProtection ReplayWindow QosClass PacketSpace)

/-- Frames the lane delivered before the mux exists to drain them. -/
def kMaxLaneBacklogFrames : Nat := 256

def kCarrierBestEffortReplayWindow : Nat := 128
def kCarrierReliableReplayWindow : Nat := 1024

structure CarrierLink (π : Type) where
  /-- The session that the handshake comes to. -/
  keys : π
  /-- `lane_`, what was wrapped and released, and the lane payloads on the carrier. -/
  lane : LaneEnd := { lane := .create {} }
  phase : PeerLinkPhase := .handshaking
  /-- `session_`, with the mux that is made next to it. -/
  session : Option π := none
  laneBacklog : List Bytes := []
  carrierRxBe : ReplayWindow := ⟨kCarrierBestEffortReplayWindow, true, 0, ∅⟩
  carrierRxRel : ReplayWindow := ⟨kCarrierReliableReplayWindow, true, 0, ∅⟩
  carrierTxBe : Nat := 0
  carrierTxRel : Nat := 0
  /-- Trace: sealed packets given to the carrier as they are. -/
  direct : List Bytes := []
  /-- Trace: the packets given to the lane, by number, with the frames sealed in them. -/
  laned : List (Nat × Bytes) := []
  /-- Trace: what `OnFrameInbound` was given, with the packets' headers. -/
  inbound : List (CarrierSealedHeader × Bytes) := []
  /-- Trace: the link has been Connected. -/
  wasConnected : Bool := false

namespace CarrierLink

variable {π : Type} [PacketProtection π]

def carrierLaneActive (link : CarrierLink π) : Bool := link.lane.lane.peerSpeaksLane

def carrierSpace (reliable : Bool) : PacketSpace :=
  if reliable then .carrierReliable else .carrierBestEffort

section Sending

/-- The number `SealCarrierFrame` gives the next packet. -/
def nextNumber (link : CarrierLink π) (reliable : Bool) : Nat :=
  (if reliable then link.carrierTxRel else link.carrierTxBe) + 1

/-- `++counter`. -/
def takeNumber (link : CarrierLink π) (reliable : Bool) : CarrierLink π :=
  if reliable then { link with carrierTxRel := link.carrierTxRel + 1 }
  else { link with carrierTxBe := link.carrierTxBe + 1 }

/-- `SealCarrierFrame`. A packet that cannot be sealed has used its number up. -/
def sealCarrierFrame (link : CarrierLink π) (reliable : Bool) (frame : Bytes) :
    CarrierLink π × Except String Bytes :=
  match link.session with
  | none => (link, .error "amp link: no session to seal with")
  | some session =>
      if link.nextNumber reliable = 2 ^ 32 then
        (link, .error "amp link: carrier packet numbers ran out")
      else
        let header := AmpAdpCarrier.encodeSealedHeader reliable (link.nextNumber reliable)
        match PacketProtection.sealPacket session (carrierSpace reliable) (link.nextNumber reliable)
          header frame with
        | .error message => (link.takeNumber reliable, .error message)
        | .ok body => (link.takeNumber reliable, .ok (header ++ body))

/-- A sealed packet goes to the lane, unless its window is full. -/
def ride (link : CarrierLink π) (number : Nat) (frame wire : Bytes) (now : Int) : CarrierLink π :=
  match link.lane.lane.wrap wire now with
  | (_, none) => link
  | (_, some _) =>
      { link with lane := link.lane.wrap wire now, laned := link.laned ++ [(number, frame)] }

/-- The transport of the mux: reliable frames ride the lane when the peer speaks it. -/
def transmit (link : CarrierLink π) (qos : QosClass) (frame : Bytes) (now : Int) : CarrierLink π :=
  let reliable := qos == .reliable
  match link.sealCarrierFrame reliable frame with
  | (link, .error _) => link
  | (after, .ok wire) =>
      if reliable && link.carrierLaneActive then
        after.ride (link.nextNumber reliable) frame wire now
      else { after with direct := after.direct ++ [wire] }

def sendLaneProbe (link : CarrierLink π) : CarrierLink π :=
  { link with lane := link.lane.step .probe }

def tickCarrierLane (link : CarrierLink π) (now : Int) : CarrierLink π :=
  if link.phase ≠ .connected then link
  else { link with lane := link.lane.step (.dueResends now) }

end Sending

section Receiving

/-- The window of a packet's class. -/
def window (link : CarrierLink π) (reliable : Bool) : ReplayWindow :=
  if reliable then link.carrierRxRel else link.carrierRxBe

def acceptNumber (link : CarrierLink π) (header : CarrierSealedHeader) : CarrierLink π :=
  if header.reliable then { link with carrierRxRel := (link.carrierRxRel.accept header.number).1 }
  else { link with carrierRxBe := (link.carrierRxBe.accept header.number).1 }

/-- `DeliverFrame`, of a packet that opened. -/
def deliverFrame (link : CarrierLink π) (header : CarrierSealedHeader) (frame : Bytes) :
    CarrierLink π :=
  if link.phase ≠ .connected then link
  else { link with inbound := link.inbound ++ [(header, frame)] }

def deliverSealedCarrierWire (link : CarrierLink π) (now : Int) (wire : Bytes) : CarrierLink π :=
  match link.session, AmpAdpCarrier.decodeSealedHeader wire with
  | none, _ => link
  | _, .error _ => link
  | some session, .ok header =>
      if (link.window header.reliable).classify header.number ≠ .fresh then link
      else
        match PacketProtection.openPacket session (carrierSpace header.reliable) header.number
          (wire.take kCarrierSealedHeaderBytes) (wire.drop kCarrierSealedHeaderBytes) now with
        | .error _ => link
        | .ok frame => (link.acceptNumber header).deliverFrame header frame

def flushLaneBacklog (link : CarrierLink π) (now : Int) : CarrierLink π :=
  if link.phase ≠ .connected ∨ link.session.isNone then link
  else link.laneBacklog.foldl (fun link wire => link.deliverSealedCarrierWire now wire)
    { link with laneBacklog := [] }

/-- What a lane data frame releases; none when the payload is not one. -/
def released (link : CarrierLink π) (payload : Bytes) : Option (List Bytes) :=
  if payload.head? ≠ some AmpAdpPayloadKind.laneData.code then none
  else
    match AmpAdpCarrier.decodeLaneData payload with
    | .error _ => none
    | .ok (seq, inner) => some (link.lane.lane.onData seq inner).2.1

/-- `HandleLaneFrame`. The ack has gone before the frames are stored, and the backlog
takes no more than it has room for. -/
def handleLaneFrame (link : CarrierLink π) (payload : Bytes) (now : Int) : CarrierLink π :=
  match link.released payload with
  | none => { link with lane := link.lane.receive payload now }
  | some deliver =>
      { link with
        lane := link.lane.receive payload now
        laneBacklog := link.laneBacklog ++
          deliver.take (kMaxLaneBacklogFrames - link.laneBacklog.length) }.flushLaneBacklog now

def isLaneKind (payload : Bytes) : Bool :=
  payload.head? == some AmpAdpPayloadKind.laneData.code ||
    payload.head? == some AmpAdpPayloadKind.laneAck.code

def isSealedKind (payload : Bytes) : Bool :=
  payload.head? == some AmpAdpPayloadKind.sealedFrame.code ||
    payload.head? == some AmpAdpPayloadKind.sealedReliable.code

/-- `HandleCarrierFrame`, as far as it is not about the handshake. -/
def handleCarrierFrame (link : CarrierLink π) (payload : Bytes) (now : Int) : CarrierLink π :=
  if isLaneKind payload then link.handleLaneFrame payload now
  else if link.phase = .connected ∧ isSealedKind payload then link.deliverSealedCarrierWire now payload
  else link

end Receiving

/-- How `FinishEstablishment` goes. -/
inductive Establishment where
  | noSession
  /-- The carrier's frames are too small to nest in. -/
  | noBudget
  /-- The link lost its election. -/
  | refused
  | accepted
  deriving DecidableEq, Repr

def finishEstablishment (link : CarrierLink π) (outcome : Establishment) (now : Int) :
    CarrierLink π :=
  match outcome with
  | .noSession => { link with phase := .backoff }
  | .noBudget | .refused => { link with session := some link.keys, phase := .backoff }
  | .accepted =>
      ({ link with session := some link.keys, phase := .connected, wasConnected := true
        }.sendLaneProbe).flushLaneBacklog now

inductive Event where
  | transmit (qos : QosClass) (frame : Bytes) (now : Int)
  | probe
  | tick (now : Int)
  /-- The handshake is done. -/
  | establish (outcome : Establishment) (now : Int)
  /-- The handshake failed, the carrier closed, or the link was demoted. -/
  | stop
  | receive (payload : Bytes) (now : Int)

def step (link : CarrierLink π) : Event → CarrierLink π
  | .transmit qos frame now => link.transmit qos frame now
  | .probe => link.sendLaneProbe
  | .tick now => link.tickCarrierLane now
  | .establish outcome now =>
      if link.phase ≠ .handshaking then link else link.finishEstablishment outcome now
  | .stop => { link with phase := .backoff }
  | .receive payload now => link.handleCarrierFrame payload now

/-- All that a link has given to the carrier. -/
def sent (link : CarrierLink π) : List Bytes := link.lane.sent ++ link.direct

/-- Two links over one carrier. -/
abbrev carrier : Duplex.Machine (CarrierLink π) Event Bytes Int where
  step := step
  sent := sent
  arrive now payload := .receive payload now
  arrive_item _ _ _ _ same := by
    injection same

end CarrierLink

end Amp
