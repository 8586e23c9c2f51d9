import Amp.Link.Carrier

set_option autoImplicit false

/- End-to-end reliability over a best-effort carrier (CarrierLane.cpp). -/
namespace Amp

open Adp (Bytes)

structure CarrierLaneConfig where
  window : Nat := 256
  initialRtoMs : Int := 500
  minRtoMs : Int := 200
  maxRtoMs : Int := 3000
  maxAttempts : Int := 10
  fastRetransmitSkips : Int := 3
  deriving DecidableEq, Repr

/-- `CarrierLane::Outstanding`. -/
structure LaneFrame where
  seq : Nat
  wire : Bytes
  sentMs : Int
  nextResendMs : Int
  attempts : Nat := 1
  skips : Int := 0
  deriving DecidableEq, Repr

structure CarrierLane where
  config : CarrierLaneConfig
  peerSpeaksLane : Bool := false
  failed : Bool := false
  nextTxSeq : Nat := 1
  outstanding : List LaneFrame := []
  rtoMs : Int
  srttMs : Int := 0
  rttvarMs : Int := 0
  haveRtt : Bool := false
  rxCumulative : Nat := 0
  /-- The map in the order of its keys. -/
  rxHold : List (Nat × Bytes) := []
  deriving DecidableEq, Repr

def kSelectiveBits : Nat := 64

/-- Unsigned 32-bit subtraction. -/
def sub32 (left right : Nat) : Nat := (left + (2 ^ 32 - right % 2 ^ 32)) % 2 ^ 32

namespace CarrierLane

def create (config : CarrierLaneConfig) : CarrierLane where
  config := config
  rtoMs := config.initialRtoMs

def notePeerSpeaksLane (lane : CarrierLane) : CarrierLane := { lane with peerSpeaksLane := true }

def wrap (lane : CarrierLane) (inner : Bytes) (now : Int) : CarrierLane × Option Bytes :=
  if lane.config.window ≤ lane.outstanding.length then (lane, none)
  else
    let wire := AmpAdpCarrier.encodeLaneData lane.nextTxSeq inner
    ({ lane with
        nextTxSeq := (lane.nextTxSeq + 1) % 2 ^ 32
        outstanding := lane.outstanding ++ [{
          seq := lane.nextTxSeq
          wire := wire
          sentMs := now
          nextResendMs := now + lane.rtoMs }] }, some wire)

def sampleRtt (lane : CarrierLane) (sampleMs : Int) : CarrierLane :=
  let sample := max sampleMs 1
  let lane := if !lane.haveRtt then
      { lane with srttMs := sample, rttvarMs := sample / 2, haveRtt := true }
    else
      let error := if sample < lane.srttMs then lane.srttMs - sample else sample - lane.srttMs
      { lane with
        rttvarMs := (3 * lane.rttvarMs + error) / 4
        srttMs := (7 * lane.srttMs + sample) / 8 }
  let rto := lane.srttMs + 4 * lane.rttvarMs
  { lane with rtoMs :=
      if rto < lane.config.minRtoMs then lane.config.minRtoMs
      else if lane.config.maxRtoMs < rto then lane.config.maxRtoMs else rto }

/-- The doubling loop of `BackoffRto`, `attempts - 1` turns at most. -/
def backoffRto (lane : CarrierLane) (attempts : Nat) : Int :=
  let doubled := (List.range (attempts - 1)).foldl
    (fun rto _ => if rto < lane.config.maxRtoMs then rto * 2 else rto) lane.rtoMs
  min doubled lane.config.maxRtoMs

end CarrierLane

namespace LaneAckFields

/-- `acked` of `OnAck`: at or below the edge, or a set bit past the hole. -/
def covers (ack : LaneAckFields) (seq : Nat) : Bool :=
  decide (seq ≤ ack.cumulative) ||
    (decide ((ack.cumulative + 2) % 2 ^ 32 ≤ seq) &&
      decide (sub32 (sub32 seq ack.cumulative) 2 < kSelectiveBits) &&
      ack.selective.testBit (sub32 (sub32 seq ack.cumulative) 2))

def highestAcked (ack : LaneAckFields) : Nat :=
  (List.range kSelectiveBits).foldl
    (fun highest bit =>
      if ack.selective.testBit bit then (ack.cumulative + 2 + bit) % 2 ^ 32 else highest)
    ack.cumulative

end LaneAckFields

namespace CarrierLane

/-- A frame passed by a later ack; enough of them bring its resend forward. -/
def noteSkip (lane : CarrierLane) (ack : LaneAckFields) (frame : LaneFrame) (now : Int) :
    LaneFrame :=
  if frame.seq < ack.highestAcked then
    { frame with
      skips := frame.skips + 1
      nextResendMs :=
        if frame.skips + 1 = lane.config.fastRetransmitSkips then now else frame.nextResendMs }
  else frame

/-- The loop of `OnAck` over the frames in flight. -/
def settle (ack : LaneAckFields) (now : Int) :
    List LaneFrame → CarrierLane → CarrierLane × List LaneFrame
  | [], lane => (lane, [])
  | frame :: rest, lane =>
      if ack.covers frame.seq then
        settle ack now rest
          (if frame.attempts = 1 then lane.sampleRtt (now - frame.sentMs) else lane)
      else
        let (after, kept) := settle ack now rest lane
        (after, lane.noteSkip ack frame now :: kept)

def onAck (lane : CarrierLane) (ack : LaneAckFields) (now : Int) : CarrierLane :=
  let (lane, kept) := settle ack now lane.outstanding lane
  { lane with outstanding := kept }

/-- One turn of the loop of `DueResends`: the frame, its resend if due, and
whether it ran out of attempts. -/
def resendFrame (lane : CarrierLane) (now : Int) (frame : LaneFrame) :
    LaneFrame × List Bytes × Bool :=
  if now < frame.nextResendMs then (frame, [], false)
  else if lane.config.maxAttempts ≤ frame.attempts then (frame, [], true)
  else ({ frame with
      attempts := frame.attempts + 1
      skips := 0
      nextResendMs := now + lane.backoffRto (frame.attempts + 1) }, [frame.wire], false)

def dueResends (lane : CarrierLane) (now : Int) : CarrierLane × List Bytes :=
  let turns := lane.outstanding.map (lane.resendFrame now)
  ({ lane with
      outstanding := turns.map Prod.fst
      failed := lane.failed || turns.any fun turn => turn.2.2 },
    turns.flatMap fun turn => turn.2.1)

/-- `emplace` of a key the map does not have. -/
def insertHold (seq : Nat) (inner : Bytes) : List (Nat × Bytes) → List (Nat × Bytes)
  | [] => [(seq, inner)]
  | (other, held) :: rest =>
      if seq < other then (seq, inner) :: (other, held) :: rest
      else (other, held) :: insertHold seq inner rest

/-- The release loop of `OnData`: what leaves the map's front, what stays, and
the edge it reaches. -/
def releaseHold : List (Nat × Bytes) → Nat → List Bytes × List (Nat × Bytes) × Nat
  | [], cumulative => ([], [], cumulative)
  | (seq, inner) :: rest, cumulative =>
      if seq = (cumulative + 1) % 2 ^ 32 then
        let (deliver, hold, reached) := releaseHold rest ((cumulative + 1) % 2 ^ 32)
        (inner :: deliver, hold, reached)
      else ([], (seq, inner) :: rest, cumulative)

/-- The loop of `CurrentAck`, which stops at the first key out of the bits' range. -/
def selectiveBits (cumulative : Nat) : List (Nat × Bytes) → Nat → Nat
  | [], bits => bits
  | (seq, _) :: rest, bits =>
      let bit := sub32 (sub32 seq cumulative) 2
      if kSelectiveBits ≤ bit then bits
      else selectiveBits cumulative rest (bits ||| 1 <<< bit)

def currentAck (lane : CarrierLane) : LaneAckFields :=
  ⟨lane.rxCumulative, selectiveBits lane.rxCumulative lane.rxHold 0⟩

/-- A frame `OnData` keeps: past the edge, not held, within the window. -/
def wantsData (lane : CarrierLane) (seq : Nat) : Bool :=
  decide (lane.rxCumulative < seq) && (lane.rxHold.lookup seq).isNone &&
    decide (seq - lane.rxCumulative ≤ lane.config.window)

def onData (lane : CarrierLane) (seq : Nat) (inner : Bytes) :
    CarrierLane × List Bytes × LaneAckFields :=
  let hold := if lane.wantsData seq then insertHold seq inner lane.rxHold else lane.rxHold
  let (deliver, kept, reached) := releaseHold hold lane.rxCumulative
  let lane := { lane with rxHold := kept, rxCumulative := reached }
  (lane, deliver, lane.currentAck)

end CarrierLane

/-- One end of a lane: the lane, what `Wrap` took, what `OnData` released, and
the payloads given to the carrier. -/
structure LaneEnd where
  lane : CarrierLane
  wrapped : List Bytes := []
  released : List Bytes := []
  sent : List Bytes := []

namespace LaneEnd

inductive Event where
  | wrap (inner : Bytes) (now : Int)
  | dueResends (now : Int)
  | probe
  | receive (payload : Bytes) (now : Int)

def wrap (this : LaneEnd) (inner : Bytes) (now : Int) : LaneEnd :=
  match this.lane.wrap inner now with
  | (_, none) => this
  | (lane, some wire) =>
      { this with lane := lane, wrapped := this.wrapped ++ [inner], sent := this.sent ++ [wire] }

/-- `PeerLink::HandleLaneFrame`. -/
def receive (this : LaneEnd) (payload : Bytes) (now : Int) : LaneEnd :=
  let lane := this.lane.notePeerSpeaksLane
  if payload.head? = some AmpAdpPayloadKind.laneAck.code then
    match AmpAdpCarrier.decodeLaneAck payload with
    | .ok ack => { this with lane := lane.onAck ack now }
    | .error _ => { this with lane := lane }
  else if payload.head? = some AmpAdpPayloadKind.laneData.code then
    match AmpAdpCarrier.decodeLaneData payload with
    | .error _ => { this with lane := lane }
    | .ok (seq, inner) =>
        let (lane, deliver, ack) := lane.onData seq inner
        { this with
          lane := lane
          released := this.released ++ deliver
          sent := this.sent ++ [AmpAdpCarrier.encodeLaneAck ack] }
  else this

def step (this : LaneEnd) : Event → LaneEnd
  | .wrap inner now => this.wrap inner now
  | .dueResends now =>
      let (lane, wires) := this.lane.dueResends now
      { this with lane := lane, sent := this.sent ++ wires }
  | .probe => { this with sent := this.sent ++ [AmpAdpCarrier.encodeLaneAck {}] }
  | .receive payload now => this.receive payload now

end LaneEnd

end Amp
