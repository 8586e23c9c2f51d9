import Amp.L3.MessageReassembly

set_option autoImplicit false

/- Channels over one session (ChannelMux.cpp). Handlers are modelled by whether
they are bound; what they are called with is kept as traces. A handler's own
calls come after the call that ran it. -/
namespace Amp

open Adp (Bytes QosClass)

/-- What `SetTransport` and `SetTransportCredits` attach to the mux. -/
class MuxTransport (τ : Type) where
  send : τ → QosClass → Bytes → τ × Except String Unit
  credits : τ → Nat

structure ChannelRecord where
  id : UInt32 := 0
  protocolId : Bytes := []
  policy : ChannelPolicy := {}
  state : ChannelState := .closed
  txSeq : UInt32 := 1
  rxSeq : UInt32 := 1
  onData : Bool := false
  onTerminal : Bool := false
  reassembly : MessageReassembly := {}
  readClockMs : Int := -1

structure ChannelMux (τ : Type) where
  transport : τ
  maxFrameBytes : Nat
  sendQueues : AList (fun _ : UInt32 => List Bytes) := ∅
  sendOrder : List UInt32 := []
  queuedBytes : Nat := 0
  tuning : MuxTuning := {}
  nowMs : Int := 0
  channels : AList (fun _ : UInt32 => ChannelRecord) := ∅
  pendingHandlers : List UInt32 := []
  pendingTerminalHandlers : List UInt32 := []
  pendingOpenData : AList (fun _ : UInt32 => Bytes) := ∅
  protocolHandlers : List Bytes := []
  nextDynamicId : UInt32
  nextFragMsgId : Nat := 1
  refuseUnhandledOpens : Bool := false
  /-- Trace: payloads given to data handlers, with their channel. -/
  delivered : List (UInt32 × Bytes) := []
  /-- Trace: terminal notices. -/
  terminals : List (UInt32 × String) := []
  /-- Trace: calls of protocol handlers. -/
  inboundOpens : List (UInt32 × Bytes) := []

def kOpenAckNoHandler : UInt8 := 1
def kOpenAckTooManyChannels : UInt8 := 2
def kOpenAckBadIdParity : UInt8 := 3
def kMinFrameBytes : Nat := 64
def kMaxFragmentsPerMessage : Nat := 0xFFFF
def kLinkDroppedReason : String := "link-dropped"
def kReadTimeoutReason : String := "read-timeout"
def kBadMessageReason : String := "bad-message"

def reassemblyFor (policy : ChannelPolicy) : MessageReassembly where
  maxMessageBytes := policy.maxMessageBytes
  maxPartials := 64
  lossy := qosForClass policy.cls == .bestEffort

def localMaxMessageBytesCeiling (cls : ChannelClass) : Nat :=
  if cls = .bulk then AmpChannelLimits.kMaxBulkFrameBytes
  else AmpChannelLimits.kMaxChatStreamJsonBytes

namespace ChannelMux

variable {τ : Type}

def create (initiator : Bool) (transport : τ) : ChannelMux τ where
  transport := transport
  maxFrameBytes := Adp.kMaxSealedPayload
  nextDynamicId := if initiator then 1 else 2

def channelById (mux : ChannelMux τ) (id : UInt32) : Option ChannelRecord := mux.channels.lookup id

def state (mux : ChannelMux τ) (id : UInt32) : ChannelState :=
  match mux.channelById id with
  | some channel => channel.state
  | none => .closed

def putChannel (mux : ChannelMux τ) (id : UInt32) (channel : ChannelRecord) : ChannelMux τ :=
  { mux with channels := mux.channels.insert id channel }

def eraseChannel (mux : ChannelMux τ) (id : UInt32) : ChannelMux τ :=
  { mux with channels := mux.channels.erase id }

theorem channelById_putChannel (mux : ChannelMux τ) (id other : UInt32)
    (channel : ChannelRecord) : (mux.putChannel other channel).channelById id =
      if id = other then some channel else mux.channelById id := by
  unfold putChannel channelById
  by_cases same : id = other
  · subst same
    simp [AList.lookup_insert]
  · simp [AList.lookup_insert_ne same, same]

theorem channelById_eraseChannel (mux : ChannelMux τ) (id other : UInt32) :
    (mux.eraseChannel other).channelById id =
      if id = other then none else mux.channelById id := by
  unfold eraseChannel channelById
  by_cases same : id = other
  · subst same
    simp [AList.lookup_erase]
  · simp [AList.lookup_erase_ne same, same]

def queueOf (mux : ChannelMux τ) (id : UInt32) : List Bytes := (mux.sendQueues.lookup id).getD []

def queuedFrameCount (mux : ChannelMux τ) : Nat :=
  (mux.sendQueues.entries.map fun entry => entry.2.length).sum

section Sending

variable [MuxTransport τ]

def hasReliableCredit (mux : ChannelMux τ) : Bool :=
  decide (0 < MuxTransport.credits mux.transport)

def transmit (mux : ChannelMux τ) (qos : QosClass) (wire : Bytes) :
    ChannelMux τ × Except String Unit :=
  let (transport, outcome) := MuxTransport.send mux.transport qos wire
  ({ mux with transport := transport }, outcome)

/-- A channel's queue after its front frame left; an empty one goes. -/
def requeue (mux : ChannelMux τ) (id : UInt32) (order : List UInt32) (rest : List Bytes) :
    ChannelMux τ :=
  if rest.isEmpty then { mux with sendQueues := mux.sendQueues.erase id, sendOrder := order }
  else { mux with sendQueues := mux.sendQueues.insert id rest, sendOrder := order ++ [id] }

/-- The loop of `FlushQueued`. Each turn takes an entry of the order, and puts it
back only when a frame went out. -/
def flushTurns : Nat → ChannelMux τ → ChannelMux τ
  | 0, mux => mux
  | turns + 1, mux =>
      match mux.sendOrder with
      | [] => mux
      | id :: order =>
          if !mux.hasReliableCredit then mux
          else
            match mux.queueOf id with
            | [] => flushTurns turns { mux with sendOrder := order }
            | wire :: rest =>
                let mux := { mux with queuedBytes := mux.queuedBytes - wire.length }
                flushTurns turns ((mux.transmit .reliable wire).1.requeue id order rest)

def flushQueued (mux : ChannelMux τ) : ChannelMux τ :=
  flushTurns (mux.sendOrder.length + mux.queuedFrameCount) mux

def enqueue (mux : ChannelMux τ) (id : UInt32) (wire : Bytes) : ChannelMux τ :=
  { mux with
    queuedBytes := mux.queuedBytes + wire.length
    sendOrder := if (mux.queueOf id).isEmpty then mux.sendOrder ++ [id] else mux.sendOrder
    sendQueues := mux.sendQueues.insert id (mux.queueOf id ++ [wire]) }

def sendWire (mux : ChannelMux τ) (id : UInt32) (qos : QosClass) (wire : Bytes) :
    ChannelMux τ × Except String Unit :=
  if qos ≠ .reliable then mux.transmit qos wire
  else
    let mux := mux.flushQueued
    if (mux.queueOf id).isEmpty && mux.hasReliableCredit then mux.transmit qos wire
    else if mux.tuning.maxQueuedBytes < mux.queuedBytes + wire.length then
      (mux, .error "amp mux: send queue full")
    else (mux.enqueue id wire, .ok ())

def sendFrame (mux : ChannelMux τ) (frame : ChannelFrame) (cls : ChannelClass) :
    ChannelMux τ × Except String Unit :=
  match ChannelWire.encode frame with
  | .error message => (mux, .error message)
  | .ok wire => mux.sendWire frame.channelId (qosForClass cls) wire

def dropQueued (mux : ChannelMux τ) (id : UInt32) : ChannelMux τ :=
  match mux.sendQueues.lookup id with
  | none => mux
  | some queue => { mux with
      queuedBytes := mux.queuedBytes - (queue.map List.length).sum
      sendQueues := mux.sendQueues.erase id }

omit [MuxTransport τ] in
theorem queueOf_requeue (mux : ChannelMux τ) (id other : UInt32) (order : List UInt32)
    (rest : List Bytes) :
    (mux.requeue id order rest).queueOf other = if other = id then rest else mux.queueOf other := by
  unfold requeue
  by_cases same : other = id
  · subst same
    by_cases blank : rest.isEmpty
    · rw [if_pos blank, if_pos rfl, List.isEmpty_iff.mp blank]
      simp [queueOf, AList.lookup_erase]
    · rw [if_neg blank, if_pos rfl]
      simp [queueOf, AList.lookup_insert]
  · rw [if_neg same]
    split
    · simp [queueOf, AList.lookup_erase_ne same]
    · simp [queueOf, AList.lookup_insert_ne same]

omit [MuxTransport τ] in
theorem queueOf_enqueue (mux : ChannelMux τ) (id other : UInt32) (wire : Bytes) :
    (mux.enqueue id wire).queueOf other =
      if other = id then mux.queueOf id ++ [wire] else mux.queueOf other := by
  unfold enqueue queueOf
  by_cases same : other = id
  · subst same
    simp [AList.lookup_insert]
  · simp [AList.lookup_insert_ne same, same]

omit [MuxTransport τ] in
theorem queueOf_dropQueued (mux : ChannelMux τ) (id other : UInt32) :
    (mux.dropQueued id).queueOf other = if other = id then [] else mux.queueOf other := by
  unfold dropQueued
  split
  · rename_i absent
    split
    · rename_i same
      rw [queueOf, same, absent]
      rfl
    · rfl
  · by_cases same : other = id
    · subst same
      simp [queueOf, AList.lookup_erase]
    · simp [queueOf, AList.lookup_erase_ne same, same]

/-- Handlers registered before their channel move into its record. -/
def adoptHandlers (mux : ChannelMux τ) (channel : ChannelRecord) : ChannelMux τ :=
  { mux with
    channels := mux.channels.insert channel.id { channel with
      onData := mux.pendingHandlers.contains channel.id
      onTerminal := mux.pendingTerminalHandlers.contains channel.id }
    pendingHandlers := mux.pendingHandlers.filter (· ≠ channel.id)
    pendingTerminalHandlers := mux.pendingTerminalHandlers.filter (· ≠ channel.id) }

/-- The id `OpenOutbound` takes when none is given, and the counter after it. -/
def allocateId (mux : ChannelMux τ) : UInt32 × UInt32 :=
  let next := mux.nextDynamicId + 2
  if mux.nextDynamicId = kIllegalChannelId then (next, next + 2)
  else (mux.nextDynamicId, next)

def openingRecord (id : UInt32) (protocolId : Bytes) (policy : ChannelPolicy) : ChannelRecord where
  id := id
  protocolId := protocolId
  policy := policy
  state := .opening
  reassembly := reassemblyFor policy

def openFrame (id : UInt32) (protocolId : Bytes) (policy : ChannelPolicy) : ChannelFrame where
  channelId := id
  channelSeq := 0
  body := .openFrame protocolId policy.cls 0 (min policy.maxMessageBytes 0xFFFFFFFF)

def openAs (mux : ChannelMux τ) (id : UInt32) (protocolId : Bytes) (policy : ChannelPolicy) :
    ChannelMux τ × Except String UInt32 :=
  let mux := mux.adoptHandlers (openingRecord id protocolId policy)
  match mux.sendFrame (openFrame id protocolId policy) policy.cls with
  | (mux, .error message) => (mux, .error message)
  | (mux, .ok _) => (mux, .ok id)

def openOutbound (mux : ChannelMux τ) (protocolId : Bytes) (policy : ChannelPolicy)
    (fixedId : Option UInt32) : ChannelMux τ × Except String UInt32 :=
  match fixedId with
  | some id =>
      if (mux.channelById id).isSome then (mux, .error "amp mux: channel id in use")
      else mux.openAs id protocolId policy
  | none =>
      let (id, next) := mux.allocateId
      let mux := { mux with nextDynamicId := next }
      if (mux.channelById id).isSome then (mux, .error "amp mux: channel id already recorded")
      else mux.openAs id protocolId policy

def setDataHandler (mux : ChannelMux τ) (id : UInt32) : ChannelMux τ :=
  match mux.channelById id with
  | some channel => mux.putChannel id { channel with onData := true }
  | none => { mux with pendingHandlers := id :: mux.pendingHandlers }

def setTerminalHandler (mux : ChannelMux τ) (id : UInt32) : ChannelMux τ :=
  match mux.channelById id with
  | some channel => mux.putChannel id { channel with onTerminal := true }
  | none => { mux with pendingTerminalHandlers := id :: mux.pendingTerminalHandlers }

def applyChannelPolicy (mux : ChannelMux τ) (id : UInt32) (policy : ChannelPolicy) :
    ChannelMux τ × Except String Unit :=
  match mux.channelById id with
  | none => (mux, .error "amp mux: apply policy on unknown channel")
  | some channel =>
      let policy := { policy with
        maxMessageBytes := min policy.maxMessageBytes AmpChannelLimits.kMaxBulkFrameBytes }
      (mux.putChannel id { channel with
        policy := policy, reassembly := reassemblyFor policy, readClockMs := -1 }, .ok ())

def notifyTerminal (mux : ChannelMux τ) (id : UInt32) (channel : ChannelRecord) (reason : String) :
    ChannelMux τ :=
  if channel.onTerminal then { mux with terminals := mux.terminals ++ [(id, reason)] } else mux

/-- A single-frame message. -/
def dataFrame (id seq : UInt32) (payload : Bytes) : ChannelFrame := ⟨id, seq, .data payload⟩

def nextSeq (seq : UInt32) : UInt32 := seq + 1

/-- The loop of `SendData` over the fragments. -/
def sendFrags (qos : QosClass) (id : UInt32) (msgId count totalLen : Nat) :
    Nat → List Bytes → ChannelRecord → ChannelMux τ → ChannelMux τ × Except String Unit
  | _, [], _, mux => (mux, .ok ())
  | index, chunk :: rest, channel, mux =>
      match ChannelWire.encode
          ⟨id, channel.txSeq, .frag ⟨msgId, index, count, totalLen, chunk⟩⟩ with
      | .error message => (mux, .error message)
      | .ok wire =>
          match mux.sendWire id qos wire with
          | (mux, .error message) => (mux, .error message)
          | (mux, .ok _) =>
              match mux.channelById id with
              | none => (mux, .error "amp mux: channel closed while sending")
              | some channel =>
                  if channel.state ≠ .opened then
                    (mux, .error "amp mux: channel closed while sending")
                  else
                    let channel := { channel with txSeq := nextSeq channel.txSeq }
                    sendFrags qos id msgId count totalLen (index + 1) rest channel
                      (mux.putChannel id channel)

/-- The payload cut into pieces of `size` bytes, the last one shorter. -/
def chunksOf (size : Nat) : Nat → Bytes → List Bytes
  | 0, _ => []
  | count + 1, payload => payload.take size :: chunksOf size count (payload.drop size)

def takeMsgId (mux : ChannelMux τ) : ChannelMux τ :=
  { mux with nextFragMsgId := (mux.nextFragMsgId + 1) % 2 ^ 64 }

def sendFragmented (mux : ChannelMux τ) (id : UInt32) (channel : ChannelRecord) (payload : Bytes) :
    ChannelMux τ × Except String Unit :=
  let chunkBytes := mux.maxFrameBytes - kChannelHeaderBytes - kChannelFragFieldsBytes
  let needed := (payload.length + chunkBytes - 1) / chunkBytes
  if kMaxFragmentsPerMessage < needed then
    (mux, .error "amp mux: message needs more fragments than a frame counts")
  else
    let qos := qosForClass channel.policy.cls
    if qos = .reliable ∧ mux.tuning.maxQueuedBytes < mux.queuedBytes + payload.length then
      (mux.takeMsgId, .error "amp mux: send queue full")
    else sendFrags qos id mux.nextFragMsgId needed (payload.length % 2 ^ 32) 0
      (chunksOf chunkBytes needed payload) channel mux.takeMsgId

def sendData (mux : ChannelMux τ) (id : UInt32) (payload : Bytes) :
    ChannelMux τ × Except String Unit :=
  match mux.channelById id with
  | none => (mux, .error "amp mux: send on closed channel")
  | some channel =>
      if channel.state ≠ .opened then (mux, .error "amp mux: send on closed channel")
      else if channel.policy.maxMessageBytes < payload.length then
        (mux, .error "amp mux: payload too large")
      else if payload.length ≤ mux.maxFrameBytes - kChannelHeaderBytes then
        match mux.sendFrame (dataFrame id channel.txSeq payload) channel.policy.cls with
        | (mux, .error message) => (mux, .error message)
        | (mux, .ok _) =>
            (mux.putChannel id { channel with txSeq := nextSeq channel.txSeq }, .ok ())
      else mux.sendFragmented id channel payload

def setMaxFrameBytes (mux : ChannelMux τ) (bytes : Nat) : ChannelMux τ × Except String Unit :=
  if bytes < kMinFrameBytes then (mux, .error "amp mux: frame budget below the minimum")
  else ({ mux with maxFrameBytes := bytes }, .ok ())

def resetChannel (mux : ChannelMux τ) (id code : UInt32) : ChannelMux τ × Except String Unit :=
  match mux.channelById id with
  | none => (mux, .error "amp mux: reset unknown channel")
  | some channel =>
      let (mux, outcome) := (mux.dropQueued id).sendFrame ⟨id, channel.txSeq, .reset code⟩
        channel.policy.cls
      (mux.eraseChannel id, outcome)

def closeChannel (mux : ChannelMux τ) (id : UInt32) (reason : Bytes) :
    ChannelMux τ × Except String Unit :=
  match mux.channelById id with
  | none => (mux, .error "amp mux: close unknown channel")
  | some channel =>
      let mux := mux.putChannel id { channel with
        txSeq := nextSeq channel.txSeq, state := .closing }
      mux.sendFrame ⟨id, channel.txSeq, .close reason⟩ channel.policy.cls

end Sending

section Receiving

variable [MuxTransport τ]

def deliverPayload (mux : ChannelMux τ) (id : UInt32) (channel : ChannelRecord) (payload : Bytes) :
    ChannelMux τ :=
  if channel.onData then { mux with delivered := mux.delivered ++ [(id, payload)] } else mux

def ackFrame (id : UInt32) (result : UInt8) : ChannelFrame := ⟨id, 0, .openAck result⟩

def refuseOpen (mux : ChannelMux τ) (id : UInt32) (cls : ChannelClass) (result : UInt8) :
    ChannelMux τ × Except String Unit :=
  { mux with pendingTerminalHandlers := mux.pendingTerminalHandlers.filter (· ≠ id) }.sendFrame
    (ackFrame id result) cls

/-- The record of an inbound open: the offered limit, under the local ceiling. -/
def acceptedRecord (id : UInt32) (protocolId : Bytes) (cls : ChannelClass) (offered : Nat) :
    ChannelRecord :=
  let policy : ChannelPolicy := { cls := cls }
  let policy := if 0 < offered then
    { policy with maxMessageBytes := min offered (localMaxMessageBytesCeiling cls) } else policy
  { id := id
    protocolId := protocolId
    policy := policy
    reassembly := reassemblyFor policy
    state := .opened }

/-- Whether anyone here will read a channel of this protocol. -/
def handles (mux : ChannelMux τ) (id : UInt32) (protocolId : Bytes) : Bool :=
  id == kCapabilityChannelId || mux.protocolHandlers.contains protocolId ||
    mux.pendingHandlers.contains id

/-- The OpenAck result an inbound open is refused with, if it is. -/
def openRefusal (mux : ChannelMux τ) (id : UInt32) (protocolId : Bytes) : Option UInt8 :=
  if id ≠ kCapabilityChannelId ∧ id % 2 = mux.nextDynamicId % 2 then some kOpenAckBadIdParity
  else if mux.tuning.maxConcurrentChannels ≤ mux.channels.entries.length then
    some kOpenAckTooManyChannels
  else if mux.refuseUnhandledOpens && !mux.handles id protocolId then some kOpenAckNoHandler
  else none

def noteInboundOpen (mux : ChannelMux τ) (id : UInt32) (protocolId : Bytes) : ChannelMux τ :=
  if mux.protocolHandlers.contains protocolId then
    { mux with inboundOpens := mux.inboundOpens ++ [(id, protocolId)] }
  else mux

def handleOpen (mux : ChannelMux τ) (id : UInt32) (protocolId : Bytes) (cls : ChannelClass)
    (offered : Nat) : ChannelMux τ × Except String Unit :=
  if (mux.channelById id).isSome then (mux, .error "amp mux: duplicate open")
  else match mux.openRefusal id protocolId with
    | some result => mux.refuseOpen id cls result
    | none =>
        match (mux.adoptHandlers (acceptedRecord id protocolId cls offered)).sendFrame
            (ackFrame id 0) cls with
        | (mux, .error message) => (mux, .error message)
        | (mux, .ok _) => (mux.noteInboundOpen id protocolId, .ok ())

def flushPendingOpenData (mux : ChannelMux τ) (id : UInt32) : ChannelMux τ :=
  match mux.pendingOpenData.lookup id with
  | none => mux
  | some payload =>
      ({ mux with pendingOpenData := mux.pendingOpenData.erase id }.sendData id payload).1

def handleOpenAck (mux : ChannelMux τ) (id : UInt32) (result : UInt8) :
    ChannelMux τ × Except String Unit :=
  match mux.channelById id with
  | none => (mux, .error "amp mux: open ack for unknown channel")
  | some channel =>
      if result ≠ 0 then
        let mux := { mux with pendingOpenData := mux.pendingOpenData.erase id }
        let mux := mux.notifyTerminal id channel
          (if result = kOpenAckNoHandler then "open rejected: no handler" else "open rejected")
        (mux.eraseChannel id, .error "amp mux: open rejected")
      else
        let mux := mux.putChannel id { channel with state := .opened }
        (mux.flushPendingOpenData id, .ok ())

/-- The peer's Close or Reset: what waits is dropped and the record goes. -/
def handleEnd (mux : ChannelMux τ) (id : UInt32) (channel : ChannelRecord) (reason : String) :
    ChannelMux τ :=
  ((mux.dropQueued id).notifyTerminal id channel reason).eraseChannel id

/-- A frame's number on a reliable channel is the next one, and is counted. -/
def inTurn (channel : ChannelRecord) (seq : UInt32) : Bool :=
  qosForClass channel.policy.cls != .reliable || seq == channel.rxSeq

def countFrame (channel : ChannelRecord) : ChannelRecord :=
  { channel with
    rxSeq := if qosForClass channel.policy.cls = .reliable then nextSeq channel.rxSeq
      else channel.rxSeq
    readClockMs := -1 }

def handleData (mux : ChannelMux τ) (id seq : UInt32) (channel : ChannelRecord) (payload : Bytes) :
    ChannelMux τ × Except String Unit :=
  if channel.state ≠ .opened then (mux, .error "amp mux: data on closed channel")
  else if !inTurn channel seq then (mux, .error "amp mux: out of order seq")
  else
    let channel := countFrame channel
    ((mux.putChannel id channel).deliverPayload id channel payload, .ok ())

/-- A message that cannot be put together resets its channel. -/
def handleBadMessage (mux : ChannelMux τ) (id : UInt32) (channel : ChannelRecord) : ChannelMux τ :=
  (mux.resetChannel id 1).1.notifyTerminal id channel kBadMessageReason

def handleFrag (mux : ChannelMux τ) (id seq : UInt32) (channel : ChannelRecord)
    (frag : ChannelFragBody) : ChannelMux τ × Except String Unit :=
  if channel.state ≠ .opened then (mux, .error "amp mux: frag on closed channel")
  else if !inTurn channel seq then (mux, .error "amp mux: out of order frag seq")
  else
    let (reassembly, assembled) := channel.reassembly.push frag mux.nowMs
    let channel := { countFrame channel with reassembly := reassembly }
    let mux := mux.putChannel id channel
    match assembled with
    | .error message => (mux.handleBadMessage id channel, .error message)
    | .ok none => (mux, .ok ())
    | .ok (some message) => (mux.deliverPayload id channel message, .ok ())

def dispatchFrame (mux : ChannelMux τ) (frame : ChannelFrame) :
    ChannelMux τ × Except String Unit :=
  let id := frame.channelId
  match frame.body, mux.channelById id with
  | .openFrame protocolId cls _ offered, _ => mux.handleOpen id protocolId cls offered
  | _, none => (mux, .error "amp mux: unknown channel")
  | .openAck result, some _ => mux.handleOpenAck id result
  | .reset _, some channel => (mux.handleEnd id channel "peer_reset", .ok ())
  | .close _, some channel => (mux.handleEnd id channel "peer_close", .ok ())
  | .data payload, some channel => mux.handleData id frame.channelSeq channel payload
  | .frag frag, some channel => mux.handleFrag id frame.channelSeq channel frag

def onFrameInbound (mux : ChannelMux τ) (wire : Bytes) : ChannelMux τ × Except String Unit :=
  match ChannelWire.decode wire with
  | .error message => (mux, .error message)
  | .ok frame => mux.dispatchFrame frame

def sweepTimeoutMs (tuning : MuxTuning) (channel : ChannelRecord) : Int :=
  if channel.reassembly.lossy then kLossyFragAssemblyTimeoutMs else tuning.fragAssemblyTimeoutMs

/-- `SweepExpired` of one channel, with its own timeout. -/
def sweepChannel (tuning : MuxTuning) (now : Int) (channel : ChannelRecord) : ChannelRecord :=
  { channel with
    reassembly := channel.reassembly.sweepExpired now (sweepTimeoutMs tuning channel) }

/-- Whether the channel's read timeout runs at all. -/
def readTimed (channel : ChannelRecord) : Bool :=
  decide (0 < channel.policy.readTimeoutMs) && channel.state != .closed

def readExpired (now : Int) (channel : ChannelRecord) : Bool :=
  readTimed channel && decide (0 ≤ channel.readClockMs) &&
    decide (channel.policy.readTimeoutMs ≤ now - channel.readClockMs)

def startReadClock (now : Int) (channel : ChannelRecord) : ChannelRecord :=
  if readTimed channel && decide (channel.readClockMs < 0) then
    { channel with readClockMs := now }
  else channel

/-- Every record changed in place. -/
def mapChannels (mux : ChannelMux τ) (change : ChannelRecord → ChannelRecord) : ChannelMux τ :=
  { mux with channels :=
      ⟨mux.channels.entries.map (.map id fun _ => change),
        mux.channels.nodupKeys.map₂ fun _ => change⟩ }

omit [MuxTransport τ] in
theorem channelById_mapChannels (mux : ChannelMux τ) (change : ChannelRecord → ChannelRecord)
    (id : UInt32) : (mux.mapChannels change).channelById id = (mux.channelById id).map change :=
  List.dlookup_map₂ ..

def expireReader (mux : ChannelMux τ) (id : UInt32) : ChannelMux τ :=
  match mux.channelById id with
  | none => mux
  | some channel => (mux.resetChannel id 1).1.notifyTerminal id channel kReadTimeoutReason

def expireIdleReaders (mux : ChannelMux τ) (now : Int) : ChannelMux τ :=
  let gone := (mux.channels.entries.filter fun entry => readExpired now entry.2).map (·.1)
  gone.foldl expireReader (mux.mapChannels (startReadClock now))

def tick (mux : ChannelMux τ) (now : Int) : ChannelMux τ :=
  ((mux.mapChannels (sweepChannel mux.tuning now)).expireIdleReaders now).flushQueued

end Receiving

end ChannelMux

end Amp
