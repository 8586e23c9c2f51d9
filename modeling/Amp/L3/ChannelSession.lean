import Amp.L3.ChannelLife

set_option autoImplicit false

/- One channel as the layer above holds it (ChannelSession.cpp), on a mux whose
handlers and transport may call either again before they are done. What a call of the
session still has to do waits on one stack with what the mux has. -/
namespace Amp

open Adp (Bytes)

inductive ChannelDropPolicy where
  | never
  | oldest
  deriving DecidableEq, Repr

/-- The policy of a channel, with what only its session reads. -/
structure SessionPolicy extends ChannelPolicy where
  drop : ChannelDropPolicy := .never
  maxOutboundFrames : Nat := 0
  readOnce : Bool := false
  /-- Whether `on_outbound_drop` is set. -/
  onOutboundDrop : Bool := false

/-- How a session came to be closed. -/
inductive Route where
  | close
  | closeQuiet
  | reset
  | writeFailed
  /-- The mux told the channel's end. -/
  | terminal (reason : String)
  deriving DecidableEq, Repr

/-- What `FinishClosed` is given. -/
def Route.reason : Route → Option String
  | .close => some "close"
  | .closeQuiet => none
  | .reset => some "reset"
  | .writeFailed => some "write_failed"
  | .terminal reason => some reason

structure ChannelSession where
  channelId : UInt32
  policy : SessionPolicy
  /-- `mux_` is set. -/
  mux : Bool
  /-- Whether the handlers are set. -/
  onFrame : Bool
  onClosed : Bool
  outbound : List Bytes := []
  writeInflight : Bool := false
  closed : Bool := false

namespace ChannelSession

/-- The body `PumpWrite` sends, if any. -/
def next (session : ChannelSession) : Option Bytes :=
  if session.writeInflight || session.closed || !session.mux then none else session.outbound.head?

/-- `SendData` returned. -/
def idle (session : ChannelSession) : ChannelSession := { session with writeInflight := false }

def queue (session : ChannelSession) (body : Bytes) : ChannelSession :=
  { session with outbound := session.outbound ++ [body] }

def full (session : ChannelSession) : Bool :=
  decide (0 < session.policy.maxOutboundFrames) &&
    decide (session.policy.maxOutboundFrames ≤ session.outbound.length)

def dropOldest (session : ChannelSession) : ChannelSession :=
  { session with outbound := session.outbound.tail }

end ChannelSession

/-- What a session does that its owner sees. -/
inductive SessionMark where
  /-- The frame handler is called. -/
  | framed (payload : Bytes)
  /-- `closed_` is set. -/
  | closing (route : Route)
  /-- The closed callback is called. -/
  | told (reason : String)
  deriving DecidableEq, Repr

/-- The rest of a call that waits for a handler or the transport to return. -/
inductive Rest where
  /-- Of a call of the mux that is not about the session. -/
  | mux (rest : Waiting)
  /-- The readers `ExpireIdleReaders` has not come to. -/
  | expire (ids : List UInt32)
  /-- The mux resets the session's channel: the record goes, and the handler it had is told. -/
  | tell (reason : String) (onTerminal : Bool)
  /-- `EnqueueOutbound` past `on_outbound_drop`. -/
  | enqueue (body : Bytes)
  /-- `PumpWrite` past its `SendData`. -/
  | pump
  /-- The data handler past the frame handler. -/
  | frame
  /-- `Close`, `CloseQuiet` or `Reset` past its call of the mux. -/
  | finish (route : Route)

def Rest.ofWaiting : Waiting → Rest
  | .expire ids => .expire ids
  | rest => .mux rest

/-- A session and the mux it is bound to. -/
structure SessionMux (τ : Type) where
  mux : ReentrantMux τ
  session : ChannelSession
  stack : List Rest := []
  /-- The mux went with its link. -/
  muxGone : Bool := false
  /-- `DetachAllChannels` returned a notice for the session. -/
  noticeDue : Bool := false
  /-- Trace: what the owner of the session saw of it. -/
  trace : List SessionMark := []

namespace SessionMux

variable {τ : Type}

def push (this : SessionMux τ) (rest : Rest) : SessionMux τ :=
  { this with stack := rest :: this.stack }

def onSession (this : SessionMux τ) (change : ChannelSession → ChannelSession) : SessionMux τ :=
  { this with session := change this.session }

/-- A call of the mux; what it leaves to do goes on the stack. -/
def onMux (this : SessionMux τ) (call : ReentrantMux τ → ReentrantMux τ) : SessionMux τ :=
  if this.muxGone then this
  else
    let after := call { this.mux with stack := [] }
    { this with
      mux := { after with stack := [] }
      stack := after.stack.map Rest.ofWaiting ++ this.stack }

/-- A call of the mux that leaves to `rest` what there is to do after it. -/
def leave (this : SessionMux τ) (rest : Rest) (call : ReentrantMux τ → ReentrantMux τ) :
    SessionMux τ :=
  if this.muxGone then this.push rest
  else { this with mux := { call { this.mux with stack := [] } with stack := [] } }.push rest

/-- The record of the session's channel. -/
def channel (this : SessionMux τ) : Option ChannelRecord :=
  this.mux.mux.channelById this.session.channelId

/-- `State` of the session's channel. -/
def state (this : SessionMux τ) : ChannelState := this.mux.mux.state this.session.channelId

section Closing

/-- `closed_ = true`. -/
def shut (this : SessionMux τ) (route : Route) : SessionMux τ :=
  { this with
    session := { this.session with closed := true }
    trace := if this.session.closed then this.trace else this.trace ++ [.closing route] }

def finishClosed (this : SessionMux τ) (reason : Option String) : SessionMux τ :=
  { this with
    session := { this.session with mux := false, onFrame := false, onClosed := false }
    trace := this.trace ++
      if this.session.onClosed then reason.toList.map SessionMark.told else [] }

def failOutbound (this : SessionMux τ) : SessionMux τ :=
  (this.shut .writeFailed).finishClosed Route.writeFailed.reason

def notifyRemoteTerminal (this : SessionMux τ) (reason : String) : SessionMux τ :=
  if this.session.closed then this
  else (this.shut (.terminal reason)).finishClosed (some reason)

/-- The handler `SetTerminalHandler` was given. -/
def onTerminal (this : SessionMux τ) (reason : String) : SessionMux τ :=
  if reason = kLinkDroppedReason then
    (this.onSession fun session => { session with mux := false }).notifyRemoteTerminal reason
  else this.notifyRemoteTerminal reason

/-- `Close` and `CloseQuiet`. -/
def closeBy (this : SessionMux τ) (route : Route) : SessionMux τ :=
  if this.session.closed || !this.session.mux then this
  else if this.channel.isSome then
    (this.shut route).leave (.finish route) fun mux => mux.closeChannel this.session.channelId
  else (this.shut route).finishClosed route.reason

def close (this : SessionMux τ) : SessionMux τ := this.closeBy .close

def closeQuiet (this : SessionMux τ) : SessionMux τ := this.closeBy .closeQuiet

def reset (this : SessionMux τ) : SessionMux τ :=
  if this.session.closed || !this.session.mux then this
  else if this.channel.isSome then
    (this.shut .reset).leave (.finish .reset) fun mux => mux.resetChannel this.session.channelId
  else (this.shut .reset).finishClosed Route.reset.reason

end Closing

section Writing

/-- Whether `SendData` goes on to the transport with a payload. -/
def takes (this : SessionMux τ) (body : Bytes) : Bool :=
  this.channel.any fun channel =>
    channel.state == .opened && decide (body.length ≤ channel.policy.maxMessageBytes)

/-- `PumpWrite` once `SendData` returned with an error. -/
def writeFailed (this : SessionMux τ) : SessionMux τ :=
  (this.onSession ChannelSession.idle).failOutbound

def pumpWrite (this : SessionMux τ) : SessionMux τ :=
  match this.session.next with
  | none => this
  | some body =>
      let this := this.onSession fun session =>
        { session with writeInflight := true, outbound := session.outbound.tail }
      if this.takes body then
        this.leave .pump fun mux => mux.sendData this.session.channelId body
      else this.writeFailed

/-- `PumpWrite` once `SendData` returned. -/
def written (this : SessionMux τ) (sent : Bool) : SessionMux τ :=
  if sent then (this.onSession ChannelSession.idle).pumpWrite
  else this.writeFailed

/-- The end of `EnqueueOutbound`. -/
def accept (this : SessionMux τ) (body : Bytes) : SessionMux τ :=
  (this.onSession fun session => session.queue body).pumpWrite

def enqueueOutbound (this : SessionMux τ) (body : Bytes) : SessionMux τ :=
  if this.session.closed || !this.session.mux then this
  else if !this.session.full then this.accept body
  else if this.session.policy.drop = .never then this
  else if this.session.policy.onOutboundDrop then
    (this.onSession ChannelSession.dropOldest).push (.enqueue body)
  else (this.onSession ChannelSession.dropOldest).accept body

end Writing

section Reading

/-- The handler `SetDataHandler` was given, up to its call of the frame handler. -/
def onData (this : SessionMux τ) (payload : Bytes) : SessionMux τ :=
  if this.session.closed || !this.session.onFrame then this
  else { this with trace := this.trace ++ [SessionMark.framed payload] }.push .frame

/-- The data handler once the frame handler returned. -/
def framed (this : SessionMux τ) (keepOpen : Bool) : SessionMux τ :=
  if !this.session.closed && (!keepOpen || this.session.policy.readOnce) then this.close else this

/-- What the mux tells a channel's handlers of a frame. -/
inductive Notice where
  | data (payload : Bytes)
  | terminal (reason : String)
  /-- Its message cannot be put together: told once the channel is reset. -/
  | badMessage

/-- What `DispatchFrame` has for the handlers of the channel a frame is for. -/
def notice (now : Int) (channel : ChannelRecord) (frame : ChannelFrame) : Option Notice :=
  let read := channel.state == .opened && ChannelMux.inTurn channel frame.channelSeq
  match frame.body with
  | .openFrame .. => none
  | .openAck result =>
      if result = 0 then none
      else some (.terminal
        (if result = kOpenAckNoHandler then "open rejected: no handler" else "open rejected"))
  | .reset _ => some (.terminal "peer_reset")
  | .close _ => some (.terminal "peer_close")
  | .data payload => if read then some (.data payload) else none
  | .frag frag =>
      if !read then none
      else match (channel.reassembly.push frag now).2 with
        | .error _ => some .badMessage
        | .ok none => none
        | .ok (some payload) => some (.data payload)

/-- A frame for the session's channel that its handlers are told of. -/
def hear (this : SessionMux τ) (frame : ChannelFrame) (channel : ChannelRecord) :
    Notice → SessionMux τ
  | .data payload =>
      let this := this.onMux fun mux => mux.dispatchFrame frame
      if channel.onData then this.onData payload else this
  | .terminal reason =>
      let this := this.onMux fun mux => mux.dispatchFrame frame
      if channel.onTerminal then this.onTerminal reason else this
  | .badMessage =>
      this.leave (.tell kBadMessageReason channel.onTerminal) fun mux => mux.dispatchFrame frame

/-- The notice a frame brings to the session, and the record it comes to. -/
def noticed (this : SessionMux τ) (frame : ChannelFrame) : Option (ChannelRecord × Notice) :=
  if this.muxGone || frame.channelId != this.session.channelId then none
  else this.channel.bind fun channel =>
    (notice this.mux.mux.nowMs channel frame).map fun notice => (channel, notice)

def dispatchFrame (this : SessionMux τ) (frame : ChannelFrame) : SessionMux τ :=
  match this.noticed frame with
  | none => this.onMux fun mux => mux.dispatchFrame frame
  | some (channel, notice) => this.hear frame channel notice

/-- The loop of `ExpireIdleReaders`, up to the next reader it resets. -/
def expire (this : SessionMux τ) : List UInt32 → SessionMux τ
  | [] => this
  | id :: rest =>
      match this.mux.mux.channelById id with
      | none => this.expire rest
      | some channel =>
          let this := this.push (.expire rest)
          if id = this.session.channelId then
            this.leave (.tell kReadTimeoutReason channel.onTerminal) fun mux => mux.resetChannel id
          else this.onMux fun mux => mux.resetChannel id

def tick (this : SessionMux τ) (now : Int) : SessionMux τ :=
  let sweep := fun (mux : ChannelMux τ) => mux.mapChannels (ChannelMux.sweepChannel mux.tuning now)
  let this := this.onMux fun mux => mux.onMux sweep
  let expired :=
    (this.mux.mux.channels.entries.filter fun entry => ChannelMux.readExpired now entry.2).map (·.1)
  let start := fun (mux : ChannelMux τ) => mux.mapChannels (ChannelMux.startReadClock now)
  (this.onMux fun mux => mux.onMux start).expire expired

/-- `DetachAllChannels`, after which the mux goes with its link. -/
def detach (this : SessionMux τ) : SessionMux τ :=
  if this.muxGone then this
  else { this.onMux fun mux => mux.detachAllChannels with
    muxGone := true
    noticeDue := this.channel.any ChannelRecord.onTerminal }

/-- The notice `DetachAllChannels` returned is run once the mux is gone. -/
def linkNotice (this : SessionMux τ) : SessionMux τ :=
  if this.muxGone && this.noticeDue then { this with noticeDue := false }.onTerminal kLinkDroppedReason else this

end Reading

inductive Call where
  | enqueueOutbound (body : Bytes)
  | close
  | closeQuiet
  | reset
  | linkNotice
  /-- A call of the mux by anyone else. -/
  | mux (call : ReentrantMux.Call)

/-- A call from outside or from within a handler, or the return of the handler or send
that the call made last waits for, with what it says: of a send whether it was taken,
of a frame handler whether to keep the channel open. -/
inductive Event where
  | call (call : Call)
  | returned (said : Bool)

def call (this : SessionMux τ) : Call → SessionMux τ
  | .enqueueOutbound body => this.enqueueOutbound body
  | .close => this.close
  | .closeQuiet => this.closeQuiet
  | .reset => this.reset
  | .linkNotice => this.linkNotice
  | .mux (.inbound wire) =>
      match ChannelWire.decode wire with
      | .error _ => this
      | .ok frame => this.dispatchFrame frame
  | .mux (.tick now) => if this.muxGone then this else this.tick now
  | .mux .detachAllChannels => this.detach
  | .mux called => this.onMux fun mux => mux.call called

def finish (this : SessionMux τ) (said : Bool) : Rest → SessionMux τ
  | .mux rest => this.onMux fun mux => mux.finish said rest
  | .expire ids => if this.muxGone then this else this.expire ids
  | .tell reason onTerminal =>
      let this := this.onMux fun mux => mux.erase this.session.channelId
      if onTerminal then this.onTerminal reason else this
  | .enqueue body => this.accept body
  | .pump => this.written said
  | .frame => this.framed said
  | .finish .reset =>
      (this.onMux fun mux => mux.erase this.session.channelId).finishClosed Route.reset.reason
  | .finish route => this.finishClosed route.reason

def step (this : SessionMux τ) : Event → SessionMux τ
  | .call call => this.call call
  | .returned said =>
      match this.stack with
      | [] => this
      | rest :: stack => { this with stack := stack }.finish said rest

/-- `Bind` of a new session to a channel of a mux. -/
def bind (mux : ReentrantMux τ) (channelId : UInt32) (policy : SessionPolicy)
    (onFrame onClosed : Bool) : SessionMux τ :=
  let mux := mux.onMux fun mux => (mux.applyChannelPolicy channelId policy.toChannelPolicy).1
  let mux := mux.onMux fun mux => ReentrantMux.setDataHandler mux channelId true
  let mux := mux.onMux fun mux => ReentrantMux.setTerminalHandler mux channelId true
  { mux := { mux with stack := [] }
    session := {
      channelId := channelId
      policy := policy
      mux := true
      onFrame := onFrame
      onClosed := onClosed }
    stack := mux.stack.map Rest.ofWaiting }

end SessionMux

end Amp
