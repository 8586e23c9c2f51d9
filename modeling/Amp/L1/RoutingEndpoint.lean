import Amp.L1.ForeignVersion

set_option autoImplicit false

/- An endpoint with its connections: what comes off the socket goes to the connection of the
association it names, or opens one (Endpoint.cpp). -/
namespace Amp.Adp

open WireCodec

namespace Connection.Event

variable {π : Type}

/-- A call of the connection's owner; datagrams, ticks and the clock come from its endpoint. -/
def fromOwner : Event π → Bool
  | .tick _ | .datagram _ _ _ | .versionNegotiation _ | .environment _ => false
  | _ => true

/-- What an accept handler calls on the connection it is given. -/
def fromHandler : Event π → Bool
  | .send _ _ | .onMessage _ | .onPathChange _ | .close | .abandon => true
  | _ => false

/-- The datagram a call gives the connection. -/
def given : Event π → Option Bytes
  | .datagram _ bytes _ => some bytes
  | _ => none

end Connection.Event

namespace Connection

variable {π : Type} [PacketProtection π] [Hmac]

/-- `HandleDatagram` calls `NoteRejected` of its endpoint. -/
def rejects (c : Connection π) (datagram : Bytes) (now : Int) : Bool :=
  match peekType datagram with
  | .error _ => true
  | .ok type =>
      if type.isSealed then
        match c.openDatagram datagram now with
        | .error _ => true
        | .ok _ => false
      else if !HmacBinder.verify c.binderKey datagram then
        match c.preUpgradeKey with
        | some key => !(HmacBinder.verify key datagram && (decode datagram).isOk)
        | none => true
      else !(decode datagram).isOk

end Connection

/-- One datagram of `RecvFrom`, and what the accept handler calls if it opens an association. -/
structure Arrival (π : Type) where
  source : IpEndpoint
  bytes : Bytes
  handling : List {event : Connection.Event π // event.fromHandler = true} := []

/-- Trace of a connection: how it was made, and every call it took. -/
structure ConnectionLog (π : Type) where
  port : EndpointPort
  params : OpenParams
  /-- Opened by a datagram. -/
  accepted : Bool
  events : List (Connection.Event π) := []

namespace ConnectionLog

variable {π : Type}

def push (log : ConnectionLog π) (event : Connection.Event π) : ConnectionLog π :=
  { log with events := log.events ++ [event] }

/-- A connection that took the same calls, on its own. -/
def replay [PacketProtection π] [Hmac] (log : ConnectionLog π) : Connection π :=
  Run.exec Connection.step (.create log.port log.params) log.events

/-- The datagrams it was given. -/
def heard (log : ConnectionLog π) : List Bytes := log.events.filterMap Connection.Event.given

/-- A call with a datagram that the connection does not reject. -/
def takesUp [PacketProtection π] [Hmac] (c : Connection π) : Connection.Event π → Bool
  | .datagram _ bytes now => !c.rejects bytes now
  | _ => false

/-- How many datagrams it took up, call after call. -/
def takenUp [PacketProtection π] [Hmac] (c : Connection π) : List (Connection.Event π) → Nat
  | [] => 0
  | event :: rest => (takesUp c event).toNat + takenUp (c.step event) rest

def taken [PacketProtection π] [Hmac] (log : ConnectionLog π) : Nat :=
  takenUp (.create log.port log.params) log.events

end ConnectionLog

structure RoutingEndpoint (π : Type) extends Endpoint π where
  sendRaw : IpEndpoint → Bytes → SendOutcome
  acceptKey : Option PeerKey := none
  maxAcceptedConns : Nat := 4096
  tuning : AdpTuning := {}
  rxDatagrams : Nat := 0
  rxBytes : Nat := 0
  rxRejected : Nat := 0
  /-- Trace: what became of each connection, in the order they were made. -/
  logs : List (ConnectionLog π) := []
  /-- Trace: the accept keys set so far. -/
  acceptKeys : List PeerKey := []

namespace RoutingEndpoint

inductive Event (π : Type) where
  | elapse (ms : Nat)
  /-- The socket answers otherwise from now on. -/
  | socket (sendRaw : IpEndpoint → Bytes → SendOutcome)
  | setAcceptKey (key : PeerKey)
  | setAcceptEnabled (on : Bool)
  | setTuning (tuning : AdpTuning)
  | openConnection (params : OpenParams)
  /-- A call on a connection, by its number. -/
  | call (number : Nat) (made : {event : Connection.Event π // event.fromOwner = true})
  /-- `Pump`, with what waits at the socket. -/
  | pump (budget : Nat) (waiting : List (Arrival π))
  | tick

variable {π : Type}

def port (e : RoutingEndpoint π) : EndpointPort := ⟨e.clockMs, e.sendRaw⟩

/-- `conns_.size()`. -/
def size (e : RoutingEndpoint π) : Nat := e.conns.countP fun c => c.registered

/-- `Find`: the number of the connection that has the association. -/
def find (e : RoutingEndpoint π) (id : AssocId) : Option Nat :=
  e.conns.findIdx? fun c => c.registered && c.id == id

def openConnection (e : RoutingEndpoint π) (params : OpenParams) (accepted : Bool) :
    RoutingEndpoint π × Except String Nat :=
  match e.find params.id with
  | some _ => (e, .error "adp: assoc already open")
  | none => ({ e with
      conns := e.conns ++ [.create e.port params]
      logs := e.logs ++ [⟨e.port, params, accepted, []⟩] }, .ok e.conns.length)

/-- The parameters of an association that the peer opens. -/
def acceptParams (e : RoutingEndpoint π) (id : AssocId) (key : PeerKey) (peer : IpEndpoint) :
    OpenParams :=
  OpenParams.applyTuning
    { key := key, id := id, peer := peer, reduceRtxUntilAuthenticated := true } e.tuning

def acceptOrCreate (e : RoutingEndpoint π) (id : AssocId) (key : PeerKey) (peer : IpEndpoint) :
    RoutingEndpoint π × Except String Nat :=
  match e.find id with
  | some number => (e, .ok number)
  | none => e.openConnection (e.acceptParams id key peer) true

def noteRejected (e : RoutingEndpoint π) : RoutingEndpoint π :=
  { e with rxRejected := e.rxRejected + 1 }

/-- The check of the packet's time before it opens an association. -/
def withinSkew (e : RoutingEndpoint π) (pkt : WirePacket) : Bool :=
  let delta := serialDiff (Connection.truncTs e.clockMs) pkt.timestampMs
  decide (delta ≤ e.tuning.skewMs ∧ -e.tuning.skewMs ≤ delta)

variable [PacketProtection π] [Hmac]

/-- A connection takes a call. -/
def take (e : RoutingEndpoint π) (number : Nat) (event : Connection.Event π) : RoutingEndpoint π :=
  { e with
    conns := e.conns.modify number fun c => c.step event
    logs := e.logs.modify number fun log => log.push event }

def takeAll (e : RoutingEndpoint π) (numbers : List Nat) (event : Connection.Event π) :
    RoutingEndpoint π :=
  numbers.foldl (fun e number => e.take number event) e

/-- Every connection reads the clock and the socket of its endpoint. -/
def refresh (e : RoutingEndpoint π) : RoutingEndpoint π :=
  e.takeAll (List.range e.conns.length) (.environment e.port)

def handleForeignVersion (e : RoutingEndpoint π) (source : IpEndpoint) (datagram : Bytes) :
    RoutingEndpoint π :=
  let e := e.noteRejected
  if Endpoint.isNegotiation datagram then
    match decodeVersionNegotiation datagram with
    | .error _ => e
    | .ok negotiation =>
        if UInt8.ofNat kWireVersion ∈ negotiation.versions then e
        else
          match e.find (peekAssoc negotiation.echo) with
          | none => e
          | some number => e.take number (.versionNegotiation negotiation.versions)
  else if e.acceptEnabled then
    { e with toEndpoint := e.toEndpoint.replyVersionNegotiation source datagram }
  else e

/-- The accept handler is called, then the datagram is handled. -/
def welcome (e : RoutingEndpoint π) (number : Nat) (arrival : Arrival π) (pkt : WirePacket) :
    RoutingEndpoint π :=
  let e := arrival.handling.foldl (fun e call => e.take number call.val) e
  { e with
    conns := e.conns.modify number fun c => c.handleAuthenticated pkt arrival.source e.clockMs
    logs := e.logs.modify number fun log =>
      log.push (.datagram arrival.source arrival.bytes e.clockMs) }

/-- The end of `HandleDatagram`: no connection has the association. -/
def admitStranger (e : RoutingEndpoint π) (arrival : Arrival π) (key : PeerKey) (pkt : WirePacket) :
    RoutingEndpoint π :=
  if e.maxAcceptedConns ≤ e.size then e
  else if !e.withinSkew pkt then e
  else
    match e.acceptOrCreate (peekAssoc arrival.bytes) key arrival.source with
    | (e, .error _) => e
    | (e, .ok number) => e.welcome number arrival pkt

def handleStranger (e : RoutingEndpoint π) (arrival : Arrival π) : RoutingEndpoint π :=
  match peekType arrival.bytes, e.acceptKey with
  | .ok type, some key =>
      if !e.acceptEnabled || type.isSealed then e.noteRejected
      else if !HmacBinder.verify key arrival.bytes then e.noteRejected
      else
        match decode arrival.bytes with
        | .error _ => e.noteRejected
        | .ok pkt => e.admitStranger arrival key pkt
  | _, _ => e.noteRejected

def handleDatagram (e : RoutingEndpoint π) (arrival : Arrival π) : RoutingEndpoint π :=
  match Endpoint.gate arrival.bytes with
  | .foreignVersion => e.handleForeignVersion arrival.source arrival.bytes
  | .rejected => e.noteRejected
  | .passed =>
      match e.find (peekAssoc arrival.bytes) with
      | some number =>
          let rejects := e.conns[number]?.any fun c => c.rejects arrival.bytes e.clockMs
          let heard := if rejects then e.noteRejected else e
          heard.take number (.datagram arrival.source arrival.bytes e.clockMs)
      | none => e.handleStranger arrival

/-- One turn of the loop of `Pump`. -/
def receive (e : RoutingEndpoint π) (arrival : Arrival π) : RoutingEndpoint π :=
  { e with
    rxDatagrams := e.rxDatagrams + 1
    rxBytes := e.rxBytes + arrival.bytes.length }.handleDatagram arrival

def pump (e : RoutingEndpoint π) (budget : Nat) (waiting : List (Arrival π)) : RoutingEndpoint π :=
  (waiting.take budget).foldl receive e

/-- The numbers of the connections that are registered. -/
def snap (e : RoutingEndpoint π) : List Nat :=
  (List.range e.conns.length).filter fun number => e.conns[number]?.any fun c => c.registered

def tick (e : RoutingEndpoint π) : RoutingEndpoint π := e.takeAll e.snap (.tick e.clockMs)

def step (e : RoutingEndpoint π) : Event π → RoutingEndpoint π
  | .elapse ms => { e with clockMs := e.clockMs + ms }.refresh
  | .socket sendRaw => { e with sendRaw := sendRaw }.refresh
  | .setAcceptKey key => { e with acceptKey := some key, acceptKeys := e.acceptKeys ++ [key] }
  | .setAcceptEnabled on => { e with acceptEnabled := on }
  | .setTuning tuning => { e with tuning := tuning }
  | .openConnection params => (e.openConnection params false).1
  | .call number made => e.take number made.val
  | .pump budget waiting => e.pump budget waiting
  | .tick => e.tick

/-- An endpoint that has heard nothing. -/
def create (clockMs : Int) (sendRaw : IpEndpoint → Bytes → SendOutcome) (maxAcceptedConns : Nat) :
    RoutingEndpoint π where
  clockMs := clockMs
  sendRaw := sendRaw
  maxAcceptedConns := maxAcceptedConns

end RoutingEndpoint

end Amp.Adp
