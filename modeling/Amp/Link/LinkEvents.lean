import Amp.Link.LinkVerifier

set_option autoImplicit false

/- Link events and the calls that emit them (LinkEvents.h, PeerLinkManager.cpp). A drop
begins, lets the channels of the link's mux know, whose owners may call the manager, and ends
with its event. -/
namespace Amp

open Adp (IpEndpoint)

inductive LinkEventKind where
  | connected
  | dropped
  | pathChanged
  | dialFailed
  deriving DecidableEq, Repr

inductive LinkPathKind where
  | direct
  | punched
  | carrier
  deriving DecidableEq, Repr

structure LinkEvent where
  kind : LinkEventKind := .connected
  handle : LinkHandle := {}
  dialKey : DialKey := ""
  peerId : String := ""
  transport : TransportClass := .adp
  pathKind : LinkPathKind := .direct
  outbound : Bool := false
  remote : Option IpEndpoint := none
  previousRemote : Option IpEndpoint := none
  reason : LinkDropReason := .unknown
  wasConnected : Bool := false
  lastRxAgeMs : Int := -1
  keepaliveIntervalMs : Nat := 0
  deriving DecidableEq

/-- What an event reads of a link's connection, beside its association. -/
structure ConnectionView where
  peerEndpoint : IpEndpoint := {}
  localKeepaliveIntervalMs : Nat := 0
  peerKeepaliveIntervalMs : Nat := 0

structure LinkReporter where
  manager : PeerLinkManager
  /-- `ConnectionOrNull`. -/
  connectionOf : LinkId → Option ConnectionView := fun _ => some {}
  connectedLinkIds : List LinkId := []
  /-- The links whose connection reports its path. -/
  watched : List LinkHandle := []
  punched : List LinkId := []
  /-- The links whose handshake is not over. -/
  handshaking : List LinkId := []
  /-- The links in `OnLinkEstablished`, not yet adopted or refused. -/
  adopting : List LinkId := []
  /-- Trace: the links that `OnLinkEstablished` refused. -/
  refused : List LinkId := []
  /-- The events of the drops under way, the innermost first. -/
  dropping : List LinkEvent := []
  /-- What was posted to the listeners. -/
  events : List LinkEvent := []

inductive LinkHappening where
  | insertLink (link : PeerLink)
  | handshaken (handle : LinkHandle)
  /-- `AdoptInboundOrDropDuplicate` has answered. -/
  | adopted (handle : LinkHandle) (granted : Bool)
  | pathChange (handle : LinkHandle) (previous now : IpEndpoint)
  /-- `DropLinkNow` of a live link, by whatever route, up to its channel notices. -/
  | beginDrop (handle : LinkHandle) (reason : LinkDropReason)
  /-- The end of the innermost drop. -/
  | endDrop
  | dialFailed (handle : LinkHandle) (key : DialKey) (reason : LinkDropReason)
  | changeLink (id : LinkId) (now : PeerLink)
  /-- Anything else of the manager but its links. -/
  | other (now : PeerLinkManager)
  | surroundings (around : Surroundings) (connectionOf : LinkId → Option ConnectionView)

namespace LinkReporter

/-- `conn && !link.IsCarrierBacked()`. -/
def connection (this : LinkReporter) (link : PeerLink) : Option ConnectionView :=
  if link.isCarrierBacked then none else this.connectionOf link.id

def pathKindOf (this : LinkReporter) (link : PeerLink) : LinkPathKind :=
  if link.isCarrierBacked then .carrier
  else if link.id ∈ this.punched then .punched
  else .direct

def makeLinkEvent (this : LinkReporter) (kind : LinkEventKind) (link : PeerLink) : LinkEvent where
  kind := kind
  handle := link.handle
  dialKey := link.peerKey
  peerId := link.remotePeerId
  transport := link.transport
  pathKind := this.pathKindOf link
  outbound := link.outbound
  remote := (this.connection link).map ConnectionView.peerEndpoint

def emitLinkEvent (this : LinkReporter) (event : LinkEvent) : LinkReporter :=
  { this with events := this.events ++ [event] }

def onManager (this : LinkReporter) (change : PeerLinkManager → PeerLinkManager) : LinkReporter :=
  { this with manager := change this.manager }

def hasBurstDialFor (this : LinkReporter) (peerId : String) : Bool :=
  peerId != "" && this.manager.book.records.any fun entry =>
    isEphemeralDialKey entry.1 && entry.2.peerId == peerId

def wasPunched (this : LinkReporter) (link : PeerLink) : Bool :=
  !link.isCarrierBacked &&
    (isEphemeralDialKey link.peerKey || !link.outbound && this.hasBurstDialFor link.remotePeerId)

def insertLink (this : LinkReporter) (link : PeerLink) : LinkReporter :=
  { this.onManager fun m => m.insertLink link with
    handshaking := (this.manager.table.nextId + 1) :: this.handshaking }

/-- The handshake's end and the start of `OnLinkEstablished`. -/
def handshaken (this : LinkReporter) (handle : LinkHandle) : LinkReporter :=
  match this.manager.table.findLive handle with
  | none => this
  | some link =>
      if link.id ∈ this.handshaking then
        { this.onManager fun m => m.modifyLink link.id fun link => { link with phase := .connected } with
          handshaking := this.handshaking.filter (· != link.id)
          adopting := link.id :: this.adopting
          punched := if this.wasPunched link then link.id :: this.punched else this.punched }
      else this

def watchPathChanges (this : LinkReporter) (link : PeerLink) : LinkReporter :=
  if (this.connection link).isSome then { this with watched := link.handle :: this.watched } else this

/-- The rest of `OnLinkEstablished`. -/
def adopted (this : LinkReporter) (handle : LinkHandle) (granted : Bool) : LinkReporter :=
  match this.manager.table.findLive handle with
  | none => this
  | some link =>
      if link.id ∈ this.adopting then
        let this := { this with adopting := this.adopting.filter (· != link.id) }
        if granted then
          let this := this.onManager fun m => m.refreshPresence handle
          let this := { this with connectedLinkIds := link.id :: this.connectedLinkIds }
          let this := this.watchPathChanges link
          this.emitLinkEvent (this.makeLinkEvent .connected link)
        else
          { this.onManager fun m => m.modifyLink link.id fun link => { link with phase := .backoff } with
            refused := link.id :: this.refused }
      else this

/-- The connection's path hook. -/
def pathChange (this : LinkReporter) (handle : LinkHandle) (previous now : IpEndpoint) :
    LinkReporter :=
  if handle ∈ this.watched then
    match this.manager.table.findLive handle with
    | none => this
    | some live => this.emitLinkEvent { this.makeLinkEvent .pathChanged live with
        previousRemote := some previous
        remote := some now }
  else this

/-- The `Dropped` event, made before anything of the link is gone. -/
def droppedEvent (this : LinkReporter) (link : PeerLink) (reason : LinkDropReason) : LinkEvent :=
  let event := { this.makeLinkEvent .dropped link with
    reason := reason
    wasConnected := decide (link.id ∈ this.connectedLinkIds) }
  match this.connection link with
  | none => event
  | some connection =>
      let rx := link.association.lastAuthRxMs
      { event with
        lastRxAgeMs := if 0 < rx then this.manager.around.nowMs - rx else event.lastRxAgeMs
        keepaliveIntervalMs :=
          max connection.localKeepaliveIntervalMs connection.peerKeepaliveIntervalMs }

def beginDrop (this : LinkReporter) (handle : LinkHandle) (reason : LinkDropReason) :
    LinkReporter :=
  match this.manager.table.findLive handle with
  | none => this
  | some link =>
      { this.onManager fun m => m.dropLinkNow link reason with
        connectedLinkIds := this.connectedLinkIds.filter (· != link.id)
        watched := if (this.connection link).isSome then this.watched.filter (· != handle)
          else this.watched
        handshaking := this.handshaking.filter (· != link.id)
        adopting := this.adopting.filter (· != link.id)
        dropping := this.droppedEvent link reason :: this.dropping }

def endDrop (this : LinkReporter) : LinkReporter :=
  match this.dropping with
  | [] => this
  | event :: rest => { this with dropping := rest }.emitLinkEvent event

/-- The event of `FinishDial` when every candidate was missed. -/
def dialFailed (this : LinkReporter) (handle : LinkHandle) (key : DialKey)
    (reason : LinkDropReason) : LinkReporter :=
  match this.manager.table.findLive handle with
  | none => this
  | some link => this.emitLinkEvent
      { kind := .dialFailed
        handle := link.handle
        dialKey := key
        peerId := ((this.manager.book.find key).map EndpointRecord.peerId).getD ""
        outbound := true
        reason := reason }

def step (this : LinkReporter) : LinkHappening → LinkReporter
  | .insertLink link => this.insertLink link
  | .handshaken handle => this.handshaken handle
  | .adopted handle granted => this.adopted handle granted
  | .pathChange handle previous now => this.pathChange handle previous now
  | .beginDrop handle reason => this.beginDrop handle reason
  | .endDrop => this.endDrop
  | .dialFailed handle key reason => this.dialFailed handle key reason
  | .changeLink id now => this.onManager fun m => m.modifyLink id fun link =>
      { now with
        id := link.id
        generation := link.generation
        isCarrierBacked := link.isCarrierBacked }
  | .other now => this.onManager fun m => m.otherwise now
  | .surroundings around connectionOf =>
      { this.onManager fun m => { m with around := around } with connectionOf := connectionOf }

def create (localPeerId : String) (limits : LinkLimits) : LinkReporter where
  manager := PeerLinkManager.create localPeerId limits

end LinkReporter

end Amp
