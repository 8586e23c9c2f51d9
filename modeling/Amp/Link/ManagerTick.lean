import Amp.Link.ManagerDials

set_option autoImplicit false

/- What the manager does on its timer, and all the calls it takes as one machine
(PeerLinkManager.cpp). -/
namespace Amp.PeerLinkManager

open Adp (IpEndpoint)

section Tick

variable [MultiaddrParser]

def dropPending (m : PeerLinkManager) : PeerLinkManager :=
  Run.exec (fun m (drop : LinkHandle × LinkDropReason) => m.dropLinkByHandle drop.1 drop.2)
    { m with pendingDrops := [] } m.pendingDrops

def retry (m : PeerLinkManager) (key : DialKey) : PeerLinkManager :=
  if m.waitersOf key = [] then m else m.beginDial key

def retryPending (m : PeerLinkManager) : PeerLinkManager :=
  Run.exec retry { m with pendingCandidateRetry := [] } m.pendingCandidateRetry

/-- The alias of a dial that lost its election goes to the link that won it. -/
def adopt (m : PeerLinkManager) (pending : String × DialKey) : PeerLinkManager :=
  match m.findAnyConnectedLinkForRemotePeerId pending.1 with
  | none => m
  | some winner =>
      if winner.peerKey = pending.2 then m else m.bindDialAlias winner.id pending.2

def adoptPending (m : PeerLinkManager) : PeerLinkManager :=
  Run.exec adopt { m with pendingAliasAdopt := [] } m.pendingAliasAdopt

/-- How long a handshake may take: less for a silent candidate with others after it. -/
def dialBudget (m : PeerLinkManager) (link : PeerLink) : Int :=
  let heard := !link.isCarrierBacked && decide (0 < link.association.lastAuthRxMs)
  let more := (m.book.find link.peerKey).any fun record =>
    decide (record.dialIndex + 1 < record.candidates.length)
  if !link.isCarrierBacked && !heard && more && decide (0 < m.limits.dialAttemptTimeoutMs) then
    min m.limits.dialTimeoutMs m.limits.dialAttemptTimeoutMs
  else m.limits.dialTimeoutMs

def timedOut (m : PeerLinkManager) (link : PeerLink) : Bool :=
  link.underway && decide (0 < link.handshakeStartedMs) &&
    decide (m.dialBudget link < m.around.nowMs - link.handshakeStartedMs)

def refused (link : PeerLink) : Bool :=
  link.outbound && !link.isCarrierBacked && link.association.peerClosed && link.underway

def mismatched (link : PeerLink) : Bool :=
  link.outbound && !link.isCarrierBacked && link.association.peerVersionMismatch && link.underway

/-- A call on each link of a list, as long as it is live when its turn comes. -/
def onLive (act : PeerLinkManager → PeerLink → PeerLinkManager) (m : PeerLinkManager)
    (link : PeerLink) : PeerLinkManager :=
  match m.table.findLive link.handle with
  | none => m
  | some live => act m live

def expire (m : PeerLinkManager) (link : PeerLink) : PeerLinkManager :=
  let m := m.failHandshakeTimeout link.id
  if link.outbound then m else m.scheduleDropLink link.handle .handshakeTimeout

/-- The dials that end in this Tick: refused, of another version, or out of time. -/
def failHandshakes (m : PeerLinkManager) : PeerLinkManager :=
  let late := m.table.forEach.filter m.timedOut
  let m := Run.exec (onLive fun m link => m.failRefused link.id) m (m.table.forEach.filter refused)
  let m := Run.exec (onLive fun m link => m.failVersionMismatch link.id
    link.association.peerWireVersions) m (m.table.forEach.filter mismatched)
  Run.exec (onLive expire) m late

/-- A suspect that answered is cleared. -/
def answered (link : PeerLink) : Bool :=
  !link.isCarrierBacked && link.connected && link.suspectSinceMs != 0 && !link.association.closed &&
    decide (link.suspectSinceMs < link.association.lastAuthRxMs)

def clearSuspect (link : PeerLink) : PeerLink :=
  if answered link then { link with suspectSinceMs := 0, suspectFromVerify := false } else link

/-- Why Tick evicts a link. -/
def evictReason (m : PeerLinkManager) (link : PeerLink) : Option LinkDropReason :=
  let view := link.association
  if link.isCarrierBacked then
    if link.carrierClosed && !link.underway then some .carrierClosed
    else if link.connected && link.carrierLaneFailed then some .connectionDead
    else none
  else if link.connected && link.suspectSinceMs != 0 && !view.closed &&
      decide (m.limits.networkChangeGraceMs ≤ m.around.nowMs - link.suspectSinceMs) then
    some (if link.suspectFromVerify then .unresponsive else .networkChanged)
  else if link.connected && (view.closed || !view.looksAlive) then
    some (if view.closed then .connectionClosed else .connectionDead)
  else if view.peerUnreachable then some .transportFailed
  else none

def evictions (m : PeerLinkManager) : List (LinkHandle × LinkDropReason) :=
  m.table.forEach.filterMap fun link => (m.evictReason link).map fun reason => (link.handle, reason)

def evict (m : PeerLinkManager) : PeerLinkManager :=
  let m := { m with table := { m.table with links := m.table.links.map clearSuspect } }
  Run.exec (fun m (drop : LinkHandle × LinkDropReason) => m.dropLinkByHandle drop.1 drop.2)
    m m.evictions

def tick (m : PeerLinkManager) : PeerLinkManager :=
  m.dropPending.retryPending.adoptPending.failHandshakes.evict

end Tick

/-- What a link's transport and channels do between the manager's calls. -/
structure LinkState where
  association : AssociationView := {}
  carrierLaneFailed : Bool := false
  inUse : Bool := false

/-- The calls the manager takes: from the product, its links, the resolver and the timer. -/
inductive Event where
  | ensureAssociation (key : DialKey) (cb : LinkCb)
  | abortInflightDial (key : DialKey)
  | requestDropLink (key : String)
  | closeAllLinks
  | establishNested (key : DialKey) (via : Option LinkId) (initiator : Bool) (cb : LinkCb)
  | inboundCarrierChannel (via : LinkId) (channelId : Nat)
  | inboundConnection (assoc : String)
  | handshake (id : LinkId) (result : HandshakeResult)
  | carrierClosed (id : LinkId) (reason : String)
  | carrierFrameError (id : LinkId) (message : String)
  | hostResolved (key : DialKey) (multiaddr : String) (result : Except String IpEndpoint)
  | registerEndpoint (key : DialKey) (multiaddr : String)
  | registerEndpoints (key : DialKey) (multiaddrs : List String)
  | unregisterEndpoint (key : DialKey)
  | ingestRemoteAddrs (peerId : String) (addrs : List String)
  | clearDialBackoff (key : DialKey)
  | networkChanged
  | verifyLink (key : DialKey) (heardWithinMs : Int)
  | tick
  | setHostResolver (installed : Bool)
  | enableNestedCarrierAccept (enable : Bool)
  /-- A link's transport or channels moved on. -/
  | linkState (id : LinkId) (state : LinkState)
  | surroundings (around : Surroundings)
  /-- The hash maps walk in another order. -/
  | rehash (links : HashOrder PeerLink) (endpoints : HashOrder (DialKey × EndpointRecord))

def step [MultiaddrParser] (m : PeerLinkManager) : Event → PeerLinkManager
  | .ensureAssociation key cb => m.ensureAssociation key cb
  | .abortInflightDial key => m.abortInflightDial key
  | .requestDropLink key => m.requestDropLink key
  | .closeAllLinks => m.closeAllLinks
  | .establishNested key via initiator cb => m.establishNestedOverCarrier key via initiator cb
  | .inboundCarrierChannel via channelId => m.handleInboundCarrierChannel via channelId
  | .inboundConnection assoc => m.onInboundConnection assoc
  | .handshake id result => m.onHandshakeComplete id result
  | .carrierClosed id reason => m.onCarrierClosed id reason
  | .carrierFrameError id message => m.failAssociation id ⟨.carrierClosed, message⟩
  | .hostResolved key multiaddr result => m.onHostResolved key multiaddr result
  | .registerEndpoint key multiaddr =>
      { m with book := (m.book.registerEndpoint key multiaddr m.around.steadyMs).1 }
  | .registerEndpoints key multiaddrs =>
      { m with book := (m.book.registerEndpoints key multiaddrs m.around.steadyMs).1 }
  | .unregisterEndpoint key => { m with book := m.book.unregisterEndpoint key }
  | .ingestRemoteAddrs peerId addrs =>
      { m with book := m.book.ingestRemoteAddrs peerId addrs m.around.steadyMs }
  | .clearDialBackoff key => { m with book := m.book.clearBackoff key }
  | .networkChanged => m.onNetworkChanged
  | .verifyLink key heardWithinMs => m.verifyLink key heardWithinMs
  | .tick => m.tick
  | .setHostResolver installed => { m with hostResolver := installed }
  | .enableNestedCarrierAccept enable => { m with nestedCarrierAccept := enable }
  | .linkState id state => m.modifyLink id fun link =>
      { link with
        association := state.association
        carrierLaneFailed := state.carrierLaneFailed
        inUse := state.inUse }
  | .surroundings around => { m with around := around }
  | .rehash links endpoints =>
      { m with table := { m.table with order := links }, book := { m.book with order := endpoints } }

def create (localPeerId : String) (limits : LinkLimits) : PeerLinkManager where
  localPeerId := localPeerId
  limits := limits

end Amp.PeerLinkManager
