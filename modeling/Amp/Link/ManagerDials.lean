import Amp.Link.PeerLinkManager

set_option autoImplicit false

/- How links come to be: dialed for a key, accepted, or nested over a carrier
(PeerLinkManager.cpp). -/
namespace Amp.PeerLinkManager

open Adp (Bytes IpEndpoint)

section Dials

variable [MultiaddrParser]

/-- `Endpoint::Open`, tried again once after an id clash. -/
def openAssociation (m : PeerLinkManager) (key : DialKey) (endpoint : IpEndpoint) :
    Except OpenFailure Unit :=
  match m.around.opens key m.table.nextId endpoint with
  | .ok () => .ok ()
  | .error failure =>
      if failure.alreadyOpen then m.around.reopens key m.table.nextId endpoint else .error failure

/-- `AssignLinkIdentity` and `Insert`, with the handshake about to start. -/
def insertLink (m : PeerLinkManager) (link : PeerLink) : PeerLinkManager :=
  let link := { link with
    id := m.table.nextId + 1
    generation := m.table.nextGeneration + 1
    phase := .handshaking
    handshakeStartedMs := m.around.nowMs }
  { m with table := { m.table with
      nextId := m.table.nextId + 1
      nextGeneration := m.table.nextGeneration + 1 }.insert link }

/-- `StartOutboundHandshake`, which fails at once when nothing can be sent. -/
def startOutbound (m : PeerLinkManager) (id : LinkId) : PeerLinkManager :=
  match m.around.starts id with
  | .ok () => m
  | .error message => m.failAssociation id ⟨.handshakeFailed, message⟩

def dialLink (m : PeerLinkManager) (key : DialKey) (peerId : String) : PeerLinkManager :=
  let m := { m with book := m.book.incConcurrentDials }
  (m.insertLink {
    id := 0
    generation := 0
    peerKey := key
    remotePeerId := peerId
    outbound := true
    isCarrierBacked := false
    establishCb := some (.dial key) }).startOutbound (m.table.nextId + 1)

/-- The end of `FailCandidateLocked`: no candidate is left. -/
def giveUpCandidates (m : PeerLinkManager) (key : DialKey) (message : String) : PeerLinkManager :=
  let book := m.book.resetDialIndex key m.around.steadyMs
  { m with book := book.armBackoff key m.around.steadyMs m.around.backoffMs }.failWaiters
    key .transportFailed message

/-- `BeginOutboundDialLocked`. Without a resolver a hostname candidate fails at once
and the next one is tried; `turns` bounds how often. -/
def beginOutboundDial : Nat → PeerLinkManager → DialKey → PeerLinkManager
  | turns, m, key =>
      if (m.table.findByDialKey key).any PeerLink.connected then
        { m with book := m.book.resetDialIndex key m.around.steadyMs }.finishWaiters key (.ok ())
      else
        match m.book.find key with
        | none => m.failWaiters key .endpointNotRegistered "amp link: peer endpoint not registered"
        | some record =>
            if m.limits.maxConcurrentDials ≤ m.book.concurrentDials then
              m.failWaiters key .tooManyConcurrentDials "amp link: too many concurrent dials"
            else if m.atLinkCapacity then
              m.failWaiters key .maxLinksReached "amp link: max links reached"
            else if m.book.needsResolution key m.around.steadyMs then
              if m.hostResolver then
                { m with resolving := if key ∈ m.resolving then m.resolving else m.resolving ++ [key] }
              else
                let message := "amp link: no host resolver for " ++ record.hostname
                match turns, m.book.advanceDialCandidate key m.around.steadyMs with
                | turns + 1, (book, true) => beginOutboundDial turns { m with book := book } key
                | _, _ => m.giveUpCandidates key message
            else
              match m.openAssociation key record.endpoint with
              | .error failure => m.failWaiters key .transportFailed failure.message
              | .ok () => m.dialLink key record.peerId

/-- Turns enough for every candidate of the key. -/
def dialTurns (m : PeerLinkManager) (key : DialKey) : Nat :=
  (m.book.find key).elim 0 fun record => record.candidates.length

def beginDial (m : PeerLinkManager) (key : DialKey) : PeerLinkManager :=
  beginOutboundDial (m.dialTurns key) m key

/-- `FailCandidateLocked`, for a hostname that did not resolve. -/
def failCandidate (m : PeerLinkManager) (key : DialKey) (message : String) : PeerLinkManager :=
  match m.book.advanceDialCandidate key m.around.steadyMs with
  | (book, true) => { m with book := book }.beginDial key
  | (_, false) => m.giveUpCandidates key message

def onHostResolved (m : PeerLinkManager) (key : DialKey) (multiaddr : String)
    (result : Except String IpEndpoint) : PeerLinkManager :=
  let m := { m with
    resolving := m.resolving.filter (· != key)
    book := match result with
      | .ok endpoint => m.book.setResolution multiaddr endpoint m.around.steadyMs
      | .error _ => m.book }
  match m.book.find key, m.waitersOf key with
  | none, _ => m
  | some _, [] => m
  | some record, _ :: _ =>
      if record.multiaddr ≠ multiaddr then m.beginDial key
      else
        match result with
        | .error message => m.failCandidate key message
        | .ok _ => m.beginDial key

/-- The stale link of a key that `EnsureAssociation` drops before it dials. -/
def dropStale (m : PeerLinkManager) (key : DialKey) : PeerLinkManager :=
  match m.findAdpLinkForKey key with
  | none => m
  | some existing => if existing.connected then m else m.dropLinkNow existing .displaced

/-- The end of `EnsureAssociation`: a dial of its own, unless something forbids it. -/
def startAssociation (m : PeerLinkManager) (key : DialKey) (cb : LinkCb) : PeerLinkManager :=
  if !m.book.contains key then
    m.complete key cb (.error ⟨.endpointNotRegistered, "amp link: peer endpoint not registered"⟩)
  else if m.book.inBackoff key m.around.steadyMs then
    m.complete key cb (.error ⟨.dialInBackoff, "amp link: dial in backoff"⟩)
  else
    let m := { m with book := m.book.eraseExpiredBackoff key m.around.steadyMs }
    if m.limits.maxConcurrentDials ≤ m.book.concurrentDials then
      m.complete key cb (.error ⟨.tooManyConcurrentDials, "amp link: too many concurrent dials"⟩)
    else if m.atLinkCapacity then
      m.complete key cb (.error ⟨.maxLinksReached, "amp link: max links reached"⟩)
    else
      let m := { m with book := m.book.resetDialIndex key m.around.steadyMs }
      (m.joinWaiters key cb).beginDial key

/-- The Connected ADP link to the peer a key's record names. -/
def connectedAdp (m : PeerLinkManager) (key : DialKey) : Option PeerLink :=
  ((m.book.find key).bind fun record => m.table.findByPeerId record.peerId).filter fun link =>
    link.connected && !link.isCarrierBacked

def ensureAssociation (m : PeerLinkManager) (key : DialKey) (cb : LinkCb) : PeerLinkManager :=
  if (m.table.findByDialKey key).any PeerLink.connected then m.complete key cb (.ok ())
  else
    match m.connectedAdp key with
    | some existing =>
        (if existing.peerKey = key then m else m.bindDialAlias existing.id key).complete key cb (.ok ())
    | none =>
        if key ∈ m.resolving then m.joinWaiters key cb
        else if (m.findAdpLinkForKey key).any PeerLink.underway then m.joinWaiters key cb
        else (m.dropStale key).startAssociation key cb

/-- `AbortInflightDial`, once the key's waiters are taken out. -/
def abortLink (m : PeerLinkManager) (key : DialKey) : PeerLinkManager :=
  match m.findAdpLinkForKey key with
  | none => m
  | some link =>
      if link.outbound && link.underway then
        { m with suppressDialBackoff := m.suppressDialBackoff ++ [key] }.failHandshakeTimeout link.id
      else if link.connected then m
      else m.scheduleDropLink link.handle .dialAborted

/-- `AbortInflightDial`. Its waiters are answered last in the source, but `FinishDial`
finds none of them left. -/
def abortInflightDial (m : PeerLinkManager) (key : DialKey) : PeerLinkManager :=
  let m := { m with
    book := m.book.clearBackoff key
    pendingCandidateRetry := m.pendingCandidateRetry.filter (· != key)
    suppressDialBackoff := m.suppressDialBackoff.filter (· != key) }
  (m.failWaiters key .generic "amp link: dial aborted").abortLink key

end Dials

section Arrivals

variable [MultiaddrParser]

def kMinIdleForEvictionMs : Int := 1000

/-- An inbound link that may be evicted for a newcomer. -/
def idleInbound (m : PeerLinkManager) (link : PeerLink) : Bool :=
  !link.outbound && !link.isCarrierBacked && link.connected && !link.association.closed &&
    !link.inUse && decide (kMinIdleForEvictionMs ≤ m.around.nowMs - link.association.lastAuthRxMs)

/-- The first of the links silent longest. -/
def oldest : List PeerLink → Option PeerLink
  | [] => none
  | link :: rest =>
      match oldest rest with
      | none => some link
      | some other =>
          if other.association.lastAuthRxMs < link.association.lastAuthRxMs then some other
          else some link

def evictIdleInbound (m : PeerLinkManager) : PeerLinkManager × Bool :=
  match oldest (m.table.forEach.filter m.idleInbound) with
  | none => (m, false)
  | some link =>
      let closed := fun (link : PeerLink) =>
        { link with association := { link.association with closed := true } }
      ((m.modifyLink link.id closed).scheduleDropLink link.handle .idleEvicted, true)

/-- Room for one more accepted link, made by an eviction where the table is full. -/
def makeRoom (m : PeerLinkManager) : PeerLinkManager × Bool :=
  if m.atLinkCapacity then m.evictIdleInbound else (m, true)

def pendingInbound (m : PeerLinkManager) : Nat :=
  m.table.links.countP fun link => !link.outbound && link.phase == .handshaking

/-- `OnInboundConnection`; `assoc` is the association id in hex. -/
def onInboundConnection (m : PeerLinkManager) (assoc : String) : PeerLinkManager :=
  match m.makeRoom with
  | (m, false) => m
  | (m, true) =>
      let key := "inbound:" ++ assoc
      if m.limits.maxPendingInbound ≤ m.pendingInbound then m
      else if m.table.containsDialKey key then m
      else m.insertLink {
        id := 0
        generation := 0
        peerKey := key
        remotePeerId := ""
        outbound := false
        isCarrierBacked := false
        establishCb := some .inbound }

/-- A link over a carrier, and its handshake begun. -/
def nestLink (m : PeerLinkManager) (key : DialKey) (via : Option LinkId) (initiator : Bool)
    (cb : LinkCb) : PeerLinkManager :=
  let id := m.table.nextId + 1
  let m := (m.joinNestedWaiters id cb).insertLink {
    id := 0
    generation := 0
    peerKey := key
    remotePeerId := key
    outbound := initiator
    isCarrierBacked := true
    carrierVia := via
    establishCb := some (.nested key) }
  if initiator then m.startOutbound id else m

def answerNested (m : PeerLinkManager) (cb : LinkCb) (result : LinkRoe) : PeerLinkManager :=
  match cb with
  | none => m
  | some call => { m with nestedAnswers := m.nestedAnswers ++ [(call, result)] }

/-- `EstablishNestedOverCarrier`; the carrier is a channel of the link `via`. -/
def establishNestedOverCarrier (m : PeerLinkManager) (key : DialKey) (via : Option LinkId)
    (initiator : Bool) (cb : LinkCb) : PeerLinkManager :=
  if key = "" then
    m.answerNested cb (.error ⟨.nestedCarrierIncomplete, "amp link: nested carrier incomplete"⟩)
  else
    match m.findNestedLinkForKey key with
    | some existing =>
        if existing.connected then m.answerNested cb (.ok ())
        else if existing.phase = .handshaking then m.joinNestedWaiters existing.id cb
        else if m.atLinkCapacity then
          m.answerNested cb (.error ⟨.maxLinksReached, "amp link: max links reached"⟩)
        else m.nestLink key via initiator cb
    | none =>
        if m.atLinkCapacity then
          m.answerNested cb (.error ⟨.maxLinksReached, "amp link: max links reached"⟩)
        else m.nestLink key via initiator cb

/-- `HandleInboundCarrierChannel`, under a key made up until the far peer is known. -/
def handleInboundCarrierChannel (m : PeerLinkManager) (via : LinkId) (channelId : Nat) :
    PeerLinkManager :=
  match m.table.findById via with
  | none => m
  | some link =>
      if !m.nestedCarrierAccept then m
      else
        let peer := if link.remotePeerId = "" then link.peerKey else link.remotePeerId
        let provisional := "carrier:" ++ peer ++ ":" ++ toString channelId
        let provisional := if m.table.containsDialKey provisional then
          provisional ++ ":" ++ toString m.table.links.length else provisional
        m.establishNestedOverCarrier provisional (some via) false none

def onNetworkChanged (m : PeerLinkManager) : PeerLinkManager :=
  let suspect := fun (link : PeerLink) =>
    if link.connected && !link.isCarrierBacked then
      { link with suspectSinceMs := m.around.nowMs, suspectFromVerify := false }
    else link
  { m with
    book := m.book.clearAllBackoff
    table := { m.table with links := m.table.links.map suspect } }

/-- `VerifyLink`, as far as it makes a link prove itself. -/
def verifyLink (m : PeerLinkManager) (key : DialKey) (heardWithinMs : Int) : PeerLinkManager :=
  match m.resolveConnectedLink key with
  | none => m
  | some link =>
      let rx := link.association.lastAuthRxMs
      if link.isCarrierBacked then m
      else if 0 < rx ∧ m.around.nowMs - rx ≤ heardWithinMs then m
      else if link.suspectSinceMs ≠ 0 then m
      else m.modifyLink link.id fun link =>
        { link with suspectSinceMs := m.around.nowMs, suspectFromVerify := true }

end Arrivals

end Amp.PeerLinkManager
