import Amp.Lib.Run
import Amp.Link.DialBook
import Amp.Link.DualDialElector

set_option autoImplicit false

/- Dials, accepted and nested links and what becomes of them (PeerLinkManager.cpp),
with the part of PeerLink.cpp that calls back into it. -/
namespace Amp

open Adp (Bytes IpEndpoint)

/-- The part of `PeerLinkConfig` the manager reads. -/
structure LinkLimits where
  maxLinks : Nat := 48
  maxPendingInbound : Nat := 16
  maxConcurrentDials : Nat := 6
  dialTimeoutMs : Int := 8000
  dialAttemptTimeoutMs : Int := 800
  networkChangeGraceMs : Int := 2000
  deriving DecidableEq, Repr

/-- Why `Endpoint::Open` refused; `alreadyOpen` when its message says "assoc already open". -/
structure OpenFailure where
  alreadyOpen : Bool := false
  message : String
  deriving DecidableEq, Repr

/-- What the manager meets outside: the clocks, the socket, the identities of its
peers. A call is told which link it is for, so that no two need answer alike. -/
structure Surroundings where
  nowMs : Int := 0
  steadyMs : Int := 0
  /-- The backoff of a failed dial, with its jitter. -/
  backoffMs : Int := 1000
  opens : DialKey → LinkId → IpEndpoint → Except OpenFailure Unit := fun _ _ _ => .ok ()
  /-- The second try, after an id clash. -/
  reopens : DialKey → LinkId → IpEndpoint → Except OpenFailure Unit := fun _ _ _ => .ok ()
  /-- Whether `Start` gets the first handshake message out. -/
  starts : LinkId → Except String Unit := fun _ => .ok ()
  derivePeerId : Bytes → String := fun _ => ""
  identityPublicKeyFingerprint : Bytes → String := fun _ => ""

/-- A callback of `EnsureAssociation`, by the number of its call; none when empty. -/
abbrev LinkCb := Option Nat

/-- How the table stands for a dial key. -/
structure Standing where
  /-- A Connected ADP link is bound to the key, or to the peer its record names. -/
  overAdp : Bool
  /-- The link the key names is Connected, over whatever transport. -/
  held : Bool
  /-- A Connected ADP link leads to the peer that a dial of the key has reached. -/
  reached : Bool
  deriving DecidableEq, Repr

/-- An `EnsureAssociation` callback answered, and how the table stood then. -/
structure Answer where
  call : Nat
  key : DialKey
  result : LinkRoe
  standing : Standing

def Answer.succeeded (answer : Answer) : Bool :=
  match answer.result with
  | .ok () => true
  | .error _ => false

structure PeerLinkManager where
  localPeerId : String
  limits : LinkLimits := {}
  book : DialBook := {}
  table : LinkTable := {}
  around : Surroundings := {}
  hostResolver : Bool := false
  nestedCarrierAccept : Bool := false
  /-- `inflight_associations_`, all keys in the order of the calls. -/
  inflightAssociations : List (DialKey × LinkCb) := []
  nestedWaiters : LinkId → List LinkCb := fun _ => []
  resolving : List DialKey := []
  pendingDrops : List (LinkHandle × LinkDropReason) := []
  pendingCandidateRetry : List DialKey := []
  pendingAliasAdopt : List (String × DialKey) := []
  suppressDialBackoff : List DialKey := []
  /-- Trace: the callbacks answered. -/
  answers : List Answer := []
  nestedAnswers : List (Nat × LinkRoe) := []
  /-- Trace: the Dropped events. -/
  drops : List (PeerLink × LinkDropReason) := []

namespace PeerLinkManager

section Lookup

def findLink (m : PeerLinkManager) (key : String) : Option PeerLink :=
  (m.table.findByDialKey key).or (m.table.findByPeerId key)

/-- `FindAdpLinkForKey` and `FindNestedLinkForKey`: the link of one transport dialed
under a key, whether or not the index names it. -/
def findLinkForKey (m : PeerLinkManager) (key : DialKey) (carrier : Bool) : Option PeerLink :=
  ((m.table.findByDialKey key).filter fun link => link.isCarrierBacked == carrier).or
    (m.table.forEach.find? fun link => link.isCarrierBacked == carrier && link.peerKey == key)

def findAdpLinkForKey (m : PeerLinkManager) (key : DialKey) : Option PeerLink :=
  m.findLinkForKey key false

def findNestedLinkForKey (m : PeerLinkManager) (key : DialKey) : Option PeerLink :=
  m.findLinkForKey key true

def peerIdForKey (m : PeerLinkManager) (key : DialKey) : String :=
  match (m.table.findByDialKey key).filter fun link => link.remotePeerId != "" with
  | some link => link.remotePeerId
  | none =>
      match (m.book.find key).filter fun record => record.peerId != "" with
      | some record => record.peerId
      | none => key

def resolveConnectedLink (m : PeerLinkManager) (key : DialKey) : Option PeerLink :=
  if key = "" then none
  else
    let toPeer := fun (carrier : Bool) => m.table.forEach.find? fun link =>
      link.connected && link.remotePeerId == m.peerIdForKey key && link.isCarrierBacked == carrier
    ((m.table.findByDialKey key).filter PeerLink.connected).or ((toPeer false).or (toPeer true))

def findAnyConnectedLinkForRemotePeerId (m : PeerLinkManager) (peerId : String) :
    Option PeerLink :=
  if peerId = "" then none else m.table.firstConnected peerId

def atLinkCapacity (m : PeerLinkManager) : Bool :=
  let closed := m.table.links.countP fun link => !link.isCarrierBacked && link.association.closed
  decide (m.limits.maxLinks ≤ m.table.links.length - closed)

/-- A Connected ADP link is bound to the key, or to the peer its record names. -/
def associated (m : PeerLinkManager) (key : DialKey) : Bool :=
  m.table.links.any fun link => link.connected && !link.isCarrierBacked &&
    (link.peerKey == key ||
      (m.book.find key).any fun record => record.peerId == link.remotePeerId)

/-- A Connected ADP link leads to the peer of an ADP link dialed under the key. -/
def reached (m : PeerLinkManager) (key : DialKey) : Bool :=
  m.table.links.any fun dialed => dialed.outbound && !dialed.isCarrierBacked &&
    dialed.peerKey == key && m.table.links.any fun link => link.connected &&
      !link.isCarrierBacked && link.remotePeerId == dialed.remotePeerId && link.remotePeerId != ""

def standing (m : PeerLinkManager) (key : DialKey) : Standing where
  overAdp := m.associated key
  held := (m.table.findByDialKey key).any PeerLink.connected
  reached := m.reached key

end Lookup

section Waiters

def waitersOf (m : PeerLinkManager) (key : DialKey) : List LinkCb :=
  (m.inflightAssociations.filter fun waiter => waiter.1 == key).map Prod.snd

/-- What is known of a callback when it is answered. -/
def answer (m : PeerLinkManager) (key : DialKey) (result : LinkRoe) (cb : LinkCb) : Option Answer :=
  cb.map fun call => ⟨call, key, result, m.standing key⟩

def complete (m : PeerLinkManager) (key : DialKey) (cb : LinkCb) (result : LinkRoe) :
    PeerLinkManager :=
  { m with answers := m.answers ++ (m.answer key result cb).toList }

/-- The waiters of a key are taken out and answered. -/
def finishWaiters (m : PeerLinkManager) (key : DialKey) (result : LinkRoe) : PeerLinkManager :=
  { m with
    inflightAssociations := m.inflightAssociations.filter fun waiter => waiter.1 != key
    answers := m.answers ++ (m.waitersOf key).filterMap (m.answer key result) }

def failWaiters (m : PeerLinkManager) (key : DialKey) (code : ManagerErr) (message : String) :
    PeerLinkManager :=
  m.finishWaiters key (.error ⟨code, message⟩)

def joinWaiters (m : PeerLinkManager) (key : DialKey) (cb : LinkCb) : PeerLinkManager :=
  { m with inflightAssociations := m.inflightAssociations ++ [(key, cb)] }

def joinNestedWaiters (m : PeerLinkManager) (id : LinkId) (cb : LinkCb) : PeerLinkManager :=
  { m with nestedWaiters := Function.update m.nestedWaiters id (m.nestedWaiters id ++ [cb]) }

def finishNestedWaiters (m : PeerLinkManager) (id : LinkId) (result : LinkRoe) : PeerLinkManager :=
  { m with
    nestedWaiters := Function.update m.nestedWaiters id []
    nestedAnswers := m.nestedAnswers ++
      (m.nestedWaiters id).filterMap fun cb => cb.map fun call => (call, result) }

end Waiters

section Drops

def modifyLink (m : PeerLinkManager) (id : LinkId) (change : PeerLink → PeerLink) :
    PeerLinkManager :=
  { m with table := m.table.modify id change }

/-- `ScheduleDropLink` of what the key names now. -/
def scheduleDropKey (m : PeerLinkManager) (key : DialKey) (reason : LinkDropReason) :
    PeerLinkManager :=
  match m.table.findByDialKey key with
  | none => m
  | some link => { m with pendingDrops := m.pendingDrops ++ [(link.handle, reason)] }

def scheduleDropLink (m : PeerLinkManager) (handle : LinkHandle) (reason : LinkDropReason) :
    PeerLinkManager :=
  { m with pendingDrops := m.pendingDrops ++ [(handle, reason)] }

/-- Carriers that ride a link go with its mux. -/
def orphanCarriers (m : PeerLinkManager) (id : LinkId) : PeerLinkManager :=
  let orphan := fun (link : PeerLink) =>
    if link.carrierVia = some id then { link with carrierClosed := true } else link
  { m with table := { m.table with links := m.table.links.map orphan } }

def dropLinkNow (m : PeerLinkManager) (link : PeerLink) (reason : LinkDropReason) :
    PeerLinkManager :=
  let m := m.orphanCarriers link.id
  let m := { m with table := m.table.eraseById link.id }
  let m := m.finishNestedWaiters link.id (.error ⟨.transportFailed, "amp link: nested link dropped"⟩)
  { m with drops := m.drops ++ [(link, reason)] }

/-- `DropLink`: what the key names. -/
def dropLink (m : PeerLinkManager) (key : DialKey) (reason : LinkDropReason) : PeerLinkManager :=
  match m.table.findByDialKey key with
  | none => m
  | some link => m.dropLinkNow link reason

def dropLinkByHandle (m : PeerLinkManager) (handle : LinkHandle) (reason : LinkDropReason) :
    PeerLinkManager :=
  match m.table.findLive handle with
  | none => m
  | some link => m.dropLinkNow link reason

/-- The links `RequestDropLink` finds, carriers left out. -/
def requestedLinks (m : PeerLinkManager) (key : String) : List PeerLink :=
  [m.findLink key, m.table.findByPeerId key].reduceOption.filter fun link => !link.isCarrierBacked

def requestDropLink (m : PeerLinkManager) (key : String) : PeerLinkManager :=
  ((m.requestedLinks key).map PeerLink.peerKey).dedup.foldl
    (fun m key => m.scheduleDropKey key .requested) m

def closeAllLinks (m : PeerLinkManager) : PeerLinkManager :=
  let nested := m.table.forEach.filter fun link => link.isCarrierBacked
  let adp := m.table.forEach.filter fun link => !link.isCarrierBacked
  (nested ++ adp).foldl (fun m link => m.dropLinkByHandle link.handle .localShutdown)
    { m with pendingDrops := [] }

def bindDialKey (m : PeerLinkManager) (id : LinkId) (key : DialKey) : PeerLinkManager :=
  { m with table := (m.table.bindDialKey id key).1 }

/-- A link of another id under the key that is not Connected: it gives way. -/
def displaces (m : PeerLinkManager) (id : LinkId) (key : DialKey) : Bool :=
  match m.table.findByDialKey key with
  | none => false
  | some occupant => !occupant.connected && occupant.id != id

def bindDialAlias (m : PeerLinkManager) (id : LinkId) (key : DialKey) : PeerLinkManager :=
  match m.table.findById id with
  | none => m
  | some link =>
      if link.peerKey = key then m
      else if m.displaces id key then (m.dropLink key .displaced).bindDialKey id key
      else m.bindDialKey id key

end Drops

section Callbacks

variable [MultiaddrParser]

/-- `RefreshPresence` of a live link. -/
def refreshPresence (m : PeerLinkManager) (handle : LinkHandle) : PeerLinkManager :=
  match m.table.findLive handle with
  | none => m
  | some link =>
      if link.connected then
        { m with table := m.table.setPresence link.remotePeerId link.transport link.id }
      else m

/-- The start of `FinishDial`: the dial's slot is free again. -/
def endDial (m : PeerLinkManager) (key : DialKey) : PeerLinkManager :=
  { m with
    book := m.book.decConcurrentDials
    suppressDialBackoff := m.suppressDialBackoff.filter (· != key) }

/-- A dial of a candidate failed: the next one goes at the next Tick, else the key
backs off and its waiters are told. An aborted dial does neither. -/
def dialFailed (m : PeerLinkManager) (key : DialKey) (handle : LinkHandle)
    (failure : ManagerFailure) (suppress : Bool) : PeerLinkManager :=
  let m := { m with book := m.book.forgetResolution key }
  let reason := if suppress then .dialAborted else dropReasonFor failure
  let (advanced, more) := m.book.advanceDialCandidate key m.around.steadyMs
  if !suppress && more then
    { m.scheduleDropLink handle reason with
      book := advanced
      pendingCandidateRetry := m.pendingCandidateRetry ++ [key] }
  else
    let book := m.book.resetDialIndex key m.around.steadyMs
    let book := if suppress then book
      else book.armBackoff key m.around.steadyMs m.around.backoffMs
    ({ m with book := book }.scheduleDropLink handle reason).finishWaiters key (.error failure)

def dialSucceeded (m : PeerLinkManager) (key : DialKey) (handle : LinkHandle) : PeerLinkManager :=
  let book := m.book.clearBackoff key
  let book := match book.find key with
    | some record => book.promoteDialWinner key record.multiaddr m.around.steadyMs
    | none => book.resetDialIndex key m.around.steadyMs
  ({ m with book := book }.refreshPresence handle).finishWaiters key (.ok ())

def finishDial (m : PeerLinkManager) (key : DialKey) (handle : LinkHandle) (result : LinkRoe) :
    PeerLinkManager :=
  let suppress := m.suppressDialBackoff.contains key
  match result with
  | .error failure => (m.endDial key).dialFailed key handle failure suppress
  | .ok () => (m.endDial key).dialSucceeded key handle

/-- `FinishNestedCarrier`, as far as it names the link by its peer. -/
def nameNested (m : PeerLinkManager) (provisional : DialKey) (handle : LinkHandle) :
    PeerLinkManager :=
  match m.table.findLive handle with
  | none => m
  | some link =>
      let remote := link.remotePeerId
      let owned := m.table.links.any fun other => other.id != link.id && other.connected &&
        other.remotePeerId == remote && !other.isCarrierBacked
      if remote = "" ∨ remote = provisional then m
      else if owned || m.table.containsDialKey remote then m
      else m.bindDialAlias link.id remote

def finishNestedCarrier (m : PeerLinkManager) (provisional : DialKey) (handle : LinkHandle)
    (result : LinkRoe) : PeerLinkManager :=
  match result with
  | .ok () => (m.nameNested provisional handle).finishNestedWaiters handle.id result
  | .error failure =>
      let reason := if dropReasonFor failure = .transportFailed then .carrierClosed
        else dropReasonFor failure
      (m.scheduleDropLink handle reason).finishNestedWaiters handle.id result

/-- A link's `establish_cb_` runs, if it has not yet. -/
def runEstablishCb (m : PeerLinkManager) (cb : Option Establish) (handle : LinkHandle)
    (result : Except LinkFailure Unit) : PeerLinkManager :=
  match cb, result with
  | none, _ => m
  | some (.dial key), result => m.finishDial key handle (wrapPeerLinkResult result)
  | some (.nested provisional), result =>
      m.finishNestedCarrier provisional handle (wrapPeerLinkResult result)
  | some .inbound, .ok () => m
  | some .inbound, .error child =>
      m.scheduleDropLink handle (dropReasonFor (wrapPeerLinkFailure child))

/-- `PeerLink::FailAssociation`. -/
def failAssociation (m : PeerLinkManager) (id : LinkId) (failure : LinkFailure) :
    PeerLinkManager :=
  match m.table.findById id with
  | none => m
  | some link =>
      (m.modifyLink id fun link => { link with phase := .backoff, establishCb := none }).runEstablishCb
        link.establishCb link.handle (.error failure)

def failHandshakeTimeout (m : PeerLinkManager) (id : LinkId) : PeerLinkManager :=
  m.failAssociation id ⟨.dialTimeout, "amp link: dial timeout"⟩

def failRefused (m : PeerLinkManager) (id : LinkId) : PeerLinkManager :=
  m.failAssociation id
    ⟨.transportFailed, "amp link: refused by the peer (its link table is full)"⟩

def spokenVersions (versions : List Nat) : String :=
  String.intercalate ", " (versions.map fun version => "v" ++ toString version)

def failVersionMismatch (m : PeerLinkManager) (id : LinkId) (versions : List Nat) :
    PeerLinkManager :=
  m.failAssociation id ⟨.versionMismatch, "amp link: the peer speaks wire " ++
    spokenVersions versions ++ ", not v" ++ toString Adp.kWireVersion⟩

end Callbacks

section Establishment

variable [MultiaddrParser]

/-- A dial key the book has for the candidate's peer and no link holds; after an
election also one it does not have itself. -/
def freeAlias (m : PeerLinkManager) (candidate : PeerLink) (elected : Bool) : Option DialKey :=
  (m.book.records.find? fun entry => entry.2.peerId == candidate.remotePeerId &&
    !isEphemeralDialKey entry.1 && !m.table.containsDialKey entry.1 &&
    (!elected || entry.1 != candidate.peerKey)).map Prod.fst

def adoptAlias (m : PeerLinkManager) (candidate : PeerLink) (elected : Bool) : PeerLinkManager :=
  if candidate.outbound then m
  else
    match m.freeAlias candidate elected with
    | none => m
    | some key => m.bindDialAlias candidate.id key

/-- The Connected link to the candidate's peer the duplicate check looks at. -/
def duplicateOf (m : PeerLinkManager) (candidate : PeerLink) : Option PeerLink :=
  m.table.forEach.find? fun link => link.id != candidate.id && link.connected &&
    link.remotePeerId == candidate.remotePeerId

/-- An existing link lost the election: demoted now, dropped at the next Tick. -/
def demote (m : PeerLinkManager) (loser : PeerLink) : PeerLinkManager :=
  (m.modifyLink loser.id PeerLink.demoteForScheduledDrop).scheduleDropKey loser.peerKey .dualDialLost

def adoptInboundOrDropDuplicate (m : PeerLinkManager) (candidate : PeerLink) :
    PeerLinkManager × Bool :=
  if candidate.remotePeerId = "" then (m, true)
  else
    match m.duplicateOf candidate with
    | none => (m.adoptAlias candidate false, true)
    | some existing =>
        if existing.isCarrierBacked != candidate.isCarrierBacked then (m, true)
        else
          match elect existing candidate m.localPeerId with
          | .existing => (m, false)
          | .candidate => ((m.demote existing).adoptAlias candidate true, true)

def onLinkEstablished (m : PeerLinkManager) (candidate : PeerLink) : PeerLinkManager × Bool :=
  match m.adoptInboundOrDropDuplicate candidate with
  | (m, false) => (m, false)
  | (m, true) => (m.refreshPresence candidate.handle, true)

/-- The peer id a finished handshake gives a link. -/
def authenticatedPeerId (m : PeerLinkManager) (link : PeerLink) (identity : Bytes) : String :=
  if identity = [] then link.remotePeerId
  else if m.around.derivePeerId identity ≠ "" then m.around.derivePeerId identity
  else if link.remotePeerId = "" then m.around.identityPublicKeyFingerprint identity
  else link.remotePeerId

/-- The loser of an election is on its way out. Its dial still counts as a success
when another link to the peer is up; its alias then goes to that one. -/
def loseElection (m : PeerLinkManager) (link : PeerLink) (cb : Option Establish) :
    PeerLinkManager :=
  let m := m.modifyLink link.id fun link => { link with phase := .backoff }
  let other := (m.findAnyConnectedLinkForRemotePeerId link.remotePeerId).isSome
  let m := m.scheduleDropLink link.handle .dualDialLost
  let m :=
    if other && link.outbound && link.peerKey != "" then
      { m with pendingAliasAdopt := m.pendingAliasAdopt ++ [(link.remotePeerId, link.peerKey)] }
    else m
  m.runEstablishCb cb link.handle (if other then .ok ()
    else .error ⟨.dualDialLost, "amp link: dual-dial election lost"⟩)

/-- A link is Connected. Its `establish_cb_` is taken out here and run at the end. -/
def establish (m : PeerLinkManager) (link : PeerLink) : PeerLinkManager :=
  let up := { link with phase := .connected, establishCb := none }
  match (m.modifyLink link.id fun _ => up).onLinkEstablished up with
  | (m, true) => m.runEstablishCb link.establishCb link.handle (.ok ())
  | (m, false) => m.loseElection up link.establishCb

/-- What a link's handshake came to. -/
inductive HandshakeResult where
  | failed (message : String)
  /-- Authenticated, and whether the session and its mux could be made. -/
  | established (identity : Bytes) (made : Except String Unit)

/-- `OnHandshakeComplete` and `FinishEstablishment`. -/
def onHandshakeComplete (m : PeerLinkManager) (id : LinkId) (result : HandshakeResult) :
    PeerLinkManager :=
  match m.table.findById id with
  | none => m
  | some link =>
      if link.phase ≠ .handshaking then m
      else
        match result with
        | .failed message => m.failAssociation id ⟨.handshakeFailed, message⟩
        | .established identity made =>
            let expected := if link.outbound && !link.isCarrierBacked then link.remotePeerId else ""
            let link := { link with remotePeerId := m.authenticatedPeerId link identity }
            let named := m.modifyLink id fun _ => link
            if expected ≠ "" ∧ link.remotePeerId ≠ expected then
              named.failAssociation id ⟨.handshakeFailed,
                "amp link: authenticated peer id does not match dial target"⟩
            else
              match made with
              | .error message => named.failAssociation id ⟨.handshakeFailed, message⟩
              | .ok () => named.establish link

/-- The carrier's closed callback. -/
def onCarrierClosed (m : PeerLinkManager) (id : LinkId) (reason : String) : PeerLinkManager :=
  match m.table.findById id with
  | none => m
  | some link =>
      if !link.isCarrierBacked then m
      else
        let m := m.modifyLink id fun link => { link with carrierClosed := true }
        if link.connected then m.modifyLink id fun link => { link with phase := .backoff }
        else m.failAssociation id
          ⟨.carrierClosed, if reason = "" then "amp carrier closed" else reason⟩

end Establishment

end PeerLinkManager

end Amp
