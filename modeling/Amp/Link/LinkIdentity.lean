import Mathlib.Tactic.NormNum

set_option autoImplicit false

/- What names a link, why one is dropped and what its owner is told (LinkIdentity.h,
LinkEvents.h, CodedFailure.h). -/
namespace Amp

/-- The key a product registers endpoints and asks for associations under. -/
abbrev DialKey := String

abbrev LinkId := Nat

structure LinkHandle where
  id : LinkId := 0
  generation : Nat := 0
  deriving DecidableEq, Repr

inductive TransportClass where
  | adp
  | carrier
  deriving DecidableEq, Repr

/-- The latest link to come up to a peer, by transport. -/
structure PeerPresence where
  adp : Option LinkId := none
  carrier : Option LinkId := none
  deriving DecidableEq, Repr

inductive PeerLinkPhase where
  | unavailable
  | idle
  | dialing
  | handshaking
  | connected
  | backoff
  deriving DecidableEq, Repr

inductive LinkDropReason where
  | unknown
  | connectionClosed
  | connectionDead
  | carrierClosed
  | dualDialLost
  | handshakeFailed
  | handshakeTimeout
  | transportFailed
  | dialAborted
  | displaced
  | requested
  | networkChanged
  | localShutdown
  | idleEvicted
  | unresponsive
  | versionMismatch
  deriving DecidableEq, Repr

def kBurstDialKeyPrefix : String := "amp:burst:"

def isEphemeralDialKey (key : DialKey) : Bool := key.startsWith kBurstDialKeyPrefix

/-- `detail::AppendFrom`. -/
def appendFrom (detail fromLabel fromMessage : String) : String :=
  if fromMessage = "" then detail
  else detail ++ " [" ++ fromLabel ++ ": " ++ fromMessage ++ "]"

/-- `PeerLink::Err`. -/
inductive LinkErr where
  | noConnection
  | transportFailed
  | transportUnavailable
  | handshakeFailed
  | dialTimeout
  | carrierClosed
  | carrierEnqueueFailed
  | dualDialLost
  | notConnected
  | rekeyInFlight
  | ch0NotOpen
  | versionMismatch
  | generic
  deriving DecidableEq, Repr

structure LinkFailure where
  code : LinkErr
  message : String
  deriving DecidableEq, Repr

/-- `PeerLinkManager::Err`. -/
inductive ManagerErr where
  | endpointNotRegistered
  | dialInBackoff
  | tooManyConcurrentDials
  | maxLinksReached
  | associationNotReady
  | linkNotFound
  | nestedCarrierIncomplete
  | dialTimeout
  | handshakeFailed
  | transportFailed
  | dualDialLost
  | channelOpenFailed
  | versionMismatch
  | generic
  deriving DecidableEq, Repr

structure ManagerFailure where
  code : ManagerErr
  message : String
  deriving DecidableEq, Repr

abbrev LinkRoe := Except ManagerFailure Unit

def wrapPeerLinkFailure (child : LinkFailure) : ManagerFailure :=
  let (code, detail) : ManagerErr × String := match child.code with
    | .dialTimeout => (.dialTimeout, "amp link manager: dial timeout")
    | .dualDialLost => (.dualDialLost, "amp link manager: dual-dial lost")
    | .versionMismatch => (.versionMismatch, "amp link manager: version mismatch")
    | .handshakeFailed => (.handshakeFailed, "amp link manager: handshake failed")
    | .transportUnavailable => (.transportFailed, "amp link manager: transport unavailable")
    | .transportFailed | .noConnection | .carrierClosed | .carrierEnqueueFailed =>
        (.transportFailed, "amp link manager: transport failed")
    | .notConnected => (.associationNotReady, "amp link manager: association not ready")
    | _ => (.generic, "amp link manager: link error")
  ⟨code, appendFrom detail "link" child.message⟩

def wrapPeerLinkResult : Except LinkFailure Unit → LinkRoe
  | .ok () => .ok ()
  | .error child => .error (wrapPeerLinkFailure child)

def dropReasonFor (failure : ManagerFailure) : LinkDropReason :=
  match failure.code with
  | .dialTimeout => .handshakeTimeout
  | .dualDialLost => .dualDialLost
  | .handshakeFailed => .handshakeFailed
  | .transportFailed => .transportFailed
  | .versionMismatch => .versionMismatch
  | _ => .unknown

/-- What a link's `establish_cb_` does once: finish the dial of a key, watch an
accepted link, or finish a nested handshake. -/
inductive Establish where
  | dial (key : DialKey)
  | inbound
  | nested (provisional : DialKey)
  deriving DecidableEq, Repr

/-- What the manager reads of a link's ADP association. -/
structure AssociationView where
  closed : Bool := false
  peerClosed : Bool := false
  peerUnreachable : Bool := false
  peerVersionMismatch : Bool := false
  peerWireVersions : List Nat := []
  looksAlive : Bool := true
  lastAuthRxMs : Int := 0
  deriving DecidableEq, Repr

/-- A link as its manager sees it: who it is to, how far it got and who waits for it. -/
structure PeerLink where
  id : LinkId
  generation : Nat
  peerKey : DialKey
  remotePeerId : String
  outbound : Bool
  isCarrierBacked : Bool
  phase : PeerLinkPhase := .handshaking
  establishCb : Option Establish := none
  handshakeStartedMs : Int := 0
  association : AssociationView := {}
  /-- The link whose mux the carrier is a channel of. -/
  carrierVia : Option LinkId := none
  carrierClosed : Bool := false
  carrierLaneFailed : Bool := false
  /-- Kept warm, or with a channel open besides the capability one. -/
  inUse : Bool := false
  suspectSinceMs : Int := 0
  suspectFromVerify : Bool := false
  deriving DecidableEq, Repr

namespace PeerLink

def handle (link : PeerLink) : LinkHandle := ⟨link.id, link.generation⟩

def transport (link : PeerLink) : TransportClass :=
  if link.isCarrierBacked then .carrier else .adp

def connected (link : PeerLink) : Bool := link.phase == .connected

/-- Handshaking or Dialing: the phases a dial can be joined in. -/
def underway (link : PeerLink) : Bool := link.phase == .handshaking || link.phase == .dialing

/-- A dial of this link that has not ended yet. -/
def dials (link : PeerLink) (key : DialKey) : Bool := link.establishCb == some (.dial key)

def isDialing (link : PeerLink) : Bool :=
  match link.establishCb with
  | some (.dial _) => true
  | _ => false

def demoteForScheduledDrop (link : PeerLink) : PeerLink :=
  { link with phase := if link.connected || link.underway then .backoff else link.phase }

end PeerLink

end Amp
