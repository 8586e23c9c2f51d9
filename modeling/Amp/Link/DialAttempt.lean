import Amp.Lib.Run
import Amp.Link.DialIngest

set_option autoImplicit false

/- The attempts to associate under one dial key: the part of the manager that dials the key's
candidates in turn (PeerLinkManager.cpp), with what each attempt has dialed. -/
namespace Amp

open Adp (IpEndpoint)

/-- What the rest of the manager answers to a call that concerns the key. -/
structure DialAround where
  steadyMs : Int := 0
  /-- The backoff of a failed dial, with its jitter. -/
  backoffMs : Int := 1000
  /-- A Connected link under the key, or over ADP to its peer, answers `EnsureAssociation`. -/
  associated : Bool := false
  /-- The link the key names is Connected. -/
  occupied : Bool := false
  /-- There are too many dials or links. -/
  full : Bool := false
  hostResolver : Bool := true
  /-- Whether `Endpoint::Open` takes an association with an address. -/
  opens : IpEndpoint → Bool := fun _ => true

/-- How an attempt ended. -/
inductive DialEnding where
  /-- No candidate was left: those of the record, and what the attempt had tried. -/
  | exhausted (candidates tried : List String)
  /-- A link connected: what it had dialed, and the candidate that is first from then on. -/
  | connected (dialed : String) (front : Option String)
  deriving DecidableEq, Repr

/-- What the manager keeps for one dial key. -/
structure DialAttempt where
  book : DialBook := {}
  /-- Someone waits for the key in `inflight_associations_`. -/
  waiting : Bool := false
  /-- The key is in `resolving_`. -/
  resolving : Bool := false
  /-- How often the key is in `pending_candidate_retry_`. -/
  retries : Nat := 0
  /-- Lookups whose result is to come, each with the multiaddr it was begun for. -/
  lookups : List String := []
  /-- Links in flight, the newest last. Trace: the multiaddr each has dialed. -/
  links : List String := []
  /-- Trace: what was dialed or failed to resolve since the attempt began. -/
  tried : List String := []
  /-- Trace: the attempts that ended by a dial. -/
  endings : List DialEnding := []

namespace DialAttempt

variable [MultiaddrParser] (key : DialKey) (around : DialAround)

/-- A callback joins `inflight_associations_`; the first one begins an attempt. -/
def joinWaiters (a : DialAttempt) : DialAttempt :=
  { a with waiting := true, tried := if a.waiting then a.tried else [] }

/-- The waiters of the key, if there are any, are told that no candidate is left. -/
def exhaust (a : DialAttempt) : DialAttempt :=
  { a with
    waiting := false
    endings := a.endings ++
      if a.waiting then [.exhausted (a.book.candidatesOf key) a.tried] else [] }

/-- The end of `FailCandidateLocked`: no candidate is left. -/
def giveUpCandidates (a : DialAttempt) : DialAttempt :=
  { a with
    book := (a.book.resetDialIndex key around.steadyMs).armBackoff key around.steadyMs
      around.backoffMs }.exhaust key

/-- `BeginOutboundDialLocked`; `turns` bounds how often a hostname is passed over for want
of a resolver. -/
def beginOutboundDial : Nat → DialAttempt → DialAttempt
  | turns, a =>
      if around.occupied then
        { a with book := a.book.resetDialIndex key around.steadyMs, waiting := false }
      else
        match a.book.find key with
        | none => { a with waiting := false }
        | some record =>
            if around.full then { a with waiting := false }
            else if a.book.needsResolution key around.steadyMs then
              if around.hostResolver then
                { a with resolving := true, lookups := a.lookups ++ [record.multiaddr] }
              else
                let a := { a with tried := a.tried ++ [record.multiaddr] }
                match turns, a.book.advanceDialCandidate key around.steadyMs with
                | turns + 1, (book, true) => beginOutboundDial turns { a with book := book }
                | _, _ => a.giveUpCandidates key around
            else if around.opens record.endpoint then
              { a with
                book := a.book.incConcurrentDials
                links := a.links ++ [record.multiaddr]
                tried := a.tried ++ [record.multiaddr] }
            else { a with waiting := false }

/-- Turns enough for every candidate of the key. -/
def dialTurns (a : DialAttempt) : Nat := (a.book.candidatesOf key).length

def beginDial (a : DialAttempt) : DialAttempt :=
  a.beginOutboundDial key around (a.dialTurns key)

/-- `FailCandidateLocked`, for a hostname that did not resolve. -/
def failCandidate (a : DialAttempt) : DialAttempt :=
  match a.book.advanceDialCandidate key around.steadyMs with
  | (book, true) => { a with book := book }.beginDial key around
  | (_, false) => a.giveUpCandidates key around

/-- A lookup came back, whoever waits for it. -/
def takeResolution (multiaddr : String) (result : Except String IpEndpoint) (a : DialAttempt) :
    DialAttempt :=
  let a := { a with resolving := false, lookups := a.lookups.erase multiaddr }
  match result with
  | .ok endpoint => { a with book := a.book.setResolution multiaddr endpoint around.steadyMs }
  | .error _ => { a with tried := a.tried ++ [multiaddr] }

def onHostResolved (multiaddr : String) (result : Except String IpEndpoint) (a : DialAttempt) :
    DialAttempt :=
  let a := a.takeResolution around multiaddr result
  match a.book.find key, a.waiting with
  | none, _ => a
  | some _, false => a
  | some record, true =>
      if record.multiaddr ≠ multiaddr then a.beginDial key around
      else
        match result with
        | .error _ => a.failCandidate key around
        | .ok _ => a.beginDial key around

/-- `FinishDial` of a link that failed; `suppress` when the dial was aborted. -/
def dialFailed (suppress : Bool) (multiaddr : String) (a : DialAttempt) : DialAttempt :=
  let a := { a with
    book := a.book.decConcurrentDials.forgetResolution key
    links := a.links.erase multiaddr }
  let (advanced, more) := a.book.advanceDialCandidate key around.steadyMs
  if !suppress && more then { a with book := advanced, retries := a.retries + 1 }
  else if suppress then
    { a with book := a.book.resetDialIndex key around.steadyMs, waiting := false }
  else a.giveUpCandidates key around

/-- `FinishDial` of a link that connected. -/
def dialSucceeded (multiaddr : String) (a : DialAttempt) : DialAttempt :=
  let book := a.book.decConcurrentDials.clearBackoff key
  let a := { a with waiting := false, links := a.links.erase multiaddr }
  match book.find key with
  | none => { a with book := book.resetDialIndex key around.steadyMs }
  | some record =>
      let book := book.promoteDialWinner key record.multiaddr around.steadyMs
      { a with
        book := book
        endings := a.endings ++ [.connected multiaddr (book.candidatesOf key).head?] }

/-- The end of `EnsureAssociation`: a dial of its own, unless something forbids it. -/
def startAssociation (a : DialAttempt) : DialAttempt :=
  if !a.book.contains key then a
  else if a.book.inBackoff key around.steadyMs then a
  else
    let a := { a with book := a.book.eraseExpiredBackoff key around.steadyMs }
    if around.full then a
    else { a with book := a.book.resetDialIndex key around.steadyMs }.joinWaiters.beginDial key around

def ensureAssociation (a : DialAttempt) : DialAttempt :=
  if around.associated then a
  else if a.resolving || !a.links.isEmpty then a.joinWaiters
  else a.startAssociation key around

/-- `AbortInflightDial`: of two links in flight, the key names the newer. -/
def abortInflightDial (a : DialAttempt) : DialAttempt :=
  let a := { a with book := a.book.clearBackoff key, retries := 0, waiting := false }
  match a.links.getLast? with
  | none => a
  | some multiaddr => a.dialFailed key around true multiaddr

/-- Tick takes one entry of the key out of `pending_candidate_retry_`. -/
def retry (a : DialAttempt) : DialAttempt :=
  let a := { a with retries := a.retries - 1 }
  if a.waiting then a.beginDial key around else a

end DialAttempt

/-- The calls that concern the key, and what is done to the book elsewhere. -/
inductive DialEvent where
  | ensureAssociation (around : DialAround)
  | abortInflightDial (around : DialAround)
  | registerEndpoint (multiaddr : String) (now : Int)
  | registerEndpoints (multiaddrs : List String) (now : Int)
  | ingestRemoteAddrs (peerId : String) (addrs : List String) (now : Int)
  | hostResolved (multiaddr : String) (result : Except String IpEndpoint) (around : DialAround)
  | retry (around : DialAround)
  | linkFailed (multiaddr : String) (around : DialAround)
  | linkConnected (multiaddr : String) (around : DialAround)
  | elsewhere (call : DialBook.Call) (now : Int)
  /-- The hash map of the book walks in another order. -/
  | rehash (order : HashOrder (DialKey × EndpointRecord))

namespace DialBook

variable [MultiaddrParser]

/-- A call on other keys' records. -/
def spares (book : DialBook) (key : DialKey) : Call → Bool
  | .registerEndpoint other _ | .registerEndpoints other _ | .unregisterEndpoint other
  | .advanceDialCandidate other | .resetDialIndex other | .promoteDialWinner other _
  | .forgetResolution other => other != key
  | .ingestRemoteAddrs peerId _ => book.targetKey peerId != key
  | .setResolution _ _ => true

end DialBook

namespace DialAttempt

variable [MultiaddrParser] (key : DialKey)

/-- One of the calls; a lookup or a link that is not there has nothing to report. -/
def step (a : DialAttempt) : DialEvent → DialAttempt
  | .ensureAssociation around => a.ensureAssociation key around
  | .abortInflightDial around => a.abortInflightDial key around
  | .registerEndpoint multiaddr now => { a with book := (a.book.registerEndpoint key multiaddr now).1 }
  | .registerEndpoints multiaddrs now =>
      { a with book := (a.book.registerEndpoints key multiaddrs now).1 }
  | .ingestRemoteAddrs peerId addrs now => { a with book := a.book.ingestRemoteAddrs peerId addrs now }
  | .hostResolved multiaddr result around =>
      if multiaddr ∈ a.lookups then a.onHostResolved key around multiaddr result else a
  | .retry around => if a.retries = 0 then a else a.retry key around
  | .linkFailed multiaddr around =>
      if multiaddr ∈ a.links then a.dialFailed key around false multiaddr else a
  | .linkConnected multiaddr around =>
      if multiaddr ∈ a.links then a.dialSucceeded key around multiaddr else a
  | .elsewhere call now => if a.book.spares key call then { a with book := (a.book.call call now).1 } else a
  | .rehash order => { a with book := { a.book with order := order } }

/-- An attempt that gave up had tried every candidate, and the candidate put first is the one
that the link dialed. -/
def FairEnding : DialEnding → Prop
  | .exhausted candidates tried => candidates ⊆ tried
  | .connected dialed front => front = some dialed

/-- The candidate that a call puts first for the key, if it does. -/
def leading (book : DialBook) : DialEvent → Option String
  | .registerEndpoint multiaddr _ => if DialBook.accepts multiaddr then some multiaddr else none
  | .registerEndpoints multiaddrs _ => multiaddrs.find? DialBook.accepts
  | .ingestRemoteAddrs peerId addrs _ =>
      if peerId ≠ "" ∧ book.targetKey peerId = key then
        (DialBook.mergeAddrs peerId (book.candidatesOf key) addrs).head?
      else none
  | _ => none

/-- What `EnsureAssociation` asks before it dials. -/
def mayDial (a : DialAttempt) (around : DialAround) : Bool :=
  a.book.contains key && !a.book.inBackoff key around.steadyMs && !around.full

/-- The call lets what is under way for the key go on: it puts no candidate before the one being
dialed, and `EnsureAssociation` neither dials beside a retry to come nor begins an attempt with a
lookup left over from an aborted one that had passed candidates over. -/
def undisturbed (a : DialAttempt) : DialEvent → Bool
  | .ensureAssociation around =>
      around.associated ||
        if a.resolving || !a.links.isEmpty then
          a.waiting || (a.book.find key).all fun record => record.dialIndex == 0
        else a.retries == 0 || !a.mayDial key around
  | event => (leading key a.book event).all fun first => a.links.all (· == first)

end DialAttempt

end Amp
