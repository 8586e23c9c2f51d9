import Amp.L1.Types
import Amp.Link.LinkTable

set_option autoImplicit false

/- The endpoints a manager can dial, their candidates, backoff and the count of
dials under way (DialBook.cpp). -/
namespace Amp

open Adp (IpEndpoint Family)

inductive HostFamily where
  | any
  | v4
  | v6
  deriving DecidableEq, Repr

structure ParsedAdpMultiaddr where
  endpoint : IpEndpoint
  peerId : String := ""
  hostname : String := ""
  hostFamily : HostFamily := .any
  ampWire : Nat := 0
  deriving DecidableEq, Repr

/-- `ParseAdpMultiaddr`; the dial book relies on nothing of it but its result. -/
class MultiaddrParser where
  parseAdpMultiaddr : String → Except String ParsedAdpMultiaddr

/-- `DialBook::EndpointRecord`. -/
structure EndpointRecord where
  multiaddr : String := ""
  endpoint : IpEndpoint := {}
  peerId : String := ""
  candidates : List String := []
  dialIndex : Nat := 0
  hostname : String := ""
  hostFamily : HostFamily := .any
  resolved : Bool := true
  deriving DecidableEq, Repr

/-- `DialBook::Resolution`. -/
structure Resolution where
  endpoint : IpEndpoint
  resolvedAt : Int
  deriving DecidableEq, Repr

structure DialBook where
  hostResolutionTtl : Int := 60000
  endpoints : List (DialKey × EndpointRecord) := []
  /-- `resolutions_`, by multiaddr. -/
  resolutions : String → Option Resolution := fun _ => none
  dialFailedUntil : DialKey → Option Int := fun _ => none
  concurrentDials : Nat := 0
  order : HashOrder (DialKey × EndpointRecord) := .inserted

namespace DialBook

def kMaxCandidatesPerKey : Nat := 16

def insertCandidateFront (candidates : List String) (multiaddr : String) : List String :=
  (multiaddr :: candidates.filter (· != multiaddr)).take kMaxCandidatesPerKey

/-- `Endpoints()`, in the order the map is walked in. -/
def records (book : DialBook) : List (DialKey × EndpointRecord) :=
  book.order.arrange book.endpoints

def find (book : DialBook) (key : DialKey) : Option EndpointRecord :=
  (book.endpoints.find? fun entry => entry.1 == key).map Prod.snd

def contains (book : DialBook) (key : DialKey) : Bool := (book.find key).isSome

/-- `endpoints_[key] = record`. -/
def put (book : DialBook) (key : DialKey) (record : EndpointRecord) : DialBook :=
  { book with endpoints := book.endpoints.filter (fun entry => entry.1 != key) ++ [(key, record)] }

/-- A change to a record where it stands. -/
def modify (book : DialBook) (key : DialKey) (change : EndpointRecord → EndpointRecord) : DialBook :=
  { book with endpoints :=
      book.endpoints.map fun entry => if entry.1 = key then (key, change entry.2) else entry }

def clearBackoff (book : DialBook) (key : DialKey) : DialBook :=
  { book with dialFailedUntil := Function.update book.dialFailedUntil key none }

def clearAllBackoff (book : DialBook) : DialBook := { book with dialFailedUntil := fun _ => none }

/-- `ArmBackoff`, with the jittered backoff as it was drawn. -/
def armBackoff (book : DialBook) (key : DialKey) (now backoff : Int) : DialBook :=
  { book with dialFailedUntil := Function.update book.dialFailedUntil key (some (now + backoff)) }

def inBackoff (book : DialBook) (key : DialKey) (now : Int) : Bool :=
  match book.dialFailedUntil key with
  | some expiry => decide (now < expiry)
  | none => false

def eraseExpiredBackoff (book : DialBook) (key : DialKey) (now : Int) : DialBook :=
  match book.dialFailedUntil key with
  | some expiry => if expiry ≤ now then book.clearBackoff key else book
  | none => book

def incConcurrentDials (book : DialBook) : DialBook :=
  { book with concurrentDials := book.concurrentDials + 1 }

def decConcurrentDials (book : DialBook) : DialBook :=
  { book with concurrentDials := book.concurrentDials - 1 }

/-- A cached address that has not outlived its time. -/
def freshResolution (book : DialBook) (multiaddr : String) (now : Int) : Option Resolution :=
  (book.resolutions multiaddr).filter fun found => decide (now - found.resolvedAt < book.hostResolutionTtl)

def needsResolution (book : DialBook) (key : DialKey) (now : Int) : Bool :=
  match book.find key with
  | none => false
  | some record => record.hostname != "" &&
      (!record.resolved || (book.freshResolution record.multiaddr now).isNone)

def setResolution (book : DialBook) (multiaddr : String) (endpoint : IpEndpoint) (now : Int) :
    DialBook :=
  { book with
    resolutions := Function.update (fun name => book.freshResolution name now) multiaddr
      (some ⟨endpoint, now⟩)
    endpoints := book.endpoints.map fun entry =>
      if entry.2.multiaddr = multiaddr then
        (entry.1, { entry.2 with endpoint := endpoint, resolved := true })
      else entry }

def forgetResolution (book : DialBook) (key : DialKey) : DialBook :=
  match book.find key with
  | none => book
  | some record =>
      if record.hostname = "" then book
      else
        let book := { book with resolutions := Function.update book.resolutions record.multiaddr none }
        book.modify key fun record => { record with resolved := false }

section Parsing

variable [MultiaddrParser]

open MultiaddrParser (parseAdpMultiaddr)

def applyAddress (book : DialBook) (record : EndpointRecord) (multiaddr : String)
    (parsed : ParsedAdpMultiaddr) (now : Int) : EndpointRecord :=
  let record := { record with
    multiaddr := multiaddr
    hostname := parsed.hostname
    hostFamily := parsed.hostFamily
    endpoint := parsed.endpoint
    resolved := parsed.hostname == "" }
  if parsed.hostname = "" then record
  else
    match book.freshResolution multiaddr now with
    | some found => { record with endpoint := found.endpoint, resolved := true }
    | none => record

/-- `rec.dial_index = 0` where it is past the end. -/
def clampIndex (record : EndpointRecord) : EndpointRecord :=
  if record.dialIndex < record.candidates.length then record else { record with dialIndex := 0 }

def syncActiveFromIndex (book : DialBook) (record : EndpointRecord) (now : Int) : EndpointRecord :=
  if record.candidates = [] then record
  else
    let record := clampIndex record
    let active := record.candidates.getD record.dialIndex ""
    match parseAdpMultiaddr active with
    | .error _ => record
    | .ok parsed =>
        let record := book.applyAddress record active parsed now
        if parsed.peerId = "" then record else { record with peerId := parsed.peerId }

def registerEndpoint (book : DialBook) (key : DialKey) (multiaddr : String) (now : Int) :
    DialBook × Except String Unit :=
  match parseAdpMultiaddr multiaddr with
  | .error message => (book, .error message)
  | .ok parsed =>
      let previous := (book.find key).elim "" EndpointRecord.multiaddr
      let record : EndpointRecord := match book.find key with
        | none => { peerId := if parsed.peerId = "" then key else parsed.peerId }
        | some existing =>
            if existing.peerId = "" ∧ parsed.peerId ≠ "" then
              { existing with peerId := parsed.peerId }
            else existing
      let record := { record with
        candidates := insertCandidateFront record.candidates multiaddr
        dialIndex := 0 }
      let book := book.put key (book.syncActiveFromIndex record now)
      (if previous = multiaddr then book else book.clearBackoff key, .ok ())

/-- One turn of the loop of `RegisterEndpoints` over the addresses given. -/
def takeCandidate (key : DialKey) (record : EndpointRecord) (multiaddr : String) : EndpointRecord :=
  if kMaxCandidatesPerKey ≤ record.candidates.length then record
  else
    match parseAdpMultiaddr multiaddr with
    | .error _ => record
    | .ok parsed =>
        if multiaddr ∈ record.candidates then record
        else { record with
          peerId := if record.peerId = key ∧ parsed.peerId ≠ "" then parsed.peerId else record.peerId
          candidates := record.candidates ++ [multiaddr] }

def registerEndpoints (book : DialBook) (key : DialKey) (multiaddrs : List String) (now : Int) :
    DialBook × Except String Unit :=
  let previous := (book.find key).elim "" EndpointRecord.multiaddr
  let named := ((book.find key).map EndpointRecord.peerId).filter (· != "")
  let record := multiaddrs.foldl (takeCandidate key) { peerId := named.getD key }
  if record.candidates = [] then (book, .error "amp dial book: no parseable multiaddrs")
  else
    let record := book.syncActiveFromIndex { record with dialIndex := 0 } now
    let book := book.put key record
    (if previous = record.multiaddr then book else book.clearBackoff key, .ok ())

def unregisterEndpoint (book : DialBook) (key : DialKey) : DialBook :=
  { book.clearBackoff key with
    endpoints := book.endpoints.filter fun entry => entry.1 != key }

/-- `AdvanceDialCandidate`, as far as there is a next candidate. -/
def canAdvance (record : EndpointRecord) : Bool :=
  decide (2 ≤ record.candidates.length ∧ record.dialIndex + 1 < record.candidates.length)

def advanceDialCandidate (book : DialBook) (key : DialKey) (now : Int) : DialBook × Bool :=
  match book.find key with
  | none => (book, false)
  | some record =>
      if canAdvance record then
        (book.modify key fun record =>
          book.syncActiveFromIndex { record with dialIndex := record.dialIndex + 1 } now, true)
      else (book, false)

def resetDialIndex (book : DialBook) (key : DialKey) (now : Int) : DialBook :=
  book.modify key fun record => book.syncActiveFromIndex { record with dialIndex := 0 } now

def promoteDialWinner (book : DialBook) (key : DialKey) (multiaddr : String) (now : Int) :
    DialBook :=
  if multiaddr = "" then book
  else book.modify key fun record => book.syncActiveFromIndex { record with
    candidates := insertCandidateFront record.candidates multiaddr
    dialIndex := 0 } now

/-- False for link-local, loopback and unspecified addresses. -/
def isRemotelyDialable (endpoint : IpEndpoint) : Bool :=
  let byte := fun index => (endpoint.addr.getD index 0).toNat
  match endpoint.family with
  | .v4 =>
      !(byte 0 == 169 && byte 1 == 254) && byte 0 != 127 &&
        !(byte 0 == 0 && byte 1 == 0 && byte 2 == 0 && byte 3 == 0)
  | .v6 =>
      !(byte 0 == 0xfe && byte 1 / 64 == 2) &&
        !((List.range 15).all (fun index => byte index == 0) && (byte 15 == 0 || byte 15 == 1))

/-- An address the peer says it has, that its record may take. -/
def mayTake (peerId : String) (merged : List String) (multiaddr : String) : Bool :=
  match parseAdpMultiaddr multiaddr with
  | .error _ => false
  | .ok parsed => (parsed.peerId == "" || parsed.peerId == peerId) &&
      isRemotelyDialable parsed.endpoint && !merged.contains multiaddr

/-- The loop of `IngestRemoteAddrs`. -/
def mergeAddrs (peerId : String) : List String → List String → List String
  | merged, [] => merged
  | merged, multiaddr :: rest =>
      if !mayTake peerId merged multiaddr then mergeAddrs peerId merged rest
      else if kMaxCandidatesPerKey ≤ merged.length + 1 then merged ++ [multiaddr]
      else mergeAddrs peerId (merged ++ [multiaddr]) rest

def ingestRemoteAddrs (book : DialBook) (peerId : String) (addrs : List String) (now : Int) :
    DialBook :=
  if peerId = "" then book
  else
    let target := ((book.records.find? fun entry => entry.2.peerId == peerId).map Prod.fst).getD peerId
    let known := (book.find target).elim [] EndpointRecord.candidates
    let merged := mergeAddrs peerId known addrs
    if merged = [] then book else (book.registerEndpoints target merged now).1

end Parsing

end DialBook

end Amp
