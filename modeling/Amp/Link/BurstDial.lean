import Amp.Link.PostedWork
import Amp.Link.PresenceIndex

set_option autoImplicit false

/- `MeshRuntime::BurstDial`: a few addresses dialed at once until one connects or the
window ends (MeshRuntime.cpp), with the manager whose dials they are. -/
namespace Amp

open PeerLinkManager (Event)

structure BurstDialResult where
  ok : Bool := false
  dialed : String := ""
  error : String := ""
  deriving DecidableEq, Repr

/-- The `State` of one job. -/
structure BurstJob where
  settled : Bool := false
  keys : List DialKey := []
  peerIds : List String := []
  multiaddrs : List String := []
  lastError : String := ""
  /-- Trace: when its window ends; none as long as no timer was armed for it. -/
  windowEndsMs : Option Int := none
  deriving DecidableEq, Repr

/-- What is posted and armed, a job by its number. -/
inductive BurstTask where
  | settle (job : Nat) (result : BurstDialResult)
  | window (job : Nat)
  | poll (job : Nat)
  /-- Anything another caller posts. -/
  | other (task : Nat)
  deriving DecidableEq, Repr

/-- Trace: a job's `on_done` as it was called, and the manager before its dials were
cleared away and after. -/
structure Settlement where
  job : Nat
  result : BurstDialResult
  keys : List DialKey
  /-- The keys of the other jobs not yet done. -/
  others : List DialKey
  before : PeerLinkManager
  after : PeerLinkManager

structure BurstRuntime where
  runtime : MeshRuntime BurstTask := {}
  manager : PeerLinkManager
  jobs : List BurstJob := []
  settlements : List Settlement := []

inductive BurstEvent where
  /-- A call, and what the callbacks it gives to `EnsureAssociation` are told before the
  call returns. -/
  | burstDial (multiaddrs : List String) (windowMs : Int) (told : Nat → Option String)
  /-- A callback given to `EnsureAssociation` is told of a failure later. -/
  | associationFailed (job : Nat) (message : String)
  /-- A call of the manager, or its `Tick` in a turn. -/
  | manager (event : Event)
  | call (call : RuntimeCall Nat)
  | advance

def kMaxBurstAddrs : Nat := 8

def kDefaultBurstWindowMs : Int := 2000

/-- One turn of the loop that picks the addresses. -/
def takeBurstAddr [MultiaddrParser] (addrs : List String) (multiaddr : String) : List String :=
  if kMaxBurstAddrs ≤ addrs.length then addrs
  else if multiaddr = "" then addrs
  else
    match MultiaddrParser.parseAdpMultiaddr multiaddr with
    | .error _ => addrs
    | .ok _ => if multiaddr ∈ addrs then addrs else addrs ++ [multiaddr]

def burstAddrs [MultiaddrParser] (multiaddrs : List String) : List String :=
  multiaddrs.foldl takeBurstAddr []

/-- The key an address is dialed under. -/
def burstKey (index : Nat) (peerId : String) : DialKey :=
  kBurstDialKeyPrefix ++ toString index ++ ":" ++ (peerId.take 12).toString

/-- The keys under which a call is to dial: of the addresses up to the first whose peer is
connected. -/
def burstKeys [MultiaddrParser] (m : PeerLinkManager) : Nat → List String → List DialKey
  | _, [] => []
  | index, multiaddr :: rest =>
      match MultiaddrParser.parseAdpMultiaddr multiaddr with
      | .error _ => burstKeys m (index + 1) rest
      | .ok parsed =>
          if m.isConnectedToPeerId parsed.peerId then []
          else burstKey index parsed.peerId :: burstKeys m (index + 1) rest

namespace RuntimeCall

variable {α β : Type}

def map (f : α → β) : RuntimeCall α → RuntimeCall β
  | .postToIo task => .postToIo (task.map f)
  | .postDeferred task => .postDeferred (task.map f)
  | .postAfter delayMs task => .postAfter delayMs (task.map f)
  | .postAt deadlineMs task => .postAt deadlineMs (task.map f)
  | .cancelTimer id => .cancelTimer id
  | .addIoTick entry => .addIoTick (entry.map f)
  | .removeIoTick id => .removeIoTick id
  | .pump => .pump
  | .tick => .tick
  | .drive => .drive
  | .stop => .stop
  | .elapse ms => .elapse ms

end RuntimeCall

namespace BurstRuntime

variable [MultiaddrParser]

def modifyJob (this : BurstRuntime) (job : Nat) (change : BurstJob → BurstJob) : BurstRuntime :=
  { this with jobs := this.jobs.modify job change }

/-- `finish`; only the first counts. -/
def finish (this : BurstRuntime) (job : Nat) (result : BurstDialResult) : BurstRuntime :=
  if this.jobs[job]?.all BurstJob.settled then this
  else { this.modifyJob job fun state => { state with settled := true } with
    runtime := this.runtime.postDeferred (some (.settle job result)) }

/-- An address of a job is dialed under its own key; true when the job is done already. -/
def dialAddr (this : BurstRuntime) (job index : Nat) (multiaddr : String) (told : Option String) :
    BurstRuntime × Bool :=
  match MultiaddrParser.parseAdpMultiaddr multiaddr with
  | .error _ => (this.modifyJob job fun state =>
      { state with lastError := "peer addr is not an ADP multiaddr" }, false)
  | .ok parsed =>
      let won : BurstDialResult := { ok := true, dialed := multiaddr }
      if this.manager.isConnectedToPeerId parsed.peerId then (this.finish job won, true)
      else
        let key := burstKey index parsed.peerId
        match this.manager.book.registerEndpoint key multiaddr this.manager.around.steadyMs with
        | (_, .error message) =>
            if this.manager.isConnectedToPeerId parsed.peerId then (this.finish job won, true)
            else (this.modifyJob job fun state => { state with lastError := message }, false)
        | (book, .ok ()) =>
            let dialed := { this with
              manager := { this.manager with book := book }.ensureAssociation key (some job) }
            (dialed.modifyJob job fun state => { state with
              keys := state.keys ++ [key]
              peerIds := state.peerIds ++ [parsed.peerId]
              multiaddrs := state.multiaddrs ++ [multiaddr]
              lastError := told.getD state.lastError }, false)

def dialAddrs (this : BurstRuntime) (job : Nat) (told : Nat → Option String) :
    Nat → List String → BurstRuntime × Bool
  | _, [] => (this, false)
  | index, multiaddr :: rest =>
      match this.dialAddr job index multiaddr (told index) with
      | (this, true) => (this, true)
      | (this, false) => this.dialAddrs job told (index + 1) rest

/-- What the job fails with, once it has failed. -/
def failure (state : BurstJob) (otherwise : String) : BurstDialResult :=
  { error := if state.lastError = "" then otherwise else state.lastError
    dialed := state.multiaddrs.getLastD "" }

/-- The window's timer, and the first look at what has connected. -/
def startPolling (m : MeshRuntime BurstTask) (job : Nat) (windowMs : Int) : MeshRuntime BurstTask :=
  ((m.postAfter windowMs (some (.window job))).1).postToIo (some (.poll job))

def burstDial (this : BurstRuntime) (multiaddrs : List String) (windowMs : Int)
    (told : Nat → Option String) : BurstRuntime :=
  let job := this.jobs.length
  let addrs := burstAddrs multiaddrs
  let this := { this with jobs := this.jobs ++ [({} : BurstJob)] }
  if addrs = [] then this.finish job { error := "no peer_addrs" }
  else
    match this.dialAddrs job told 0 addrs with
    | (this, true) => this
    | (this, false) =>
        let state := this.jobs[job]?.getD {}
        if state.keys = [] then this.finish job (failure state "no peer_addrs")
        else
          -- `static_cast<int>`
          let windowMs := if 0 < windowMs then windowMs.bmod (2 ^ 32) else kDefaultBurstWindowMs
          let armed := this.modifyJob job fun state =>
            { state with windowEndsMs := some (inInt64 (this.runtime.afterMs windowMs)) }
          { armed with runtime := startPolling this.runtime job windowMs }

/-- A dial that a settled job leaves alone: it has won. -/
def hasWon (m : PeerLinkManager) (result : BurstDialResult) (dial : DialKey × String) : Bool :=
  result.ok && (m.isConnectedToPeerId dial.2 ||
    (m.findLink dial.1).any fun link => link.connected && link.transport == .adp)

def abortDials (m : PeerLinkManager) (result : BurstDialResult) (dials : List (DialKey × String)) :
    PeerLinkManager :=
  dials.foldl (fun m dial => if hasWon m result dial then m else m.abortInflightDial dial.1) m

def unregisterKeys (m : PeerLinkManager) (keys : List DialKey) : PeerLinkManager :=
  { m with book := keys.foldl DialBook.unregisterEndpoint m.book }

/-- The job's `on_done` has been called. -/
def isDone (this : BurstRuntime) (job : Nat) : Bool :=
  this.settlements.any fun settlement => settlement.job == job

def othersOf (this : BurstRuntime) (job : Nat) : List DialKey :=
  (this.jobs.zipIdx.filter fun other => other.2 != job && !this.isDone other.2).flatMap fun other =>
    other.1.keys

/-- The deferred end of a job: its dials are cleared away, then `on_done` is called. -/
def settle (this : BurstRuntime) (job : Nat) (result : BurstDialResult) : BurstRuntime :=
  let state := this.jobs[job]?.getD {}
  let after := unregisterKeys
    (abortDials this.manager result (state.keys.zip state.peerIds)) state.keys
  { this with
    manager := after
    settlements := this.settlements ++
      [⟨job, result, state.keys, this.othersOf job, this.manager, after⟩] }

/-- A task of a job. What another caller's task does are calls of their own. -/
def runTask (this : BurstRuntime) : BurstTask → BurstRuntime
  | .settle job result => this.settle job result
  | .window job =>
      this.finish job (failure (this.jobs[job]?.getD {}) "punch burst window expired")
  | .poll job =>
      let state := this.jobs[job]?.getD {}
      if state.settled then this
      else
        match (state.peerIds.zip state.multiaddrs).find? fun dial =>
            this.manager.isConnectedToPeerId dial.1 with
        | some dial => this.finish job { ok := true, dialed := dial.2 }
        | none => { this with runtime := this.runtime.postToIo (some (.poll job)) }
  | .other _ => this

def associationFailed (this : BurstRuntime) (job : Nat) (message : String) : BurstRuntime :=
  this.modifyJob job fun state =>
    if state.settled then state else { state with lastError := message }

/-- The next step of a turn, with the task that begins run through. -/
def advance (this : BurstRuntime) : BurstRuntime :=
  match this.runtime.advance with
  | (runtime, none) => { this with runtime := runtime }
  | (runtime, some task) => { this with runtime := runtime }.runTask task

/-- `Stop` closes the manager's links first. -/
def stopping (m : PeerLinkManager) : RuntimeCall Nat → PeerLinkManager
  | .stop => m.closeAllLinks
  | _ => m

def step (this : BurstRuntime) : BurstEvent → BurstRuntime
  | .burstDial multiaddrs windowMs told => this.burstDial multiaddrs windowMs told
  | .associationFailed job message => this.associationFailed job message
  | .manager event => { this with manager := this.manager.step event }
  | .call made => { this with
      runtime := this.runtime.call (made.map .other)
      manager := stopping this.manager made }
  | .advance => this.advance

def create (manager : PeerLinkManager) : BurstRuntime := { manager := manager }

end BurstRuntime

end Amp
