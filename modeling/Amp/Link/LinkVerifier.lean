import Amp.Link.ManagerTick

set_option autoImplicit false

/- The questions of `VerifyLink` and how they are answered (PeerLinkManager.cpp). Only
the calls here start or end a suspicion, and only the drops here erase a link; what
else the manager does to its links is left open. -/
namespace Amp

/-- Trace: a call of `VerifyLink`, and the Connected link that its key led to when it was made. -/
structure VerifyQuestion where
  link : Option PeerLink
  nowMs : Int
  heardWithinMs : Int

/-- Trace: on what ground a question was answered. -/
inductive VerifyGround where
  /-- At once, by what the call found. -/
  | asked
  /-- In a Tick, by a suspect link that was heard. -/
  | probed (link : PeerLink)
  | dropped (id : LinkId)

structure VerifyAnswer where
  call : Nat
  alive : Bool
  ground : VerifyGround

structure LinkVerifier where
  manager : PeerLinkManager
  /-- `verify_waiters_`, all links in the order of the calls. -/
  verifyWaiters : List (LinkId × Nat) := []
  /-- Trace: the calls so far; a call goes by its place here. -/
  questions : List VerifyQuestion := []
  /-- Trace: the callbacks posted. -/
  answers : List VerifyAnswer := []

inductive VerifyEvent where
  | verifyLink (key : DialKey) (heardWithinMs : Int)
  | networkChanged
  /-- `DropLinkNow`, by whatever route. -/
  | dropLink (handle : LinkHandle) (reason : LinkDropReason)
  | closeAllLinks
  /-- `Tick` from its walk over the links on; what comes before are other events. -/
  | tick
  | insertLink (link : PeerLink)
  /-- A packet received or anything else about a link but its suspicion. -/
  | changeLink (id : LinkId) (now : PeerLink)
  /-- Anything else of the manager but its links. -/
  | other (now : PeerLinkManager)
  | surroundings (around : Surroundings)

namespace PeerLink

/-- The link as it is now, the same link and under the same suspicion. -/
def becomes (link now : PeerLink) : PeerLink :=
  { now with
    id := link.id
    generation := link.generation
    isCarrierBacked := link.isCarrierBacked
    suspectSinceMs := link.suspectSinceMs
    suspectFromVerify := link.suspectFromVerify }

def unsuspected (link : PeerLink) : PeerLink :=
  { link with suspectSinceMs := 0, suspectFromVerify := false }

end PeerLink

namespace PeerLinkManager

/-- The same links, drops and clock, and anything else. -/
def otherwise (m now : PeerLinkManager) : PeerLinkManager :=
  { now with
    table := { now.table with
      nextId := m.table.nextId
      nextGeneration := m.table.nextGeneration
      links := m.table.links }
    limits := m.limits
    around := m.around
    drops := m.drops }

end PeerLinkManager

namespace LinkVerifier

open PeerLinkManager (answered clearSuspect)

def onManager (this : LinkVerifier) (change : PeerLinkManager → PeerLinkManager) : LinkVerifier :=
  { this with manager := change this.manager }

/-- The number of the next call. -/
def asked (this : LinkVerifier) : Nat := this.questions.length

/-- The call as it finds the manager. -/
def question (this : LinkVerifier) (key : DialKey) (heardWithinMs : Int) : VerifyQuestion :=
  ⟨this.manager.resolveConnectedLink key, this.manager.around.nowMs, heardWithinMs⟩

/-- A call answered before it waits. -/
def answerNow (this : LinkVerifier) (alive : Bool) (question : VerifyQuestion) : LinkVerifier :=
  { this with
    questions := this.questions ++ [question]
    answers := this.answers ++ [⟨this.asked, alive, .asked⟩] }

def joinVerifyWaiters (this : LinkVerifier) (id : LinkId) (question : VerifyQuestion) : LinkVerifier :=
  { this with
    questions := this.questions ++ [question]
    verifyWaiters := this.verifyWaiters ++ [(id, this.asked)] }

def verifyLink (this : LinkVerifier) (key : DialKey) (heardWithinMs : Int) : LinkVerifier :=
  let question := this.question key heardWithinMs
  match this.manager.resolveConnectedLink key with
  | none => this.answerNow false question
  | some link =>
      let rx := link.association.lastAuthRxMs
      if link.isCarrierBacked then this.answerNow true question
      else if 0 < rx ∧ this.manager.around.nowMs - rx ≤ heardWithinMs then
        this.answerNow true question
      else (this.joinVerifyWaiters link.id question).onManager fun m => m.verifyLink key heardWithinMs

def answerVerifyWaiters (this : LinkVerifier) (id : LinkId) (alive : Bool) (ground : VerifyGround) :
    LinkVerifier :=
  { this with
    verifyWaiters := this.verifyWaiters.filter fun waiter => waiter.1 != id
    answers := this.answers ++ (this.verifyWaiters.filter fun waiter => waiter.1 == id).map
      fun waiter => ⟨waiter.2, alive, ground⟩ }

/-- `DropLinkNow` of a live link, and the answer at its end. -/
def dropLinkByHandle (this : LinkVerifier) (handle : LinkHandle) (reason : LinkDropReason) :
    LinkVerifier :=
  match this.manager.table.findLive handle with
  | none => this
  | some link => (this.onManager fun m => m.dropLinkNow link reason).answerVerifyWaiters link.id
      false (.dropped link.id)

def dropAll (this : LinkVerifier) (drops : List (LinkHandle × LinkDropReason)) : LinkVerifier :=
  Run.exec (fun this drop => this.dropLinkByHandle drop.1 drop.2) this drops

def closeAllLinks (this : LinkVerifier) : LinkVerifier :=
  let nested := this.manager.table.forEach.filter fun link => link.isCarrierBacked
  let adp := this.manager.table.forEach.filter fun link => !link.isCarrierBacked
  (this.onManager fun m => { m with pendingDrops := [] }).dropAll
    ((nested ++ adp).map fun link => (link.handle, .localShutdown))

/-- The suspects that answered: their questions are answered and their suspicion ends. -/
def clearAnswered (this : LinkVerifier) : LinkVerifier :=
  (Run.exec (fun this (link : PeerLink) => this.answerVerifyWaiters link.id true (.probed link)) this
    (this.manager.table.forEach.filter answered)).onManager fun m =>
      { m with table := { m.table with links := m.table.links.map clearSuspect } }

def tick (this : LinkVerifier) : LinkVerifier :=
  this.clearAnswered.dropAll this.clearAnswered.manager.evictions

def step (this : LinkVerifier) : VerifyEvent → LinkVerifier
  | .verifyLink key heardWithinMs => this.verifyLink key heardWithinMs
  | .networkChanged => this.onManager PeerLinkManager.onNetworkChanged
  | .dropLink handle reason => this.dropLinkByHandle handle reason
  | .closeAllLinks => this.closeAllLinks
  | .tick => this.tick
  | .insertLink link => this.onManager fun m => m.insertLink link.unsuspected
  | .changeLink id now => this.onManager fun m => m.modifyLink id fun link => link.becomes now
  | .other now => this.onManager fun m => m.otherwise now
  | .surroundings around => this.onManager fun m => { m with around := around }

end LinkVerifier

end Amp
