import Amp.Lib.Run

set_option autoImplicit false

/- Posted work, timers and the turns in which they run (MeshRuntime.cpp). A turn is
a list of stages still to come; what a task does are the calls made after it began
and before the turn goes on. -/
namespace Amp

structure TimerEntry (α : Type) where
  id : UInt64
  deadlineMs : Int
  task : α
  /-- Trace: how many were armed before it. -/
  serial : Nat

structure IoTickEntry (α : Type) where
  id : UInt64
  tick : α

inductive Stage (α : Type) where
  /-- The io ticks that `PumpLocked` has not come to. -/
  | ioTicks (ids : List UInt64)
  | drainPostedIo (budget : Nat)
  | pump
  | tick
  /-- `DrainDeferredLocked`, with what is left of its batch. -/
  | drainDeferred (batch : List α)
  | fireTimers
  /-- The due tasks that `FireTimersLocked` has not come to. -/
  | dueTimers (batch : List (TimerEntry α))

/-- Trace: a timer as it was armed, for when it was asked, and after how many passes of
`FireTimersLocked`. -/
structure TimerArm where
  id : UInt64
  deadlineMs : Int
  askedMs : Int
  passes : Nat
  deriving DecidableEq, Repr

/-- Trace: a timer's task as it began, and in which pass. -/
structure TimerRun where
  serial : Nat
  nowMs : Int
  pass : Nat
  deriving DecidableEq, Repr

structure MeshRuntime (α : Type) where
  nowMs : Int := 0
  ioQueue : List α := []
  deferredQueue : List α := []
  timers : List (TimerEntry α) := []
  ioTicks : List (IoTickEntry α) := []
  nextIoTickId : UInt64 := 1
  nextTimerId : UInt64 := 1
  /-- The stages of the turn under way; none outside a turn. -/
  agenda : List (Stage α) := []
  passes : Nat := 0
  armed : List TimerArm := []
  ran : List TimerRun := []
  /-- Trace: the timers whose ids were given to `CancelTimer` before their tasks began. -/
  cancelled : List Nat := []

inductive RuntimeCall (α : Type) where
  | postToIo (task : Option α)
  | postDeferred (task : Option α)
  | postAfter (delayMs : Int) (task : Option α)
  | postAt (deadlineMs : Int) (task : Option α)
  | cancelTimer (id : UInt64)
  | addIoTick (tick : Option α)
  | removeIoTick (id : UInt64)
  | pump
  | tick
  | drive
  | stop
  /-- Time passes on the clock. -/
  | elapse (ms : Nat)

inductive RuntimeEvent (α : Type) where
  | call (call : RuntimeCall α)
  /-- The turn under way goes on to its next task. -/
  | advance

def kIoBudget : Nat := 32

/-- The id after this one; 0 is none. -/
def nextIdAfter (id : UInt64) : UInt64 := if id + 1 = 0 then 1 else id + 1

/-- Times are `int64_t`. -/
def inInt64 (ms : Int) : Int := ms.bmod (2 ^ 64)

namespace MeshRuntime

variable {α : Type}

def driving (m : MeshRuntime α) : Bool := !m.agenda.isEmpty

/-- `BeginDriveLocked` and the stages it lets run; a nested turn is refused. -/
def begin (m : MeshRuntime α) (stages : List (Stage α)) : MeshRuntime α :=
  if m.driving then m else { m with agenda := stages }

/-- `PumpLocked`. -/
def pumpStages (m : MeshRuntime α) : List (Stage α) :=
  [.ioTicks (m.ioTicks.map IoTickEntry.id), .drainPostedIo kIoBudget, .pump]

/-- `Tick` within its lock. -/
def tickStages : List (Stage α) :=
  [.tick, .drainPostedIo kIoBudget, .drainDeferred [], .fireTimers, .drainDeferred []]

def pump (m : MeshRuntime α) : MeshRuntime α := m.begin (m.pumpStages ++ [.drainDeferred []])

def tick (m : MeshRuntime α) : MeshRuntime α := m.begin tickStages

def drive (m : MeshRuntime α) : MeshRuntime α := m.begin (m.pumpStages ++ tickStages)

def postToIo (m : MeshRuntime α) : Option α → MeshRuntime α
  | none => m
  | some task => { m with ioQueue := m.ioQueue ++ [task] }

def postDeferred (m : MeshRuntime α) : Option α → MeshRuntime α
  | none => m
  | some task => { m with deferredQueue := m.deferredQueue ++ [task] }

/-- `ArmTimerLocked` past its check. -/
def armTimer (m : MeshRuntime α) (askedMs : Int) (task : α) : MeshRuntime α :=
  { m with
    nextTimerId := nextIdAfter m.nextTimerId
    timers := m.timers ++ [⟨m.nextTimerId, inInt64 askedMs, task, m.armed.length⟩]
    armed := m.armed ++ [⟨m.nextTimerId, inInt64 askedMs, askedMs, m.passes⟩] }

def postAt (m : MeshRuntime α) (deadlineMs : Int) : Option α → MeshRuntime α × UInt64
  | none => (m, 0)
  | some task => (m.armTimer deadlineMs task, m.nextTimerId)

def afterMs (m : MeshRuntime α) (delayMs : Int) : Int := m.nowMs + max 0 delayMs

def postAfter (m : MeshRuntime α) (delayMs : Int) (task : Option α) : MeshRuntime α × UInt64 :=
  m.postAt (m.afterMs delayMs) task

/-- The timers of this id whose tasks have not begun. -/
def pendingWith (m : MeshRuntime α) (id : UInt64) : List Nat :=
  (List.range m.armed.length).filter fun serial =>
    (m.armed[serial]?).any (fun arm => arm.id == id) && m.ran.all fun run => run.serial != serial

def cancelTimer (m : MeshRuntime α) (id : UInt64) : MeshRuntime α :=
  if id = 0 then m
  else { m with
    timers := m.timers.eraseP fun entry => entry.id == id
    cancelled := m.cancelled ++ m.pendingWith id }

def addIoTick (m : MeshRuntime α) : Option α → MeshRuntime α
  | none => m
  | some tick => { m with
      nextIoTickId := nextIdAfter m.nextIoTickId
      ioTicks := m.ioTicks ++ [⟨m.nextIoTickId, tick⟩] }

def removeIoTick (m : MeshRuntime α) (id : UInt64) : MeshRuntime α :=
  { m with ioTicks := m.ioTicks.eraseP fun entry => id != 0 && entry.id == id }

/-- `Stop`; what it tells the peers is not part of this. -/
def stop (m : MeshRuntime α) : MeshRuntime α :=
  { m with ioQueue := [], deferredQueue := [], timers := [], ioTicks := [] }

def call (m : MeshRuntime α) : RuntimeCall α → MeshRuntime α
  | .postToIo task => m.postToIo task
  | .postDeferred task => m.postDeferred task
  | .postAfter delayMs task => (m.postAfter delayMs task).1
  | .postAt deadlineMs task => (m.postAt deadlineMs task).1
  | .cancelTimer id => m.cancelTimer id
  | .addIoTick tick => m.addIoTick tick
  | .removeIoTick id => m.removeIoTick id
  | .pump => m.pump
  | .tick => m.tick
  | .drive => m.drive
  | .stop => m.stop
  | .elapse ms => { m with nowMs := m.nowMs + ms }

def isDue (m : MeshRuntime α) (entry : TimerEntry α) : Bool := decide (entry.deadlineMs ≤ m.nowMs)

/-- `FireTimersLocked` up to the first task: those due are moved out. -/
def collectDue (m : MeshRuntime α) (rest : List (Stage α)) : MeshRuntime α :=
  { m with
    timers := m.timers.filter fun entry => !m.isDue entry
    agenda := .dueTimers (m.timers.filter m.isDue) :: rest
    passes := m.passes + 1 }

/-- The next step of a turn, and the task that begins with it if one does. -/
def advance (m : MeshRuntime α) : MeshRuntime α × Option α :=
  match m.agenda with
  | [] => (m, none)
  | .ioTicks [] :: rest => ({ m with agenda := rest }, none)
  | .ioTicks (id :: ids) :: rest =>
      ({ m with agenda := .ioTicks ids :: rest },
        (m.ioTicks.find? fun entry => entry.id == id).map IoTickEntry.tick)
  | .drainPostedIo 0 :: rest => ({ m with agenda := rest }, none)
  | .drainPostedIo (budget + 1) :: rest =>
      match m.ioQueue with
      | [] => ({ m with agenda := rest }, none)
      | task :: queue => ({ m with ioQueue := queue, agenda := .drainPostedIo budget :: rest }, task)
  | .pump :: rest => ({ m with agenda := rest }, none)
  | .tick :: rest => ({ m with agenda := rest }, none)
  | .drainDeferred [] :: rest =>
      match m.deferredQueue with
      | [] => ({ m with agenda := rest }, none)
      | task :: batch =>
          ({ m with deferredQueue := [], agenda := .drainDeferred (task :: batch) :: rest }, none)
  | .drainDeferred (task :: batch) :: rest =>
      ({ m with agenda := .drainDeferred batch :: rest }, task)
  | .fireTimers :: rest => (m.collectDue rest, none)
  | .dueTimers [] :: rest => ({ m with agenda := rest }, none)
  | .dueTimers (entry :: batch) :: rest =>
      ({ m with
        agenda := .dueTimers batch :: rest
        ran := m.ran ++ [⟨entry.serial, m.nowMs, m.passes⟩] }, entry.task)

def step (m : MeshRuntime α) : RuntimeEvent α → MeshRuntime α
  | .call made => m.call made
  | .advance => m.advance.1

end MeshRuntime

end Amp
