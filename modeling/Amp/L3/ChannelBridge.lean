import Amp.L3.SessionEnd

set_option autoImplicit false

/- Two channels' sessions spliced to each other (ChannelBridge.cpp). Their handlers are
the bridge's from `Attach` on. What `finish` and `Stop` still have to do waits while a
session's close is at its mux; the session's own calls wait on its stack. -/
namespace Amp

open Adp (Bytes)

/-- The sides of a bridge. -/
inductive BridgeSide where
  | left
  | right
  deriving DecidableEq, Repr

def BridgeSide.other : BridgeSide → BridgeSide
  | .left => .right
  | .right => .left

theorem BridgeSide.other_other (side : BridgeSide) : side.other.other = side := by
  cases side <;> rfl

namespace SessionMux

variable {τ : Type}

/-- What `EnqueueOutbound` returns. -/
def accepts (this : SessionMux τ) : Bool :=
  !(this.session.closed || !this.session.mux) &&
    (!this.session.full || this.session.policy.drop != .never)

/-- The closed callback was called. -/
def reported (this : SessionMux τ) : Bool := this.trace.any fun mark => mark.notice.isSome

/-- What the frame handler is given. -/
def payload : SessionMark → Option Bytes
  | .framed payload => some payload
  | _ => none

/-- The frame that the handler was called with since another state. -/
def handed (this before : SessionMux τ) : Option Bytes :=
  (this.trace.drop before.trace.length).findSome? payload

/-- `SetFrameHandler` and `SetClosedCallback`. -/
def arm (this : SessionMux τ) : SessionMux τ :=
  this.onSession fun session => { session with onFrame := true, onClosed := true }

end SessionMux

/-- A step of `finish` or of `Stop`. -/
inductive BridgeTask where
  /-- `CloseQuiet` of a session that is not closed. -/
  | quiet (side : BridgeSide)
  | onClosed
  /-- The same from `Stop`, which reads the bridge's own members. -/
  | stopQuiet (side : BridgeSide)
  | stopOnClosed
  /-- `Stop` lets go of its members. -/
  | release
  deriving DecidableEq, Repr

structure ChannelBridge (τ : Type) where
  sides : BridgeSide → SessionMux τ
  /-- `left_`, `right_` and the flags are set. -/
  attached : Bool := true
  /-- `on_closed_` is set. -/
  onClosed : Bool
  cancelled : Bool := false
  closedFired : Bool := false
  /-- What `user_cancel_` says. -/
  userCancel : Bool := false
  todo : List BridgeTask := []
  /-- What the frame handlers that wait for a write will return. -/
  answers : BridgeSide → List Bool := fun _ => []
  /-- Trace: the frames that a side's handler was given. -/
  received : BridgeSide → List Bytes := fun _ => []
  /-- Trace: the bodies that a side's `EnqueueOutbound` took. -/
  accepted : BridgeSide → List Bytes := fun _ => []
  /-- Trace: calls of `on_closed_`. -/
  calls : Nat := 0

namespace ChannelBridge

variable {τ : Type}

def finishTasks : List BridgeTask := [.quiet .left, .quiet .right, .onClosed]

def stopTasks : List BridgeTask := [.stopQuiet .left, .stopQuiet .right, .stopOnClosed, .release]

/-- `finish`, up to what it does to the sessions. -/
def finish (this : ChannelBridge τ) : ChannelBridge τ :=
  if this.closedFired then { this with cancelled := true }
  else { this with
    cancelled := true
    closedFired := true
    todo := finishTasks ++ this.todo }

/-- A session is taken to its next state; its closed callback, if it was called, finishes. -/
def settle (this : ChannelBridge τ) (side : BridgeSide) (after : SessionMux τ) : ChannelBridge τ :=
  let told := after.reported && !(this.sides side).reported
  let this := { this with sides := Function.update this.sides side after }
  if told then this.finish else this

def act (this : ChannelBridge τ) (side : BridgeSide) (event : SessionMux.Event) : ChannelBridge τ :=
  this.settle side ((this.sides side).step event)

def answer (this : ChannelBridge τ) (side : BridgeSide) (keepOpen : Bool) : ChannelBridge τ :=
  { this with answers := Function.update this.answers side (keepOpen :: this.answers side) }

/-- The frame handler of a side. -/
def onFrame (this : ChannelBridge τ) (side : BridgeSide) (body : Bytes) : ChannelBridge τ :=
  let this := { this with
    received := Function.update this.received side (this.received side ++ [body]) }
  if this.cancelled || this.userCancel then
    { this with cancelled := true }.act side (.returned false)
  else if !(this.sides side.other).accepts then (this.answer side false).finish
  else
    let this := this.answer side true
    { this with
      accepted := Function.update this.accepted side.other (this.accepted side.other ++ [body])
    }.act side.other (.call (.enqueueOutbound body))

def perform (this : ChannelBridge τ) : BridgeTask → ChannelBridge τ
  | .quiet side =>
      if (this.sides side).session.closed then this else this.act side (.call .closeQuiet)
  | .onClosed => if this.onClosed then { this with calls := this.calls + 1 } else this
  | .stopQuiet side =>
      if !this.attached || (this.sides side).session.closed then this
      else this.act side (.call .closeQuiet)
  | .stopOnClosed =>
      if this.attached && this.onClosed then { this with calls := this.calls + 1 } else this
  | .release => { this with attached := false }

/-- `Stop`, up to what it does to the sessions. -/
def stop (this : ChannelBridge τ) : ChannelBridge τ :=
  if !this.attached then this
  else if this.closedFired then { this with cancelled := true, attached := false }
  else { this with
    cancelled := true
    closedFired := true
    todo := stopTasks ++ this.todo }

/-- What happens to a bridge: something at one of its sessions (a call of it or of its mux,
or the return of what it waits for), the next step of `finish` or `Stop`, another word of
the user's, or `Stop`. -/
inductive Event where
  | session (side : BridgeSide) (event : SessionMux.Event)
  | go
  | userCancel (said : Bool)
  | stop

/-- A frame handler of the bridge returns what it had to say. -/
def returns (this : ChannelBridge τ) (side : BridgeSide) (said : Bool) : ChannelBridge τ :=
  match (this.sides side).stack, this.answers side with
  | .frame :: _, keepOpen :: rest =>
      { this with answers := Function.update this.answers side rest }.act side (.returned keepOpen)
  | _, _ => this.act side (.returned said)

def hear (this : ChannelBridge τ) (side : BridgeSide) (call : SessionMux.Call) : ChannelBridge τ :=
  match ((this.sides side).step (.call call)).handed (this.sides side) with
  | none => this.act side (.call call)
  | some body => (this.act side (.call call)).onFrame side body

def step (this : ChannelBridge τ) : Event → ChannelBridge τ
  | .session side (.call call) => this.hear side call
  | .session side (.returned said) => this.returns side said
  | .go =>
      match this.todo with
      | [] => this
      | task :: rest => { this with todo := rest }.perform task
  | .userCancel said => { this with userCancel := said }
  | .stop => this.stop

/-- `Attach` of a bridge to two sessions. -/
def attach (sides : BridgeSide → SessionMux τ) (onClosed : Bool) : ChannelBridge τ where
  sides := fun side => (sides side).arm
  onClosed := onClosed

end ChannelBridge

end Amp
