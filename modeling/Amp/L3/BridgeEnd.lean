import Amp.L3.ChannelBridge
import Amp.L3.SessionSteps

set_option autoImplicit false

/- What a bridge promises of the frames it forwards and of its end. -/
namespace Amp

open Adp (Bytes)

namespace SessionMux

variable {τ : Type} {this : SessionMux τ}

theorem handed_of_plain {before after : SessionMux τ} {quietly : Bool}
    (onward : Onward (Plain quietly) before after) : after.handed before = none := by
  obtain ⟨marks, trace, plain⟩ := onward.marks
  unfold handed
  rw [trace, List.drop_left, List.findSome?_eq_none_iff]
  intro mark listed
  have noFrame := (plain mark listed).1
  cases mark with
  | framed payload => cases noFrame
  | closing route => rfl
  | told reason => rfl

/-- The frame handler is called of a session that is open, and is what returns next. -/
theorem handed_frame {called : Call} {body : Bytes}
    (given : (this.step (.call called)).handed this = some body) :
    (this.step (.call called)).session.closed = false ∧
      ∃ rest, (this.step (.call called)).stack = .frame :: rest := by
  have notPlain : ∀ quietly, ¬ Onward (Plain quietly) this (this.step (.call called)) := by
    intro quietly plain
    rw [handed_of_plain plain] at given
    cases given
  by_cases quiet : called = .closeQuiet
  · rw [quiet] at notPlain
    exact absurd (closeBy_onward this .closeQuiet) (notPlain true)
  · rcases call_onward this quiet with plain | framed
    · exact absurd plain (notPlain false)
    · exact framed.2

end SessionMux

/-- The last part of a close that its owner is told of. -/
def Rest.reports : Rest → Bool
  | .finish route => route.reason.isSome
  | _ => false

namespace BridgeTask

def shuts (side : BridgeSide) (task : BridgeTask) : Bool :=
  task == .quiet side || task == .stopQuiet side

theorem side_of_quiet {side other : BridgeSide} (shut : shuts other (.quiet side) = true) :
    other = side := by
  revert shut
  cases side <;> cases other <;> decide

theorem side_of_stopQuiet {side other : BridgeSide} (shut : shuts other (.stopQuiet side) = true) :
    other = side := by
  revert shut
  cases side <;> cases other <;> decide

def tells (task : BridgeTask) : Bool := task == .onClosed || task == .stopOnClosed

/-- What is left of `finish` or of `Stop` closes a side. -/
def due (todo : List BridgeTask) (side : BridgeSide) : Bool := todo.any (shuts side)

/-- What is left calls `on_closed_`. -/
def owed (todo : List BridgeTask) : Bool := todo.any tells

end BridgeTask

namespace ChannelBridge

variable {τ : Type} {this : ChannelBridge τ}

section Invariant

/-- Each session as `Attach` armed it; what its closed callback or a `CloseQuiet` of the
bridge's says of it was heard. -/
structure Held (this : ChannelBridge τ) : Prop where
  phase : ∀ side, (this.sides side).Phase true
  bound : ∀ side, (this.sides side).session.closed = false → (this.sides side).session.mux = true
  told : ∀ side, (this.sides side).reported = true → this.closedFired = true
  silent : ∀ side, .closing .closeQuiet ∈ (this.sides side).trace → this.closedFired = true

/-- How far `finish` or `Stop` is, once one of them began. -/
structure Winding (this : ChannelBridge τ) : Prop where
  fresh : this.closedFired = false → this.todo = [] ∧ this.calls = 0
  cancels : this.closedFired = true → this.cancelled = true
  closes : this.closedFired = true →
    ∀ side, BridgeTask.due this.todo side = false → (this.sides side).session.closed = true
  calls : this.closedFired = true →
    this.calls = if this.onClosed && !BridgeTask.owed this.todo then 1 else 0
  plan : this.todo <:+ finishTasks ∨
    this.todo <:+ stopTasks ∧ ((∃ task ∈ this.todo, task ≠ .release) → this.attached = true)

/-- A bridge is cancelled once it finishes, or with a session that is closed. -/
def Stopping (this : ChannelBridge τ) : Prop :=
  this.cancelled = true → this.closedFired = true ∨ ∃ side, (this.sides side).session.closed = true

/-- What a side takes for sending is what its other received, up to a point. -/
structure Forwards (this : ChannelBridge τ) : Prop where
  ahead : ∀ side, this.accepted side.other <+: this.received side
  level : this.cancelled = false → ∀ side, this.accepted side.other = this.received side

structure Splicing (this : ChannelBridge τ) : Prop where
  held : this.Held
  winding : this.Winding
  stopping : this.Stopping
  forwards : this.Forwards

end Invariant

section Change

theorem Held.change {after : ChannelBridge τ} (held : this.Held) (sides : after.sides = this.sides)
    (fired : this.closedFired = true → after.closedFired = true) : after.Held := by
  refine ⟨?_, ?_, ?_, ?_⟩
  · rw [sides]
    exact held.phase
  · rw [sides]
    exact held.bound
  · rw [sides]
    exact fun side told => fired (held.told side told)
  · rw [sides]
    exact fun side marked => fired (held.silent side marked)

theorem Forwards.frame {after : ChannelBridge τ} (before : this.Forwards)
    (frames : after.received = this.received ∧ after.accepted = this.accepted)
    (cancels : this.cancelled = true → after.cancelled = true) : after.Forwards := by
  refine ⟨?_, ?_⟩
  · rw [frames.1, frames.2]
    exact before.ahead
  · intro goesOn
    rw [frames.1, frames.2]
    apply before.level
    by_contra cancelled
    rw [cancels (Bool.eq_true_of_not_eq_false cancelled)] at goesOn
    cases goesOn

/-- What the bridge still has to do, or has for its sessions to hear, changes. -/
theorem Splicing.change {after : ChannelBridge τ} (before : this.Splicing)
    (sides : after.sides = this.sides) (fired : after.closedFired = this.closedFired)
    (cancelled : after.cancelled = this.cancelled)
    (frames : after.received = this.received ∧ after.accepted = this.accepted)
    (winding : after.Winding) : after.Splicing where
  held := before.held.change sides fun before => fired.trans before
  winding := winding
  stopping := by
    unfold Stopping
    rw [cancelled, fired, sides]
    exact before.stopping
  forwards := before.forwards.frame frames fun before => cancelled.trans before

end Change

section Finish

theorem finish_fired (this : ChannelBridge τ) : this.finish.closedFired = true := by
  unfold finish
  split
  · assumption
  · rfl

theorem finish_cancelled (this : ChannelBridge τ) : this.finish.cancelled = true := by
  unfold finish
  split
  · rfl
  · rfl

theorem finish_sides (this : ChannelBridge τ) : this.finish.sides = this.sides := by
  unfold finish
  split
  · rfl
  · rfl

theorem finish_frames (this : ChannelBridge τ) :
    this.finish.received = this.received ∧ this.finish.accepted = this.accepted := by
  unfold finish
  split
  · exact ⟨rfl, rfl⟩
  · exact ⟨rfl, rfl⟩

/-- `finish` and `Stop` begin with a session for each side to close and `on_closed_` to call. -/
theorem begin_winding (before : this.Winding) (unfired : this.closedFired = false)
    {tasks : List BridgeTask} (plan : tasks <:+ finishTasks ∨
      tasks <:+ stopTasks ∧ this.attached = true)
    (due : ∀ side, BridgeTask.due tasks side = true) (owed : BridgeTask.owed tasks = true) :
    ({ this with cancelled := true, closedFired := true, todo := tasks ++ this.todo } :
      ChannelBridge τ).Winding := by
  obtain ⟨none, uncalled⟩ := before.fresh unfired
  have todo : tasks ++ this.todo = tasks := by rw [none, List.append_nil]
  rw [todo]
  refine ⟨nofun, fun _ => rfl, ?_, ?_, ?_⟩
  · intro _ side free
    rw [due side] at free
    cases free
  · intro _
    show this.calls = _
    rw [uncalled, owed, Bool.not_true, Bool.and_false]
    rfl
  · exact plan.imp_right fun stops => ⟨stops.1, fun _ => stops.2⟩

theorem finish_winding (before : this.Winding) : this.finish.Winding := by
  unfold finish
  split
  · rename_i fired
    exact ⟨before.fresh, fun _ => rfl, before.closes, before.calls, before.plan⟩
  · rename_i unfired
    apply begin_winding before (Bool.eq_false_of_not_eq_true unfired)
    · exact Or.inl (List.suffix_refl _)
    · intro side
      cases side <;> rfl
    · rfl

/-- An earlier `Stop` has yet to look at a session or to call `on_closed_`. -/
def stillStops (this : ChannelBridge τ) : Prop :=
  (∃ side, .stopQuiet side ∈ this.todo) ∨ .stopOnClosed ∈ this.todo

/-- `Stop`, but for one while another still closes the sessions. -/
theorem stop_winding (before : this.Winding) (alone : ¬ this.stillStops) :
    this.stop.Winding := by
  unfold stop
  split
  · exact before
  · rename_i attached
    split
    · refine ⟨before.fresh, fun _ => rfl, before.closes, before.calls, ?_⟩
      refine before.plan.imp_right fun stops => ⟨stops.1, ?_⟩
      rintro ⟨task, listed, goesOn⟩
      -- a task of `Stop` other than its last is one that `alone` rules out
      have member := stops.1.subset listed
      simp only [stopTasks, List.mem_cons, List.not_mem_nil, or_false] at member
      rcases member with rfl | rfl | rfl | rfl
      · exact absurd (Or.inl ⟨.left, listed⟩) alone
      · exact absurd (Or.inl ⟨.right, listed⟩) alone
      · exact absurd (Or.inr listed) alone
      · exact absurd rfl goesOn
    · rename_i unfired
      apply begin_winding before (Bool.eq_false_of_not_eq_true unfired)
      · refine Or.inr ⟨List.suffix_refl _, ?_⟩
        simpa using attached
      · intro side
        cases side <;> rfl
      · rfl

end Finish

section Settle

/-- A session is taken to its next state, and nothing said of it yet. -/
def put (this : ChannelBridge τ) (side : BridgeSide) (after : SessionMux τ) : ChannelBridge τ :=
  { this with sides := Function.update this.sides side after }

theorem settle_eq (this : ChannelBridge τ) (side : BridgeSide) (after : SessionMux τ) :
    this.settle side after = this.put side after ∨
      this.settle side after = (this.put side after).finish := by
  unfold settle
  dsimp only
  split
  · exact Or.inr rfl
  · exact Or.inl rfl

theorem settle_sides (this : ChannelBridge τ) (side : BridgeSide) (after : SessionMux τ) :
    (this.settle side after).sides = Function.update this.sides side after := by
  rcases this.settle_eq side after with same | same
  · rw [same]
    rfl
  · rw [same, finish_sides]
    rfl

theorem settle_frames (this : ChannelBridge τ) (side : BridgeSide) (after : SessionMux τ) :
    (this.settle side after).received = this.received ∧
      (this.settle side after).accepted = this.accepted := by
  rcases this.settle_eq side after with same | same
  · rw [same]
    exact ⟨rfl, rfl⟩
  · rw [same]
    exact (this.put side after).finish_frames

theorem settle_cancelled (cancelled : this.cancelled = true) (side : BridgeSide) (after : SessionMux τ) :
    (this.settle side after).cancelled = true := by
  rcases this.settle_eq side after with same | same
  · rw [same]
    exact cancelled
  · rw [same]
    exact finish_cancelled _

theorem settle_fired (fired : this.closedFired = true) (side : BridgeSide) (after : SessionMux τ) :
    (this.settle side after).closedFired = true := by
  rcases this.settle_eq side after with same | same
  · rw [same]
    exact fired
  · rw [same]
    exact finish_fired _

/-- A session whose closed callback was called has its bridge finish. -/
theorem settle_told {side : BridgeSide} {after : SessionMux τ}
    (heard : (this.sides side).reported = true → this.closedFired = true)
    (told : after.reported = true) : (this.settle side after).closedFired = true := by
  by_cases before : (this.sides side).reported = true
  · exact settle_fired (heard before) side after
  · unfold settle
    rw [told, Bool.eq_false_of_not_eq_true before]
    exact finish_fired _

theorem put_winding (before : this.Winding) {side : BridgeSide} {after : SessionMux τ}
    (closed : (this.sides side).session.closed = true → after.session.closed = true) :
    (this.put side after).Winding := by
  refine ⟨before.fresh, before.cancels, ?_, before.calls, before.plan⟩
  intro fired other free
  have shut := before.closes fired other free
  show (Function.update this.sides side after other).session.closed = true
  by_cases same : other = side
  · subst same
    rw [Function.update_self]
    exact closed shut
  · rw [Function.update_of_ne same]
    exact shut

theorem settle_winding (before : this.Winding) {side : BridgeSide} {after : SessionMux τ}
    (closed : (this.sides side).session.closed = true → after.session.closed = true) :
    (this.settle side after).Winding := by
  have put := put_winding before closed
  rcases this.settle_eq side after with same | same
  · rw [same]
    exact put
  · rw [same]
    exact finish_winding put

theorem settle_stopping (before : this.Stopping) {side : BridgeSide} {after : SessionMux τ}
    (closed : (this.sides side).session.closed = true → after.session.closed = true) :
    (this.settle side after).Stopping := by
  intro cancelled
  rcases this.settle_eq side after with same | same
  · rw [same] at cancelled ⊢
    rcases before cancelled with fired | ⟨other, shut⟩
    · exact Or.inl fired
    · right
      by_cases here : other = side
      · subst here
        refine ⟨other, ?_⟩
        show (Function.update this.sides other after other).session.closed = true
        rw [Function.update_self]
        exact closed shut
      · refine ⟨other, ?_⟩
        show (Function.update this.sides side after other).session.closed = true
        rw [Function.update_of_ne here]
        exact shut
  · rw [same]
    exact Or.inl (finish_fired _)

end Settle

section Act

/-- One step of a session, that is no `CloseQuiet` but for one of the bridge's own. -/
theorem act_held (held : this.Held) (side : BridgeSide) {event : SessionMux.Event}
    (quiet : event = .call .closeQuiet → this.closedFired = true) : (this.act side event).Held := by
  have onward := SessionMux.step_onward_any (held.phase side) event
  have kept : ∀ other, other ≠ side → (this.act side event).sides other = this.sides other := by
    intro other apart
    unfold act
    rw [settle_sides, Function.update_of_ne apart]
  have moved : (this.act side event).sides side = (this.sides side).step event := by
    unfold act
    rw [settle_sides, Function.update_self]
  refine ⟨?_, ?_, ?_, ?_⟩
  · intro other
    by_cases here : other = side
    · rw [here, moved]
      exact SessionMux.step_phase (held.phase side) event
    · rw [kept other here]
      exact held.phase other
  · intro other live
    by_cases here : other = side
    · rw [here, moved] at live ⊢
      obtain ⟨before, same⟩ := onward.live live
      rw [same]
      exact held.bound side before
    · rw [kept other here] at live ⊢
      exact held.bound other live
  · intro other told
    by_cases here : other = side
    · rw [here, moved] at told
      exact settle_told (held.told side) told
    · rw [kept other here] at told
      exact settle_fired (held.told other told) side _
  · intro other marked
    apply settle_fired
    by_cases here : other = side
    · rw [here, moved] at marked
      by_cases own : event = .call .closeQuiet
      · exact quiet own
      · obtain ⟨marks, trace, loud⟩ := (SessionMux.step_onward (held.phase side) own).marks
        rw [trace] at marked
        rcases List.mem_append.mp marked with old | new
        · exact held.silent side old
        · exact absurd rfl (loud _ new)
    · rw [kept other here] at marked
      exact held.silent other marked

theorem Held.closed (held : this.Held) {side : BridgeSide} {event : SessionMux.Event}
    (closed : (this.sides side).session.closed = true) :
    ((this.sides side).step event).session.closed = true :=
  (SessionMux.step_onward_any (held.phase side) event).closed closed

theorem act_splicing (before : this.Splicing) (side : BridgeSide) {event : SessionMux.Event}
    (quiet : event = .call .closeQuiet → this.closedFired = true) :
    (this.act side event).Splicing where
  held := act_held before.held side quiet
  winding := settle_winding before.winding before.held.closed
  stopping := settle_stopping before.stopping before.held.closed
  forwards := before.forwards.frame (settle_frames _ _ _) fun cancelled =>
    settle_cancelled cancelled _ _

theorem finish_splicing (held : this.Held) (winding : this.Winding)
    (ahead : ∀ side, this.accepted side.other <+: this.received side) : this.finish.Splicing where
  held := by
    refine ⟨?_, ?_, fun _ _ => finish_fired this, fun _ _ => finish_fired this⟩
    · rw [finish_sides]
      exact held.phase
    · rw [finish_sides]
      exact held.bound
  winding := finish_winding winding
  stopping := fun _ => Or.inl (finish_fired this)
  forwards := by
    refine ⟨?_, ?_⟩
    · rw [this.finish_frames.1, this.finish_frames.2]
      exact ahead
    · intro goesOn
      rw [finish_cancelled] at goesOn
      cases goesOn

end Act

section Frames

/-- A frame is noted as received. -/
def receive (this : ChannelBridge τ) (side : BridgeSide) (body : Bytes) : ChannelBridge τ :=
  { this with received := Function.update this.received side (this.received side ++ [body]) }

theorem receive_ahead (ahead : ∀ side, this.accepted side.other <+: this.received side)
    (side : BridgeSide) (body : Bytes) :
    ∀ other, (this.receive side body).accepted other.other <+: (this.receive side body).received other := by
  intro other
  show this.accepted other.other <+: Function.update this.received side _ other
  by_cases here : other = side
  · subst here
    rw [Function.update_self]
    exact (ahead other).trans (List.prefix_append _ _)
  · rw [Function.update_of_ne here]
    exact ahead other

/-- A frame that the other side takes is taken where it was received. -/
theorem pass_forwards {after : ChannelBridge τ} (before : this.Forwards)
    (goesOn : this.cancelled = false) (side : BridgeSide) (body : Bytes)
    (received : after.received = Function.update this.received side (this.received side ++ [body]))
    (accepted : after.accepted =
      Function.update this.accepted side.other (this.accepted side.other ++ [body])) :
    after.Forwards := by
  have level : ∀ other, after.accepted other.other = after.received other := by
    intro other
    have before := before.level goesOn other
    rw [received, accepted]
    by_cases here : other = side
    · subst here
      rw [Function.update_self, Function.update_self, before]
    · have apart : other.other ≠ side.other := by
        intro same
        apply here
        rw [← BridgeSide.other_other other, same, BridgeSide.other_other]
      rw [Function.update_of_ne here, Function.update_of_ne apart, before]
  refine ⟨?_, fun _ => level⟩
  exact fun other => ⟨[], (List.append_nil _).trans (level other)⟩

/-- The frame handler of a side, whose session waits for it. -/
theorem onFrame_splicing (before : this.Splicing) {side : BridgeSide}
    (live : (this.sides side).session.closed = false)
    {rest : List Rest} (top : (this.sides side).stack = .frame :: rest) (body : Bytes) :
    (this.onFrame side body).Splicing := by
  have ahead := receive_ahead before.forwards.ahead side body
  have bound := before.held.bound side live
  obtain ⟨held, winding, stopping, forwards⟩ := before
  unfold onFrame
  dsimp only
  split
  · -- the session is closed as its handler returns
    let cancelled : ChannelBridge τ := { this.receive side body with cancelled := true }
    have heldNow : cancelled.Held := ⟨held.phase, held.bound, held.told, held.silent⟩
    have closes : ((cancelled.sides side).step (.returned false)).session.closed = true :=
      SessionMux.returned_closes live bound top
    show (cancelled.act side (.returned false)).Splicing
    refine ⟨act_held heldNow side nofun, settle_winding ?_ heldNow.closed, ?_, ?_⟩
    · exact ⟨winding.fresh, fun _ => rfl, winding.closes, winding.calls, winding.plan⟩
    · intro _
      right
      refine ⟨side, ?_⟩
      unfold act
      rw [settle_sides, Function.update_self]
      exact closes
    · have kept : cancelled.Forwards := ⟨ahead, nofun⟩
      exact kept.frame (settle_frames _ _ _) fun cancelled => settle_cancelled cancelled _ _
  · rename_i goesOn
    rw [Bool.or_eq_true, not_or] at goesOn
    split
    · apply finish_splicing
      · exact ⟨held.phase, held.bound, held.told, held.silent⟩
      · exact ⟨winding.fresh, winding.cancels, winding.closes, winding.calls, winding.plan⟩
      · exact ahead
    · apply act_splicing
      · refine ⟨⟨held.phase, held.bound, held.told, held.silent⟩,
          ⟨winding.fresh, winding.cancels, winding.closes, winding.calls, winding.plan⟩,
          stopping, ?_⟩
        exact pass_forwards forwards (Bool.eq_false_of_not_eq_true goesOn.1) side body rfl rfl
      · exact nofun

end Frames

section Steps

theorem hear_splicing (before : this.Splicing) (side : BridgeSide) {call : SessionMux.Call}
    (loud : call ≠ .closeQuiet) : (this.hear side call).Splicing := by
  have acted : (this.act side (.call call)).Splicing := by
    apply act_splicing before side
    intro same
    cases same
    exact absurd rfl loud
  unfold hear
  split
  · exact acted
  · rename_i body given
    obtain ⟨live, rest, top⟩ := SessionMux.handed_frame given
    have moved : (this.act side (.call call)).sides side = (this.sides side).step (.call call) := by
      unfold act
      rw [settle_sides, Function.update_self]
    apply onFrame_splicing acted
    · rw [moved]
      exact live
    · rw [moved]
      exact top

theorem returns_splicing (before : this.Splicing) (side : BridgeSide) (said : Bool) :
    (this.returns side said).Splicing := by
  unfold returns
  split
  · apply act_splicing
    · obtain ⟨fresh, cancels, closes, calls, plan⟩ := before.winding
      exact before.change rfl rfl rfl ⟨rfl, rfl⟩ ⟨fresh, cancels, closes, calls, plan⟩
    · exact nofun
  · exact act_splicing before side nofun

/-- Each of them calls `on_closed_` once. -/
theorem owed_once {task : BridgeTask} {rest plan : List BridgeTask} (left : task :: rest <:+ plan)
    (plans : plan = finishTasks ∨ plan = stopTasks) (tells : task.tells = true) :
    BridgeTask.owed rest = false := by
  have once : plan.Pairwise fun first second => first.tells = true → second.tells = false := by
    rcases plans with rfl | rfl <;> decide
  have after := (List.pairwise_cons.mp (once.sublist left.sublist)).1
  unfold BridgeTask.owed
  rw [List.any_eq_false]
  intro other listed
  rw [after other listed tells]
  decide

/-- A task is done: a side that it is for is closed, and `on_closed_` called if it is that. -/
theorem turn_winding {after : ChannelBridge τ} (before : this.Winding) {task : BridgeTask}
    {rest : List BridgeTask} (todo : this.todo = task :: rest) (left : after.todo = rest)
    (fired : after.closedFired = true) (cancelled : after.cancelled = true)
    (given : after.onClosed = this.onClosed)
    (shuts : ∀ side, task.shuts side = true ∨ (this.sides side).session.closed = true →
      (after.sides side).session.closed = true)
    (calls : after.calls = this.calls + if task.tells && this.onClosed then 1 else 0)
    (attached : task ≠ .release → after.attached = this.attached) : after.Winding := by
  have begun : this.closedFired = true := by
    by_contra unfired
    have none := (before.fresh (Bool.eq_false_of_not_eq_true unfired)).1
    rw [todo] at none
    cases none
  have plan := before.plan
  rw [todo] at plan
  refine ⟨?_, fun _ => cancelled, ?_, ?_, ?_⟩
  · intro unfired
    rw [fired] at unfired
    cases unfired
  · intro _ side free
    apply shuts
    by_cases now : task.shuts side = true
    · exact Or.inl now
    · right
      apply before.closes begun
      rw [left] at free
      rw [todo]
      unfold BridgeTask.due at free ⊢
      rw [List.any_cons, free, Bool.or_false]
      exact Bool.eq_false_of_not_eq_true now
  · intro _
    have count := before.calls begun
    rw [calls, count, todo, left, given]
    unfold BridgeTask.owed
    rw [List.any_cons]
    by_cases tells : task.tells = true
    · have owedNot : BridgeTask.owed rest = false := by
        rcases plan with finishes | stops
        · exact owed_once finishes (Or.inl rfl) tells
        · exact owed_once stops.1 (Or.inr rfl) tells
      unfold BridgeTask.owed at owedNot
      rw [tells, owedNot]
      cases this.onClosed <;> rfl
    · rw [Bool.eq_false_of_not_eq_true tells, Bool.false_or, Bool.false_and, if_neg Bool.false_ne_true]
      rfl
  · rw [left]
    have tail : rest <:+ task :: rest := List.suffix_cons task rest
    rcases plan with finishes | stops
    · exact Or.inl (tail.trans finishes)
    · refine Or.inr ⟨tail.trans stops.1, ?_⟩
      rintro ⟨next, listed, goesOn⟩
      have last : stopTasks.Pairwise fun first second => first = .release → second = .release := by
        decide
      have after := (List.pairwise_cons.mp (last.sublist stops.1.sublist)).1 next listed
      rw [attached fun same => goesOn (after same)]
      exact stops.2 ⟨next, List.mem_cons_of_mem _ listed, goesOn⟩

/-- Once it finishes, nothing more begins. -/
theorem finish_again (fired : this.closedFired = true) (cancelled : this.cancelled = true) :
    this.finish = this := by
  unfold finish
  rw [if_pos fired]
  show { this with cancelled := true } = this
  rw [← cancelled]

theorem settle_again (fired : this.closedFired = true) (cancelled : this.cancelled = true)
    (side : BridgeSide) (after : SessionMux τ) : this.settle side after = this.put side after := by
  rcases this.settle_eq side after with same | same
  · exact same
  · rw [same]
    exact finish_again fired cancelled

theorem Winding.fired (winding : this.Winding) {task : BridgeTask} {rest : List BridgeTask}
    (todo : this.todo = task :: rest) : this.closedFired = true := by
  by_contra unfired
  have none := (winding.fresh (Bool.eq_false_of_not_eq_true unfired)).1
  rw [todo] at none
  cases none

/-- A `CloseQuiet` of the bridge's own, of a session that is not closed. -/
theorem closeQuiet_splicing (before : this.Splicing) {task : BridgeTask} {rest : List BridgeTask}
    (todo : this.todo = task :: rest) {side : BridgeSide}
    (own : ∀ other, task.shuts other = true → other = side) (silent : task.tells = false) :
    ((if (this.sides side).session.closed then { this with todo := rest }
      else ({ this with todo := rest } : ChannelBridge τ).act side (.call .closeQuiet)) :
        ChannelBridge τ).Splicing := by
  have fired := before.winding.fired todo
  have cancelled := before.winding.cancels fired
  have calls : this.calls = this.calls + if task.tells && this.onClosed then 1 else 0 := by
    rw [silent, Bool.false_and, if_neg Bool.false_ne_true, Nat.add_zero]
  split
  · rename_i closed
    refine before.change rfl rfl rfl ⟨rfl, rfl⟩ ?_
    refine turn_winding before.winding todo rfl fired cancelled rfl ?_ calls fun _ => rfl
    intro other shut
    rcases shut with shuts | already
    · rw [own other shuts]
      exact closed
    · exact already
  · rename_i live
    have live := Bool.eq_false_of_not_eq_true live
    have bound := before.held.bound side live
    let next : ChannelBridge τ := { this with todo := rest }
    have held : next.Held := before.held.change rfl id
    have nextFired : next.closedFired = true := fired
    have nextCancelled : next.cancelled = true := cancelled
    have closed : ((next.sides side).step (.call .closeQuiet)).session.closed = true :=
      SessionMux.closeBy_closes live bound .closeQuiet
    have last : next.act side (.call .closeQuiet) =
        next.put side ((next.sides side).step (.call .closeQuiet)) :=
      settle_again nextFired nextCancelled side _
    show (next.act side (.call .closeQuiet)).Splicing
    refine ⟨act_held held side fun _ => fired, ?_, ?_, ?_⟩
    · rw [last]
      refine turn_winding before.winding todo rfl fired cancelled rfl ?_ calls fun _ => rfl
      intro other shut
      show (Function.update this.sides side _ other).session.closed = true
      by_cases here : other = side
      · rw [here, Function.update_self]
        exact closed
      · rw [Function.update_of_ne here]
        exact shut.resolve_left fun shuts => here (own other shuts)
    · exact fun _ => Or.inl (settle_fired nextFired side _)
    · exact before.forwards.frame (settle_frames next side _) fun _ =>
        settle_cancelled nextCancelled side _

/-- `on_closed_` is called, if there is one. -/
theorem tell_splicing (before : this.Splicing) {task : BridgeTask} {rest : List BridgeTask}
    (todo : this.todo = task :: rest) (tells : task.tells = true)
    (apart : ∀ side, task.shuts side = false) :
    ((if this.onClosed then { this with todo := rest, calls := this.calls + 1 }
      else { this with todo := rest }) : ChannelBridge τ).Splicing := by
  have fired := before.winding.fired todo
  have cancelled := before.winding.cancels fired
  have kept : ∀ side, task.shuts side = true ∨ (this.sides side).session.closed = true →
      (this.sides side).session.closed = true := by
    intro side shut
    rw [apart side] at shut
    exact shut.resolve_left Bool.false_ne_true
  split
  · rename_i given
    refine before.change rfl rfl rfl ⟨rfl, rfl⟩ ?_
    refine turn_winding before.winding todo rfl fired cancelled rfl kept ?_ fun _ => rfl
    rw [given, tells]
    rfl
  · rename_i none
    refine before.change rfl rfl rfl ⟨rfl, rfl⟩ ?_
    refine turn_winding before.winding todo rfl fired cancelled rfl kept ?_ fun _ => rfl
    rw [Bool.eq_false_of_not_eq_true none, Bool.and_false]
    rfl

/-- `Stop` has its members until it lets go of them. -/
theorem Winding.attached (winding : this.Winding) {task : BridgeTask} {rest : List BridgeTask}
    (todo : this.todo = task :: rest) (stops : task ∉ finishTasks) (goesOn : task ≠ .release) :
    this.attached = true := by
  have plan := winding.plan
  rw [todo] at plan
  rcases plan with finishes | stopping
  · exact absurd (finishes.subset List.mem_cons_self) stops
  · exact stopping.2 ⟨task, List.mem_cons_self, goesOn⟩

theorem perform_splicing (before : this.Splicing) {task : BridgeTask} {rest : List BridgeTask}
    (todo : this.todo = task :: rest) :
    (({ this with todo := rest } : ChannelBridge τ).perform task).Splicing := by
  have fired := before.winding.fired todo
  have cancelled := before.winding.cancels fired
  cases task with
  | quiet side =>
      exact closeQuiet_splicing before todo (fun _ => BridgeTask.side_of_quiet) rfl
  | stopQuiet side =>
      have attached := before.winding.attached todo (by cases side <;> decide) nofun
      have closes : ({ this with todo := rest } : ChannelBridge τ).perform (.stopQuiet side) =
          if (this.sides side).session.closed then { this with todo := rest }
          else ({ this with todo := rest } : ChannelBridge τ).act side (.call .closeQuiet) := by
        dsimp only [perform]
        rw [attached]
        rfl
      rw [closes]
      exact closeQuiet_splicing before todo (fun _ => BridgeTask.side_of_stopQuiet) rfl
  | onClosed => exact tell_splicing before todo rfl fun side => by cases side <;> rfl
  | stopOnClosed =>
      have attached := before.winding.attached todo (by decide) nofun
      have calls : ({ this with todo := rest } : ChannelBridge τ).perform .stopOnClosed =
          if this.onClosed then { this with todo := rest, calls := this.calls + 1 }
          else { this with todo := rest } := by
        dsimp only [perform]
        rw [attached]
        rfl
      rw [calls]
      exact tell_splicing before todo rfl fun side => by cases side <;> rfl
  | release =>
      refine before.change rfl rfl rfl ⟨rfl, rfl⟩ ?_
      refine turn_winding before.winding todo rfl fired cancelled rfl ?_ rfl ?_
      · exact fun side shut => shut.resolve_left (by cases side <;> decide)
      · exact fun same => absurd rfl same

theorem stop_splicing (before : this.Splicing) (alone : ¬ this.stillStops) :
    this.stop.Splicing := by
  have winding := stop_winding before.winding alone
  unfold stop at winding ⊢
  split
  · exact before
  · rename_i attached
    rw [if_neg attached] at winding
    split
    · rename_i fired
      rw [if_pos fired] at winding
      exact ⟨before.held.change rfl id, winding, fun _ => Or.inl fired,
        before.forwards.frame ⟨rfl, rfl⟩ fun _ => rfl⟩
    · rename_i unfired
      rw [if_neg unfired] at winding
      exact ⟨before.held.change rfl fun _ => rfl, winding, fun _ => Or.inl rfl,
        before.forwards.frame ⟨rfl, rfl⟩ fun _ => rfl⟩

/-- The sessions are closed by what reports to their closed callback, and `Stop` is not
called while an earlier one still closes them or is to call `on_closed_`. -/
def Allowed (this : ChannelBridge τ) : Event → Prop
  | .session _ event => event ≠ .call .closeQuiet
  | .stop => ¬ this.stillStops
  | _ => True

theorem step_splicing (before : this.Splicing) {event : Event} (allowed : this.Allowed event) :
    (this.step event).Splicing := by
  cases event with
  | session side event =>
      cases event with
      | call called =>
          apply hear_splicing before side
          intro quiet
          exact allowed (by rw [quiet])
      | returned said => exact returns_splicing before side said
  | go =>
      dsimp only [step]
      split
      · exact before
      · rename_i task rest todo
        exact perform_splicing before todo
  | userCancel said =>
      obtain ⟨fresh, cancels, closes, calls, plan⟩ := before.winding
      exact before.change rfl rfl rfl ⟨rfl, rfl⟩ ⟨fresh, cancels, closes, calls, plan⟩
  | stop => exact stop_splicing before allowed

end Steps

section Outcome

/-- No callback is on its way, and the bridge has nothing left to do. -/
def Settled (this : ChannelBridge τ) : Prop :=
  this.todo = [] ∧ ∀ side, (this.sides side).stack = []

/-- The frames of a bridge are forwarded in order and once, and it ends with both sessions
closed and `on_closed_` called once. -/
structure Spliced (this : ChannelBridge τ) : Prop where
  forwarded : ∀ side, this.accepted side.other <+: this.received side
  once : this.calls ≤ 1
  ended : this.Settled →
    (this.cancelled = true ∨ ∃ side, (this.sides side).session.closed = true) →
    (∀ side, (this.sides side).session.closed = true) ∧ (this.onClosed = true → this.calls = 1)

/-- A session that is closed, with no callback on its way, was heard. -/
theorem Held.heard (held : this.Held) {side : BridgeSide}
    (idle : (this.sides side).stack = []) (closed : (this.sides side).session.closed = true) :
    this.closedFired = true := by
  cases held.phase side with
  | opened live =>
      rw [closed] at live
      cases live
  | closing route before above below shut trace frames set stack =>
      rw [idle] at stack
      exact absurd stack.symm (List.append_ne_nil_of_right_ne_nil _ (List.cons_ne_nil _ _))
  | finished route before shut trace =>
      cases silent : route.reason with
      | none =>
          have quiet : route = .closeQuiet := by
            cases route with
            | closeQuiet => rfl
            | _ => cases silent
          apply held.silent side
          rw [trace, quiet]
          exact List.mem_append_right _ List.mem_cons_self
      | some reason =>
          apply held.told side
          unfold SessionMux.reported
          rw [trace, List.any_append, List.any_cons]
          unfold SessionMux.notices
          rw [silent]
          simp [SessionMark.notice]

theorem Splicing.spliced (splicing : this.Splicing) : this.Spliced where
  forwarded := splicing.forwards.ahead
  once := by
    by_cases fired : this.closedFired = true
    · rw [splicing.winding.calls fired]
      split
      · exact Nat.le_refl 1
      · exact Nat.zero_le 1
    · rw [(splicing.winding.fresh (Bool.eq_false_of_not_eq_true fired)).2]
      exact Nat.zero_le 1
  ended := by
    intro settled ends
    have fired : this.closedFired = true := by
      rcases ends with cancelled | ⟨side, closed⟩
      · rcases splicing.stopping cancelled with fired | ⟨side, closed⟩
        · exact fired
        · exact splicing.held.heard (settled.2 side) closed
      · exact splicing.held.heard (settled.2 side) closed
    constructor
    · intro side
      apply splicing.winding.closes fired
      rw [settled.1]
      rfl
    · intro given
      rw [splicing.winding.calls fired, given, settled.1]
      rfl

/-- The closed callback of a session is still called when it ends. -/
def Hears (session : SessionMux τ) : Prop :=
  session.session.closed = true → session.stack.any Rest.reports = true

/-- A session as `Bind` and what came after it leave it. -/
structure Bound (callback : Bool) (session : SessionMux τ) : Prop where
  phase : session.Phase callback
  bound : session.session.closed = false → session.session.mux = true

theorem bound_run (mux : ReentrantMux τ) (channelId : UInt32) (policy : SessionPolicy)
    (onFrame callback : Bool) (history : List SessionMux.Event) :
    Bound callback (Run.exec SessionMux.step
      (SessionMux.bind mux channelId policy onFrame callback) history) := by
  apply Run.invariant_always
  · intro session event before
    refine ⟨SessionMux.step_phase before.phase event, ?_⟩
    intro live
    obtain ⟨open_, same⟩ := (SessionMux.step_onward_any before.phase event).live live
    rw [same]
    exact before.bound open_
  · exact ⟨SessionMux.bind_phase mux channelId policy onFrame callback, fun _ => rfl⟩

/-- What a session that hears is once its handlers are set. -/
theorem arm_phase {callback : Bool} {session : SessionMux τ} (phase : session.Phase callback)
    (hears : Hears session) : session.arm.Phase true ∧ session.arm.reported = false ∧
      .closing .closeQuiet ∉ session.arm.trace := by
  have frame : ∀ mark : SessionMark, mark.isFrame = true →
      ¬ mark.notice.isSome = true ∧ mark ≠ .closing .closeQuiet := by
    intro mark isFrame
    cases mark with
    | framed payload => exact ⟨Bool.false_ne_true, SessionMark.noConfusion⟩
    | closing route => cases isFrame
    | told reason => cases isFrame
  have waits (closed : session.session.closed = true) :
      ∃ route, .finish route ∈ session.stack ∧ route.reason.isSome = true := by
    obtain ⟨rest, held, reports⟩ := List.any_eq_true.mp (hears closed)
    cases rest with
    | finish route => exact ⟨route, held, reports⟩
    | _ => cases reports
  cases phase with
  | opened live frames set none =>
      refine ⟨.opened live frames rfl none, ?_, ?_⟩
      · exact List.any_eq_false.mpr fun mark listed => (frame mark (frames mark listed)).1
      · exact fun listed => (frame _ (frames _ listed)).2 rfl
  | closing route before above below closed trace frames set stack muxes none =>
      obtain ⟨other, held, reports⟩ := waits closed
      have same : other = route := by
        rw [stack] at held
        rcases List.mem_append.mp held with early | late
        · have passes := muxes _ early
          cases passes
        · rcases List.mem_cons.mp late with here | later
          · exact Rest.finish.inj here
          · have goesOn := none _ later
            cases goesOn
      refine ⟨.closing route before above below closed trace frames rfl stack muxes none, ?_, ?_⟩
      · refine List.any_eq_false.mpr fun mark listed => ?_
        have listed : mark ∈ session.trace := listed
        rw [trace] at listed
        rcases List.mem_append.mp listed with early | last
        · exact (frame mark (frames mark early)).1
        · rw [List.mem_singleton.mp last]
          exact Bool.false_ne_true
      · intro listed
        have listed : .closing .closeQuiet ∈ session.trace := listed
        rw [trace] at listed
        rcases List.mem_append.mp listed with early | last
        · exact (frame _ (frames _ early)).2 rfl
        · rw [same, ← SessionMark.closing.inj (List.mem_singleton.mp last)] at reports
          cases reports
  | finished route before closed trace frames noFrame noClosed none =>
      obtain ⟨other, held, _⟩ := waits closed
      have goesOn := none _ held
      cases goesOn

theorem attach_splicing {sides : BridgeSide → SessionMux τ} {callback : BridgeSide → Bool}
    (bound : ∀ side, Bound (callback side) (sides side)) (hears : ∀ side, Hears (sides side))
    (onClosed : Bool) : (attach sides onClosed).Splicing where
  held := by
    refine ⟨fun side => (arm_phase (bound side).phase (hears side)).1,
      fun side => (bound side).bound, ?_, ?_⟩
    · intro side told
      have silent : (sides side).arm.reported = true := told
      rw [(arm_phase (bound side).phase (hears side)).2.1] at silent
      cases silent
    · exact fun side marked => absurd marked (arm_phase (bound side).phase (hears side)).2.2
  winding := ⟨fun _ => ⟨rfl, rfl⟩, nofun, nofun, nofun, Or.inl List.nil_suffix⟩
  stopping := nofun
  forwards := ⟨fun _ => List.prefix_rfl, fun _ _ => rfl⟩

/-- A bridge attached to two sessions, each bound to its channel and through anything since
that leaves its closed callback to be called: the run keeps its promise in every state, if
no one else closes a session quietly and `Stop` is not called from within a `Stop`. -/
theorem attach_spliced (mux : BridgeSide → ReentrantMux τ) (channelId : BridgeSide → UInt32)
    (policy : BridgeSide → SessionPolicy) (onFrame callback : BridgeSide → Bool)
    (history : BridgeSide → List SessionMux.Event) (onClosed : Bool) (events : List Event)
    (hears : ∀ side, Hears (Run.exec SessionMux.step (SessionMux.bind (mux side) (channelId side)
      (policy side) (onFrame side) (callback side)) (history side)))
    (allowed : Run.Meets step Allowed (attach (fun side => Run.exec SessionMux.step
      (SessionMux.bind (mux side) (channelId side) (policy side) (onFrame side) (callback side))
      (history side)) onClosed) events) :
    Run.Always step Spliced (attach (fun side => Run.exec SessionMux.step
      (SessionMux.bind (mux side) (channelId side) (policy side) (onFrame side) (callback side))
      (history side)) onClosed) events := by
  apply Run.always_of_invariant step Allowed Splicing Spliced
  · exact fun _ _ allowed before => step_splicing before allowed
  · exact fun _ splicing => splicing.spliced
  · exact allowed
  · apply attach_splicing
    · exact fun side => bound_run _ _ _ _ _ _
    · exact hears

/-- A session bound to a channel the peer accepted. -/
def acceptedSession : SessionMux Unit := SessionMux.bind SessionMux.acceptedChannel 1 {} true true

theorem attach_spliced_sample : Run.Always step Spliced (attach (fun _ => acceptedSession) true)
    [.session .left (.call .close), .session .left (.returned true), .go, .go,
      .session .right (.returned true), .go] := by
  apply attach_spliced (fun _ => SessionMux.acceptedChannel) (fun _ => 1) (fun _ => {})
    (fun _ => true) (fun _ => true) (fun _ => []) true
  · exact fun _ closed => nomatch closed
  · exact ⟨nofun, nofun, trivial, trivial, nofun, trivial, trivial⟩

/-- A session that was closed before has its bridge never end; nor does a `Stop` from
within a `Stop` leave the other session closed. -/
theorem attach_leaves_open :
    ¬ Run.Always step Spliced (attach (fun side => Run.exec SessionMux.step acceptedSession
      (if side = .left then [.call .close, .returned true] else [])) true) [] ∧
    ¬ Run.Always step Spliced (attach (fun _ => acceptedSession) true)
      [.stop, .go, .stop, .session .left (.returned true), .go, .go, .go] := by
  constructor
  · intro always
    have ended := (Run.Always.last always).ended ⟨rfl, fun side => by cases side <;> rfl⟩
    have closed := (ended (Or.inr ⟨.left, by decide⟩)).1 .right
    revert closed
    decide
  · intro always
    have ended := (Run.Always.last always).ended ⟨rfl, fun side => by cases side <;> rfl⟩
    have closed := (ended (Or.inr ⟨.left, by decide⟩)).1 .right
    revert closed
    decide

end Outcome

end ChannelBridge

end Amp
