import Amp.Lib.Served
import Amp.Link.RuntimeTimers

set_option autoImplicit false

/- Posted tasks through a run of a runtime: each begins once, in the order of posting,
unless a `Stop` comes first. -/
namespace Amp

open Served (Line)

namespace Stage

variable {α : Type}

/-- What a stage of `DrainDeferredLocked` has taken out of the queue and not begun. -/
def held : Stage α → List α
  | .drainDeferred batch => batch
  | _ => []

/-- How many posted tasks a stage may still begin. -/
def allowance : Stage α → Nat
  | .drainPostedIo budget => budget
  | _ => 0

/-- How many steps a stage can take by itself, `DrainDeferredLocked` for what it holds. -/
def effort : Stage α → Nat
  | .ioTicks ids => ids.length + 1
  | .drainPostedIo budget => budget + 1
  | .pump => 1
  | .tick => 1
  | .drainDeferred batch => batch.length + 1
  | .fireTimers => 2
  | .dueTimers batch => batch.length + 1

theorem effort_pos (stage : Stage α) : 0 < stage.effort := by
  cases stage <;> exact Nat.succ_pos _

end Stage

namespace MeshRuntime

variable {α : Type}

/-- Deferred and not begun: what a drain holds goes first. -/
def deferred (m : MeshRuntime α) : List α := m.agenda.flatMap Stage.held ++ m.deferredQueue

def allowance (m : MeshRuntime α) : Nat := (m.agenda.map Stage.allowance).sum

def effort (m : MeshRuntime α) : Nat :=
  (m.agenda.map Stage.effort).sum + m.timers.length + 2 * m.deferredQueue.length

def ioJoins : RuntimeEvent α → List α
  | .call (.postToIo task) => task.toList
  | _ => []

def ioBegun (m : MeshRuntime α) : RuntimeEvent α → List α
  | .advance =>
      match m.agenda with
      | .drainPostedIo _ :: _ => m.advance.2.toList
      | _ => []
  | _ => []

def ioCleared (m : MeshRuntime α) : RuntimeEvent α → List α
  | .call .stop => m.ioQueue
  | _ => []

def deferredJoins : RuntimeEvent α → List α
  | .call (.postDeferred task) => task.toList
  | _ => []

def deferredBegun (m : MeshRuntime α) : RuntimeEvent α → List α
  | .advance =>
      match m.agenda with
      | .drainDeferred _ :: _ => m.advance.2.toList
      | _ => []
  | _ => []

/-- `Stop` does not reach into a drain that is under way. -/
def deferredCleared (m : MeshRuntime α) : RuntimeEvent α → List α
  | .call .stop => m.deferredQueue
  | _ => []

def ioLine : Line (MeshRuntime α) (RuntimeEvent α) α where
  step := step
  waiting := ioQueue
  joins := ioJoins
  served := ioBegun
  cleared := ioCleared

def deferredLine : Line (MeshRuntime α) (RuntimeEvent α) α where
  step := step
  waiting := deferred
  joins := deferredJoins
  served := deferredBegun
  cleared := deferredCleared

/-- Only the first stage of a turn may hold tasks: a drain ends before the next begins. -/
def Settled (m : MeshRuntime α) : Prop := m.agenda.tail.flatMap Stage.held = []

/-- A call that neither posts nor stops. -/
structure Quiet (m : MeshRuntime α) (made : RuntimeCall α) : Prop where
  ioJoins : ioJoins (.call made) = []
  ioCleared : m.ioCleared (.call made) = []
  deferredJoins : deferredJoins (.call made) = []
  deferredCleared : m.deferredCleared (.call made) = []

/-- What a call does to the queues and to the turn. -/
inductive CallCase (m : MeshRuntime α) : RuntimeCall α → Prop where
  | posted (task : α) : CallCase m (.postToIo (some task))
  | deferred (task : α) : CallCase m (.postDeferred (some task))
  | stopped : CallCase m .stop
  | turn {made : RuntimeCall α} (stages : List (Stage α)) (quiet : m.Quiet made)
      (clear : stages.flatMap Stage.held = []) (begins : m.call made = m.begin stages)
      (closes : ∃ front, stages = front ++ [.drainDeferred []]) : CallCase m made
  | other {made : RuntimeCall α} (quiet : m.Quiet made)
      (ioQueue : (m.call made).ioQueue = m.ioQueue)
      (deferredQueue : (m.call made).deferredQueue = m.deferredQueue)
      (agenda : (m.call made).agenda = m.agenda)
      (timers : (m.call made).timers.length ≤ m.timers.length + 1) : CallCase m made

/-- What the next step of a turn is. -/
inductive AdvanceCase (m : MeshRuntime α) : Prop where
  | idle (empty : m.agenda = []) (next : m.advance = (m, none))
  | ioTask {budget : Nat} {task : α} {queue : List α} {rest : List (Stage α)}
      (stage : m.agenda = .drainPostedIo (budget + 1) :: rest) (waits : m.ioQueue = task :: queue)
      (next : m.advance =
        ({ m with ioQueue := queue, agenda := .drainPostedIo budget :: rest }, some task))
  | taken {task : α} {batch : List α} {rest : List (Stage α)}
      (stage : m.agenda = .drainDeferred [] :: rest) (waits : m.deferredQueue = task :: batch)
      (next : m.advance =
        ({ m with deferredQueue := [], agenda := .drainDeferred (task :: batch) :: rest }, none))
  | deferredTask {task : α} {batch : List α} {rest : List (Stage α)}
      (stage : m.agenda = .drainDeferred (task :: batch) :: rest)
      (next : m.advance = ({ m with agenda := .drainDeferred batch :: rest }, some task))
  | due {rest : List (Stage α)} (stage : m.agenda = .fireTimers :: rest)
      (next : m.advance = (m.collectDue rest, none))
  | ended {stage : Stage α} {rest : List (Stage α)} (now : m.agenda = stage :: rest)
      (next : m.advance = ({ m with agenda := rest }, none)) (clear : stage.held = [])
      (drained : stage.allowance = 0 ∨ m.ioQueue = [])
      (emptied : ∀ batch, stage = .drainDeferred batch → m.deferredQueue = [])
      (undue : stage.due = [] ∧ stage ≠ .fireTimers)
  | ioTick {id : UInt64} {ids : List UInt64} {rest : List (Stage α)}
      (stage : m.agenda = .ioTicks (id :: ids) :: rest)
      (next : m.advance = ({ m with agenda := .ioTicks ids :: rest },
        (m.ioTicks.find? fun entry => entry.id == id).map IoTickEntry.tick))
  | dueTask {entry : TimerEntry α} {batch : List (TimerEntry α)} {rest : List (Stage α)}
      (stage : m.agenda = .dueTimers (entry :: batch) :: rest)
      (next : m.advance = ({ m with
        agenda := .dueTimers batch :: rest
        ran := m.ran ++ [⟨entry.serial, m.nowMs, m.passes⟩] }, some entry.task))

section Steps

variable {m : MeshRuntime α}

theorem advanceCase (m : MeshRuntime α) : m.AdvanceCase := by
  have ended {stage : Stage α} {rest : List (Stage α)} (now : m.agenda = stage :: rest)
      (next : m.advance = ({ m with agenda := rest }, none)) (clear : stage.held = [])
      (drained : stage.allowance = 0 ∨ m.ioQueue = [])
      (other : ∀ batch, stage ≠ .drainDeferred batch)
      (undue : stage.due = [] ∧ stage ≠ .fireTimers) : m.AdvanceCase :=
    .ended now next clear drained (fun batch same => absurd same (other batch)) undue
  rcases now : m.agenda with _ | ⟨stage, rest⟩
  · exact .idle now (by simp [advance, now])
  · cases stage with
    | ioTicks ids =>
        cases ids with
        | nil => exact ended now (by simp [advance, now]) rfl (.inl rfl) (by simp) (by simp [Stage.due])
        | cons id ids => exact .ioTick now (by simp [advance, now])
    | drainPostedIo budget =>
        cases budget with
        | zero => exact ended now (by simp [advance, now]) rfl (.inl rfl) (by simp) (by simp [Stage.due])
        | succ budget =>
            rcases waits : m.ioQueue with _ | ⟨task, queue⟩
            · exact ended now (by simp [advance, now, waits]) rfl (.inr waits) (by simp)
                (by simp [Stage.due])
            · exact .ioTask now waits (by simp [advance, now, waits])
    | pump => exact ended now (by simp [advance, now]) rfl (.inl rfl) (by simp) (by simp [Stage.due])
    | tick => exact ended now (by simp [advance, now]) rfl (.inl rfl) (by simp) (by simp [Stage.due])
    | drainDeferred batch =>
        cases batch with
        | nil =>
            rcases waits : m.deferredQueue with _ | ⟨task, batch⟩
            · exact .ended now (by simp [advance, now, waits]) rfl (.inl rfl) (fun _ _ => waits)
                (by simp [Stage.due])
            · exact .taken now waits (by simp [advance, now, waits])
        | cons task batch => exact .deferredTask now (by simp [advance, now])
    | fireTimers => exact .due now (by simp [advance, now])
    | dueTimers batch =>
        cases batch with
        | nil => exact ended now (by simp [advance, now]) rfl (.inl rfl) (by simp) (by simp [Stage.due])
        | cons entry batch => exact .dueTask now (by simp [advance, now])

theorem postAt_case (deadlineMs : Int) (task : Option α) {made : RuntimeCall α}
    (quiet : m.Quiet made) (same : m.call made = (m.postAt deadlineMs task).1) :
    m.CallCase made := by
  cases task with
  | none =>
      have still : m.call made = m := same
      apply CallCase.other quiet
      · rw [still]
      · rw [still]
      · rw [still]
      · rw [still]
        exact Nat.le_succ _
  | some task =>
      apply CallCase.other quiet
      · rw [same]
        rfl
      · rw [same]
        rfl
      · rw [same]
        rfl
      · rw [same]
        show (m.timers ++ [_]).length ≤ _
        rw [List.length_append, List.length_singleton]

theorem callCase (m : MeshRuntime α) (made : RuntimeCall α) : m.CallCase made := by
  cases made with
  | postToIo task =>
      cases task with
      | none => exact .other ⟨rfl, rfl, rfl, rfl⟩ rfl rfl rfl (Nat.le_succ _)
      | some task => exact .posted task
  | postDeferred task =>
      cases task with
      | none => exact .other ⟨rfl, rfl, rfl, rfl⟩ rfl rfl rfl (Nat.le_succ _)
      | some task => exact .deferred task
  | postAfter delayMs task => exact postAt_case _ task ⟨rfl, rfl, rfl, rfl⟩ rfl
  | postAt deadlineMs task => exact postAt_case deadlineMs task ⟨rfl, rfl, rfl, rfl⟩ rfl
  | cancelTimer id =>
      by_cases zero : id = 0
      · have same : m.call (.cancelTimer id) = m := by
          show m.cancelTimer id = m
          simp [cancelTimer, zero]
        apply CallCase.other ⟨rfl, rfl, rfl, rfl⟩
        · rw [same]
        · rw [same]
        · rw [same]
        · rw [same]
          exact Nat.le_succ _
      · have same : m.call (.cancelTimer id) = { m with
            timers := m.timers.eraseP fun entry => entry.id == id
            cancelled := m.cancelled ++ m.pendingWith id } := by
          show m.cancelTimer id = _
          simp [cancelTimer, zero]
        apply CallCase.other ⟨rfl, rfl, rfl, rfl⟩
        · rw [same]
        · rw [same]
        · rw [same]
        · rw [same]
          exact Nat.le_succ_of_le (List.eraseP_sublist.length_le)
  | addIoTick tick =>
      cases tick <;> exact .other ⟨rfl, rfl, rfl, rfl⟩ rfl rfl rfl (Nat.le_succ _)
  | removeIoTick id => exact .other ⟨rfl, rfl, rfl, rfl⟩ rfl rfl rfl (Nat.le_succ _)
  | pump =>
      exact .turn (m.pumpStages ++ [.drainDeferred []]) ⟨rfl, rfl, rfl, rfl⟩ rfl rfl ⟨_, rfl⟩
  | tick =>
      exact .turn tickStages ⟨rfl, rfl, rfl, rfl⟩ rfl rfl
        ⟨[.tick, .drainPostedIo kIoBudget, .drainDeferred [], .fireTimers], rfl⟩
  | drive =>
      exact .turn (m.pumpStages ++ tickStages) ⟨rfl, rfl, rfl, rfl⟩ rfl rfl
        ⟨m.pumpStages ++ [.tick, .drainPostedIo kIoBudget, .drainDeferred [], .fireTimers], rfl⟩
  | stop => exact .stopped
  | elapse ms => exact .other ⟨rfl, rfl, rfl, rfl⟩ rfl rfl rfl (Nat.le_succ _)

theorem begin_ioQueue (stages : List (Stage α)) : (m.begin stages).ioQueue = m.ioQueue := by
  unfold begin
  split <;> rfl

theorem idle_of_not_driving (idle : ¬ m.driving = true) : m.agenda = [] := by
  simpa [driving] using idle

theorem begin_deferred {stages : List (Stage α)} (clear : stages.flatMap Stage.held = []) :
    (m.begin stages).deferred = m.deferred := by
  unfold begin
  split
  · rfl
  · rename_i idle
    simp [deferred, clear, idle_of_not_driving idle]

theorem begin_settled (settled : m.Settled) {stages : List (Stage α)}
    (clear : stages.flatMap Stage.held = []) : (m.begin stages).Settled := by
  unfold begin
  split
  · exact settled
  · cases stages with
    | nil => rfl
    | cons stage rest =>
        rw [List.flatMap_cons] at clear
        exact (List.append_eq_nil_iff.mp clear).2

theorem call_io (made : RuntimeCall α) : m.ioQueue ++ ioJoins (.call made) =
    m.ioCleared (.call made) ++ (m.call made).ioQueue := by
  cases m.callCase made with
  | posted task => rfl
  | deferred task => exact List.append_nil m.ioQueue
  | stopped => rfl
  | turn stages quiet clear begins =>
      rw [quiet.ioJoins, quiet.ioCleared, begins, begin_ioQueue, List.append_nil, List.nil_append]
  | other quiet same =>
      rw [quiet.ioJoins, quiet.ioCleared, same, List.append_nil, List.nil_append]

theorem call_settled (settled : m.Settled) (made : RuntimeCall α) : (m.call made).Settled := by
  cases m.callCase made with
  | posted task => exact settled
  | deferred task => exact settled
  | stopped => exact settled
  | turn stages quiet clear begins =>
      rw [begins]
      exact begin_settled settled clear
  | other quiet io deferred agenda =>
      unfold Settled
      rw [agenda]
      exact settled

theorem call_deferred (made : RuntimeCall α) : (m.deferred ++ deferredJoins (.call made)).Perm
    (m.deferredCleared (.call made) ++ (m.call made).deferred) ∧
      (m.call made).deferred.Sublist (m.deferred ++ deferredJoins (.call made)) := by
  have same (after : List α) (whole : m.deferred ++ deferredJoins (.call made) = after)
      (kept : m.deferredCleared (.call made) = []) (held : (m.call made).deferred = after) :
      (m.deferred ++ deferredJoins (.call made)).Perm
        (m.deferredCleared (.call made) ++ (m.call made).deferred) ∧
      (m.call made).deferred.Sublist (m.deferred ++ deferredJoins (.call made)) := by
    rw [whole, kept, held]
    exact ⟨List.Perm.refl _, List.Sublist.refl _⟩
  cases m.callCase made with
  | posted task => exact same m.deferred (List.append_nil m.deferred) rfl rfl
  | deferred task => exact same _ (List.append_assoc _ m.deferredQueue [task]) rfl rfl
  | stopped =>
      show (m.agenda.flatMap Stage.held ++ m.deferredQueue ++ []).Perm
          (m.deferredQueue ++ (m.agenda.flatMap Stage.held ++ [])) ∧
        (m.agenda.flatMap Stage.held ++ []).Sublist
          (m.agenda.flatMap Stage.held ++ m.deferredQueue ++ [])
      rw [List.append_nil, List.append_nil]
      exact ⟨List.perm_append_comm, List.sublist_append_left _ _⟩
  | turn stages quiet clear begins =>
      apply same m.deferred
      · rw [quiet.deferredJoins, List.append_nil]
      · exact quiet.deferredCleared
      · rw [begins]
        exact begin_deferred clear
  | other quiet io queue agenda =>
      apply same m.deferred
      · rw [quiet.deferredJoins, List.append_nil]
      · exact quiet.deferredCleared
      · unfold deferred
        rw [queue, agenda]

theorem ioBegun_other (other : ∀ budget rest, m.agenda ≠ .drainPostedIo budget :: rest) :
    m.ioBegun .advance = [] := by
  rcases now : m.agenda with _ | ⟨stage, rest⟩
  · simp [ioBegun, now]
  · cases stage with
    | drainPostedIo budget => exact absurd now (other budget rest)
    | _ => simp [ioBegun, now]

theorem deferredBegun_other (other : ∀ batch rest, m.agenda ≠ .drainDeferred batch :: rest) :
    m.deferredBegun .advance = [] := by
  rcases now : m.agenda with _ | ⟨stage, rest⟩
  · simp [deferredBegun, now]
  · cases stage with
    | drainDeferred batch => exact absurd now (other batch rest)
    | _ => simp [deferredBegun, now]

theorem begun_none (nothing : m.advance.2 = none) :
    m.ioBegun .advance = [] ∧ m.deferredBegun .advance = [] := by
  constructor
  · unfold ioBegun
    simp only [nothing]
    split <;> rfl
  · unfold deferredBegun
    simp only [nothing]
    split <;> rfl

theorem advance_io : m.ioQueue = m.ioBegun .advance ++ m.advance.1.ioQueue := by
  cases m.advanceCase with
  | idle empty next =>
      rw [(begun_none (by rw [next])).1, next]
      rfl
  | ioTask stage waits next =>
      have begun : m.ioBegun .advance = m.advance.2.toList := by simp [ioBegun, stage]
      rw [begun, next, waits]
      rfl
  | taken stage waits next =>
      rw [(begun_none (by rw [next])).1, next]
      rfl
  | deferredTask stage next =>
      rw [ioBegun_other (by simp [stage]), next]
      rfl
  | due stage next =>
      rw [(begun_none (by rw [next])).1, next]
      rfl
  | ended now next =>
      rw [(begun_none (by rw [next])).1, next]
      rfl
  | ioTick stage next =>
      rw [ioBegun_other (by simp [stage]), next]
      rfl
  | dueTask stage next =>
      rw [ioBegun_other (by simp [stage]), next]
      rfl

theorem deferred_cons {stage : Stage α} {rest : List (Stage α)} (now : m.agenda = stage :: rest) :
    m.deferred = stage.held ++ rest.flatMap Stage.held ++ m.deferredQueue := by
  unfold deferred
  rw [now, List.flatMap_cons]

theorem Settled.tail (settled : m.Settled) {stage : Stage α} {rest : List (Stage α)}
    (now : m.agenda = stage :: rest) : rest.flatMap Stage.held = [] := by
  unfold Settled at settled
  rw [now] at settled
  exact settled

theorem advance_deferred (settled : m.Settled) :
    m.deferred = m.deferredBegun .advance ++ m.advance.1.deferred := by
  cases m.advanceCase with
  | idle empty next =>
      rw [(begun_none (by rw [next])).2, next]
      rfl
  | ioTask stage waits next =>
      rw [deferredBegun_other (by simp [stage]), next, deferred_cons stage]
      rfl
  | taken stage waits next =>
      rw [(begun_none (by rw [next])).2, next, deferred_cons stage, settled.tail stage, waits]
      simp [deferred, settled.tail stage, Stage.held]
  | deferredTask stage next =>
      have begun : m.deferredBegun .advance = m.advance.2.toList := by simp [deferredBegun, stage]
      rw [begun, next, deferred_cons stage]
      rfl
  | due stage next =>
      rw [(begun_none (by rw [next])).2, next, deferred_cons stage]
      rfl
  | ended now next clear =>
      rw [(begun_none (by rw [next])).2, next, deferred_cons now, clear]
      rfl
  | ioTick stage next =>
      rw [deferredBegun_other (by simp [stage]), next, deferred_cons stage]
      rfl
  | dueTask stage next =>
      rw [deferredBegun_other (by simp [stage]), next, deferred_cons stage]
      rfl

theorem settled_cons {stage : Stage α} {rest : List (Stage α)} (now : m.agenda = stage :: rest)
    (clear : rest.flatMap Stage.held = []) : m.Settled := by
  unfold Settled
  rw [now]
  exact clear

theorem advance_settled (settled : m.Settled) : m.advance.1.Settled := by
  cases m.advanceCase with
  | idle empty next => rwa [next]
  | ioTask stage waits next =>
      rw [next]
      exact settled_cons rfl (settled.tail stage)
  | taken stage waits next =>
      rw [next]
      exact settled_cons rfl (settled.tail stage)
  | deferredTask stage next =>
      rw [next]
      exact settled_cons rfl (settled.tail stage)
  | due stage next =>
      rw [next]
      exact settled_cons rfl (settled.tail stage)
  | @ended stage rest now next =>
      rw [next]
      have clear := settled.tail now
      cases rest with
      | nil => rfl
      | cons first others =>
          rw [List.flatMap_cons] at clear
          exact (List.append_eq_nil_iff.mp clear).2
  | ioTick stage next =>
      rw [next]
      exact settled_cons rfl (settled.tail stage)
  | dueTask stage next =>
      rw [next]
      exact settled_cons rfl (settled.tail stage)

end Steps

theorem ioLine_orderly : (ioLine : Line (MeshRuntime α) _ α).Orderly fun _ => True where
  kept _ _ _ := trivial
  exact m event _ := by
    cases event with
    | call made => exact List.Perm.of_eq (call_io made)
    | advance =>
        show (m.ioQueue ++ []).Perm (m.ioBegun .advance ++ [] ++ m.advance.1.ioQueue)
        rw [List.append_nil, List.append_nil, ← advance_io]
  inOrder m event _ := by
    cases event with
    | call made =>
        show (m.call made).ioQueue.Sublist (m.ioQueue ++ ioJoins (.call made))
        rw [call_io made]
        exact List.sublist_append_right _ _
    | advance =>
        show (m.ioBegun .advance ++ m.advance.1.ioQueue).Sublist (m.ioQueue ++ [])
        rw [List.append_nil, ← advance_io]

theorem deferredLine_orderly : (deferredLine : Line (MeshRuntime α) _ α).Orderly Settled where
  kept m event settled := by
    cases event with
    | call made => exact call_settled settled made
    | advance => exact advance_settled settled
  exact m event settled := by
    cases event with
    | call made => exact (call_deferred made).1
    | advance =>
        show (m.deferred ++ []).Perm (m.deferredBegun .advance ++ [] ++ m.advance.1.deferred)
        rw [List.append_nil, List.append_nil, ← advance_deferred settled]
  inOrder m event settled := by
    cases event with
    | call made => exact (call_deferred made).2
    | advance =>
        show (m.deferredBegun .advance ++ m.advance.1.deferred).Sublist (m.deferred ++ [])
        rw [List.append_nil, ← advance_deferred settled]

def IsStop : RuntimeEvent α → Prop
  | .call .stop => True
  | _ => False

instance : DecidablePred (IsStop (α := α)) := fun event =>
  match event with
  | .call .stop => isTrue trivial
  | .call (.postToIo _) | .call (.postDeferred _) | .call (.postAfter _ _) | .call (.postAt _ _)
  | .call (.cancelTimer _) | .call (.addIoTick _) | .call (.removeIoTick _) | .call .pump
  | .call .tick | .call .drive | .call (.elapse _) | .advance => isFalse id

/-- What was posted has begun in the order of posting, waits, or went with a `Stop`. -/
structure RunInTurn (line : Line (MeshRuntime α) (RuntimeEvent α) α)
    (events : List (RuntimeEvent α)) : Prop where
  once : (line.joined events).Perm (line.servedIn {} events ++ line.clearedIn {} events ++
    line.waiting (Run.exec line.step {} events))
  inTurn : (line.servedIn {} events ++ line.waiting (Run.exec line.step {} events)).Sublist
    (line.joined events)
  lossless : (∀ event ∈ events, ¬ IsStop event) →
    line.servedIn {} events ++ line.waiting (Run.exec line.step {} events) = line.joined events

theorem runInTurn {line : Line (MeshRuntime α) (RuntimeEvent α) α} {good : MeshRuntime α → Prop}
    (orderly : line.Orderly good) (fine : good {}) (empty : line.waiting {} = [])
    (clears : ∀ m event, ¬ IsStop event → line.cleared m event = [])
    (events : List (RuntimeEvent α)) : RunInTurn line events where
  once := by
    have whole := orderly.exactly events {} fine
    rwa [empty, List.nil_append] at whole
  inTurn := by
    have whole := orderly.inTurn events {} fine
    rwa [empty, List.nil_append] at whole
  lossless none := by
    have kept := orderly.uncleared fine
      (line.clearedIn_nil (fun m event other => clears m event other) (Run.meets_of_listed none))
    rwa [empty, List.nil_append] at kept

theorem ioCleared_nil (m : MeshRuntime α) (event : RuntimeEvent α) (other : ¬ IsStop event) :
    m.ioCleared event = [] := by
  cases event with
  | advance => rfl
  | call made =>
      cases made with
      | stop => exact absurd trivial other
      | _ => rfl

theorem deferredCleared_nil (m : MeshRuntime α) (event : RuntimeEvent α) (other : ¬ IsStop event) :
    m.deferredCleared event = [] := by
  cases event with
  | advance => rfl
  | call made =>
      cases made with
      | stop => exact absurd trivial other
      | _ => rfl

theorem posted_run_in_turn (events : List (RuntimeEvent α)) :
    RunInTurn ioLine events ∧ RunInTurn deferredLine events :=
  ⟨runInTurn ioLine_orderly trivial rfl ioCleared_nil events,
    runInTurn deferredLine_orderly rfl rfl deferredCleared_nil events⟩

end MeshRuntime

end Amp
