import Amp.Link.PostedWork

set_option autoImplicit false

/- What one turn of a runtime runs of what was posted, and that it ends. -/
namespace Amp

open Served (Line)

namespace MeshRuntime

variable {α : Type}

def goesOn : RuntimeEvent α → Bool
  | .advance => true
  | .call _ => false

@[simp] theorem goesOn_advance : goesOn (.advance : RuntimeEvent α) = true := rfl

@[simp] theorem goesOn_call (made : RuntimeCall α) : goesOn (.call made) = false := rfl

/-- How many times a turn begun by this call comes to `DrainPostedIoLocked`. -/
def drainsOf : RuntimeCall α → Nat
  | .pump => 1
  | .tick => 1
  | .drive => 2
  | _ => 0

/-- Within one turn, and without a `Stop`. -/
def InTurn (m : MeshRuntime α) (event : RuntimeEvent α) : Prop :=
  m.driving = true ∧ ¬ IsStop event

instance (m : MeshRuntime α) (event : RuntimeEvent α) : Decidable (m.InTurn event) :=
  inferInstanceAs (Decidable (_ ∧ _))

/-- A turn under way ends with a drain of the deferred, and is over when that is done. -/
structure Closing (m : MeshRuntime α) : Prop where
  last : m.agenda ≠ [] → ∃ front batch, m.agenda = front ++ [.drainDeferred batch]
  emptied : m.agenda = [] → m.deferredQueue = []

section Turns

variable {m : MeshRuntime α}

theorem agenda_of_driving (driving : m.driving = true) : m.agenda ≠ [] := by
  intro empty
  simp [MeshRuntime.driving, empty] at driving

/-- While a turn is under way no call but the end of it changes what is still to come. -/
theorem call_agenda (driving : m.driving = true) (made : RuntimeCall α) :
    (m.call made).agenda = m.agenda := by
  cases m.callCase made with
  | posted task => rfl
  | deferred task => rfl
  | stopped => rfl
  | turn stages quiet clear begins => simp [begins, begin, driving]
  | other quiet io deferred agenda => exact agenda

theorem Closing.of_agenda {after : MeshRuntime α} {stage : Stage α} (closing : m.Closing)
    {rest : List (Stage α)} (now : m.agenda = stage :: rest)
    (same : ∀ batch, stage = .drainDeferred batch → ∃ left, after.agenda = .drainDeferred left :: rest)
    (head : ∃ left, after.agenda = left :: rest) : after.Closing := by
  obtain ⟨front, batch, shape⟩ := closing.last (by simp [now])
  obtain ⟨left, agenda⟩ := head
  constructor
  · intro _
    cases front with
    | nil =>
        rw [now] at shape
        obtain ⟨rfl, rfl⟩ := List.cons.inj shape
        obtain ⟨held, agenda⟩ := same batch rfl
        exact ⟨[], held, agenda⟩
    | cons first others =>
        rw [now] at shape
        obtain ⟨rfl, rfl⟩ := List.cons.inj shape
        exact ⟨left :: others, batch, agenda⟩
  · intro empty
    rw [agenda] at empty
    cases empty

theorem step_closing (closing : m.Closing) {event : RuntimeEvent α} (inTurn : m.InTurn event) :
    (m.step event).Closing := by
  cases event with
  | call made =>
      have same := call_agenda inTurn.1 made
      have busy := agenda_of_driving inTurn.1
      constructor
      · intro _
        show ∃ front batch, (m.call made).agenda = _
        rw [same]
        exact closing.last busy
      · intro empty
        exact absurd (same.symm.trans empty) busy
  | advance =>
      show m.advance.1.Closing
      cases m.advanceCase with
      | idle empty => exact absurd empty (agenda_of_driving inTurn.1)
      | ioTask stage waits next =>
          rw [next]
          exact closing.of_agenda stage (by simp) ⟨_, rfl⟩
      | taken stage waits next =>
          rw [next]
          exact closing.of_agenda stage (fun _ _ => ⟨_, rfl⟩) ⟨_, rfl⟩
      | deferredTask stage next =>
          rw [next]
          exact closing.of_agenda stage (fun _ _ => ⟨_, rfl⟩) ⟨_, rfl⟩
      | due stage next =>
          rw [next]
          exact closing.of_agenda stage (by simp) ⟨_, rfl⟩
      | @ended stage rest now next clear drained emptied =>
          rw [next]
          obtain ⟨front, batch, shape⟩ := closing.last (by simp [now])
          rw [now] at shape
          cases front with
          | nil =>
              obtain ⟨rfl, rfl⟩ := List.cons.inj shape
              exact ⟨fun busy => absurd rfl busy, fun _ => emptied batch rfl⟩
          | cons first others =>
              obtain ⟨rfl, rfl⟩ := List.cons.inj shape
              exact ⟨fun _ => ⟨others, batch, rfl⟩, fun empty => by simp at empty⟩
      | ioTick stage next =>
          rw [next]
          exact closing.of_agenda stage (by simp) ⟨_, rfl⟩
      | dueTask stage next =>
          rw [next]
          exact closing.of_agenda stage (by simp) ⟨_, rfl⟩

theorem allowance_cons {stage : Stage α} {rest : List (Stage α)} (now : m.agenda = stage :: rest) :
    m.allowance = stage.allowance + (rest.map Stage.allowance).sum := by
  unfold allowance
  rw [now, List.map_cons, List.sum_cons]

theorem effort_of (timers : List (TimerEntry α)) (queue : List α) {stage : Stage α}
    {rest : List (Stage α)} (now : m.agenda = stage :: rest) (armed : m.timers = timers)
    (waits : m.deferredQueue = queue) : m.effort =
      stage.effort + (rest.map Stage.effort).sum + timers.length + 2 * queue.length := by
  unfold effort
  rw [now, armed, waits, List.map_cons, List.sum_cons]

/-- A drain uses up what it may begin, or leaves nothing. -/
theorem step_posted {event : RuntimeEvent α} (inTurn : m.InTurn event) :
    (m.ioBegun event).length + (m.step event).allowance ≤ m.allowance ∧
      min m.allowance m.ioQueue.length ≤ (m.ioBegun event).length +
        min (m.step event).allowance (m.step event).ioQueue.length := by
  cases event with
  | call made =>
      have same : (m.call made).allowance = m.allowance := by
        unfold allowance
        rw [call_agenda inTurn.1 made]
      have more : m.ioQueue.length ≤ (m.call made).ioQueue.length := by
        have whole := congrArg List.length (call_io (m := m) made)
        rw [ioCleared_nil m _ inTurn.2, List.length_append, List.nil_append] at whole
        omega
      show 0 + (m.call made).allowance ≤ m.allowance ∧
        min m.allowance m.ioQueue.length ≤ 0 + min (m.call made).allowance (m.call made).ioQueue.length
      omega
  | advance =>
      have whole := congrArg List.length (advance_io (m := m))
      rw [List.length_append] at whole
      show (m.ioBegun .advance).length + m.advance.1.allowance ≤ m.allowance ∧
        min m.allowance m.ioQueue.length ≤ (m.ioBegun .advance).length +
          min m.advance.1.allowance m.advance.1.ioQueue.length
      have still (none : (m.ioBegun .advance).length = 0)
          (same : m.advance.1.allowance = m.allowance) :
          (m.ioBegun .advance).length + m.advance.1.allowance ≤ m.allowance ∧
            min m.allowance m.ioQueue.length ≤ (m.ioBegun .advance).length +
              min m.advance.1.allowance m.advance.1.ioQueue.length := by
        omega
      cases m.advanceCase with
      | idle empty => exact absurd empty (agenda_of_driving inTurn.1)
      | ioTask stage waits next =>
          have begun : (m.ioBegun .advance).length = 1 := by simp [ioBegun, stage, next]
          have before : m.allowance = _ + 1 + _ := allowance_cons stage
          have after : m.advance.1.allowance = _ + _ := allowance_cons (by rw [next])
          simp only [Stage.allowance] at after
          omega
      | taken stage waits next =>
          apply still
          · rw [(begun_none (by rw [next])).1]
            rfl
          · rw [next, allowance_cons stage, allowance_cons rfl]
            rfl
      | deferredTask stage next =>
          apply still
          · rw [ioBegun_other (by simp [stage])]
            rfl
          · rw [next, allowance_cons stage, allowance_cons rfl]
            rfl
      | due stage next =>
          apply still
          · rw [(begun_none (by rw [next])).1]
            rfl
          · rw [next, allowance_cons stage, allowance_cons rfl]
            rfl
      | @ended stage rest now next clear drained emptied =>
          have none : (m.ioBegun .advance).length = 0 := by
            rw [(begun_none (by rw [next])).1]
            rfl
          have before := allowance_cons now
          have after : m.advance.1.allowance = (rest.map Stage.allowance).sum := by
            rw [next]
            rfl
          rcases drained with zero | empty
          · omega
          · rw [empty] at whole ⊢
            simp only [List.length_nil] at whole ⊢
            omega
      | ioTick stage next =>
          apply still
          · rw [ioBegun_other (by simp [stage])]
            rfl
          · rw [next, allowance_cons stage, allowance_cons rfl]
            rfl
      | dueTask stage next =>
          apply still
          · rw [ioBegun_other (by simp [stage])]
            rfl
          · rw [next, allowance_cons stage, allowance_cons rfl]
            rfl

/-- What a step of a turn leaves to be done, where a call may bring two steps. -/
theorem step_effort (event : RuntimeEvent α) (driving : m.driving = true) :
    (m.step event).effort + (if goesOn event then 1 else 0) ≤
      m.effort + (if goesOn event then 0 else 2) := by
  cases event with
  | call made =>
      show (m.call made).effort + 0 ≤ m.effort + 2
      have same := call_agenda driving made
      unfold effort
      rw [same]
      cases m.callCase made with
      | posted task => exact Nat.le_add_right _ 2
      | deferred task =>
          show _ + m.timers.length + 2 * (m.deferredQueue ++ [task]).length + 0 ≤ _
          rw [List.length_append, List.length_singleton]
          omega
      | stopped =>
          show _ + 0 + 2 * 0 + 0 ≤ _
          omega
      | turn stages quiet clear begins =>
          rw [begins]
          simp [begin, driving]
      | other quiet io deferred agenda timers =>
          rw [deferred]
          omega
  | advance =>
      show m.advance.1.effort + 1 ≤ m.effort + 0
      cases m.advanceCase with
      | idle empty => exact absurd empty (agenda_of_driving driving)
      | ioTask stage waits next =>
          have before := effort_of m.timers m.deferredQueue stage rfl rfl
          have after : m.advance.1.effort = _ :=
            effort_of m.timers _ (by rw [next]) (by rw [next]) (by rw [next])
          simp only [Stage.effort] at before after
          omega
      | taken stage waits next =>
          have before := effort_of m.timers _ stage rfl waits
          have after : m.advance.1.effort = _ :=
            effort_of m.timers _ (by rw [next]) (by rw [next]) (by rw [next])
          simp only [Stage.effort, List.length_cons, List.length_nil] at before after
          omega
      | deferredTask stage next =>
          have before := effort_of m.timers m.deferredQueue stage rfl rfl
          have after : m.advance.1.effort = _ :=
            effort_of m.timers _ (by rw [next]) (by rw [next]) (by rw [next])
          simp only [Stage.effort, List.length_cons] at before after
          omega
      | due stage next =>
          have before := effort_of m.timers m.deferredQueue stage rfl rfl
          have after : m.advance.1.effort = _ :=
            effort_of (m.timers.filter fun entry => !m.isDue entry) m.deferredQueue
              (by rw [next]; rfl) (by rw [next]; rfl) (by rw [next]; rfl)
          have parts := m.timers.length_eq_length_filter_add m.isDue
          simp only [Stage.effort] at before after
          omega
      | @ended stage rest now next clear drained emptied =>
          have before := effort_of m.timers m.deferredQueue now rfl rfl
          have after : m.advance.1.effort = (rest.map Stage.effort).sum + m.timers.length +
              2 * m.deferredQueue.length := by
            rw [next]
            rfl
          have positive := stage.effort_pos
          omega
      | ioTick stage next =>
          have before := effort_of m.timers m.deferredQueue stage rfl rfl
          have after : m.advance.1.effort = _ :=
            effort_of m.timers _ (by rw [next]) (by rw [next]) (by rw [next])
          simp only [Stage.effort, List.length_cons] at before after
          omega
      | dueTask stage next =>
          have before := effort_of m.timers m.deferredQueue stage rfl rfl
          have after : m.advance.1.effort = _ :=
            effort_of m.timers _ (by rw [next]) (by rw [next]) (by rw [next])
          simp only [Stage.effort, List.length_cons] at before after
          omega

theorem run_posted (body : List (RuntimeEvent α)) : ∀ {m : MeshRuntime α},
    Run.Meets step InTurn m body →
    (ioLine.servedIn m body).length + (Run.exec step m body).allowance ≤ m.allowance ∧
      min m.allowance m.ioQueue.length ≤ (ioLine.servedIn m body).length +
        min (Run.exec step m body).allowance (Run.exec step m body).ioQueue.length := by
  induction body with
  | nil =>
      intro m within
      show 0 + m.allowance ≤ m.allowance ∧
        min m.allowance m.ioQueue.length ≤ 0 + min m.allowance m.ioQueue.length
      omega
  | cons event rest ih =>
      intro m within
      have now := step_posted within.1
      have later := ih within.2
      rw [Line.servedIn_cons, List.length_append, Run.exec_cons]
      show (m.ioBegun event).length + (ioLine.servedIn (m.step event) rest).length + _ ≤ _ ∧
        _ ≤ (m.ioBegun event).length + (ioLine.servedIn (m.step event) rest).length + _
      omega

theorem run_effort (body : List (RuntimeEvent α)) : ∀ {m : MeshRuntime α},
    Run.Meets step (fun m _ => m.driving = true) m body →
    (Run.exec step m body).effort + body.countP goesOn ≤
      m.effort + 2 * body.countP (!goesOn ·) := by
  induction body with
  | nil => exact fun _ => Nat.le_refl _
  | cons event rest ih =>
      intro m within
      have now := step_effort event within.1
      have later := ih within.2
      rw [Run.exec_cons, List.countP_cons, List.countP_cons]
      cases event <;> simp at now ⊢ <;> omega

/-- A turn that has just begun: nothing is taken out, and its last stage drains the deferred. -/
structure Started (m started : MeshRuntime α) (drains : Nat) : Prop where
  settled : started.Settled
  deferred : started.deferred = m.deferredQueue
  ioQueue : started.ioQueue = m.ioQueue
  allowance : started.allowance = kIoBudget * drains
  closing : started.Closing

theorem begin_started (idle : m.agenda = []) {front : List (Stage α)} {drains : Nat}
    (clear : front.flatMap Stage.held = [])
    (allowance : (front.map Stage.allowance).sum = kIoBudget * drains) :
    Started m (m.begin (front ++ [.drainDeferred []])) drains := by
  have begins : m.begin (front ++ [.drainDeferred []]) =
      { m with agenda := front ++ [.drainDeferred []] } := by
    simp [begin, driving, idle]
  have none : (front ++ [Stage.drainDeferred []]).flatMap Stage.held = [] := by
    rw [List.flatMap_append, clear]
    rfl
  constructor
  · apply begin_settled _ none
    simp [Settled, idle]
  · rw [begin_deferred none]
    simp [deferred, idle]
  · rw [begins]
  · rw [begins]
    show ((front ++ [Stage.drainDeferred []]).map Stage.allowance).sum = _
    rw [List.map_append, List.sum_append, allowance]
    rfl
  · rw [begins]
    exact ⟨fun _ => ⟨front, [], rfl⟩, fun empty => by simp at empty⟩

theorem turn_started (idle : m.agenda = []) {made : RuntimeCall α} (turn : 0 < drainsOf made) :
    Started m (m.call made) (drainsOf made) := by
  cases made with
  | pump =>
      have begun : Started m (m.begin (m.pumpStages ++ [.drainDeferred []])) 1 :=
        begin_started idle rfl rfl
      exact begun
  | tick =>
      have begun : Started m (m.begin ([.tick, .drainPostedIo kIoBudget, .drainDeferred [],
          .fireTimers] ++ [.drainDeferred []])) 1 := begin_started idle rfl rfl
      exact begun
  | drive =>
      have begun : Started m (m.begin ((m.pumpStages ++ [.tick, .drainPostedIo kIoBudget,
          .drainDeferred [], .fireTimers]) ++ [.drainDeferred []])) 2 := begin_started idle rfl rfl
      exact begun
  | _ => exact absurd turn (Nat.lt_irrefl 0)

end Turns

/-- What one turn does with what was posted before it and within it. -/
structure TurnRuns (m : MeshRuntime α) (made : RuntimeCall α) (body : List (RuntimeEvent α)) :
    Prop where
  /-- Everything deferred has begun, in its order, and nothing is left. -/
  deferred : deferredLine.servedIn (m.call made) body = m.deferredQueue ++ deferredLine.joined body
  empty : (Run.exec step (m.call made) body).deferredQueue = []
  inTurn : ioLine.servedIn (m.call made) body ++ (Run.exec step (m.call made) body).ioQueue =
    m.ioQueue ++ ioLine.joined body
  atMost : (ioLine.servedIn (m.call made) body).length ≤ kIoBudget * drainsOf made
  atLeast : min (kIoBudget * drainsOf made) m.ioQueue.length ≤
    (ioLine.servedIn (m.call made) body).length

theorem turn_runs_posted {m : MeshRuntime α} (idle : m.agenda = []) {made : RuntimeCall α}
    {body : List (RuntimeEvent α)} (turn : 0 < drainsOf made)
    (within : Run.Meets step InTurn (m.call made) body)
    (ended : (Run.exec step (m.call made) body).agenda = []) : TurnRuns m made body := by
  have started := turn_started idle turn
  have cleared {line : Line (MeshRuntime α) (RuntimeEvent α) α}
      (clears : ∀ m event, ¬ IsStop event → line.cleared m event = []) :
      Run.Meets line.step InTurn (m.call made) body →
        line.clearedIn (m.call made) body = [] :=
    line.clearedIn_nil fun _ event inTurn => clears _ event inTurn.2
  have counts := run_posted body within
  have closing : (Run.exec step (m.call made) body).Closing :=
    Run.invariant step InTurn Closing (fun _ _ inTurn closing => step_closing closing inTurn) body
      _ within started.closing
  have none : (Run.exec step (m.call made) body).allowance = 0 := by
    simp [allowance, ended]
  have empty := closing.emptied ended
  rw [started.allowance, started.ioQueue, none, Nat.zero_min] at counts
  constructor
  · have whole := deferredLine_orderly.uncleared started.settled (cleared deferredCleared_nil within)
    have left : deferredLine.waiting (Run.exec deferredLine.step (m.call made) body) = [] := by
      show (Run.exec step (m.call made) body).deferred = []
      simp [deferred, ended, empty]
    have first : deferredLine.waiting (m.call made) = m.deferredQueue := started.deferred
    rwa [left, first, List.append_nil] at whole
  · exact empty
  · have whole : ioLine.servedIn (m.call made) body ++ (Run.exec step (m.call made) body).ioQueue =
        ioLine.waiting (m.call made) ++ ioLine.joined body :=
      ioLine_orderly.uncleared trivial (cleared ioCleared_nil within)
    have first : ioLine.waiting (m.call made) = m.ioQueue := started.ioQueue
    rwa [first] at whole
  · exact counts.1
  · exact counts.2

/-- More tasks than one drain begins, and two calls made within the turn. -/
theorem turn_runs_posted_sample : TurnRuns
    { ioQueue := List.range 40, deferredQueue := [100, 101] } .tick
    (List.replicate 20 .advance ++ [.call (.postToIo (some 40)), .call (.postDeferred (some 102))] ++
      List.replicate 22 .advance) :=
  turn_runs_posted rfl (by decide) (by decide +kernel) (by decide +kernel)

/-- A turn goes on for no longer than what it found and what its tasks then call for. -/
theorem turn_ends {m : MeshRuntime α} (idle : m.agenda = []) {made : RuntimeCall α}
    {body : List (RuntimeEvent α)} (turn : 0 < drainsOf made)
    (within : Run.Meets step (fun m _ => m.driving = true) (m.call made) body) :
    body.countP goesOn ≤ m.ioTicks.length + m.timers.length +
      2 * m.deferredQueue.length + (2 * kIoBudget + 9) + 2 * body.countP (!goesOn ·) := by
  have bounded := run_effort body within
  have least : (m.call made).effort ≤ m.ioTicks.length + m.timers.length +
      2 * m.deferredQueue.length + (2 * kIoBudget + 9) := by
    have began (stages : List (Stage α)) : (m.begin stages).effort =
        (stages.map Stage.effort).sum + m.timers.length + 2 * m.deferredQueue.length := by
      simp [begin, driving, idle, effort]
    cases made with
    | pump =>
        show (m.begin _).effort ≤ _
        rw [began]
        simp [pumpStages, Stage.effort, kIoBudget]
        omega
    | tick =>
        show (m.begin _).effort ≤ _
        rw [began]
        simp [tickStages, Stage.effort, kIoBudget]
        omega
    | drive =>
        show (m.begin _).effort ≤ _
        rw [began]
        simp [pumpStages, tickStages, Stage.effort, kIoBudget]
        omega
    | _ => exact absurd turn (Nat.lt_irrefl 0)
  omega

/-- A `Drive` whose deferred task defers another. -/
def deferringTurn : List (RuntimeEvent Nat) :=
  List.replicate 7 .advance ++ [.call (.postDeferred (some 1))] ++ List.replicate 6 .advance

theorem turn_ends_sample : deferringTurn.countP goesOn ≤
    0 + 0 + 2 * 1 + (2 * kIoBudget + 9) + 2 * deferringTurn.countP (!goesOn ·) :=
  turn_ends (m := { deferredQueue := [0] }) rfl (show 0 < drainsOf (.drive : RuntimeCall Nat) by decide)
    (by decide +kernel)

end MeshRuntime

end Amp
