import Amp.Link.PostedWork

set_option autoImplicit false

/- Which tasks a runtime holds, and which of them begins. -/
namespace Amp

/-- The tasks a call brings. -/
def RuntimeCall.tasks {α : Type} : RuntimeCall α → List α
  | .postToIo task | .postDeferred task | .postAfter _ task | .postAt _ task | .addIoTick task =>
      task.toList
  | _ => []

namespace MeshRuntime

variable {α : Type} {m : MeshRuntime α}

/-- The tasks a runtime holds, those deferred left out. -/
def elsewhere (m : MeshRuntime α) : List α :=
  m.ioQueue ++ m.ioTicks.map IoTickEntry.tick ++ m.live.map TimerEntry.task

theorem mem_elsewhere {task : α} : task ∈ m.elsewhere ↔ task ∈ m.ioQueue ∨
    (∃ entry ∈ m.ioTicks, entry.tick = task) ∨ ∃ entry ∈ m.live, entry.task = task := by
  simp [elsewhere]

theorem begin_live {stages : List (Stage α)} (clear : stages.flatMap Stage.due = []) :
    (m.begin stages).live = m.live := by
  unfold begin
  split
  · rfl
  · rename_i idle
    simp [live, due, clear, idle_of_not_driving idle]

theorem begin_elsewhere {stages : List (Stage α)} (clear : stages.flatMap Stage.due = []) :
    (m.begin stages).elsewhere = m.elsewhere := by
  have live := begin_live (m := m) clear
  unfold elsewhere
  rw [live]
  unfold begin
  split <;> rfl

theorem mem_armTimer {askedMs : Int} {task : α} {entry : TimerEntry α} :
    entry ∈ (m.armTimer askedMs task).live ↔
      entry ∈ m.live ∨ entry = ⟨m.nextTimerId, inInt64 askedMs, task, m.armed.length⟩ := by
  constructor
  · exact arm_live askedMs task
  · rintro (old | rfl)
    · rcases List.mem_append.mp old with waits | due
      · exact List.mem_append_left _ (List.mem_append_left _ waits)
      · exact List.mem_append_right _ due
    · exact List.mem_append_left _ (List.mem_append_right _ (List.mem_singleton_self _))

theorem postAt_live {deadlineMs : Int} {task : Option α} {entry : TimerEntry α}
    (listed : entry ∈ m.live) : entry ∈ (m.postAt deadlineMs task).1.live := by
  cases task with
  | none => exact listed
  | some task => exact mem_armTimer.mpr (.inl listed)

/-- A call that is no `Stop` and cancels another timer leaves a timer where it is. -/
theorem call_live {made : RuntimeCall α} {entry : TimerEntry α} (listed : entry ∈ m.live)
    (goes : made ≠ .stop) (kept : made ≠ .cancelTimer entry.id) : entry ∈ (m.call made).live := by
  cases made with
  | postToIo task => cases task <;> exact listed
  | postDeferred task => cases task <;> exact listed
  | postAfter delayMs task => exact postAt_live listed
  | postAt deadlineMs task => exact postAt_live listed
  | cancelTimer id =>
      show entry ∈ (m.cancelTimer id).live
      unfold cancelTimer
      split
      · exact listed
      · have other : ¬ (entry.id == id) = true := by
          intro same
          exact kept (congrArg RuntimeCall.cancelTimer (beq_iff_eq.mp same).symm)
        rcases List.mem_append.mp listed with waits | due
        · exact List.mem_append_left _ ((List.mem_eraseP_of_neg (p := fun e => e.id == id)
            other).mpr waits)
        · exact List.mem_append_right _ due
  | addIoTick tick => cases tick <;> exact listed
  | removeIoTick id => exact listed
  | pump =>
      show entry ∈ (m.begin _).live
      rwa [begin_live rfl]
  | tick =>
      show entry ∈ (m.begin _).live
      rwa [begin_live rfl]
  | drive =>
      show entry ∈ (m.begin _).live
      rwa [begin_live rfl]
  | stop => exact absurd rfl goes
  | elapse ms => exact listed

/-- A timer after a call was there before it, or is the call's own. -/
theorem call_timers {made : RuntimeCall α} {entry : TimerEntry α}
    (listed : entry ∈ (m.call made).timers) : entry ∈ m.timers ∨ entry.task ∈ made.tasks := by
  have arms (deadlineMs : Int) (armed : Option α)
      (listed : entry ∈ (m.postAt deadlineMs armed).1.timers) :
      entry ∈ m.timers ∨ entry.task ∈ armed.toList := by
    cases armed with
    | none => exact .inl listed
    | some armed =>
        rcases List.mem_append.mp listed with old | new
        · exact .inl old
        · rw [List.mem_singleton.mp new]
          exact .inr (List.mem_singleton_self armed)
  have begins (stages : List (Stage α)) (listed : entry ∈ (m.begin stages).timers) :
      entry ∈ m.timers := by
    unfold begin at listed
    split at listed <;> exact listed
  cases made with
  | postToIo task => cases task <;> exact .inl listed
  | postDeferred task => cases task <;> exact .inl listed
  | postAfter delayMs task => exact arms _ task listed
  | postAt deadlineMs task => exact arms deadlineMs task listed
  | cancelTimer id =>
      left
      by_cases zero : id = 0
      · have same : m.call (.cancelTimer id) = m := if_pos zero
        rwa [same] at listed
      · have same : m.call (.cancelTimer id) = { m with
            timers := m.timers.eraseP fun entry => entry.id == id
            cancelled := m.cancelled ++ m.pendingWith id } := if_neg zero
        rw [same] at listed
        exact List.mem_of_mem_eraseP listed
  | addIoTick tick => cases tick <;> exact .inl listed
  | removeIoTick id => exact .inl listed
  | pump => exact .inl (begins _ listed)
  | tick => exact .inl (begins _ listed)
  | drive => exact .inl (begins _ listed)
  | stop => exact absurd listed List.not_mem_nil
  | elapse ms => exact .inl listed

/-- A call brings no task but its own. -/
theorem call_elsewhere {made : RuntimeCall α} {task : α}
    (listed : task ∈ (m.call made).elsewhere) : task ∈ m.elsewhere ∨ task ∈ made.tasks := by
  have arms (deadlineMs : Int) (armed : Option α)
      (listed : task ∈ (m.postAt deadlineMs armed).1.elsewhere) :
      task ∈ m.elsewhere ∨ task ∈ armed.toList := by
    cases armed with
    | none => exact .inl listed
    | some armed =>
        rcases mem_elsewhere.mp listed with waits | ticks | ⟨entry, held, own⟩
        · exact .inl (mem_elsewhere.mpr (.inl waits))
        · exact .inl (mem_elsewhere.mpr (.inr (.inl ticks)))
        · rcases mem_armTimer.mp held with old | rfl
          · exact .inl (mem_elsewhere.mpr (.inr (.inr ⟨entry, old, own⟩)))
          · exact .inr (List.mem_singleton.mpr own.symm)
  cases made with
  | postToIo posted =>
      cases posted with
      | none => exact .inl listed
      | some posted =>
          rcases mem_elsewhere.mp listed with waits | held
          · rcases List.mem_append.mp waits with old | new
            · exact .inl (mem_elsewhere.mpr (.inl old))
            · exact .inr new
          · exact .inl (mem_elsewhere.mpr (.inr held))
  | postDeferred posted => cases posted <;> exact .inl listed
  | postAfter delayMs armed => exact arms _ armed listed
  | postAt deadlineMs armed => exact arms deadlineMs armed listed
  | cancelTimer id =>
      left
      by_cases zero : id = 0
      · have same : m.call (.cancelTimer id) = m := if_pos zero
        rwa [same] at listed
      · have same : m.call (.cancelTimer id) = { m with
            timers := m.timers.eraseP fun entry => entry.id == id
            cancelled := m.cancelled ++ m.pendingWith id } := if_neg zero
        rw [same] at listed
        rcases mem_elsewhere.mp listed with waits | ticks | ⟨entry, held, own⟩
        · exact mem_elsewhere.mpr (.inl waits)
        · exact mem_elsewhere.mpr (.inr (.inl ticks))
        · refine mem_elsewhere.mpr (.inr (.inr ⟨entry, ?_, own⟩))
          rcases List.mem_append.mp held with waits | due
          · exact List.mem_append_left _ (List.mem_of_mem_eraseP waits)
          · exact List.mem_append_right _ due
  | addIoTick entry =>
      cases entry with
      | none => exact .inl listed
      | some entry =>
          rcases mem_elsewhere.mp listed with waits | ⟨tick, held, own⟩ | timers
          · exact .inl (mem_elsewhere.mpr (.inl waits))
          · rcases List.mem_append.mp held with old | new
            · exact .inl (mem_elsewhere.mpr (.inr (.inl ⟨tick, old, own⟩)))
            · rw [List.mem_singleton.mp new] at own
              exact .inr (List.mem_singleton.mpr own.symm)
          · exact .inl (mem_elsewhere.mpr (.inr (.inr timers)))
  | removeIoTick id =>
      left
      rcases mem_elsewhere.mp listed with waits | ⟨tick, held, own⟩ | timers
      · exact mem_elsewhere.mpr (.inl waits)
      · exact mem_elsewhere.mpr (.inr (.inl ⟨tick, List.mem_of_mem_eraseP held, own⟩))
      · exact mem_elsewhere.mpr (.inr (.inr timers))
  | pump =>
      have same : (m.call .pump).elsewhere = m.elsewhere := begin_elsewhere rfl
      exact .inl (same ▸ listed)
  | tick =>
      have same : (m.call .tick).elsewhere = m.elsewhere := begin_elsewhere rfl
      exact .inl (same ▸ listed)
  | drive =>
      have same : (m.call .drive).elsewhere = m.elsewhere := begin_elsewhere rfl
      exact .inl (same ▸ listed)
  | stop =>
      left
      rcases mem_elsewhere.mp listed with waits | ⟨_, held, _⟩ | ⟨entry, held, own⟩
      · exact absurd waits List.not_mem_nil
      · exact absurd held List.not_mem_nil
      · exact mem_elsewhere.mpr (.inr (.inr ⟨entry, List.mem_append_right _ held, own⟩))
  | elapse ms => exact .inl listed

theorem live_cons {stage : Stage α} {rest : List (Stage α)} (now : m.agenda = stage :: rest) :
    m.live = m.timers ++ (stage.due ++ rest.flatMap Stage.due) := by
  unfold live due
  rw [now, List.flatMap_cons]

/-- A timer that goes is the one whose task begins. -/
theorem advance_live {entry : TimerEntry α} (listed : entry ∈ m.live) :
    entry ∈ m.advance.1.live ∨ m.advance.2 = some entry.task := by
  cases m.advanceCase with
  | idle empty next =>
      rw [next]
      exact .inl listed
  | ioTask stage waits next =>
      rw [next]
      rw [live_cons stage] at listed
      exact .inl listed
  | taken stage waits next =>
      rw [next]
      rw [live_cons stage] at listed
      exact .inl listed
  | deferredTask stage next =>
      rw [next]
      rw [live_cons stage] at listed
      exact .inl listed
  | due stage next =>
      left
      rw [next]
      rw [live_cons stage] at listed
      show entry ∈ m.timers.filter _ ++ (m.timers.filter _ ++ _)
      rcases List.mem_append.mp listed with waits | due
      · by_cases ripe : m.isDue entry = true
        · exact List.mem_append_right _ (List.mem_append_left _ (List.mem_filter.mpr ⟨waits, ripe⟩))
        · exact List.mem_append_left _ (List.mem_filter.mpr ⟨waits, by simpa using ripe⟩)
      · exact List.mem_append_right _ (List.mem_append_right _ due)
  | ended now next clear drained emptied undue =>
      rw [next]
      rw [live_cons now, undue.1] at listed
      exact .inl listed
  | ioTick stage next =>
      rw [next]
      rw [live_cons stage] at listed
      exact .inl listed
  | dueTask stage next =>
      rw [live_cons stage] at listed
      rcases List.mem_append.mp listed with waits | due
      · left
        rw [next]
        exact List.mem_append_left _ waits
      · rcases List.mem_cons.mp due with rfl | later
        · right
          rw [next]
        · left
          rw [next]
          exact List.mem_append_right _ later

theorem advance_ioTicks : m.advance.1.ioTicks = m.ioTicks := by
  have ticks {after : MeshRuntime α × Option α} (next : m.advance = after) :
      m.advance.1.ioTicks = after.1.ioTicks := congrArg (fun after => after.1.ioTicks) next
  cases m.advanceCase with
  | idle empty next => exact ticks next
  | ioTask stage waits next => exact ticks next
  | taken stage waits next => exact ticks next
  | deferredTask stage next => exact ticks next
  | due stage next => exact ticks next
  | ended now next => exact ticks next
  | ioTick stage next => exact ticks next
  | dueTask stage next => exact ticks next

/-- A step of a turn arms no timer. -/
theorem live_of_advance {entry : TimerEntry α} (listed : entry ∈ m.advance.1.live) :
    entry ∈ m.live := by
  cases m.advanceCase with
  | idle empty next =>
      rw [next] at listed
      exact listed
  | ioTask stage waits next =>
      rw [next] at listed
      rw [live_cons stage]
      exact listed
  | taken stage waits next =>
      rw [next] at listed
      rw [live_cons stage]
      exact listed
  | deferredTask stage next =>
      rw [next] at listed
      rw [live_cons stage]
      exact listed
  | due stage next =>
      rw [next] at listed
      rw [live_cons stage]
      rcases List.mem_append.mp listed with waits | moved
      · exact List.mem_append_left _ (List.mem_filter.mp waits).1
      · rcases List.mem_append.mp moved with ripe | due
        · exact List.mem_append_left _ (List.mem_filter.mp ripe).1
        · exact List.mem_append_right _ due
  | ended now next clear drained emptied undue =>
      rw [next] at listed
      rw [live_cons now, undue.1]
      exact listed
  | ioTick stage next =>
      rw [next] at listed
      rw [live_cons stage]
      exact listed
  | dueTask stage next =>
      rw [next] at listed
      rw [live_cons stage]
      rcases List.mem_append.mp listed with waits | due
      · exact List.mem_append_left _ waits
      · exact List.mem_append_right _ (List.mem_cons_of_mem _ due)

/-- A step of a turn brings no task. -/
theorem advance_elsewhere {task : α} (listed : task ∈ m.advance.1.elsewhere) :
    task ∈ m.elsewhere := by
  rw [mem_elsewhere, advance_ioTicks] at listed
  rw [mem_elsewhere]
  rcases listed with waits | tick | ⟨entry, held, own⟩
  · left
    rw [advance_io]
    exact List.mem_append_right _ waits
  · exact .inr (.inl tick)
  · exact .inr (.inr ⟨entry, live_of_advance held, own⟩)

/-- Where a task was that begins. -/
theorem advance_begun {task : α} (begun : m.advance.2 = some task) :
    task ∈ m.elsewhere ∨ m.deferredBegun .advance = [task] := by
  cases m.advanceCase with
  | idle empty next => simp [next] at begun
  | ioTask stage waits next =>
      rw [next] at begun
      left
      rw [mem_elsewhere, waits]
      exact .inl (Option.some.inj begun ▸ List.mem_cons_self)
  | taken stage waits next => simp [next] at begun
  | deferredTask stage next =>
      right
      simp [deferredBegun, stage, begun]
  | due stage next => simp [next] at begun
  | ended now next => simp [next] at begun
  | ioTick stage next =>
      rw [next] at begun
      obtain ⟨entry, found, own⟩ := Option.map_eq_some_iff.mp begun
      left
      exact mem_elsewhere.mpr (.inr (.inl ⟨entry, List.mem_of_find?_eq_some found, own⟩))
  | @dueTask entry batch rest stage next =>
      rw [next] at begun
      left
      refine mem_elsewhere.mpr (.inr (.inr ⟨entry, ?_, Option.some.inj begun⟩))
      rw [live_cons stage]
      exact List.mem_append_right _ List.mem_cons_self

theorem deferredBegun_or : m.deferredBegun .advance = [] ∨
    m.deferredBegun .advance = m.advance.2.toList := by
  unfold deferredBegun
  dsimp only
  split
  · exact .inr rfl
  · exact .inl rfl

theorem call_nowMs (made : RuntimeCall α) : m.nowMs ≤ (m.call made).nowMs := by
  have begins (stages : List (Stage α)) : m.nowMs ≤ (m.begin stages).nowMs := by
    unfold begin
    split <;> exact Int.le_refl _
  cases made with
  | postToIo task => cases task <;> exact Int.le_refl _
  | postDeferred task => cases task <;> exact Int.le_refl _
  | postAfter delayMs task => cases task <;> exact Int.le_refl _
  | postAt deadlineMs task => cases task <;> exact Int.le_refl _
  | cancelTimer id =>
      show m.nowMs ≤ (m.cancelTimer id).nowMs
      unfold cancelTimer
      split <;> exact Int.le_refl _
  | addIoTick tick => cases tick <;> exact Int.le_refl _
  | removeIoTick id => exact Int.le_refl _
  | pump => exact begins _
  | tick => exact begins _
  | drive => exact begins _
  | stop => exact Int.le_refl _
  | elapse ms =>
      show m.nowMs ≤ m.nowMs + ms
      omega

/-- The timers still to fire in the turn under way are fired before it goes past them. -/
theorem advance_fires : m.advance.1.nowMs = m.nowMs ∧
    (∀ entry ∈ m.advance.1.timers, entry ∈ m.timers) ∧
    (.fireTimers ∈ m.agenda → .fireTimers ∈ m.advance.1.agenda ∨
      ∀ entry ∈ m.advance.1.timers, m.nowMs < entry.deadlineMs) := by
  have keeps {stage left : Stage α} {rest : List (Stage α)} (now : m.agenda = stage :: rest)
      (other : stage ≠ .fireTimers) (fires : .fireTimers ∈ m.agenda) :
      .fireTimers ∈ left :: rest := by
    rw [now] at fires
    rcases List.mem_cons.mp fires with first | later
    · exact absurd first.symm other
    · exact List.mem_cons_of_mem _ later
  cases m.advanceCase with
  | idle empty next =>
      rw [next]
      exact ⟨rfl, fun _ listed => listed, fun fires => .inl fires⟩
  | ioTask stage waits next =>
      rw [next]
      exact ⟨rfl, fun _ listed => listed, fun fires => .inl (keeps stage (by simp) fires)⟩
  | taken stage waits next =>
      rw [next]
      exact ⟨rfl, fun _ listed => listed, fun fires => .inl (keeps stage (by simp) fires)⟩
  | deferredTask stage next =>
      rw [next]
      exact ⟨rfl, fun _ listed => listed, fun fires => .inl (keeps stage (by simp) fires)⟩
  | due stage next =>
      rw [next]
      refine ⟨rfl, fun _ listed => (List.mem_filter.mp listed).1, fun _ => .inr ?_⟩
      intro entry listed
      have late := (List.mem_filter.mp listed).2
      simpa [isDue] using late
  | ended now next clear drained emptied undue =>
      rw [next]
      refine ⟨rfl, fun _ listed => listed, fun fires => .inl ?_⟩
      rw [now] at fires
      rcases List.mem_cons.mp fires with first | later
      · exact absurd first.symm undue.2
      · exact later
  | ioTick stage next =>
      rw [next]
      exact ⟨rfl, fun _ listed => listed, fun fires => .inl (keeps stage (by simp) fires)⟩
  | dueTask stage next =>
      rw [next]
      exact ⟨rfl, fun _ listed => listed, fun fires => .inl (keeps stage (by simp) fires)⟩

/-- What a call defers is its own. -/
theorem joins_tasks (made : RuntimeCall α) : ∀ task ∈ deferredJoins (.call made), task ∈ made.tasks := by
  cases made with
  | postDeferred task => exact fun _ listed => listed
  | _ => exact fun _ listed => absurd listed List.not_mem_nil

end MeshRuntime

end Amp
