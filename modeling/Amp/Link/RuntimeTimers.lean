import Amp.Link.MeshRuntime
import Mathlib.Data.List.Nodup

set_option autoImplicit false

/- When the tasks of timers run, and when they do not. -/
namespace Amp

/-- The timers moved out of the table whose tasks have not begun. -/
def Stage.due {α : Type} : Stage α → List (TimerEntry α)
  | .dueTimers batch => batch
  | _ => []

namespace MeshRuntime

variable {α : Type}

def due (m : MeshRuntime α) : List (TimerEntry α) := m.agenda.flatMap Stage.due

/-- The timers whose tasks are still to run. -/
def live (m : MeshRuntime α) : List (TimerEntry α) := m.timers ++ m.due

/-- Every timer runs at most once, no earlier than it was asked for and in no pass that had begun
when it was armed; one that was cancelled before it began does not run; and the timers that
wait can be told apart. -/
structure TimersFire (m : MeshRuntime α) : Prop where
  once : (m.ran.map TimerRun.serial).Nodup
  onTime : ∀ run ∈ m.ran, ∃ arm, m.armed[run.serial]? = some arm ∧
    arm.askedMs ≤ run.nowMs ∧ arm.passes < run.pass
  stopped : m.armed.length < 2 ^ 64 → ∀ serial ∈ m.cancelled, serial ∉ m.ran.map TimerRun.serial
  distinct : m.armed.length < 2 ^ 64 →
    (m.timers.map TimerEntry.id).Nodup ∧ ∀ entry ∈ m.timers, entry.id ≠ 0

/-- No timer is cancelled that is already moved out to run in the pass under way. -/
def CancelsInTime (m : MeshRuntime α) : RuntimeEvent α → Prop
  | .call (.cancelTimer id) => ∀ entry ∈ m.due, entry.id ≠ id
  | _ => True

/-- A time that `int64_t` can hold. -/
def FitsInt64 (ms : Int) : Prop := -2 ^ 63 ≤ ms ∧ ms < 2 ^ 63

/-- A deadline asked for is one that can be told. -/
def DeadlineFits (m : MeshRuntime α) : RuntimeEvent α → Prop
  | .call (.postAfter delayMs _) => FitsInt64 (m.afterMs delayMs)
  | .call (.postAt deadlineMs _) => FitsInt64 deadlineMs
  | _ => True

def Careful (m : MeshRuntime α) (event : RuntimeEvent α) : Prop :=
  m.CancelsInTime event ∧ m.DeadlineFits event

instance (m : MeshRuntime α) (event : RuntimeEvent α) : Decidable (m.Careful event) := by
  unfold Careful CancelsInTime DeadlineFits FitsInt64
  refine @instDecidableAnd _ _ ?_ ?_
  · split
    · infer_instance
    · infer_instance
  · split
    · infer_instance
    · infer_instance
    · infer_instance

/-- How a timer still to run goes back to its arming. -/
structure Armed (m : MeshRuntime α) (entry : TimerEntry α) (arm : TimerArm) : Prop where
  found : m.armed[entry.serial]? = some arm
  id : arm.id = entry.id
  deadline : arm.deadlineMs = entry.deadlineMs

structure Timed (m : MeshRuntime α) : Prop where
  entries : ∀ entry ∈ m.live, ∃ arm, m.Armed entry arm
  serials : (m.live.map TimerEntry.serial).Nodup
  unrun : ∀ entry ∈ m.live, entry.serial ∉ m.ran.map TimerRun.serial
  overdue : ∀ entry ∈ m.due, entry.deadlineMs ≤ m.nowMs ∧
    ∀ arm, m.armed[entry.serial]? = some arm → arm.passes < m.passes
  begun : ∀ arm ∈ m.armed, arm.passes ≤ m.passes
  once : (m.ran.map TimerRun.serial).Nodup
  onTime : ∀ run ∈ m.ran, ∃ arm, m.armed[run.serial]? = some arm ∧
    arm.deadlineMs ≤ run.nowMs ∧ arm.passes < run.pass

/-- How the ids of timers follow from their number. -/
structure Numbered (m : MeshRuntime α) : Prop where
  next : m.armed.length + 1 < 2 ^ 64 → m.nextTimerId.toNat = m.armed.length + 1
  ids : ∀ (serial : Nat) arm, m.armed[serial]? = some arm → m.armed.length < 2 ^ 64 →
    arm.id.toNat = serial + 1

/-- The timers cancelled are no longer to run, and did not. -/
structure Gone (m : MeshRuntime α) : Prop where
  old : ∀ serial ∈ m.cancelled, serial < m.armed.length
  absent : m.armed.length < 2 ^ 64 → ∀ serial ∈ m.cancelled,
    serial ∉ m.live.map TimerEntry.serial ∧ serial ∉ m.ran.map TimerRun.serial

theorem Timed.serial_lt {m : MeshRuntime α} (timed : m.Timed) {entry : TimerEntry α}
    (listed : entry ∈ m.live) : entry.serial < m.armed.length := by
  obtain ⟨arm, armed⟩ := timed.entries entry listed
  exact (List.getElem?_eq_some_iff.mp armed.found).1

theorem Timed.id_of_serial {m : MeshRuntime α} (timed : m.Timed) (numbered : m.Numbered)
    (few : m.armed.length < 2 ^ 64) {entry : TimerEntry α} (listed : entry ∈ m.live) :
    entry.id.toNat = entry.serial + 1 := by
  obtain ⟨arm, armed⟩ := timed.entries entry listed
  rw [← armed.id]
  exact numbered.ids entry.serial arm armed.found few

theorem Timed.distinct {m : MeshRuntime α} (timed : m.Timed) (numbered : m.Numbered)
    (few : m.armed.length < 2 ^ 64) :
    (m.timers.map TimerEntry.id).Nodup ∧ ∀ entry ∈ m.timers, entry.id ≠ 0 := by
  have listed : ∀ entry ∈ m.timers, entry ∈ m.live := fun _ held => List.mem_append_left _ held
  have serials : (m.timers.map TimerEntry.serial).Nodup := by
    have all := timed.serials
    unfold live at all
    rw [List.map_append] at all
    exact all.of_append_left
  constructor
  · have images : (m.timers.map TimerEntry.id).map UInt64.toNat =
        (m.timers.map TimerEntry.serial).map (· + 1) := by
      rw [List.map_map, List.map_map]
      apply List.map_congr_left
      intro entry held
      exact timed.id_of_serial numbered few (listed entry held)
    have shifted := serials.map (f := (· + 1)) fun _ _ same => Nat.succ.inj same
    rw [← images] at shifted
    exact List.Nodup.of_map _ shifted
  · intro entry held zero
    have id := timed.id_of_serial numbered few (listed entry held)
    rw [zero] at id
    cases id

structure Sound (m : MeshRuntime α) : Prop where
  timed : m.Timed
  numbered : m.Numbered
  gone : m.Gone

/-- Each timer waits for when it was asked. -/
def Asked (m : MeshRuntime α) : Prop := ∀ arm ∈ m.armed, arm.deadlineMs = arm.askedMs

theorem Sound.fires {m : MeshRuntime α} (sound : m.Sound) (asked : m.Asked) : m.TimersFire where
  once := sound.timed.once
  onTime run listed := by
    obtain ⟨arm, found, due, later⟩ := sound.timed.onTime run listed
    rw [asked arm (List.mem_of_getElem? found)] at due
    exact ⟨arm, found, due, later⟩
  stopped few serial listed := (sound.gone.absent few serial listed).2
  distinct := sound.timed.distinct sound.numbered

section Steps

variable {m after : MeshRuntime α}

/-- Timers that go, pass into a batch or are carried along. -/
theorem Timed.mono (timed : m.Timed) (within : ∀ entry ∈ after.live, entry ∈ m.live)
    (serials : (after.live.map TimerEntry.serial).Nodup)
    (overdue : ∀ entry ∈ after.due, entry.deadlineMs ≤ after.nowMs ∧
      ∀ arm, m.armed[entry.serial]? = some arm → arm.passes < after.passes)
    (armed : after.armed = m.armed) (ran : after.ran = m.ran) (passes : m.passes ≤ after.passes) :
    after.Timed where
  entries entry listed := by
    obtain ⟨arm, found, id, deadline⟩ := timed.entries entry (within entry listed)
    exact ⟨arm, armed ▸ found, id, deadline⟩
  serials := serials
  unrun entry listed := by
    rw [ran]
    exact timed.unrun entry (within entry listed)
  overdue entry listed := by
    rw [armed]
    exact overdue entry listed
  begun arm listed := by
    rw [armed] at listed
    exact Nat.le_trans (timed.begun arm listed) passes
  once := by
    rw [ran]
    exact timed.once
  onTime := by
    rw [ran, armed]
    exact timed.onTime

theorem Numbered.same (numbered : m.Numbered) (armed : after.armed = m.armed)
    (next : after.nextTimerId = m.nextTimerId) : after.Numbered where
  next := by
    rw [armed, next]
    exact numbered.next
  ids := by
    rw [armed]
    exact numbered.ids

theorem Gone.mono (gone : m.Gone) (within : ∀ entry ∈ after.live, entry ∈ m.live)
    (armed : after.armed = m.armed) (ran : after.ran = m.ran)
    (cancelled : after.cancelled = m.cancelled) : after.Gone where
  old := by
    rw [armed, cancelled]
    exact gone.old
  absent := by
    rw [armed, ran, cancelled]
    intro few serial listed
    obtain ⟨waits, runs⟩ := gone.absent few serial listed
    refine ⟨?_, runs⟩
    intro kept
    obtain ⟨entry, held, same⟩ := List.mem_map.mp kept
    exact waits (List.mem_map.mpr ⟨entry, within entry held, same⟩)

/-- What touches no timer. -/
theorem Sound.same (sound : m.Sound) (timers : after.timers = m.timers) (due : after.due = m.due)
    (armed : after.armed = m.armed) (ran : after.ran = m.ran)
    (cancelled : after.cancelled = m.cancelled) (passes : after.passes = m.passes)
    (next : after.nextTimerId = m.nextTimerId) (later : m.nowMs ≤ after.nowMs) : after.Sound := by
  have live : after.live = m.live := by
    unfold live
    rw [timers, due]
  have within : ∀ entry ∈ after.live, entry ∈ m.live := fun entry held => live ▸ held
  constructor
  · apply sound.timed.mono within
    · rw [live]
      exact sound.timed.serials
    · intro entry listed
      rw [due] at listed
      rw [passes]
      obtain ⟨late, early⟩ := sound.timed.overdue entry listed
      exact ⟨Int.le_trans late later, early⟩
    · exact armed
    · exact ran
    · exact Nat.le_of_eq passes.symm
  · exact sound.numbered.same armed next
  · exact sound.gone.mono within armed ran cancelled

theorem due_agenda (stages : List (Stage α)) : { m with agenda := stages }.due =
    stages.flatMap Stage.due := rfl

/-- A turn begins with nothing moved out. -/
theorem begin_sound (sound : m.Sound) {stages : List (Stage α)}
    (clear : stages.flatMap Stage.due = []) : (m.begin stages).Sound := by
  unfold begin
  split
  · exact sound
  · rename_i idle
    have empty : m.agenda = [] := by
      unfold driving at idle
      simpa using idle
    have same : { m with agenda := stages }.due = m.due := by
      rw [due_agenda, clear]
      unfold due
      rw [empty]
      rfl
    exact sound.same rfl same rfl rfl rfl rfl rfl (Int.le_refl _)

theorem stop_sound (sound : m.Sound) : m.stop.Sound := by
  have within : ∀ entry ∈ m.stop.live, entry ∈ m.live :=
    fun entry held => List.mem_append_right _ held
  constructor
  · apply sound.timed.mono within
    · have all := sound.timed.serials
      unfold live at all
      rw [List.map_append] at all
      exact all.of_append_right
    · exact sound.timed.overdue
    · rfl
    · rfl
    · exact Nat.le_refl _
  · exact sound.numbered.same rfl rfl
  · exact sound.gone.mono within rfl rfl rfl

theorem arm_armed (askedMs : Int) (task : α) : (m.armTimer askedMs task).armed =
    m.armed ++ [⟨m.nextTimerId, inInt64 askedMs, askedMs, m.passes⟩] := rfl

/-- An arming before this one is still found. -/
theorem found_before {serial : Nat} {arm : TimerArm} (found : m.armed[serial]? = some arm)
    (askedMs : Int) (task : α) : (m.armTimer askedMs task).armed[serial]? = some arm := by
  rw [arm_armed, List.getElem?_append_left (List.getElem?_eq_some_iff.mp found).1]
  exact found

theorem arm_found (askedMs : Int) (task : α) :
    (m.armTimer askedMs task).armed[m.armed.length]? =
      some ⟨m.nextTimerId, inInt64 askedMs, askedMs, m.passes⟩ :=
  List.getElem?_concat_length

theorem arm_live (askedMs : Int) (task : α) {entry : TimerEntry α}
    (listed : entry ∈ (m.armTimer askedMs task).live) :
    entry ∈ m.live ∨ entry = ⟨m.nextTimerId, inInt64 askedMs, task, m.armed.length⟩ := by
  rcases List.mem_append.mp listed with waits | due
  · rcases List.mem_append.mp waits with old | new
    · exact .inl (List.mem_append_left _ old)
    · exact .inr (List.mem_singleton.mp new)
  · exact .inl (List.mem_append_right _ due)

theorem arm_timed (timed : m.Timed) (askedMs : Int) (task : α) :
    (m.armTimer askedMs task).Timed := by
  have low : ∀ entry ∈ m.live, entry.serial < m.armed.length :=
    fun entry listed => timed.serial_lt listed
  have ranLow : ∀ run ∈ m.ran, run.serial < m.armed.length := by
    intro run listed
    obtain ⟨arm, found, _⟩ := timed.onTime run listed
    exact (List.getElem?_eq_some_iff.mp found).1
  constructor
  · intro entry listed
    rcases arm_live askedMs task listed with old | rfl
    · obtain ⟨arm, found, id, deadline⟩ := timed.entries entry old
      exact ⟨arm, found_before found askedMs task, id, deadline⟩
    · exact ⟨_, arm_found askedMs task, rfl, rfl⟩
  · have apart := timed.serials
    unfold live at apart
    rw [List.map_append, List.nodup_append] at apart
    obtain ⟨waiting, moved, different⟩ := apart
    show ((m.timers ++ [_] ++ m.due).map TimerEntry.serial).Nodup
    rw [List.map_append, List.map_append, List.nodup_append, List.nodup_append]
    have newWaits : ∀ serial ∈ m.timers.map TimerEntry.serial, serial ≠ m.armed.length := by
      intro serial held same
      obtain ⟨entry, listed, serialOf⟩ := List.mem_map.mp held
      have small := low entry (List.mem_append_left _ listed)
      omega
    have newDue : ∀ serial ∈ m.due.map TimerEntry.serial, serial ≠ m.armed.length := by
      intro serial held same
      obtain ⟨entry, listed, serialOf⟩ := List.mem_map.mp held
      have small := low entry (List.mem_append_right _ listed)
      omega
    refine ⟨⟨waiting, List.nodup_singleton _, ?_⟩, moved, ?_⟩
    · intro serial held new own
      rw [List.mem_singleton.mp own]
      exact newWaits serial held
    · intro serial held other listed
      rcases List.mem_append.mp held with old | new
      · exact different serial old other listed
      · rw [List.mem_singleton.mp new]
        exact (newDue other listed).symm
  · intro entry listed runs
    rcases arm_live askedMs task listed with old | rfl
    · exact timed.unrun entry old runs
    · obtain ⟨run, ran, same⟩ := List.mem_map.mp runs
      have small := ranLow run ran
      have new : run.serial = m.armed.length := same
      omega
  · intro entry listed
    obtain ⟨late, early⟩ := timed.overdue entry listed
    refine ⟨late, ?_⟩
    intro arm found
    have small := low entry (List.mem_append_right _ listed)
    rw [arm_armed, List.getElem?_append_left small] at found
    exact early arm found
  · intro arm listed
    rcases List.mem_append.mp listed with old | new
    · exact timed.begun arm old
    · rw [List.mem_singleton.mp new]
      exact Nat.le_refl _
  · exact timed.once
  · intro run listed
    obtain ⟨arm, found, bounds⟩ := timed.onTime run listed
    exact ⟨arm, found_before found askedMs task, bounds⟩

theorem nextIdAfter_toNat {id : UInt64} (room : id.toNat + 1 < 2 ^ 64) :
    (nextIdAfter id).toNat = id.toNat + 1 := by
  have one : (1 : UInt64).toNat = 1 := rfl
  have sum : (id + 1).toNat = id.toNat + 1 := by
    rw [UInt64.toNat_add, one]
    exact Nat.mod_eq_of_lt room
  have positive : id + 1 ≠ 0 := by
    intro zero
    rw [zero] at sum
    cases sum
  unfold nextIdAfter
  rw [if_neg positive]
  exact sum

theorem arm_numbered (numbered : m.Numbered) (askedMs : Int) (task : α) :
    (m.armTimer askedMs task).Numbered := by
  have length : (m.armTimer askedMs task).armed.length = m.armed.length + 1 :=
    List.length_append
  constructor
  · rw [length]
    intro few
    have stands := numbered.next (by omega)
    show (nextIdAfter m.nextTimerId).toNat = _
    rw [nextIdAfter_toNat (by omega), stands]
  · rw [length, arm_armed]
    intro serial arm found few
    rw [List.getElem?_append] at found
    split at found
    · exact numbered.ids serial arm found (by omega)
    · obtain ⟨first, same⟩ := List.getElem?_eq_some_iff.mp found
      have only : serial - m.armed.length < 1 := first
      have last : serial = m.armed.length := by omega
      subst last
      have id : arm.id = m.nextTimerId := by
        rw [← same]
        simp only [Nat.sub_self, List.getElem_cons_zero]
      rw [id]
      exact numbered.next few

theorem arm_gone (gone : m.Gone) (askedMs : Int) (task : α) :
    (m.armTimer askedMs task).Gone := by
  have length : (m.armTimer askedMs task).armed.length = m.armed.length + 1 :=
    List.length_append
  constructor
  · intro serial listed
    have old := gone.old serial listed
    omega
  · intro few serial listed
    obtain ⟨waits, runs⟩ := gone.absent (by omega) serial listed
    refine ⟨?_, runs⟩
    intro kept
    obtain ⟨entry, held, same⟩ := List.mem_map.mp kept
    rcases arm_live askedMs task held with old | rfl
    · exact waits (List.mem_map.mpr ⟨entry, old, same⟩)
    · have old := gone.old serial listed
      have new : m.armed.length = serial := same
      omega

theorem arm_sound (sound : m.Sound) (askedMs : Int) (task : α) :
    (m.armTimer askedMs task).Sound :=
  ⟨arm_timed sound.timed askedMs task, arm_numbered sound.numbered askedMs task,
    arm_gone sound.gone askedMs task⟩

/-- Where no two share a name, the one erased by its name was the only one. -/
theorem ne_of_mem_eraseP {β : Type} (name : β → UInt64) {id : UInt64} {left : β} :
    ∀ {items : List β}, (items.map name).Nodup →
      left ∈ items.eraseP (fun item => name item == id) → name left ≠ id := by
  intro items
  induction items with
  | nil => exact fun _ listed => absurd listed List.not_mem_nil
  | cons item rest ih =>
      intro nodup listed own
      rw [List.map_cons, List.nodup_cons] at nodup
      rw [List.eraseP_cons] at listed
      cases hit : name item == id with
      | true =>
        rw [hit, cond_true] at listed
        apply nodup.1
        rw [beq_iff_eq.mp hit, ← own]
        exact List.mem_map_of_mem listed
      | false =>
        rw [hit, cond_false] at listed
        rcases List.mem_cons.mp listed with rfl | later
        · exact absurd (beq_iff_eq.mpr own) (by rw [hit]; exact Bool.false_ne_true)
        · exact ih nodup.2 later own

theorem cancel_live {id : UInt64} : ∀ entry ∈ (m.cancelTimer id).live, entry ∈ m.live := by
  intro entry listed
  unfold cancelTimer at listed
  split at listed
  · exact listed
  · rcases List.mem_append.mp listed with waits | due
    · exact List.mem_append_left _ (List.mem_of_mem_eraseP waits)
    · exact List.mem_append_right _ due

theorem cancel_serials (timed : m.Timed) (id : UInt64) :
    ((m.cancelTimer id).live.map TimerEntry.serial).Nodup := by
  unfold cancelTimer
  split
  · exact timed.serials
  · have shorter : (m.timers.eraseP fun entry => entry.id == id).Sublist m.timers :=
      List.eraseP_sublist
    exact ((shorter.append_right m.due).map TimerEntry.serial).nodup timed.serials

theorem mem_pendingWith {id : UInt64} {serial : Nat} (listed : serial ∈ m.pendingWith id) :
    (∃ arm, m.armed[serial]? = some arm ∧ arm.id = id) ∧ serial ∉ m.ran.map TimerRun.serial := by
  obtain ⟨_, both⟩ := List.mem_filter.mp listed
  obtain ⟨named, unrun⟩ := Bool.and_eq_true_iff.mp both
  constructor
  · cases found : m.armed[serial]? with
    | none =>
        rw [found] at named
        cases named
    | some arm =>
        rw [found] at named
        exact ⟨arm, rfl, beq_iff_eq.mp named⟩
  · intro runs
    obtain ⟨run, ran, same⟩ := List.mem_map.mp runs
    have other := List.all_eq_true.mp unrun run ran
    rw [same] at other
    exact absurd other (by simp)

/-- A timer cancelled in time is out of the table, and was not in a batch. -/
theorem cancel_gone (sound : m.Sound) {id : UInt64} (inTime : ∀ entry ∈ m.due, entry.id ≠ id) :
    (m.cancelTimer id).Gone := by
  unfold cancelTimer
  split
  · exact sound.gone
  · constructor
    · intro serial listed
      rcases List.mem_append.mp listed with old | new
      · exact sound.gone.old serial old
      · obtain ⟨⟨arm, found, _⟩, _⟩ := mem_pendingWith new
        exact (List.getElem?_eq_some_iff.mp found).1
    · intro few serial listed
      rcases List.mem_append.mp listed with old | new
      · obtain ⟨waits, runs⟩ := sound.gone.absent few serial old
        refine ⟨?_, runs⟩
        intro kept
        obtain ⟨entry, held, same⟩ := List.mem_map.mp kept
        apply waits
        refine List.mem_map.mpr ⟨entry, ?_, same⟩
        rcases List.mem_append.mp held with left | due
        · exact List.mem_append_left _ (List.mem_of_mem_eraseP left)
        · exact List.mem_append_right _ due
      · obtain ⟨⟨arm, found, named⟩, unrun⟩ := mem_pendingWith new
        refine ⟨?_, unrun⟩
        intro kept
        obtain ⟨entry, held, same⟩ := List.mem_map.mp kept
        have id_of : entry ∈ m.live → entry.id = id := by
          intro live
          obtain ⟨own, ownFound, ownId, _⟩ := sound.timed.entries entry live
          have arms : own = arm := by
            rw [same, found] at ownFound
            exact (Option.some.inj ownFound).symm
          rw [← ownId, arms, named]
        rcases List.mem_append.mp held with left | due
        · have live : entry ∈ m.live := List.mem_append_left _ (List.mem_of_mem_eraseP left)
          have distinct := (sound.timed.distinct sound.numbered few).1
          exact ne_of_mem_eraseP TimerEntry.id distinct left (id_of live)
        · exact inTime entry due (id_of (List.mem_append_right _ due))

theorem cancel_sound (sound : m.Sound) {id : UInt64} (inTime : ∀ entry ∈ m.due, entry.id ≠ id) :
    (m.cancelTimer id).Sound := by
  have gone := cancel_gone sound inTime
  have serials := cancel_serials sound.timed id
  have within : ∀ entry ∈ (m.cancelTimer id).live, entry ∈ m.live := cancel_live
  unfold cancelTimer at gone serials within ⊢
  split
  · exact sound
  · rename_i real
    rw [if_neg real] at gone serials within
    constructor
    · exact sound.timed.mono within serials sound.timed.overdue rfl rfl (Nat.le_refl _)
    · exact sound.numbered.same rfl rfl
    · exact gone

theorem collect_live (rest : List (Stage α)) (agenda : m.agenda = .fireTimers :: rest) :
    (m.collectDue rest).live.Perm m.live := by
  have waiting : m.due = rest.flatMap Stage.due := by
    unfold due
    rw [agenda]
    rfl
  have parts : (m.collectDue rest).live = (m.timers.filter fun entry => !m.isDue entry) ++
      (m.timers.filter m.isDue ++ m.due) := by
    rw [waiting]
    rfl
  rw [parts, ← List.append_assoc]
  apply List.Perm.append_right
  exact List.perm_append_comm.trans (List.filter_append_perm m.isDue m.timers)

/-- What is moved out is due, and was armed before this pass. -/
theorem collect_sound (sound : m.Sound) {rest : List (Stage α)}
    (agenda : m.agenda = .fireTimers :: rest) : (m.collectDue rest).Sound := by
  have same := collect_live rest agenda
  have within : ∀ entry ∈ (m.collectDue rest).live, entry ∈ m.live :=
    fun entry listed => same.subset listed
  constructor
  · apply sound.timed.mono within
    · exact (same.map TimerEntry.serial).nodup_iff.mpr sound.timed.serials
    · intro entry listed
      have dues : (m.collectDue rest).due = m.timers.filter m.isDue ++ rest.flatMap Stage.due := rfl
      rw [dues] at listed
      have early : ∀ arm, m.armed[entry.serial]? = some arm → arm.passes < m.passes + 1 :=
        fun arm found => Nat.lt_succ_of_le (sound.timed.begun arm (List.mem_of_getElem? found))
      refine ⟨?_, early⟩
      rcases List.mem_append.mp listed with moved | waits
      · exact of_decide_eq_true (List.mem_filter.mp moved).2
      · have old : entry ∈ m.due := by
          unfold due
          rw [agenda]
          exact waits
        exact (sound.timed.overdue entry old).1
    · rfl
    · rfl
    · exact Nat.le_succ _
  · exact sound.numbered.same rfl rfl
  · exact sound.gone.mono within rfl rfl rfl

/-- The next due task begins. -/
def fire (m : MeshRuntime α) (entry : TimerEntry α) (batch : List (TimerEntry α))
    (rest : List (Stage α)) : MeshRuntime α :=
  { m with
    agenda := .dueTimers batch :: rest
    ran := m.ran ++ [⟨entry.serial, m.nowMs, m.passes⟩] }

theorem fire_sound (sound : m.Sound) {entry : TimerEntry α} {batch : List (TimerEntry α)}
    {rest : List (Stage α)} (agenda : m.agenda = .dueTimers (entry :: batch) :: rest) :
    (m.fire entry batch rest).Sound := by
  have dues : m.due = entry :: (batch ++ rest.flatMap Stage.due) := by
    unfold due
    rw [agenda]
    rfl
  have left : (m.fire entry batch rest).due = batch ++ rest.flatMap Stage.due := rfl
  have moved : entry ∈ m.due := by
    rw [dues]
    exact List.mem_cons_self
  have whole : (entry :: (m.fire entry batch rest).live).Perm m.live := by
    have parts : m.live = m.timers ++ entry :: (m.fire entry batch rest).due := by
      unfold live
      rw [dues, left]
    rw [parts]
    exact List.perm_middle.symm
  have within : ∀ other ∈ (m.fire entry batch rest).live, other ∈ m.live :=
    fun other listed => whole.subset (List.mem_cons_of_mem entry listed)
  have serials : ((entry :: (m.fire entry batch rest).live).map TimerEntry.serial).Nodup :=
    (whole.map TimerEntry.serial).nodup_iff.mpr sound.timed.serials
  rw [List.map_cons, List.nodup_cons] at serials
  have listed : entry ∈ m.live := List.mem_append_right _ moved
  have runs : (m.fire entry batch rest).ran.map TimerRun.serial =
      m.ran.map TimerRun.serial ++ [entry.serial] := List.map_append
  obtain ⟨late, early⟩ := sound.timed.overdue entry moved
  constructor
  · constructor
    · intro other kept
      obtain ⟨arm, found, id, deadline⟩ := sound.timed.entries other (within other kept)
      exact ⟨arm, found, id, deadline⟩
    · exact serials.2
    · rw [runs]
      intro other kept
      rw [List.mem_append, List.mem_singleton]
      rintro (before | now)
      · exact sound.timed.unrun other (within other kept) before
      · apply serials.1
        rw [← now]
        exact List.mem_map_of_mem kept
    · rw [left]
      intro other kept
      apply sound.timed.overdue other
      rw [dues]
      exact List.mem_cons_of_mem entry kept
    · exact sound.timed.begun
    · rw [runs, List.nodup_append]
      refine ⟨sound.timed.once, List.nodup_singleton _, ?_⟩
      intro serial before other now
      rw [List.mem_singleton.mp now]
      rintro rfl
      exact sound.timed.unrun entry listed before
    · intro run kept
      rcases List.mem_append.mp kept with before | now
      · exact sound.timed.onTime run before
      · rw [List.mem_singleton.mp now]
        obtain ⟨arm, found, _, deadline⟩ := sound.timed.entries entry listed
        exact ⟨arm, found, by rw [deadline]; exact late, early arm found⟩
  · exact sound.numbered.same rfl rfl
  · constructor
    · exact sound.gone.old
    · intro few serial gone
      obtain ⟨waits, unrun⟩ := sound.gone.absent few serial gone
      constructor
      · intro kept
        obtain ⟨other, held, same⟩ := List.mem_map.mp kept
        exact waits (List.mem_map.mpr ⟨other, within other held, same⟩)
      · rw [runs, List.mem_append, List.mem_singleton]
        rintro (before | now)
        · exact unrun before
        · apply waits
          rw [now]
          exact List.mem_map_of_mem listed

/-- A stage with nothing moved out gives way to others like it. -/
theorem turn_sound (sound : m.Sound) {stage : Stage α} {rest : List (Stage α)}
    (agenda : m.agenda = stage :: rest) (clear : stage.due = []) (queue deferred : List α)
    (stages : List (Stage α)) (cleared : stages.flatMap Stage.due = []) :
    { m with ioQueue := queue, deferredQueue := deferred, agenda := stages ++ rest }.Sound := by
  have due : (stages ++ rest).flatMap Stage.due = m.due := by
    unfold due
    rw [agenda, List.flatMap_append, cleared, List.flatMap_cons, clear]
  exact sound.same rfl due rfl rfl rfl rfl rfl (Int.le_refl _)

theorem advance_sound (sound : m.Sound) : m.advance.1.Sound := by
  unfold advance
  split
  · exact sound
  · rename_i rest agenda
    exact turn_sound sound agenda rfl m.ioQueue m.deferredQueue [] rfl
  · rename_i id ids rest agenda
    exact turn_sound sound agenda rfl m.ioQueue m.deferredQueue [.ioTicks ids] rfl
  · rename_i rest agenda
    exact turn_sound sound agenda rfl m.ioQueue m.deferredQueue [] rfl
  · rename_i budget rest agenda
    split
    · exact turn_sound sound agenda rfl m.ioQueue m.deferredQueue [] rfl
    · rename_i task queue _
      exact turn_sound sound agenda rfl queue m.deferredQueue [.drainPostedIo budget] rfl
  · rename_i rest agenda
    exact turn_sound sound agenda rfl m.ioQueue m.deferredQueue [] rfl
  · rename_i rest agenda
    exact turn_sound sound agenda rfl m.ioQueue m.deferredQueue [] rfl
  · rename_i rest agenda
    split
    · exact turn_sound sound agenda rfl m.ioQueue m.deferredQueue [] rfl
    · rename_i task batch _
      exact turn_sound sound agenda rfl m.ioQueue [] [.drainDeferred (task :: batch)] rfl
  · rename_i task batch rest agenda
    exact turn_sound sound agenda rfl m.ioQueue m.deferredQueue [.drainDeferred batch] rfl
  · rename_i rest agenda
    exact collect_sound sound agenda
  · rename_i rest agenda
    exact turn_sound sound agenda rfl m.ioQueue m.deferredQueue [] rfl
  · rename_i entry batch rest agenda
    exact fire_sound sound agenda

theorem postAt_sound (sound : m.Sound) (deadlineMs : Int) (task : Option α) :
    (m.postAt deadlineMs task).1.Sound := by
  cases task with
  | none => exact sound
  | some task => exact arm_sound sound deadlineMs task

theorem call_sound (sound : m.Sound) (made : RuntimeCall α)
    (inTime : m.CancelsInTime (.call made)) : (m.call made).Sound := by
  cases made with
  | postToIo task =>
      cases task with
      | none => exact sound
      | some task => exact sound.same rfl rfl rfl rfl rfl rfl rfl (Int.le_refl _)
  | postDeferred task =>
      cases task with
      | none => exact sound
      | some task => exact sound.same rfl rfl rfl rfl rfl rfl rfl (Int.le_refl _)
  | postAfter delayMs task => exact postAt_sound sound _ task
  | postAt deadlineMs task => exact postAt_sound sound deadlineMs task
  | cancelTimer id => exact cancel_sound sound inTime
  | addIoTick tick =>
      cases tick with
      | none => exact sound
      | some tick => exact sound.same rfl rfl rfl rfl rfl rfl rfl (Int.le_refl _)
  | removeIoTick id => exact sound.same rfl rfl rfl rfl rfl rfl rfl (Int.le_refl _)
  | pump => exact begin_sound sound rfl
  | tick => exact begin_sound sound rfl
  | drive => exact begin_sound sound rfl
  | stop => exact stop_sound sound
  | elapse ms =>
      have later : m.nowMs ≤ m.nowMs + ms := by omega
      exact sound.same rfl rfl rfl rfl rfl rfl rfl later

theorem step_sound (sound : m.Sound) (event : RuntimeEvent α) (inTime : m.CancelsInTime event) :
    (m.step event).Sound := by
  cases event with
  | call made => exact call_sound sound made inTime
  | advance => exact advance_sound sound

theorem inInt64_fits {ms : Int} (fits : FitsInt64 ms) : inInt64 ms = ms := by
  obtain ⟨low, high⟩ := fits
  unfold inInt64
  rw [Int.bmod_def]
  split
  · omega
  · omega

theorem postAt_asked (asked : m.Asked) {deadlineMs : Int} (fits : FitsInt64 deadlineMs)
    (task : Option α) : (m.postAt deadlineMs task).1.Asked := by
  cases task with
  | none => exact asked
  | some task =>
      intro arm listed
      rcases List.mem_append.mp listed with old | new
      · exact asked arm old
      · rw [List.mem_singleton.mp new]
        exact inInt64_fits fits

theorem begin_armed (stages : List (Stage α)) : (m.begin stages).armed = m.armed := by
  unfold begin
  split
  · rfl
  · rfl

theorem advance_armed : m.advance.1.armed = m.armed := by
  unfold advance
  split
  any_goals rfl
  · split
    · rfl
    · rfl
  · split
    · rfl
    · rfl

theorem step_asked (asked : m.Asked) (event : RuntimeEvent α) (fits : m.DeadlineFits event) :
    (m.step event).Asked := by
  have kept {after : MeshRuntime α} (same : after.armed = m.armed) : after.Asked := by
    unfold Asked
    rwa [same]
  cases event with
  | advance => exact kept advance_armed
  | call made =>
      cases made with
      | postToIo task => cases task <;> exact kept rfl
      | postDeferred task => cases task <;> exact kept rfl
      | postAfter delayMs task => exact postAt_asked asked fits task
      | postAt deadlineMs task => exact postAt_asked asked fits task
      | cancelTimer id =>
          apply kept
          show (m.cancelTimer id).armed = m.armed
          unfold cancelTimer
          split
          · rfl
          · rfl
      | addIoTick tick => cases tick <;> exact kept rfl
      | removeIoTick id => exact kept rfl
      | pump => exact kept (begin_armed _)
      | tick => exact kept (begin_armed _)
      | drive => exact kept (begin_armed _)
      | stop => exact kept rfl
      | elapse ms => exact kept rfl

end Steps

theorem new_sound (nowMs : Int) : ({ nowMs := nowMs } : MeshRuntime α).Sound where
  timed := {
    entries := nofun
    serials := List.nodup_nil
    unrun := nofun
    overdue := nofun
    begun := nofun
    once := List.nodup_nil
    onTime := nofun }
  numbered := {
    next := fun _ => rfl
    ids := nofun }
  gone := {
    old := nofun
    absent := nofun }

/-- Timers fire as they are to in every run that cancels none once it is moved out to run and asks
for no deadline that cannot be told. -/
theorem timers_fire (nowMs : Int) (events : List (RuntimeEvent α))
    (careful : Run.Meets step Careful ({ nowMs := nowMs } : MeshRuntime α) events) :
    Run.Always step TimersFire ({ nowMs := nowMs } : MeshRuntime α) events := by
  apply Run.always_of_invariant step Careful (fun m => m.Sound ∧ m.Asked) TimersFire
  · rintro m event ⟨inTime, fits⟩ ⟨sound, asked⟩
    exact ⟨step_sound sound event inTime, step_asked asked event fits⟩
  · exact fun m kept => kept.1.fires kept.2
  · exact careful
  · exact ⟨new_sound nowMs, nofun⟩

/-- Two timers of one deadline, and a turn up to the task of the first. -/
def firstOfTwo : List (RuntimeEvent Nat) :=
  [.call (.postAfter 5 (some 0)), .call (.postAfter 5 (some 1)), .call (.elapse 5), .call .tick,
    .advance, .advance, .advance, .advance, .advance]

/-- A third timer, cancelled in time, and one armed by the first task. -/
def cancelledInTime : List (RuntimeEvent Nat) :=
  .call (.postAfter 3 (some 2)) :: .call (.cancelTimer 1) :: firstOfTwo ++
    [.call (.postAfter 0 (some 3)), .advance]

theorem timers_fire_sample :
    Run.Meets step Careful ({ nowMs := 0 } : MeshRuntime Nat) cancelledInTime ∧
      Run.Always step TimersFire ({ nowMs := 0 } : MeshRuntime Nat) cancelledInTime := by
  have careful : Run.Meets step Careful ({ nowMs := 0 } : MeshRuntime Nat) cancelledInTime := by
    decide
  exact ⟨careful, timers_fire 0 cancelledInTime careful⟩

/-- A delay past the end of `int64_t`, and the next turn. -/
def endlessDelay : List (RuntimeEvent Nat) :=
  [.call (.postAfter (2 ^ 63 - 1) (some 0)), .call .tick, .advance, .advance, .advance, .advance, .advance]

/-- The first of two tasks cancels the second, which runs all the same; and a delay past the end of
`int64_t` is over at once. -/
theorem cancelled_runs :
    ¬ Run.Always step TimersFire ({ nowMs := 0 } : MeshRuntime Nat)
      (firstOfTwo ++ [.call (.cancelTimer 2), .advance]) ∧
    ¬ Run.Always step TimersFire ({ nowMs := 1 } : MeshRuntime Nat) endlessDelay := by
  constructor
  · intro always
    have last := always.last
    have cancelled : (Run.exec step ({ nowMs := 0 } : MeshRuntime Nat)
        (firstOfTwo ++ [.call (.cancelTimer 2), .advance])).cancelled = [1] := by decide
    have ran : (Run.exec step ({ nowMs := 0 } : MeshRuntime Nat)
        (firstOfTwo ++ [.call (.cancelTimer 2), .advance])).ran = [⟨0, 5, 1⟩, ⟨1, 5, 1⟩] := by decide
    have armed : (Run.exec step ({ nowMs := 0 } : MeshRuntime Nat)
        (firstOfTwo ++ [.call (.cancelTimer 2), .advance])).armed.length = 2 := by decide
    have few : 2 < 2 ^ 64 := by omega
    have stopped := last.stopped (armed ▸ few) 1
    rw [cancelled, ran] at stopped
    exact stopped (by decide) (by decide)
  · intro always
    obtain ⟨arm, found, due, _⟩ := always.last.onTime ⟨0, 1, 1⟩ (by decide +kernel)
    have asked : (Run.exec step ({ nowMs := 1 } : MeshRuntime Nat) endlessDelay).armed =
        [⟨1, -2 ^ 63, 2 ^ 63, 0⟩] := by decide +kernel
    rw [asked] at found
    rw [← Option.some.inj found] at due
    exact absurd due (by decide)

end MeshRuntime

end Amp
