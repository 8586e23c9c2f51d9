import Amp.Link.BurstRuns

set_option autoImplicit false

/- When burst jobs are done: no later than the turn in which their windows end. -/
namespace Amp

namespace MeshRuntime

variable {α : Type} {m : MeshRuntime α}

/-- A turn under way ends with a drain of the deferred. -/
def Closes (m : MeshRuntime α) : Prop :=
  m.agenda ≠ [] → ∃ front batch, m.agenda = front ++ [.drainDeferred batch]

theorem call_closes (closes : m.Closes) (made : RuntimeCall α) : (m.call made).Closes := by
  cases m.callCase made with
  | posted task => exact closes
  | deferred task => exact closes
  | stopped => exact closes
  | turn stages quiet clear begins ends =>
      rw [begins]
      unfold begin
      split
      · exact closes
      · obtain ⟨front, shape⟩ := ends
        exact fun _ => ⟨front, [], shape⟩
  | other quiet io deferred agenda =>
      unfold Closes
      rw [agenda]
      exact closes

/-- A turn that is over has left nothing deferred. -/
theorem advance_closing (closes : m.Closes) (driving : m.agenda ≠ []) : m.advance.1.Closing := by
  have closing : m.Closing := ⟨closes, fun empty => absurd empty driving⟩
  have busy : m.driving = true := by simpa [MeshRuntime.driving] using driving
  have inTurn : m.InTurn .advance := ⟨busy, id⟩
  exact step_closing closing inTurn

theorem advance_idle (idle : m.agenda = []) : m.advance = (m, none) := by
  simp [advance, idle]

/-- A turn goes on as long as its tasks begin. -/
theorem begun_busy {task : α} (begun : m.advance.2 = some task) : m.advance.1.agenda ≠ [] := by
  cases m.advanceCase with
  | idle empty next => simp [next] at begun
  | ioTask stage waits next => simp [next]
  | taken stage waits next => simp [next]
  | deferredTask stage next => simp [next]
  | due stage next => simp [next] at begun
  | ended now next => simp [next] at begun
  | ioTick stage next => simp [next]
  | dueTask stage next => simp [next]

end MeshRuntime

namespace BurstRuntime

section Steps

variable {this : BurstRuntime}

/-- The jobs called before keep their numbers, their dials and their windows. -/
def Carried (this after : BurstRuntime) : Prop :=
  ∀ (job : Nat) (state : BurstJob), this.jobs[job]? = some state →
    ∃ later : BurstJob, after.jobs[job]? = some later ∧
      later.keys = state.keys ∧ later.windowEndsMs = state.windowEndsMs

theorem Carried.same {after : BurstRuntime} (jobs : after.jobs = this.jobs) : Carried this after :=
  fun _ state found => ⟨state, jobs ▸ found, rfl, rfl⟩

theorem Carried.trans {one two : BurstRuntime} (first : Carried this one) (second : Carried one two) :
    Carried this two := by
  intro job state found
  obtain ⟨middle, there, keys, window⟩ := first job state found
  obtain ⟨later, still, sameKeys, sameWindow⟩ := second job middle there
  exact ⟨later, still, sameKeys.trans keys, sameWindow.trans window⟩

theorem Carried.modifyJob (this : BurstRuntime) (job : Nat) {change : BurstJob → BurstJob}
    (keeps : ∀ state, (change state).keys = state.keys ∧
      (change state).windowEndsMs = state.windowEndsMs) : Carried this (this.modifyJob job change) := by
  intro other state found
  rw [getElem?_modifyJob]
  split
  · exact ⟨change state, by rw [found]; rfl, keeps state⟩
  · exact ⟨state, found, rfl, rfl⟩

/-- What a job does to the runtime it runs in, once it is called: it posts. -/
structure Posts (this after : BurstRuntime) : Prop where
  carried : Carried this after
  agenda : after.runtime.agenda = this.runtime.agenda
  timers : after.runtime.timers = this.runtime.timers
  nowMs : after.runtime.nowMs = this.runtime.nowMs

theorem finish_posts (this : BurstRuntime) (job : Nat) (result : BurstDialResult) :
    Posts this (this.finish job result) := by
  unfold finish
  split
  · exact ⟨.same rfl, rfl, rfl, rfl⟩
  · exact ⟨.modifyJob this job fun _ => ⟨rfl, rfl⟩, rfl, rfl, rfl⟩

theorem runTask_posts [MultiaddrParser] (this : BurstRuntime) (task : BurstTask) :
    Posts this (this.runTask task) := by
  cases task with
  | settle job result => exact ⟨.same rfl, rfl, rfl, rfl⟩
  | window job => exact finish_posts this job _
  | poll job =>
      unfold runTask
      dsimp only
      split
      · exact ⟨.same rfl, rfl, rfl, rfl⟩
      · split
        · exact finish_posts this job _
        · exact ⟨.same rfl, rfl, rfl, rfl⟩
  | other task => exact ⟨.same rfl, rfl, rfl, rfl⟩

theorem associationFailed_carried (this : BurstRuntime) (job : Nat) (message : String) :
    Carried this (this.associationFailed job message) := by
  apply Carried.modifyJob
  intro state
  split <;> exact ⟨rfl, rfl⟩

theorem calling_carried (this : BurstRuntime) (manager : PeerLinkManager) (state : BurstJob) :
    Carried this (this.calling manager state) := by
  intro job held found
  refine ⟨held, ?_, rfl, rfl⟩
  show (this.jobs ++ [state])[job]? = some held
  rw [List.getElem?_append_left (List.getElem?_eq_some_iff.mp found).1]
  exact found

/-- Between turns nothing waits to end a job that has had its window armed. -/
structure Prompt (this : BurstRuntime) : Prop where
  sound : this.Sound
  closes : this.runtime.Closes
  idle : this.runtime.agenda = [] → ∀ task ∈ this.runtime.deferredQueue, ∀ job,
    task.settles job = true → ∀ state, this.jobs[job]? = some state → state.windowEndsMs = none

/-- The job has been told, or waits for its timer, or for the turn to come. -/
def Timely (this : BurstRuntime) (job : Nat) (state : BurstJob) : Prop :=
  this.told job = 1 ∨
    match state.windowEndsMs with
    | some endsMs => ∃ entry ∈ this.runtime.timers, entry.task = .window job ∧
        entry.deadlineMs = endsMs
    | none => ∃ task ∈ this.runtime.deferredQueue, task.settles job = true

theorem Prompt.timely (prompt : this.Prompt) (idle : this.runtime.agenda = []) {job : Nat}
    {state : BurstJob} (found : this.jobs[job]? = some state) : this.Timely job state := by
  have account := prompt.sound.account job
  have at_ : this.settledAt job = state.settled := by
    unfold settledAt
    rw [found]
    rfl
  rw [at_] at account
  cases settled : state.settled with
  | false =>
      obtain ⟨endsMs, window, entry, listed, own, deadline⟩ :=
        prompt.sound.windows job state id found settled
      right
      rw [window]
      have due : this.runtime.due = [] := by
        unfold MeshRuntime.due
        rw [idle]
        rfl
      unfold MeshRuntime.live at listed
      rw [due, List.append_nil] at listed
      exact ⟨entry, listed, own, deadline⟩
  | true =>
      rw [settled, if_pos rfl] at account
      by_cases told : this.told job = 1
      · exact .inl told
      · have waits : 0 < this.settling job := by omega
        obtain ⟨task, listed, settles⟩ := List.countP_pos_iff.mp waits
        have queued : task ∈ this.runtime.deferredQueue := by
          unfold MeshRuntime.deferred at listed
          rw [idle] at listed
          exact listed
        right
        rw [prompt.idle idle task queued job settles state found]
        exact ⟨task, queued, settles⟩

variable [MultiaddrParser]

/-- A call of `BurstDial` in the runtime's eyes. -/
structure Enters (this after : BurstRuntime) : Prop where
  carried : Carried this after
  agenda : after.runtime.agenda = this.runtime.agenda
  nowMs : after.runtime.nowMs = this.runtime.nowMs
  timers : ∀ entry ∈ after.runtime.timers, entry ∈ this.runtime.timers ∨
    entry.task = .window this.jobs.length
  /-- What it defers ends a job that armed no window. -/
  deferred : ∀ task ∈ after.runtime.deferredQueue, task ∈ this.runtime.deferredQueue ∨
    ∃ result state, task = .settle this.jobs.length result ∧
      after.jobs[this.jobs.length]? = some state ∧ state.windowEndsMs = none

theorem burstDial_enters (this : BurstRuntime) (multiaddrs : List String) (windowMs : Int)
    (told : Nat → Option String) : Enters this (this.burstDial multiaddrs windowMs told) := by
  have called := burstDial_called this multiaddrs windowMs told
  generalize this.burstDial multiaddrs windowMs told = after at called
  cases called with
  | @ends manager state fresh result =>
      have posts := finish_posts (this.calling manager state) this.jobs.length result
      refine ⟨(calling_carried this manager state).trans posts.carried, posts.agenda, posts.nowMs,
        ?_, ?_⟩
      · intro entry listed
        rw [posts.timers] at listed
        exact .inl listed
      · intro task listed
        unfold finish at listed
        split at listed
        · exact .inl listed
        · rename_i free
          rcases List.mem_append.mp listed with old | new
          · exact .inl old
          · right
            refine ⟨result, { state with settled := true }, List.mem_singleton.mp new, ?_,
              fresh.window⟩
            unfold finish
            rw [if_neg free, calling_modify]
            exact List.getElem?_concat_length
  | @dials manager state fresh wait =>
      let windowed := { state with windowEndsMs := some (inInt64 (this.runtime.afterMs wait)) }
      refine ⟨calling_carried this manager windowed, rfl, rfl, ?_, fun _ listed => .inl listed⟩
      intro entry listed
      rcases List.mem_append.mp listed with old | new
      · exact .inl old
      · rw [List.mem_singleton.mp new]
        exact .inr rfl

omit [MultiaddrParser] in
/-- A task in line to end a job has a job to end. -/
theorem Sound.named (sound : this.Sound) {task : BurstTask}
    (listed : task ∈ this.runtime.deferredQueue) {job : Nat} (settles : task.settles job = true) :
    ∃ state, this.jobs[job]? = some state := by
  have within : task ∈ this.runtime.deferred := List.mem_append_right _ listed
  have waits : 0 < this.settling job := List.countP_pos_iff.mpr ⟨task, within, settles⟩
  have account := sound.account job
  cases found : this.jobs[job]? with
  | some state => exact ⟨state, rfl⟩
  | none =>
      have unsettled : this.settledAt job = false := by
        unfold settledAt
        rw [found]
        rfl
      rw [unsettled] at account
      have none : this.settling job + this.told job = 0 := account
      omega

theorem Prompt.burstDial (prompt : this.Prompt) (multiaddrs : List String) (windowMs : Int)
    (told : Nat → Option String) : (this.burstDial multiaddrs windowMs told).Prompt := by
  have enters := burstDial_enters this multiaddrs windowMs told
  refine ⟨prompt.sound.burstDial multiaddrs windowMs told, ?_, ?_⟩
  · unfold MeshRuntime.Closes
    rw [enters.agenda]
    exact prompt.closes
  · intro idle task listed job settles state found
    rw [enters.agenda] at idle
    rcases enters.deferred task listed with old | ⟨result, own, rfl, known, window⟩
    · obtain ⟨before, was⟩ := prompt.sound.named old settles
      obtain ⟨later, still, _, same⟩ := enters.carried job before was
      rw [found] at still
      rw [Option.some.inj still, same]
      exact prompt.idle idle task old job settles before was
    · have numbered : this.jobs.length = job := by simpa [BurstTask.settles] using settles
      rw [numbered, found] at known
      rw [Option.some.inj known]
      exact window

theorem advance_eq (this : BurstRuntime) :
    (this.runtime.advance.2 = none ∧
      this.advance = { this with runtime := this.runtime.advance.1 }) ∨
    ∃ task, this.runtime.advance.2 = some task ∧
      this.advance = { this with runtime := this.runtime.advance.1 }.runTask task := by
  unfold BurstRuntime.advance
  split
  · rename_i runtime next
    left
    rw [next]
    exact ⟨rfl, rfl⟩
  · rename_i runtime task next
    right
    rw [next]
    exact ⟨task, rfl, rfl⟩

theorem Prompt.advance (prompt : this.Prompt) : this.advance.Prompt := by
  by_cases idle : this.runtime.agenda = []
  · have same : this.advance = this := by
      unfold BurstRuntime.advance
      rw [MeshRuntime.advance_idle idle]
    rwa [same]
  · have closing := MeshRuntime.advance_closing prompt.closes idle
    refine ⟨prompt.sound.advance, ?_, ?_⟩
    · rcases advance_eq this with ⟨_, same⟩ | ⟨task, begun, same⟩
      · rw [same]
        exact closing.last
      · rw [same]
        unfold MeshRuntime.Closes
        rw [(runTask_posts _ task).agenda]
        exact closing.last
    · intro ends task listed
      rcases advance_eq this with ⟨_, same⟩ | ⟨begun, began, same⟩
      · rw [same] at ends listed
        rw [show this.runtime.advance.1.deferredQueue = [] from closing.emptied ends] at listed
        exact absurd listed List.not_mem_nil
      · rw [same, (runTask_posts _ begun).agenda] at ends
        exact absurd ends (MeshRuntime.begun_busy began)

omit [MultiaddrParser] in
theorem Prompt.call (prompt : this.Prompt) {made : RuntimeCall Nat}
    (leaves : this.LeavesBursts (.call made)) :
    Prompt { this with runtime := this.runtime.call (made.map .other) } := by
  refine ⟨prompt.sound.call leaves, MeshRuntime.call_closes prompt.closes _, ?_⟩
  intro idle task listed job settles state found
  have before : this.runtime.agenda = [] := by
    by_cases driving : this.runtime.driving = true
    · have same := MeshRuntime.call_agenda driving (made.map BurstTask.other)
      exact same.symm.trans idle
    · exact MeshRuntime.idle_of_not_driving driving
  have within : task ∈ (this.runtime.call (made.map BurstTask.other)).deferred :=
    List.mem_append_right _ listed
  rcases List.mem_append.mp ((MeshRuntime.call_deferred _).2.subset within) with old | new
  · have queued : task ∈ this.runtime.deferredQueue := by
      unfold MeshRuntime.deferred at old
      rw [before] at old
      exact old
    exact prompt.idle before task queued job settles state found
  · have none := others_settle made task (MeshRuntime.joins_tasks _ task new) job
    exact absurd (none.symm.trans settles) Bool.noConfusion

theorem Prompt.step (prompt : this.Prompt) {event : BurstEvent} (leaves : this.LeavesBursts event) :
    (this.step event).Prompt := by
  cases event with
  | burstDial multiaddrs windowMs told => exact prompt.burstDial multiaddrs windowMs told
  | associationFailed job message =>
      refine ⟨prompt.sound.step leaves, prompt.closes, ?_⟩
      intro idle task listed other settles state found
      have found : (this.associationFailed job message).jobs[other]? = some state := found
      obtain ⟨before, was⟩ := prompt.sound.named listed settles
      obtain ⟨later, still, _, same⟩ := associationFailed_carried this job message other before was
      rw [found] at still
      rw [Option.some.inj still, same]
      exact prompt.idle idle task listed other settles before was
  | manager event => exact ⟨prompt.sound.step leaves, prompt.closes, prompt.idle⟩
  | call made =>
      rw [step_call leaves]
      exact prompt.call leaves
  | advance => exact prompt.advance

/-- Within one turn, and what `LeavesBursts` asks. -/
def InTurn (this : BurstRuntime) (event : BurstEvent) : Prop :=
  this.runtime.driving = true ∧ this.LeavesBursts event

/-- The turn that began at `start` is still to fire the timers, or has fired those due then. -/
structure Turning (start this : BurstRuntime) : Prop where
  prompt : this.Prompt
  emptied : this.runtime.agenda = [] → this.runtime.deferredQueue = []
  carried : Carried start this
  clock : start.runtime.nowMs ≤ this.runtime.nowMs
  fired : .fireTimers ∈ this.runtime.agenda ∨ ∀ entry ∈ this.runtime.timers, ∀ job,
    job < start.jobs.length → entry.task = .window job → start.runtime.nowMs < entry.deadlineMs

theorem step_turning {start : BurstRuntime} (turning : Turning start this) {event : BurstEvent}
    (inTurn : this.InTurn event) : Turning start (this.step event) := by
  have prompt := turning.prompt.step inTurn.2
  have busy : this.runtime.agenda ≠ [] := MeshRuntime.agenda_of_driving inTurn.1
  have many : start.jobs.length ≤ this.jobs.length := by
    by_contra fewer
    have within : this.jobs.length < start.jobs.length := Nat.lt_of_not_le fewer
    obtain ⟨later, found, _⟩ := turning.carried _ _ (List.getElem?_eq_getElem within)
    exact Nat.lt_irrefl _ (List.getElem?_eq_some_iff.mp found).1
  cases event with
  | burstDial multiaddrs windowMs told =>
      have enters := burstDial_enters this multiaddrs windowMs told
      refine ⟨prompt, ?_, turning.carried.trans enters.carried, ?_, ?_⟩
      · intro empty
        exact absurd (enters.agenda.symm.trans empty) busy
      · exact enters.nowMs ▸ turning.clock
      · show Stage.fireTimers ∈ (this.burstDial multiaddrs windowMs told).runtime.agenda ∨ _
        rw [enters.agenda]
        rcases turning.fired with still | fired
        · exact .inl still
        · right
          intro entry listed job early own
          rcases enters.timers entry listed with old | new
          · exact fired entry old job early own
          · rw [own] at new
            have same : job = this.jobs.length := BurstTask.window.inj new
            omega
  | associationFailed job message =>
      exact ⟨prompt, turning.emptied,
        turning.carried.trans (associationFailed_carried this job message), turning.clock,
        turning.fired⟩
  | manager event =>
      exact ⟨prompt, turning.emptied, turning.carried.trans (.same rfl), turning.clock,
        turning.fired⟩
  | call made =>
      have same := MeshRuntime.call_agenda inTurn.1 (made.map BurstTask.other)
      refine ⟨prompt, ?_, turning.carried.trans (.same rfl), ?_, ?_⟩
      · intro empty
        exact absurd (same.symm.trans empty) busy
      · exact Int.le_trans turning.clock (MeshRuntime.call_nowMs _)
      · show Stage.fireTimers ∈ (this.runtime.call (made.map BurstTask.other)).agenda ∨ _
        rw [same]
        rcases turning.fired with still | fired
        · exact .inl still
        · right
          intro entry listed job early own
          rcases MeshRuntime.call_timers listed with old | new
          · exact fired entry old job early own
          · rw [tasks_map, own] at new
            obtain ⟨_, _, foreign⟩ := List.mem_map.mp new
            cases foreign
  | advance =>
      have closing := MeshRuntime.advance_closing turning.prompt.closes busy
      obtain ⟨clock, fewer, fires⟩ := MeshRuntime.advance_fires (m := this.runtime)
      have fired : .fireTimers ∈ this.runtime.advance.1.agenda ∨
          ∀ entry ∈ this.runtime.advance.1.timers, ∀ job, job < start.jobs.length →
            entry.task = .window job → start.runtime.nowMs < entry.deadlineMs := by
        rcases turning.fired with still | fired
        · rcases fires still with still | past
          · exact .inl still
          · exact .inr fun entry listed _ _ _ => Int.lt_of_le_of_lt turning.clock (past entry listed)
        · exact .inr fun entry listed => fired entry (fewer entry listed)
      have later : start.runtime.nowMs ≤ this.runtime.advance.1.nowMs := clock ▸ turning.clock
      show Turning start this.advance
      have prompt : this.advance.Prompt := prompt
      rcases advance_eq this with ⟨_, same⟩ | ⟨task, begun, same⟩
      · rw [same] at prompt ⊢
        exact ⟨prompt, closing.emptied, turning.carried.trans (.same rfl), later, fired⟩
      · rw [same] at prompt ⊢
        have posts := runTask_posts { this with runtime := this.runtime.advance.1 } task
        have moved : Carried this { this with runtime := this.runtime.advance.1 } := .same rfl
        refine ⟨prompt, ?_, turning.carried.trans (moved.trans posts.carried), ?_, ?_⟩
        · intro empty
          exact absurd (posts.agenda.symm.trans empty) (MeshRuntime.begun_busy begun)
        · rw [posts.nowMs]
          exact later
        · rw [posts.agenda, posts.timers]
          exact fired

omit [MultiaddrParser] in
theorem find_unregister (book : DialBook) (key : DialKey) : (book.unregisterEndpoint key).find key = none := by
  unfold DialBook.find DialBook.unregisterEndpoint
  rw [Option.map_eq_none_iff, List.find?_eq_none]
  intro entry listed named
  have other := (List.mem_filter.mp listed).2
  simp_all

omit [MultiaddrParser] in
/-- What was unregistered stays so while other keys are. -/
theorem find_unregisterKeys (keys : List DialKey) {key : DialKey} : ∀ book : DialBook,
    book.find key = none ∨ key ∈ keys → (keys.foldl DialBook.unregisterEndpoint book).find key = none := by
  induction keys with
  | nil =>
      intro book gone
      exact gone.resolve_right List.not_mem_nil
  | cons first rest ih =>
      intro book gone
      rw [List.foldl_cons]
      by_cases same : first = key
      · apply ih
        left
        rw [same]
        exact find_unregister book key
      · apply ih
        rcases gone with gone | listed
        · left
          rw [DialBook.find_unregister_other book same]
          exact gone
        · right
          rcases List.mem_cons.mp listed with own | later
          · exact absurd own.symm same
          · exact later

omit [MultiaddrParser] in
theorem contains_unregisterKeys (m : PeerLinkManager) (keys : List DialKey) :
    ∀ key ∈ keys, (unregisterKeys m keys).book.contains key = false := by
  intro key own
  have gone := find_unregisterKeys keys (m.book) (.inr own)
  show ((keys.foldl DialBook.unregisterEndpoint m.book).find key).isSome = false
  rw [gone]
  rfl

/-- A job's keys are out of the book by the time its `on_done` is called. -/
def Clears (settlement : Settlement) : Prop :=
  ∀ key ∈ settlement.keys, settlement.after.book.contains key = false

/-- A step calls `on_done` at most once. -/
theorem step_settlements (this : BurstRuntime) (event : BurstEvent) :
    (this.step event).settlements = this.settlements ∨
    ∃ job result, this.runtime.advance.2 = some (.settle job result) ∧
      this.step event = settle { this with runtime := this.runtime.advance.1 } job result := by
  have finishes (this : BurstRuntime) (job : Nat) (result : BurstDialResult) :
      (this.finish job result).settlements = this.settlements := by
    unfold finish
    split <;> rfl
  cases event with
  | burstDial multiaddrs windowMs told =>
      left
      have called := burstDial_called this multiaddrs windowMs told
      show (this.burstDial multiaddrs windowMs told).settlements = _
      generalize this.burstDial multiaddrs windowMs told = after at called
      cases called with
      | ends fresh result => exact finishes _ _ _
      | dials fresh => rfl
  | associationFailed job message => exact .inl rfl
  | manager event => exact .inl rfl
  | call made => exact .inl rfl
  | advance =>
      show this.advance.settlements = _ ∨ ∃ job result, _ ∧ this.advance = _
      rcases advance_eq this with ⟨_, same⟩ | ⟨task, begun, same⟩
      · rw [same]
        exact .inl rfl
      · rw [same]
        cases task with
        | settle job result => exact .inr ⟨job, result, begun, rfl⟩
        | window job => exact .inl (finishes _ _ _)
        | poll job =>
            left
            unfold runTask
            dsimp only
            split
            · rfl
            · split
              · exact finishes _ _ _
              · rfl
        | other task => exact .inl rfl

theorem step_clears {event : BurstEvent} (clears : ∀ settlement ∈ this.settlements, Clears settlement) :
    ∀ settlement ∈ (this.step event).settlements, Clears settlement := by
  rcases step_settlements this event with same | ⟨job, result, _, same⟩
  · rw [same]
    exact clears
  · rw [same]
    intro settlement listed
    rcases List.mem_append.mp listed with old | new
    · exact clears settlement old
    · rw [List.mem_singleton.mp new]
      exact contains_unregisterKeys _ _

/-- Jobs are done once, in time, and leave none of their keys registered. -/
structure BurstsSettle (this : BurstRuntime) : Prop where
  once : ∀ job, this.told job ≤ 1
  timely : this.runtime.agenda = [] → ∀ job state, this.jobs[job]? = some state →
    this.Timely job state
  cleared : ∀ settlement ∈ this.settlements, Clears settlement

omit [MultiaddrParser] in
theorem Prompt.once (prompt : this.Prompt) (job : Nat) : this.told job ≤ 1 := by
  have account := prompt.sound.account job
  split at account <;> omega

omit [MultiaddrParser] in
theorem create_prompt {manager : PeerLinkManager} (managed : (manager.plane {}).Sound) :
    (create manager).Prompt where
  sound := {
    manager := managed
    runtime := rfl
    deferred := fun _ none => absurd none List.not_mem_nil
    account := fun _ => rfl
    windows := fun _ _ _ none _ => nomatch none }
  closes busy := absurd rfl busy
  idle _ _ none := absurd none List.not_mem_nil

theorem run_settles {manager : PeerLinkManager} (managed : (manager.plane {}).Sound)
    {events : List BurstEvent} (leaves : Run.Meets step LeavesBursts (create manager) events) :
    Run.Always step BurstsSettle (create manager) events := by
  apply Run.always_of_invariant step LeavesBursts
    (fun this => this.Prompt ∧ ∀ settlement ∈ this.settlements, Clears settlement) BurstsSettle
    (fun _ _ allowed held => ⟨held.1.step allowed, step_clears held.2⟩)
    (fun _ held => ⟨held.1.once, fun idle _ _ found => held.1.timely idle found, held.2⟩)
    events _ leaves
  exact ⟨create_prompt managed, fun _ none => absurd none List.not_mem_nil⟩

/-- A turn that fires the timers has told every job whose window it found ended. -/
theorem turn_tells {start : BurstRuntime} (prompt : start.Prompt) (idle : start.runtime.agenda = [])
    {made : RuntimeCall Nat} (turn : made = .tick ∨ made = .drive) {body : List BurstEvent}
    (within : Run.Meets step InTurn (start.step (.call made)) body)
    (ended : (Run.exec step (start.step (.call made)) body).runtime.agenda = []) {job : Nat}
    {state : BurstJob} (found : start.jobs[job]? = some state)
    (due : ∀ endsMs, state.windowEndsMs = some endsMs → endsMs ≤ start.runtime.nowMs) :
    (Run.exec step (start.step (.call made)) body).told job = 1 := by
  have leaves : start.LeavesBursts (.call made) := by
    rcases turn with rfl | rfl <;> trivial
  have begun : .fireTimers ∈ (start.step (.call made)).runtime.agenda := by
    have starts (stages : List (Stage BurstTask)) :
        (start.runtime.begin stages).agenda = stages := by
      simp [MeshRuntime.begin, MeshRuntime.driving, idle]
    rcases turn with rfl | rfl
    · show _ ∈ (start.runtime.begin _).agenda
      rw [starts]
      simp [MeshRuntime.tickStages]
    · show _ ∈ (start.runtime.begin _).agenda
      rw [starts]
      simp [MeshRuntime.tickStages]
  have turning : Turning start (start.step (.call made)) :=
    ⟨prompt.step leaves, fun empty => by simp [empty] at begun, .same rfl,
      MeshRuntime.call_nowMs _, .inl begun⟩
  have last := Run.invariant step InTurn (Turning start)
    (fun _ _ inTurn turning => step_turning turning inTurn) body _ within turning
  obtain ⟨later, still, _, window⟩ := last.carried job state found
  rcases last.prompt.timely ended still with told | waits
  · exact told
  · rw [window] at waits
    cases ends : state.windowEndsMs with
    | some endsMs =>
        rw [ends] at waits
        obtain ⟨entry, listed, own, deadline⟩ := waits
        rcases last.fired with fires | fired
        · rw [ended] at fires
          exact absurd fires List.not_mem_nil
        · have late := fired entry listed job (List.getElem?_eq_some_iff.mp found).1 own
          have early := due endsMs ends
          omega
    | none =>
        rw [ends] at waits
        obtain ⟨task, listed, _⟩ := waits
        rw [last.emptied ended] at listed
        exact absurd listed List.not_mem_nil

/-- Once a turn that fires the timers is over, the jobs are told whose windows it found
ended, and those that had no window. -/
def TurnsTell (start : BurstRuntime) (events : List BurstEvent) : Prop :=
  ∀ front made body rest, events = front ++ .call made :: (body ++ rest) →
    (made = .tick ∨ made = .drive) → (Run.exec step start front).runtime.agenda = [] →
    Run.Meets step (fun this _ => this.runtime.driving = true)
      ((Run.exec step start front).step (.call made)) body →
    (Run.exec step ((Run.exec step start front).step (.call made)) body).runtime.agenda = [] →
    ∀ job state, (Run.exec step start front).jobs[job]? = some state →
      (∀ endsMs, state.windowEndsMs = some endsMs →
        endsMs ≤ (Run.exec step start front).runtime.nowMs) →
      (Run.exec step ((Run.exec step start front).step (.call made)) body).told job = 1

theorem run_turns {manager : PeerLinkManager} (managed : (manager.plane {}).Sound)
    {events : List BurstEvent} (leaves : Run.Meets step LeavesBursts (create manager) events) :
    TurnsTell (create manager) events := by
  intro front made body rest isRun turn idle driving ended job state found due
  rw [isRun, Run.meets_append] at leaves
  obtain ⟨before, _, after⟩ := leaves
  have prompt : (Run.exec step (create manager) front).Prompt :=
    Run.invariant step LeavesBursts Prompt (fun _ _ allowed prompt => prompt.step allowed) front _
      before (create_prompt managed)
  have within := driving.and ((Run.meets_append _ _ _ _ _).mp after).1
  exact turn_tells prompt idle turn within ended found due

/-- However bursts overlap, with each other and with all else the runtime and its manager
do: each is done once and no later than the turn that finds its window ended, and none
leaves a key of its own registered. -/
theorem bursts_settle (localPeerId : String) (limits : LinkLimits) (events : List BurstEvent)
    (leaves : Run.Meets step LeavesBursts (create (.create localPeerId limits)) events) :
    Run.Always step BurstsSettle (create (.create localPeerId limits)) events ∧
      TurnsTell (create (.create localPeerId limits)) events :=
  have managed := PeerLinkManager.create_sound localPeerId limits
  ⟨run_settles managed leaves, run_turns managed leaves⟩

end Steps

section Samples

/-- An address is the id of its peer. -/
local instance namingAddress : MultiaddrParser :=
  ⟨fun multiaddr => .ok { peerId := multiaddr, endpoint := { port := 4000 } }⟩

/-- Two bursts, and the turn in which the window of the first ends. -/
def twoBursts (one two : String) : List BurstEvent :=
  [.burstDial [one] 100 fun _ => none, .burstDial [two] 500 fun _ => none,
    .call (.elapse 100), .call .drive] ++ List.replicate 82 .advance

/-- Both dial the same peer. -/
theorem bursts_settle_sample :
    let start := create (.create "alice" {})
    let events := twoBursts "QmBob" "QmBob"
    (Run.exec step start events).told 0 = 1 ∧ Run.Always step BurstsSettle start events ∧
      TurnsTell start events :=
  ⟨by decide +kernel, bursts_settle "alice" {} (twoBursts "QmBob" "QmBob") (by decide +kernel)⟩

end Samples

end BurstRuntime

end Amp
