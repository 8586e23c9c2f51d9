import Amp.Lib.Numbered
import Amp.Link.AbortedDials
import Amp.Link.BurstDial
import Amp.Link.DialsKeep
import Amp.Link.RuntimeTasks
import Amp.Link.RuntimeTurns

set_option autoImplicit false

/- Burst jobs through a run of their runtime: each is done once and in time, and clears
its own dials away. -/
namespace Amp

/-- The task ends this job. -/
def BurstTask.settles (job : Nat) : BurstTask → Bool
  | .settle ending _ => ending == job
  | _ => false

/-- Another caller's task. -/
def BurstTask.foreign : BurstTask → Bool
  | .other _ => true
  | _ => false

namespace BurstRuntime

/-- How many deferred tasks are to end a job. -/
def settling (this : BurstRuntime) (job : Nat) : Nat :=
  this.runtime.deferred.countP (BurstTask.settles job)

/-- How often a job's `on_done` was called. -/
def told (this : BurstRuntime) (job : Nat) : Nat :=
  this.settlements.countP fun settlement => settlement.job == job

def settledAt (this : BurstRuntime) (job : Nat) : Bool := this.jobs[job]?.any BurstJob.settled

/-- The timer of a job's window is armed. -/
def WindowArmed (this : BurstRuntime) (job : Nat) (endsMs : Int) : Prop :=
  ∃ entry ∈ this.runtime.live, entry.task = .window job ∧ entry.deadlineMs = endsMs

/-- The books of a runtime, with the windows of some jobs left out. -/
structure SoundFor (exempt : Nat → Prop) (this : BurstRuntime) : Prop where
  manager : (this.manager.plane {}).Sound
  runtime : this.runtime.Settled
  /-- A job is ended from the deferred tasks alone. -/
  deferred : ∀ task ∈ this.runtime.elsewhere, ∀ job, task.settles job = false
  account : ∀ job, this.settling job + this.told job = if this.settledAt job then 1 else 0
  windows : ∀ job state, ¬ exempt job → this.jobs[job]? = some state → state.settled = false →
    ∃ endsMs, state.windowEndsMs = some endsMs ∧ this.WindowArmed job endsMs

def Sound (this : BurstRuntime) : Prop := this.SoundFor fun _ => False

section Steps

variable {this : BurstRuntime} {exempt : Nat → Prop}

theorem getElem?_modifyJob (this : BurstRuntime) (job : Nat) (change : BurstJob → BurstJob)
    (other : Nat) : (this.modifyJob job change).jobs[other]? =
      if job = other then this.jobs[other]?.map change else this.jobs[other]? := by
  unfold modifyJob
  rw [List.getElem?_modify]
  split <;> simp

/-- A change to a job that leaves open whether it is settled, and its window. -/
theorem SoundFor.modifyJob (sound : this.SoundFor exempt) (job : Nat) (change : BurstJob → BurstJob)
    (keeps : ∀ state, (change state).settled = state.settled)
    (window : ¬ exempt job → ∀ state, (change state).windowEndsMs = state.windowEndsMs) :
    (this.modifyJob job change).SoundFor exempt where
  manager := sound.manager
  runtime := sound.runtime
  deferred := sound.deferred
  account other := by
    have same : (this.modifyJob job change).settledAt other = this.settledAt other := by
      unfold settledAt
      rw [getElem?_modifyJob]
      split
      · rw [Option.any_map]
        congr 1
        funext state
        exact keeps state
      · rfl
    rw [same]
    exact sound.account other
  windows other state old found free := by
    rw [getElem?_modifyJob] at found
    split at found
    · rename_i same
      obtain ⟨before, held, rfl⟩ := Option.map_eq_some_iff.mp found
      rw [keeps before] at free
      rw [window (same ▸ old) before]
      exact sound.windows other before old held free
    · exact sound.windows other state old found free

theorem deferred_post (m : MeshRuntime BurstTask) (task : BurstTask) :
    (m.postDeferred (some task)).deferred = m.deferred ++ [task] :=
  (List.append_assoc _ _ _).symm

/-- A job is settled once, by a task to end it. -/
theorem SoundFor.finish (sound : this.SoundFor exempt) (job : Nat) (result : BurstDialResult) :
    (this.finish job result).SoundFor fun other => exempt other ∧ other ≠ job := by
  unfold BurstRuntime.finish
  split
  · rename_i done
    constructor
    · exact sound.manager
    · exact sound.runtime
    · exact sound.deferred
    · exact sound.account
    · intro other state old found free
      by_cases same : other = job
      · rw [same] at found
        rw [found] at done
        exact absurd (done.symm.trans free) Bool.noConfusion
      · exact sound.windows other state (fun spared => old ⟨spared, same⟩) found free
  · rename_i free
    obtain ⟨state, found, open_⟩ : ∃ state, this.jobs[job]? = some state ∧ state.settled = false := by
      cases found : this.jobs[job]? with
      | none => simp [found] at free
      | some state => exact ⟨state, rfl, by simpa [found] using free⟩
    have unsettled : this.settledAt job = false := by
      unfold settledAt
      rw [found]
      exact open_
    have settles (other : Nat) : ((this.modifyJob job fun state =>
        { state with settled := true }).jobs[other]?.any BurstJob.settled) =
          if job = other then true else this.settledAt other := by
      rw [getElem?_modifyJob]
      split
      · rename_i same
        subst same
        rw [found]
        rfl
      · rfl
    constructor
    · exact sound.manager
    · exact sound.runtime
    · exact sound.deferred
    · intro other
      have before := sound.account other
      show ((this.runtime.postDeferred (some (.settle job result))).deferred.countP
        (BurstTask.settles other)) + this.told other = if ((this.modifyJob job fun state =>
          { state with settled := true }).jobs[other]?.any BurstJob.settled) then 1 else 0
      rw [deferred_post, List.countP_append, settles]
      by_cases same : job = other
      · subst same
        rw [unsettled] at before
        have none : this.settling job = 0 ∧ this.told job = 0 := by
          simpa using before
        simp [none.2, BurstTask.settles, show this.runtime.deferred.countP _ = 0 from none.1]
      · have apart : (job == other) = false := by simpa using same
        rw [if_neg same]
        rw [List.countP_singleton, show BurstTask.settles other (.settle job result) = false from apart]
        exact before
    · intro other state old found free
      have found : (this.modifyJob job fun state => { state with settled := true }).jobs[other]? =
          some state := found
      rw [getElem?_modifyJob] at found
      split at found
      · obtain ⟨before, _, rfl⟩ := Option.map_eq_some_iff.mp found
        cases free
      · rename_i apart
        exact sound.windows other state (fun spared => old ⟨spared, fun same => apart same.symm⟩)
          found free

/-- A step of the runtime that runs no task of a job and keeps the windows armed. -/
theorem SoundFor.moved (sound : this.SoundFor exempt) {runtime : MeshRuntime BurstTask}
    (settled : runtime.Settled)
    (deferred : ∀ task ∈ runtime.elsewhere, ∀ job, task.settles job = false)
    (count : ∀ job, runtime.deferred.countP (BurstTask.settles job) = this.settling job)
    (live : ∀ entry ∈ this.runtime.live, ∀ job, entry.task = .window job →
      this.settledAt job = false → entry ∈ runtime.live) :
    { this with runtime := runtime }.SoundFor exempt where
  manager := sound.manager
  runtime := settled
  deferred := deferred
  account job := by
    show runtime.deferred.countP _ + this.told job = _
    rw [count]
    exact sound.account job
  windows job state old found free := by
    obtain ⟨endsMs, window, entry, listed, own, deadline⟩ := sound.windows job state old found free
    have unsettled : this.settledAt job = false := by
      unfold settledAt
      rw [show this.jobs[job]? = some state from found]
      exact free
    exact ⟨endsMs, window, entry, live entry listed job own unsettled, own, deadline⟩

theorem SoundFor.managed (sound : this.SoundFor exempt) {manager : PeerLinkManager}
    (managed : (manager.plane {}).Sound) : { this with manager := manager }.SoundFor exempt :=
  { sound with manager := managed }

/-- The job being called is made: it is settled, or its window is armed. -/
theorem SoundFor.grow {job : Nat} (sound : this.SoundFor (· = job))
    (last : ∀ state, this.jobs[job]? = some state → state.settled = false →
      ∃ endsMs, state.windowEndsMs = some endsMs ∧ this.WindowArmed job endsMs) : this.Sound :=
  { sound with
    windows := fun other state _ found free => by
      by_cases same : other = job
      · subst same
        exact last state found free
      · exact sound.windows other state same found free }

theorem SoundFor.weaken {weaker : Nat → Prop} (sound : this.SoundFor exempt)
    (within : ∀ job, exempt job → weaker job) : this.SoundFor weaker :=
  { sound with
    windows := fun job state spared found free =>
      sound.windows job state (fun left => spared (within job left)) found free }

theorem finish_jobs (this : BurstRuntime) (job : Nat) (result : BurstDialResult) :
    (this.finish job result).jobs.length = this.jobs.length := by
  unfold finish
  split
  · rfl
  · exact List.length_modify _ _ _

variable [MultiaddrParser]

/-- A job as it is being called: its manager has begun its dials. -/
def calling (this : BurstRuntime) (manager : PeerLinkManager) (state : BurstJob) : BurstRuntime :=
  { this with manager := manager, jobs := this.jobs ++ [state] }

omit [MultiaddrParser] in
theorem calling_modify (manager : PeerLinkManager) (state : BurstJob) (change : BurstJob → BurstJob) :
    (this.calling manager state).modifyJob this.jobs.length change =
      this.calling manager (change state) := by
  unfold modifyJob calling
  congr 1
  exact Numbered.modify_concat this.jobs state change

/-- What a job that is being called has come to. -/
structure Fresh (this : BurstRuntime) (allowed : DialKey → Prop) (manager : PeerLinkManager)
    (state : BurstJob) : Prop where
  settled : state.settled = false
  window : state.windowEndsMs = none
  sound : (this.manager.plane {}).Sound → (manager.plane {}).Sound
  connected : (this.manager.plane {}).Sound → ∀ peer,
    this.manager.isConnectedToPeerId peer = true → manager.isConnectedToPeerId peer = true
  keys : (this.manager.plane {}).Sound → ∀ key ∈ state.keys, allowed key

/-- The outcome of dialing: the job is done, or dials on. -/
inductive Dialed (this : BurstRuntime) (allowed : DialKey → Prop) : BurstRuntime × Bool → Prop where
  | won {manager : PeerLinkManager} {state : BurstJob} (fresh : this.Fresh allowed manager state)
      (result : BurstDialResult) :
      Dialed this allowed ((this.calling manager state).finish this.jobs.length result, true)
  | lost {manager : PeerLinkManager} {state : BurstJob} (fresh : this.Fresh allowed manager state) :
      Dialed this allowed (this.calling manager state, false)

theorem dialAddr_dialed {allowed : DialKey → Prop} {manager : PeerLinkManager} {state : BurstJob}
    (fresh : this.Fresh allowed manager state) {index : Nat} {multiaddr : String}
    (permitted : (this.manager.plane {}).Sound → ∀ parsed,
      MultiaddrParser.parseAdpMultiaddr multiaddr = .ok parsed →
      this.manager.isConnectedToPeerId parsed.peerId = false → allowed (burstKey index parsed.peerId))
    (told : Option String) :
    this.Dialed allowed ((this.calling manager state).dialAddr this.jobs.length index multiaddr told) := by
  have fails (message : String) : this.Dialed allowed ((this.calling manager state).modifyJob
      this.jobs.length (fun state => { state with lastError := message }), false) := by
    rw [calling_modify]
    exact .lost ⟨fresh.settled, fresh.window, fresh.sound, fresh.connected, fresh.keys⟩
  unfold dialAddr
  split
  · exact fails _
  · rename_i parsed known
    dsimp only
    split
    · exact .won fresh _
    · rename_i apart
      split
      · exact fails _
      · rename_i book registered
        let booked := { manager with book := book }
        let key := burstKey index parsed.peerId
        let dialed := booked.ensureAssociation key (some this.jobs.length)
        have bookedSound (sound : (this.manager.plane {}).Sound) : (booked.plane {}).Sound := by
          have registers := PeerLinkManager.step_sound (fresh.sound sound)
            (.registerEndpoint key multiaddr)
          have same : manager.step (.registerEndpoint key multiaddr) = booked :=
            congrArg (fun made => { manager with book := made.1 }) registered
          rwa [same] at registers
        show this.Dialed allowed ((this.calling dialed state).modifyJob this.jobs.length _, false)
        rw [calling_modify]
        refine .lost ⟨fresh.settled, fresh.window, ?_, ?_, ?_⟩
        · intro sound
          exact PeerLinkManager.step_sound (bookedSound sound)
            (.ensureAssociation key (some this.jobs.length))
        · intro sound peer connected
          have still : booked.isConnectedToPeerId peer = true := fresh.connected sound peer connected
          exact (PeerLinkManager.ensureAssociation_keeps (bookedSound sound) key _).connected still
        · intro sound other listed
          rcases List.mem_append.mp listed with old | new
          · exact fresh.keys sound other old
          · rw [List.mem_singleton.mp new]
            apply permitted sound parsed known
            cases said : this.manager.isConnectedToPeerId parsed.peerId with
            | false => rfl
            | true => exact absurd (fresh.connected sound _ said) apart

/-- An address whose peer is connected ends the job. -/
theorem dialAddr_connected (this : BurstRuntime) (index : Nat) {multiaddr : String}
    {parsed : ParsedAdpMultiaddr} (known : MultiaddrParser.parseAdpMultiaddr multiaddr = .ok parsed)
    (connected : this.manager.isConnectedToPeerId parsed.peerId = true) (job : Nat)
    (told : Option String) : (this.dialAddr job index multiaddr told).2 = true := by
  unfold dialAddr
  rw [known]
  dsimp only
  rw [if_pos connected]

theorem dialAddrs_dialed {allowed : DialKey → Prop} (told : Nat → Option String)
    (addrs : List String) : ∀ {manager : PeerLinkManager} {state : BurstJob} (index : Nat),
      this.Fresh allowed manager state →
      ((this.manager.plane {}).Sound → ∀ key ∈ burstKeys this.manager index addrs, allowed key) →
      this.Dialed allowed
        ((this.calling manager state).dialAddrs this.jobs.length told index addrs) := by
  induction addrs with
  | nil => exact fun _ fresh _ => .lost fresh
  | cons multiaddr rest ih =>
      intro manager state index start permitted
      have here : (this.manager.plane {}).Sound → ∀ parsed,
          MultiaddrParser.parseAdpMultiaddr multiaddr = .ok parsed →
          this.manager.isConnectedToPeerId parsed.peerId = false →
          allowed (burstKey index parsed.peerId) := by
        intro sound parsed known apart
        apply permitted sound
        unfold burstKeys
        rw [known]
        dsimp only
        rw [if_neg (by simp [apart])]
        exact List.mem_cons_self
      have first := dialAddr_dialed start here (told index)
      have stops (parsed : ParsedAdpMultiaddr)
          (known : MultiaddrParser.parseAdpMultiaddr multiaddr = .ok parsed)
          (connected : manager.isConnectedToPeerId parsed.peerId = true) :=
        dialAddr_connected (this.calling manager state) index known connected this.jobs.length (told index)
      unfold dialAddrs
      generalize (this.calling manager state).dialAddr this.jobs.length index multiaddr
        (told index) = dialed at first stops
      cases first with
      | won fresh result => exact .won fresh result
      | lost fresh =>
          apply ih (index + 1) fresh
          intro sound key listed
          apply permitted sound
          unfold burstKeys
          split
          · exact listed
          · rename_i parsed known
            split
            · rename_i connected
              have done := stops parsed known (start.connected sound parsed.peerId connected)
              exact absurd done Bool.false_ne_true
            · exact List.mem_cons_of_mem _ listed

/-- A call of `BurstDial`: the job is done at once, or has dials under way, its window armed
and its first look posted. -/
inductive Called (this : BurstRuntime) (allowed : DialKey → Prop) : BurstRuntime → Prop where
  | ends {manager : PeerLinkManager} {state : BurstJob} (fresh : this.Fresh allowed manager state)
      (result : BurstDialResult) :
      Called this allowed ((this.calling manager state).finish this.jobs.length result)
  | dials {manager : PeerLinkManager} {state : BurstJob} (fresh : this.Fresh allowed manager state)
      {wait : Int} :
      Called this allowed { this.calling manager
          { state with windowEndsMs := some (inInt64 (this.runtime.afterMs wait)) } with
        runtime := startPolling this.runtime this.jobs.length wait }

theorem burstDial_called (this : BurstRuntime) (multiaddrs : List String) (windowMs : Int)
    (told : Nat → Option String) : this.Called (· ∈ burstKeys this.manager 0 (burstAddrs multiaddrs))
      (this.burstDial multiaddrs windowMs told) := by
  have start : this.Fresh (· ∈ burstKeys this.manager 0 (burstAddrs multiaddrs)) this.manager ({} : BurstJob) :=
    ⟨rfl, rfl, fun sound => sound, fun _ _ said => said, fun _ _ listed => absurd listed List.not_mem_nil⟩
  have dialed := dialAddrs_dialed told (burstAddrs multiaddrs) 0 start fun _ _ listed => listed
  unfold burstDial
  dsimp only
  split
  · exact .ends start _
  · have same : { this with jobs := this.jobs ++ [({} : BurstJob)] } =
        this.calling this.manager ({} : BurstJob) := rfl
    rw [same]
    generalize (this.calling this.manager ({} : BurstJob)).dialAddrs this.jobs.length told 0
      (burstAddrs multiaddrs) = after at dialed
    cases dialed with
    | won fresh result => exact .ends fresh result
    | lost fresh =>
        dsimp only
        split
        · exact .ends fresh _
        · rw [calling_modify]
          exact Called.dials fresh

omit [MultiaddrParser] in
theorem Sound.calls (sound : this.Sound) {manager : PeerLinkManager} {state : BurstJob}
    (managed : (manager.plane {}).Sound) (settled : state.settled = false) :
    (this.calling manager state).SoundFor (· = this.jobs.length) where
  manager := managed
  runtime := sound.runtime
  deferred := sound.deferred
  account job := by
    have same : (this.calling manager state).settledAt job = this.settledAt job := by
      unfold settledAt calling
      dsimp only
      by_cases old : job < this.jobs.length
      · rw [List.getElem?_append_left old]
      · rw [List.getElem?_eq_none (Nat.le_of_not_lt old), List.getElem?_append_right
          (Nat.le_of_not_lt old)]
        by_cases last : job - this.jobs.length = 0
        · simp [last, settled]
        · simp [last]
    rw [same]
    exact sound.account job
  windows job held old found free := by
    have within := (List.getElem?_eq_some_iff.mp found).1
    have found : (this.jobs ++ [state])[job]? = some held := found
    have grown : (this.calling manager state).jobs.length = this.jobs.length + 1 :=
      List.length_append
    rw [grown] at within
    have before : job < this.jobs.length := by omega
    rw [List.getElem?_append_left before] at found
    exact sound.windows job held id found free

omit [MultiaddrParser] in
/-- The job has dials under way: its window is armed and its first look posted. -/
theorem SoundFor.arm {job : Nat} (sound : this.SoundFor (· = job)) {wait : Int}
    (window : ∀ state, this.jobs[job]? = some state →
      state.windowEndsMs = some (inInt64 (this.runtime.afterMs wait))) :
    Sound { this with runtime := startPolling this.runtime job wait } := by
  let armed := (this.runtime.postAfter wait (some (.window job))).1
  have entry : ⟨this.runtime.nextTimerId, inInt64 (this.runtime.afterMs wait), .window job,
      this.runtime.armed.length⟩ ∈ (armed.postToIo (some (.poll job))).live :=
    MeshRuntime.mem_armTimer.mpr (.inr rfl)
  have moved : SoundFor (· = job) { this with runtime := armed.postToIo (some (.poll job)) } := by
    apply sound.moved
    · exact sound.runtime
    · intro task listed other
      have posts : task ∈ (armed.call (.postToIo (some (.poll job)))).elsewhere := listed
      rcases MeshRuntime.call_elsewhere posts with before | new
      · have arms : task ∈ (this.runtime.call (.postAfter wait (some (.window job)))).elsewhere :=
          before
        rcases MeshRuntime.call_elsewhere arms with old | new
        · exact sound.deferred task old other
        · rw [List.mem_singleton.mp new]
          rfl
      · rw [List.mem_singleton.mp new]
        rfl
    · exact fun _ => rfl
    · exact fun old listed _ _ _ => MeshRuntime.mem_armTimer.mpr (.inl listed)
  apply moved.grow
  intro state found _
  exact ⟨_, window state found, _, entry, rfl, rfl⟩

theorem Sound.burstDial (sound : this.Sound) (multiaddrs : List String) (windowMs : Int)
    (told : Nat → Option String) : (this.burstDial multiaddrs windowMs told).Sound := by
  have called := burstDial_called this multiaddrs windowMs told
  generalize this.burstDial multiaddrs windowMs told = after at called
  cases called with
  | ends fresh result =>
      exact ((sound.calls (fresh.sound sound.manager) fresh.settled).finish _ result).weaken
        fun _ left => left.2 left.1
  | @dials manager state fresh wait =>
      let windowed := { state with windowEndsMs := some (inInt64 (this.runtime.afterMs wait)) }
      have free : windowed.settled = false := fresh.settled
      have calls := sound.calls (fresh.sound sound.manager) free
      apply calls.arm
      intro state found
      have found : (this.jobs ++ [_])[this.jobs.length]? = some state := found
      rw [List.getElem?_concat_length] at found
      exact (Option.some.inj found) ▸ rfl

theorem abortDials_sound (result : BurstDialResult) (dials : List (DialKey × String)) :
    ∀ {m : PeerLinkManager}, (m.plane {}).Sound → ((abortDials m result dials).plane {}).Sound := by
  induction dials with
  | nil => exact fun sound => sound
  | cons dial rest ih =>
      intro m sound
      unfold abortDials
      rw [List.foldl_cons]
      split
      · exact ih sound
      · exact ih (PeerLinkManager.step_sound sound (.abortInflightDial dial.1))

omit [MultiaddrParser] in
theorem unregisterKeys_sound {m : PeerLinkManager} (sound : (m.plane {}).Sound) (keys : List DialKey) :
    ((unregisterKeys m keys).plane {}).Sound :=
  ⟨sound.unique, sound.numbered, sound.coherent, sound.indexed, sound.known⟩

omit [MultiaddrParser] in
/-- A step of a turn in which no task begins. -/
theorem SoundFor.advance_none (sound : this.SoundFor exempt) (nothing : this.runtime.advance.2 = none) :
    { this with runtime := this.runtime.advance.1 }.SoundFor exempt := by
  apply sound.moved
  · exact MeshRuntime.advance_settled sound.runtime
  · exact fun task listed => sound.deferred task (MeshRuntime.advance_elsewhere listed)
  · intro job
    have whole := MeshRuntime.advance_deferred sound.runtime
    rw [(MeshRuntime.begun_none nothing).2, List.nil_append] at whole
    rw [← whole]
    rfl
  · intro entry listed job own free
    rcases MeshRuntime.advance_live listed with still | begun
    · exact still
    · rw [nothing] at begun
      cases begun

omit [MultiaddrParser] in
/-- A task that ends a job begins from the deferred ones. -/
theorem begun_settling (sound : this.Sound) {task : BurstTask}
    (begun : this.runtime.advance.2 = some task) (job : Nat) :
    this.settling job =
      this.runtime.advance.1.deferred.countP (BurstTask.settles job) +
        if task.settles job then 1 else 0 := by
  have whole := MeshRuntime.advance_deferred sound.runtime
  have shape : this.settling job = (this.runtime.deferredBegun .advance).countP
      (BurstTask.settles job) + this.runtime.advance.1.deferred.countP (BurstTask.settles job) := by
    unfold settling
    rw [whole, List.countP_append]
  rcases MeshRuntime.advance_begun begun with outside | own
  · have none : task.settles job = false := sound.deferred task outside job
    have within : (this.runtime.deferredBegun .advance).countP (BurstTask.settles job) = 0 := by
      rcases MeshRuntime.deferredBegun_or (m := this.runtime) with empty | all
      · rw [empty]
        rfl
      · rw [all, begun]
        simp [none]
    rw [shape, within, none, Nat.zero_add]
    rfl
  · rw [shape, own, List.countP_singleton, Nat.add_comm]

omit [MultiaddrParser] in
/-- A task begins that ends no job: only the window it may have come from goes. -/
theorem Sound.begins (sound : this.Sound) {task : BurstTask}
    (begun : this.runtime.advance.2 = some task) (other : ∀ job, task.settles job = false) :
    { this with runtime := this.runtime.advance.1 }.SoundFor
      fun job => task = BurstTask.window job where
  manager := sound.manager
  runtime := MeshRuntime.advance_settled sound.runtime
  deferred task listed := sound.deferred task (MeshRuntime.advance_elsewhere listed)
  account job := by
    have before := begun_settling sound begun job
    rw [other job] at before
    have same : this.settling job = settling { this with runtime := this.runtime.advance.1 } job :=
      before
    show settling { this with runtime := this.runtime.advance.1 } job + this.told job = _
    rw [← same]
    exact sound.account job
  windows job state apart found free := by
    obtain ⟨endsMs, window, entry, listed, own, deadline⟩ := sound.windows job state id found free
    rcases MeshRuntime.advance_live listed with still | went
    · exact ⟨endsMs, window, entry, still, own, deadline⟩
    · rw [begun, own] at went
      exact absurd (Option.some.inj went) apart

/-- A job ends: its task is gone, and its `on_done` called. -/
theorem Sound.settles (sound : this.Sound) {job : Nat} {result : BurstDialResult}
    (begun : this.runtime.advance.2 = some (.settle job result)) :
    (settle { this with runtime := this.runtime.advance.1 } job result).Sound where
  manager := unregisterKeys_sound (abortDials_sound result _ sound.manager) _
  runtime := MeshRuntime.advance_settled sound.runtime
  deferred task listed := sound.deferred task (MeshRuntime.advance_elsewhere listed)
  account other := by
    have before := begun_settling sound begun other
    have books := sound.account other
    show this.runtime.advance.1.deferred.countP (BurstTask.settles other) +
      (this.settlements ++ [_]).countP (fun settlement : Settlement => settlement.job == other) = _
    rw [List.countP_append, List.countP_singleton]
    show _ = if this.settledAt other then 1 else 0
    rw [← books, before]
    show _ + (this.told other + if (job == other) = true then 1 else 0) =
      _ + (if (job == other) = true then 1 else 0) + this.told other
    omega
  windows other state apart found free := by
    obtain ⟨endsMs, window, entry, listed, own, deadline⟩ := sound.windows other state id found free
    rcases MeshRuntime.advance_live listed with still | went
    · exact ⟨endsMs, window, entry, still, own, deadline⟩
    · rw [begun, own] at went
      cases Option.some.inj went

/-- A task that begins is run through. -/
theorem Sound.runs (sound : this.Sound) {task : BurstTask}
    (begun : this.runtime.advance.2 = some task) :
    (runTask { this with runtime := this.runtime.advance.1 } task).Sound := by
  cases task with
  | settle job result => exact sound.settles begun
  | window job =>
      have begins := sound.begins begun fun _ => rfl
      exact (begins.finish job _).weaken fun other left => left.2 (BurstTask.window.inj left.1).symm
  | poll job =>
      have begins : SoundFor (fun _ => False) { this with runtime := this.runtime.advance.1 } :=
        (sound.begins begun fun _ => rfl).weaken fun _ same => BurstTask.noConfusion same
      unfold runTask
      dsimp only
      split
      · exact begins
      · split
        · exact (begins.finish job _).weaken fun _ left => left.1
        · apply begins.moved
          · exact begins.runtime
          · intro task listed other
            have posts : task ∈
                (this.runtime.advance.1.call (.postToIo (some (.poll job)))).elsewhere := listed
            rcases MeshRuntime.call_elsewhere posts with old | new
            · exact begins.deferred task old other
            · rw [List.mem_singleton.mp new]
              rfl
          · exact fun _ => rfl
          · exact fun _ listed _ _ _ => listed
  | other task =>
      exact (sound.begins begun fun _ => rfl).weaken fun _ same => BurstTask.noConfusion same

theorem Sound.advance (sound : this.Sound) : this.advance.Sound := by
  unfold BurstRuntime.advance
  split
  · rename_i runtime next
    have still := SoundFor.advance_none sound (congrArg Prod.snd next)
    rwa [next] at still
  · rename_i runtime task next
    have runs := sound.runs (congrArg Prod.snd next)
    rwa [next] at runs

/-- No timer of a window is cancelled by another caller, and nobody stops the runtime. -/
def LeavesBursts (this : BurstRuntime) : BurstEvent → Prop
  | .call .stop => False
  | .call (.cancelTimer id) =>
      ∀ entry ∈ this.runtime.live, entry.id = id → entry.task.foreign = true
  | _ => True

instance (this : BurstRuntime) (event : BurstEvent) : Decidable (this.LeavesBursts event) := by
  unfold LeavesBursts
  split <;> infer_instance

/-- A call that leaves the bursts leaves the manager. -/
theorem step_call {made : RuntimeCall Nat} (leaves : this.LeavesBursts (.call made)) :
    this.step (.call made) = { this with runtime := this.runtime.call (made.map .other) } := by
  cases made with
  | stop => exact absurd leaves id
  | _ => rfl

omit [MultiaddrParser] in
theorem tasks_map {α β : Type} (f : α → β) (made : RuntimeCall α) :
    (made.map f).tasks = made.tasks.map f := by
  cases made with
  | postToIo task => cases task <;> rfl
  | postDeferred task => cases task <;> rfl
  | postAfter delayMs task => cases task <;> rfl
  | postAt deadlineMs task => cases task <;> rfl
  | addIoTick entry => cases entry <;> rfl
  | _ => rfl

omit [MultiaddrParser] in
theorem others_settle (made : RuntimeCall Nat) :
    ∀ task ∈ (made.map BurstTask.other).tasks, ∀ job, task.settles job = false := by
  intro task listed job
  rw [tasks_map] at listed
  obtain ⟨_, _, rfl⟩ := List.mem_map.mp listed
  rfl

omit [MultiaddrParser] in
theorem Sound.call (sound : this.Sound) {made : RuntimeCall Nat}
    (leaves : this.LeavesBursts (.call made)) :
    Sound { this with runtime := this.runtime.call (made.map .other) } := by
  have others := others_settle made
  have goes : made.map BurstTask.other ≠ .stop := by
    intro stops
    cases made with
    | stop => exact leaves
    | _ => cases stops
  apply SoundFor.moved sound
  · exact MeshRuntime.call_settled sound.runtime _
  · intro task listed job
    rcases MeshRuntime.call_elsewhere listed with old | new
    · exact sound.deferred task old job
    · exact others task new job
  · intro job
    have whole := (MeshRuntime.call_deferred (m := this.runtime) (made.map BurstTask.other)).1
    have kept : this.runtime.deferredCleared (.call (made.map BurstTask.other)) = [] := by
      apply MeshRuntime.deferredCleared_nil
      intro stops
      cases made with
      | stop => exact leaves
      | _ => exact stops
    have none : (MeshRuntime.deferredJoins (.call (made.map BurstTask.other))).countP
        (BurstTask.settles job) = 0 := by
      rw [List.countP_eq_zero]
      intro task listed
      rw [others task (MeshRuntime.joins_tasks _ task listed) job]
      exact Bool.false_ne_true
    have counts := whole.countP_eq (BurstTask.settles job)
    rw [kept, List.nil_append, List.countP_append, none, Nat.add_zero] at counts
    exact counts.symm
  · intro entry listed job own _
    apply MeshRuntime.call_live listed goes
    intro cancels
    cases made with
    | cancelTimer id =>
        have foreign := leaves entry listed (RuntimeCall.cancelTimer.inj cancels).symm
        rw [own] at foreign
        cases foreign
    | _ => cases cancels

theorem Sound.step (sound : this.Sound) {event : BurstEvent} (leaves : this.LeavesBursts event) :
    (this.step event).Sound := by
  cases event with
  | burstDial multiaddrs windowMs told => exact sound.burstDial multiaddrs windowMs told
  | associationFailed job message =>
      apply SoundFor.modifyJob sound
      · intro state
        split <;> rfl
      · intro _ state
        split <;> rfl
  | manager event => exact SoundFor.managed sound (PeerLinkManager.step_sound sound.manager event)
  | call made =>
      rw [step_call leaves]
      exact sound.call leaves
  | advance => exact sound.advance

end Steps

end BurstRuntime

end Amp
