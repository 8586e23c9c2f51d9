import Amp.Link.BurstTurns

set_option autoImplicit false

/- Burst jobs beside each other: as long as no call dials under a key of a job that is
still open, the end of one job touches nothing of another. -/
namespace Amp

open PeerLinkManager (Untouched)

namespace BurstRuntime

/-- Nothing of the other open jobs was touched. -/
def Spares (settlement : Settlement) : Prop :=
  ∀ key ∈ settlement.others, Untouched key settlement.before settlement.after

section Frames

variable {m : PeerLinkManager} {key : DialKey}

theorem unregisterKeys_untouched (m : PeerLinkManager) (keys : List DialKey) (apart : key ∉ keys) :
    Untouched key m (unregisterKeys m keys) := by
  refine .rebook ?_ rfl rfl rfl rfl rfl rfl
  show (keys.foldl DialBook.unregisterEndpoint m.book).find key = m.book.find key
  generalize m.book = book
  induction keys generalizing book with
  | nil => rfl
  | cons first rest ih =>
      have other : first ≠ key := fun same => apart (same ▸ List.mem_cons_self)
      have later : key ∉ rest := fun listed => apart (List.mem_cons_of_mem first listed)
      rw [List.foldl_cons, ih later]
      exact DialBook.find_unregister_other book other

variable [MultiaddrParser]

theorem abortDials_untouched (result : BurstDialResult) (dials : List (DialKey × String)) :
    ∀ {m : PeerLinkManager}, (m.plane {}).Sound → (∀ dial ∈ dials, dial.1 ≠ key) →
      Untouched key m (abortDials m result dials) := by
  induction dials with
  | nil => exact fun _ _ => .refl key _
  | cons dial rest ih =>
      intro m sound apart
      have later : ∀ other ∈ rest, other.1 ≠ key :=
        fun other listed => apart other (List.mem_cons_of_mem dial listed)
      unfold abortDials
      rw [List.foldl_cons]
      split
      · exact ih sound later
      · have first := PeerLinkManager.abortInflightDial_untouched sound (apart dial List.mem_cons_self)
        exact first.trans (ih (PeerLinkManager.step_sound sound (.abortInflightDial dial.1)) later)

end Frames

section Keys

variable {this : BurstRuntime}

theorem mem_othersOf {job : Nat} {key : DialKey} : key ∈ this.othersOf job ↔
    ∃ other state, this.jobs[other]? = some state ∧ other ≠ job ∧ this.isDone other = false ∧
      key ∈ state.keys := by
  unfold othersOf
  simp only [List.mem_flatMap, List.mem_filter, Prod.exists, List.mem_zipIdx_iff_getElem?,
    Bool.and_eq_true, bne_iff_ne, Bool.not_eq_true']
  constructor
  · rintro ⟨state, other, ⟨found, apart, open_⟩, own⟩
    exact ⟨other, state, found, apart, open_, own⟩
  · rintro ⟨other, state, found, apart, open_, own⟩
    exact ⟨state, other, ⟨found, apart, open_⟩, own⟩

/-- No two open jobs dial under one key. -/
def Parted (this : BurstRuntime) : Prop :=
  ∀ one two stateOne stateTwo, one ≠ two → this.jobs[one]? = some stateOne →
    this.jobs[two]? = some stateTwo → this.isDone one = false → this.isDone two = false →
    ∀ key ∈ stateOne.keys, key ∉ stateTwo.keys

theorem Parted.carried {after : BurstRuntime} (parted : this.Parted) (carried : Carried this after)
    (length : after.jobs.length = this.jobs.length)
    (done : ∀ job, this.isDone job = true → after.isDone job = true) : after.Parted := by
  have back (job : Nat) (state : BurstJob) (found : after.jobs[job]? = some state) :
      ∃ before, this.jobs[job]? = some before ∧ state.keys = before.keys := by
    have within : job < this.jobs.length := length ▸ (List.getElem?_eq_some_iff.mp found).1
    have was := List.getElem?_eq_getElem within
    obtain ⟨later, still, keys, _⟩ := carried job _ was
    rw [found] at still
    exact ⟨_, was, Option.some.inj still ▸ keys⟩
  have wasOpen (job : Nat) (open_ : after.isDone job = false) : this.isDone job = false := by
    cases was : this.isDone job with
    | false => rfl
    | true => exact absurd ((done job was).symm.trans open_) Bool.noConfusion
  intro one two stateOne stateTwo apart isOne isTwo openOne openTwo
  obtain ⟨first, wasOne, sameOne⟩ := back one stateOne isOne
  obtain ⟨second, wasTwo, sameTwo⟩ := back two stateTwo isTwo
  rw [sameOne, sameTwo]
  exact parted one two first second apart wasOne wasTwo (wasOpen one openOne) (wasOpen two openTwo)

/-- A job that is open has not been told. -/
theorem isDone_told (this : BurstRuntime) (job : Nat) : this.isDone job = true ↔ 0 < this.told job := by
  unfold isDone told
  rw [List.any_eq_true, List.countP_pos_iff]

/-- A job whose end begins is still open. -/
theorem Sound.begun_open (sound : this.Sound) {job : Nat} {result : BurstDialResult}
    (begun : this.runtime.advance.2 = some (.settle job result)) : this.isDone job = false := by
  have before := begun_settling sound begun job
  have waits : 0 < this.settling job := by
    rw [before, if_pos (by simp [BurstTask.settles])]
    exact Nat.succ_pos _
  have account := sound.account job
  have untold : ¬ 0 < this.told job := by
    split at account <;> omega
  cases done : this.isDone job with
  | false => rfl
  | true => exact absurd ((isDone_told this job).mp done) untold

variable [MultiaddrParser]

/-- No call dials under a key of a job still open. -/
def DialsApart (this : BurstRuntime) : BurstEvent → Prop
  | .burstDial multiaddrs _ _ => ∀ key ∈ burstKeys this.manager 0 (burstAddrs multiaddrs),
      key ∉ this.othersOf this.jobs.length
  | _ => True

instance (this : BurstRuntime) (event : BurstEvent) : Decidable (this.DialsApart event) := by
  unfold DialsApart
  split <;> infer_instance

/-- A call makes one job, with the keys it dials under. -/
theorem burstDial_jobs (managed : (this.manager.plane {}).Sound) (multiaddrs : List String)
    (windowMs : Int) (told : Nat → Option String) :
    ∃ state : BurstJob, (this.burstDial multiaddrs windowMs told).jobs = this.jobs ++ [state] ∧
      (this.burstDial multiaddrs windowMs told).settlements = this.settlements ∧
      ∀ key ∈ state.keys, key ∈ burstKeys this.manager 0 (burstAddrs multiaddrs) := by
  have called := burstDial_called this multiaddrs windowMs told
  generalize this.burstDial multiaddrs windowMs told = after at called
  cases called with
  | @ends manager state fresh result =>
      unfold finish
      split
      · exact ⟨state, rfl, rfl, fresh.keys managed⟩
      · rw [calling_modify]
        exact ⟨{ state with settled := true }, rfl, rfl, fresh.keys managed⟩
  | @dials manager state fresh wait =>
      exact ⟨{ state with windowEndsMs := some (inInt64 (this.runtime.afterMs wait)) }, rfl, rfl,
        fresh.keys managed⟩

theorem Parted.burstDial (parted : this.Parted) (managed : (this.manager.plane {}).Sound)
    {multiaddrs : List String} {windowMs : Int} {told : Nat → Option String}
    (apart : this.DialsApart (.burstDial multiaddrs windowMs told)) :
    (this.burstDial multiaddrs windowMs told).Parted := by
  obtain ⟨state, jobs, settlements, keys⟩ := burstDial_jobs managed multiaddrs windowMs told
  have sameDone (job : Nat) : (this.burstDial multiaddrs windowMs told).isDone job = this.isDone job := by
    unfold isDone
    rw [settlements]
  -- the new job shares no key with one that is open
  have new (job : Nat) (old : BurstJob) (found : this.jobs[job]? = some old)
      (open_ : this.isDone job = false) : ∀ key ∈ state.keys, key ∉ old.keys := by
    intro key own shared
    have within := (List.getElem?_eq_some_iff.mp found).1
    apply apart key (keys key own)
    exact mem_othersOf.mpr ⟨job, old, found, Nat.ne_of_lt within, open_, shared⟩
  have known (job : Nat) (held : BurstJob)
      (found : (this.burstDial multiaddrs windowMs told).jobs[job]? = some held) :
      this.jobs[job]? = some held ∨ job = this.jobs.length ∧ held = state := by
    rw [jobs] at found
    exact Numbered.getElem?_concat_cases found
  intro one two stateOne stateTwo differ isOne isTwo openOne openTwo
  rw [sameDone] at openOne openTwo
  rcases known one stateOne isOne with foundOne | ⟨lastOne, rfl⟩
  · rcases known two stateTwo isTwo with foundTwo | ⟨_, rfl⟩
    · exact parted one two stateOne stateTwo differ foundOne foundTwo openOne openTwo
    · intro key own shared
      exact new one stateOne foundOne openOne key shared own
  · rcases known two stateTwo isTwo with foundTwo | ⟨lastTwo, _⟩
    · exact new two stateTwo foundTwo openTwo
    · exact absurd (lastOne.trans lastTwo.symm) differ

theorem advance_length (this : BurstRuntime) : this.advance.jobs.length = this.jobs.length := by
  rcases advance_eq this with ⟨_, same⟩ | ⟨task, _, same⟩
  · rw [same]
  · rw [same]
    cases task with
    | settle job result => rfl
    | window job => exact finish_jobs _ _ _
    | poll job =>
        unfold runTask
        dsimp only
        split
        · rfl
        · split
          · exact finish_jobs _ _ _
          · rfl
    | other task => rfl

theorem step_isDone (this : BurstRuntime) (event : BurstEvent) {job : Nat}
    (done : this.isDone job = true) : (this.step event).isDone job = true := by
  unfold isDone at done ⊢
  rcases step_settlements this event with same | ⟨_, _, _, same⟩
  · rw [same]
    exact done
  · rw [same]
    unfold settle
    dsimp only
    rw [List.any_append, done]
    rfl

theorem advance_carried (this : BurstRuntime) : Carried this this.advance := by
  rcases advance_eq this with ⟨_, same⟩ | ⟨task, _, same⟩
  · rw [same]
    exact .same rfl
  · rw [same]
    have moved : Carried this { this with runtime := this.runtime.advance.1 } := .same rfl
    exact moved.trans (runTask_posts _ task).carried

theorem Parted.step (parted : this.Parted) (managed : (this.manager.plane {}).Sound)
    {event : BurstEvent} (apart : this.DialsApart event) : (this.step event).Parted := by
  cases event with
  | burstDial multiaddrs windowMs told => exact parted.burstDial managed apart
  | associationFailed job message =>
      exact parted.carried (associationFailed_carried this job message) (List.length_modify _ _ _)
        fun _ done => done
  | manager event => exact parted
  | call made => exact parted
  | advance =>
      exact parted.carried (advance_carried this) (advance_length this)
        fun _ done => step_isDone this .advance done

/-- The end of a job spares every key that is not its own. -/
theorem step_spares (sound : this.Sound) (parted : this.Parted) {event : BurstEvent}
    (spares : ∀ settlement ∈ this.settlements, Spares settlement) :
    ∀ settlement ∈ (this.step event).settlements, Spares settlement := by
  rcases step_settlements this event with same | ⟨job, result, begun, same⟩
  · rw [same]
    exact spares
  · rw [same]
    intro settlement listed
    rcases List.mem_append.mp listed with old | new
    · exact spares settlement old
    · rw [List.mem_singleton.mp new]
      intro key other
      obtain ⟨another, held, found, apart, open_, own⟩ := mem_othersOf.mp other
      let state := this.jobs[job]?.getD {}
      have free : key ∉ state.keys := by
        intro shared
        cases ours : this.jobs[job]? with
        | none =>
            have empty : state.keys = [] := by simp [state, ours]
            rw [empty] at shared
            exact absurd shared List.not_mem_nil
        | some mine =>
            have same : state = mine := by simp [state, ours]
            rw [same] at shared
            exact parted another job held mine apart found ours open_ (sound.begun_open begun) key own
              shared
      have aborted : Untouched key this.manager
          (abortDials this.manager result (state.keys.zip state.peerIds)) := by
        apply abortDials_untouched result _ sound.manager
        intro dial dialed same
        exact free (same ▸ (List.of_mem_zip dialed).1)
      exact aborted.trans (unregisterKeys_untouched _ state.keys free)

/-- Bursts that never dial under a key of one still open: each is done once and in time,
leaves no key of its own registered, and touches nothing of another. -/
theorem bursts_settle_apart (localPeerId : String) (limits : LinkLimits) (events : List BurstEvent)
    (met : Run.Meets step (fun this event => this.LeavesBursts event ∧ this.DialsApart event)
      (create (.create localPeerId limits)) events) :
    Run.Always step (fun this => this.BurstsSettle ∧ ∀ settlement ∈ this.settlements, Spares settlement)
        (create (.create localPeerId limits)) events ∧
      TurnsTell (create (.create localPeerId limits)) events := by
  have managed := PeerLinkManager.create_sound localPeerId limits
  constructor
  · apply Run.always_of_invariant step
      (fun this event => this.LeavesBursts event ∧ this.DialsApart event)
      (fun this => this.Prompt ∧ this.Parted ∧
        (∀ settlement ∈ this.settlements, Clears settlement) ∧
        ∀ settlement ∈ this.settlements, Spares settlement) _ ?_ ?_ events _ met
    · have parted : (create (.create localPeerId limits)).Parted := by
        intro one two stateOne stateTwo _ isOne
        cases isOne
      exact ⟨create_prompt managed, parted, fun _ none => absurd none List.not_mem_nil,
        fun _ none => absurd none List.not_mem_nil⟩
    · rintro this event ⟨leaves, apart⟩ ⟨prompt, parted, clears, spares⟩
      exact ⟨prompt.step leaves, parted.step prompt.sound.manager apart, step_clears clears,
        step_spares prompt.sound parted spares⟩
    · rintro this ⟨prompt, _, clears, spares⟩
      exact ⟨⟨prompt.once, fun idle _ _ found => prompt.timely idle found, clears⟩, spares⟩
  · exact run_turns managed (met.mono fun _ _ both => both.1)

end Keys

section Connections

variable {this : BurstRuntime} [MultiaddrParser]

/-- A step that keeps the manager's books keeps every connection it has. -/
def Kept (m after : PeerLinkManager) : Prop :=
  (m.plane {}).Sound → (after.plane {}).Sound ∧
    ∀ peer, m.isConnectedToPeerId peer = true → after.isConnectedToPeerId peer = true

omit [MultiaddrParser] in
theorem Kept.refl (m : PeerLinkManager) : Kept m m := fun sound => ⟨sound, fun _ said => said⟩

omit [MultiaddrParser] in
theorem Kept.trans {m one two : PeerLinkManager} (first : Kept m one) (second : Kept one two) :
    Kept m two := by
  intro sound
  obtain ⟨soundOne, keepsOne⟩ := first sound
  obtain ⟨soundTwo, keepsTwo⟩ := second soundOne
  exact ⟨soundTwo, fun peer said => keepsTwo peer (keepsOne peer said)⟩

theorem abortDials_kept (result : BurstDialResult) (dials : List (DialKey × String)) :
    ∀ m : PeerLinkManager, Kept m (abortDials m result dials) := by
  induction dials with
  | nil => exact Kept.refl
  | cons dial rest ih =>
      intro m
      unfold abortDials
      rw [List.foldl_cons]
      split
      · exact ih m
      · have aborts : Kept m (m.abortInflightDial dial.1) := fun sound =>
          ⟨PeerLinkManager.step_sound sound (.abortInflightDial dial.1),
            fun _ said => (PeerLinkManager.abortInflightDial_keeps sound dial.1).connected said⟩
        exact aborts.trans (ih _)

omit [MultiaddrParser] in
theorem finish_manager (this : BurstRuntime) (job : Nat) (result : BurstDialResult) :
    (this.finish job result).manager = this.manager := by
  unfold finish
  split <;> rfl

theorem runTask_kept (this : BurstRuntime) (task : BurstTask) :
    Kept this.manager (this.runTask task).manager := by
  cases task with
  | settle job result =>
      have aborts := abortDials_kept result
        ((this.jobs[job]?.getD {}).keys.zip (this.jobs[job]?.getD {}).peerIds) this.manager
      exact aborts.trans fun sound => ⟨unregisterKeys_sound sound _, fun _ said => said⟩
  | window job =>
      show Kept this.manager (this.finish job _).manager
      rw [finish_manager]
      exact .refl _
  | poll job =>
      unfold runTask
      dsimp only
      split
      · exact .refl _
      · split
        · rw [finish_manager]
          exact .refl _
        · exact .refl _
  | other task => exact .refl _

/-- What bursts and the other callers of the runtime do, but neither the manager's own calls and its
`Tick` nor `Stop`, which closes its links. -/
def sparesLinks : BurstEvent → Bool
  | .manager _ => false
  | .call .stop => false
  | _ => true

theorem step_kept (this : BurstRuntime) {event : BurstEvent} (spares : sparesLinks event = true) :
    Kept this.manager (this.step event).manager := by
  cases event with
  | burstDial multiaddrs windowMs told =>
      have called := burstDial_called this multiaddrs windowMs told
      show Kept this.manager (this.burstDial multiaddrs windowMs told).manager
      generalize this.burstDial multiaddrs windowMs told = after at called
      cases called with
      | ends fresh result =>
          rw [finish_manager]
          exact fun sound => ⟨fresh.sound sound, fresh.connected sound⟩
      | dials fresh => exact fun sound => ⟨fresh.sound sound, fresh.connected sound⟩
  | associationFailed job message => exact .refl _
  | manager other => exact absurd spares Bool.false_ne_true
  | call made =>
      show Kept this.manager (stopping this.manager made)
      cases made with
      | stop => exact absurd spares Bool.false_ne_true
      | _ => exact .refl _
  | advance =>
      show Kept this.manager this.advance.manager
      rcases advance_eq this with ⟨_, same⟩ | ⟨task, _, same⟩
      · rw [same]
        exact .refl _
      · rw [same]
        exact runTask_kept { this with runtime := this.runtime.advance.1 } task

theorem step_managed (event : BurstEvent) (sound : (this.manager.plane {}).Sound) :
    ((this.step event).manager.plane {}).Sound := by
  cases event with
  | manager event => exact PeerLinkManager.step_sound sound event
  | call made =>
      show ((stopping this.manager made).plane {}).Sound
      cases made with
      | stop => exact PeerLinkManager.step_sound sound .closeAllLinks
      | _ => exact sound
  | burstDial multiaddrs windowMs told =>
      have spares : sparesLinks (.burstDial multiaddrs windowMs told) = true := rfl
      exact (step_kept this spares sound).1
  | associationFailed job message =>
      have spares : sparesLinks (.associationFailed job message) = true := rfl
      exact (step_kept this spares sound).1
  | advance =>
      have spares : sparesLinks .advance = true := rfl
      exact (step_kept this spares sound).1

/-- However a manager got where it is: calls of `BurstDial`, their timers and looks, and the
ends of their jobs cost no peer its connection. -/
theorem bursts_keep_connections (localPeerId : String) (limits : LinkLimits)
    (events body : List BurstEvent) (spares : ∀ event ∈ body, sparesLinks event = true)
    {peer : String}
    (connected : (Run.exec step (create (.create localPeerId limits)) events).manager.isConnectedToPeerId
      peer = true) :
    (Run.exec step (create (.create localPeerId limits)) (events ++ body)).manager.isConnectedToPeerId
      peer = true := by
  have managed : ((Run.exec step (create (.create localPeerId limits)) events).manager.plane {}).Sound :=
    Run.invariant_always step (fun this : BurstRuntime => (this.manager.plane {}).Sound)
      (fun _ event sound => step_managed event sound) events _
      (PeerLinkManager.create_sound localPeerId limits)
  rw [Run.exec_append]
  have last := Run.invariant step (fun _ event => sparesLinks event = true)
    (fun this : BurstRuntime => (this.manager.plane {}).Sound ∧
      this.manager.isConnectedToPeerId peer = true)
    (fun this event own held => ?_) body _ (Run.meets_of_listed spares) ⟨managed, connected⟩
  · exact last.2
  · obtain ⟨sound, keeps⟩ := step_kept this own held.1
    exact ⟨sound, keeps peer held.2⟩

end Connections

section Samples

local instance peerAddress : MultiaddrParser :=
  ⟨fun multiaddr => .ok { peerId := multiaddr, endpoint := { port := 4000 } }⟩

/-- The second job has its dial, and its waiter, when the first is done. -/
theorem bursts_settle_apart_sample :
    let start := create (.create "alice" {})
    let events := twoBursts "QmBob" "QmCarol"
    let last := Run.exec step start events
    (last.told 0 = 1 ∧ last.manager.waitersOf "amp:burst:0:QmCarol" = [some 1]) ∧
      Run.Always step (fun this => this.BurstsSettle ∧
        ∀ settlement ∈ this.settlements, Spares settlement) start events ∧
      TurnsTell start events :=
  ⟨by decide +kernel,
    bursts_settle_apart "alice" {} (twoBursts "QmBob" "QmCarol") (by decide +kernel)⟩

/-- Bob is connected; a burst to him and one to carol come and go. -/
theorem bursts_keep_connections_sample :
    (Run.exec step (create (.create "alice" {}))
      ([.manager (.surroundings { nowMs := 1000, derivePeerId := fun _ => "QmBob" }),
          .manager (.inboundConnection "aa"), .manager (.handshake 1 (.established [1] (.ok ())))] ++
        twoBursts "QmBob" "QmCarol")).manager.isConnectedToPeerId "QmBob" = true :=
  bursts_keep_connections "alice" {} _ _ (by decide +kernel) (by decide +kernel)

/-- Two bursts that overlap to one peer share a key: the end of the first unregisters the
endpoint the second dials, and takes its waiter. -/
theorem bursts_share_keys :
    let start := create (.create "alice" {})
    let events := twoBursts "QmBob" "QmBob"
    Run.Meets step LeavesBursts start events ∧
      ¬ Run.Always step (fun this => ∀ settlement ∈ this.settlements, Spares settlement)
        start events := by
  intro start events
  refine ⟨by decide +kernel, ?_⟩
  intro spared
  have shared : ∃ settlement ∈ (Run.exec step start events).settlements, ∃ key ∈ settlement.others,
      settlement.before.book.contains key = true ∧ settlement.after.book.find key = none ∧
      settlement.before.waitersOf key = [some 0, some 1] ∧ settlement.after.waitersOf key = [] := by
    decide +kernel
  obtain ⟨settlement, listed, key, other, _, _, waited, waits⟩ := shared
  have same := (spared.last settlement listed key other).waiters
  rw [waited, waits] at same
  cases same

end Samples

end BurstRuntime

end Amp
