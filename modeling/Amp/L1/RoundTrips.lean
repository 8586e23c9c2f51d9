import Amp.L1.Timing
import Amp.Lib.Run

set_option autoImplicit false

/- Runs of a connection with the packets it has resent and the round trips it has sampled. -/
namespace Amp.Adp

/-- The packets `Tick` sends again. -/
def Connection.resends {π : Type} (c : Connection π) : Connection.Event π → List Nat
  | .tick now =>
      if c.closed then []
      else (c.outstanding.filter fun o =>
        decide (o.nextRtxMs ≤ now) && decide ((o.attempts : Int) < c.params.maxRtx)).map Outstanding.seq
  | _ => []

structure TimedRun (π : Type) where
  connection : Connection π
  /-- Trace: the numbers of the packets sent again, in order. -/
  resent : List Nat := []
  /-- Trace: the samples, with the number of the packet each is of. -/
  samples : List (Nat × Int) := []

namespace TimedRun

variable {π : Type}

/-- The largest sample, with the negative ones as zero. -/
def largest (samples : List (Nat × Int)) : Int :=
  samples.foldr (fun sample most => max sample.2 most) 0

theorem largest_nonneg (samples : List (Nat × Int)) : 0 ≤ largest samples := by
  induction samples with
  | nil => exact Int.le_refl 0
  | cons sample rest ih => exact Int.le_trans ih (Int.le_max_right _ _)

theorem le_largest {samples : List (Nat × Int)} {sample : Nat × Int} (listed : sample ∈ samples) :
    sample.2 ≤ largest samples := by
  induction samples with
  | nil => cases listed
  | cons first rest ih =>
      rcases List.mem_cons.mp listed with rfl | later
      · exact Int.le_max_left _ _
      · exact Int.le_trans (ih later) (Int.le_max_right _ _)

theorem largest_append (samples more : List (Nat × Int)) :
    largest samples ≤ largest (samples ++ more) := by
  induction samples with
  | nil => exact largest_nonneg more
  | cons first rest ih =>
      show max first.2 (largest rest) ≤ max first.2 (largest (rest ++ more))
      omega

/-- What the timers of a run are held to. -/
structure OnTime (this : TimedRun π) : Prop where
  estimates : this.connection.timing.Estimates (largest this.samples)
  timeout : this.connection.params.rtxIntervalMs ≤ this.connection.rtoMs ∧
    this.connection.rtoMs ≤ this.connection.longestRtoMs
  interval : this.connection.authenticated = true → ∀ doublings,
    this.connection.params.rtxIntervalMs ≤ this.connection.retransmitIntervalMs doublings ∧
      this.connection.retransmitIntervalMs doublings ≤ this.connection.longestRtoMs
  grows : this.connection.authenticated = true → ∀ few many, few ≤ many →
    this.connection.retransmitIntervalMs few ≤ this.connection.retransmitIntervalMs many
  backoff : this.connection.rtoBackoff ≤ 8
  clean : ∀ sample ∈ this.samples, sample.1 ∉ this.resent

/-- The code's 64-bit words hold what the timers compute: the sum that `RtoMs` clamps, and the
timeout after any number of doublings. -/
structure FitsWords (this : TimedRun π) : Prop where
  timeout : this.connection.stats.srttMs +
    max kRtoGranularityMs (4 * this.connection.stats.rttvarMs) < 2 ^ 63
  interval : ∀ doublings, this.connection.rtoMs * 2 ^ min doublings 8 < 2 ^ 63

theorem OnTime.fitsWords {this : TimedRun π} (onTime : this.OnTime)
    (configured : 0 < this.connection.params.rtxIntervalMs ∧
      this.connection.params.rtxIntervalMs < 2 ^ 40)
    (sampled : largest this.samples < 2 ^ 40) : this.FitsWords := by
  have words : (2 : Int) ^ 40 = 1099511627776 ∧ (2 : Int) ^ 63 = 9223372036854775808 := by decide
  rw [words.1] at configured sampled
  constructor
  · have granularity : kRtoGranularityMs = 10 := rfl
    rw [words.2, granularity]
    rcases onTime.estimates with ⟨srtt, rttvar⟩ | ⟨srtt, rttvar⟩
    · have srtt : this.connection.stats.srttMs = -1 := srtt
      have rttvar : this.connection.stats.rttvarMs = -1 := rttvar
      omega
    · have srtt : this.connection.stats.srttMs ≤ largest this.samples := srtt.2
      have rttvar : this.connection.stats.rttvarMs ≤ largest this.samples := rttvar.2
      omega
  · intro doublings
    have timeout := onTime.timeout
    have longest : this.connection.longestRtoMs = max 2000 this.connection.params.rtxIntervalMs := rfl
    have turns : (2 : Int) ^ min doublings 8 ≤ 2 ^ 8 := Connection.pow_le_pow (Nat.min_le_right _ _)
    have doubled : this.connection.rtoMs * 2 ^ min doublings 8 ≤ this.connection.rtoMs * 2 ^ 8 :=
      Int.mul_le_mul_of_nonneg_left turns (by omega)
    have most : (2 : Int) ^ 8 = 256 := by decide
    rw [most] at doubled
    rw [words.2]
    omega

variable [PacketProtection π] [Hmac]

def step (this : TimedRun π) (event : Connection.Event π) : TimedRun π where
  connection := this.connection.step event
  resent := this.resent ++ this.connection.resends event
  samples := this.samples ++ (this.connection.sampled event).toList

def opened (endpoint : EndpointPort) (params : OpenParams) : TimedRun π where
  connection := .create endpoint params

section Estimates

/-- The part of `OnTime` the numbers alone make. -/
structure Estimated (rtxIntervalMs : Int) (this : TimedRun π) : Prop where
  estimates : this.connection.timing.Estimates (largest this.samples)
  backoff : this.connection.timing.rtoBackoff ≤ 8
  interval : this.connection.timing.rtxIntervalMs = rtxIntervalMs

theorem step_estimated {rtxIntervalMs : Int} {this : TimedRun π}
    (estimated : this.Estimated rtxIntervalMs) (event : Connection.Event π) :
    (this.step event).Estimated rtxIntervalMs := by
  obtain ⟨backoff, small, timed⟩ := this.connection.step_timing event
  have timed : (this.step event).connection.timing =
      { this.connection.timing.note (this.connection.sampled event) with rtoBackoff := backoff } := timed
  have most : backoff ≤ 8 := by
    have before : this.connection.rtoBackoff ≤ 8 := estimated.backoff
    omega
  have grows := largest_append this.samples (this.connection.sampled event).toList
  have noted : (this.connection.timing.note (this.connection.sampled event)).Estimates
      (largest (this.step event).samples) ∧
      (this.connection.timing.note (this.connection.sampled event)).rtxIntervalMs = rtxIntervalMs := by
    cases taken : this.connection.sampled event with
    | none =>
        rw [taken] at grows
        refine ⟨estimated.estimates.mono ?_, estimated.interval⟩
        show _ ≤ largest (this.samples ++ (this.connection.sampled event).toList)
        rw [taken]
        exact grows
    | some sample =>
        rw [taken] at grows
        have listed : sample ∈ (this.step event).samples := by
          apply List.mem_append_right
          rw [taken]
          exact List.mem_singleton_self sample
        have same : (this.step event).samples = this.samples ++ [sample] := by
          show this.samples ++ (this.connection.sampled event).toList = _
          rw [taken]
          rfl
        have kept : (this.connection.timing.noteSample sample.2).rtxIntervalMs = rtxIntervalMs := by
          rw [← estimated.interval]
          unfold Timing.noteSample
          dsimp only
          split
          · rfl
          · rfl
        have before : this.connection.timing.Estimates (largest (this.step event).samples) := by
          rw [same]
          exact estimated.estimates.mono grows
        exact ⟨(Timing.noteSample_estimates before (largest_nonneg _) (le_largest listed)).1, kept⟩
  constructor
  · rw [timed]
    exact noted.1
  · rw [timed]
    exact most
  · rw [timed]
    exact noted.2

end Estimates

section Samples

variable {this : TimedRun π}

/-- What a tick leaves of the packets, each as it was or sent again. -/
theorem tick_outstanding (c : Connection π) (now : Int) (fit : ∀ o ∈ c.outstanding, o.seq < 2 ^ 32)
    (isOpen : c.closed = false) :
    (c.tick now).outstanding.Sublist (c.outstanding.map (c.resent now)) ∧
      (c.tick now).txSeqRel = c.txSeqRel := by
  obtain ⟨done, packets⟩ := Connection.resendAll_spec now c.outstanding c fit
  obtain ⟨calls, sent, unreachable, backoff, stats, state, _⟩ := done.state
  unfold Connection.tick
  rw [isOpen]
  simp only [Bool.false_eq_true, ↓reduceIte]
  rw [state, packets]
  exact ⟨List.dropWhile_sublist _, rfl⟩

omit [PacketProtection π] [Hmac] in
theorem resent_seq (c : Connection π) (now : Int) (o : Outstanding) : (c.resent now o).seq = o.seq := by
  unfold Connection.resent
  split_ifs <;> rfl

omit [PacketProtection π] [Hmac] in
/-- A packet a tick leaves unresent it has not sent again. -/
theorem resent_zero {c : Connection π} {now : Int} {o : Outstanding}
    (zero : (c.resent now o).attempts = 0) : c.resent now o = o ∧
      (decide (o.nextRtxMs ≤ now) && decide ((o.attempts : Int) < c.params.maxRtx)) = false := by
  unfold Connection.resent at zero ⊢
  by_cases early : now < o.nextRtxMs
  · rw [if_pos early]
    have notDue : ¬o.nextRtxMs ≤ now := by omega
    exact ⟨rfl, by rw [decide_eq_false notDue]; rfl⟩
  · rw [if_neg early] at zero ⊢
    by_cases spent : c.params.maxRtx ≤ o.attempts
    · rw [if_pos spent]
      have none : ¬(o.attempts : Int) < c.params.maxRtx := by omega
      exact ⟨rfl, by rw [decide_eq_false none, Bool.and_false]⟩
    · rw [if_neg spent] at zero
      cases zero

theorem handleAuthenticated_acked {c : Connection π} {pkt : WirePacket} {now : Int}
    (source : IpEndpoint) (form : pkt.type = .ack) (inTime : c.timely pkt now = true) :
    (c.handleAuthenticated pkt source now).book =
      { c.book with outstanding := c.outstanding.filter fun o => o.seq != pkt.seq } := by
  have open_ : ¬(!pkt.type.isSealed && !c.acceptSkew pkt.timestampMs now) = true := by
    unfold Connection.timely at inTime
    revert inTime
    cases pkt.type.isSealed <;> cases c.acceptSkew pkt.timestampMs now <;> simp
  have passes : c.refusePlainAfterKeys pkt = (c, false) := by
    unfold Connection.refusePlainAfterKeys
    rw [form]
    split
    · rfl
    · rfl
  unfold Connection.handleAuthenticated
  rw [if_neg open_, passes]
  exact Connection.handleAdmitted_ack c pkt source now form

/-- What the packets of a run are known by: numbers of their own, and none sent again that still
counts as sent once or was sampled. -/
structure Once (this : TimedRun π) : Prop where
  sound : this.connection.ledger.Sound True
  distinct : (this.connection.outstanding.map Outstanding.seq).Nodup
  known : ∀ o ∈ this.connection.outstanding, o.seq ≤ this.connection.txSeqRel
  past : ∀ seq ∈ this.resent, seq ≤ this.connection.txSeqRel
  unresent : ∀ o ∈ this.connection.outstanding, o.attempts = 0 → o.seq ∉ this.resent
  settled : ∀ sample ∈ this.samples, sample.1 ≤ this.connection.txSeqRel ∧ sample.1 ∉ this.resent ∧
    ∀ o ∈ this.connection.outstanding, o.seq ≠ sample.1

theorem step_resent {event : Connection.Event π} (still : this.connection.resends event = []) :
    (this.step event).resent = this.resent := by
  show this.resent ++ _ = _
  rw [still, List.append_nil]

theorem step_samples {event : Connection.Event π} (unsampled : this.connection.sampled event = none) :
    (this.step event).samples = this.samples := by
  show this.samples ++ _ = _
  rw [unsampled]
  exact List.append_nil _

/-- Fewer packets and nothing sent again. -/
theorem Once.fewer (once : this.Once) {event : Connection.Event π}
    (still : this.connection.resends event = []) (unsampled : this.connection.sampled event = none)
    (fewer : (this.connection.step event).outstanding.Sublist this.connection.outstanding)
    (same : (this.connection.step event).txSeqRel = this.connection.txSeqRel) :
    (this.step event).Once := by
  have resent := step_resent still
  have samples := step_samples unsampled
  have same : (this.step event).connection.txSeqRel = this.connection.txSeqRel := same
  refine ⟨Connection.step_sound once.sound event (.inl trivial), ?_, ?_, ?_, ?_, ?_⟩
  · exact once.distinct.sublist (fewer.map _)
  · intro o listed
    rw [same]
    exact once.known o (fewer.mem listed)
  · rw [resent, same]
    exact once.past
  · intro o listed zero
    rw [resent]
    exact once.unresent o (fewer.mem listed) zero
  · rw [samples, resent, same]
    intro sample taken
    obtain ⟨low, clean, gone⟩ := once.settled sample taken
    exact ⟨low, clean, fun o listed => gone o (fewer.mem listed)⟩

/-- The next number goes to a packet nothing is known of. -/
theorem Once.numbered (once : this.Once) {event : Connection.Event π} {o : Outstanding}
    (still : this.connection.resends event = []) (unsampled : this.connection.sampled event = none)
    (added : (this.connection.step event).outstanding = this.connection.outstanding ++ [o])
    (next : (this.connection.step event).txSeqRel = this.connection.txSeqRel + 1)
    (own : o.seq = this.connection.txSeqRel + 1) : (this.step event).Once := by
  have resent := step_resent still
  have samples := step_samples unsampled
  have added : (this.step event).connection.outstanding = this.connection.outstanding ++ [o] := added
  have next : (this.step event).connection.txSeqRel = this.connection.txSeqRel + 1 := next
  have past := once.past
  refine ⟨Connection.step_sound once.sound event (.inl trivial), ?_, ?_, ?_, ?_, ?_⟩
  · rw [added, List.map_append]
    apply List.Nodup.append once.distinct (List.nodup_singleton _)
    apply List.disjoint_singleton.mpr
    intro listed
    obtain ⟨other, member, same⟩ := List.mem_map.mp listed
    have low := once.known other member
    omega
  · rw [added, next]
    intro other listed
    rcases List.mem_append.mp listed with old | new
    · have low := once.known other old
      omega
    · rw [List.mem_singleton.mp new, own]
  · rw [resent, next]
    intro seq sent
    have low := past seq sent
    omega
  · rw [added, resent]
    intro other listed zero
    rcases List.mem_append.mp listed with old | new
    · exact once.unresent other old zero
    · rw [List.mem_singleton.mp new, own]
      intro sent
      have low := past _ sent
      omega
  · rw [samples, resent, added, next]
    intro sample taken
    obtain ⟨low, clean, gone⟩ := once.settled sample taken
    refine ⟨by omega, clean, ?_⟩
    intro other listed
    rcases List.mem_append.mp listed with old | new
    · exact gone other old
    · rw [List.mem_singleton.mp new, own]
      omega

/-- An ack of a packet sent once: it is sampled and gone. -/
theorem Once.acked (once : this.Once) {source : IpEndpoint} {bytes : Bytes} {now : Int}
    {sample : Nat × Int} (taken : this.connection.sampled (.datagram source bytes now) = some sample) :
    (this.step (.datagram source bytes now)).Once := by
  obtain ⟨pkt, got, sampled⟩ := Option.bind_eq_some_iff.mp taken
  unfold Connection.sampleOf at sampled
  split at sampled
  · rename_i acks
    obtain ⟨o, found, rfl⟩ := Option.map_eq_some_iff.mp sampled
    have tracked := List.mem_of_find?_eq_some found
    have fits := List.find?_some found
    simp only [Bool.and_eq_true, beq_iff_eq] at fits
    have book := handleAuthenticated_acked source acks.1 acks.2
    have handled : this.connection.step (.datagram source bytes now) =
        this.connection.handleAuthenticated pkt source now := by
      show this.connection.handleDatagram source bytes now = _
      rw [Connection.handleDatagram_eq, got]
    have left : (this.connection.step (.datagram source bytes now)).outstanding =
        this.connection.outstanding.filter fun o => o.seq != pkt.seq := by
      rw [handled]
      exact congrArg Book.outstanding book
    have same : (this.connection.step (.datagram source bytes now)).txSeqRel =
        this.connection.txSeqRel := by
      rw [handled]
      exact congrArg Book.txSeqRel book
    have resent : (this.step (.datagram source bytes now)).resent = this.resent := step_resent rfl
    have samples : (this.step (.datagram source bytes now)).samples =
        this.samples ++ [(o.seq, now - o.firstSentMs)] := by
      show this.samples ++ _ = _
      rw [taken]
      rfl
    have left : (this.step (.datagram source bytes now)).connection.outstanding =
        this.connection.outstanding.filter fun o => o.seq != pkt.seq := left
    have same : (this.step (.datagram source bytes now)).connection.txSeqRel =
        this.connection.txSeqRel := same
    have fewer : ((this.step (.datagram source bytes now)).connection.outstanding).Sublist
        this.connection.outstanding := by
      rw [left]
      exact List.filter_sublist
    refine ⟨Connection.step_sound once.sound _ (.inl trivial), once.distinct.sublist (fewer.map _),
      ?_, ?_, ?_, ?_⟩
    · intro other listed
      rw [same]
      exact once.known other (fewer.mem listed)
    · rw [resent, same]
      exact once.past
    · intro other listed zero
      rw [resent]
      exact once.unresent other (fewer.mem listed) zero
    · rw [samples, resent, same]
      intro other listed
      rcases List.mem_append.mp listed with old | new
      · obtain ⟨low, clean, gone⟩ := once.settled other old
        exact ⟨low, clean, fun kept inside => gone kept (fewer.mem inside)⟩
      · rw [List.mem_singleton.mp new]
        refine ⟨once.known o tracked, once.unresent o tracked fits.2, ?_⟩
        rw [left]
        intro kept inside
        have apart := (List.mem_filter.mp inside).2
        rw [bne_iff_ne] at apart
        rw [fits.1]
        exact apart
  · cases sampled

theorem Once.ticked (once : this.Once) (now : Int) : (this.step (.tick now)).Once := by
  have fit : ∀ o ∈ this.connection.outstanding, o.seq < 2 ^ 32 :=
    fun o member => once.sound.taken_lt (once.sound.tracked o member).payload
  by_cases closed : this.connection.closed = true
  · have same : this.connection.step (.tick now) = this.connection := by
      show this.connection.tick now = _
      unfold Connection.tick
      exact if_pos closed
    apply once.fewer
    · exact if_pos closed
    · rfl
    · rw [same]
    · rw [same]
  · have isOpen := Bool.eq_false_of_not_eq_true closed
    obtain ⟨fewer, same⟩ := tick_outstanding this.connection now fit isOpen
    have from_ : ∀ o ∈ (this.step (.tick now)).connection.outstanding,
        ∃ before ∈ this.connection.outstanding, this.connection.resent now before = o := by
      intro o listed
      exact List.mem_map.mp (fewer.mem listed)
    have same : (this.step (.tick now)).connection.txSeqRel = this.connection.txSeqRel := same
    have again : this.connection.resends (.tick now) = _ := if_neg closed
    have resent : ∀ seq ∈ (this.step (.tick now)).resent, seq ∈ this.resent ∨
        ∃ o ∈ this.connection.outstanding, o.seq = seq ∧ (decide (o.nextRtxMs ≤ now) &&
          decide ((o.attempts : Int) < this.connection.params.maxRtx)) = true := by
      intro seq sent
      rcases List.mem_append.mp sent with old | new
      · exact .inl old
      · rw [again] at new
        obtain ⟨o, member, number⟩ := List.mem_map.mp new
        obtain ⟨listed, due⟩ := List.mem_filter.mp member
        exact .inr ⟨o, listed, number, due⟩
    have samples : (this.step (.tick now)).samples = this.samples := step_samples rfl
    refine ⟨Connection.step_sound once.sound _ (.inl trivial), ?_, ?_, ?_, ?_, ?_⟩
    · apply List.Nodup.sublist (fewer.map _)
      rw [List.map_map]
      have seqs : (Outstanding.seq ∘ this.connection.resent now) = Outstanding.seq :=
        funext (resent_seq this.connection now)
      rw [seqs]
      exact once.distinct
    · intro o listed
      obtain ⟨before, member, rfl⟩ := from_ o listed
      rw [resent_seq, same]
      exact once.known before member
    · intro seq sent
      rw [same]
      rcases resent seq sent with old | ⟨o, listed, rfl, _⟩
      · exact once.past seq old
      · exact once.known o listed
    · intro o listed zero sent
      obtain ⟨before, member, rfl⟩ := from_ o listed
      obtain ⟨unchanged, notDue⟩ := resent_zero zero
      rw [unchanged] at zero sent
      rcases resent _ sent with old | ⟨other, inside, number, due⟩
      · exact once.unresent before member zero old
      · have own := List.inj_on_of_nodup_map once.distinct inside member number
        rw [own, notDue] at due
        cases due
    · rw [samples, same]
      intro sample taken
      obtain ⟨low, clean, gone⟩ := once.settled sample taken
      refine ⟨low, ?_, ?_⟩
      · intro sent
        rcases resent _ sent with old | ⟨o, listed, number, _⟩
        · exact clean old
        · exact gone o listed number
      · intro o listed
        obtain ⟨before, member, rfl⟩ := from_ o listed
        rw [resent_seq]
        exact gone before member

theorem step_once (once : this.Once) (event : Connection.Event π) : (this.step event).Once := by
  cases taken : this.connection.sampled event with
  | some sample =>
      cases event with
      | datagram source bytes now => exact once.acked taken
      | _ => cases taken
  | none =>
      by_cases ticks : ∃ now, event = .tick now
      · obtain ⟨now, rfl⟩ := ticks
        exact once.ticked now
      · have still : this.connection.resends event = [] := by
          cases event with
          | tick now => exact absurd ⟨now, rfl⟩ ticks
          | _ => rfl
        have moves := Connection.step_moves once.sound event
        generalize book : (this.connection.step event).book = after at moves
        have left : (this.connection.step event).outstanding = after.outstanding :=
          congrArg Book.outstanding book
        have count : (this.connection.step event).txSeqRel = after.txSeqRel :=
          congrArg Book.txSeqRel book
        cases moves with
        | numbered payload takes => exact once.numbered still taken left count rfl
        | ticked now _ => exact absurd ⟨now, rfl⟩ ticks
        | acked | ackedPreUpgrade =>
            apply once.fewer still taken
            · rw [left]
              exact List.filter_sublist
            · exact count
        | idle | handler | numberedBestEffort | took =>
            apply once.fewer still taken
            · rw [left]
              exact List.Sublist.refl _
            · exact count

theorem opened_once (endpoint : EndpointPort) (params : OpenParams) :
    (opened endpoint params : TimedRun π).Once where
  sound := Connection.create_sound endpoint params
  distinct := List.nodup_nil
  known _ none := absurd none List.not_mem_nil
  past _ none := absurd none List.not_mem_nil
  unresent _ none := absurd none List.not_mem_nil
  settled _ none := absurd none List.not_mem_nil

theorem onTime_of_invariant {rtxIntervalMs : Int} (positive : 0 < rtxIntervalMs)
    (estimated : this.Estimated rtxIntervalMs) (once : this.Once) : this.OnTime := by
  have kept : this.connection.params.rtxIntervalMs = rtxIntervalMs := estimated.interval
  rw [← kept] at positive
  exact {
    estimates := estimated.estimates
    timeout := Connection.rtoMs_bounds this.connection
    interval := fun authenticated =>
      Connection.retransmitIntervalMs_bounds authenticated positive
    grows := fun authenticated _ _ =>
      Connection.retransmitIntervalMs_mono authenticated positive
    backoff := estimated.backoff
    clean := fun sample taken => (once.settled sample taken).2.1 }

/-- Whatever is sent, acked and resent, the timers stay on time, and within the words of the code
while the samples are. -/
theorem always_onTime (endpoint : EndpointPort) {params : OpenParams}
    (configured : 0 < params.rtxIntervalMs ∧ params.rtxIntervalMs < 2 ^ 40)
    (events : List (Connection.Event π)) :
    Run.Always step (fun this => this.OnTime ∧ (largest this.samples < 2 ^ 40 → this.FitsWords))
      (opened endpoint params) events := by
  apply Run.always_of_invariant step (fun _ _ => True)
    (fun this => this.Estimated params.rtxIntervalMs ∧ this.Once)
  · rintro this event _ ⟨estimated, once⟩
    exact ⟨step_estimated estimated event, step_once once event⟩
  · rintro this ⟨estimated, once⟩
    have onTime := onTime_of_invariant configured.1 estimated once
    have kept : this.connection.params.rtxIntervalMs = params.rtxIntervalMs := estimated.interval
    exact ⟨onTime, onTime.fitsWords (kept ▸ configured)⟩
  · exact Run.meets_of_forall step _ (fun _ _ => trivial) events _
  · refine ⟨⟨.inl ⟨rfl, rfl⟩, Nat.zero_le _, ?_⟩, opened_once endpoint params⟩
    show (Connection.create (π := π) endpoint params).params.rtxIntervalMs = _
    unfold Connection.create
    dsimp only
    split <;> rfl

end Samples

end TimedRun

end Amp.Adp
