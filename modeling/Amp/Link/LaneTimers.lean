import Amp.L1.RoundTrips
import Amp.L1.Sample
import Amp.Link.CarrierLane

set_option autoImplicit false

/- The timers of a lane: the bounds of its timeout, and how often it sends a frame. -/
namespace Amp

open Adp (Bytes clamp_bounds)

namespace CarrierLane

theorem sampleRtt_config (lane : CarrierLane) (sampleMs : Int) :
    (lane.sampleRtt sampleMs).config = lane.config := by
  unfold sampleRtt
  dsimp only
  split <;> rfl

/-- A sampled timeout is between the two bounds. -/
theorem sampleRtt_bounds (lane : CarrierLane) (sampleMs : Int)
    (ordered : lane.config.minRtoMs ≤ lane.config.maxRtoMs) :
    lane.config.minRtoMs ≤ (lane.sampleRtt sampleMs).rtoMs ∧
      (lane.sampleRtt sampleMs).rtoMs ≤ lane.config.maxRtoMs := by
  unfold sampleRtt
  cases lane.haveRtt with
  | false => exact clamp_bounds _ ordered
  | true => exact clamp_bounds _ ordered

/-- Both estimates are within what was sampled, a sample being one millisecond at least. -/
def Estimates (lane : CarrierLane) (largest : Int) : Prop :=
  (0 ≤ lane.srttMs ∧ lane.srttMs ≤ max 1 largest) ∧ 0 ≤ lane.rttvarMs ∧ lane.rttvarMs ≤ max 1 largest

theorem Estimates.mono {lane : CarrierLane} {less more : Int} (estimates : lane.Estimates less)
    (grows : less ≤ more) : lane.Estimates more := by
  unfold Estimates at *
  omega

theorem sampleRtt_estimates {lane : CarrierLane} {largest sampleMs : Int}
    (estimates : lane.Estimates largest) (below : sampleMs ≤ largest) :
    (lane.sampleRtt sampleMs).Estimates largest := by
  unfold Estimates at *
  unfold sampleRtt
  cases lane.haveRtt with
  | false =>
      show (0 ≤ max sampleMs 1 ∧ max sampleMs 1 ≤ _) ∧ 0 ≤ max sampleMs 1 / 2 ∧
        max sampleMs 1 / 2 ≤ _
      omega
  | true =>
      have off : ∃ error, error = (if max sampleMs 1 < lane.srttMs then lane.srttMs - max sampleMs 1
          else max sampleMs 1 - lane.srttMs) ∧ 0 ≤ error ∧ error ≤ max 1 largest := by
        refine ⟨_, rfl, ?_⟩
        split
        · omega
        · omega
      obtain ⟨error, same, small, large⟩ := off
      show (0 ≤ (7 * lane.srttMs + max sampleMs 1) / 8 ∧ (7 * lane.srttMs + max sampleMs 1) / 8 ≤ _) ∧
        0 ≤ (3 * lane.rttvarMs + _) / 4 ∧ (3 * lane.rttvarMs + _) / 4 ≤ _
      rw [← same]
      omega

/-- The timeout after so many turns of the doubling loop. -/
def doubled (lane : CarrierLane) (turns : Nat) : Int :=
  (List.range turns).foldl
    (fun rto _ => if rto < lane.config.maxRtoMs then rto * 2 else rto) lane.rtoMs

theorem doubled_succ (lane : CarrierLane) (turns : Nat) : lane.doubled (turns + 1) =
    if lane.doubled turns < lane.config.maxRtoMs then lane.doubled turns * 2
    else lane.doubled turns := by
  unfold doubled
  rw [List.range_succ, List.foldl_append]
  rfl

theorem doubled_le_succ {lane : CarrierLane} (positive : 0 < lane.rtoMs) (turns : Nat) :
    lane.rtoMs ≤ lane.doubled turns ∧ lane.doubled turns ≤ lane.doubled (turns + 1) := by
  induction turns with
  | zero =>
      have start : lane.doubled 0 = lane.rtoMs := rfl
      rw [doubled_succ, start]
      split
      · omega
      · omega
  | succ turns ih =>
      rw [doubled_succ lane (turns + 1)]
      split
      · omega
      · omega

theorem doubled_mono {lane : CarrierLane} (positive : 0 < lane.rtoMs) {few many : Nat}
    (more : few ≤ many) : lane.doubled few ≤ lane.doubled many := by
  induction more with
  | refl => exact Int.le_refl _
  | step _ ih => exact Int.le_trans ih (doubled_le_succ positive _).2

/-- Only a timeout below its bound is doubled. -/
theorem doubled_lt {lane : CarrierLane} (bounds : 0 < lane.rtoMs ∧ lane.rtoMs ≤ lane.config.maxRtoMs)
    (turns : Nat) : lane.doubled turns < 2 * lane.config.maxRtoMs := by
  induction turns with
  | zero =>
      have start : lane.doubled 0 = lane.rtoMs := rfl
      omega
  | succ turns ih =>
      rw [doubled_succ]
      split
      · omega
      · omega

theorem backoffRto_eq (lane : CarrierLane) (attempts : Nat) :
    lane.backoffRto attempts = min (lane.doubled (attempts - 1)) lane.config.maxRtoMs := rfl

theorem backoffRto_bounds {lane : CarrierLane} (positive : 0 < lane.config.minRtoMs)
    (bounds : lane.config.minRtoMs ≤ lane.rtoMs ∧ lane.rtoMs ≤ lane.config.maxRtoMs) (attempts : Nat) :
    lane.config.minRtoMs ≤ lane.backoffRto attempts ∧
      lane.backoffRto attempts ≤ lane.config.maxRtoMs := by
  have running : 0 < lane.rtoMs := by omega
  have grown := (doubled_le_succ running (attempts - 1)).1
  rw [backoffRto_eq]
  omega

theorem backoffRto_mono {lane : CarrierLane} (positive : 0 < lane.rtoMs) {few many : Nat}
    (more : few ≤ many) : lane.backoffRto few ≤ lane.backoffRto many := by
  have grown := doubled_mono positive (by omega : few - 1 ≤ many - 1)
  rw [backoffRto_eq, backoffRto_eq]
  omega

/-- The loop of `OnAck` takes one sample of each frame it settles that was sent once. -/
theorem settle_samples (ack : LaneAckFields) (now : Int) (frames : List LaneFrame) :
    ∀ lane : CarrierLane, (settle ack now frames lane).1 =
      (frames.filter fun frame => ack.covers frame.seq && decide (frame.attempts = 1)).foldl
        (fun lane frame => lane.sampleRtt (now - frame.sentMs)) lane := by
  induction frames with
  | nil => exact fun _ => rfl
  | cons frame rest ih =>
      intro lane
      unfold settle
      by_cases covered : ack.covers frame.seq = true
      · rw [if_pos covered]
        by_cases once : frame.attempts = 1
        · rw [if_pos once, ih, List.filter_cons_of_pos (by simp [covered, once])]
          rfl
        · rw [if_neg once, ih, List.filter_cons_of_neg (by simp [once])]
      · rw [if_neg covered, List.filter_cons_of_neg (by simp [covered])]
        exact ih lane

/-- The samples of an ack leave the timeout within its bounds. -/
theorem settle_bounds {config : CarrierLaneConfig} (ordered : config.minRtoMs ≤ config.maxRtoMs)
    (ack : LaneAckFields) (now : Int) (frames : List LaneFrame) {lane : CarrierLane}
    (same : lane.config = config)
    (bounds : config.minRtoMs ≤ lane.rtoMs ∧ lane.rtoMs ≤ config.maxRtoMs) :
    (settle ack now frames lane).1.config = config ∧
      config.minRtoMs ≤ (settle ack now frames lane).1.rtoMs ∧
      (settle ack now frames lane).1.rtoMs ≤ config.maxRtoMs := by
  rw [settle_samples]
  generalize frames.filter _ = settled
  induction settled generalizing lane with
  | nil => exact ⟨same, bounds⟩
  | cons frame rest ih =>
      have sampled := sampleRtt_bounds lane (now - frame.sentMs) (same ▸ ordered)
      rw [same] at sampled
      exact ih ((lane.sampleRtt_config (now - frame.sentMs)).trans same) sampled

/-- The samples of an ack leave the estimates within what was sampled. -/
theorem settle_estimates {ack : LaneAckFields} {now largest : Int} {frames : List LaneFrame}
    {lane : CarrierLane} (estimates : lane.Estimates largest)
    (below : ∀ frame ∈ frames, ack.covers frame.seq = true → frame.attempts = 1 →
      now - frame.sentMs ≤ largest) :
    (settle ack now frames lane).1.Estimates largest := by
  rw [settle_samples]
  have sampled : ∀ frame ∈ frames.filter fun frame =>
      ack.covers frame.seq && decide (frame.attempts = 1), now - frame.sentMs ≤ largest := by
    intro frame listed
    obtain ⟨member, once⟩ := List.mem_filter.mp listed
    simp only [Bool.and_eq_true, decide_eq_true_eq] at once
    exact below frame member once.1 once.2
  revert sampled
  generalize frames.filter _ = settled
  intro sampled
  induction settled generalizing lane with
  | nil => exact estimates
  | cons frame rest ih =>
      have first := sampled frame List.mem_cons_self
      exact ih (sampleRtt_estimates estimates first)
        fun other later => sampled other (List.mem_cons_of_mem _ later)

theorem settle_kept (ack : LaneAckFields) (now : Int) (frames : List LaneFrame) :
    ∀ lane : CarrierLane, (settle ack now frames lane).2 =
      (frames.filter fun frame => !ack.covers frame.seq).map fun frame =>
        lane.noteSkip ack frame now := by
  induction frames with
  | nil => exact fun _ => rfl
  | cons frame rest ih =>
      intro lane
      unfold settle
      by_cases covered : ack.covers frame.seq = true
      · rw [if_pos covered, ih, List.filter_cons_of_neg (by simp [covered])]
        split
        · apply List.map_congr_left
          intro other _
          unfold noteSkip
          rw [sampleRtt_config]
        · rfl
      · rw [if_neg covered, List.filter_cons_of_pos (by simp [covered])]
        dsimp only
        rw [ih]
        rfl

theorem noteSkip_attempts (lane : CarrierLane) (ack : LaneAckFields) (frame : LaneFrame) (now : Int) :
    (lane.noteSkip ack frame now).attempts = frame.attempts := by
  unfold noteSkip
  split <;> rfl

/-- A frame's transmissions go up by what a turn of `DueResends` gives out. -/
theorem resendFrame_attempts (lane : CarrierLane) (now : Int) (frame : LaneFrame) :
    (lane.resendFrame now frame).1.attempts =
      frame.attempts + (lane.resendFrame now frame).2.1.length := by
  unfold resendFrame
  split
  · rfl
  · split
    · rfl
    · rfl

theorem resendFrame_most {lane : CarrierLane} {frame : LaneFrame} (now : Int)
    (most : (frame.attempts : Int) ≤ max 1 lane.config.maxAttempts) :
    ((lane.resendFrame now frame).1.attempts : Int) ≤ max 1 lane.config.maxAttempts := by
  unfold resendFrame
  split
  · exact most
  · split
    · exact most
    · show ((frame.attempts + 1 : Nat) : Int) ≤ _
      omega

end CarrierLane

/-- A lane with its frames told apart, by how many were wrapped before each. -/
structure LaneRun where
  lane : CarrierLane
  wraps : Nat := 0
  /-- Trace: the frames in flight. -/
  inFlight : List (Nat × LaneFrame) := []
  /-- Trace: the frame of every transmission, in order. -/
  sent : List Nat := []
  /-- Trace: the samples, with the frame each is of. -/
  samples : List (Nat × Int) := []

namespace LaneRun

open Adp (TimedRun)
open Adp.TimedRun (largest)

inductive Event where
  | wrap (inner : Bytes) (now : Int)
  | ack (ack : LaneAckFields) (now : Int)
  | dueResends (now : Int)
  | data (seq : Nat) (inner : Bytes)
  | speaks

def wrap (this : LaneRun) (inner : Bytes) (now : Int) : LaneRun :=
  match this.lane.wrap inner now with
  | (_, none) => this
  | (lane, some _) => { this with
      lane := lane
      wraps := this.wraps + 1
      inFlight := this.inFlight ++
        (lane.outstanding.drop this.inFlight.length).map fun frame => (this.wraps, frame)
      sent := this.sent ++ [this.wraps] }

def onAck (this : LaneRun) (ack : LaneAckFields) (now : Int) : LaneRun :=
  { this with
    lane := this.lane.onAck ack now
    inFlight := (this.inFlight.filter fun held => !ack.covers held.2.seq).map fun held =>
      (held.1, this.lane.noteSkip ack held.2 now)
    samples := this.samples ++ (this.inFlight.filter fun held =>
      ack.covers held.2.seq && decide (held.2.attempts = 1)).map fun held =>
        (held.1, now - held.2.sentMs) }

def dueResends (this : LaneRun) (now : Int) : LaneRun :=
  { this with
    lane := (this.lane.dueResends now).1
    inFlight := this.inFlight.map fun held => (held.1, (this.lane.resendFrame now held.2).1)
    sent := this.sent ++ this.inFlight.flatMap fun held =>
      (this.lane.resendFrame now held.2).2.1.map fun _ => held.1 }

def step (this : LaneRun) : Event → LaneRun
  | .wrap inner now => this.wrap inner now
  | .ack ack now => this.onAck ack now
  | .dueResends now => this.dueResends now
  | .data seq inner => { this with lane := (this.lane.onData seq inner).1 }
  | .speaks => { this with lane := this.lane.notePeerSpeaksLane }

def create (config : CarrierLaneConfig) : LaneRun where
  lane := .create config

/-- What the timers of a lane are held to. -/
structure OnTime (this : LaneRun) : Prop where
  timeout : this.lane.config.minRtoMs ≤ this.lane.rtoMs ∧
    this.lane.rtoMs ≤ this.lane.config.maxRtoMs
  backoff : ∀ attempts, this.lane.config.minRtoMs ≤ this.lane.backoffRto attempts ∧
    this.lane.backoffRto attempts ≤ this.lane.config.maxRtoMs
  grows : ∀ few many, few ≤ many → this.lane.backoffRto few ≤ this.lane.backoffRto many
  attempts : ∀ frame, (this.sent.count frame : Int) ≤ max 1 this.lane.config.maxAttempts
  clean : ∀ sample ∈ this.samples, this.sent.count sample.1 = 1

/-- The code's 64-bit words hold what the timers compute: the sums of `SampleRtt`, for the next
sample too, and the timeout after any number of doublings. -/
structure FitsWords (this : LaneRun) : Prop where
  timeout : this.lane.srttMs + 4 * this.lane.rttvarMs < 2 ^ 63
  smoothing : 7 * this.lane.srttMs + 2 ^ 40 < 2 ^ 63 ∧ 3 * this.lane.rttvarMs + 2 ^ 40 < 2 ^ 63
  backoff : ∀ turns, this.lane.doubled turns < 2 ^ 63

/-- What the trace knows of the frames in flight, and of those that are not. -/
structure Counted (config : CarrierLaneConfig) (this : LaneRun) : Prop where
  same : this.lane.config = config
  bounds : config.minRtoMs ≤ this.lane.rtoMs ∧ this.lane.rtoMs ≤ config.maxRtoMs
  estimates : this.lane.Estimates (largest this.samples)
  held : this.inFlight.map Prod.snd = this.lane.outstanding
  distinct : (this.inFlight.map Prod.fst).Nodup
  known : ∀ frame ∈ this.inFlight, frame.1 < this.wraps
  counted : ∀ frame ∈ this.inFlight, this.sent.count frame.1 = frame.2.attempts
  most : ∀ frame, (this.sent.count frame : Int) ≤ max 1 config.maxAttempts
  unsent : ∀ frame, this.wraps ≤ frame → frame ∉ this.sent
  sampled : ∀ sample ∈ this.samples, this.sent.count sample.1 = 1 ∧ sample.1 < this.wraps ∧
    sample.1 ∉ this.inFlight.map Prod.fst

section Steps

variable {config : CarrierLaneConfig} {this : LaneRun}

/-- A change that is not about frames. -/
theorem Counted.sameFrames {lane : CarrierLane} (counted : this.Counted config)
    (same : lane.config = this.lane.config) (rto : lane.rtoMs = this.lane.rtoMs)
    (estimates : lane.Estimates (largest this.samples))
    (outstanding : lane.outstanding = this.lane.outstanding) :
    Counted config { this with lane := lane } where
  same := same.trans counted.same
  bounds := by
    have bounds := counted.bounds
    rw [← rto] at bounds
    exact bounds
  estimates := estimates
  held := counted.held.trans outstanding.symm
  distinct := counted.distinct
  known := counted.known
  counted := counted.counted
  most := counted.most
  unsent := counted.unsent
  sampled := counted.sampled

theorem Counted.wrap (counted : this.Counted config) (inner : Bytes) (now : Int) :
    (this.wrap inner now).Counted config := by
  unfold LaneRun.wrap CarrierLane.wrap
  by_cases full : this.lane.config.window ≤ this.lane.outstanding.length
  · rw [if_pos full]
    exact counted
  · rw [if_neg full]
    have count : this.inFlight.length = this.lane.outstanding.length := by
      rw [← counted.held, List.length_map]
    dsimp only
    rw [count, List.drop_left]
    have fresh : this.wraps ∉ this.inFlight.map Prod.fst := by
      intro listed
      obtain ⟨frame, member, same⟩ := List.mem_map.mp listed
      have low := counted.known frame member
      omega
    have unsent : this.sent.count this.wraps = 0 :=
      List.count_eq_zero.mpr (counted.unsent this.wraps (Nat.le_refl _))
    have others : ∀ frame, frame ≠ this.wraps →
        (this.sent ++ [this.wraps]).count frame = this.sent.count frame := by
      intro frame apart
      rw [List.count_append, List.count_singleton, if_neg (by simpa using apart.symm), Nat.add_zero]
    have own : (this.sent ++ [this.wraps]).count this.wraps = 1 := by
      rw [List.count_append, unsent, List.count_singleton_self]
    refine ⟨counted.same, counted.bounds, counted.estimates, ?_, ?_, ?_, ?_, ?_, ?_, ?_⟩
    · show (this.inFlight ++ _).map Prod.snd = _
      rw [List.map_append, counted.held]
      rfl
    · show ((this.inFlight ++ _).map Prod.fst).Nodup
      rw [List.map_append]
      apply List.Nodup.append counted.distinct (List.nodup_singleton _)
      exact List.disjoint_singleton.mpr fresh
    · intro frame listed
      show frame.1 < this.wraps + 1
      rcases List.mem_append.mp listed with old | new
      · have low := counted.known frame old
        omega
      · rw [List.mem_singleton.mp new]
        exact Nat.lt_succ_self _
    · intro frame listed
      rcases List.mem_append.mp listed with old | new
      · have low := counted.known frame old
        exact (others frame.1 (Nat.ne_of_lt low)).trans (counted.counted frame old)
      · rw [List.mem_singleton.mp new]
        exact own
    · intro frame
      show ((this.sent ++ [this.wraps]).count frame : Int) ≤ _
      by_cases same : frame = this.wraps
      · rw [same, own]
        exact Int.le_max_left _ _
      · rw [others frame same]
        exact counted.most frame
    · intro frame late sent
      have late : this.wraps + 1 ≤ frame := late
      rcases List.mem_append.mp sent with old | new
      · exact counted.unsent frame (by omega) old
      · rw [List.mem_singleton.mp new] at late
        omega
    · intro sample taken
      obtain ⟨once, low, gone⟩ := counted.sampled sample taken
      refine ⟨(others sample.1 (Nat.ne_of_lt low)).trans once, Nat.lt_succ_of_lt low, ?_⟩
      show sample.1 ∉ (this.inFlight ++ _).map Prod.fst
      rw [List.map_append]
      intro listed
      rcases List.mem_append.mp listed with old | new
      · exact gone old
      · have same : sample.1 = this.wraps := List.mem_singleton.mp new
        omega

theorem Counted.ack (counted : this.Counted config) (ordered : config.minRtoMs ≤ config.maxRtoMs)
    (ack : LaneAckFields) (now : Int) : (this.onAck ack now).Counted config := by
  have settled : (this.onAck ack now).lane = { (CarrierLane.settle ack now this.lane.outstanding
      this.lane).1 with outstanding := (CarrierLane.settle ack now this.lane.outstanding
        this.lane).2 } := rfl
  have sampled := CarrierLane.settle_bounds ordered ack now this.lane.outstanding counted.same
    counted.bounds
  have kept : ∀ frame ∈ (this.onAck ack now).inFlight, ∃ held ∈ this.inFlight,
      ack.covers held.2.seq = false ∧ frame.1 = held.1 ∧ frame.2.attempts = held.2.attempts := by
    intro frame listed
    obtain ⟨held, member, rfl⟩ := List.mem_map.mp listed
    obtain ⟨inside, uncovered⟩ := List.mem_filter.mp member
    rw [Bool.not_eq_true'] at uncovered
    exact ⟨held, inside, uncovered, rfl, this.lane.noteSkip_attempts ack held.2 now⟩
  have fewer : ((this.onAck ack now).inFlight.map Prod.fst).Sublist (this.inFlight.map Prod.fst) := by
    show ((List.map _ (List.filter _ _)).map Prod.fst).Sublist _
    rw [List.map_map]
    exact (List.filter_sublist).map Prod.fst
  refine ⟨?_, ?_, ?_, ?_, counted.distinct.sublist fewer, ?_, ?_, counted.most, counted.unsent, ?_⟩
  · rw [settled]
    exact sampled.1
  · rw [settled]
    exact sampled.2
  · rw [settled]
    have grown : this.lane.Estimates (largest (this.onAck ack now).samples) :=
      counted.estimates.mono (TimedRun.largest_append _ _)
    apply CarrierLane.settle_estimates grown
    intro frame member covered once
    rw [← counted.held] at member
    obtain ⟨held, inside, rfl⟩ := List.mem_map.mp member
    have taken : (held.1, now - held.2.sentMs) ∈ (this.onAck ack now).samples := by
      apply List.mem_append_right
      apply List.mem_map_of_mem (f := fun held : Nat × LaneFrame => (held.1, now - held.2.sentMs))
      apply List.mem_filter.mpr
      simp [inside, covered, once]
    exact TimedRun.le_largest taken
  · rw [settled]
    show _ = (CarrierLane.settle ack now this.lane.outstanding this.lane).2
    rw [CarrierLane.settle_kept, ← counted.held, List.filter_map, List.map_map]
    show (List.map _ (List.filter _ _)).map Prod.snd = _
    rw [List.map_map]
    rfl
  · intro frame listed
    obtain ⟨held, member, _, same, _⟩ := kept frame listed
    rw [same]
    exact counted.known held member
  · intro frame listed
    obtain ⟨held, member, _, same, attempts⟩ := kept frame listed
    rw [same, attempts]
    exact counted.counted held member
  · intro sample taken
    rcases List.mem_append.mp taken with old | new
    · obtain ⟨once, low, gone⟩ := counted.sampled sample old
      exact ⟨once, low, fun listed => gone (fewer.mem listed)⟩
    · obtain ⟨held, member, rfl⟩ := List.mem_map.mp new
      obtain ⟨inside, sampledOnce⟩ := List.mem_filter.mp member
      simp only [Bool.and_eq_true, decide_eq_true_eq] at sampledOnce
      refine ⟨(counted.counted held inside).trans sampledOnce.2, counted.known held inside, ?_⟩
      intro listed
      obtain ⟨frame, still, same⟩ := List.mem_map.mp listed
      obtain ⟨other, there, uncovered, number, _⟩ := kept frame still
      have own : other = held :=
        List.inj_on_of_nodup_map counted.distinct there inside (number.symm.trans same)
      rw [own, sampledOnce.1] at uncovered
      cases uncovered

/-- In one call of `DueResends` a frame in flight goes out as often as its own turn says. -/
theorem count_resends (turn : LaneFrame → List Bytes) {frames : List (Nat × LaneFrame)}
    (distinct : (frames.map Prod.fst).Nodup) :
    (∀ frame ∈ frames, (frames.flatMap fun held => (turn held.2).map fun _ => held.1).count frame.1 =
      (turn frame.2).length) ∧
    ∀ number, number ∉ frames.map Prod.fst →
      (frames.flatMap fun held => (turn held.2).map fun _ => held.1).count number = 0 := by
  have own : ∀ (held : Nat × LaneFrame) (number : Nat), ((turn held.2).map fun _ => held.1).count number =
      if number = held.1 then (turn held.2).length else 0 := by
    intro held number
    rw [List.map_const']
    by_cases same : number = held.1
    · rw [if_pos same, same, List.count_replicate_self]
    · rw [if_neg same, List.count_replicate, if_neg (by simpa using fun other => same other.symm)]
  induction frames with
  | nil => exact ⟨fun _ none => absurd none List.not_mem_nil, fun _ _ => rfl⟩
  | cons first rest ih =>
      rw [List.map_cons, List.nodup_cons] at distinct
      obtain ⟨counted, none⟩ := ih distinct.2
      constructor
      · intro frame listed
        rw [List.flatMap_cons, List.count_append, own]
        rcases List.mem_cons.mp listed with rfl | later
        · rw [if_pos rfl, none frame.1 distinct.1, Nat.add_zero]
        · have apart : frame.1 ≠ first.1 := by
            intro same
            exact distinct.1 (same ▸ List.mem_map_of_mem later)
          rw [if_neg apart, counted frame later, Nat.zero_add]
      · intro number absent
        rw [List.map_cons, List.mem_cons, not_or] at absent
        rw [List.flatMap_cons, List.count_append, own, if_neg absent.1, none number absent.2]

theorem Counted.dueResends (counted : this.Counted config) (now : Int) :
    (this.dueResends now).Counted config := by
  obtain ⟨resent, others⟩ := count_resends (fun frame => (this.lane.resendFrame now frame).2.1)
    counted.distinct
  have total : ∀ number, (this.dueResends now).sent.count number = this.sent.count number +
      (this.inFlight.flatMap fun held =>
        (this.lane.resendFrame now held.2).2.1.map fun _ => held.1).count number :=
    fun number => List.count_append
  have numbers : (this.dueResends now).inFlight.map Prod.fst = this.inFlight.map Prod.fst := by
    show (List.map _ _).map Prod.fst = _
    rw [List.map_map]
    rfl
  have grown : ∀ held ∈ this.inFlight, (this.dueResends now).sent.count held.1 =
      (this.lane.resendFrame now held.2).1.attempts := by
    intro held member
    rw [total, resent held member, counted.counted held member]
    exact (this.lane.resendFrame_attempts now held.2).symm
  have quiet : ∀ number, number ∉ this.inFlight.map Prod.fst →
      (this.dueResends now).sent.count number = this.sent.count number := by
    intro number absent
    rw [total, others number absent, Nat.add_zero]
  refine ⟨counted.same, counted.bounds, counted.estimates, ?_, ?_, ?_, ?_, ?_, ?_, ?_⟩
  · show (List.map _ _).map Prod.snd = (this.lane.outstanding.map _).map Prod.fst
    rw [← counted.held, List.map_map, List.map_map, List.map_map]
    rfl
  · rw [numbers]
    exact counted.distinct
  · intro frame listed
    obtain ⟨held, member, rfl⟩ := List.mem_map.mp listed
    exact counted.known held member
  · intro frame listed
    obtain ⟨held, member, rfl⟩ := List.mem_map.mp listed
    exact grown held member
  · intro number
    by_cases flying : number ∈ this.inFlight.map Prod.fst
    · obtain ⟨held, member, rfl⟩ := List.mem_map.mp flying
      rw [grown held member]
      have most := counted.most held.1
      rw [counted.counted held member, ← counted.same] at most
      have kept := CarrierLane.resendFrame_most now most
      rw [counted.same] at kept
      exact kept
    · rw [quiet number flying]
      exact counted.most number
  · intro number late
    apply List.count_eq_zero.mp
    have absent : number ∉ this.inFlight.map Prod.fst := by
      intro listed
      obtain ⟨held, member, same⟩ := List.mem_map.mp listed
      have low := counted.known held member
      have late : this.wraps ≤ number := late
      omega
    rw [quiet number absent]
    exact List.count_eq_zero.mpr (counted.unsent number late)
  · intro sample taken
    obtain ⟨once, low, gone⟩ := counted.sampled sample taken
    refine ⟨(quiet sample.1 gone).trans once, low, ?_⟩
    rw [numbers]
    exact gone

theorem step_counted (ordered : config.minRtoMs ≤ config.maxRtoMs) (counted : this.Counted config)
    (event : Event) : (this.step event).Counted config := by
  cases event with
  | wrap inner now => exact counted.wrap inner now
  | ack ack now => exact counted.ack ordered ack now
  | dueResends now => exact counted.dueResends now
  | data seq inner => exact counted.sameFrames rfl rfl counted.estimates rfl
  | speaks => exact counted.sameFrames rfl rfl counted.estimates rfl

theorem create_counted (bounds : config.minRtoMs ≤ config.initialRtoMs ∧
    config.initialRtoMs ≤ config.maxRtoMs) : (create config).Counted config where
  same := rfl
  bounds := bounds
  estimates := by
    show ((0 : Int) ≤ 0 ∧ (0 : Int) ≤ max 1 0) ∧ (0 : Int) ≤ 0 ∧ (0 : Int) ≤ max 1 0
    decide
  held := rfl
  distinct := List.nodup_nil
  known _ none := absurd none List.not_mem_nil
  counted _ none := absurd none List.not_mem_nil
  most _ := Int.le_trans (Int.zero_le_ofNat 1) (Int.le_max_left 1 _)
  unsent _ _ := List.not_mem_nil
  sampled _ none := absurd none List.not_mem_nil

theorem Counted.onTime (counted : this.Counted config) (positive : 0 < config.minRtoMs) :
    this.OnTime := by
  have bounds := counted.bounds
  have most := counted.most
  rw [← counted.same] at positive bounds most
  exact {
    timeout := bounds
    backoff := CarrierLane.backoffRto_bounds positive bounds
    grows := fun few many more => CarrierLane.backoffRto_mono (by omega) more
    attempts := most
    clean := fun sample taken => (counted.sampled sample taken).1 }

theorem Counted.fitsWords (counted : this.Counted config)
    (configured : 0 < config.minRtoMs ∧ config.maxRtoMs < 2 ^ 40)
    (sampled : largest this.samples < 2 ^ 40) : this.FitsWords := by
  have words : (2 : Int) ^ 40 = 1099511627776 ∧ (2 : Int) ^ 63 = 9223372036854775808 := by decide
  have bounds := counted.bounds
  obtain ⟨srtt, rttvar⟩ := counted.estimates
  have doubled := CarrierLane.doubled_lt
    (show 0 < this.lane.rtoMs ∧ this.lane.rtoMs ≤ this.lane.config.maxRtoMs by
      rw [counted.same]
      omega)
  rw [counted.same] at doubled
  rw [words.1] at configured sampled
  constructor
  · rw [words.2]
    omega
  · rw [words.1, words.2]
    omega
  · intro turns
    have less := doubled turns
    rw [words.2]
    omega

/-- Whatever is acked and lost, the timers of a lane stay on time, and within the words of the code
while the samples are. -/
theorem always_onTime (configured : 0 < config.minRtoMs ∧ config.maxRtoMs < 2 ^ 40)
    (bounds : config.minRtoMs ≤ config.initialRtoMs ∧ config.initialRtoMs ≤ config.maxRtoMs)
    (events : List Event) :
    Run.Always step (fun this => this.OnTime ∧ (largest this.samples < 2 ^ 40 → this.FitsWords))
      (create config) events := by
  apply Run.always_of_invariant step (fun _ _ => True) (Counted config)
  · exact fun this event _ counted => step_counted (Int.le_trans bounds.1 bounds.2) counted event
  · exact fun this counted => ⟨counted.onTime configured.1, counted.fitsWords configured⟩
  · exact Run.meets_of_forall step _ (fun _ _ => trivial) events _
  · exact create_counted bounds

end Steps

end LaneRun

/-- The timers of connections and of lanes, in all their runs, and the words that hold them. -/
structure TimersBounded (π : Type) [Adp.PacketProtection π] [Adp.Hmac] : Prop where
  connection : ∀ (endpoint : Adp.EndpointPort) (params : Adp.OpenParams),
    0 < params.rtxIntervalMs ∧ params.rtxIntervalMs < 2 ^ 40 →
    ∀ events : List (Adp.Connection.Event π), Run.Always Adp.TimedRun.step
      (fun run => run.OnTime ∧ (Adp.TimedRun.largest run.samples < 2 ^ 40 → run.FitsWords))
      (Adp.TimedRun.opened endpoint params) events
  lane : ∀ config : CarrierLaneConfig, 0 < config.minRtoMs ∧ config.maxRtoMs < 2 ^ 40 →
    config.minRtoMs ≤ config.initialRtoMs ∧ config.initialRtoMs ≤ config.maxRtoMs →
    ∀ events : List LaneRun.Event, Run.Always LaneRun.step
      (fun run => run.OnTime ∧ (Adp.TimedRun.largest run.samples < 2 ^ 40 → run.FitsWords))
      (LaneRun.create config) events

theorem timers_bounded (π : Type) [Adp.PacketProtection π] [Adp.Hmac] : TimersBounded π where
  connection endpoint _ configured events := Adp.TimedRun.always_onTime endpoint configured events
  lane _ configured bounds events := LaneRun.always_onTime configured bounds events

theorem timers_bounded_tagged : TimersBounded Adp.TagProtection := timers_bounded Adp.TagProtection

/-- A frame goes out once even where no transmission is allowed. -/
theorem sent_past_no_attempts :
    ¬∀ frame, (((LaneRun.create { maxAttempts := 0 }).step (.wrap [] 0)).sent.count frame : Int) ≤ 0 := by
  intro none
  have first := none 0
  revert first
  decide +kernel

end Amp
