import Amp.L1.Moves

set_option autoImplicit false

/- The timers of a connection: what each call can do to its round trip estimate and to its
backoff, and the bounds of the intervals they make. -/
namespace Amp.Adp

/-- What a connection's resends are timed by, and the part of its parameters that stays. -/
structure Timing where
  srttMs : Int
  rttvarMs : Int
  rtoBackoff : Nat
  rtxIntervalMs : Int
  reliableWindow : Nat

/-- One of `turns` equal steps of a value towards another, rounded towards it. -/
theorem toward_bounds (value goal turns low high : Int) (positive : 1 ≤ turns)
    (least : low ≤ value ∧ low ≤ goal) (most : value ≤ high ∧ goal ≤ high) :
    low ≤ value + (goal - value).tdiv turns ∧ value + (goal - value).tdiv turns ≤ high := by
  rcases Int.le_total value goal with up | down
  · have ahead : 0 ≤ goal - value := by omega
    have rises := Int.tdiv_nonneg ahead (by omega : 0 ≤ turns)
    have most := Int.tdiv_le_self turns ahead
    omega
  · have behind : 0 ≤ value - goal := by omega
    have falls := Int.tdiv_nonneg behind (by omega : 0 ≤ turns)
    have least := Int.tdiv_le_self turns behind
    have turned : (goal - value).tdiv turns = -(value - goal).tdiv turns := by
      rw [← Int.neg_tdiv, Int.neg_sub]
    omega

/-- `std::clamp`. -/
theorem clamp_bounds (value : Int) {low high : Int} (ordered : low ≤ high) :
    low ≤ (if value < low then low else if high < value then high else value) ∧
      (if value < low then low else if high < value then high else value) ≤ high := by
  split
  · exact ⟨Int.le_refl _, ordered⟩
  · split
    · exact ⟨ordered, Int.le_refl _⟩
    · omega

namespace Timing

/-- `NoteRttSample`. -/
def noteSample (t : Timing) (rttMs : Int) : Timing :=
  let sample := if rttMs < 0 then 0 else rttMs
  if t.srttMs < 0 then { t with rtoBackoff := 0, srttMs := sample, rttvarMs := sample / 2 }
  else
    let error := if t.srttMs < sample then sample - t.srttMs else t.srttMs - sample
    { t with
      rtoBackoff := 0
      rttvarMs := t.rttvarMs + (error - t.rttvarMs).tdiv 4
      srttMs := t.srttMs + (sample - t.srttMs).tdiv 8 }

def note (t : Timing) (sample : Option (Nat × Int)) : Timing :=
  match sample with
  | none => t
  | some (_, rttMs) => t.noteSample rttMs

/-- No sample yet, or both estimates within what was sampled. -/
def Estimates (t : Timing) (largest : Int) : Prop :=
  (t.srttMs = -1 ∧ t.rttvarMs = -1) ∨
    ((0 ≤ t.srttMs ∧ t.srttMs ≤ largest) ∧ 0 ≤ t.rttvarMs ∧ t.rttvarMs ≤ largest)

theorem Estimates.mono {t : Timing} {less more : Int} (estimates : t.Estimates less)
    (grows : less ≤ more) : t.Estimates more := by
  rcases estimates with unsampled | ⟨srtt, rttvar⟩
  · exact .inl unsampled
  · exact .inr ⟨⟨srtt.1, Int.le_trans srtt.2 grows⟩, rttvar.1, Int.le_trans rttvar.2 grows⟩

theorem noteSample_estimates {t : Timing} {largest rttMs : Int} (estimates : t.Estimates largest)
    (positive : 0 ≤ largest) (below : rttMs ≤ largest) :
    (t.noteSample rttMs).Estimates largest ∧ 0 ≤ (t.noteSample rttMs).srttMs := by
  have sampled : ∃ sample, sample = (if rttMs < 0 then 0 else rttMs) ∧ 0 ≤ sample ∧
      sample ≤ largest := by
    refine ⟨_, rfl, ?_⟩
    split
    · exact ⟨Int.le_refl 0, positive⟩
    · omega
  obtain ⟨sample, same, least, most⟩ := sampled
  unfold noteSample
  rw [← same]
  dsimp only
  rcases estimates with ⟨unsampled, _⟩ | ⟨srtt, rttvar⟩
  · rw [unsampled, if_pos (by decide)]
    have half : 0 ≤ sample / 2 ∧ sample / 2 ≤ largest := by omega
    exact ⟨.inr ⟨⟨least, most⟩, half⟩, least⟩
  · rw [if_neg (by omega)]
    have off : ∃ error, error = (if t.srttMs < sample then sample - t.srttMs else t.srttMs - sample) ∧
        0 ≤ error ∧ error ≤ largest := by
      refine ⟨_, rfl, ?_⟩
      split
      · omega
      · omega
    obtain ⟨error, same, small, large⟩ := off
    rw [← same]
    have smoothed := toward_bounds t.srttMs sample 8 0 largest (by decide) ⟨srtt.1, least⟩ ⟨srtt.2, most⟩
    have varied := toward_bounds t.rttvarMs error 4 0 largest (by decide) ⟨rttvar.1, small⟩
      ⟨rttvar.2, large⟩
    exact ⟨.inr ⟨smoothed, varied⟩, smoothed.1⟩

end Timing

namespace Connection

variable {π : Type}

def timing (c : Connection π) : Timing where
  srttMs := c.stats.srttMs
  rttvarMs := c.stats.rttvarMs
  rtoBackoff := c.rtoBackoff
  rtxIntervalMs := c.params.rtxIntervalMs
  reliableWindow := c.params.reliableWindow

/-- The bound of every timeout. -/
def longestRtoMs (c : Connection π) : Int := max kMaxRtoMs c.params.rtxIntervalMs

theorem rtoMs_bounds (c : Connection π) :
    c.params.rtxIntervalMs ≤ c.rtoMs ∧ c.rtoMs ≤ c.longestRtoMs := by
  have least : c.params.rtxIntervalMs ≤ c.longestRtoMs := Int.le_max_right _ _
  unfold rtoMs
  split
  · exact ⟨Int.le_refl _, least⟩
  · exact clamp_bounds _ least

theorem retransmitIntervalMs_authenticated {c : Connection π} (authenticated : c.authenticated = true)
    (doublings : Nat) :
    c.retransmitIntervalMs doublings = min (c.rtoMs * 2 ^ min doublings 8) c.longestRtoMs := by
  unfold retransmitIntervalMs
  rw [if_pos authenticated]
  rfl

theorem pow_le_pow {small large : Nat} (less : small ≤ large) :
    (2 : Int) ^ small ≤ 2 ^ large := by
  have grows := Nat.pow_le_pow_right (by decide : 0 < 2) less
  exact_mod_cast grows

theorem retransmitIntervalMs_bounds {c : Connection π} (authenticated : c.authenticated = true)
    (positive : 0 < c.params.rtxIntervalMs) (doublings : Nat) :
    c.params.rtxIntervalMs ≤ c.retransmitIntervalMs doublings ∧
      c.retransmitIntervalMs doublings ≤ c.longestRtoMs := by
  have bounds := rtoMs_bounds c
  have doubled : c.rtoMs * 2 ^ 0 ≤ c.rtoMs * 2 ^ min doublings 8 := by
    apply Int.mul_le_mul_of_nonneg_left (pow_le_pow (Nat.zero_le _))
    omega
  rw [retransmitIntervalMs_authenticated authenticated]
  rw [Int.pow_zero, Int.mul_one] at doubled
  have least : c.params.rtxIntervalMs ≤ c.longestRtoMs := Int.le_max_right _ _
  omega

theorem retransmitIntervalMs_mono {c : Connection π} (authenticated : c.authenticated = true)
    (positive : 0 < c.params.rtxIntervalMs) {few many : Nat} (more : few ≤ many) :
    c.retransmitIntervalMs few ≤ c.retransmitIntervalMs many := by
  have bounds := rtoMs_bounds c
  have doubled : c.rtoMs * 2 ^ min few 8 ≤ c.rtoMs * 2 ^ min many 8 := by
    apply Int.mul_le_mul_of_nonneg_left
    · apply pow_le_pow
      omega
    · omega
  rw [retransmitIntervalMs_authenticated authenticated, retransmitIntervalMs_authenticated authenticated]
  omega

section Frames

theorem OnlySends.timing {c after : Connection π} (only : OnlySends c after) :
    after.timing = c.timing := by
  obtain ⟨_, _, _, rfl⟩ := only
  rfl

theorem OnlyNotes.timing {c after : Connection π} (only : OnlyNotes c after) :
    after.timing = c.timing := by
  obtain ⟨_, _, _, rfl⟩ := only
  rfl

theorem OnlyStamps.timing {c after : Connection π} (only : OnlyStamps c after) :
    after.timing = c.timing := by
  obtain ⟨_, _, rfl⟩ := only
  rfl

theorem OnlyHands.timing {c after : Connection π} (only : OnlyHands c after) :
    after.timing = c.timing := by
  obtain ⟨_, _, _, rfl⟩ := only
  rfl

theorem OnlyAdmits.timing {c after : Connection π} (only : OnlyAdmits c after) :
    after.timing = c.timing := by
  obtain ⟨_, _, _, rfl⟩ := only
  rfl

theorem setPeerEndpoint_timing (c : Connection π) (peer : IpEndpoint) :
    (c.setPeerEndpoint peer).timing = c.timing :=
  (setPeerEndpoint_only c peer).timing

theorem noteTimestamp_timing (c : Connection π) (pkt : WirePacket) :
    (c.noteTimestamp pkt).timing = c.timing :=
  (noteTimestamp_only c pkt).timing

theorem noteFresh_timing (c : Connection π) (fresh : Bool) (source : IpEndpoint) (now : Int) :
    (c.noteFresh fresh source now).timing = c.timing :=
  (noteFresh_only c fresh source now).timing

theorem admitPacket_timing (c : Connection π) (pkt : WirePacket) :
    (c.admitPacket pkt).1.timing = c.timing :=
  (admitPacket_only c pkt).timing

theorem keepReliable_timing (c : Connection π) (pkt : WirePacket) (freshData : Bool) :
    (c.keepReliable pkt freshData).timing = c.timing :=
  (keepReliable_only c pkt freshData).timing

theorem noteRttSample_timing (c : Connection π) (rttMs : Int) :
    (c.noteRttSample rttMs).timing = c.timing.noteSample rttMs := by
  have same : c.timing.srttMs = c.stats.srttMs := rfl
  unfold noteRttSample Timing.noteSample
  dsimp only
  rw [same]
  by_cases unsampled : c.stats.srttMs < 0
  · rw [if_pos unsampled, if_pos unsampled]
    rfl
  · rw [if_neg unsampled, if_neg unsampled]
    rfl

variable [PacketProtection π] [Hmac]

theorem sendPacket_timing (c : Connection π) (type : PacketType) (seq : Nat) (payload : Bytes)
    (now : Int) (key : Option PeerKey) :
    (c.sendPacket type seq payload now key).1.timing = c.timing :=
  (sendPacket_only ..).timing

theorem sendKeepalivePacket_timing (c : Connection π) (now : Int) (intervalMs flags : Nat) :
    (c.sendKeepalivePacket now intervalMs flags).1.timing = c.timing :=
  (sendKeepalivePacket_only ..).timing

omit [PacketProtection π] [Hmac] in
theorem notePeerKeepalive_timing (c : Connection π) (announced : Nat) :
    (c.notePeerKeepalive announced).timing = c.timing := rfl

theorem handleKeepalive_timing (c : Connection π) (pkt : WirePacket) (now : Int) :
    (c.handleKeepalive pkt now).timing = c.timing := by
  unfold handleKeepalive
  split
  · dsimp only
    split
    · rw [sendKeepalivePacket_timing, notePeerKeepalive_timing]
    · rw [notePeerKeepalive_timing]
  · rfl

theorem refusePlainAfterKeys_timing (c : Connection π) (pkt : WirePacket) :
    (c.refusePlainAfterKeys pkt).1.timing = c.timing :=
  (refusePlainAfterKeys_only c pkt).timing

theorem handlePreUpgradeKeyPacket_timing (c : Connection π) (pkt : WirePacket) (now : Int) :
    (c.handlePreUpgradeKeyPacket pkt now).timing = c.timing := by
  unfold handlePreUpgradeKeyPacket
  split
  · rfl
  · split
    · rfl
    · split
      · exact sendPacket_timing ..
      · rfl
    · rfl

theorem handleReliable_timing (c : Connection π) (pkt : WirePacket) (admission : Admission)
    (now : Int) : (c.handleReliable pkt admission now).timing = c.timing :=
  (keepReliable_timing ..).trans (sendAck_only ..).timing

/-- What an ack samples: how long a packet that was never resent has been under way. -/
def roundTrip (c : Connection π) (pkt : WirePacket) (now : Int) : Option (Nat × Int) :=
  (c.outstanding.find? fun o => o.seq == pkt.seq && o.attempts == 0).map fun o =>
    (o.seq, now - o.firstSentMs)

/-- The sample `HandleAuthenticated` takes of a packet, if it is an ack that comes in time. -/
def sampleOf (c : Connection π) (pkt : WirePacket) (now : Int) : Option (Nat × Int) :=
  if pkt.type = .ack ∧ c.timely pkt now = true then c.roundTrip pkt now else none

omit [PacketProtection π] [Hmac] in
theorem handleAck_timing (c : Connection π) (pkt : WirePacket) (now : Int) :
    (c.handleAck pkt now).timing = c.timing.note (c.roundTrip pkt now) := by
  unfold handleAck roundTrip
  cases c.outstanding.find? fun o => o.seq == pkt.seq && o.attempts == 0 with
  | none => rfl
  | some o => exact noteRttSample_timing c (now - o.firstSentMs)

/-- Only an ack changes what the resends are timed by. -/
theorem dispatch_timing (c : Connection π) (pkt : WirePacket) (admission : Admission) (now : Int) :
    (c.dispatch pkt admission now).timing =
      c.timing.note (if pkt.type = .ack then c.roundTrip pkt now else none) := by
  unfold dispatch
  cases form : pkt.type with
  | ack => exact handleAck_timing c pkt now
  | close =>
      show c.handleClose.timing = c.timing
      unfold handleClose
      split <;> rfl
  | keepalive =>
      show (if !c.authenticated then c else c.handleKeepalive pkt now).timing = c.timing
      split
      · rfl
      · exact handleKeepalive_timing c pkt now
  | dataBestEffort | plainBestEffort =>
      show (c.deliverBestEffort pkt admission.freshData).timing = c.timing
      unfold deliverBestEffort
      split <;> rfl
  | dataReliable | plainReliable => exact handleReliable_timing c pkt admission now

theorem handleAdmitted_timing (c : Connection π) (pkt : WirePacket) (source : IpEndpoint) (now : Int) :
    (c.handleAdmitted pkt source now).timing =
      c.timing.note (if pkt.type = .ack then c.roundTrip pkt now else none) := by
  unfold handleAdmitted
  dsimp only
  rw [dispatch_timing, noteFresh_timing, noteTimestamp_timing, admitPacket_timing]
  by_cases form : pkt.type = .ack
  · have tracked : ((((c.admitPacket pkt).1.noteTimestamp pkt).noteFresh (c.admitPacket pkt).2.fresh
        source now)).outstanding = c.outstanding := by
      have same := congrArg Book.outstanding (noteFresh_book ((c.admitPacket pkt).1.noteTimestamp pkt)
        (c.admitPacket pkt).2.fresh source now)
      rw [noteTimestamp_book] at same
      have admitted : (c.admitPacket pkt).1.outstanding = c.outstanding := by
        unfold admitPacket
        rw [form]
      exact same.trans admitted
    unfold roundTrip
    rw [tracked]
  · rw [if_neg form, if_neg form]

theorem handleAuthenticated_timing (c : Connection π) (pkt : WirePacket) (source : IpEndpoint)
    (now : Int) : (c.handleAuthenticated pkt source now).timing = c.timing.note (c.sampleOf pkt now) := by
  unfold handleAuthenticated sampleOf
  by_cases late : (!pkt.type.isSealed && !c.acceptSkew pkt.timestampMs now) = true
  · rw [if_pos late]
    have untimely : ¬(pkt.type = .ack ∧ c.timely pkt now = true) := by
      rintro ⟨_, inTime⟩
      unfold timely at inTime
      revert late inTime
      cases pkt.type.isSealed <;> cases c.acceptSkew pkt.timestampMs now <;> simp
    rw [if_neg untimely]
    rfl
  · rw [if_neg late]
    have inTime : c.timely pkt now = true := by
      unfold timely
      revert late
      cases pkt.type.isSealed <;> cases c.acceptSkew pkt.timestampMs now <;> simp
    rw [inTime]
    simp only [and_true]
    have refused := refusePlainAfterKeys_timing c pkt
    rcases refusePlainAfterKeys_cases c pkt with ⟨after, same, _⟩ | ⟨same, _⟩
    · have other : pkt.type ≠ .ack := by
        intro form
        unfold refusePlainAfterKeys at same
        rw [form] at same
        split at same <;> cases same
      rw [same] at refused ⊢
      rw [if_neg other]
      exact refused
    · rw [same]
      exact handleAdmitted_timing c pkt source now

end Frames

section Steps

variable [PacketProtection π] [Hmac]

/-- The sample a call takes. -/
def sampled (c : Connection π) : Event π → Option (Nat × Int)
  | .datagram _ bytes now => (c.received bytes now).bind fun pkt => c.sampleOf pkt now
  | _ => none

theorem resend_timing (c : Connection π) (o : Outstanding) (now : Int) :
    ∃ backoff ≤ max c.rtoBackoff 8,
      (c.resend o now).1.timing = { c.timing with rtoBackoff := backoff } := by
  unfold resend
  split
  · exact ⟨c.rtoBackoff, Nat.le_max_left _ _, rfl⟩
  · split
    · exact ⟨c.rtoBackoff, Nat.le_max_left _ _, rfl⟩
    · refine ⟨_, ?_, sendPacket_timing ..⟩
      show (if c.authenticated then max c.rtoBackoff (min _ 8) else c.rtoBackoff) ≤ _
      split
      · omega
      · omega

theorem resendAll_timing (now : Int) (packets : List Outstanding) : ∀ c : Connection π,
    ∃ backoff ≤ max c.rtoBackoff 8,
      (resendAll now packets c).1.timing = { c.timing with rtoBackoff := backoff } := by
  induction packets with
  | nil => exact fun c => ⟨c.rtoBackoff, Nat.le_max_left _ _, rfl⟩
  | cons o rest ih =>
      intro c
      obtain ⟨first, small, head⟩ := resend_timing c o now
      obtain ⟨last, most, tail⟩ := ih (c.resend o now).1
      have raised : (c.resend o now).1.rtoBackoff = first := congrArg Timing.rtoBackoff head
      refine ⟨last, by omega, ?_⟩
      show (resendAll now rest (c.resend o now).1).1.timing = _
      rw [tail, head]

theorem tick_timing (c : Connection π) (now : Int) :
    ∃ backoff ≤ max c.rtoBackoff 8, (c.tick now).timing = { c.timing with rtoBackoff := backoff } := by
  unfold tick
  split
  · exact ⟨c.rtoBackoff, Nat.le_max_left _ _, rfl⟩
  · exact resendAll_timing now c.outstanding c

theorem send_timing (c : Connection π) (qos : QosClass) (payload : Bytes) :
    (c.send qos payload).1.timing = c.timing := by
  rcases send_cases c qos payload with same | ⟨_, rfl, _, type, _, same⟩ | ⟨rfl, takes⟩
  · rw [same]
  · rw [same, sendPacket_timing]
    rfl
  · obtain ⟨type, _, same⟩ := send_takes takes
    rw [same, sendPacket_timing]
    rfl

theorem handleDatagram_timing (c : Connection π) (source : IpEndpoint) (bytes : Bytes) (now : Int) :
    (c.handleDatagram source bytes now).timing =
      c.timing.note ((c.received bytes now).bind fun pkt => c.sampleOf pkt now) := by
  rw [handleDatagram_eq]
  cases c.received bytes now with
  | some pkt => exact handleAuthenticated_timing c pkt source now
  | none =>
      cases c.receivedPreUpgrade bytes with
      | some pkt => exact handlePreUpgradeKeyPacket_timing c pkt now
      | none => rfl

/-- A call takes a sample, or raises the backoff, or leaves the timers. -/
theorem step_timing (c : Connection π) (event : Event π) :
    ∃ backoff ≤ max c.rtoBackoff 8, (c.step event).timing =
      { c.timing.note (c.sampled event) with rtoBackoff := backoff } := by
  have kept : (c.step event).timing = c.timing.note (c.sampled event) →
      ∃ backoff ≤ max c.rtoBackoff 8, (c.step event).timing =
        { c.timing.note (c.sampled event) with rtoBackoff := backoff } := by
    intro same
    refine ⟨(c.timing.note (c.sampled event)).rtoBackoff, ?_, same⟩
    cases c.sampled event with
    | none => exact Nat.le_max_left _ _
    | some sample =>
        unfold Timing.note Timing.noteSample
        dsimp only
        split
        · exact Nat.zero_le _
        · exact Nat.zero_le _
  cases event with
  | tick now => exact tick_timing c now
  | send qos payload => exact kept (send_timing c qos payload)
  | datagram source bytes now => exact kept (handleDatagram_timing c source bytes now)
  | versionNegotiation versions =>
      apply kept
      show (c.handleVersionNegotiation versions).timing = c.timing
      unfold handleVersionNegotiation
      split <;> rfl
  | setPeerEndpoint peer => exact kept (setPeerEndpoint_timing c peer)
  | sendKeepalive now intervalMs => exact kept (sendKeepalivePacket_timing ..)
  | stopKeepalive now =>
      apply kept
      show (c.stopKeepalive now).1.timing = c.timing
      unfold stopKeepalive
      split
      · rfl
      · exact sendKeepalivePacket_timing ..
  | sendProbe now => exact kept (sendKeepalivePacket_timing ..)
  | close =>
      apply kept
      show c.close.timing = c.timing
      unfold close
      split
      · rfl
      · exact sendPacket_timing ..
  | abandon =>
      apply kept
      show c.abandon.timing = c.timing
      unfold abandon
      split <;> rfl
  | upgradeBinder key => exact kept rfl
  | setProtection protection => exact kept rfl
  | onMessage installed => exact kept rfl
  | onPathChange installed => exact kept rfl
  | environment port => exact kept rfl

end Steps

end Connection

end Amp.Adp
