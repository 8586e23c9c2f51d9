import Amp.L1.SequenceGap
import Amp.L2.Sample
import Amp.L2.Session
import Amp.Link.Config

set_option autoImplicit false

/- The send window against the receiver's. The sender counts unacknowledged
packets, the receiver measures from the first one it misses; the two agree only
in runs whose sends keep the span within the window. -/
namespace Amp.Adp

open Duplex (Ends)

namespace Connection

variable {π : Type}

/-- No packet in flight is too far for the receiver. -/
def InReach (sender receiver : Connection π) : Prop :=
  ∀ o ∈ sender.outstanding, receiver.rxRel.classify o.seq ≠ .tooFar

/-- The condition on one call: a reliable send that takes number `n` finds every
number a window below it already accepted. -/
def SendsInSpan (c peer : Connection π) (event : Event π) : Prop :=
  ∀ payload, event = .send .reliable payload → c.TakesNumber payload →
    ∀ seq, 0 < seq → seq + peer.rxRel.windowSize ≤ c.txSeqRel + 1 → peer.rxRel.Accepted seq

/-- What every run keeps: the window's size, nothing next in line pending, and
only numbers of the sender's accepted. -/
structure Windowed (size : Nat) (sender receiver : Connection π) : Prop where
  size : receiver.rxRel.windowSize = size
  tight : receiver.rxRel.Tight
  known : ∀ seq, receiver.rxRel.Accepted seq → seq ≤ sender.txSeqRel

def Spans (sender receiver : Connection π) : Prop :=
  ∀ o ∈ sender.outstanding, o.seq ≤ receiver.rxRel.lastContiguous + receiver.rxRel.windowSize

theorem Windowed.edge [PacketProtection π] [Hmac] {size : Nat} {sender receiver : Connection π}
    (windowed : Windowed size sender receiver) (sound : sender.ledger.Sound True)
    (noWrap : size + 2 ^ 32 ≤ 2 ^ 64) :
    receiver.rxRel.edge = receiver.rxRel.lastContiguous + receiver.rxRel.windowSize := by
  have low : receiver.rxRel.lastContiguous ≤ sender.txSeqRel :=
    windowed.known _ (Or.inl (Nat.le_refl _))
  have limit : sender.txSeqRel ≤ kSeqMax := sound.limit
  have bound : kSeqMax < 2 ^ 32 := by decide
  have same := windowed.size
  rw [ReplayWindow.edge, Nat.mod_eq_of_lt (by omega)]

theorem Spans.inReach [PacketProtection π] [Hmac] {size : Nat} {sender receiver : Connection π}
    (spans : Spans sender receiver) (windowed : Windowed size sender receiver)
    (sound : sender.ledger.Sound True) (noWrap : size + 2 ^ 32 ≤ 2 ^ 64) :
    InReach sender receiver := by
  intro o member far
  have near := spans o member
  have edge := windowed.edge sound noWrap
  simp only [ReplayWindow.classify] at far
  split_ifs at far with _ beyond
  omega

variable [PacketProtection π] [Hmac]

theorem step_txSeqRel_le {c : Connection π} (sound : c.ledger.Sound True) (event : Event π) :
    c.txSeqRel ≤ (c.step event).txSeqRel := by
  have before : c.txSeqRel = c.taken.length := sound.count
  have after : (c.step event).txSeqRel = (c.step event).taken.length :=
    (step_sound sound event (Or.inl trivial)).count
  rw [before, after]
  exact (step_taken sound event).length_le

theorem step_windowed_sending {size : Nat} {c peer : Connection π} (sound : c.ledger.Sound True)
    (event : Event π) (windowed : Windowed size c peer) : Windowed size (c.step event) peer :=
  ⟨windowed.size, windowed.tight, fun seq accepted =>
    Nat.le_trans (windowed.known seq accepted) (step_txSeqRel_le sound event)⟩

theorem step_windowed_receiving [LawfulProtection π] {size : Nat} {c peer : Connection π}
    (sound : c.ledger.Sound True) (peerSound : peer.ledger.Sound True) {event : Event π}
    (honest : Duplex.Honest (wire π) peer event) (windowed : Windowed size peer c) :
    Windowed size peer (c.step event) := by
  rcases step_window sound event with same | ⟨source, bytes, now, pkt, rfl, got, takes, same⟩
  · exact ⟨same ▸ windowed.size, same ▸ windowed.tight, same ▸ windowed.known⟩
  · refine ⟨?_, ?_, ?_⟩
    · rw [same, ReplayWindow.accept_windowSize]
      exact windowed.size
    · rw [same]
      exact windowed.tight.accept pkt.seq
    · intro seq accepted
      have strict : c.rxRel.slideOnGap = false := sound.strict
      rw [same, ReplayWindow.accept_accepted _ _ _ strict
        (c.rxRel.accept_of_fresh pkt.seq takes.fresh)] at accepted
      rcases accepted with rfl | old
      · have numbered := received_numbered peerSound (honest (source, now) bytes rfl) got
        have inside := (List.getElem?_eq_some_iff.mp (numbered.reliable takes.reliable).2).1
        have count := peerSound.count
        have total : peer.txSeqRel = peer.ledger.taken.length := count
        omega
      · exact windowed.known seq old

/-- Calls at the receiver only widen its reach. -/
theorem step_spans_receiving {c peer : Connection π} (sound : c.ledger.Sound True)
    (event : Event π) (spans : Spans peer c) : Spans peer (c.step event) := by
  intro o member
  have near := spans o member
  rcases step_window sound event with same | ⟨_, _, _, pkt, _, _, _, same⟩
  · rwa [same]
  · have reach := c.rxRel.accept_lastContiguous_le pkt.seq
    rw [same, ReplayWindow.accept_windowSize]
    omega

theorem step_spans_sending {size : Nat} {c peer : Connection π} (sound : c.ledger.Sound True)
    {event : Event π} (windowed : Windowed size c peer) (allowed : c.SendsInSpan peer event)
    (spans : Spans c peer) : Spans (c.step event) peer := by
  have moves := step_moves sound event
  show ∀ o ∈ (c.step event).book.outstanding, _
  generalize (c.step event).book = after at moves ⊢
  cases moves with
  | idle | handler | numberedBestEffort | took => exact spans
  | numbered payload takes =>
      intro o member
      rcases List.mem_append.mp member with old | new
      · exact spans o old
      · rw [List.mem_singleton.mp new]
        have reach := windowed.tight.reach (c.txSeqRel + 1 - peer.rxRel.windowSize) (by
          intro seq positive low
          exact allowed payload rfl takes seq positive (by omega))
        dsimp only
        omega
  | ticked now isOpen =>
      intro o member
      obtain ⟨old, inside, rfl⟩ := List.mem_map.mp (List.dropWhile_sublist _ |>.mem member)
      rw [resent_seq]
      exact spans old inside
  | acked => exact fun o member => spans o (List.mem_filter.mp member).1
  | ackedPreUpgrade => exact fun o member => spans o (List.mem_filter.mp member).1

/-- A send that leaves its packet in reach met the condition. -/
theorem sendsInSpan_of_inReach {size : Nat} {c peer : Connection π} (sound : c.ledger.Sound True)
    (peerSound : peer.ledger.Sound True) (noWrap : size + 2 ^ 32 ≤ 2 ^ 64) {event : Event π}
    (windowed : Windowed size c peer) (inReach : InReach (c.step event) peer) :
    c.SendsInSpan peer event := by
  intro payload same takes seq positive low
  subst same
  have edge := windowed.edge sound noWrap
  have sent : (c.step (.send .reliable payload)).outstanding =
      (c.numberReliable payload c.endpoint.nowMs).outstanding :=
    congrArg Book.outstanding (send_takes_book takes)
  obtain ⟨o, member, number⟩ : ∃ o ∈ (c.step (.send .reliable payload)).outstanding,
      o.seq = c.txSeqRel + 1 := by
    rw [sent]
    exact ⟨_, List.mem_append_right _ (List.mem_singleton_self _), rfl⟩
  have verdict := inReach o member
  rw [number] at verdict
  have unseen : ¬ (c.txSeqRel + 1 = 0 ∨ peer.rxRel.Accepted (c.txSeqRel + 1)) := by
    rintro (none | accepted)
    · omega
    · have known := windowed.known _ accepted
      omega
  have near : c.txSeqRel + 1 ≤ peer.rxRel.edge := by
    by_contra beyond
    have strict : peer.rxRel.slideOnGap = false := peerSound.strict
    exact verdict (peer.rxRel.classify_tooFar _ unseen (Nat.lt_of_not_le beyond) strict)
  exact Or.inl (by omega)

end Connection

namespace Pair

variable {π : Type} [PacketProtection π] [Hmac]

/-- The condition on one step of a pair. -/
def SendsInSpan (pair : Pair π) (act : Act π) : Prop :=
  ∀ event, Duplex.event (wire π) pair act.1 act.2 = some event →
    (pair.endAt act.1).SendsInSpan (pair.endAt act.1.other) event

def Windowed (size : Nat) (pair : Pair π) : Prop :=
  Sound pair ∧ pair.Both (Connection.Windowed size)

theorem step_windowed [LawfulProtection π] (size : Nat) (pair : Pair π) (act : Act π)
    (windowed : Windowed size pair) : Windowed size (step pair act) := by
  obtain ⟨sound, both⟩ := windowed
  refine ⟨step_sound pair act sound, Duplex.step_both (wire π) _ pair act both ?_ ?_⟩
  · intro event _ _ kept
    exact Connection.step_windowed_sending (sound_endAt sound act.1) event kept
  · intro event _ honest kept
    exact Connection.step_windowed_receiving (sound_endAt sound act.1)
      (sound_endAt sound act.1.other) honest kept

theorem step_spans [LawfulProtection π] (size : Nat) (pair : Pair π) (act : Act π)
    (allowed : SendsInSpan pair act)
    (inv : Windowed size pair ∧ pair.Both Connection.Spans) :
    Windowed size (step pair act) ∧ (step pair act).Both Connection.Spans := by
  obtain ⟨windowed, spans⟩ := inv
  have sound := windowed.1
  refine ⟨step_windowed size pair act windowed, Duplex.step_both (wire π) _ pair act spans ?_ ?_⟩
  · intro event made _ kept
    exact Connection.step_spans_sending (sound_endAt sound act.1)
      (windowed.2.endAt act.1) (allowed event made) kept
  · intro event _ _ kept
    exact Connection.step_spans_receiving (sound_endAt sound act.1) event kept

/-- With one accepted tuning at both ends, every packet in flight is in the
receiver's reach in every state of a run exactly when each send that takes a
number finds every number a window below it accepted. -/
theorem in_flight_in_reach [LawfulProtection π] (leftPort rightPort : EndpointPort)
    (leftParams rightParams : OpenParams) (config : PeerLinkConfig)
    (accepted : validatePeerLinkConfig config = .ok ())
    (noWrap : config.adp.replayWindow + 2 ^ 32 ≤ 2 ^ 64) (run : List (Act π)) :
    let start := opened leftPort rightPort (leftParams.applyTuning config.adp)
      (rightParams.applyTuning config.adp)
    Run.Always step (Ends.Both Connection.InReach) start run ↔
      Run.Meets step SendsInSpan start run := by
  intro start
  have valid := (validatePeerLinkConfig_ok config).mp accepted
  have fresh : ∀ (port : EndpointPort) (params : OpenParams) (sender : Connection π),
      Connection.Windowed config.adp.replayWindow sender
        (.create port (params.applyTuning config.adp)) := by
    intro port params sender
    refine ⟨max_eq_left valid.replay, by simp [ReplayWindow.Tight, Connection.create], ?_⟩
    intro seq taken
    simp only [ReplayWindow.Accepted, Connection.create, Finset.notMem_empty, or_false] at taken
    omega
  have windowed : Windowed config.adp.replayWindow start :=
    ⟨opened_sound _ _ _ _, fresh _ _ _, fresh _ _ _⟩
  constructor
  · refine Run.meets_of_always step SendsInSpan (Windowed config.adp.replayWindow) _
      (step_windowed _) ?_ run start windowed
    intro pair act inv inReach event made
    have after := inReach.endAt act.1
    obtain ⟨moved, still⟩ := Duplex.step_endAt (wire π) pair act.1 act.2 event made
    rw [moved, still] at after
    exact Connection.sendsInSpan_of_inReach (sound_endAt inv.1 act.1)
      (sound_endAt inv.1 act.1.other) noWrap (inv.2.endAt act.1) after
  · intro met
    refine Run.always_of_invariant step SendsInSpan
      (fun pair => Windowed config.adp.replayWindow pair ∧ pair.Both Connection.Spans) _
      (step_spans _) ?_ run start met ⟨windowed, ?_, ?_⟩
    · rintro pair ⟨⟨sound, both⟩, spans⟩
      exact ⟨spans.1.inReach both.1 sound.1 noWrap, spans.2.inReach both.2 sound.2 noWrap⟩
    · exact fun _ absent => absurd absent List.not_mem_nil
    · exact fun _ absent => absurd absent List.not_mem_nil

end Pair

/-- A window of two packets, at both ends. -/
def narrowConfig : PeerLinkConfig := { adp := { reliableWindow := 2, replayWindow := 2 } }

/-- The ends hold sessions. -/
theorem Pair.in_flight_in_reach_sample :
    let run : List (Pair.Act Session) := [
      (.left, .call (.send .reliable [1]) (by simp)),
      (.left, .call (.send .reliable [2]) (by simp)),
      (.right, .deliver 0 ({}, 1000)), (.left, .deliver 0 ({}, 1000)),
      (.left, .call (.send .reliable [3]) (by simp))]
    let start := Pair.opened samplePort samplePort (sampleParams.applyTuning narrowConfig.adp)
      (sampleParams.applyTuning narrowConfig.adp)
    (Run.exec Pair.step start run).left.outstanding.map Outstanding.seq = [2, 3] ∧
      Run.Always Pair.step (Ends.Both Connection.InReach) start run := by
  refine ⟨by decide +kernel, (Pair.in_flight_in_reach samplePort samplePort sampleParams
    sampleParams narrowConfig (by decide +kernel) (by decide) _).mpr ⟨?_, ?_, ?_, ?_, ?_, trivial⟩⟩
  case refine_5 =>
    intro event _ payload _ _ seq positive low
    have first : seq + 2 ≤ 3 := low
    have one : seq = 1 := by omega
    rw [one]
    decide +kernel
  case refine_1 =>
    intro event _ payload _ _ seq positive low
    have first : seq + 2 ≤ 1 := low
    omega
  case refine_2 =>
    intro event _ payload _ _ seq positive low
    have first : seq + 2 ≤ 2 := low
    omega
  all_goals
    intro event made payload same
    subst same
    cases made

/-- Packet 1 is lost and packet 2 acked: the count lets packet 3 go, and it is
past the receiver's edge. -/
theorem Pair.in_flight_too_far :
    ¬ ∀ run : List (Pair.Act TagProtection),
      Ends.Both Connection.InReach (Run.exec Pair.step
        (Pair.opened samplePort samplePort (sampleParams.applyTuning narrowConfig.adp)
          (sampleParams.applyTuning narrowConfig.adp)) run) := by
  intro claim
  have inReach := (claim [(.left, .call (.send .reliable [1]) (by simp)),
    (.left, .call (.send .reliable [2]) (by simp)),
    (.right, .deliver 1 ({}, 1000)), (.left, .deliver 0 ({}, 1000)),
    (.left, .call (.send .reliable [3]) (by simp))]).1
  revert inReach
  unfold Connection.InReach
  decide +kernel

end Amp.Adp
