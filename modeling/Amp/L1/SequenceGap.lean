import Amp.L1.Association

set_option autoImplicit false

/- Packets leave the sender's list by an ack or because `Tick` gives them up. An
ack proves the peer has the packet; giving up proves nothing, so a run is free of
gaps as far as its ticks give up only what the peer already has. -/
namespace Amp.Adp

open Duplex (Ends)

namespace Connection

variable {π : Type}

/-- Due and out of attempts once this `Tick` has done its resends. -/
def givesUp (c : Connection π) (now : Int) (o : Outstanding) : Bool :=
  c.exhausted now (c.resent now o)

theorem resent_seq (c : Connection π) (now : Int) (o : Outstanding) :
    (c.resent now o).seq = o.seq := by
  unfold resent
  split_ifs <;> rfl

/-- A packet tracked before a tick is given up from the front or still tracked. -/
theorem tick_keeps (c : Connection π) (now : Int) (o : Outstanding) (member : o ∈ c.outstanding) :
    o ∈ c.outstanding.takeWhile (c.givesUp now) ∨
      ∃ kept ∈ (c.outstanding.map (c.resent now)).dropWhile (c.exhausted now),
        kept.seq = o.seq := by
  have split := List.takeWhile_append_dropWhile (p := c.givesUp now) (l := c.outstanding)
  rw [← split] at member
  rcases List.mem_append.mp member with dropped | kept
  · exact Or.inl dropped
  · refine Or.inr ⟨c.resent now o, ?_, resent_seq c now o⟩
    rw [List.dropWhile_map]
    exact List.mem_map_of_mem kept

/-- The condition on one call: a tick gives up only what the peer has accepted. -/
def GivesUpAccepted (c peer : Connection π) (event : Event π) : Prop :=
  ∀ now, event = .tick now → c.closed = false →
    ∀ o ∈ c.outstanding.takeWhile (c.givesUp now), peer.rxRel.Accepted o.seq

end Connection

/-- Every number given out is still tracked, or the receiver's window has it. -/
def Book.Gapless (book : Book) (window : ReplayWindow) : Prop :=
  ∀ seq, 0 < seq → seq ≤ book.txSeqRel →
    (∃ o ∈ book.outstanding, o.seq = seq) ∨ window.Accepted seq

namespace Book.Gapless

theorem retrack {book : Book} {window : ReplayWindow} (gapless : book.Gapless window)
    (outstanding : List Outstanding)
    (kept : ∀ o ∈ book.outstanding,
      (∃ other ∈ outstanding, other.seq = o.seq) ∨ (0 < o.seq → window.Accepted o.seq)) :
    Book.Gapless { book with outstanding := outstanding } window := by
  intro seq positive low
  rcases gapless seq positive low with ⟨o, member, rfl⟩ | accepted
  · exact (kept o member).imp_right fun known => known positive
  · exact Or.inr accepted

theorem filter {book : Book} {window : ReplayWindow} (gapless : book.Gapless window)
    (keep : Outstanding → Bool)
    (dropped : ∀ o ∈ book.outstanding, keep o = false → 0 < o.seq → window.Accepted o.seq) :
    Book.Gapless { book with outstanding := book.outstanding.filter keep } window := by
  refine gapless.retrack _ fun o member => ?_
  cases verdict : keep o with
  | true => exact Or.inl ⟨o, List.mem_filter.mpr ⟨member, verdict⟩, rfl⟩
  | false => exact Or.inr (dropped o member verdict)

end Book.Gapless

namespace Connection

variable {π : Type} [PacketProtection π] [Hmac]

omit [PacketProtection π] [Hmac] in
/-- An ack the peer put on the wire is of a number the peer has. -/
theorem acked_accepted {peer : Connection π} {pkt : WirePacket}
    (numbered : peer.ledger.Numbered True pkt.type pkt.seq pkt.payload) (form : pkt.type = .ack)
    (positive : 0 < pkt.seq) : peer.rxRel.Accepted pkt.seq := by
  rw [form] at numbered
  rcases numbered with ⟨_, none⟩ | ⟨_, taken⟩
  · omega
  · exact taken

/-- A call at the sender opens no gap, as long as it gives up nothing the peer misses. -/
theorem step_gapless [LawfulProtection π] {c peer : Connection π} (sound : c.ledger.Sound True)
    (peerSound : peer.ledger.Sound True) {event : Event π} (honest : Duplex.Honest (wire π) peer event)
    (allowed : c.GivesUpAccepted peer event) (gapless : c.book.Gapless peer.rxRel) :
    (c.step event).book.Gapless peer.rxRel := by
  have moves := step_moves sound event
  generalize (c.step event).book = after at moves ⊢
  cases moves with
  | idle | handler | numberedBestEffort | took => exact gapless
  | numbered payload =>
      intro seq positive low
      rcases Nat.lt_or_eq_of_le low with below | last
      · rcases gapless seq positive (Nat.le_of_lt_succ below) with ⟨o, member, same⟩ | accepted
        · exact Or.inl ⟨o, List.mem_append_left _ member, same⟩
        · exact Or.inr accepted
      · exact Or.inl ⟨_, List.mem_append_right _ (List.mem_singleton_self _), last.symm⟩
  | ticked now isOpen =>
      refine gapless.retrack _ fun o member => ?_
      rcases tick_keeps c now o member with dropped | kept
      · exact Or.inr fun _ => allowed now rfl isOpen o dropped
      · exact Or.inl kept
  | acked source bytes now pkt got form =>
      have numbered := received_numbered peerSound (honest (source, now) bytes rfl) got
      refine gapless.filter _ fun o _ verdict positive => ?_
      have same : o.seq = pkt.seq := by simpa using verdict
      rw [same] at positive ⊢
      exact acked_accepted numbered form positive
  | ackedPreUpgrade source bytes now pkt got form =>
      have numbered := receivedPreUpgrade_numbered peerSound (honest (source, now) bytes rfl) got
      refine gapless.filter _ fun o _ verdict positive => ?_
      have same : o.seq = pkt.seq := by
        have both : o.beforeUpgrade = true ∧ o.seq = pkt.seq := by simpa using verdict
        exact both.2
      rw [same] at positive ⊢
      exact acked_accepted numbered form positive

end Connection

namespace Pair

variable {π : Type} [PacketProtection π] [Hmac]

/-- The condition on one step of a pair. -/
def GivesUpAccepted (pair : Pair π) (act : Act π) : Prop :=
  ∀ event, Duplex.event (wire π) pair act.1 act.2 = some event →
    (pair.endAt act.1).GivesUpAccepted (pair.endAt act.1.other) event

theorem step_gapless [LawfulProtection π] (pair : Pair π) (act : Act π)
    (allowed : GivesUpAccepted pair act) (inv : Sound pair ∧ Ends.Both
      (fun sender receiver => sender.book.Gapless receiver.rxRel) pair) :
    Sound (step pair act) ∧ Ends.Both
      (fun sender receiver => sender.book.Gapless receiver.rxRel) (step pair act) := by
  obtain ⟨sound, gapless⟩ := inv
  refine ⟨step_sound pair act sound, Duplex.step_both (wire π) _ pair act gapless ?_ ?_⟩
  · intro event made honest kept
    exact Connection.step_gapless (sound_endAt sound act.1) (sound_endAt sound act.1.other) honest
      (allowed event made) kept
  · intro event _ _ kept seq positive low
    exact (kept seq positive low).imp_right
      (Connection.step_accepted (sound_endAt sound act.1) event)

/-- In a run whose ticks give up only what the peer has accepted, every number a
sender gave out is still tracked or accepted by the peer. -/
theorem no_sequence_gap [LawfulProtection π] (leftPort rightPort : EndpointPort)
    (leftParams rightParams : OpenParams) (run : List (Act π))
    (allowed : Run.Meets step GivesUpAccepted
      (opened leftPort rightPort leftParams rightParams) run) :
    Ends.Both (fun sender receiver => ∀ seq, 0 < seq → seq ≤ sender.txSeqRel →
        (∃ o ∈ sender.outstanding, o.seq = seq) ∨ receiver.rxRel.Accepted seq)
      (Run.exec step (opened leftPort rightPort leftParams rightParams) run) := by
  have start : ∀ left right : Connection π, left.txSeqRel = 0 →
      left.book.Gapless right.rxRel := by
    intro left right none seq positive low
    have top : left.book.txSeqRel = 0 := none
    omega
  exact (Run.invariant step GivesUpAccepted _ step_gapless run _ allowed
    ⟨opened_sound leftPort rightPort leftParams rightParams,
      start _ _ rfl, start _ _ rfl⟩).2

end Pair

/-- One resend, and the packet is given up. -/
def impatientParams : OpenParams := { sampleParams with maxRtx := 1 }

theorem Pair.no_sequence_gap_sample :
    let run : List (Pair.Act TagProtection) := [
      (.right, .call (.onMessage true) (by simp)), (.left, .call (.send .reliable [1]) (by simp)),
      (.left, .call (.tick 1050) (by simp)), (.right, .deliver 1 ({}, 1050)),
      (.left, .call (.tick 1150) (by simp))]
    let pair := Run.exec Pair.step
      (Pair.opened samplePort samplePort impatientParams impatientParams) run
    pair.left.outstanding = [] ∧
      Ends.Both (fun sender receiver => ∀ seq, 0 < seq → seq ≤ sender.txSeqRel →
        (∃ o ∈ sender.outstanding, o.seq = seq) ∨ receiver.rxRel.Accepted seq) pair := by
  refine ⟨by decide +kernel, Pair.no_sequence_gap samplePort samplePort impatientParams
    impatientParams _ ⟨?_, ?_, ?_, ?_, ?_, trivial⟩⟩
  case refine_5 =>
    intro event made now tick _
    cases made
    cases tick
    decide +kernel
  case refine_3 =>
    intro event made now tick _
    cases made
    cases tick
    decide +kernel
  all_goals
    intro event made now tick
    subst tick
    cases made

/-- Both copies of packet 1 are lost; the open sender drops it and goes on. -/
theorem Pair.sequence_gap :
    ¬ ∀ run : List (Pair.Act TagProtection),
      Ends.Both (fun sender receiver => sender.closed = false →
          ∀ seq, 0 < seq → seq ≤ sender.txSeqRel →
            (∃ o ∈ sender.outstanding, o.seq = seq) ∨ receiver.rxRel.Accepted seq)
        (Run.exec Pair.step
          (Pair.opened samplePort samplePort impatientParams impatientParams) run) := by
  intro claim
  have gapless := (claim [(.left, .call (.send .reliable [1]) (by simp)),
    (.left, .call (.tick 1050) (by simp)), (.left, .call (.tick 1150) (by simp)),
    (.left, .call (.send .reliable [2]) (by simp))]).1 (by decide +kernel) 1
    (by decide) (by decide +kernel)
  revert gapless
  decide +kernel

end Amp.Adp
