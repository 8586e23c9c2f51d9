import Amp.Link.CarrierLane
import Amp.Lib.Duplex
import Amp.Lib.Reorder
import Amp.Lib.Run
import Mathlib.Data.Nat.Bitwise
import Mathlib.Data.List.Nodup
import Mathlib.Order.Interval.Finset.Nat

set_option autoImplicit false

/- Two lanes over a carrier that loses, repeats and reorders their payloads. The
sender's frames, the receiver's hold and every ack ever sent are tied to the
wrapped wires by one relation; all the lane's promises follow from it. -/
namespace Amp

open Adp (Bytes)

theorem sub32_of_le (left right : Nat) (below : right ≤ left) (fits : left < 2 ^ 32) :
    sub32 left right = left - right := by
  have small : right % 2 ^ 32 = right := Nat.mod_eq_of_lt (by omega)
  unfold sub32
  rw [small]
  omega

namespace CarrierLane

/- The hold, an ordered map. -/

def Ordered (hold : List (Nat × Bytes)) : Prop := hold.Pairwise fun low high => low.1 < high.1

theorem lookup_mem {hold : List (Nat × Bytes)} {seq : Nat} {inner : Bytes}
    (found : hold.lookup seq = some inner) : (seq, inner) ∈ hold := by
  induction hold with
  | nil => cases found
  | cons entry rest ih =>
      obtain ⟨other, held⟩ := entry
      by_cases same : seq = other
      · subst same
        simp only [List.lookup_cons_self, Option.some.injEq] at found
        rw [found]
        exact List.mem_cons_self ..
      · have differs : (seq == other) = false := by simpa using same
        simp only [List.lookup_cons, differs] at found
        exact List.mem_cons_of_mem _ (ih found)

theorem lookup_of_mem {hold : List (Nat × Bytes)} (ordered : Ordered hold) {seq : Nat}
    {inner : Bytes} (member : (seq, inner) ∈ hold) : hold.lookup seq = some inner := by
  induction hold with
  | nil => cases member
  | cons entry rest ih =>
      obtain ⟨other, held⟩ := entry
      have tail := List.pairwise_cons.mp ordered
      rcases List.mem_cons.mp member with same | later
      · cases same
        simp
      · have above : other < seq := tail.1 (seq, inner) later
        have differs : (seq == other) = false := by simp; omega
        simp only [List.lookup_cons, differs]
        exact ih tail.2 later

theorem mem_insertHold (seq : Nat) (inner : Bytes) (hold : List (Nat × Bytes))
    (entry : Nat × Bytes) :
    entry ∈ insertHold seq inner hold ↔ entry = (seq, inner) ∨ entry ∈ hold := by
  induction hold with
  | nil => simp [insertHold]
  | cons first rest ih =>
      obtain ⟨other, held⟩ := first
      simp only [insertHold]
      split
      · simp
      · simp only [List.mem_cons, ih]
        tauto

theorem insertHold_ordered (seq : Nat) (inner : Bytes) (hold : List (Nat × Bytes))
    (ordered : Ordered hold) (absent : ∀ entry ∈ hold, entry.1 ≠ seq) :
    Ordered (insertHold seq inner hold) := by
  induction hold with
  | nil => exact List.pairwise_singleton ..
  | cons first rest ih =>
      obtain ⟨other, held⟩ := first
      have tail := List.pairwise_cons.mp ordered
      simp only [insertHold]
      split
      · rename_i below
        refine List.pairwise_cons.mpr ⟨?_, ordered⟩
        intro entry member
        rcases List.mem_cons.mp member with same | later
        · rw [same]
          exact below
        · have above := tail.1 entry later
          dsimp only at above ⊢
          omega
      · rename_i notBelow
        have differs : other ≠ seq := absent (other, held) (List.mem_cons_self ..)
        have rested := ih tail.2 fun entry member => absent entry (List.mem_cons_of_mem _ member)
        refine List.pairwise_cons.mpr ⟨?_, rested⟩
        intro entry member
        rcases (mem_insertHold seq inner rest entry).mp member with same | later
        · rw [same]
          dsimp only
          omega
        · exact tail.1 entry later

/-- What the receiving half holds of the peer's wrapped wires. -/
structure Receives (log : List Bytes) (window cumulative : Nat) (hold : List (Nat × Bytes))
    (released : List Bytes) : Prop where
  tracks : Reorder.Tracks log cumulative (fun seq => hold.lookup seq) released
  ordered : Ordered hold
  range : ∀ entry ∈ hold, cumulative < entry.1 ∧ entry.1 ≤ cumulative + window

theorem Receives.grow {log longer : List Bytes} {window cumulative : Nat}
    {hold : List (Nat × Bytes)} {released : List Bytes}
    (receives : Receives log window cumulative hold released) (grown : log <+: longer) :
    Receives longer window cumulative hold released :=
  ⟨receives.tracks.grow grown, receives.ordered, receives.range⟩

/-- Distinct keys in a range of `window` numbers: the hold is no longer than that. -/
theorem Receives.hold_length {log : List Bytes} {window cumulative : Nat}
    {hold : List (Nat × Bytes)} {released : List Bytes}
    (receives : Receives log window cumulative hold released) : hold.length ≤ window := by
  have distinct : (hold.map Prod.fst).Nodup := by
    rw [List.nodup_iff_pairwise_ne, List.pairwise_map]
    exact receives.ordered.imp fun below => Nat.ne_of_lt below
  have inside : (hold.map Prod.fst).toFinset ⊆ Finset.Ioc cumulative (cumulative + window) := by
    intro seq member
    obtain ⟨entry, held, same⟩ := List.mem_map.mp (List.mem_toFinset.mp member)
    have bounds := receives.range entry held
    rw [Finset.mem_Ioc]
    omega
  have count := Finset.card_le_card inside
  rw [List.toFinset_card_of_nodup distinct, List.length_map, Nat.card_Ioc] at count
  omega

theorem Receives.keep {log : List Bytes} {window cumulative : Nat} {hold : List (Nat × Bytes)}
    {released : List Bytes} (receives : Receives log window cumulative hold released)
    (seq : Nat) (inner : Bytes) (named : log[seq - 1]? = some inner)
    (above : cumulative < seq) (within : seq ≤ cumulative + window)
    (absent : hold.lookup seq = none) :
    Receives log window cumulative (insertHold seq inner hold) released := by
  have missing : ∀ entry ∈ hold, entry.1 ≠ seq := by
    intro entry member same
    have listed : (entry.1, entry.2) ∈ hold := member
    have found := lookup_of_mem receives.ordered listed
    rw [same, absent] at found
    cases found
  refine ⟨receives.tracks.hold ?_, insertHold_ordered seq inner hold receives.ordered missing, ?_⟩
  · intro other item found
    rcases (mem_insertHold seq inner hold (other, item)).mp (lookup_mem found) with same | old
    · cases same
      exact Or.inr ⟨by omega, named⟩
    · exact Or.inl (lookup_of_mem receives.ordered old)
  · intro entry member
    rcases (mem_insertHold seq inner hold entry).mp member with same | old
    · rw [same]
      exact ⟨above, within⟩
    · exact receives.range entry old

/-- The release loop hands on the run of numbers at the front, and stops before
a number that is not next. -/
theorem Receives.release {log : List Bytes} {window : Nat} (short : log.length < 2 ^ 32)
    (hold : List (Nat × Bytes)) : ∀ (cumulative : Nat) (released : List Bytes),
    Receives log window cumulative hold released →
    Receives log window (releaseHold hold cumulative).2.2 (releaseHold hold cumulative).2.1
        (released ++ (releaseHold hold cumulative).1) ∧
      cumulative ≤ (releaseHold hold cumulative).2.2 ∧
      (∀ entry ∈ hold, entry.1 ≤ (releaseHold hold cumulative).2.2 ∨
        entry ∈ (releaseHold hold cumulative).2.1) ∧
      ∀ entry ∈ (releaseHold hold cumulative).2.1, (releaseHold hold cumulative).2.2 + 2 ≤ entry.1 := by
  induction hold with
  | nil =>
      intro cumulative released receives
      refine ⟨?_, Nat.le_refl _, ?_, ?_⟩
      · simpa [releaseHold] using receives
      · exact fun _ absent => absurd absent List.not_mem_nil
      · exact fun _ absent => absurd absent List.not_mem_nil
  | cons first rest ih =>
      intro cumulative released receives
      obtain ⟨seq, inner⟩ := first
      have above := (receives.range (seq, inner) (List.mem_cons_self ..)).1
      have entry := (receives.tracks.named seq inner List.lookup_cons_self).2
      have inside := (List.getElem?_eq_some_iff.mp entry).1
      have step : (cumulative + 1) % 2 ^ 32 = cumulative + 1 :=
        Nat.mod_eq_of_lt (by dsimp only at above; omega)
      have tail := List.pairwise_cons.mp receives.ordered
      by_cases next : seq = cumulative + 1
      · have due : ((seq, inner) :: rest).lookup (cumulative + 1) = some inner := by
          rw [← next, List.lookup_cons_self]
        have dropped : ∀ other item, rest.lookup other = some item →
            ((seq, inner) :: rest).lookup other = some item := by
          intro other item found
          exact lookup_of_mem receives.ordered (List.mem_cons_of_mem _ (lookup_mem found))
        have shorter : Receives log window (cumulative + 1) rest (released ++ [inner]) := by
          refine ⟨receives.tracks.release inner due dropped, tail.2, ?_⟩
          intro entry member
          have above := tail.1 entry member
          have bounds := receives.range entry (List.mem_cons_of_mem _ member)
          dsimp only at above
          omega
        obtain ⟨done, reach, accounted, clear⟩ := ih (cumulative + 1) (released ++ [inner]) shorter
        have unfolded : releaseHold ((seq, inner) :: rest) cumulative =
            (inner :: (releaseHold rest (cumulative + 1)).1,
              (releaseHold rest (cumulative + 1)).2.1, (releaseHold rest (cumulative + 1)).2.2) := by
          simp only [releaseHold, step, next, ↓reduceIte]
        rw [unfolded]
        refine ⟨?_, by dsimp only; omega, ?_, clear⟩
        · rw [List.append_cons]
          exact done
        · intro entry member
          rcases List.mem_cons.mp member with same | later
          · rw [same]
            dsimp only
            exact Or.inl (by omega)
          · exact accounted entry later
      · have unfolded : releaseHold ((seq, inner) :: rest) cumulative =
            ([], (seq, inner) :: rest, cumulative) := by
          simp only [releaseHold, step, next, ↓reduceIte]
        rw [unfolded]
        refine ⟨by rwa [List.append_nil], Nat.le_refl _, fun entry member => Or.inr member, ?_⟩
        intro entry member
        have first := (receives.range (seq, inner) (List.mem_cons_self ..)).1
        rcases List.mem_cons.mp member with same | later
        · rw [same]
          dsimp only at first ⊢
          omega
        · have above := tail.1 entry later
          dsimp only at above first ⊢
          omega

/-- A number is delivered or held. -/
def Has (cumulative : Nat) (hold : List (Nat × Bytes)) (seq : Nat) : Prop :=
  seq ≤ cumulative ∨ ∃ inner, (seq, inner) ∈ hold

/-- An ack that speaks only of numbers delivered or held. -/
structure Vouches (cumulative : Nat) (hold : List (Nat × Bytes)) (ack : LaneAckFields) :
    Prop where
  edge : ack.cumulative ≤ cumulative
  bits : ack.selective < 2 ^ 64
  held : ∀ bit, ack.selective.testBit bit = true → Has cumulative hold (ack.cumulative + 2 + bit)

theorem selectiveBits_spec (cumulative : Nat) (hold : List (Nat × Bytes)) :
    ∀ bits, (∀ entry ∈ hold, cumulative + 2 ≤ entry.1 ∧ entry.1 < 2 ^ 32) → bits < 2 ^ 64 →
    selectiveBits cumulative hold bits < 2 ^ 64 ∧
      ∀ bit, (selectiveBits cumulative hold bits).testBit bit = true →
        bits.testBit bit = true ∨ ∃ inner, (cumulative + 2 + bit, inner) ∈ hold := by
  induction hold with
  | nil => exact fun bits _ small => ⟨small, fun bit set => Or.inl set⟩
  | cons first rest ih =>
      intro bits bounds small
      obtain ⟨seq, inner⟩ := first
      have bound := bounds (seq, inner) (List.mem_cons_self ..)
      dsimp only at bound
      have bit_eq : sub32 (sub32 seq cumulative) 2 = seq - cumulative - 2 := by
        rw [sub32_of_le seq cumulative (by omega) bound.2, sub32_of_le _ 2 (by omega) (by omega)]
      simp only [selectiveBits, bit_eq]
      by_cases far : kSelectiveBits ≤ seq - cumulative - 2
      · rw [if_pos far]
        exact ⟨small, fun bit set => Or.inl set⟩
      · rw [if_neg far]
        have near : seq - cumulative - 2 < 64 := Nat.lt_of_not_le far
        have single : 1 <<< (seq - cumulative - 2) < 2 ^ 64 := by
          rw [Nat.one_shiftLeft]
          exact Nat.pow_lt_pow_right (by decide) near
        obtain ⟨bounded, set⟩ := ih (bits ||| 1 <<< (seq - cumulative - 2))
          (fun entry member => bounds entry (List.mem_cons_of_mem _ member))
          (Nat.or_lt_two_pow small single)
        refine ⟨bounded, fun bit up => ?_⟩
        rcases set bit up with here | ⟨other, member⟩
        · rw [Nat.testBit_or, Bool.or_eq_true] at here
          rcases here with old | new
          · exact Or.inl old
          · rw [Nat.one_shiftLeft, Nat.testBit_two_pow, decide_eq_true_eq] at new
            refine Or.inr ⟨inner, ?_⟩
            have place : cumulative + 2 + bit = seq := by omega
            rw [place]
            exact List.mem_cons_self ..
        · exact Or.inr ⟨other, List.mem_cons_of_mem _ member⟩

/-- What an ack covers, the receiver has. -/
theorem Vouches.covered {cumulative : Nat} {hold : List (Nat × Bytes)} {ack : LaneAckFields}
    (vouches : Vouches cumulative hold ack) (short : cumulative < 2 ^ 32) {seq : Nat}
    (fits : seq < 2 ^ 32) (covers : ack.covers seq = true) : Has cumulative hold seq := by
  have edge := vouches.edge
  simp only [LaneAckFields.covers, Bool.or_eq_true, Bool.and_eq_true, decide_eq_true_eq] at covers
  rcases covers with below | ⟨⟨_, near⟩, set⟩
  · exact Or.inl (by omega)
  · by_cases past : seq ≤ ack.cumulative
    · exact Or.inl (by omega)
    -- the number right after the edge has no bit: its place wraps around
    by_cases hole : seq = ack.cumulative + 1
    · have one : sub32 seq ack.cumulative = 1 := by
        rw [sub32_of_le seq ack.cumulative (by omega) fits]
        omega
      rw [one] at near
      exact absurd near (by decide)
    · have bit_eq : sub32 (sub32 seq ack.cumulative) 2 = seq - ack.cumulative - 2 := by
        rw [sub32_of_le seq ack.cumulative (by omega) fits, sub32_of_le _ 2 (by omega) (by omega)]
      rw [bit_eq] at set
      have named := vouches.held _ set
      have place : ack.cumulative + 2 + (seq - ack.cumulative - 2) = seq := by omega
      rwa [place] at named

theorem Has.mono {cumulative reached : Nat} {hold kept : List (Nat × Bytes)} {seq : Nat}
    (has : Has cumulative hold seq) (reach : cumulative ≤ reached)
    (accounted : ∀ entry ∈ hold, entry.1 ≤ reached ∨ entry ∈ kept) : Has reached kept seq := by
  rcases has with below | ⟨inner, member⟩
  · exact Or.inl (Nat.le_trans below reach)
  · rcases accounted (seq, inner) member with delivered | held
    · exact Or.inl delivered
    · exact Or.inr ⟨inner, held⟩

theorem Vouches.mono {cumulative reached : Nat} {hold kept : List (Nat × Bytes)}
    {ack : LaneAckFields} (vouches : Vouches cumulative hold ack) (reach : cumulative ≤ reached)
    (accounted : ∀ entry ∈ hold, entry.1 ≤ reached ∨ entry ∈ kept) : Vouches reached kept ack :=
  ⟨Nat.le_trans vouches.edge reach, vouches.bits,
    fun bit set => (vouches.held bit set).mono reach accounted⟩

/-- A frame the peer wrapped is held under its own number. -/
theorem Receives.store {log : List Bytes} {lane : CarrierLane} {released : List Bytes}
    (receives : Receives log lane.config.window lane.rxCumulative lane.rxHold released)
    (seq : Nat) (inner : Bytes) (named : log[seq - 1]? = some inner) :
    Receives log lane.config.window lane.rxCumulative
      (if lane.wantsData seq then insertHold seq inner lane.rxHold else lane.rxHold) released := by
  split
  · rename_i wanted
    simp only [wantsData, Bool.and_eq_true, decide_eq_true_eq, Option.isNone_iff_eq_none]
      at wanted
    obtain ⟨⟨above, absent⟩, near⟩ := wanted
    exact receives.keep seq inner named above (by omega) absent
  · exact receives

/-- `OnData` of a frame the peer wrapped. -/
theorem onData_spec {log : List Bytes} {lane : CarrierLane} {released : List Bytes}
    (short : log.length < 2 ^ 32) (seq : Nat) (inner : Bytes)
    (named : log[seq - 1]? = some inner)
    (receives : Receives log lane.config.window lane.rxCumulative lane.rxHold released) :
    let after := (lane.onData seq inner).1
    Receives log after.config.window after.rxCumulative after.rxHold
        (released ++ (lane.onData seq inner).2.1) ∧
      lane.rxCumulative ≤ after.rxCumulative ∧
      (∀ entry ∈ lane.rxHold, entry.1 ≤ after.rxCumulative ∨ entry ∈ after.rxHold) ∧
      Vouches after.rxCumulative after.rxHold (lane.onData seq inner).2.2 := by
  intro after
  have kept := receives.store seq inner named
  have old : ∀ entry ∈ lane.rxHold, entry ∈
      if lane.wantsData seq then insertHold seq inner lane.rxHold else lane.rxHold := by
    intro entry member
    split
    · exact (mem_insertHold seq inner lane.rxHold entry).mpr (Or.inr member)
    · exact member
  obtain ⟨done, reach, accounted, clear⟩ := Receives.release short _ lane.rxCumulative released kept
  refine ⟨done, reach, fun entry member => accounted entry (old entry member), ?_⟩
  have within := done.tracks.within
  have bounds : ∀ entry ∈ after.rxHold, after.rxCumulative + 2 ≤ entry.1 ∧ entry.1 < 2 ^ 32 := by
    intro entry member
    have listed : (entry.1, entry.2) ∈ after.rxHold := member
    have entryNamed := (done.tracks.named entry.1 entry.2 (lookup_of_mem done.ordered listed)).2
    have inside := (List.getElem?_eq_some_iff.mp entryNamed).1
    exact ⟨clear entry member, by omega⟩
  obtain ⟨small, set⟩ := selectiveBits_spec after.rxCumulative after.rxHold 0 bounds (by decide)
  refine ⟨Nat.le_refl _, small, fun bit up => ?_⟩
  rcases set bit up with none | held
  · rw [Nat.zero_testBit] at none
    cases none
  · exact Or.inr held

theorem releaseHold_length (hold : List (Nat × Bytes)) :
    ∀ cumulative, (releaseHold hold cumulative).1.length ≤ hold.length := by
  induction hold with
  | nil => exact fun _ => Nat.le_refl _
  | cons first rest ih =>
      intro cumulative
      obtain ⟨seq, inner⟩ := first
      simp only [releaseHold]
      split
      · exact Nat.succ_le_succ (ih _)
      · exact Nat.zero_le _

/-- One frame releases no more than a window. -/
theorem Receives.deliver_length {log : List Bytes} {lane : CarrierLane} {released : List Bytes}
    (receives : Receives log lane.config.window lane.rxCumulative lane.rxHold released)
    (seq : Nat) (inner : Bytes) (named : log[seq - 1]? = some inner) :
    (lane.onData seq inner).2.1.length ≤ lane.config.window :=
  Nat.le_trans (releaseHold_length _ _) (receives.store seq inner named).hold_length

/-- What `OnAck` leaves alone: numbering, configuration and the receiving half. -/
def core (lane : CarrierLane) : CarrierLaneConfig × Nat × Nat × List (Nat × Bytes) :=
  (lane.config, lane.nextTxSeq, lane.rxCumulative, lane.rxHold)

theorem sampleRtt_core (lane : CarrierLane) (sampleMs : Int) :
    (lane.sampleRtt sampleMs).core = lane.core := by
  unfold sampleRtt
  dsimp only
  split <;> rfl

theorem noteSkip_frame (lane : CarrierLane) (ack : LaneAckFields) (frame : LaneFrame)
    (now : Int) : (lane.noteSkip ack frame now).seq = frame.seq ∧
      (lane.noteSkip ack frame now).wire = frame.wire := by
  unfold noteSkip
  split <;> exact ⟨rfl, rfl⟩

theorem settle_core (ack : LaneAckFields) (now : Int) (frames : List LaneFrame) :
    ∀ lane : CarrierLane, (settle ack now frames lane).1.core = lane.core := by
  induction frames with
  | nil => intro lane; rfl
  | cons frame rest ih =>
      intro lane
      simp only [settle]
      split
      · rw [ih]
        split
        · exact sampleRtt_core lane _
        · rfl
      · exact ih lane

/-- Only covered frames leave, and those that stay keep number and wire. -/
theorem settle_frames (ack : LaneAckFields) (now : Int) (frames : List LaneFrame) :
    ∀ lane : CarrierLane,
    (∀ frame ∈ frames, ack.covers frame.seq = true ∨
      ∃ kept ∈ (settle ack now frames lane).2, kept.seq = frame.seq) ∧
    (∀ kept ∈ (settle ack now frames lane).2, ∃ frame ∈ frames,
      kept.seq = frame.seq ∧ kept.wire = frame.wire) ∧
    (settle ack now frames lane).2.length ≤ frames.length := by
  induction frames with
  | nil =>
      intro lane
      refine ⟨?_, ?_, Nat.le_refl _⟩
      · exact fun _ absent => absurd absent List.not_mem_nil
      · exact fun _ absent => absurd absent List.not_mem_nil
  | cons frame rest ih =>
      intro lane
      simp only [settle]
      by_cases covered : ack.covers frame.seq = true
      · rw [if_pos covered]
        obtain ⟨left, stays, count⟩ :=
          ih (if frame.attempts = 1 then lane.sampleRtt (now - frame.sentMs) else lane)
        refine ⟨?_, ?_, by rw [List.length_cons]; omega⟩
        · intro other member
          rcases List.mem_cons.mp member with same | later
          · rw [same]
            exact Or.inl covered
          · exact left other later
        · intro kept member
          obtain ⟨other, inside, same⟩ := stays kept member
          exact ⟨other, List.mem_cons_of_mem _ inside, same⟩
      · rw [if_neg covered]
        obtain ⟨left, stays, count⟩ := ih lane
        have same := noteSkip_frame lane ack frame now
        refine ⟨?_, ?_, by simp only [List.length_cons]; omega⟩
        · intro other member
          rcases List.mem_cons.mp member with first | later
          · rw [first]
            exact Or.inr ⟨_, List.mem_cons_self .., same.1⟩
          · rcases left other later with gone | ⟨kept, inside, number⟩
            · exact Or.inl gone
            · exact Or.inr ⟨kept, List.mem_cons_of_mem _ inside, number⟩
        · intro kept member
          rcases List.mem_cons.mp member with first | later
          · rw [first]
            exact ⟨frame, List.mem_cons_self .., same⟩
          · obtain ⟨other, inside, number⟩ := stays kept later
            exact ⟨other, List.mem_cons_of_mem _ inside, number⟩

theorem resendFrame_frame (lane : CarrierLane) (now : Int) (frame : LaneFrame) :
    (lane.resendFrame now frame).1.seq = frame.seq ∧
      (lane.resendFrame now frame).1.wire = frame.wire ∧
      ∀ wire ∈ (lane.resendFrame now frame).2.1, wire = frame.wire := by
  unfold resendFrame
  split
  · exact ⟨rfl, rfl, fun _ absent => absurd absent List.not_mem_nil⟩
  · split
    · exact ⟨rfl, rfl, fun _ absent => absurd absent List.not_mem_nil⟩
    · exact ⟨rfl, rfl, fun wire member => List.mem_singleton.mp member⟩

end CarrierLane

namespace LaneEnd

open CarrierLane (Receives Has Vouches)

/-- What an end may have given to the carrier: a frame it wrapped, or an ack it
can still vouch for. -/
inductive Emitted (wrapped : List Bytes) (cumulative : Nat) (hold : List (Nat × Bytes)) :
    Bytes → Prop where
  | data (seq : Nat) (inner : Bytes) (positive : 0 < seq) (named : wrapped[seq - 1]? = some inner) :
      Emitted wrapped cumulative hold (AmpAdpCarrier.encodeLaneData seq inner)
  | ack (ack : LaneAckFields) (vouches : Vouches cumulative hold ack) :
      Emitted wrapped cumulative hold (AmpAdpCarrier.encodeLaneAck ack)

theorem Emitted.mono {wrapped longer : List Bytes} {cumulative reached : Nat}
    {hold kept : List (Nat × Bytes)} {payload : Bytes}
    (emitted : Emitted wrapped cumulative hold payload) (grown : wrapped <+: longer)
    (reach : cumulative ≤ reached)
    (accounted : ∀ entry ∈ hold, entry.1 ≤ reached ∨ entry ∈ kept) :
    Emitted longer reached kept payload := by
  cases emitted with
  | data seq inner positive named =>
      exact .data seq inner positive (Reorder.entry_of_grown grown named)
  | ack ack vouches => exact .ack ack (vouches.mono reach accounted)

/-- An end by itself: its numbering, the frames it keeps and all it has sent. -/
structure Own (config : CarrierLaneConfig) (this : LaneEnd) : Prop where
  tuned : this.lane.config = config
  next : this.lane.nextTxSeq = (this.wrapped.length + 1) % 2 ^ 32
  frames : ∀ frame ∈ this.lane.outstanding, 0 < frame.seq ∧ ∃ inner,
    this.wrapped[frame.seq - 1]? = some inner ∧
      frame.wire = AmpAdpCarrier.encodeLaneData frame.seq inner
  count : this.lane.outstanding.length ≤ config.window
  sent : ∀ payload ∈ this.sent,
    Emitted this.wrapped this.lane.rxCumulative this.lane.rxHold payload

/-- A sender against its receiver: what was released is in order, and a number
that is no longer kept is delivered or held. -/
structure Flow (sender receiver : LaneEnd) : Prop where
  receives : Receives sender.wrapped receiver.lane.config.window receiver.lane.rxCumulative
    receiver.lane.rxHold receiver.released
  accounted : ∀ seq, 0 < seq → seq ≤ sender.wrapped.length →
    (∃ frame ∈ sender.lane.outstanding, frame.seq = seq) ∨
      Has receiver.lane.rxCumulative receiver.lane.rxHold seq

structure Joined (config : CarrierLaneConfig) (this peer : LaneEnd) : Prop where
  own : Own config this
  other : Own config peer
  outward : Flow this peer
  inward : Flow peer this

theorem Joined.symm {config : CarrierLaneConfig} {this peer : LaneEnd}
    (joined : Joined config this peer) : Joined config peer this :=
  ⟨joined.other, joined.own, joined.inward, joined.outward⟩

/-- More payloads on the carrier. -/
def emit (this : LaneEnd) (payloads : List Bytes) : LaneEnd :=
  { this with sent := this.sent ++ payloads }

def onLane (this : LaneEnd) (lane : CarrierLane) : LaneEnd := { this with lane := lane }

section Keeps

variable {config : CarrierLaneConfig} {this peer : LaneEnd}

theorem Own.emit (own : Own config this) (payloads : List Bytes)
    (emitted : ∀ payload ∈ payloads,
      Emitted this.wrapped this.lane.rxCumulative this.lane.rxHold payload) :
    Own config (this.emit payloads) := by
  refine ⟨own.tuned, own.next, own.frames, own.count, ?_⟩
  intro payload member
  rcases List.mem_append.mp member with old | new
  · exact own.sent payload old
  · exact emitted payload new

theorem Joined.emit (joined : Joined config this peer) (payloads : List Bytes)
    (emitted : ∀ payload ∈ payloads,
      Emitted this.wrapped this.lane.rxCumulative this.lane.rxHold payload) :
    Joined config (this.emit payloads) peer :=
  ⟨joined.own.emit payloads emitted, joined.other,
    ⟨joined.outward.receives, joined.outward.accounted⟩,
    ⟨joined.inward.receives, joined.inward.accounted⟩⟩

theorem core_fields {lane before : CarrierLane} (same : lane.core = before.core) :
    lane.config = before.config ∧ lane.nextTxSeq = before.nextTxSeq ∧
      lane.rxCumulative = before.rxCumulative ∧ lane.rxHold = before.rxHold := by
  simpa only [CarrierLane.core, Prod.mk.injEq] using same

/-- A lane that only touched its frames, letting go of none but those the peer has. -/
theorem Joined.onLane (joined : Joined config this peer) {lane : CarrierLane}
    (same : lane.core = this.lane.core)
    (origin : ∀ kept ∈ lane.outstanding, ∃ frame ∈ this.lane.outstanding,
      kept.seq = frame.seq ∧ kept.wire = frame.wire)
    (count : lane.outstanding.length ≤ this.lane.outstanding.length)
    (settled : ∀ frame ∈ this.lane.outstanding,
      (∃ kept ∈ lane.outstanding, kept.seq = frame.seq) ∨
        Has peer.lane.rxCumulative peer.lane.rxHold frame.seq) :
    Joined config (this.onLane lane) peer := by
  obtain ⟨tuned, next, cumulative, hold⟩ := core_fields same
  have own := joined.own
  have inward := joined.inward
  refine ⟨⟨?_, ?_, ?_, ?_, ?_⟩, joined.other, ⟨joined.outward.receives, ?_⟩, ⟨?_, ?_⟩⟩
  · exact tuned.trans own.tuned
  · exact next.trans own.next
  · intro kept member
    obtain ⟨frame, inside, number, wire⟩ := origin kept member
    rw [number, wire]
    exact own.frames frame inside
  · exact Nat.le_trans count own.count
  · intro payload member
    dsimp only [LaneEnd.onLane]
    rw [cumulative, hold]
    exact own.sent payload member
  · intro seq positive within
    rcases joined.outward.accounted seq positive within with ⟨frame, inside, rfl⟩ | has
    · exact settled frame inside
    · exact Or.inr has
  · dsimp only [LaneEnd.onLane]
    rw [tuned, cumulative, hold]
    exact inward.receives
  · intro seq positive within
    dsimp only [LaneEnd.onLane]
    rw [cumulative, hold]
    exact inward.accounted seq positive within

theorem Joined.wrap (joined : Joined config this peer) (inner : Bytes) (now : Int)
    (short : (this.wrap inner now).wrapped.length < 2 ^ 32) :
    Joined config (this.wrap inner now) peer := by
  have own := joined.own
  unfold LaneEnd.wrap CarrierLane.wrap at short ⊢
  by_cases full : this.lane.config.window ≤ this.lane.outstanding.length
  · simp only [full, ↓reduceIte]
    exact joined
  · simp only [full, ↓reduceIte, List.length_append, List.length_singleton] at short ⊢
    have room := own.tuned ▸ full
    have next : this.lane.nextTxSeq = this.wrapped.length + 1 := by
      rw [own.next]
      exact Nat.mod_eq_of_lt short
    have number : this.lane.nextTxSeq - 1 = this.wrapped.length := by rw [next]; omega
    have named : (this.wrapped ++ [inner])[this.lane.nextTxSeq - 1]? = some inner := by
      rw [number, List.getElem?_concat_length]
    have grown : this.wrapped <+: this.wrapped ++ [inner] := List.prefix_append ..
    have positive : 0 < this.lane.nextTxSeq := by rw [next]; omega
    refine ⟨⟨own.tuned, ?_, ?_, ?_, ?_⟩, joined.other, ⟨joined.outward.receives.grow grown, ?_⟩,
      ⟨joined.inward.receives, joined.inward.accounted⟩⟩
    · dsimp only
      rw [next, List.length_append, List.length_singleton]
    · intro frame member
      rcases List.mem_append.mp member with old | new
      · obtain ⟨above, item, entry, wire⟩ := own.frames frame old
        exact ⟨above, item, Reorder.entry_of_grown grown entry, wire⟩
      · rw [List.mem_singleton.mp new]
        exact ⟨positive, inner, named, rfl⟩
    · dsimp only
      rw [List.length_append, List.length_singleton]
      omega
    · intro payload member
      rcases List.mem_append.mp member with old | new
      · exact (own.sent payload old).mono grown (Nat.le_refl _) fun entry held => Or.inr held
      · rw [List.mem_singleton.mp new]
        exact .data _ inner positive named
    · intro seq above within
      dsimp only at within ⊢
      rw [List.length_append, List.length_singleton] at within
      by_cases last : seq = this.lane.nextTxSeq
      · exact Or.inl ⟨_, List.mem_append_right _ (List.mem_singleton_self _), last.symm⟩
      · have inside : seq ≤ this.wrapped.length := by omega
        rcases joined.outward.accounted seq above inside with ⟨frame, member, same⟩ | has
        · exact Or.inl ⟨frame, List.mem_append_left _ member, same⟩
        · exact Or.inr has

theorem Joined.dueResends (joined : Joined config this peer) (now : Int) :
    Joined config (this.step (.dueResends now)) peer := by
  have frame_of (frame : LaneFrame) := CarrierLane.resendFrame_frame this.lane now frame
  have kept : Joined config (this.onLane (this.lane.dueResends now).1) peer := by
    apply joined.onLane
    · rfl
    · intro kept member
      simp only [CarrierLane.dueResends, List.map_map, List.mem_map, Function.comp_apply] at member
      obtain ⟨frame, inside, rfl⟩ := member
      exact ⟨frame, inside, (frame_of frame).1, (frame_of frame).2.1⟩
    · simp [CarrierLane.dueResends]
    · intro frame inside
      refine Or.inl ⟨(this.lane.resendFrame now frame).1, ?_, (frame_of frame).1⟩
      simp only [CarrierLane.dueResends, List.map_map]
      exact List.mem_map_of_mem inside
  apply kept.emit (this.lane.dueResends now).2
  intro payload member
  simp only [CarrierLane.dueResends, List.mem_flatMap, List.mem_map] at member
  obtain ⟨turn, ⟨frame, inside, rfl⟩, resent⟩ := member
  obtain ⟨positive, inner, named, wire⟩ := joined.own.frames frame inside
  rw [(frame_of frame).2.2 payload resent, wire]
  exact .data frame.seq inner positive named

/-- A probe acknowledges nothing. -/
theorem Joined.probe (joined : Joined config this peer) :
    Joined config (this.step .probe) peer := by
  apply joined.emit
  intro payload member
  rw [List.mem_singleton.mp member]
  refine .ack {} ⟨Nat.zero_le _, by decide, ?_⟩
  intro bit set
  rw [Nat.zero_testBit] at set
  cases set

theorem Joined.notePeerSpeaksLane (joined : Joined config this peer) :
    Joined config (this.onLane this.lane.notePeerSpeaksLane) peer := by
  apply joined.onLane
  · rfl
  · exact fun kept member => ⟨kept, member, rfl, rfl⟩
  · exact Nat.le_refl _
  · exact fun frame member => Or.inl ⟨frame, member, rfl⟩

/-- An ack lets go only of what its sender had when it sent it, and has still. -/
theorem Joined.onAck (joined : Joined config this peer) (short : this.wrapped.length < 2 ^ 32)
    (ack : LaneAckFields) (vouches : Vouches peer.lane.rxCumulative peer.lane.rxHold ack)
    (now : Int) : Joined config (this.onLane (this.lane.onAck ack now)) peer := by
  obtain ⟨left, stays, count⟩ := CarrierLane.settle_frames ack now this.lane.outstanding this.lane
  have within := joined.outward.receives.tracks.within
  apply joined.onLane
  · exact CarrierLane.settle_core ack now this.lane.outstanding this.lane
  · exact stays
  · exact count
  · intro frame inside
    rcases left frame inside with covered | kept
    · obtain ⟨_, inner, named, _⟩ := joined.own.frames frame inside
      have bound := (List.getElem?_eq_some_iff.mp named).1
      exact Or.inr (vouches.covered (by omega) (by omega) covered)
    · exact Or.inl kept

/-- A data frame of the peer's: what it releases, and the ack it is answered with. -/
def onData (this : LaneEnd) (seq : Nat) (inner : Bytes) : LaneEnd :=
  { this with
    lane := (this.lane.onData seq inner).1
    released := this.released ++ (this.lane.onData seq inner).2.1
    sent := this.sent ++ [AmpAdpCarrier.encodeLaneAck (this.lane.onData seq inner).2.2] }

theorem Joined.onData (joined : Joined config this peer) (short : peer.wrapped.length < 2 ^ 32)
    (seq : Nat) (inner : Bytes) (named : peer.wrapped[seq - 1]? = some inner) :
    Joined config (this.onData seq inner) peer := by
  have own := joined.own
  have spec := CarrierLane.onData_spec short seq inner named joined.inward.receives
  dsimp only at spec
  obtain ⟨receives, reach, accounted, vouches⟩ := spec
  refine ⟨⟨own.tuned, own.next, own.frames, own.count, ?_⟩, joined.other,
    ⟨joined.outward.receives, joined.outward.accounted⟩, ⟨receives, ?_⟩⟩
  · intro payload member
    rcases List.mem_append.mp member with old | new
    · exact (own.sent payload old).mono (List.prefix_refl _) reach accounted
    · rw [List.mem_singleton.mp new]
      exact .ack _ vouches
  · intro number positive within
    rcases joined.inward.accounted number positive within with kept | has
    · exact Or.inl kept
    · exact Or.inr (has.mono reach accounted)

theorem Joined.receive (joined : Joined config this peer) (short : this.wrapped.length < 2 ^ 32)
    (peerShort : peer.wrapped.length < 2 ^ 32) (payload : Bytes) (now : Int)
    (sent : payload ∈ peer.sent) : Joined config (this.receive payload now) peer := by
  have noted := joined.notePeerSpeaksLane
  unfold LaneEnd.receive
  cases joined.other.sent payload sent with
  | data seq inner positive named =>
      have notAck : (AmpAdpCarrier.encodeLaneData seq inner).head? ≠
          some AmpAdpPayloadKind.laneAck.code := by simp [AmpAdpCarrier.encodeLaneData]; decide
      have isData : (AmpAdpCarrier.encodeLaneData seq inner).head? =
          some AmpAdpPayloadKind.laneData.code := rfl
      have bound := (List.getElem?_eq_some_iff.mp named).1
      rw [if_neg notAck, if_pos isData]
      split
      · exact noted
      · rename_i number item ok
        have same := AmpAdpCarrier.decodeLaneData_encode seq inner (by omega) _ ok
        cases same
        exact noted.onData peerShort seq inner named
  | ack ack vouches =>
      have within := joined.outward.receives.tracks.within
      have edge := vouches.edge
      have isAck : (AmpAdpCarrier.encodeLaneAck ack).head? =
          some AmpAdpPayloadKind.laneAck.code := rfl
      rw [if_pos isAck, AmpAdpCarrier.decodeLaneAck_encode ack (by omega) vouches.bits]
      exact noted.onAck short ack vouches now

end Keeps

theorem receive_wrapped (this : LaneEnd) (payload : Bytes) (now : Int) :
    (this.receive payload now).wrapped = this.wrapped := by
  unfold LaneEnd.receive
  split
  · split <;> rfl
  · split
    · split <;> rfl
    · rfl

theorem step_wrapped (this : LaneEnd) (event : Event) :
    this.wrapped <+: (this.step event).wrapped := by
  cases event with
  | wrap inner now =>
      unfold LaneEnd.step LaneEnd.wrap
      dsimp only
      split
      · exact List.prefix_refl _
      · exact List.prefix_append ..
  | dueResends now => exact List.prefix_refl _
  | probe => exact List.prefix_refl _
  | receive payload now =>
      unfold LaneEnd.step
      rw [receive_wrapped]

theorem Joined.step {config : CarrierLaneConfig} {this peer : LaneEnd}
    (joined : Joined config this peer) (event : Event)
    (short : (this.step event).wrapped.length < 2 ^ 32) (peerShort : peer.wrapped.length < 2 ^ 32)
    (honest : ∀ payload now, event = .receive payload now → payload ∈ peer.sent) :
    Joined config (this.step event) peer := by
  cases event with
  | wrap inner now => exact joined.wrap inner now short
  | dueResends now => exact joined.dueResends now
  | probe => exact joined.probe
  | receive payload now =>
      have before : this.wrapped.length < 2 ^ 32 := by
        rw [← receive_wrapped this payload now]
        exact short
      exact joined.receive before peerShort payload now (honest payload now rfl)

/-- A lane on the carrier: its payloads reach the other end at some time. -/
abbrev carrier : Duplex.Machine LaneEnd Event Bytes Int where
  step := LaneEnd.step
  sent := LaneEnd.sent
  arrive now payload := .receive payload now
  arrive_item _ _ _ _ same := by
    injection same

def opened (config : CarrierLaneConfig) : Duplex.Ends LaneEnd where
  left := { lane := .create config }
  right := { lane := .create config }

theorem opened_joined (config : CarrierLaneConfig) : (opened config).Both (Joined config) := by
  have own : Own config { lane := .create config } :=
    ⟨rfl, rfl, fun _ absent => absurd absent List.not_mem_nil, Nat.zero_le _,
      fun _ absent => absurd absent List.not_mem_nil⟩
  have flow : Flow { lane := .create config } { lane := .create config } := by
    refine ⟨⟨Reorder.tracks_empty [], List.Pairwise.nil, ?_⟩, ?_⟩
    · exact fun _ absent => absurd absent List.not_mem_nil
    · intro seq positive within
      exact absurd positive (Nat.not_lt.mpr within)
  exact ⟨⟨own, own, flow, flow⟩, ⟨own, own, flow, flow⟩⟩

/-- Fewer than 2^31 frames wrapped. -/
def Short (this _peer : LaneEnd) : Prop := this.wrapped.length < 2 ^ 31

/-- The 32-bit numbers are only meaningful in short runs; a run that ends short
was short all along, so the invariant is carried under that condition. -/
theorem step_joined (config : CarrierLaneConfig) (ends : Duplex.Ends LaneEnd)
    (act : Duplex.Side × Duplex.Action carrier)
    (joined : ends.Both Short → ends.Both (Joined config))
    (short : (Duplex.step carrier ends act).Both Short) :
    (Duplex.step carrier ends act).Both (Joined config) := by
  have grown (side : Duplex.Side) := Duplex.step_grows carrier
    (fun before after => before.wrapped <+: after.wrapped) (fun _ => List.prefix_refl _)
    step_wrapped ends act side
  have before : ends.Both Short :=
    ⟨Nat.lt_of_le_of_lt (grown .left).length_le short.1,
      Nat.lt_of_le_of_lt (grown .right).length_le short.2⟩
  have made_short : ∀ made, Duplex.event carrier ends act.1 act.2 = some made →
      ((ends.endAt act.1).step made).wrapped.length < 2 ^ 31 := by
    intro made makes
    have after := short.endAt act.1
    rwa [Short, (Duplex.step_endAt carrier ends act.1 act.2 made makes).1] at after
  have peer_short : (ends.endAt act.1.other).wrapped.length < 2 ^ 31 := before.endAt act.1.other
  have one : ∀ made, Duplex.event carrier ends act.1 act.2 = some made →
      Duplex.Honest carrier (ends.endAt act.1.other) made →
      Joined config (ends.endAt act.1) (ends.endAt act.1.other) →
      Joined config ((ends.endAt act.1).step made) (ends.endAt act.1.other) := by
    intro made makes honest holds
    exact holds.step made ((made_short made makes).trans (by decide)) (peer_short.trans (by decide))
      fun payload now => honest now payload
  apply Duplex.step_both carrier (Joined config) ends act (joined before)
  · exact one
  · intro made makes honest holds
    exact (one made makes honest holds.symm).symm

/-- What a lane promises its sender and receiver. -/
structure Faithful (config : CarrierLaneConfig) (sender receiver : LaneEnd) : Prop where
  inOrder : receiver.released <+: sender.wrapped
  kept : ∀ index inner, sender.wrapped[index]? = some inner →
    (∃ frame ∈ sender.lane.outstanding, frame.seq = index + 1) ∨
      index < receiver.released.length ∨ (index + 1, inner) ∈ receiver.lane.rxHold
  held : receiver.lane.rxHold.length ≤ config.window
  inFlight : sender.lane.outstanding.length ≤ config.window

theorem Joined.faithful {config : CarrierLaneConfig} {sender receiver : LaneEnd}
    (joined : Joined config sender receiver) : Faithful config sender receiver := by
  obtain ⟨receives, accounted⟩ := joined.outward
  refine ⟨receives.tracks.out_isPrefix, ?_, ?_, joined.own.count⟩
  · intro index inner named
    have inside := (List.getElem?_eq_some_iff.mp named).1
    rcases accounted (index + 1) (by omega) (by omega) with kept | delivered | ⟨item, member⟩
    · exact Or.inl kept
    · rw [receives.tracks.out_length]
      exact Or.inr (Or.inl (by omega))
    · have found := CarrierLane.lookup_of_mem receives.ordered member
      have entry := (receives.tracks.named (index + 1) item found).2
      rw [Nat.add_sub_cancel, named] at entry
      rw [Option.some.inj entry]
      exact Or.inr (Or.inr member)
  · have bound := receives.hold_length
    rwa [joined.other.tuned] at bound

/-- Two lanes of one configuration, over any interleaving and any carrier: the
wires released are the wires wrapped, in order and each once; a frame is let go
only when the receiver has it; neither side keeps more than a window. -/
theorem lane_exactly_once (config : CarrierLaneConfig)
    (run : List (Duplex.Side × Duplex.Action carrier))
    (short : (Run.exec (Duplex.step carrier) (opened config) run).Both Short) :
    (Run.exec (Duplex.step carrier) (opened config) run).Both (Faithful config) := by
  have reached := Run.invariant_always (Duplex.step carrier)
    (fun ends => ends.Both Short → ends.Both (Joined config)) (step_joined config) run
    (opened config) fun _ => opened_joined config
  exact ⟨(reached short).1.faithful, (reached short).2.faithful⟩

theorem lane_exactly_once_sample :
    let run : List (Duplex.Side × Duplex.Action carrier) := [
      (.left, .call .probe (by simp)), (.right, .deliver 0 0),
      (.left, .call (.wrap [1] 0) (by simp)), (.left, .call (.wrap [2] 0) (by simp)),
      (.left, .call (.wrap [3] 0) (by simp)),
      (.right, .deliver 3 5), (.left, .deliver 0 9), (.left, .call (.dueResends 600) (by simp)),
      (.right, .deliver 4 700), (.right, .deliver 5 701), (.right, .deliver 1 702),
      (.left, .deliver 2 800)]
    let ends := Run.exec (Duplex.step carrier) (opened {}) run
    ends.right.released = [[1], [2], [3]] ∧ ends.left.lane.outstanding = [] ∧
      ends.Both (Faithful {}) :=
  ⟨by decide +kernel, by decide +kernel,
    lane_exactly_once {} _ ⟨by unfold Short; decide +kernel, by unfold Short; decide +kernel⟩⟩

end LaneEnd

end Amp
