import Amp.Link.LinkIdentity
import Mathlib.Data.String.Basic

set_option autoImplicit false

/- Which of two links to one peer is kept (DualDialElector.cpp), and when the two
ends of the links choose alike. -/
namespace Amp

/-- Which argument of `Elect` wins. -/
inductive Winner where
  | existing
  | candidate
  deriving DecidableEq, Repr

/-- `DualDialElector::Elect`. -/
def elect (existing candidate : PeerLink) (localPeerId : String) : Winner :=
  let remote := if existing.remotePeerId = "" then candidate.remotePeerId else existing.remotePeerId
  let existingKeepOut := existing.outbound && remote != "" && decide (remote < localPeerId)
  let candKeepOut := candidate.outbound && remote != "" && decide (remote < localPeerId)
  if candKeepOut && !existingKeepOut then .candidate
  else if existingKeepOut then .existing
  else if existing.outbound && !candidate.outbound then .candidate
  else if candidate.outbound && !existing.outbound then .existing
  else if !existing.outbound && !candidate.outbound then .candidate
  else .existing

section Elections

variable {existing candidate : PeerLink} {peer : String}

/-- Two dials of this end: the older stays. -/
theorem elect_both_outbound (own : existing.outbound = true) (again : candidate.outbound = true)
    (localPeerId : String) : elect existing candidate localPeerId = .existing := by
  unfold elect
  simp only [own, again, Bool.true_and, Bool.not_true, Bool.and_false, Bool.and_not_self]
  split_ifs <;> simp_all

/-- Two dials of the other end: the newer stays. -/
theorem elect_both_inbound (own : existing.outbound = false) (again : candidate.outbound = false)
    (localPeerId : String) : elect existing candidate localPeerId = .candidate := by
  unfold elect
  simp [own, again]

/-- Crossed dials: the greater id keeps its own, the other end the one it accepted. -/
theorem elect_crossed (toPeer : existing.remotePeerId = peer) (same : candidate.remotePeerId = peer)
    (crossed : candidate.outbound = !existing.outbound) (localPeerId : String) :
    elect existing candidate localPeerId =
      if (decide (peer ≠ "" ∧ peer < localPeerId)) = existing.outbound then .existing
      else .candidate := by
  unfold elect
  rw [toPeer, same, crossed, ite_self]
  by_cases known : peer = ""
  · cases existing.outbound <;> simp [known]
  · by_cases greater : peer < localPeerId <;> cases existing.outbound <;> simp [known, greater]

end Elections

inductive Side where
  | left
  | right
  deriving DecidableEq, Repr

inductive Dial where
  | first
  | second
  deriving DecidableEq, Repr

def Side.other : Side → Side
  | .left => .right
  | .right => .left

def Dial.other : Dial → Dial
  | .first => .second
  | .second => .first

/-- Two sessions between two peers: who dialed each, and the link each end has of it. -/
structure DualSessions where
  peerId : Side → String
  distinct : peerId .left ≠ peerId .right
  dialer : Dial → Side
  link : Side → Dial → PeerLink
  toPeer : ∀ side dial, (link side dial).remotePeerId = peerId side.other
  outbound : ∀ side dial, (link side dial).outbound = decide (dialer dial = side)

namespace DualSessions

/-- The session an end keeps when `earlier` completes there first: `Elect` with the
link already up as `existing`. -/
def kept (sessions : DualSessions) (side : Side) (earlier : Dial) : Dial :=
  match elect (sessions.link side earlier) (sessions.link side earlier.other)
      (sessions.peerId side) with
  | .existing => earlier
  | .candidate => earlier.other

theorem not_lt_empty (peer : String) : ¬ peer < "" := by
  rw [String.lt_iff_toList_lt]
  exact List.not_lt_nil _

/-- The dialer of both keeps the session that came up first, the other end the last. -/
theorem kept_same_dialer (sessions : DualSessions)
    (same : sessions.dialer .first = sessions.dialer .second) (side : Side) (earlier : Dial) :
    sessions.kept side earlier =
      if sessions.dialer .first = side then earlier else earlier.other := by
  have both (dial : Dial) : sessions.dialer dial = sessions.dialer .first := by
    cases dial
    · rfl
    · exact same.symm
  have direction (dial : Dial) : (sessions.link side dial).outbound =
      decide (sessions.dialer .first = side) := by
    rw [sessions.outbound, both]
  unfold kept
  by_cases own : sessions.dialer .first = side
  · rw [elect_both_outbound (by simp [direction, own]) (by simp [direction, own]), if_pos own]
  · rw [elect_both_inbound (by simp [direction, own]) (by simp [direction, own]), if_neg own]

/-- An end that keeps its own dial: its id is the greater one. -/
def KeepsOwn (sessions : DualSessions) (side : Side) : Prop :=
  sessions.peerId side.other ≠ "" ∧ sessions.peerId side.other < sessions.peerId side

instance (sessions : DualSessions) (side : Side) : Decidable (sessions.KeepsOwn side) :=
  inferInstanceAs (Decidable (_ ∧ _))

/-- Of crossed dials the greater id's own is kept, whatever came up first. -/
theorem kept_crossed (sessions : DualSessions)
    (crossed : sessions.dialer .first ≠ sessions.dialer .second) (side : Side) (earlier : Dial) :
    sessions.dialer (sessions.kept side earlier) =
      if sessions.KeepsOwn side then side else side.other := by
  have opposite : sessions.dialer earlier.other ≠ sessions.dialer earlier := by
    cases earlier
    · exact fun same => crossed same.symm
    · exact fun same => crossed same
  have other {one two : Side} (apart : one ≠ two) : one = two.other := by
    cases one <;> cases two <;> first | rfl | exact absurd rfl apart
  have direction : (sessions.link side earlier.other).outbound =
      !(sessions.link side earlier).outbound := by
    rw [sessions.outbound, sessions.outbound, ← decide_not, decide_eq_decide]
    constructor
    · exact fun own earlier => opposite (own.trans earlier.symm)
    · intro apart
      rw [other opposite, other apart]
      cases side <;> rfl
  unfold kept
  rw [elect_crossed (sessions.toPeer side earlier) (sessions.toPeer side _) direction,
    sessions.outbound]
  by_cases greater : sessions.KeepsOwn side
  · rw [if_pos greater, decide_eq_true (p := _ ∧ _) greater]
    by_cases own : sessions.dialer earlier = side
    · simp [own]
    · rw [decide_eq_false own, if_neg (by simp)]
      show sessions.dialer earlier.other = side
      rw [other opposite, other own]
      cases side <;> rfl
  · rw [if_neg greater, decide_eq_false (p := _ ∧ _) greater]
    by_cases own : sessions.dialer earlier = side
    · rw [decide_eq_true own, if_neg (by simp)]
      show sessions.dialer earlier.other = side.other
      rw [other opposite, own]
    · rw [decide_eq_false own, if_pos rfl]
      exact other own

/-- The ends keep the same session exactly when the dials crossed between known
peers, or one peer dialed both and the ends saw them complete in opposite orders. -/
theorem ends_agree_iff (sessions : DualSessions) (leftEarlier rightEarlier : Dial) :
    sessions.kept .left leftEarlier = sessions.kept .right rightEarlier ↔
      (sessions.dialer .first ≠ sessions.dialer .second ∧ sessions.peerId .left ≠ "" ∧
        sessions.peerId .right ≠ "") ∨
      (sessions.dialer .first = sessions.dialer .second ∧ leftEarlier ≠ rightEarlier) := by
  have flips (one two : Dial) : (one = two.other ↔ one ≠ two) ∧ (one.other = two ↔ one ≠ two) := by
    cases one <;> cases two <;> simp [Dial.other]
  by_cases same : sessions.dialer .first = sessions.dialer .second
  · rw [kept_same_dialer sessions same, kept_same_dialer sessions same]
    rw [← same]
    cases sessions.dialer .first <;> simp [flips]
  · have crossed := kept_crossed sessions same
    have decides (one two : Dial) :
        one = two ↔ sessions.dialer one = sessions.dialer two := by
      refine ⟨fun equal => congrArg _ equal, fun equal => ?_⟩
      cases one <;> cases two
      · rfl
      · exact absurd equal same
      · exact absurd equal.symm same
      · rfl
    rw [decides, crossed, crossed]
    simp only [ne_eq, same, not_false_eq_true, true_and, false_and, or_false]
    rcases lt_or_gt_of_ne sessions.distinct with less | greater
    · have yields : ¬ sessions.KeepsOwn .left := fun claim => lt_asymm less claim.2
      have named : sessions.peerId .right ≠ "" := by
        intro empty
        exact not_lt_empty _ (empty ▸ less)
      rw [if_neg yields]
      by_cases known : sessions.peerId .left = ""
      · rw [if_neg (fun claim : sessions.KeepsOwn .right => claim.1 known)]
        simp [known, Side.other]
      · rw [if_pos ⟨known, less⟩]
        simp [known, named, Side.other]
    · have yields : ¬ sessions.KeepsOwn .right := fun claim => lt_asymm greater claim.2
      have named : sessions.peerId .left ≠ "" := by
        intro empty
        exact not_lt_empty _ (empty ▸ greater)
      rw [if_neg yields]
      by_cases known : sessions.peerId .right = ""
      · rw [if_neg (fun claim : sessions.KeepsOwn .left => claim.1 known)]
        simp [known, Side.other]
      · rw [if_pos ⟨known, greater⟩]
        simp [known, named, Side.other]

/-- One peer dials twice, as a burst does, and both sessions come up in that order at
both ends. -/
def burst : DualSessions where
  peerId | .left => "alice" | .right => "bob"
  distinct := by decide
  dialer := fun _ => .left
  link := fun side dial => {
    id := if dial = .first then 1 else 2
    generation := 1
    peerKey := "key"
    remotePeerId := if side = .left then "bob" else "alice"
    outbound := side = .left
    isCarrierBacked := false
    phase := .connected }
  toPeer := by rintro (_ | _) (_ | _) <;> rfl
  outbound := by rintro (_ | _) (_ | _) <;> rfl

/-- The dialer keeps the first session, the other end the second. -/
theorem burst_keeps_both_apart :
    burst.kept .left .first = .first ∧ burst.kept .right .first = .second := by
  decide

end DualSessions

end Amp
