import Amp.Lib.Pieces
import Amp.L3.MessageReassembly
import Amp.Lib.Run

set_option autoImplicit false

/- What any peer can make a reassembly hold, whatever it puts into its fragments. -/
namespace Amp

open Adp (Bytes)

/-- A partial with a slot for each fragment, within the length its first one declared. -/
structure Partial.Bounded (limit : Nat) (part : Partial) : Prop where
  slots : part.chunks.length = part.fragCount
  positive : 1 ≤ part.fragCount
  few : part.fragCount ≤ part.totalLen
  small : part.totalLen ≤ limit
  counted : part.receivedBytes = (part.chunks.map List.length).sum
  within : part.receivedBytes ≤ part.totalLen

namespace MessageReassembly

def create (maxMessageBytes maxPartials : Nat) (lossy : Bool) : MessageReassembly where
  maxMessageBytes := maxMessageBytes
  maxPartials := maxPartials
  lossy := lossy

structure Bounded (maxMessageBytes maxPartials : Nat) (this : MessageReassembly) : Prop where
  limit : this.maxMessageBytes = maxMessageBytes
  cap : this.maxPartials = maxPartials
  few : this.partials.entries.length ≤ maxPartials
  parts : ∀ msgId part, this.partials.lookup msgId = some part → part.Bounded maxMessageBytes

/-- Of two partials the one that started first goes first, of two that started together the
one of the smaller id. -/
def GoesFirst (msgId : Nat) (part : Partial) (other : Nat) (held : Partial) : Prop :=
  part.startedMs < held.startedMs ∨ part.startedMs = held.startedMs ∧ msgId ≤ other

/-- The partial of a message went to make room in a full reassembly, before any other. -/
def Evicts (before after : MessageReassembly) (msgId : Nat) : Prop :=
  before.lossy = true ∧ before.maxPartials ≤ before.partials.entries.length ∧
    after.partials.lookup msgId = none ∧
    ∃ part, before.partials.lookup msgId = some part ∧
      ∀ other held, before.partials.lookup other = some held → GoesFirst msgId part other held

/-- What comes out of a push, and what a push that fails leaves alone. -/
structure PushKeeps (this : MessageReassembly) (frag : ChannelFragBody) (now : Int) : Prop where
  whole : ∀ message, (this.push frag now).2 = .ok (some message) → message.length = frag.totalLen
  aside : ∀ error, (this.push frag now).2 = .error error → ∀ msgId, msgId ≠ frag.msgId →
    (this.push frag now).1.partials.lookup msgId = this.partials.lookup msgId ∨
      Evicts this (this.push frag now).1 msgId

inductive Event where
  | push (frag : ChannelFragBody) (now : Int)
  | sweepExpired (now timeoutMs : Int)

def step (this : MessageReassembly) : Event → MessageReassembly
  | .push frag now => (this.push frag now).1
  | .sweepExpired now timeoutMs => this.sweepExpired now timeoutMs

section Storage

variable {this : MessageReassembly} {msgId : Nat} {part : Partial}

theorem put_length (present : msgId ∈ this.partials) :
    (this.put msgId part).partials.entries.length = this.partials.entries.length := by
  have keys : (this.put msgId part).partials.keys = msgId :: this.partials.keys.erase msgId :=
    AList.keys_insert this.partials
  have positive : 0 < this.partials.keys.length := List.length_pos_of_mem present
  have size := congrArg List.length keys
  rw [List.length_cons, List.length_erase_of_mem present] at size
  simp only [AList.keys, List.keys, List.length_map] at size positive
  omega

theorem put_length_absent (absent : msgId ∉ this.partials) :
    (this.put msgId part).partials.entries.length = this.partials.entries.length + 1 := by
  have entries : (this.put msgId part).partials.entries = ⟨msgId, part⟩ :: this.partials.entries :=
    AList.entries_insert_of_notMem absent
  rw [entries, List.length_cons]

theorem drop_length_le : (this.drop msgId).partials.entries.length ≤ this.partials.entries.length := by
  have keys : (this.drop msgId).partials.keys = this.partials.keys.erase msgId :=
    AList.keys_erase msgId this.partials
  have size := congrArg List.length keys
  have shrinks := List.length_erase_le (a := msgId) (l := this.partials.keys)
  simp only [AList.keys, List.keys, List.length_map] at size shrinks
  omega

theorem drop_length (present : msgId ∈ this.partials) :
    (this.drop msgId).partials.entries.length + 1 = this.partials.entries.length := by
  have keys : (this.drop msgId).partials.keys = this.partials.keys.erase msgId :=
    AList.keys_erase msgId this.partials
  have positive : 0 < this.partials.keys.length := List.length_pos_of_mem present
  have size := congrArg List.length keys
  rw [List.length_erase_of_mem present] at size
  simp only [AList.keys, List.keys, List.length_map] at size positive
  omega

theorem mem_of_lookup (found : this.partials.lookup msgId = some part) : msgId ∈ this.partials :=
  AList.lookup_isSome.mp (by rw [found]; rfl)

theorem lookup_put (other : Nat) : (this.put msgId part).partials.lookup other =
    if other = msgId then some part else this.partials.lookup other := by
  unfold put
  by_cases same : other = msgId
  · subst same
    simp [AList.lookup_insert]
  · simp [AList.lookup_insert_ne same, same]

theorem lookup_drop (other : Nat) : (this.drop msgId).partials.lookup other =
    if other = msgId then none else this.partials.lookup other := by
  unfold drop
  by_cases same : other = msgId
  · subst same
    simp [AList.lookup_erase]
  · simp [AList.lookup_erase_ne same, same]

end Storage

section Filling

/-- A partial with one more fragment in its slot. -/
def taken (part : Partial) (frag : ChannelFragBody) : Partial :=
  { part with
    receivedBytes := part.receivedBytes + frag.chunk.length
    chunks := part.chunks.set frag.fragIndex frag.chunk }

/-- The fragment belongs to the partial, and there is room for it. -/
structure Takes (part : Partial) (frag : ChannelFragBody) : Prop where
  count : part.fragCount = frag.fragCount
  total : part.totalLen = frag.totalLen
  blank : part.chunks[frag.fragIndex]? = some []
  fits : part.receivedBytes + frag.chunk.length ≤ part.totalLen

/-- A fragment that does not belong, or came before, or is too long, changes nothing. -/
theorem fill_refused {this : MessageReassembly} {frag : ChannelFragBody} {part : Partial}
    (refused : ¬ Takes part frag) :
    (this.fill frag part).1 = this ∧ ∀ message, (this.fill frag part).2 ≠ .ok (some message) := by
  unfold fill
  split
  · exact ⟨rfl, fun _ absurdity => nomatch absurdity⟩
  · rename_i same
    split
    · exact ⟨rfl, fun _ absurdity => nomatch absurdity⟩
    · rename_i blank
      split
      · exact ⟨rfl, fun _ absurdity => nomatch absurdity⟩
      · rename_i fits
        simp only [not_or, not_not] at same blank
        exact absurd ⟨same.1, same.2, blank, Nat.le_of_not_lt fits⟩ refused

/-- A fragment that is taken fills its slot, and ends the message when no slot is blank. -/
theorem fill_taken {this : MessageReassembly} {frag : ChannelFragBody} {part : Partial}
    (takes : Takes part frag) : this.fill frag part =
      if (taken part frag).chunks.any List.isEmpty then
        (this.put frag.msgId (taken part frag), .ok none)
      else if (taken part frag).chunks.flatten.length ≠ part.totalLen then
        (this.put frag.msgId (taken part frag), .error "amp ch: assembled length mismatch")
      else ((this.put frag.msgId (taken part frag)).drop frag.msgId,
        .ok (some (taken part frag).chunks.flatten)) := by
  have same : ¬ (part.fragCount ≠ frag.fragCount ∨ part.totalLen ≠ frag.totalLen) := by
    simp [takes.count, takes.total]
  unfold fill
  rw [if_neg same, if_neg (not_not.mpr takes.blank), if_neg (Nat.not_lt.mpr takes.fits)]
  rfl

/-- Where a fragment leaves its partial: as it was, with one more slot filled, or gone. -/
theorem fill_lookup (this : MessageReassembly) (frag : ChannelFragBody) (part : Partial)
    (msgId : Nat) :
    (this.fill frag part).1.partials.lookup msgId = this.partials.lookup msgId ∨
      msgId = frag.msgId ∧ ((this.fill frag part).1.partials.lookup msgId = none ∨
        Takes part frag ∧
          (this.fill frag part).1.partials.lookup msgId = some (taken part frag)) := by
  by_cases takes : Takes part frag
  · by_cases same : msgId = frag.msgId
    · right
      refine ⟨same, ?_⟩
      rw [fill_taken takes]
      split
      · right
        exact ⟨takes, by rw [lookup_put, if_pos same]⟩
      · split
        · right
          exact ⟨takes, by rw [lookup_put, if_pos same]⟩
        · left
          rw [lookup_drop, if_pos same]
    · left
      rw [fill_taken takes]
      split
      · rw [lookup_put, if_neg same]
      · split
        · rw [lookup_put, if_neg same]
        · rw [lookup_drop, if_neg same, lookup_put, if_neg same]
  · left
    rw [(fill_refused takes).1]

theorem fill_length_le {this : MessageReassembly} {frag : ChannelFragBody} {part : Partial}
    (held : this.partials.lookup frag.msgId = some part) :
    (this.fill frag part).1.partials.entries.length ≤ this.partials.entries.length := by
  have present := mem_of_lookup held
  by_cases takes : Takes part frag
  · have size : (this.put frag.msgId (taken part frag)).partials.entries.length =
        this.partials.entries.length := put_length present
    rw [fill_taken takes]
    split
    · exact Nat.le_of_eq size
    · split
      · exact Nat.le_of_eq size
      · rw [← size]
        exact drop_length_le
  · rw [(fill_refused takes).1]

/-- A message that comes out is as long as its fragments declare. -/
theorem fill_message {this : MessageReassembly} {frag : ChannelFragBody} {part : Partial}
    {message : Bytes} (whole : (this.fill frag part).2 = .ok (some message)) :
    message.length = frag.totalLen := by
  by_cases takes : Takes part frag
  · rw [fill_taken takes] at whole
    split at whole
    · cases whole
    · split at whole
      · cases whole
      · rename_i exact
        cases whole
        rw [← takes.total]
        exact not_not.mp exact
  · exact absurd whole ((fill_refused takes).2 message)

theorem fill_fields (this : MessageReassembly) (frag : ChannelFragBody) (part : Partial) :
    (this.fill frag part).1.maxMessageBytes = this.maxMessageBytes ∧
      (this.fill frag part).1.maxPartials = this.maxPartials ∧
      (this.fill frag part).1.lossy = this.lossy := by
  by_cases takes : Takes part frag
  · rw [fill_taken takes]
    split
    · exact ⟨rfl, rfl, rfl⟩
    · split <;> exact ⟨rfl, rfl, rfl⟩
  · rw [(fill_refused takes).1]
    exact ⟨rfl, rfl, rfl⟩

end Filling

section Pushing

variable {maxMessageBytes maxPartials : Nat} {this : MessageReassembly}

theorem begun_bounded {frag : ChannelFragBody} (now : Int) (positive : frag.fragCount ≠ 0)
    (few : frag.fragCount ≤ frag.totalLen) (small : frag.totalLen ≤ maxMessageBytes) :
    (begun frag now).Bounded maxMessageBytes where
  slots := List.length_replicate
  positive := Nat.one_le_iff_ne_zero.mpr positive
  few := few
  small := small
  counted := by simp [begun]
  within := Nat.zero_le _

theorem taken_bounded {frag : ChannelFragBody} {part : Partial}
    (bounded : part.Bounded maxMessageBytes) (takes : Takes part frag) :
    (taken part frag).Bounded maxMessageBytes where
  slots := by
    show (part.chunks.set frag.fragIndex frag.chunk).length = part.fragCount
    rw [List.length_set]
    exact bounded.slots
  positive := bounded.positive
  few := bounded.few
  small := bounded.small
  counted := by
    show part.receivedBytes + frag.chunk.length = _
    rw [bounded.counted]
    exact (Pieces.sum_set part.chunks frag.fragIndex frag.chunk takes.blank).symm
  within := takes.fits

theorem Bounded.fill (bounded : this.Bounded maxMessageBytes maxPartials) {frag : ChannelFragBody}
    {part : Partial} (held : this.partials.lookup frag.msgId = some part) :
    (this.fill frag part).1.Bounded maxMessageBytes maxPartials := by
  obtain ⟨limit, cap, _⟩ := fill_fields this frag part
  refine ⟨limit.trans bounded.limit, cap.trans bounded.cap,
    (fill_length_le held).trans bounded.few, ?_⟩
  intro msgId other found
  rcases fill_lookup this frag part msgId with same | ⟨_, gone | ⟨takes, filled⟩⟩
  · rw [same] at found
    exact bounded.parts msgId other found
  · rw [gone] at found
    cases found
  · rw [filled] at found
    cases found
    exact taken_bounded (bounded.parts _ part held) takes

theorem Bounded.put (bounded : this.Bounded maxMessageBytes maxPartials) {msgId : Nat} {part : Partial}
    (absent : msgId ∉ this.partials) (room : this.partials.entries.length < maxPartials)
    (within : part.Bounded maxMessageBytes) : (this.put msgId part).Bounded maxMessageBytes maxPartials := by
  refine ⟨bounded.limit, bounded.cap, ?_, ?_⟩
  · rw [put_length_absent absent]
    exact room
  · intro other held found
    rw [lookup_put] at found
    split at found
    · cases found
      exact within
    · exact bounded.parts other held found

theorem Bounded.drop (bounded : this.Bounded maxMessageBytes maxPartials) (msgId : Nat) :
    (this.drop msgId).Bounded maxMessageBytes maxPartials := by
  refine ⟨bounded.limit, bounded.cap, drop_length_le.trans bounded.few, ?_⟩
  intro other held found
  rw [lookup_drop] at found
  split at found
  · cases found
  · exact bounded.parts other held found

theorem oldestPartial_none {entries : List (Sigma fun _ : Nat => Partial)}
    (none : oldestPartial entries = none) : entries = [] := by
  cases entries with
  | nil => rfl
  | cons entry rest =>
      unfold oldestPartial at none
      split at none
      · cases none
      · split at none <;> cases none

theorem oldestPartial_some (entries : List (Sigma fun _ : Nat => Partial)) :
    ∀ oldest, oldestPartial entries = some oldest →
      oldest ∈ entries ∧ ∀ entry ∈ entries, GoesFirst oldest.1 oldest.2 entry.1 entry.2 := by
  unfold GoesFirst
  induction entries with
  | nil => exact fun _ found => nomatch found
  | cons entry rest ih =>
      intro oldest found
      unfold oldestPartial at found
      split at found
      · rename_i alone
        cases found
        rw [oldestPartial_none alone]
        refine ⟨List.mem_singleton_self _, ?_⟩
        intro other member
        rw [List.mem_singleton.mp member]
        omega
      · rename_i older among
        obtain ⟨member, least⟩ := ih older among
        split at found
        · rename_i before
          cases found
          refine ⟨List.mem_cons_of_mem _ member, ?_⟩
          intro other isOther
          rcases List.mem_cons.mp isOther with rfl | inRest
          · omega
          · exact least other inRest
        · rename_i after
          cases found
          refine ⟨List.mem_cons_self, ?_⟩
          intro other isOther
          rcases List.mem_cons.mp isOther with rfl | inRest
          · omega
          · have bound := least other inRest
            omega

/-- A full reassembly loses its oldest partial, and no other. -/
theorem dropOldestPartial_spec (holds : 0 < this.partials.entries.length) :
    ∃ msgId part, this.partials.lookup msgId = some part ∧
      (∀ other held, this.partials.lookup other = some held → GoesFirst msgId part other held) ∧
      this.dropOldestPartial = this.drop msgId := by
  unfold dropOldestPartial
  cases found : oldestPartial this.partials.entries with
  | none =>
      rw [oldestPartial_none found] at holds
      exact absurd holds (Nat.lt_irrefl 0)
  | some oldest =>
      obtain ⟨member, least⟩ := oldestPartial_some _ oldest found
      refine ⟨oldest.1, oldest.2, AList.mem_lookup_iff.mpr member, ?_, rfl⟩
      intro other held isHeld
      exact least ⟨other, held⟩ (AList.mem_lookup_iff.mp isHeld)

/-- A fragment that says something a message can be. -/
structure Admissible (this : MessageReassembly) (frag : ChannelFragBody) : Prop where
  positive : frag.fragCount ≠ 0
  inside : frag.fragIndex < frag.fragCount
  small : frag.totalLen ≤ this.maxMessageBytes
  few : frag.fragCount ≤ frag.totalLen

theorem push_inadmissible {frag : ChannelFragBody} (refused : ¬ this.Admissible frag) (now : Int) :
    ∃ error, this.push frag now = (this, .error error) := by
  unfold push
  split
  · exact ⟨_, rfl⟩
  · rename_i indices
    split
    · exact ⟨_, rfl⟩
    · rename_i small
      split
      · exact ⟨_, rfl⟩
      · rename_i few
        simp only [not_or] at indices
        exact absurd ⟨indices.1, Nat.lt_of_not_le indices.2, Nat.le_of_not_lt small,
          Nat.le_of_not_lt few⟩ refused

/-- A reassembly with room for one more partial. -/
def makeRoom (this : MessageReassembly) : MessageReassembly :=
  if this.maxPartials ≤ this.partials.entries.length then this.dropOldestPartial else this

/-- A fragment goes to the partial of its message, or begins one where there is room. -/
theorem push_admissible {frag : ChannelFragBody} (admissible : this.Admissible frag) (now : Int) :
    (∃ part, this.partials.lookup frag.msgId = some part ∧ this.push frag now = this.fill frag part) ∨
    (this.partials.lookup frag.msgId = none ∧ this.lossy = false ∧
      this.maxPartials ≤ this.partials.entries.length ∧
      this.push frag now = (this, .error "amp ch: too many in-flight partial messages")) ∨
    (this.partials.lookup frag.msgId = none ∧
      (this.lossy = true ∨ this.partials.entries.length < this.maxPartials) ∧
      this.push frag now =
        (this.makeRoom.put frag.msgId (begun frag now)).fill frag (begun frag now)) := by
  have indices : ¬ (frag.fragCount = 0 ∨ frag.fragCount ≤ frag.fragIndex) := by
    have inside := admissible.inside
    omega
  unfold push
  rw [if_neg indices, if_neg (Nat.not_lt.mpr admissible.small), if_neg (Nat.not_lt.mpr admissible.few)]
  split
  · rename_i part held
    exact Or.inl ⟨part, held, rfl⟩
  · rename_i absent
    right
    split
    · rename_i full
      exact Or.inl ⟨absent, full.2, full.1, rfl⟩
    · rename_i room
      refine Or.inr ⟨absent, ?_, rfl⟩
      by_cases full : this.maxPartials ≤ this.partials.entries.length
      · exact Or.inl (by simpa [full] using room)
      · exact Or.inr (Nat.lt_of_not_le full)

/-- What making room takes: nothing, or the oldest partial of a lossy reassembly. -/
theorem makeRoom_lookup (loses : this.lossy = true ∨ this.partials.entries.length < this.maxPartials)
    (positive : 1 ≤ this.maxPartials) (msgId : Nat) :
    this.makeRoom.partials.lookup msgId = this.partials.lookup msgId ∨
      Evicts this this.makeRoom msgId := by
  unfold makeRoom
  split
  · rename_i full
    have lossy : this.lossy = true := loses.resolve_right (Nat.not_lt.mpr full)
    obtain ⟨oldest, part, held, least, dropped⟩ := dropOldestPartial_spec (positive.trans full)
    rw [dropped, lookup_drop]
    by_cases same : msgId = oldest
    · subst same
      right
      exact ⟨lossy, full, by rw [lookup_drop, if_pos rfl], part, held, least⟩
    · left
      rw [if_neg same]
  · exact Or.inl rfl

theorem Bounded.makeRoom (bounded : this.Bounded maxMessageBytes maxPartials)
    (positive : 1 ≤ maxPartials) : this.makeRoom.Bounded maxMessageBytes maxPartials ∧
      this.makeRoom.partials.entries.length < maxPartials := by
  unfold MessageReassembly.makeRoom
  split
  · rename_i full
    rw [bounded.cap] at full
    obtain ⟨oldest, part, held, _, dropped⟩ := dropOldestPartial_spec (positive.trans full)
    have size := drop_length (mem_of_lookup held)
    have few := bounded.few
    rw [dropped]
    exact ⟨bounded.drop oldest, by omega⟩
  · rename_i room
    rw [bounded.cap] at room
    exact ⟨bounded, Nat.lt_of_not_le room⟩

theorem makeRoom_absent {msgId : Nat} (absent : this.partials.lookup msgId = none) :
    msgId ∉ this.makeRoom.partials := by
  rw [← AList.lookup_eq_none]
  unfold makeRoom
  split
  · unfold dropOldestPartial
    split
    · exact absent
    · rename_i oldest _
      have dropped : (this.drop oldest.1).partials.lookup msgId =
          if msgId = oldest.1 then none else this.partials.lookup msgId := lookup_drop msgId
      rw [absent, ite_self] at dropped
      exact dropped
  · exact absent

theorem Bounded.push (bounded : this.Bounded maxMessageBytes maxPartials) (positive : 1 ≤ maxPartials)
    (frag : ChannelFragBody) (now : Int) :
    (this.push frag now).1.Bounded maxMessageBytes maxPartials := by
  by_cases admissible : this.Admissible frag
  · rcases push_admissible admissible now with ⟨part, held, pushed⟩ | ⟨_, _, _, pushed⟩ |
      ⟨absent, _, pushed⟩
    · rw [pushed]
      exact bounded.fill held
    · rw [pushed]
      exact bounded
    · obtain ⟨roomy, room⟩ := bounded.makeRoom positive
      have small : frag.totalLen ≤ maxMessageBytes := bounded.limit ▸ admissible.small
      have within := begun_bounded now admissible.positive admissible.few small
      rw [pushed]
      apply (roomy.put (makeRoom_absent absent) room within).fill
      rw [lookup_put, if_pos rfl]
  · obtain ⟨error, pushed⟩ := push_inadmissible admissible now
    rw [pushed]
    exact bounded

theorem Bounded.sweepExpired (bounded : this.Bounded maxMessageBytes maxPartials)
    (now timeoutMs : Int) : (this.sweepExpired now timeoutMs).Bounded maxMessageBytes maxPartials := by
  have kept : (this.sweepExpired now timeoutMs).partials.entries.Sublist this.partials.entries :=
    List.filter_sublist
  refine ⟨bounded.limit, bounded.cap, kept.length_le.trans bounded.few, ?_⟩
  intro msgId part found
  apply bounded.parts msgId part
  exact AList.mem_lookup_iff.mpr (kept.subset (AList.mem_lookup_iff.mp found))

/-- A push changes neither the limit nor the cap. -/
theorem push_fields (this : MessageReassembly) (frag : ChannelFragBody) (now : Int) :
    (this.push frag now).1.maxMessageBytes = this.maxMessageBytes ∧
      (this.push frag now).1.maxPartials = this.maxPartials := by
  have room : this.makeRoom.maxMessageBytes = this.maxMessageBytes ∧
      this.makeRoom.maxPartials = this.maxPartials := by
    unfold makeRoom dropOldestPartial
    split
    · split <;> exact ⟨rfl, rfl⟩
    · exact ⟨rfl, rfl⟩
  by_cases admissible : this.Admissible frag
  · rcases push_admissible admissible now with ⟨part, _, pushed⟩ | ⟨_, _, _, pushed⟩ |
      ⟨_, _, pushed⟩
    · obtain ⟨limit, cap, _⟩ := fill_fields this frag part
      rw [pushed]
      exact ⟨limit, cap⟩
    · rw [pushed]
      exact ⟨rfl, rfl⟩
    · obtain ⟨limit, cap, _⟩ :=
        fill_fields (this.makeRoom.put frag.msgId (begun frag now)) frag (begun frag now)
      rw [pushed, limit, cap]
      exact room
  · obtain ⟨error, pushed⟩ := push_inadmissible admissible now
    rw [pushed]
    exact ⟨rfl, rfl⟩

/-- A message that comes out is as long as its last fragment declares, and within the limit. -/
theorem push_message {this : MessageReassembly} {frag : ChannelFragBody} {now : Int}
    {message : Bytes} (whole : (this.push frag now).2 = .ok (some message)) :
    message.length = frag.totalLen ∧ frag.totalLen ≤ this.maxMessageBytes := by
  by_cases admissible : this.Admissible frag
  · refine ⟨?_, admissible.small⟩
    rcases push_admissible admissible now with ⟨part, _, pushed⟩ | ⟨_, _, _, pushed⟩ |
      ⟨_, _, pushed⟩
    · rw [pushed] at whole
      exact fill_message whole
    · rw [pushed] at whole
      cases whole
    · rw [pushed] at whole
      exact fill_message whole
  · obtain ⟨error, pushed⟩ := push_inadmissible admissible now
    rw [pushed] at whole
    cases whole

/-- A push leaves every other message's partial alone, or makes room with it. -/
theorem push_aside (positive : 1 ≤ this.maxPartials) (frag : ChannelFragBody) (now : Int)
    {msgId : Nat} (other : msgId ≠ frag.msgId) :
    (this.push frag now).1.partials.lookup msgId = this.partials.lookup msgId ∨
      Evicts this (this.push frag now).1 msgId := by
  by_cases admissible : this.Admissible frag
  · rcases push_admissible admissible now with ⟨part, _, pushed⟩ | ⟨_, _, _, pushed⟩ |
      ⟨_, loses, pushed⟩
    · rw [pushed]
      exact Or.inl ((fill_lookup this frag part msgId).resolve_right fun own => other own.1)
    · rw [pushed]
      exact Or.inl rfl
    · have filled := (fill_lookup (this.makeRoom.put frag.msgId (begun frag now)) frag
        (begun frag now) msgId).resolve_right fun own => other own.1
      rw [lookup_put, if_neg other] at filled
      rw [pushed]
      rcases makeRoom_lookup loses positive msgId with same | ⟨lossy, full, gone, oldest⟩
      · exact Or.inl (filled.trans same)
      · exact Or.inr ⟨lossy, full, filled.trans gone, oldest⟩
  · obtain ⟨refusal, pushed⟩ := push_inadmissible admissible now
    rw [pushed]
    exact Or.inl rfl

theorem pushKeeps (positive : 1 ≤ this.maxPartials) (frag : ChannelFragBody) (now : Int) :
    this.PushKeeps frag now := by
  constructor
  · intro message whole
    exact (push_message whole).1
  · intro error _ msgId other
    exact push_aside positive frag now other

end Pushing

theorem create_bounded (maxMessageBytes maxPartials : Nat) (lossy : Bool) :
    (create maxMessageBytes maxPartials lossy).Bounded maxMessageBytes maxPartials :=
  ⟨rfl, rfl, Nat.zero_le _, fun _ _ found => nomatch found⟩

theorem step_bounded {maxMessageBytes maxPartials : Nat} (positive : 1 ≤ maxPartials)
    (this : MessageReassembly) (event : Event)
    (bounded : this.Bounded maxMessageBytes maxPartials) :
    (this.step event).Bounded maxMessageBytes maxPartials := by
  cases event with
  | push frag now => exact bounded.push positive frag now
  | sweepExpired now timeoutMs => exact bounded.sweepExpired now timeoutMs

/-- However it is pushed to and swept, a reassembly stays within its bounds, gives out
messages of the length declared, and a fragment it refuses harms no other message. -/
theorem always_bounded (maxMessageBytes maxPartials : Nat) (lossy : Bool)
    (positive : 1 ≤ maxPartials) (events : List Event) :
    Run.Always step (fun this => this.Bounded maxMessageBytes maxPartials ∧
      ∀ frag now, this.PushKeeps frag now) (create maxMessageBytes maxPartials lossy) events := by
  apply Run.always_of_invariant step (fun _ _ => True)
    (fun this => this.Bounded maxMessageBytes maxPartials)
  · exact fun this event _ bounded => step_bounded positive this event bounded
  · intro this bounded
    exact ⟨bounded, pushKeeps (bounded.cap.symm ▸ positive)⟩
  · exact Run.meets_of_forall _ _ (fun _ _ => trivial) _ _
  · exact create_bounded maxMessageBytes maxPartials lossy

theorem always_bounded_sample : Run.Always step (fun this => this.Bounded 8 1 ∧
    ∀ frag now, this.PushKeeps frag now) (create 8 1 true)
      [.push ⟨1, 0, 2, 3, [5]⟩ 10, .push ⟨2, 0, 2, 4, [7, 7]⟩ 20, .sweepExpired 2000 1000] :=
  always_bounded 8 1 true (by decide) _

end MessageReassembly

end Amp
