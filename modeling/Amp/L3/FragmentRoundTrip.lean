import Amp.L3.ChannelOpening
import Amp.L3.ReassemblyBounds

set_option autoImplicit false

/- What `SendData` cuts a payload into, and what `Push` makes of the pieces in any order. -/
namespace Amp

open Adp (Bytes QosClass)
open Pieces

namespace MessageReassembly

/-- The fragment of a message that carries one of its chunks. -/
def fragmentAt (msgId : Nat) (chunks : List Bytes) (index : Nat) (chunk : Bytes) :
    ChannelFragBody where
  msgId := msgId
  fragIndex := index
  fragCount := chunks.length
  totalLen := chunks.flatten.length
  chunk := chunk

/-- What a reassembly holds of a message some of whose chunks have come. -/
def gathering (seen : Nat → Bool) (chunks : List Bytes) (started : Int) : Partial where
  fragCount := chunks.length
  totalLen := chunks.flatten.length
  chunks := gathered seen chunks
  receivedBytes := ((gathered seen chunks).map List.length).sum
  startedMs := started

section Filling

variable {seen : Nat → Bool} {chunks : List Bytes} {index : Nat} {chunk : Bytes}

/-- A chunk that came before changes nothing. -/
theorem fill_again (this : MessageReassembly) (msgId : Nat) (started : Int)
    (full : ∀ chunk ∈ chunks, chunk ≠ []) (found : chunks[index]? = some chunk)
    (again : seen index = true) :
    this.fill (fragmentAt msgId chunks index chunk) (gathering seen chunks started) =
      (this, .ok none) := by
  have same : ¬ ((gathering seen chunks started).fragCount ≠
      (fragmentAt msgId chunks index chunk).fragCount ∨ (gathering seen chunks started).totalLen ≠
        (fragmentAt msgId chunks index chunk).totalLen) := by
    simp [gathering, fragmentAt]
  have taken : (gathering seen chunks started).chunks[
      (fragmentAt msgId chunks index chunk).fragIndex]? ≠ some [] := by
    show (gathered seen chunks)[index]? ≠ some []
    rw [gathered_getElem?, found, again]
    intro blank
    exact full chunk (List.mem_of_getElem? found) (Option.some.inj blank)
  unfold fill
  rw [if_neg same, if_pos taken]

/-- A new chunk goes into its slot, and the last one completes the message. -/
theorem fill_anew (this : MessageReassembly) (msgId : Nat) (started : Int)
    (full : ∀ chunk ∈ chunks, chunk ≠ []) (found : chunks[index]? = some chunk)
    (anew : seen index = false) :
    this.fill (fragmentAt msgId chunks index chunk) (gathering seen chunks started) =
      if ∃ index' < chunks.length, seeing seen index index' = false then
        (this.put msgId (gathering (seeing seen index) chunks started), .ok none)
      else ((this.put msgId (gathering (seeing seen index) chunks started)).drop msgId,
        .ok (some chunks.flatten)) := by
  have blank : (gathered seen chunks)[index]? = some [] := by
    rw [gathered_getElem?, found, anew]
    rfl
  have sum := sum_set (gathered seen chunks) index chunk blank
  rw [gathered_set seen found] at sum
  have bound := gathered_sum_le chunks (seeing seen index)
  have takes : Takes (gathering seen chunks started) (fragmentAt msgId chunks index chunk) := by
    refine ⟨rfl, rfl, blank, ?_⟩
    show ((gathered seen chunks).map List.length).sum + chunk.length ≤ chunks.flatten.length
    rw [← sum]
    exact bound
  have after : taken (gathering seen chunks started) (fragmentAt msgId chunks index chunk) =
      gathering (seeing seen index) chunks started := by
    unfold taken gathering fragmentAt
    dsimp only
    rw [gathered_set seen found, ← sum]
  have named : (fragmentAt msgId chunks index chunk).msgId = msgId := rfl
  rw [fill_taken takes, after, named]
  by_cases missing : ∃ index' < chunks.length, seeing seen index index' = false
  · have blanks : (gathering (seeing seen index) chunks started).chunks.any List.isEmpty = true :=
      (gathered_blank full).mpr missing
    rw [if_pos missing, if_pos blanks]
  · have blanks : ¬ (gathering (seeing seen index) chunks started).chunks.any List.isEmpty = true :=
      fun some_left => missing ((gathered_blank full).mp some_left)
    have whole : (gathering (seeing seen index) chunks started).chunks = chunks := by
      apply gathered_all
      intro other inside
      by_contra absent
      exact missing ⟨other, inside, by simpa using absent⟩
    rw [if_neg missing, if_neg blanks, whole, if_neg (fun differs => differs rfl)]

end Filling

/-- Beside the partial of a message there are fewer than the cap, one that this fragment
begins included. -/
def HasPlace (msgId : Nat) (this : MessageReassembly) (arrival : ChannelFragBody × Int) : Prop :=
  arrival.1.msgId ∈ this.partials ∨ (this.drop msgId).partials.entries.length +
    (if arrival.1.msgId = msgId then 0 else 1) < this.maxPartials

instance (msgId : Nat) (this : MessageReassembly) (arrival : ChannelFragBody × Int) :
    Decidable (HasPlace msgId this arrival) :=
  inferInstanceAs (Decidable (_ ∨ _))

/-- What is held of a message: nothing before its first chunk, then the chunks that came. -/
def Gathers (msgId : Nat) (chunks : List Bytes) (seen : Nat → Bool) (this : MessageReassembly) :
    Prop :=
  (this.partials.lookup msgId = none ∧ seen = fun _ => false) ∨
    ∃ started, this.partials.lookup msgId = some (gathering seen chunks started)

section Pushing

variable {this : MessageReassembly} {msgId : Nat} {frag : ChannelFragBody} {now : Int}

theorem drop_absent (absent : msgId ∉ this.partials) : this.drop msgId = this := by
  unfold drop
  have same : this.partials.erase msgId = this.partials := by
    apply AList.ext
    exact List.kerase_of_notMem_keys absent
  rw [same]

/-- A fragment that has a place never finds the reassembly full. -/
theorem HasPlace.room (place : HasPlace msgId this (frag, now))
    (absent : this.partials.lookup frag.msgId = none) :
    this.partials.entries.length < this.maxPartials := by
  have unheld : frag.msgId ∉ this.partials := AList.lookup_eq_none.mp absent
  have room := place.resolve_left unheld
  by_cases held : msgId ∈ this.partials
  · have size := drop_length held
    have other : ¬ frag.msgId = msgId := fun same => unheld (same ▸ held)
    simp only [if_neg other] at room
    omega
  · rw [drop_absent held] at room
    omega

theorem push_begins (admissible : this.Admissible frag)
    (absent : this.partials.lookup frag.msgId = none)
    (room : this.partials.entries.length < this.maxPartials) : this.push frag now =
      (this.put frag.msgId (begun frag now)).fill frag (begun frag now) := by
  rcases push_admissible admissible now with ⟨part, held, _⟩ | ⟨_, _, full, _⟩ | ⟨_, _, pushed⟩
  · rw [absent] at held
    cases held
  · exact absurd full (Nat.not_le.mpr room)
  · have roomy : this.makeRoom = this := if_neg (Nat.not_le.mpr room)
    rw [pushed, roomy]

/-- Another message's fragment leaves the partial alone. -/
theorem push_beside (other : frag.msgId ≠ msgId) (place : HasPlace msgId this (frag, now)) :
    (this.push frag now).1.partials.lookup msgId = this.partials.lookup msgId := by
  have apart : msgId ≠ frag.msgId := fun same => other same.symm
  have filled (base : MessageReassembly) (part : Partial) :=
    (fill_lookup base frag part msgId).resolve_right fun own => apart own.1
  by_cases admissible : this.Admissible frag
  · cases held : this.partials.lookup frag.msgId with
    | none =>
        rw [push_begins admissible held (place.room held), filled, lookup_put, if_neg apart]
    | some part =>
        have pushed : this.push frag now = this.fill frag part := by
          rcases push_admissible admissible now with ⟨same, known, pushed⟩ | ⟨absent, _⟩ | ⟨absent, _⟩
          · rw [held] at known
            cases known
            exact pushed
          · rw [held] at absent
            cases absent
          · rw [held] at absent
            cases absent
        rw [pushed, filled]
  · obtain ⟨error, pushed⟩ := push_inadmissible admissible now
    rw [pushed]

end Pushing

section Gathering

variable {this : MessageReassembly} {msgId : Nat} {chunks : List Bytes} {seen : Nat → Bool}
  {index : Nat} {chunk : Bytes} {now : Int}

theorem begun_gathering : begun (fragmentAt msgId chunks index chunk) now =
    gathering (fun _ => false) chunks now := by
  have none_yet : ((gathered (fun _ => false) chunks).map List.length).sum = 0 := by
    rw [gathered_none]
    simp
  unfold gathering
  rw [none_yet, gathered_none]
  rfl

theorem fragmentAt_admissible (full : ∀ chunk ∈ chunks, chunk ≠ [])
    (found : chunks[index]? = some chunk) (small : chunks.flatten.length ≤ this.maxMessageBytes) :
    this.Admissible (fragmentAt msgId chunks index chunk) := by
  have inside : index < chunks.length := (List.getElem?_eq_some_iff.mp found).1
  refine ⟨?_, inside, small, ChannelMux.length_le_flatten chunks full⟩
  show chunks.length ≠ 0
  omega

/-- A chunk's fragment is filled into what is held of its message. -/
theorem push_gathering (full : ∀ chunk ∈ chunks, chunk ≠ []) (found : chunks[index]? = some chunk)
    (small : chunks.flatten.length ≤ this.maxMessageBytes) (gathers : Gathers msgId chunks seen this)
    (place : HasPlace msgId this (fragmentAt msgId chunks index chunk, now)) :
    ∃ base : MessageReassembly, ∃ started, this.push (fragmentAt msgId chunks index chunk) now =
      base.fill (fragmentAt msgId chunks index chunk) (gathering seen chunks started) ∧
      base.partials.lookup msgId = some (gathering seen chunks started) := by
  have admissible : this.Admissible (fragmentAt msgId chunks index chunk) :=
    fragmentAt_admissible full found small
  rcases gathers with ⟨absent, rfl⟩ | ⟨started, held⟩
  · have pushed : this.push (fragmentAt msgId chunks index chunk) now = _ :=
      push_begins admissible absent (place.room absent)
    rw [begun_gathering] at pushed
    refine ⟨_, now, pushed, ?_⟩
    rw [lookup_put]
    exact if_pos rfl
  · refine ⟨this, started, ?_, held⟩
    rcases push_admissible admissible now with ⟨part, known, pushed⟩ | ⟨absent, _⟩ | ⟨absent, _⟩
    · have same : some part = some (gathering seen chunks started) := known.symm.trans held
      cases same
      exact pushed
    · exact nomatch absent.symm.trans held
    · exact nomatch absent.symm.trans held

/-- A chunk's fragment before the last one missing: nothing comes out. -/
theorem push_early (full : ∀ chunk ∈ chunks, chunk ≠ []) (found : chunks[index]? = some chunk)
    (small : chunks.flatten.length ≤ this.maxMessageBytes) (gathers : Gathers msgId chunks seen this)
    (place : HasPlace msgId this (fragmentAt msgId chunks index chunk, now))
    (missing : ∃ other < chunks.length, seeing seen index other = false) :
    (this.push (fragmentAt msgId chunks index chunk) now).2 = .ok none ∧
      Gathers msgId chunks (seeing seen index)
        (this.push (fragmentAt msgId chunks index chunk) now).1 := by
  obtain ⟨base, started, pushed, held⟩ := push_gathering full found small gathers place
  rw [pushed]
  cases again : seen index with
  | true =>
      have same : seeing seen index = seen := by
        funext other
        unfold seeing
        by_cases equal : other = index
        · rw [equal, again, Bool.or_true]
        · simp [equal]
      rw [fill_again base msgId started full found again, same]
      exact ⟨rfl, Or.inr ⟨started, held⟩⟩
  | false =>
      rw [fill_anew base msgId started full found again, if_pos missing]
      refine ⟨rfl, Or.inr ⟨started, ?_⟩⟩
      rw [lookup_put, if_pos rfl]

/-- The fragment of the last chunk missing: the message comes out, and nothing of it stays. -/
theorem push_last (full : ∀ chunk ∈ chunks, chunk ≠ []) (found : chunks[index]? = some chunk)
    (small : chunks.flatten.length ≤ this.maxMessageBytes) (gathers : Gathers msgId chunks seen this)
    (place : HasPlace msgId this (fragmentAt msgId chunks index chunk, now))
    (anew : seen index = false) (rest : ∀ other < chunks.length, other ≠ index → seen other = true) :
    (this.push (fragmentAt msgId chunks index chunk) now).2 = .ok (some chunks.flatten) ∧
      (this.push (fragmentAt msgId chunks index chunk) now).1.partials.lookup msgId = none := by
  obtain ⟨base, started, pushed, _⟩ := push_gathering full found small gathers place
  have complete : ¬ ∃ other < chunks.length, seeing seen index other = false := by
    rintro ⟨other, inside, absent⟩
    unfold seeing at absent
    rw [Bool.or_eq_false_iff] at absent
    have apart : other ≠ index := by simpa using absent.1
    rw [rest other inside apart] at absent
    cases absent.2
  rw [pushed, fill_anew base msgId started full found anew, if_neg complete]
  refine ⟨rfl, ?_⟩
  rw [lookup_drop, if_pos rfl]

end Gathering

/-- A fragment arrives. -/
def arrive (this : MessageReassembly) (arrival : ChannelFragBody × Int) : MessageReassembly :=
  (this.push arrival.1 arrival.2).1

/-- A fragment of the message brings nothing out yet. -/
def Waits (msgId : Nat) (this : MessageReassembly) (arrival : ChannelFragBody × Int) : Prop :=
  arrival.1.msgId = msgId → (this.push arrival.1 arrival.2).2 = .ok none

/-- The fragments of a message, in the order of its chunks. -/
def fragments (msgId : Nat) (chunks : List Bytes) : List ChannelFragBody :=
  chunks.mapIdx (fragmentAt msgId chunks)

theorem mem_fragments {msgId : Nat} {chunks : List Bytes} {frag : ChannelFragBody} :
    frag ∈ fragments msgId chunks ↔
      ∃ index chunk, chunks[index]? = some chunk ∧ fragmentAt msgId chunks index chunk = frag := by
  unfold fragments
  rw [List.mem_iff_getElem?]
  simp only [List.getElem?_mapIdx, Option.map_eq_some_iff]

/-- The chunks seen once some more fragments have arrived. -/
def seenAfter (msgId : Nat) (seen : Nat → Bool) (arrivals : List (ChannelFragBody × Int)) :
    Nat → Bool :=
  arrivals.foldl
    (fun seen arrival => if arrival.1.msgId = msgId then seeing seen arrival.1.fragIndex else seen)
    seen

theorem seenAfter_iff (msgId : Nat) (arrivals : List (ChannelFragBody × Int)) (index : Nat) :
    ∀ seen : Nat → Bool, seenAfter msgId seen arrivals index = true ↔
      seen index = true ∨ ∃ arrival ∈ arrivals, arrival.1.msgId = msgId ∧
        arrival.1.fragIndex = index := by
  induction arrivals with
  | nil => exact fun seen => ⟨Or.inl, fun either => either.resolve_right nofun⟩
  | cons arrival rest ih =>
      intro seen
      show seenAfter msgId (if arrival.1.msgId = msgId then seeing seen arrival.1.fragIndex
        else seen) rest index = true ↔ _
      rw [ih]
      simp only [List.mem_cons, exists_eq_or_imp]
      split
      · rename_i own
        have turned : index = arrival.1.fragIndex ↔ arrival.1.fragIndex = index := eq_comm
        simp only [seeing, Bool.or_eq_true, beq_iff_eq, own, true_and, turned]
        tauto
      · rename_i other
        simp only [other, false_and, false_or]

section Runs

variable {msgId : Nat} {chunks : List Bytes}

/-- While a chunk is missing nothing comes out, and what has come is held. -/
theorem gathers_run (full : ∀ chunk ∈ chunks, chunk ≠ []) (arrivals : List (ChannelFragBody × Int)) :
    ∀ {this : MessageReassembly} {seen : Nat → Bool}, Gathers msgId chunks seen this →
    chunks.flatten.length ≤ this.maxMessageBytes →
    (∀ arrival ∈ arrivals, arrival.1.msgId = msgId → arrival.1 ∈ fragments msgId chunks) →
    Run.Meets arrive (HasPlace msgId) this arrivals →
    (∃ index < chunks.length, seenAfter msgId seen arrivals index = false) →
    Run.Meets arrive (Waits msgId) this arrivals ∧
      Gathers msgId chunks (seenAfter msgId seen arrivals) (Run.exec arrive this arrivals) ∧
      (Run.exec arrive this arrivals).maxMessageBytes = this.maxMessageBytes := by
  induction arrivals with
  | nil => exact fun gathers _ _ _ _ => ⟨trivial, gathers, rfl⟩
  | cons arrival rest ih =>
      intro this seen gathers small own places missing
      have later : ∀ other ∈ rest, other.1.msgId = msgId → other.1 ∈ fragments msgId chunks :=
        fun other listed => own other (List.mem_cons_of_mem arrival listed)
      have limit : (arrive this arrival).maxMessageBytes = this.maxMessageBytes :=
        (push_fields this arrival.1 arrival.2).1
      have fits : chunks.flatten.length ≤ (arrive this arrival).maxMessageBytes := by
        rw [limit]
        exact small
      by_cases mine : arrival.1.msgId = msgId
      · obtain ⟨index, chunk, found, carried⟩ := mem_fragments.mp (own arrival List.mem_cons_self mine)
        have step : seenAfter msgId seen (arrival :: rest) =
            seenAfter msgId (seeing seen index) rest := by
          have named : arrival.1.fragIndex = index := by rw [← carried]; rfl
          unfold seenAfter
          rw [List.foldl_cons, if_pos mine, named]
        have place : HasPlace msgId this (fragmentAt msgId chunks index chunk, arrival.2) := by
          rw [carried]
          exact places.1
        have still : ∃ other < chunks.length, seeing seen index other = false := by
          obtain ⟨other, inside, absent⟩ := missing
          rw [step] at absent
          refine ⟨other, inside, ?_⟩
          by_contra present
          rw [(seenAfter_iff msgId rest other _).mpr (Or.inl (by simpa using present))] at absent
          cases absent
        obtain ⟨quiet, kept⟩ := push_early full found small gathers place still
        rw [carried] at quiet kept
        rw [step] at missing ⊢
        obtain ⟨waits, gathered, same⟩ := ih kept fits later places.2 missing
        exact ⟨⟨fun _ => quiet, waits⟩, gathered, same.trans limit⟩
      · have step : seenAfter msgId seen (arrival :: rest) = seenAfter msgId seen rest := by
          unfold seenAfter
          rw [List.foldl_cons, if_neg mine]
        have beside := push_beside mine places.1
        have kept : Gathers msgId chunks seen (arrive this arrival) := by
          unfold Gathers arrive
          rw [beside]
          exact gathers
        rw [step] at missing ⊢
        obtain ⟨waits, gathered, same⟩ := ih kept fits later places.2 missing
        exact ⟨⟨fun own => absurd own mine, waits⟩, gathered, same.trans limit⟩

/-- Fragments arrive in some order, any of them again before the last one missing, and
others between them, and there is always a place for the message. -/
structure Brings (this : MessageReassembly) (msgId : Nat) (frags : List ChannelFragBody)
    (arrivals : List (ChannelFragBody × Int)) (last : ChannelFragBody × Int) : Prop where
  fresh : this.partials.lookup msgId = none
  own : ∀ arrival ∈ arrivals, arrival.1.msgId = msgId → arrival.1 ∈ frags
  closing : last.1 ∈ frags
  rest : ∀ frag ∈ frags, frag ≠ last.1 → ∃ now, (frag, now) ∈ arrivals
  missing : ∀ now, (last.1, now) ∉ arrivals
  places : Run.Meets arrive (HasPlace msgId) this (arrivals ++ [last])

/-- Nothing comes out of the message's fragments but the payload at the last one missing,
and nothing is kept of it. -/
structure Completes (this : MessageReassembly) (msgId : Nat) (payload : Bytes)
    (arrivals : List (ChannelFragBody × Int)) (last : ChannelFragBody × Int) : Prop where
  waits : Run.Meets arrive (Waits msgId) this arrivals
  whole : ((Run.exec arrive this arrivals).push last.1 last.2).2 = .ok (some payload)
  gone : (Run.exec arrive this (arrivals ++ [last])).partials.lookup msgId = none

/-- Whatever reassembly of this limit the fragments come to, they make the payload. -/
def Assembles (limit msgId : Nat) (frags : List ChannelFragBody) (payload : Bytes) : Prop :=
  ∀ (this : MessageReassembly) (arrivals : List (ChannelFragBody × Int))
    (last : ChannelFragBody × Int), this.maxMessageBytes = limit →
    Brings this msgId frags arrivals last → Completes this msgId payload arrivals last

/-- The fragments of a message within the limit make it, in whatever order they come. -/
theorem fragments_assemble {limit : Nat} (full : ∀ chunk ∈ chunks, chunk ≠ [])
    (small : chunks.flatten.length ≤ limit) :
    Assembles limit msgId (fragments msgId chunks) chunks.flatten := by
  intro this arrivals last same brings
  obtain ⟨index, chunk, found, carried⟩ := mem_fragments.mp brings.closing
  have inside : index < chunks.length := (List.getElem?_eq_some_iff.mp found).1
  obtain ⟨places, closes⟩ := (Run.meets_append arrive _ arrivals [last] this).mp brings.places
  have anew : seenAfter msgId (fun _ => false) arrivals index = false := by
    by_contra present
    rw [Bool.not_eq_false, seenAfter_iff] at present
    obtain ⟨arrival, listed, mine, named⟩ := present.resolve_left nofun
    obtain ⟨other, piece, known, equal⟩ := mem_fragments.mp (brings.own arrival listed mine)
    have place : other = index := by
      rw [← equal] at named
      exact named
    subst place
    rw [found] at known
    cases known
    rw [carried] at equal
    apply brings.missing arrival.2
    rw [equal]
    exact listed
  have rest : ∀ other < chunks.length, other ≠ index →
      seenAfter msgId (fun _ => false) arrivals other = true := by
    intro other within apart
    have member : fragmentAt msgId chunks other chunks[other] ∈ fragments msgId chunks :=
      mem_fragments.mpr ⟨other, _, List.getElem?_eq_getElem within, rfl⟩
    have differs : fragmentAt msgId chunks other chunks[other] ≠ last.1 := by
      rw [← carried]
      intro equal
      exact apart (congrArg ChannelFragBody.fragIndex equal)
    obtain ⟨now, listed⟩ := brings.rest _ member differs
    exact (seenAfter_iff msgId arrivals other _).mpr (Or.inr ⟨_, listed, rfl, rfl⟩)
  obtain ⟨waits, gathers, limits⟩ := gathers_run full arrivals (Or.inl ⟨brings.fresh, rfl⟩)
    (by rw [same]; exact small) brings.own places ⟨index, inside, anew⟩
  have fits : chunks.flatten.length ≤ (Run.exec arrive this arrivals).maxMessageBytes := by
    rw [limits, same]
    exact small
  have place : HasPlace msgId (Run.exec arrive this arrivals)
      (fragmentAt msgId chunks index chunk, last.2) := by
    rw [carried]
    exact closes.1
  obtain ⟨whole, gone⟩ := push_last full found fits gathers place anew rest
  rw [carried] at whole gone
  refine ⟨waits, whole, ?_⟩
  rw [Run.exec_append]
  exact gone

end Runs

section Refusals

variable {msgId : Nat}

/-- Nothing is held but of one message. -/
def OnlyHolds (msgId : Nat) (this : MessageReassembly) : Prop :=
  0 < this.maxPartials ∧ ∀ other, other ≠ msgId → this.partials.lookup other = none

theorem OnlyHolds.place {this : MessageReassembly} (only : OnlyHolds msgId this)
    {arrival : ChannelFragBody × Int} (mine : arrival.1.msgId = msgId) :
    HasPlace msgId this arrival := by
  right
  have blank : (this.drop msgId).partials.entries = [] := by
    apply List.eq_nil_iff_forall_not_mem.mpr
    rintro ⟨other, part⟩ listed
    have found : (this.drop msgId).partials.lookup other = some part :=
      AList.mem_lookup_iff.mpr listed
    rw [lookup_drop] at found
    split at found
    · cases found
    · rename_i apart
      rw [only.2 other apart] at found
      cases found
  rw [blank, if_pos mine]
  exact only.1

theorem OnlyHolds.arrive {this : MessageReassembly} (only : OnlyHolds msgId this)
    {arrival : ChannelFragBody × Int} (mine : arrival.1.msgId = msgId) :
    OnlyHolds msgId (arrive this arrival) := by
  refine ⟨?_, ?_⟩
  · show 0 < (this.push arrival.1 arrival.2).1.maxPartials
    rw [(push_fields this arrival.1 arrival.2).2]
    exact only.1
  · intro other apart
    have beside : other ≠ arrival.1.msgId := by
      rw [mine]
      exact apart
    rcases push_aside only.1 arrival.1 arrival.2 beside with same | gone
    · exact same.trans (only.2 other apart)
    · exact gone.2.2.1

theorem OnlyHolds.places (arrivals : List (ChannelFragBody × Int)) :
    ∀ {this : MessageReassembly}, OnlyHolds msgId this →
    (∀ arrival ∈ arrivals, arrival.1.msgId = msgId) →
    Run.Meets MessageReassembly.arrive (HasPlace msgId) this arrivals := by
  induction arrivals with
  | nil => exact fun _ _ => trivial
  | cons arrival rest ih =>
      intro this only mine
      have first := mine arrival List.mem_cons_self
      exact ⟨only.place first, ih (only.arrive first) fun other listed =>
        mine other (List.mem_cons_of_mem arrival listed)⟩

/-- Fragments that declare another length than the payload's do not make it. -/
theorem not_assembles {limit : Nat} {frags : List ChannelFragBody} {payload : Bytes}
    (some_frags : frags ≠ []) (distinct : frags.Nodup) (mine : ∀ frag ∈ frags, frag.msgId = msgId)
    (wrong : ∀ frag ∈ frags, frag.totalLen ≠ payload.length) :
    ¬ Assembles limit msgId frags payload := by
  intro assembles
  obtain ⟨init, last, split⟩ := (List.eq_nil_or_concat frags).resolve_left some_frags
  rw [List.concat_eq_append] at split
  subst split
  have cap : (create limit 64 false).maxPartials = 64 := rfl
  have empty : OnlyHolds msgId (create limit 64 false) := ⟨by omega, fun _ _ => rfl⟩
  have brings : Brings (create limit 64 false) msgId (init ++ [last])
      (init.map fun frag => (frag, 0)) (last, 0) := by
    refine ⟨rfl, ?_, ?_, ?_, ?_, empty.places _ ?_⟩
    · intro arrival listed _
      obtain ⟨frag, member, rfl⟩ := List.mem_map.mp listed
      exact List.mem_append_left _ member
    · exact List.mem_append_right _ List.mem_cons_self
    · intro frag member differs
      rcases List.mem_append.mp member with earlier | closing
      · exact ⟨0, List.mem_map_of_mem earlier⟩
      · exact absurd (List.mem_singleton.mp closing) differs
    · intro now listed
      obtain ⟨frag, member, same⟩ := List.mem_map.mp listed
      have equal : frag = last := congrArg Prod.fst same
      rw [equal] at member
      exact (List.nodup_append.mp distinct).2.2 last member last List.mem_cons_self rfl
    · intro arrival listed
      rcases List.mem_append.mp listed with earlier | closing
      · obtain ⟨frag, member, rfl⟩ := List.mem_map.mp earlier
        exact mine frag (List.mem_append_left _ member)
      · rw [List.mem_singleton.mp closing]
        exact mine last (List.mem_append_right _ List.mem_cons_self)
  have completes := assembles (create limit 64 false) _ (last, 0) rfl brings
  have length := (push_message completes.whole).1
  exact wrong last (List.mem_append_right _ List.mem_cons_self) length.symm

end Refusals

end MessageReassembly

namespace ChannelMux

variable {τ : Type}

def fragmentOf (frame : ChannelFrame) : Option ChannelFragBody :=
  match frame.body with
  | .frag frag => some frag
  | _ => none

/-- The fragments among some frames. -/
def fragmentsIn (frames : List ChannelFrame) : List ChannelFragBody := frames.filterMap fragmentOf

theorem fragmentsIn_fragFrames (id : UInt32) (msgId count total : Nat) (chunks : List Bytes) :
    ∀ (index : Nat) (seq : UInt32), fragmentsIn (fragFrames id msgId count total index seq chunks) =
      chunks.mapIdx fun offset chunk => ⟨msgId, index + offset, count, total, chunk⟩ := by
  induction chunks with
  | nil => exact fun _ _ => rfl
  | cons chunk rest ih =>
      intro index seq
      have later := ih (index + 1) (nextSeq seq)
      unfold fragmentsIn at later ⊢
      rw [List.mapIdx_cons, fragFrames, List.filterMap_cons, later]
      simp only [fragmentOf, Nat.add_zero, Nat.add_assoc, Nat.add_comm 1]

theorem chunksOf_small (size count : Nat) : ∀ payload : Bytes,
    ∀ chunk ∈ chunksOf size count payload, chunk.length ≤ size := by
  induction count with
  | zero => exact fun _ _ absent => absurd absent List.not_mem_nil
  | succ count ih =>
      intro payload chunk member
      rcases List.mem_cons.mp member with first | later
      · rw [first, List.length_take]
        exact Nat.min_le_left ..
      · exact ih _ chunk later

theorem wireOf_frag_length (id seq : UInt32) (frag : ChannelFragBody) :
    (wireOf ⟨id, seq, .frag frag⟩).length =
      frag.chunk.length + kChannelHeaderBytes + kChannelFragFieldsBytes := by
  have layout : wireOf ⟨id, seq, .frag frag⟩ =
      ChannelWire.header .frag id seq ++ ChannelWire.encodeFrag frag := rfl
  have header : kChannelHeaderBytes = 9 := rfl
  have fields : kChannelFragFieldsBytes = 16 := rfl
  rw [layout]
  simp only [ChannelWire.header, ChannelWire.encodeFrag, ChannelWire.appendU16,
    ChannelWire.appendU32, ChannelWire.appendU64, List.length_append, List.length_cons,
    LittleEndian.encode_length]
  omega

theorem wireOf_data_length (id seq : UInt32) (payload : Bytes) :
    (wireOf (dataFrame id seq payload)).length = payload.length + kChannelHeaderBytes := by
  have layout : wireOf (dataFrame id seq payload) = ChannelWire.header .data id seq ++ payload := rfl
  have header : kChannelHeaderBytes = 9 := rfl
  rw [layout]
  simp only [ChannelWire.header, ChannelWire.appendU32, List.length_append, List.length_cons,
    LittleEndian.encode_length]
  omega

theorem fragment_framed (id seq : UInt32) {frag : ChannelFragBody} {budget : Nat}
    (fits : ChannelWire.Fits (.frag frag))
    (small : frag.chunk.length + kChannelHeaderBytes + kChannelFragFieldsBytes ≤ budget) :
    ∃ wire, ChannelWire.encode ⟨id, seq, .frag frag⟩ = .ok wire ∧ wire.length ≤ budget ∧
      ChannelWire.decode wire = .ok ⟨id, seq, .frag frag⟩ := by
  have encoded : ChannelWire.encode ⟨id, seq, .frag frag⟩ =
      .ok (wireOf ⟨id, seq, .frag frag⟩) := rfl
  refine ⟨_, encoded, ?_, ChannelWire.decode_encode _ _ fits encoded⟩
  rw [wireOf_frag_length]
  exact small

theorem data_framed (id seq : UInt32) {payload : Bytes} {budget : Nat}
    (small : payload.length + kChannelHeaderBytes ≤ budget) :
    ∃ wire, ChannelWire.encode (dataFrame id seq payload) = .ok wire ∧ wire.length ≤ budget ∧
      ChannelWire.decode wire = .ok (dataFrame id seq payload) := by
  have encoded : ChannelWire.encode (dataFrame id seq payload) =
      .ok (wireOf (dataFrame id seq payload)) := rfl
  refine ⟨_, encoded, ?_, ChannelWire.decode_encode _ _ trivial encoded⟩
  rw [wireOf_data_length]
  exact small

/-- Each fragment's frame is within the budget and is read back. -/
theorem fragFrames_framed (id : UInt32) {msgId count total size budget : Nat}
    (named : msgId < 2 ^ 64) (few : count < 2 ^ 16) (length : total < 2 ^ 32)
    (small : size + kChannelHeaderBytes + kChannelFragFieldsBytes ≤ budget) (chunks : List Bytes) :
    ∀ (index : Nat) (seq : UInt32), index + chunks.length ≤ count →
    (∀ chunk ∈ chunks, chunk.length ≤ size) →
    ∀ frame ∈ fragFrames id msgId count total index seq chunks, ∃ wire,
      ChannelWire.encode frame = .ok wire ∧ wire.length ≤ budget ∧
        ChannelWire.decode wire = .ok frame := by
  induction chunks with
  | nil => exact fun _ _ _ _ _ absent => absurd absent List.not_mem_nil
  | cons chunk rest ih =>
      intro index seq inside sized frame member
      rw [List.length_cons] at inside
      have first := sized chunk List.mem_cons_self
      rcases List.mem_cons.mp member with front | later
      · rw [front]
        apply fragment_framed
        · exact ⟨named, by dsimp only; omega, few, length⟩
        · dsimp only
          omega
      · exact ih (index + 1) (nextSeq seq) (by omega)
          (fun other listed => sized other (List.mem_cons_of_mem chunk listed)) frame later

section Emission

variable [MuxTransport τ]

/-- Frames given to `SendWire` one after the other until one is refused, each counted. -/
def sendAll (qos : QosClass) (id : UInt32) : List ChannelFrame → ChannelMux τ →
    ChannelMux τ × Except String Unit
  | [], mux => (mux, .ok ())
  | frame :: rest, mux =>
      match mux.sendWire id qos (wireOf frame) with
      | (mux, .error message) => (mux, .error message)
      | (mux, .ok _) =>
          match mux.channelById id with
          | none => (mux, .error "amp mux: channel closed while sending")
          | some channel => sendAll qos id rest
              (mux.putChannel id { channel with txSeq := nextSeq channel.txSeq })

theorem sendWire_channelById (mux : ChannelMux τ) (id : UInt32) (qos : QosClass) (wire : Bytes)
    (other : UInt32) : (mux.sendWire id qos wire).1.channelById other = mux.channelById other := by
  unfold channelById
  rw [(sendWire_only mux id qos wire).channels]

theorem sendFrags_eq (qos : QosClass) (id : UInt32) (msgId count total : Nat)
    (chunks : List Bytes) : ∀ (index : Nat) (channel : ChannelRecord) (mux : ChannelMux τ),
    mux.channelById id = some channel → channel.state = .opened →
    sendFrags qos id msgId count total index chunks channel mux =
      sendAll qos id (fragFrames id msgId count total index channel.txSeq chunks) mux := by
  induction chunks with
  | nil => exact fun _ _ _ _ _ => rfl
  | cons chunk rest ih =>
      intro index channel mux found opened
      have encoded : ChannelWire.encode
          ⟨id, channel.txSeq, .frag ⟨msgId, index, count, total, chunk⟩⟩ =
            .ok (wireOf ⟨id, channel.txSeq, .frag ⟨msgId, index, count, total, chunk⟩⟩) := rfl
      have kept := sendWire_channelById mux id qos
        (wireOf ⟨id, channel.txSeq, .frag ⟨msgId, index, count, total, chunk⟩⟩) id
      unfold sendFrags
      rw [fragFrames, sendAll, encoded]
      dsimp only
      generalize mux.sendWire id qos
        (wireOf ⟨id, channel.txSeq, .frag ⟨msgId, index, count, total, chunk⟩⟩) = sent at kept ⊢
      obtain ⟨after, outcome⟩ := sent
      cases outcome with
      | error message => rfl
      | ok _ =>
          have counted : (after.putChannel id
              { channel with txSeq := nextSeq channel.txSeq }).channelById id =
                some { channel with txSeq := nextSeq channel.txSeq } := by
            rw [channelById_putChannel, if_pos rfl]
          dsimp only at kept ⊢
          rw [kept, found]
          dsimp only
          rw [if_neg (fun differs => differs opened)]
          exact ih (index + 1) _ _ counted opened

/-- A send gives these frames to `SendWire`, in their order, or is refused before the first. -/
def Emits (mux : ChannelMux τ) (id : UInt32) (cls : ChannelClass) (frames : List ChannelFrame)
    (result : ChannelMux τ × Except String Unit) : Prop :=
  (∃ start : ChannelMux τ, start.outbox = mux.outbox ∧ start.channels = mux.channels ∧
    result = sendAll (qosForClass cls) id frames start) ∨
  ∃ error, result.2 = .error error ∧ result.1.outbox = mux.outbox

/-- What becomes of a payload: `SendData` emits its frames, each of them within the budget
and read back as it is, and its fragments make it again at any reassembly of the limit. -/
structure RoundTrip (mux : ChannelMux τ) (id : UInt32) (channel : ChannelRecord)
    (payload : Bytes) : Prop where
  emits : Emits mux id channel.policy.cls (mux.payloadFrames id channel.txSeq payload)
    (mux.sendData id payload)
  framed : ∀ frame ∈ mux.payloadFrames id channel.txSeq payload, ∃ wire,
    ChannelWire.encode frame = .ok wire ∧ wire.length ≤ mux.maxFrameBytes ∧
      ChannelWire.decode wire = .ok frame
  assembles : MessageReassembly.Assembles channel.policy.maxMessageBytes mux.nextFragMsgId
    (fragmentsIn (mux.payloadFrames id channel.txSeq payload)) payload

variable {mux : ChannelMux τ} {id : UInt32} {channel : ChannelRecord} {payload : Bytes}

theorem sendData_emits (found : mux.channelById id = some channel)
    (opened : channel.state = .opened) (within : payload.length ≤ channel.policy.maxMessageBytes)
    (few : ¬ mux.fitsOneFrame payload → mux.needed payload ≤ kMaxFragmentsPerMessage) :
    Emits mux id channel.policy.cls (mux.payloadFrames id channel.txSeq payload)
      (mux.sendData id payload) := by
  have small : ¬ channel.policy.maxMessageBytes < payload.length := Nat.not_lt.mpr within
  unfold payloadFrames
  by_cases single : mux.fitsOneFrame payload
  · have fits : payload.length ≤ mux.maxFrameBytes - kChannelHeaderBytes := single
    left
    refine ⟨mux, rfl, rfl, ?_⟩
    have kept := sendWire_channelById mux id (qosForClass channel.policy.cls)
      (wireOf (dataFrame id channel.txSeq payload)) id
    have sent : mux.sendFrame (dataFrame id channel.txSeq payload) channel.policy.cls =
        mux.sendWire id (qosForClass channel.policy.cls)
          (wireOf (dataFrame id channel.txSeq payload)) := rfl
    rw [if_pos single]
    unfold sendData sendAll
    rw [found]
    dsimp only
    rw [if_neg (fun differs => differs opened), if_neg small, if_pos fits, sent]
    generalize mux.sendWire id (qosForClass channel.policy.cls)
      (wireOf (dataFrame id channel.txSeq payload)) = sent at kept ⊢
    obtain ⟨after, outcome⟩ := sent
    cases outcome with
    | error message => rfl
    | ok _ =>
        dsimp only at kept ⊢
        rw [kept, found]
        rfl
  · rw [if_neg single, sendData_long found opened within single, sendFragmented_eq,
      if_neg (Nat.not_lt.mpr (few single))]
    by_cases full : qosForClass channel.policy.cls = .reliable ∧
        mux.tuning.maxQueuedBytes < mux.queuedBytes + payload.length
    · rw [if_pos full]
      exact Or.inr ⟨_, rfl, rfl⟩
    · rw [if_neg full]
      left
      refine ⟨mux.takeMsgId, rfl, rfl, ?_⟩
      exact sendFrags_eq _ id _ _ _ _ 0 channel mux.takeMsgId found opened

/-- The chunks of a payload that does not fit one frame. -/
structure Cut (mux : ChannelMux τ) (payload : Bytes) : Prop where
  whole : (chunksOf mux.chunkBytes (mux.needed payload) payload).flatten = payload
  full : ∀ chunk ∈ chunksOf mux.chunkBytes (mux.needed payload) payload, chunk ≠ []
  some_chunks : chunksOf mux.chunkBytes (mux.needed payload) payload ≠ []
  room : mux.chunkBytes + kChannelHeaderBytes + kChannelFragFieldsBytes ≤ mux.maxFrameBytes

omit [MuxTransport τ] in
theorem cut_of_long (budget : kMinFrameBytes ≤ mux.maxFrameBytes)
    (long : ¬ mux.fitsOneFrame payload) : Cut mux payload := by
  have header : kChannelHeaderBytes = 9 := rfl
  have fields : kChannelFragFieldsBytes = 16 := rfl
  have floor : kMinFrameBytes = 64 := rfl
  have more : ¬ payload.length ≤ mux.maxFrameBytes - kChannelHeaderBytes := long
  have room : mux.chunkBytes + kChannelHeaderBytes + kChannelFragFieldsBytes ≤ mux.maxFrameBytes := by
    unfold chunkBytes
    omega
  have positive : 0 < mux.chunkBytes := by
    unfold chunkBytes
    omega
  have counted := Nat.div_add_mod (payload.length + mux.chunkBytes - 1) mux.chunkBytes
  have remainder := Nat.mod_lt (payload.length + mux.chunkBytes - 1) positive
  have product : mux.chunkBytes * mux.needed payload = mux.needed payload * mux.chunkBytes :=
    Nat.mul_comm ..
  have amount : mux.needed payload = (payload.length + mux.chunkBytes - 1) / mux.chunkBytes := rfl
  rw [← amount] at counted
  obtain ⟨whole, full⟩ := chunksOf_spec mux.chunkBytes positive (mux.needed payload) payload
    (by omega) (by omega)
  refine ⟨whole, full, ?_, room⟩
  intro blank
  rw [blank, List.flatten_nil] at whole
  rw [← whole, List.length_nil] at more
  exact more (Nat.zero_le _)

omit [MuxTransport τ] in
theorem payloadFrames_framed (budget : kMinFrameBytes ≤ mux.maxFrameBytes)
    (few : mux.needed payload ≤ kMaxFragmentsPerMessage) (counter : mux.nextFragMsgId < 2 ^ 64)
    (id seq : UInt32) : ∀ frame ∈ mux.payloadFrames id seq payload, ∃ wire,
      ChannelWire.encode frame = .ok wire ∧ wire.length ≤ mux.maxFrameBytes ∧
        ChannelWire.decode wire = .ok frame := by
  have header : kChannelHeaderBytes = 9 := rfl
  have floor : kMinFrameBytes = 64 := rfl
  have most : kMaxFragmentsPerMessage = 65535 := rfl
  unfold payloadFrames
  by_cases single : mux.fitsOneFrame payload
  · have fits : payload.length ≤ mux.maxFrameBytes - kChannelHeaderBytes := single
    rw [if_pos single]
    intro frame member
    rw [List.mem_singleton.mp member]
    apply data_framed
    omega
  · have cut := cut_of_long budget single
    rw [if_neg single]
    apply fragFrames_framed id counter (by omega) (Nat.mod_lt _ (by decide)) cut.room
    · rw [chunksOf_length]
      omega
    · exact chunksOf_small _ _ payload

omit [MuxTransport τ] in
theorem payloadFrames_fragments (long : ¬ mux.fitsOneFrame payload) (id seq : UInt32) :
    fragmentsIn (mux.payloadFrames id seq payload) =
      (chunksOf mux.chunkBytes (mux.needed payload) payload).mapIdx fun index chunk =>
        ⟨mux.nextFragMsgId, index, mux.needed payload, payload.length % 2 ^ 32, chunk⟩ := by
  unfold payloadFrames
  rw [if_neg long, fragmentsIn_fragFrames]
  simp only [Nat.zero_add]

omit [MuxTransport τ] in
/-- The fragments of a payload whose length its field can hold. -/
theorem payloadFrames_assemble (budget : kMinFrameBytes ≤ mux.maxFrameBytes)
    (within : payload.length ≤ channel.policy.maxMessageBytes)
    (short : mux.fitsOneFrame payload ∨ payload.length < 2 ^ 32) (id seq : UInt32) :
    MessageReassembly.Assembles channel.policy.maxMessageBytes mux.nextFragMsgId
      (fragmentsIn (mux.payloadFrames id seq payload)) payload := by
  by_cases single : mux.fitsOneFrame payload
  · have none_left : fragmentsIn (mux.payloadFrames id seq payload) = [] := by
      unfold payloadFrames
      rw [if_pos single]
      rfl
    intro this arrivals last _ brings
    have closing := brings.closing
    rw [none_left] at closing
    cases closing
  · have cut := cut_of_long budget single
    have total : payload.length % 2 ^ 32 = payload.length :=
      Nat.mod_eq_of_lt (short.resolve_left single)
    have small : (chunksOf mux.chunkBytes (mux.needed payload) payload).flatten.length ≤
        channel.policy.maxMessageBytes := by
      rw [cut.whole]
      exact within
    have assembles : MessageReassembly.Assembles channel.policy.maxMessageBytes mux.nextFragMsgId _ _ :=
      MessageReassembly.fragments_assemble cut.full small
    rw [payloadFrames_fragments single, total]
    unfold MessageReassembly.fragments MessageReassembly.fragmentAt at assembles
    rw [chunksOf_length, cut.whole] at assembles
    exact assembles

omit [MuxTransport τ] in
/-- The fragments of a longer one declare another length, and never make it. -/
theorem payloadFrames_not_assemble (budget : kMinFrameBytes ≤ mux.maxFrameBytes)
    (long : ¬ mux.fitsOneFrame payload) (huge : ¬ payload.length < 2 ^ 32) (limit : Nat)
    (id seq : UInt32) : ¬ MessageReassembly.Assembles limit mux.nextFragMsgId
      (fragmentsIn (mux.payloadFrames id seq payload)) payload := by
  have cut := cut_of_long budget long
  rw [payloadFrames_fragments long]
  apply MessageReassembly.not_assembles
  · intro blank
    have none_left := congrArg List.length blank
    rw [List.length_mapIdx, List.length_nil] at none_left
    exact cut.some_chunks (List.eq_nil_of_length_eq_zero none_left)
  · apply List.Nodup.of_map ChannelFragBody.fragIndex
    have indexes : ((chunksOf mux.chunkBytes (mux.needed payload) payload).mapIdx fun index chunk =>
        (⟨mux.nextFragMsgId, index, mux.needed payload, payload.length % 2 ^ 32, chunk⟩ :
          ChannelFragBody)).map ChannelFragBody.fragIndex =
        List.range (mux.needed payload) := by
      apply List.ext_getElem
      · rw [List.length_map, List.length_mapIdx, List.length_range, chunksOf_length]
      · intro index _ _
        simp
    rw [indexes]
    exact List.nodup_range
  · intro frag member
    obtain ⟨index, inside, rfl⟩ := List.mem_mapIdx.mp member
    rfl
  · intro frag member
    obtain ⟨index, inside, rfl⟩ := List.mem_mapIdx.mp member
    have wrapped := Nat.mod_lt payload.length (show 0 < 2 ^ 32 by decide)
    show payload.length % 2 ^ 32 ≠ payload.length
    omega

/-- A payload goes out and comes together again exactly when it fits one frame or its
length fits the 32 bits that a fragment declares it in. -/
theorem sendData_roundTrip_iff (found : mux.channelById id = some channel)
    (opened : channel.state = .opened) (within : payload.length ≤ channel.policy.maxMessageBytes)
    (budget : kMinFrameBytes ≤ mux.maxFrameBytes)
    (few : mux.needed payload ≤ kMaxFragmentsPerMessage) (counter : mux.nextFragMsgId < 2 ^ 64) :
    RoundTrip mux id channel payload ↔ mux.fitsOneFrame payload ∨ payload.length < 2 ^ 32 := by
  constructor
  · intro trip
    by_contra neither
    rw [not_or] at neither
    exact payloadFrames_not_assemble budget neither.1 neither.2 _ id channel.txSeq trip.assembles
  · intro short
    apply RoundTrip.mk
    · exact sendData_emits found opened within fun _ => few
    · exact payloadFrames_framed budget few counter id channel.txSeq
    · exact payloadFrames_assemble budget within short id channel.txSeq

end Emission

section Sample

theorem sendData_roundTrip_iff_sample :
    RoundTrip (crowded 100) 1 { state := .opened } (List.replicate 80 7) ↔
      (crowded 100).fitsOneFrame (List.replicate 80 7) ∨ (List.replicate 80 (7 : UInt8)).length < 2 ^ 32 := by
  have found : (crowded 100).channelById 1 = some { state := .opened } := rfl
  exact sendData_roundTrip_iff found rfl (by decide) (by decide) (by decide) (by decide)

/-- A mux with a wide budget and one channel open that takes messages of four gigabytes. -/
def spacious : ChannelMux Pipe :=
  { create true {} with
    maxFrameBytes := 70000
    channels := AList.singleton 1 { state := .opened, policy := { maxMessageBytes := 2 ^ 32 } } }

/-- Four gigabytes are announced as none. -/
theorem sendData_wraps : ¬ RoundTrip spacious 1
    { state := .opened, policy := { maxMessageBytes := 2 ^ 32 } } (List.replicate (2 ^ 32) 0) := by
  intro trip
  have length : (List.replicate (2 ^ 32) (0 : UInt8)).length = 2 ^ 32 := List.length_replicate
  apply payloadFrames_not_assemble _ _ _ _ 1 1 trip.assembles
  · decide
  · show ¬ (List.replicate (2 ^ 32) (0 : UInt8)).length ≤ _
    rw [length]
    decide
  · rw [length]
    exact Nat.lt_irrefl _

end Sample

end ChannelMux

end Amp
