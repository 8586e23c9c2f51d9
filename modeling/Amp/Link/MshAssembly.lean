import Mathlib.Data.List.Nodup
import Amp.Lib.Pieces
import Amp.Lib.Run
import Amp.Link.MshCarrier

set_option autoImplicit false

/- How a link puts a handshake message together again from its pieces (PeerLink.cpp). -/
namespace Amp

open Adp (Bytes)
open Pieces

structure MshAssembly where
  type : MshMessageType := .unknown 0
  count : Nat := 0
  parts : List Bytes := []
  bytes : Nat := 0
  deriving DecidableEq, Repr

namespace MshAssembly

/-- `msh_chunk_count_ = 0`: nothing is being put together. -/
def reset (this : MshAssembly) : MshAssembly := { this with count := 0, parts := [], bytes := 0 }

/-- The first piece says how many there are. -/
def begin_ (this : MshAssembly) (chunk : MshChunk) : MshAssembly :=
  if this.count = 0 then
    { type := chunk.type, count := chunk.count, parts := List.replicate chunk.count [], bytes := 0 }
  else this

/-- The message, once no part of it is missing. -/
def finish (this : MshAssembly) : MshAssembly × Except String (Option Bytes) :=
  if this.parts.any List.isEmpty then (this, .ok none)
  else (this.reset, .ok (some (AmpAdpCarrier.encodeMsh this.type this.parts.flatten)))

def pushMshChunk (this : MshAssembly) (chunk : MshChunk) :
    MshAssembly × Except String (Option Bytes) :=
  if chunk.count = 0 ∨ chunk.count ≤ chunk.index then (this, .error "amp link: bad msh chunk meta")
  else if kMaxMshChunkCount < chunk.count then
    (this, .error "amp link: msh chunk count exceeds limit")
  else
    let this := this.begin_ chunk
    if chunk.type ≠ this.type ∨ chunk.count ≠ this.count then
      (this, .error "amp link: msh chunk stream mismatch")
    else if this.parts[chunk.index]? = some [] then
      if kMaxMshMessageBytes < this.bytes + chunk.piece.length then
        (this, .error "amp link: msh chunk stream too large")
      else
        finish { this with
          bytes := this.bytes + chunk.piece.length
          parts := this.parts.set chunk.index chunk.piece }
    else this.finish

/-- The pieces of another message than the one being put together supersede it. -/
def supersede (this : MshAssembly) (chunk : MshChunk) : MshAssembly :=
  if this.count ≠ 0 ∧ (chunk.type ≠ this.type ∨ chunk.count ≠ this.count) then this.reset else this

end MshAssembly

/-- The part of a link that takes handshake payloads in. -/
structure MshIntake where
  assembly : MshAssembly := {}
  /-- Trace: what `HandleMsh` was called with. -/
  handled : List (MshMessageType × Bytes) := []
  /-- Trace: why the association was failed. -/
  failures : List String := []
  deriving DecidableEq, Repr

namespace MshIntake

/-- A whole message goes to the handshake, if it can be read. -/
def handleMshWire (this : MshIntake) (wire : Bytes) : MshIntake :=
  match AmpAdpCarrier.decodeMshType wire, AmpAdpCarrier.decodeMshBody wire with
  | .ok type, .ok body => { this with handled := this.handled ++ [(type, body)] }
  | _, _ => this

def handleCarrierMshChunk (this : MshIntake) (payload : Bytes) : MshIntake :=
  match AmpAdpCarrier.decodeMshChunk payload with
  | .error _ => this
  | .ok chunk =>
      match (this.assembly.supersede chunk).pushMshChunk chunk with
      | (assembly, .ok (some wire)) => { this with assembly := assembly }.handleMshWire wire
      | (assembly, _) => { this with assembly := assembly }

/-- `HandleAdpPayload` of a link that is not connected and has a handshake. -/
def handleAdpPayload (this : MshIntake) (payload : Bytes) : MshIntake :=
  if payload.head? = some AmpAdpPayloadKind.mshChunk.code then
    match AmpAdpCarrier.decodeMshChunk payload with
    | .error _ => this
    | .ok chunk =>
        match this.assembly.pushMshChunk chunk with
        | (assembly, .error message) =>
            { this with assembly := assembly, failures := this.failures ++ [message] }
        | (assembly, .ok none) => { this with assembly := assembly }
        | (assembly, .ok (some wire)) => { this with assembly := assembly }.handleMshWire wire
  else if payload.head? = some AmpAdpPayloadKind.msh.code then this.handleMshWire payload
  else this

/-- A payload on one of the two ways in. -/
inductive Event where
  | adp (payload : Bytes)
  | carrier (payload : Bytes)
  deriving DecidableEq, Repr

def step (this : MshIntake) : Event → MshIntake
  | .adp payload => this.handleAdpPayload payload
  | .carrier payload => this.handleCarrierMshChunk payload

end MshIntake

namespace MshAssembly

variable {this : MshAssembly} {chunk : MshChunk}

section Bounds

/-- The parts are as many and as long as is allowed, and their bytes are counted. -/
structure Bounded (this : MshAssembly) : Prop where
  few : this.parts.length ≤ kMaxMshChunkCount
  counted : this.bytes = (this.parts.map List.length).sum
  small : this.bytes ≤ kMaxMshMessageBytes

theorem reset_bounded (this : MshAssembly) : this.reset.Bounded :=
  ⟨Nat.zero_le _, rfl, Nat.zero_le _⟩

theorem finish_bounded (bounded : this.Bounded) : this.finish.1.Bounded := by
  unfold finish
  split
  · exact bounded
  · exact this.reset_bounded

theorem begin_bounded (bounded : this.Bounded) (few : chunk.count ≤ kMaxMshChunkCount) :
    (this.begin_ chunk).Bounded := by
  unfold begin_
  split
  · refine ⟨by rw [List.length_replicate]; exact few, ?_, Nat.zero_le _⟩
    simp
  · exact bounded

/-- Whatever a piece says, it is taken in within the bounds. -/
theorem pushMshChunk_bounded (bounded : this.Bounded) (chunk : MshChunk) :
    (this.pushMshChunk chunk).1.Bounded := by
  unfold pushMshChunk
  split
  · exact bounded
  · split
    · exact bounded
    · rename_i few
      have begun := begin_bounded bounded (Nat.le_of_not_lt few)
      dsimp only
      split
      · exact begun
      · split
        · rename_i blank
          split
          · exact begun
          · rename_i small
            apply finish_bounded
            refine ⟨by rw [List.length_set]; exact begun.few, ?_, Nat.le_of_not_lt small⟩
            rw [sum_set _ _ _ blank, begun.counted]
        · exact finish_bounded begun

theorem supersede_bounded (bounded : this.Bounded) (chunk : MshChunk) :
    (this.supersede chunk).Bounded := by
  unfold supersede
  split
  · exact this.reset_bounded
  · exact bounded

end Bounds

section Gathering

/-- A message of more than one piece, as its type and its body. -/
structure Message where
  type : MshMessageType
  body : Bytes
  named : MshMessageType.ofCode type.code = type
  long : kMaxMshBodyPerDatagram < body.length
  counted : body.length ≤ 0xFFFF * kMaxMshBodyPerDatagram

namespace Message

def count (message : Message) : Nat := AmpAdpCarrier.mshChunkCount message.body

def pieces (message : Message) : List Bytes :=
  (List.range message.count).map (AmpAdpCarrier.mshPiece message.body)

/-- One of its pieces. -/
def chunkAt (message : Message) (index : Nat) : MshChunk :=
  ⟨message.type, index, message.count, AmpAdpCarrier.mshPiece message.body index⟩

theorem count_spec (message : Message) : 1 < message.count ∧ message.count < 2 ^ 16 ∧
    (message.count - 1) * kMaxMshBodyPerDatagram < message.body.length ∧
    message.body.length ≤ message.count * kMaxMshBodyPerDatagram := by
  obtain ⟨_, body, _, long, counted⟩ := message
  unfold count AmpAdpCarrier.mshChunkCount
  simp only [kMaxMshBodyPerDatagram] at long counted ⊢
  omega

theorem pieces_length (message : Message) : message.pieces.length = message.count := by
  rw [pieces, List.length_map, List.length_range]

theorem pieces_getElem? (message : Message) {index : Nat} (inside : index < message.count) :
    message.pieces[index]? = some (AmpAdpCarrier.mshPiece message.body index) := by
  rw [pieces, List.getElem?_map, List.getElem?_range inside]
  rfl

theorem pieces_flatten (message : Message) : message.pieces.flatten = message.body := by
  rw [pieces]
  refine (flatten_cut message.body kMaxMshBodyPerDatagram message.count).trans ?_
  exact List.take_of_length_le message.count_spec.2.2.2

theorem pieces_full (message : Message) : ∀ piece ∈ message.pieces, piece ≠ [] := by
  intro piece listed
  obtain ⟨index, inside, rfl⟩ := List.mem_map.mp listed
  have inside := List.mem_range.mp inside
  obtain ⟨_, _, tight, _⟩ := message.count_spec
  have before : index * kMaxMshBodyPerDatagram ≤ (message.count - 1) * kMaxMshBodyPerDatagram :=
    Nat.mul_le_mul_right _ (by omega)
  have some_left : 0 < (AmpAdpCarrier.mshPiece message.body index).length := by
    unfold AmpAdpCarrier.mshPiece
    rw [List.length_take, List.length_drop]
    have size : 0 < kMaxMshBodyPerDatagram := by decide
    omega
  exact List.ne_nil_of_length_pos some_left

end Message

/-- The assembly of a message some of whose pieces have come. -/
structure Gathers (message : Message) (seen : Nat → Bool) (this : MshAssembly) : Prop where
  type : this.type = message.type
  count : this.count = message.count
  parts : this.parts = gathered seen message.pieces

/-- Nothing has come, or some pieces of a message but not all of them. -/
def Holds (message : Message) (seen : Nat → Bool) (this : MshAssembly) : Prop :=
  (this.count = 0 ∧ ∀ index, seen index = false) ∨
    this.Gathers message seen ∧ ∃ index < message.count, seen index = false

theorem begin_gathers {message : Message} {seen : Nat → Bool} (holds : this.Holds message seen)
    (index : Nat) : (this.begin_ (message.chunkAt index)).Gathers message seen := by
  unfold begin_
  rcases holds with ⟨idle, none_yet⟩ | ⟨gathers, _⟩
  · rw [if_pos idle]
    refine ⟨rfl, rfl, ?_⟩
    have nothing : seen = fun _ => false := funext none_yet
    show List.replicate message.count [] = _
    rw [nothing, gathered_none, message.pieces_length]
  · have busy : ¬ this.count = 0 := by
      rw [gathers.count]
      have := message.count_spec.1
      omega
    rw [if_neg busy]
    exact gathers

/-- A message is finished when its last piece has come. -/
theorem finish_gathers {message : Message} {seen : Nat → Bool} (gathers : this.Gathers message seen) :
    (∃ index < message.count, seen index = false) ∧ this.finish = (this, .ok none) ∨
      (∀ index < message.count, seen index = true) ∧ this.finish =
        (this.reset, .ok (some (AmpAdpCarrier.encodeMsh message.type message.body))) := by
  have blanks : this.parts.any List.isEmpty = true ↔ ∃ index < message.count, seen index = false := by
    rw [gathers.parts, gathered_blank message.pieces_full, message.pieces_length]
  unfold finish
  by_cases missing : ∃ index < message.count, seen index = false
  · exact Or.inl ⟨missing, if_pos (blanks.mpr missing)⟩
  · right
    have all : ∀ index < message.count, seen index = true := by
      intro index inside
      by_contra absent
      exact missing ⟨index, inside, by simpa using absent⟩
    refine ⟨all, ?_⟩
    rw [if_neg fun blank => missing (blanks.mp blank), gathers.type, gathers.parts,
      gathered_all (by rw [message.pieces_length]; exact all), message.pieces_flatten]

/-- What a piece of a message does to the assembly of it: it is refused, as a message that is too
large may be, or waits for others, or completes them. -/
inductive Pushed (message : Message) (seen : Nat → Bool) (index : Nat) (this : MshAssembly) :
    MshAssembly × Except String (Option Bytes) → Prop where
  | refused {after : MshAssembly} {error : String} (holds : after.Holds message seen)
      (large : kMaxMshMessageBytes < message.body.length) :
      Pushed message seen index this (after, .error error)
  | waits {after : MshAssembly} (holds : after.Holds message (seeing seen index))
      (missing : ∃ other < message.count, seeing seen index other = false) :
      Pushed message seen index this (after, .ok none)
  | completes {after : MshAssembly} (idle : after.count = 0)
      (all : ∀ other < message.count, seeing seen index other = true) :
      Pushed message seen index this
        (after, .ok (some (AmpAdpCarrier.encodeMsh message.type message.body)))

theorem finish_pushed {message : Message} {seen : Nat → Bool} {index : Nat}
    (gathers : this.Gathers message (seeing seen index)) (before : MshAssembly) :
    Pushed message seen index before this.finish := by
  rcases finish_gathers gathers with ⟨missing, same⟩ | ⟨all, same⟩
  · rw [same]
    exact .waits (Or.inr ⟨gathers, missing⟩) missing
  · rw [same]
    exact .completes rfl all

theorem pushMshChunk_pushed {message : Message} {seen : Nat → Bool} {index : Nat}
    (bounded : this.Bounded) (holds : this.Holds message seen) (inside : index < message.count) :
    Pushed message seen index this (this.pushMshChunk (message.chunkAt index)) := by
  have begun := begin_gathers holds index
  have missing : ∃ other < message.count, seen other = false := by
    rcases holds with ⟨_, nothing⟩ | ⟨_, some_left⟩
    · exact ⟨index, inside, nothing index⟩
    · exact some_left
  unfold pushMshChunk
  have goesOn : ¬ ((message.chunkAt index).count = 0 ∨
      (message.chunkAt index).count ≤ (message.chunkAt index).index) := by
    show ¬ (message.count = 0 ∨ message.count ≤ index)
    omega
  rw [if_neg goesOn]
  split
  · rename_i many
    apply Pushed.refused holds
    have many : kMaxMshChunkCount < message.count := many
    obtain ⟨_, _, tight, _⟩ := message.count_spec
    have limit : kMaxMshMessageBytes ≤ kMaxMshChunkCount * kMaxMshBodyPerDatagram := by decide
    have growth : kMaxMshChunkCount * kMaxMshBodyPerDatagram ≤
        (message.count - 1) * kMaxMshBodyPerDatagram := Nat.mul_le_mul_right _ (by omega)
    omega
  · rename_i few
    have few : message.count ≤ kMaxMshChunkCount := Nat.le_of_not_lt few
    have bounded : (this.begin_ (message.chunkAt index)).Bounded := begin_bounded bounded few
    dsimp only
    have same : ¬ ((message.chunkAt index).type ≠ (this.begin_ (message.chunkAt index)).type ∨
        (message.chunkAt index).count ≠ (this.begin_ (message.chunkAt index)).count) := by
      rw [begun.type, begun.count]
      exact fun differs => differs.elim (fun other => other rfl) fun other => other rfl
    rw [if_neg same]
    have slot : (this.begin_ (message.chunkAt index)).parts[(message.chunkAt index).index]? =
        some (if seen index then AmpAdpCarrier.mshPiece message.body index else []) := by
      show (this.begin_ (message.chunkAt index)).parts[index]? = _
      rw [begun.parts, gathered_getElem?, message.pieces_getElem? inside]
      rfl
    split
    · rename_i blank
      have sum := sum_set _ _ (message.chunkAt index).piece blank
      have set : (this.begin_ (message.chunkAt index)).parts.set index
          (message.chunkAt index).piece = gathered (seeing seen index) message.pieces := by
        rw [begun.parts]
        exact gathered_set seen (message.pieces_getElem? inside)
      split
      · rename_i large
        apply Pushed.refused (Or.inr ⟨begun, missing⟩)
        have bound := gathered_sum_le message.pieces (seeing seen index)
        rw [message.pieces_flatten] at bound
        rw [bounded.counted, ← sum] at large
        exact Nat.lt_of_lt_of_le large (set ▸ bound)
      · apply finish_pushed
        exact ⟨begun.type, begun.count, set⟩
    · rename_i full
      have came : seen index = true := by
        by_contra absent
        rw [if_neg absent] at slot
        exact full slot
      have unchanged : seeing seen index = seen := by
        funext other
        unfold seeing
        by_cases here : other = index
        · rw [here, came, Bool.or_true]
        · rw [beq_false_of_ne here, Bool.false_or]
      apply finish_pushed
      rw [unchanged]
      exact begun

end Gathering

end MshAssembly

namespace MshIntake

theorem handleMshWire_assembly (this : MshIntake) (wire : Bytes) :
    (this.handleMshWire wire).assembly = this.assembly := by
  unfold handleMshWire
  split <;> rfl

theorem step_bounded {this : MshIntake} (bounded : this.assembly.Bounded) (event : Event) :
    (this.step event).assembly.Bounded := by
  cases event with
  | adp payload =>
      show (this.handleAdpPayload payload).assembly.Bounded
      unfold handleAdpPayload
      split
      · split
        · exact bounded
        · rename_i chunk _
          have pushed := MshAssembly.pushMshChunk_bounded bounded chunk
          split <;> rename_i assembly _ same <;> rw [same] at pushed
          · exact pushed
          · exact pushed
          · rw [handleMshWire_assembly]
            exact pushed
      · split
        · rw [handleMshWire_assembly]
          exact bounded
        · exact bounded
  | carrier payload =>
      show (this.handleCarrierMshChunk payload).assembly.Bounded
      unfold handleCarrierMshChunk
      split
      · exact bounded
      · rename_i chunk _
        have pushed := MshAssembly.pushMshChunk_bounded
          (MshAssembly.supersede_bounded bounded chunk) chunk
        split <;> rename_i assembly _ same <;> rw [same] at pushed
        · rw [handleMshWire_assembly]
          exact pushed
        · exact pushed

end MshIntake

theorem MshMessageType.code_ofCode (byte : UInt8) : (MshMessageType.ofCode byte).code = byte := by
  unfold MshMessageType.ofCode
  split_ifs with one two three four five
  · exact one.symm
  · exact two.symm
  · exact three.symm
  · exact four.symm
  · exact five.symm
  · rfl

namespace AmpAdpCarrier

theorem decodeMshChunk_encode {chunk : MshChunk} (named : MshMessageType.ofCode chunk.type.code = chunk.type)
    (index16 : chunk.index < 2 ^ 16) (count16 : chunk.count < 2 ^ 16) :
    decodeMshChunk (encodeMshChunk chunk) = .ok chunk := by
  have index := LittleEndian.decode_encode_of_lt 2 chunk.index index16
  have count := LittleEndian.decode_encode_of_lt 2 chunk.count count16
  obtain ⟨type, at_, of_, piece⟩ := chunk
  simp only [LittleEndian.encode] at index count
  simp only [encodeMshChunk, LittleEndian.encode, List.cons_append, List.nil_append, decodeMshChunk,
    ne_eq, not_true_eq_false, ↓reduceIte, index, count, named]

/-- The type of a message on the wire is a byte, whatever it is called. -/
theorem encodeMshChunked_named (type : MshMessageType) (body : Bytes) :
    encodeMshChunked (.ofCode type.code) body = encodeMshChunked type body := by
  simp only [encodeMshChunked, encodeMsh, encodeMshChunk, MshMessageType.code_ofCode]

end AmpAdpCarrier

namespace MshAssembly

theorem Message.mem_chunked (message : Message) {wire : Bytes} :
    wire ∈ AmpAdpCarrier.encodeMshChunked message.type message.body ↔
      ∃ index < message.count, wire = AmpAdpCarrier.encodeMshChunk (message.chunkAt index) := by
  unfold AmpAdpCarrier.encodeMshChunked
  rw [if_neg (Nat.not_le.mpr message.long), List.mem_map]
  constructor
  · rintro ⟨index, inside, rfl⟩
    exact ⟨index, List.mem_range.mp inside, rfl⟩
  · rintro ⟨index, inside, rfl⟩
    exact ⟨index, List.mem_range.mpr inside, rfl⟩

theorem Message.decode_chunkAt (message : Message) {index : Nat} (inside : index < message.count) :
    AmpAdpCarrier.decodeMshChunk (AmpAdpCarrier.encodeMshChunk (message.chunkAt index)) =
      .ok (message.chunkAt index) := by
  have few := message.count_spec.2.1
  exact AmpAdpCarrier.decodeMshChunk_encode message.named (Nat.lt_trans inside few) few

section Feeding

/-- A payload that is a piece is pushed. -/
def feed (this : MshAssembly) (wire : Bytes) : MshAssembly × Except String (Option Bytes) :=
  match AmpAdpCarrier.decodeMshChunk wire with
  | .error message => (this, .error message)
  | .ok chunk => this.pushMshChunk chunk

/-- Payloads one after the other, and what each push gives. -/
def feedAll : MshAssembly → List Bytes → MshAssembly × List (Except String (Option Bytes))
  | this, [] => (this, [])
  | this, wire :: rest =>
      let (this, result) := this.feed wire
      let (this, results) := feedAll this rest
      (this, result :: results)

theorem feed_chunkAt (this : MshAssembly) {message : Message} {index : Nat}
    (inside : index < message.count) :
    this.feed (AmpAdpCarrier.encodeMshChunk (message.chunkAt index)) =
      this.pushMshChunk (message.chunkAt index) := by
  unfold feed
  rw [message.decode_chunkAt inside]

/-- Pieces in any order and however often: they wait for the last missing one. -/
theorem feedAll_message {message : Message} (small : message.body.length ≤ kMaxMshMessageBytes)
    (front : List Nat) (last : Nat) : ∀ (this : MshAssembly) (seen : Nat → Bool), this.Bounded →
    this.Holds message seen → (∀ index ∈ front ++ [last], index < message.count) →
    (∃ index < message.count, seen index = false ∧ index ∉ front) →
    (∀ index < message.count, seen index = true ∨ index ∈ front ++ [last]) →
    (this.feedAll ((front ++ [last]).map fun index =>
        AmpAdpCarrier.encodeMshChunk (message.chunkAt index))).2 =
      List.replicate front.length (.ok none) ++
        [.ok (some (AmpAdpCarrier.encodeMsh message.type message.body))] ∧
    (this.feedAll ((front ++ [last]).map fun index =>
        AmpAdpCarrier.encodeMshChunk (message.chunkAt index))).1.count = 0 := by
  induction front with
  | nil =>
      intro this seen bounded holds inside missing all
      have here := inside last List.mem_cons_self
      have pushed := pushMshChunk_pushed bounded holds here
      have complete : ¬ ∃ other < message.count, seeing seen last other = false := by
        rintro ⟨other, within, absent⟩
        unfold seeing at absent
        rw [Bool.or_eq_false_iff, beq_eq_false_iff_ne] at absent
        rcases all other within with came | new
        · rw [came] at absent
          cases absent.2
        · exact absent.1 (List.mem_singleton.mp new)
      simp only [List.nil_append, List.map_cons, List.map_nil, feedAll, feed_chunkAt this here,
        List.length_nil, List.replicate_zero]
      generalize this.pushMshChunk (message.chunkAt last) = result at pushed
      cases pushed with
      | refused _ large => omega
      | waits _ some_left => exact absurd some_left complete
      | completes idle _ => exact ⟨rfl, idle⟩
  | cons index front ih =>
      intro this seen bounded holds inside missing all
      have here := inside index List.mem_cons_self
      have pushed := pushMshChunk_pushed bounded holds here
      have kept := pushMshChunk_bounded bounded (message.chunkAt index)
      obtain ⟨absent, within, unseen, later⟩ := missing
      have still : seeing seen index absent = false := by
        unfold seeing
        rw [unseen, Bool.or_false, beq_eq_false_iff_ne]
        exact fun same => later (same ▸ List.mem_cons_self)
      simp only [List.cons_append, List.map_cons, feedAll, feed_chunkAt this here,
        List.length_cons, List.replicate_succ]
      generalize this.pushMshChunk (message.chunkAt index) = result at pushed kept
      cases pushed with
      | refused _ large => omega
      | completes _ everything =>
          rw [everything absent within] at still
          cases still
      | @waits after holds _ =>
          have rest := ih after _ kept holds (fun other listed => inside other (List.mem_cons_of_mem _ listed))
            ⟨absent, within, still, fun listed => later (List.mem_cons_of_mem _ listed)⟩ ?_
          · exact ⟨congrArg (List.cons (.ok none)) rest.1, rest.2⟩
          · intro other inRange
            unfold seeing
            rcases all other inRange with came | listed
            · exact Or.inl (by rw [came, Bool.or_true])
            · rcases List.mem_cons.mp listed with same | listed
              · exact Or.inl (by rw [same, beq_self_eq_true, Bool.true_or])
              · exact Or.inr listed

theorem Message.chunkAt_injective (message : Message) {index other : Nat}
    (inside : index < message.count) (within : other < message.count)
    (same : AmpAdpCarrier.encodeMshChunk (message.chunkAt index) =
      AmpAdpCarrier.encodeMshChunk (message.chunkAt other)) : index = other := by
  have decoded := message.decode_chunkAt inside
  rw [same, message.decode_chunkAt within] at decoded
  exact (congrArg MshChunk.index (Except.ok.inj decoded)).symm

theorem Message.indices (message : Message) (wires : List Bytes)
    (each : ∀ wire ∈ wires, wire ∈ AmpAdpCarrier.encodeMshChunked message.type message.body) :
    ∃ indices : List Nat, (∀ index ∈ indices, index < message.count) ∧
      wires = indices.map fun index => AmpAdpCarrier.encodeMshChunk (message.chunkAt index) := by
  induction wires with
  | nil => exact ⟨[], fun _ absent => absurd absent List.not_mem_nil, rfl⟩
  | cons wire rest ih =>
      obtain ⟨index, inside, rfl⟩ := message.mem_chunked.mp (each wire List.mem_cons_self)
      obtain ⟨indices, within, rfl⟩ := ih fun other listed => each other (List.mem_cons_of_mem _ listed)
      refine ⟨index :: indices, ?_, rfl⟩
      intro other listed
      rcases List.mem_cons.mp listed with rfl | later
      · exact inside
      · exact within other later

/-- The pieces of a message, in any order and however often, give the whole message when the last
one that was missing comes, and nothing before. -/
theorem feedAll_chunked {type : MshMessageType} {body : Bytes} (long : kMaxMshBodyPerDatagram < body.length)
    (small : body.length ≤ kMaxMshMessageBytes) {front : List Bytes} {last : Bytes}
    (each : ∀ wire ∈ front ++ [last], wire ∈ AmpAdpCarrier.encodeMshChunked type body)
    (missing : ∃ wire ∈ AmpAdpCarrier.encodeMshChunked type body, wire ∉ front)
    (all : ∀ wire ∈ AmpAdpCarrier.encodeMshChunked type body, wire ∈ front ++ [last])
    (earlier : MshMessageType) :
    (feedAll { type := earlier } (front ++ [last])).2 =
        List.replicate front.length (.ok none) ++ [.ok (some (AmpAdpCarrier.encodeMsh type body))] ∧
      (feedAll { type := earlier } (front ++ [last])).1.count = 0 := by
  have limit : kMaxMshMessageBytes ≤ 0xFFFF * kMaxMshBodyPerDatagram := by decide
  let message : Message := ⟨.ofCode type.code, body, by rw [MshMessageType.code_ofCode], long,
    Nat.le_trans small limit⟩
  have same : AmpAdpCarrier.encodeMshChunked type body =
      AmpAdpCarrier.encodeMshChunked message.type message.body :=
    (AmpAdpCarrier.encodeMshChunked_named type body).symm
  have whole : AmpAdpCarrier.encodeMsh type body =
      AmpAdpCarrier.encodeMsh message.type message.body := by
    simp only [AmpAdpCarrier.encodeMsh, message, MshMessageType.code_ofCode]
  rw [same] at each missing all
  obtain ⟨indices, inside, rfl⟩ := message.indices front fun wire listed =>
    each wire (List.mem_append_left _ listed)
  obtain ⟨final, within, rfl⟩ := message.mem_chunked.mp
    (each last (List.mem_append_right _ List.mem_cons_self))
  obtain ⟨wire, known, absent⟩ := missing
  obtain ⟨index, here, rfl⟩ := message.mem_chunked.mp known
  have fed := feedAll_message small indices final { type := earlier } (fun _ => false)
    ⟨Nat.zero_le _, rfl, Nat.zero_le _⟩
    (Or.inl ⟨rfl, fun _ => rfl⟩) ?_ ⟨index, here, rfl, ?_⟩ ?_
  · rw [List.map_append] at fed
    rw [whole, List.length_map]
    exact fed
  · intro other listed
    rcases List.mem_append.mp listed with front | final
    · exact inside other front
    · rw [List.mem_singleton.mp final]
      exact within
  · exact fun listed => absent (List.mem_map.mpr ⟨index, listed, rfl⟩)
  · intro other inRange
    right
    have listed := all _ (message.mem_chunked.mpr ⟨other, inRange, rfl⟩)
    rcases List.mem_append.mp listed with early | late
    · obtain ⟨twin, member, equal⟩ := List.mem_map.mp early
      have same := message.chunkAt_injective (inside twin member) inRange equal
      exact List.mem_append_left _ (same ▸ member)
    · have same := message.chunkAt_injective inRange within (List.mem_singleton.mp late)
      exact List.mem_append_right _ (List.mem_singleton.mpr same)

/-- A long body is cut into as many pieces as it needs. -/
theorem encodeMshChunked_length {type : MshMessageType} {body : Bytes}
    (long : kMaxMshBodyPerDatagram < body.length) (small : body.length ≤ kMaxMshMessageBytes) :
    (AmpAdpCarrier.encodeMshChunked type body).length =
      (body.length + kMaxMshBodyPerDatagram - 1) / kMaxMshBodyPerDatagram := by
  unfold AmpAdpCarrier.encodeMshChunked AmpAdpCarrier.mshChunkCount
  rw [if_neg (Nat.not_le.mpr long), List.length_map, List.length_range]
  have fits : (body.length + kMaxMshBodyPerDatagram - 1) / kMaxMshBodyPerDatagram < 2 ^ 16 := by
    simp only [kMaxMshBodyPerDatagram, kMaxMshMessageBytes] at small ⊢
    omega
  exact Nat.mod_eq_of_lt fits

/-- The pieces are not of one another: each is of its own place. -/
theorem encodeMshChunked_nodup {type : MshMessageType} {body : Bytes}
    (long : kMaxMshBodyPerDatagram < body.length) (small : body.length ≤ kMaxMshMessageBytes) :
    (AmpAdpCarrier.encodeMshChunked type body).Nodup := by
  have limit : kMaxMshMessageBytes ≤ 0xFFFF * kMaxMshBodyPerDatagram := by decide
  let message : Message := ⟨.ofCode type.code, body, by rw [MshMessageType.code_ofCode], long,
    Nat.le_trans small limit⟩
  rw [← AmpAdpCarrier.encodeMshChunked_named type body]
  unfold AmpAdpCarrier.encodeMshChunked
  rw [if_neg (Nat.not_le.mpr long)]
  apply List.Nodup.map_on _ List.nodup_range
  intro index inside other within same
  exact message.chunkAt_injective (List.mem_range.mp inside) (List.mem_range.mp within) same

end Feeding

end MshAssembly

namespace MshIntake

open MshAssembly

/-- What the peer said, a body for each type byte, each short enough for a count of its pieces. -/
structure Bodies where
  body : UInt8 → Bytes
  counted : ∀ byte, (body byte).length ≤ 0xFFFF * kMaxMshBodyPerDatagram

variable (bodies : Bodies)

/-- A payload of a resend of one of these messages. -/
def Bodies.Sent (wire : Bytes) : Prop :=
  ∃ byte, wire ∈ AmpAdpCarrier.encodeMshChunked (.ofCode byte) (bodies.body byte)

/-- A message that the peer said in pieces. -/
def Bodies.message {byte : UInt8} (long : kMaxMshBodyPerDatagram < (bodies.body byte).length) : Message where
  type := .ofCode byte
  body := bodies.body byte
  named := by rw [MshMessageType.code_ofCode]
  long := long
  counted := bodies.counted byte

/-- Only a message that the peer said is being put together, and only such were handed on. -/
structure Honest (this : MshIntake) : Prop where
  bounded : this.assembly.Bounded
  part : this.assembly.count = 0 ∨ ∃ byte, ∃ long : kMaxMshBodyPerDatagram < (bodies.body byte).length,
    ∃ seen, this.assembly.Holds (bodies.message long) seen
  handled : ∀ type body, (type, body) ∈ this.handled →
    ∃ byte, type = .ofCode byte ∧ body = bodies.body byte

variable {bodies}

/-- A piece finds the assembly of its own message, or none. -/
theorem supersede_holds {this : MshIntake} (honest : this.Honest bodies) {byte : UInt8}
    (long : kMaxMshBodyPerDatagram < (bodies.body byte).length) (index : Nat) : ∃ seen,
    (this.assembly.supersede ((bodies.message long).chunkAt index)).Holds (bodies.message long) seen := by
  unfold supersede
  split
  · exact ⟨fun _ => false, Or.inl ⟨rfl, fun _ => rfl⟩⟩
  · rename_i same
    rcases honest.part with idle | ⟨other, otherLong, seen, holds⟩
    · exact ⟨fun _ => false, Or.inl ⟨idle, fun _ => rfl⟩⟩
    · rcases holds with ⟨idle, nothing⟩ | ⟨gathers, missing⟩
      · exact ⟨seen, Or.inl ⟨idle, nothing⟩⟩
      · have busy : this.assembly.count ≠ 0 := by
          rw [gathers.count]
          have many := (bodies.message otherLong).count_spec.1
          omega
        have typed : ((bodies.message long).chunkAt index).type = this.assembly.type := by
          by_contra differs
          exact same ⟨busy, Or.inl differs⟩
        rw [gathers.type] at typed
        have bytes := congrArg MshMessageType.code typed
        have bytes : byte = other := by
          have left : ((bodies.message long).chunkAt index).type.code = byte :=
            MshMessageType.code_ofCode byte
          have right : (bodies.message otherLong).type.code = other :=
            MshMessageType.code_ofCode other
          rw [← left, bytes, right]
        subst bytes
        exact ⟨seen, Or.inr ⟨gathers, missing⟩⟩

theorem handleMshWire_encode (this : MshIntake) {type : MshMessageType}
    (named : MshMessageType.ofCode type.code = type) (body : Bytes) :
    this.handleMshWire (AmpAdpCarrier.encodeMsh type body) =
      { this with handled := this.handled ++ [(type, body)] } := by
  have typed : AmpAdpCarrier.decodeMshType (AmpAdpCarrier.encodeMsh type body) = .ok type := by
    simp only [AmpAdpCarrier.encodeMsh, AmpAdpCarrier.decodeMshType, ne_eq, not_true_eq_false,
      ↓reduceIte, named]
  have read : AmpAdpCarrier.decodeMshBody (AmpAdpCarrier.encodeMsh type body) = .ok body := by
    unfold AmpAdpCarrier.decodeMshBody AmpAdpCarrier.encodeMsh
    rw [if_neg (by simp)]
    rfl
  unfold handleMshWire
  rw [typed, read]

theorem step_honest {this : MshIntake} (honest : this.Honest bodies) {wire : Bytes}
    (sent : bodies.Sent wire) : (this.step (.carrier wire)).Honest bodies := by
  obtain ⟨byte, listed⟩ := sent
  show (this.handleCarrierMshChunk wire).Honest bodies
  by_cases long : kMaxMshBodyPerDatagram < (bodies.body byte).length
  · obtain ⟨index, inside, rfl⟩ := (bodies.message long).mem_chunked.mp listed
    obtain ⟨seen, holds⟩ := supersede_holds honest long index
    have room := supersede_bounded honest.bounded ((bodies.message long).chunkAt index)
    have pushed := pushMshChunk_pushed room holds inside
    have kept := pushMshChunk_bounded room ((bodies.message long).chunkAt index)
    unfold handleCarrierMshChunk
    rw [(bodies.message long).decode_chunkAt inside]
    dsimp only
    generalize (this.assembly.supersede ((bodies.message long).chunkAt index)).pushMshChunk
      ((bodies.message long).chunkAt index) = result at pushed kept
    cases pushed with
    | refused holds _ => exact ⟨kept, Or.inr ⟨byte, long, _, holds⟩, honest.handled⟩
    | waits holds _ => exact ⟨kept, Or.inr ⟨byte, long, _, holds⟩, honest.handled⟩
    | completes idle _ =>
        dsimp only
        rw [handleMshWire_encode _ (bodies.message long).named]
        refine ⟨kept, Or.inl idle, ?_⟩
        intro type body member
        rcases List.mem_append.mp member with old | new
        · exact honest.handled type body old
        · obtain ⟨rfl, rfl⟩ := Prod.mk.inj (List.mem_singleton.mp new)
          exact ⟨byte, rfl, rfl⟩
  · -- a message in one piece is no piece of a message
    have whole : wire = AmpAdpCarrier.encodeMsh (.ofCode byte) (bodies.body byte) := by
      unfold AmpAdpCarrier.encodeMshChunked at listed
      rw [if_pos (Nat.le_of_not_lt long)] at listed
      exact List.mem_singleton.mp listed
    have refused : ∃ message, AmpAdpCarrier.decodeMshChunk wire = .error message := by
      rw [whole]
      unfold AmpAdpCarrier.decodeMshChunk AmpAdpCarrier.encodeMsh
      split
      · rename_i kind _ _ _ _ _ _ same
        have other : kind ≠ AmpAdpPayloadKind.mshChunk.code := by
          rw [← (List.cons.inj same).1]
          decide
        rw [if_pos other]
        exact ⟨_, rfl⟩
      · exact ⟨_, rfl⟩
    obtain ⟨message, refused⟩ := refused
    unfold handleCarrierMshChunk
    rw [refused]
    exact honest

/-- What holds of the pieces of handshake messages: those of one message make it again, no sender
makes a link keep more than the limits, and those of an honest peer make what it said. -/
structure ChunkingLaws : Prop where
  pieces : ∀ (type : MshMessageType) (body : Bytes), kMaxMshBodyPerDatagram < body.length →
    body.length ≤ kMaxMshMessageBytes →
    (AmpAdpCarrier.encodeMshChunked type body).Nodup ∧
      (AmpAdpCarrier.encodeMshChunked type body).length =
        (body.length + kMaxMshBodyPerDatagram - 1) / kMaxMshBodyPerDatagram ∧
      1 < (AmpAdpCarrier.encodeMshChunked type body).length
  -- a list of pieces that has each of them makes the message somewhere, at the last missing one
  completes : ∀ (type : MshMessageType) (body : Bytes) (wires : List Bytes) (earlier : MshMessageType),
    kMaxMshBodyPerDatagram < body.length → body.length ≤ kMaxMshMessageBytes →
    (∀ wire ∈ wires, wire ∈ AmpAdpCarrier.encodeMshChunked type body) →
    (∀ wire ∈ AmpAdpCarrier.encodeMshChunked type body, wire ∈ wires) →
    ∃ front last rest, wires = front ++ last :: rest ∧
      (∃ wire ∈ AmpAdpCarrier.encodeMshChunked type body, wire ∉ front) ∧
      (∀ wire ∈ AmpAdpCarrier.encodeMshChunked type body, wire ∈ front ++ [last]) ∧
      (feedAll { type := earlier } (front ++ [last])).2 =
        List.replicate front.length (.ok none) ++ [.ok (some (AmpAdpCarrier.encodeMsh type body))] ∧
      (feedAll { type := earlier } (front ++ [last])).1.count = 0
  whole : ∀ (type : MshMessageType) (body : Bytes) (front : List Bytes) (last : Bytes)
    (earlier : MshMessageType), kMaxMshBodyPerDatagram < body.length →
    body.length ≤ kMaxMshMessageBytes →
    (∀ wire ∈ front ++ [last], wire ∈ AmpAdpCarrier.encodeMshChunked type body) →
    (∃ wire ∈ AmpAdpCarrier.encodeMshChunked type body, wire ∉ front) →
    (∀ wire ∈ AmpAdpCarrier.encodeMshChunked type body, wire ∈ front ++ [last]) →
    (feedAll { type := earlier } (front ++ [last])).2 =
        List.replicate front.length (.ok none) ++ [.ok (some (AmpAdpCarrier.encodeMsh type body))] ∧
      (feedAll { type := earlier } (front ++ [last])).1.count = 0
  bounded : ∀ events : List Event, Run.Always step (fun this => this.assembly.Bounded) {} events
  honest : ∀ (bodies : Bodies) (wires : List Bytes), (∀ wire ∈ wires, bodies.Sent wire) →
    ∀ type body, (type, body) ∈ (Run.exec step {} (wires.map Event.carrier)).handled →
      ∃ byte, type = .ofCode byte ∧ body = bodies.body byte

theorem chunking_laws : ChunkingLaws where
  pieces type body long small := by
    refine ⟨encodeMshChunked_nodup long small, encodeMshChunked_length long small, ?_⟩
    rw [encodeMshChunked_length long small]
    simp only [kMaxMshBodyPerDatagram] at long ⊢
    omega
  completes type body wires earlier long small each all := by
    have present : AmpAdpCarrier.encodeMshChunked type body ≠ [] := by
      apply List.ne_nil_of_length_pos
      rw [encodeMshChunked_length long small]
      simp only [kMaxMshBodyPerDatagram] at long ⊢
      omega
    obtain ⟨front, last, rest, rfl, missing, complete⟩ := Pieces.last_missing present wires all
    have made := feedAll_chunked long small (fun wire listed => each wire ?_) missing complete earlier
    · exact ⟨front, last, rest, rfl, missing, complete, made.1, made.2⟩
    · rw [List.append_cons]
      exact List.mem_append_left _ listed
  whole _ _ _ _ earlier long small each missing all := feedAll_chunked long small each missing all earlier
  bounded events := by
    apply Run.always_of_invariant step (fun _ _ => True) (fun this => this.assembly.Bounded) _
      (fun _ event _ bounded => step_bounded bounded event) (fun _ bounded => bounded) events
    · exact Run.meets_of_forall step _ (fun _ _ => trivial) events _
    · exact ⟨Nat.zero_le _, rfl, Nat.zero_le _⟩
  honest bodies wires sent := by
    have reached : (Run.exec step {} (wires.map Event.carrier)).Honest bodies := by
      apply Run.invariant step (fun _ event => ∃ wire, event = .carrier wire ∧ bodies.Sent wire)
      · rintro this event ⟨wire, rfl, said⟩ honest
        exact step_honest honest said
      · apply Run.meets_of_listed
        intro event listed
        obtain ⟨wire, member, rfl⟩ := List.mem_map.mp listed
        exact ⟨wire, rfl, sent wire member⟩
      · exact ⟨⟨Nat.zero_le _, rfl, Nat.zero_le _⟩, Or.inl rfl, nofun⟩
    exact reached.handled

/-- A body of 901 bytes: its second piece comes twice, then its first. -/
theorem chunking_laws_sample : ∃ first second,
    AmpAdpCarrier.encodeMshChunked .clientHello (List.replicate 901 7) = [first, second] ∧
    first ≠ second ∧ (feedAll {} ([second, second] ++ [first])).2 = [.ok none, .ok none,
      .ok (some (AmpAdpCarrier.encodeMsh .clientHello (List.replicate 901 7)))] := by
  have size : (List.replicate 901 (7 : UInt8)).length = 901 := List.length_replicate
  have long : kMaxMshBodyPerDatagram < (List.replicate 901 (7 : UInt8)).length := by
    rw [size]
    decide
  have small : (List.replicate 901 (7 : UInt8)).length ≤ kMaxMshMessageBytes := by
    rw [size]
    decide
  obtain ⟨different, count, _⟩ := chunking_laws.pieces .clientHello _ long small
  rw [size] at count
  have whole := chunking_laws.whole .clientHello (List.replicate 901 7)
  generalize AmpAdpCarrier.encodeMshChunked .clientHello (List.replicate 901 7) = pieces
    at different count whole
  obtain ⟨first, second, rfl⟩ := List.length_eq_two.mp count
  have apart : first ≠ second := by simpa using different
  refine ⟨first, second, rfl, apart, ?_⟩
  have made := whole [second, second] first (.unknown 0) long small ?_ ⟨first, ?_, ?_⟩ ?_
  · exact made.1
  · simp
  · simp
  · simpa using apart
  · simp

end MshIntake

end Amp
