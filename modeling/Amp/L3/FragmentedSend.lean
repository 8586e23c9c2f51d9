import Amp.L3.ChannelLine
import Amp.L3.SendQueue

set_option autoImplicit false

/- Whether `SendData` takes all of a message or nothing of it. -/
namespace Amp

open Adp (Bytes QosClass)

/-- A transport that reports no failure. -/
class UnfailingTransport (τ : Type) [MuxTransport τ] : Prop where
  sends : ∀ (transport : τ) (qos : QosClass) (wire : Bytes),
    (MuxTransport.send transport qos wire).2 = .ok ()

namespace ChannelMux

variable {τ : Type}

/-- The bytes of a frame that encodes. -/
def wireOf (frame : ChannelFrame) : Bytes :=
  match ChannelWire.encode frame with
  | .ok wire => wire
  | .error _ => []

def chunkBytes (mux : ChannelMux τ) : Nat :=
  mux.maxFrameBytes - kChannelHeaderBytes - kChannelFragFieldsBytes

/-- How many fragments a payload takes. -/
def needed (mux : ChannelMux τ) (payload : Bytes) : Nat :=
  (payload.length + mux.chunkBytes - 1) / mux.chunkBytes

def fitsOneFrame (mux : ChannelMux τ) (payload : Bytes) : Prop :=
  payload.length ≤ mux.maxFrameBytes - kChannelHeaderBytes

instance (mux : ChannelMux τ) (payload : Bytes) : Decidable (mux.fitsOneFrame payload) :=
  inferInstanceAs (Decidable (_ ≤ _))

/-- The frames `SendData` makes of a payload. -/
def payloadFrames (mux : ChannelMux τ) (id seq : UInt32) (payload : Bytes) : List ChannelFrame :=
  if mux.fitsOneFrame payload then [dataFrame id seq payload]
  else fragFrames id mux.nextFragMsgId (mux.needed payload) (payload.length % 2 ^ 32) 0 seq
    (chunksOf mux.chunkBytes (mux.needed payload) payload)

def payloadWires (mux : ChannelMux τ) (id seq : UInt32) (payload : Bytes) : List Bytes :=
  (mux.payloadFrames id seq payload).map wireOf

section Placing

variable [MuxTransport τ]

/-- How many of these frames the transport has credit for, one after the other. -/
def directly : τ → List Bytes → Nat
  | _, [] => 0
  | transport, wire :: rest =>
      if 0 < MuxTransport.credits transport then
        directly (MuxTransport.send transport .reliable wire).1 rest + 1
      else 0

/-- The transport once it was handed some reliable frames. -/
def handed (transport : τ) (wires : List Bytes) : τ :=
  wires.foldl (fun transport wire => (MuxTransport.send transport .reliable wire).1) transport

/-- How many of a channel's next frames pass its queue by, once a flush is done. -/
def passing (mux : ChannelMux τ) (id : UInt32) (wires : List Bytes) : Nat :=
  if (mux.queueOf id).isEmpty then directly mux.transport wires else 0

/-- All frames that cannot be passed on at once have room in the queue. -/
def Roomy (mux : ChannelMux τ) (id : UInt32) (wires : List Bytes) : Prop :=
  mux.passing id wires = wires.length ∨
    mux.queuedBytes + bytesOf (wires.drop (mux.passing id wires)) ≤ mux.tuning.maxQueuedBytes

/-- Not even the first frame has a place. -/
def Blocked (mux : ChannelMux τ) (id : UInt32) (wires : List Bytes) : Prop :=
  mux.passing id wires = 0 ∧ mux.tuning.maxQueuedBytes < mux.queuedBytes + bytesOf (wires.take 1)

instance (mux : ChannelMux τ) (id : UInt32) (wires : List Bytes) : Decidable (mux.Roomy id wires) :=
  inferInstanceAs (Decidable (_ ∨ _))

instance (mux : ChannelMux τ) (id : UInt32) (wires : List Bytes) :
    Decidable (mux.Blocked id wires) :=
  inferInstanceAs (Decidable (_ ∧ _))

/-- A channel's frames, the first of them sent and the others queued in their order. -/
structure Placed (id : UInt32) (wires : List Bytes) (before after : ChannelMux τ) : Prop where
  transport : after.transport =
    handed before.transport (wires.take (before.passing id wires))
  queue : after.queueOf id = before.queueOf id ++ wires.drop (before.passing id wires)
  bytes : after.queuedBytes =
    before.queuedBytes + bytesOf (wires.drop (before.passing id wires))

theorem flushQueued_of_settled {mux : ChannelMux τ} (settled : mux.Settled) :
    mux.flushQueued = mux := flushTurns_of_settled settled _

/-- After a flush a reliable frame passes its empty queue, waits, or is refused. -/
theorem sendWire_settled [UnfailingTransport τ] {mux : ChannelMux τ} (settled : mux.Settled)
    (id : UInt32) (wire : Bytes) : mux.sendWire id .reliable wire =
      if (mux.queueOf id).isEmpty && mux.hasReliableCredit then
        ({ mux with transport := (MuxTransport.send mux.transport .reliable wire).1 }, .ok ())
      else if mux.tuning.maxQueuedBytes < mux.queuedBytes + wire.length then
        (mux, .error "amp mux: send queue full")
      else (mux.enqueue id wire, .ok ()) := by
  have sends := UnfailingTransport.sends mux.transport .reliable wire
  unfold sendWire
  rw [if_neg (fun differs => differs rfl), flushQueued_of_settled settled]
  dsimp only
  split
  · unfold transmit
    exact Prod.ext rfl sends
  · rfl

theorem Settled.transmit {mux : ChannelMux τ} (settled : mux.Settled)
    (credit : mux.hasReliableCredit = true) (transport : τ) :
    Settled { mux with transport := transport } := by
  rcases settled with idle | broke
  · exact Or.inl idle
  · rw [credit] at broke
    cases broke

/-- A frame that had to wait leaves nothing to flush either. -/
theorem Settled.enqueue {mux : ChannelMux τ} (settled : mux.Settled) {id : UInt32}
    (waits : ¬ ((mux.queueOf id).isEmpty && mux.hasReliableCredit) = true) (wire : Bytes) :
    (mux.enqueue id wire).Settled := by
  rcases settled with idle | broke
  · by_cases credit : mux.hasReliableCredit = true
    · have some_left : ¬ (mux.queueOf id).isEmpty = true := by
        intro blank
        exact waits (by rw [blank, credit]; rfl)
      left
      show (if (mux.queueOf id).isEmpty then mux.sendOrder ++ [id] else mux.sendOrder) = []
      rw [if_neg some_left]
      exact idle
    · exact Or.inr (Bool.eq_false_iff.mpr credit)
  · exact Or.inr broke

/-- What sending a channel's frames one after the other comes to. -/
structure Outcome (id : UInt32) (channel : ChannelRecord) (wires : List Bytes)
    (before : ChannelMux τ) (result : ChannelMux τ × Except String Unit) : Prop where
  roomy : before.Roomy id wires → result.2 = .ok () ∧ Placed id wires before result.1 ∧
    result.1.channelById id = some { channel with txSeq := seqAfter wires.length channel.txSeq }
  short : ¬ before.Roomy id wires → ∃ error placed, result.2 = .error error ∧
    placed < wires.length ∧
    result.1.channelById id = some { channel with txSeq := seqAfter placed channel.txSeq } ∧
    (placed = 0 → before.Blocked id wires ∧ result.1.outbox = before.outbox) ∧
    (before.Blocked id wires → placed = 0)

/-- A frame that passes the queue, and the frames after it. -/
theorem Outcome.direct {mux after : ChannelMux τ} {id : UInt32} {channel : ChannelRecord}
    {wire : Bytes} {rest : List Bytes} {result : ChannelMux τ × Except String Unit}
    (direct : ((mux.queueOf id).isEmpty && mux.hasReliableCredit) = true)
    (transport : after.transport = (MuxTransport.send mux.transport .reliable wire).1)
    (queues : after.sendQueues = mux.sendQueues) (bytes : after.queuedBytes = mux.queuedBytes)
    (tuning : after.tuning = mux.tuning)
    (later : Outcome id { channel with txSeq := nextSeq channel.txSeq } rest after result) :
    Outcome id channel (wire :: rest) mux result := by
  obtain ⟨blank, credit⟩ := Bool.and_eq_true_iff.mp direct
  have some_left : 0 < MuxTransport.credits mux.transport := of_decide_eq_true credit
  have queue : after.queueOf id = mux.queueOf id := by rw [queueOf, queueOf, queues]
  have passing : mux.passing id (wire :: rest) = after.passing id rest + 1 := by
    rw [ChannelMux.passing, ChannelMux.passing, queue, if_pos blank, if_pos blank, directly,
      if_pos some_left, transport]
  have roomy : mux.Roomy id (wire :: rest) ↔ after.Roomy id rest := by
    rw [Roomy, Roomy, passing, bytes, tuning, List.drop_succ_cons, List.length_cons,
      Nat.add_right_cancel_iff]
  refine ⟨?_, ?_⟩
  · intro room
    obtain ⟨ok, placed, record⟩ := later.roomy (roomy.mp room)
    refine ⟨ok, ⟨?_, ?_, ?_⟩, record⟩
    · rw [placed.transport, passing, transport, List.take_succ_cons]
      rfl
    · rw [placed.queue, passing, queue, List.drop_succ_cons]
    · rw [placed.bytes, passing, bytes, List.drop_succ_cons]
  · intro crowded
    obtain ⟨error, placed, failed, fewer, record, _, _⟩ :=
      later.short fun room => crowded (roomy.mpr room)
    refine ⟨error, placed + 1, failed, Nat.succ_lt_succ fewer, record,
      fun none => absurd none (Nat.succ_ne_zero _), ?_⟩
    intro blocked
    rw [Blocked, passing] at blocked
    exact absurd blocked.1 (Nat.succ_ne_zero _)

theorem passing_waits {mux : ChannelMux τ} {id : UInt32}
    (waits : ¬ ((mux.queueOf id).isEmpty && mux.hasReliableCredit) = true) (wire : Bytes)
    (rest : List Bytes) : mux.passing id (wire :: rest) = 0 := by
  unfold passing
  split
  · rename_i blank
    unfold directly
    rw [if_neg]
    intro some_left
    exact waits (by rw [blank]; exact decide_eq_true some_left)
  · rfl

/-- A frame that waits, and the frames after it, which wait too. -/
theorem Outcome.waits {mux after : ChannelMux τ} {id : UInt32} {channel : ChannelRecord}
    {wire : Bytes} {rest : List Bytes} {result : ChannelMux τ × Except String Unit}
    (waits : ¬ ((mux.queueOf id).isEmpty && mux.hasReliableCredit) = true)
    (room : ¬ mux.tuning.maxQueuedBytes < mux.queuedBytes + wire.length)
    (transport : after.transport = mux.transport)
    (queue : after.queueOf id = mux.queueOf id ++ [wire])
    (bytes : after.queuedBytes = mux.queuedBytes + wire.length)
    (tuning : after.tuning = mux.tuning)
    (later : Outcome id { channel with txSeq := nextSeq channel.txSeq } rest after result) :
    Outcome id channel (wire :: rest) mux result := by
  have first := passing_waits waits wire rest
  have others : after.passing id rest = 0 := by
    rw [ChannelMux.passing, if_neg]
    simp [queue]
  have roomy : mux.Roomy id (wire :: rest) ↔ after.Roomy id rest := by
    rw [Roomy, Roomy, first, others, bytes, tuning, List.drop_zero, List.drop_zero, bytesOf_cons,
      Nat.add_assoc]
    constructor
    · rintro (none_left | fits)
      · cases none_left
      · exact Or.inr fits
    · rintro (none_left | fits)
      · have blank : rest = [] := List.eq_nil_of_length_eq_zero none_left.symm
        right
        rw [blank, bytesOf_nil]
        omega
      · exact Or.inr fits
  refine ⟨?_, ?_⟩
  · intro enough
    obtain ⟨ok, placed, record⟩ := later.roomy (roomy.mp enough)
    refine ⟨ok, ⟨?_, ?_, ?_⟩, record⟩
    · rw [placed.transport, first, others, transport]
      rfl
    · rw [placed.queue, first, others, queue, List.append_assoc]
      rfl
    · rw [placed.bytes, first, others, bytes, List.drop_zero, List.drop_zero, bytesOf_cons,
        Nat.add_assoc]
  · intro crowded
    obtain ⟨error, placed, failed, fewer, record, _, _⟩ :=
      later.short fun enough => crowded (roomy.mpr enough)
    refine ⟨error, placed + 1, failed, Nat.succ_lt_succ fewer, record,
      fun none => absurd none (Nat.succ_ne_zero _), ?_⟩
    intro blocked
    have full := blocked.2
    rw [List.take_succ_cons, List.take_zero, bytesOf_cons, bytesOf_nil] at full
    exact absurd full room

theorem Outcome.done {mux : ChannelMux τ} {id : UInt32} {channel : ChannelRecord}
    (found : mux.channelById id = some channel) : Outcome id channel [] mux (mux, .ok ()) := by
  refine ⟨?_, ?_⟩
  · intro _
    refine ⟨rfl, ⟨?_, ?_, ?_⟩, found⟩
    · rw [List.take_nil]
      rfl
    · rw [List.drop_nil, List.append_nil]
    · rw [List.drop_nil, bytesOf_nil, Nat.add_zero]
  · intro crowded
    have empty : mux.passing id [] = 0 := by
      unfold passing
      split <;> rfl
    exact absurd (Or.inl empty) crowded

/-- A frame without room, which ends the send. -/
theorem Outcome.full {mux : ChannelMux τ} {id : UInt32} {channel : ChannelRecord}
    {wire : Bytes} (waits : ¬ ((mux.queueOf id).isEmpty && mux.hasReliableCredit) = true)
    (full : mux.tuning.maxQueuedBytes < mux.queuedBytes + wire.length)
    (found : mux.channelById id = some channel) (rest : List Bytes) (error : String) :
    Outcome id channel (wire :: rest) mux (mux, .error error) := by
  have first := passing_waits waits wire rest
  have blocked : mux.Blocked id (wire :: rest) := by
    refine ⟨first, ?_⟩
    rw [List.take_succ_cons, List.take_zero, bytesOf_cons, bytesOf_nil]
    exact full
  refine ⟨?_, ?_⟩
  · rintro (none_left | fits)
    · rw [first] at none_left
      cases none_left
    · rw [first, List.drop_zero, bytesOf_cons] at fits
      omega
  · intro _
    exact ⟨error, 0, rfl, Nat.succ_pos _, found, fun _ => ⟨blocked, rfl⟩, fun _ => rfl⟩

/-- The loop of `SendData` over its fragments. -/
theorem sendFrags_outcome [UnfailingTransport τ] (id : UInt32) (msgId count total : Nat)
    (chunks : List Bytes) : ∀ (index : Nat) (channel : ChannelRecord) (mux : ChannelMux τ),
    mux.Settled → mux.channelById id = some channel → channel.state = .opened →
    Outcome id channel ((fragFrames id msgId count total index channel.txSeq chunks).map wireOf) mux
      (sendFrags .reliable id msgId count total index chunks channel mux) := by
  induction chunks with
  | nil =>
      intro index channel mux _ found _
      exact Outcome.done found
  | cons chunk rest ih =>
      intro index channel mux settled found opened
      have encoded : ChannelWire.encode ⟨id, channel.txSeq, .frag ⟨msgId, index, count, total, chunk⟩⟩ =
          .ok (wireOf ⟨id, channel.txSeq, .frag ⟨msgId, index, count, total, chunk⟩⟩) := rfl
      unfold sendFrags
      rw [encoded, fragFrames, List.map_cons]
      dsimp only
      generalize wireOf ⟨id, channel.txSeq, .frag ⟨msgId, index, count, total, chunk⟩⟩ = wire
      rw [sendWire_settled settled]
      by_cases direct : ((mux.queueOf id).isEmpty && mux.hasReliableCredit) = true
      · rw [if_pos direct]
        have same : channelById { mux with transport :=
            (MuxTransport.send mux.transport .reliable wire).1 } id = some channel := found
        dsimp only
        rw [same]
        dsimp only
        rw [if_neg (fun differs => differs opened)]
        apply Outcome.direct direct _ _ _ _ (ih (index + 1) _ _ _ _ _)
        · rfl
        · rfl
        · rfl
        · rfl
        · exact settled.transmit (Bool.and_eq_true_iff.mp direct).2 _
        · rw [channelById_putChannel, if_pos rfl]
        · exact opened
      · rw [if_neg direct]
        by_cases full : mux.tuning.maxQueuedBytes < mux.queuedBytes + wire.length
        · rw [if_pos full]
          exact Outcome.full direct full found _ _
        · rw [if_neg full]
          have same : (mux.enqueue id wire).channelById id = some channel := found
          dsimp only
          rw [same]
          dsimp only
          rw [if_neg (fun differs => differs opened)]
          apply Outcome.waits direct full _ _ _ _ (ih (index + 1) _ _ _ _ _)
          · rfl
          · show (mux.enqueue id wire).queueOf id = _
            rw [queueOf_enqueue, if_pos rfl]
          · rfl
          · rfl
          · exact settled.enqueue direct wire
          · rw [channelById_putChannel, if_pos rfl]
          · exact opened

theorem flushQueued_idem (mux : ChannelMux τ) : mux.flushQueued.flushQueued = mux.flushQueued :=
  flushQueued_of_settled (flushQueued_settled mux)

theorem sendWire_flushed (mux : ChannelMux τ) (id : UInt32) (wire : Bytes) :
    mux.flushQueued.sendWire id .reliable wire = mux.sendWire id .reliable wire := by
  unfold sendWire
  rw [flushQueued_idem]
  rfl

/-- The first fragment flushes, so the loop may as well start after a flush. -/
theorem sendFrags_flushed (id : UInt32) (msgId count total index : Nat) {chunks : List Bytes}
    (some_left : chunks ≠ []) (channel : ChannelRecord) (mux : ChannelMux τ) :
    sendFrags .reliable id msgId count total index chunks channel mux.flushQueued =
      sendFrags .reliable id msgId count total index chunks channel mux := by
  cases chunks with
  | nil => exact absurd rfl some_left
  | cons chunk rest =>
      have encoded : ChannelWire.encode ⟨id, channel.txSeq, .frag ⟨msgId, index, count, total, chunk⟩⟩ =
          .ok (wireOf ⟨id, channel.txSeq, .frag ⟨msgId, index, count, total, chunk⟩⟩) := rfl
      unfold sendFrags
      rw [encoded]
      simp only [sendWire_flushed]

theorem flushQueued_takeMsgId (mux : ChannelMux τ) :
    mux.takeMsgId.flushQueued = mux.flushQueued.takeMsgId := by
  have alone : flushTurns mux.turnsLeft mux.takeMsgId =
      mux.takeMsgId.withOutbox (flushTurns mux.turnsLeft mux).outbox := flushTurns_congr _ rfl
  have flushed : mux.flushQueued = mux.withOutbox (flushTurns mux.turnsLeft mux).outbox :=
    mux.flushQueued_only
  rw [flushed]
  exact alone

/-- A send takes all of a payload or nothing of it: one that fails changes neither what
is sent and queued, but for the flush it began with, nor the channel's number; one that
succeeds has every frame sent or queued, within the queue's bound. -/
structure Whole (mux : ChannelMux τ) (id : UInt32) (channel : ChannelRecord) (wires : List Bytes)
    (result : ChannelMux τ × Except String Unit) : Prop where
  refused : ∀ error, result.2 = .error error →
    (result.1.outbox = mux.outbox ∨ result.1.outbox = mux.flushQueued.outbox) ∧
    (result.1.channelById id).map ChannelRecord.txSeq = some channel.txSeq
  sent : result.2 = .ok () → Placed id wires mux.flushQueued result.1 ∧
    (mux.queuedBytes ≤ mux.tuning.maxQueuedBytes →
      result.1.queuedBytes ≤ mux.tuning.maxQueuedBytes)

/-- A payload of one frame, or refused before its first fragment, or with room for every
fragment that the transport has no credit for, or without room for even the first. -/
def Unstranded (mux : ChannelMux τ) (id seq : UInt32) (payload : Bytes) : Prop :=
  mux.fitsOneFrame payload ∨ kMaxFragmentsPerMessage < mux.needed payload ∨
    mux.tuning.maxQueuedBytes < mux.queuedBytes + payload.length ∨
    mux.flushQueued.Roomy id (mux.payloadWires id seq payload) ∨
    mux.flushQueued.Blocked id (mux.payloadWires id seq payload)

instance (mux : ChannelMux τ) (id seq : UInt32) (payload : Bytes) :
    Decidable (mux.Unstranded id seq payload) :=
  inferInstanceAs (Decidable (_ ∨ _ ∨ _ ∨ _ ∨ _))

variable {mux : ChannelMux τ} {id : UInt32} {channel : ChannelRecord} {payload : Bytes}

theorem flushQueued_channelById (mux : ChannelMux τ) (id : UInt32) :
    mux.flushQueued.channelById id = mux.channelById id := by
  unfold channelById
  rw [mux.flushQueued_only.channels]

/-- What is placed stays within the queue's bound. -/
theorem Placed.bounded {wires : List Bytes} {after : ChannelMux τ}
    (placed : Placed id wires mux.flushQueued after) (room : mux.flushQueued.Roomy id wires)
    (bounded : mux.queuedBytes ≤ mux.tuning.maxQueuedBytes) :
    after.queuedBytes ≤ mux.tuning.maxQueuedBytes := by
  have tuning := mux.flushQueued_only.tuning
  have less : mux.flushQueued.queuedBytes ≤ mux.queuedBytes := flushTurns_bytes _ mux
  rw [placed.bytes]
  rcases room with all | fits
  · rw [all, List.drop_length, bytesOf_nil, Nat.add_zero]
    exact Nat.le_trans less bounded
  · rw [tuning] at fits
    exact fits

theorem seqAfter_eq (count : Nat) : ∀ seq : UInt32, seqAfter count seq = seq + UInt32.ofNat count := by
  induction count with
  | zero => exact fun seq => (UInt32.add_zero seq).symm
  | succ count ih =>
      intro seq
      rw [seqAfter, ih, nextSeq, UInt32.ofNat_add, UInt32.add_assoc, UInt32.add_comm 1]
      rfl

/-- A number that was counted on, short of a full turn, is another number. -/
theorem seqAfter_ne {placed : Nat} (some_placed : placed ≠ 0) (few : placed < 2 ^ 32)
    (seq : UInt32) : seqAfter placed seq ≠ seq := by
  intro same
  rw [seqAfter_eq] at same
  have zero : UInt32.ofNat placed = 0 := UInt32.add_eq_left.mp same
  have numbers := congrArg UInt32.toNat zero
  rw [UInt32.toNat_ofNat_of_lt' few] at numbers
  exact some_placed numbers

/-- A send is whole if its frames all have a place, or not even the first has one. -/
theorem Outcome.whole {wires : List Bytes} {result : ChannelMux τ × Except String Unit}
    (outcome : Outcome id channel wires mux.flushQueued result)
    (clear : mux.flushQueued.Roomy id wires ∨ mux.flushQueued.Blocked id wires ∨
      wires.length ≤ 1) : Whole mux id channel wires result := by
  by_cases room : mux.flushQueued.Roomy id wires
  · obtain ⟨ok, placed, _⟩ := outcome.roomy room
    refine ⟨?_, fun _ => ⟨placed, placed.bounded room⟩⟩
    intro error failed
    rw [ok] at failed
    cases failed
  · obtain ⟨error, placed, failed, fewer, record, unmoved, blocked⟩ := outcome.short room
    have nothing : placed = 0 := by
      rcases clear with all | stuck | single
      · exact absurd all room
      · exact blocked stuck
      · omega
    subst nothing
    refine ⟨?_, ?_⟩
    · intro _ _
      refine ⟨Or.inr (unmoved rfl).2, ?_⟩
      rw [record]
      rfl
    · intro ok
      rw [failed] at ok
      cases ok

/-- Otherwise it strands the fragments placed before the queue was full. -/
theorem Outcome.stranded {wires : List Bytes} {result : ChannelMux τ × Except String Unit}
    (outcome : Outcome id channel wires mux.flushQueued result) (few : wires.length < 2 ^ 32)
    (crowded : ¬ mux.flushQueued.Roomy id wires) (started : ¬ mux.flushQueued.Blocked id wires) :
    ¬ Whole mux id channel wires result := by
  intro whole
  obtain ⟨error, placed, failed, fewer, record, unmoved, _⟩ := outcome.short crowded
  have same := (whole.refused error failed).2
  rw [record, Option.map_some, Option.some.injEq] at same
  have some_placed : placed ≠ 0 := fun nothing => started (unmoved nothing).1
  exact seqAfter_ne some_placed (by omega) channel.txSeq same

theorem sendFragmented_eq (mux : ChannelMux τ) (id : UInt32) (channel : ChannelRecord)
    (payload : Bytes) : mux.sendFragmented id channel payload =
      if kMaxFragmentsPerMessage < mux.needed payload then
        (mux, .error "amp mux: message needs more fragments than a frame counts")
      else if qosForClass channel.policy.cls = .reliable ∧
          mux.tuning.maxQueuedBytes < mux.queuedBytes + payload.length then
        (mux.takeMsgId, .error "amp mux: send queue full")
      else sendFrags (qosForClass channel.policy.cls) id mux.nextFragMsgId (mux.needed payload)
        (payload.length % 2 ^ 32) 0 (chunksOf mux.chunkBytes (mux.needed payload) payload) channel
        mux.takeMsgId := rfl

theorem sendData_long (found : mux.channelById id = some channel)
    (opened : channel.state = .opened) (within : payload.length ≤ channel.policy.maxMessageBytes)
    (long : ¬ mux.fitsOneFrame payload) :
    mux.sendData id payload = mux.sendFragmented id channel payload := by
  have small : ¬ channel.policy.maxMessageBytes < payload.length := Nat.not_lt.mpr within
  have size : ¬ payload.length ≤ mux.maxFrameBytes - kChannelHeaderBytes := long
  unfold sendData
  rw [found]
  dsimp only
  rw [if_neg (fun differs => differs opened), if_neg small, if_neg size]

/-- A message refused before its first fragment. -/
theorem Whole.refuse {after : ChannelMux τ} (found : mux.channelById id = some channel)
    (outbox : after.outbox = mux.outbox) (channels : after.channels = mux.channels)
    (wires : List Bytes) (error : String) : Whole mux id channel wires (after, .error error) := by
  refine ⟨?_, nofun⟩
  intro _ _
  refine ⟨Or.inl outbox, ?_⟩
  show Option.map ChannelRecord.txSeq (after.channels.lookup id) = _
  rw [channels]
  exact congrArg (Option.map ChannelRecord.txSeq) found

section Sends

variable [UnfailingTransport τ]

/-- `SendData` of a payload that fits one frame. -/
theorem sendData_single (found : mux.channelById id = some channel)
    (opened : channel.state = .opened) (reliable : qosForClass channel.policy.cls = .reliable)
    (within : payload.length ≤ channel.policy.maxMessageBytes) (single : mux.fitsOneFrame payload) :
    Outcome id channel [wireOf (dataFrame id channel.txSeq payload)] mux.flushQueued
      (mux.sendData id payload) := by
  have encoded : ChannelWire.encode (dataFrame id channel.txSeq payload) =
      .ok (wireOf (dataFrame id channel.txSeq payload)) := rfl
  have small : ¬ channel.policy.maxMessageBytes < payload.length := Nat.not_lt.mpr within
  have fits : payload.length ≤ mux.maxFrameBytes - kChannelHeaderBytes := single
  have settled := flushQueued_settled mux
  have kept := (flushQueued_channelById mux id).trans found
  have sent : mux.sendFrame (dataFrame id channel.txSeq payload) channel.policy.cls =
      mux.flushQueued.sendWire id .reliable (wireOf (dataFrame id channel.txSeq payload)) := by
    unfold sendFrame
    rw [encoded, reliable]
    exact (sendWire_flushed mux id _).symm
  unfold sendData
  rw [found]
  dsimp only
  rw [if_neg (fun differs => differs opened), if_neg small, if_pos fits, sent,
    sendWire_settled settled]
  generalize wireOf (dataFrame id channel.txSeq payload) = wire
  by_cases direct : ((mux.flushQueued.queueOf id).isEmpty && mux.flushQueued.hasReliableCredit) = true
  · rw [if_pos direct]
    apply Outcome.direct direct _ _ _ _ (Outcome.done _)
    · rfl
    · rfl
    · rfl
    · rfl
    · rw [channelById_putChannel, if_pos rfl]
  · rw [if_neg direct]
    by_cases full : mux.flushQueued.tuning.maxQueuedBytes <
        mux.flushQueued.queuedBytes + wire.length
    · rw [if_pos full]
      exact Outcome.full direct full kept [] _
    · rw [if_neg full]
      apply Outcome.waits direct full _ _ _ _ (Outcome.done _)
      · rfl
      · show (mux.flushQueued.enqueue id wire).queueOf id = _
        rw [queueOf_enqueue, if_pos rfl]
      · rfl
      · rfl
      · rw [channelById_putChannel, if_pos rfl]

/-- `SendData` of a longer payload that nothing refused up front. -/
theorem sendData_fragments (found : mux.channelById id = some channel)
    (opened : channel.state = .opened) (reliable : qosForClass channel.policy.cls = .reliable)
    (within : payload.length ≤ channel.policy.maxMessageBytes)
    (budget : kMinFrameBytes ≤ mux.maxFrameBytes) (long : ¬ mux.fitsOneFrame payload)
    (few : ¬ kMaxFragmentsPerMessage < mux.needed payload)
    (admitted : ¬ mux.tuning.maxQueuedBytes < mux.queuedBytes + payload.length) :
    Outcome id channel (mux.payloadWires id channel.txSeq payload) mux.flushQueued
      (mux.sendData id payload) := by
  have size : ¬ payload.length ≤ mux.maxFrameBytes - kChannelHeaderBytes := long
  have refused : ¬ (qosForClass channel.policy.cls = .reliable ∧
      mux.tuning.maxQueuedBytes < mux.queuedBytes + payload.length) := fun both => admitted both.2
  have least : 0 < mux.chunkBytes := by
    have header : kChannelHeaderBytes = 9 := rfl
    have fields : kChannelFragFieldsBytes = 16 := rfl
    have floor : kMinFrameBytes = 64 := rfl
    unfold chunkBytes
    omega
  have some_left : chunksOf mux.chunkBytes (mux.needed payload) payload ≠ [] := by
    intro blank
    have count := chunksOf_length mux.chunkBytes (mux.needed payload) payload
    rw [blank, List.length_nil] at count
    have positive : 0 < mux.needed payload := by
      apply Nat.div_pos _ least
      omega
    omega
  have flushed := mux.flushQueued_takeMsgId
  have kept : mux.takeMsgId.flushQueued.channelById id = some channel := by
    rw [flushed]
    exact (flushQueued_channelById mux id).trans found
  have loop := sendFrags_outcome id mux.nextFragMsgId (mux.needed payload)
    (payload.length % 2 ^ 32) (chunksOf mux.chunkBytes (mux.needed payload) payload) 0 channel
    mux.takeMsgId.flushQueued (flushQueued_settled _) kept opened
  rw [sendFrags_flushed _ _ _ _ _ some_left, flushed] at loop
  have frames : mux.payloadWires id channel.txSeq payload = (fragFrames id mux.nextFragMsgId
      (mux.needed payload) (payload.length % 2 ^ 32) 0 channel.txSeq
      (chunksOf mux.chunkBytes (mux.needed payload) payload)).map wireOf := by
    unfold payloadWires payloadFrames
    rw [if_neg long]
  have call : mux.sendData id payload = sendFrags .reliable id mux.nextFragMsgId
      (mux.needed payload) (payload.length % 2 ^ 32) 0
      (chunksOf mux.chunkBytes (mux.needed payload) payload) channel mux.takeMsgId := by
    rw [sendData_long found opened within long, sendFragmented_eq, if_neg few, if_neg refused,
      reliable]
  rw [call, frames]
  refine ⟨?_, loop.short⟩
  intro room
  obtain ⟨ok, placed, record⟩ := loop.roomy room
  exact ⟨ok, ⟨placed.transport, placed.queue, placed.bytes⟩, record⟩

theorem fragFrames_length (id : UInt32) (msgId count total : Nat) (chunks : List Bytes) :
    ∀ (index : Nat) (seq : UInt32),
    (fragFrames id msgId count total index seq chunks).length = chunks.length := by
  induction chunks with
  | nil => exact fun _ _ => rfl
  | cons chunk rest ih => exact fun index seq => congrArg Nat.succ (ih (index + 1) (nextSeq seq))

/-- `SendData` on a reliable channel takes a whole message or nothing of it exactly when
the message is not of those whose first fragments fill the queue for their last. -/
theorem sendData_whole_iff (found : mux.channelById id = some channel)
    (opened : channel.state = .opened) (reliable : qosForClass channel.policy.cls = .reliable)
    (within : payload.length ≤ channel.policy.maxMessageBytes)
    (budget : kMinFrameBytes ≤ mux.maxFrameBytes) :
    Whole mux id channel (mux.payloadWires id channel.txSeq payload) (mux.sendData id payload) ↔
      mux.Unstranded id channel.txSeq payload := by
  by_cases single : mux.fitsOneFrame payload
  · have wires : mux.payloadWires id channel.txSeq payload =
        [wireOf (dataFrame id channel.txSeq payload)] := by
      unfold payloadWires payloadFrames
      rw [if_pos single, List.map_singleton]
    rw [wires]
    have outcome := sendData_single found opened reliable within single
    exact ⟨fun _ => Or.inl single, fun _ => outcome.whole (Or.inr (Or.inr (Nat.le_refl 1)))⟩
  · by_cases many : kMaxFragmentsPerMessage < mux.needed payload
    · rw [sendData_long found opened within single, sendFragmented_eq, if_pos many]
      exact ⟨fun _ => Or.inr (Or.inl many), fun _ => Whole.refuse found rfl rfl _ _⟩
    · by_cases full : mux.tuning.maxQueuedBytes < mux.queuedBytes + payload.length
      · rw [sendData_long found opened within single, sendFragmented_eq, if_neg many,
          if_pos ⟨reliable, full⟩]
        have outbox : mux.takeMsgId.outbox = mux.outbox := rfl
        exact ⟨fun _ => Or.inr (Or.inr (Or.inl full)), fun _ => Whole.refuse found outbox rfl _ _⟩
      · have outcome := sendData_fragments found opened reliable within budget single many full
        constructor
        · intro whole
          by_contra strands
          simp only [Unstranded, not_or] at strands
          apply outcome.stranded _ strands.2.2.2.1 strands.2.2.2.2 whole
          have length : (mux.payloadWires id channel.txSeq payload).length =
              mux.needed payload := by
            unfold payloadWires payloadFrames
            rw [if_neg single, List.length_map, fragFrames_length, chunksOf_length]
          have limit : kMaxFragmentsPerMessage = 65535 := rfl
          omega
        · rintro (fits | crowd | refused | room | blocked)
          · exact absurd fits single
          · exact absurd crowd many
          · exact absurd refused full
          · exact outcome.whole (Or.inl room)
          · exact outcome.whole (Or.inr (Or.inl blocked))

end Sends

end Placing

section Sample

instance : UnfailingTransport Pipe where
  sends _ qos _ := by cases qos <;> rfl

/-- A mux whose transport has no credit, with one channel open. -/
def crowded (maxQueuedBytes : Nat) : ChannelMux Pipe :=
  { create true { allowance := fun _ => 0 } with
    maxFrameBytes := 64
    tuning := { maxQueuedBytes := maxQueuedBytes }
    channels := AList.singleton 1 { state := .opened } }

theorem sendData_whole_iff_sample :
    Whole (crowded 100) 1 { state := .opened }
      ((crowded 100).payloadWires 1 1 (List.replicate 80 0))
      ((crowded 100).sendData 1 (List.replicate 80 0)) ↔
    (crowded 100).Unstranded 1 1 (List.replicate 80 0) := by
  have found : (crowded 100).channelById 1 = some { state := .opened } := rfl
  exact sendData_whole_iff found rfl rfl (by decide) (by decide)

/-- 80 bytes pass the check against a bound of 100, and their three frames, of 64, 64
and 27 bytes, do not: the first stays in the queue. -/
theorem sendData_strands :
    ¬ Whole (crowded 100) 1 { state := .opened }
      ((crowded 100).payloadWires 1 1 (List.replicate 80 0))
      ((crowded 100).sendData 1 (List.replicate 80 0)) := by
  intro whole
  have failed : ((crowded 100).sendData 1 (List.replicate 80 0)).2 =
      .error "amp mux: send queue full" := by decide
  have record := (whole.refused _ failed).2
  exact absurd record (by decide)

end Sample

end ChannelMux

end Amp
