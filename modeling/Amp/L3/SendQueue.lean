import Amp.L3.ChannelMux
import Amp.Lib.Run
import Mathlib.Data.List.Perm.Basic

set_option autoImplicit false

/- What waits to be sent: the queues of `SendWire`, `FlushQueued` and `DropQueued`,
their byte count and their order, over any calls of the mux. -/
namespace Amp

open Adp (Bytes QosClass)

/-- A transport, and the reliable frames it was handed. -/
structure Logged (τ : Type) where
  inner : τ
  reached : List Bytes := []

instance {τ : Type} [MuxTransport τ] : MuxTransport (Logged τ) where
  send logged qos wire :=
    ({ inner := (MuxTransport.send logged.inner qos wire).1
       reached := if qos = .reliable then logged.reached ++ [wire] else logged.reached },
      (MuxTransport.send logged.inner qos wire).2)
  credits logged := MuxTransport.credits logged.inner

/-- The channel that a frame's header names. -/
def channelOf (wire : Bytes) : UInt32 :=
  UInt32.ofNat (LittleEndian.decode ((wire.drop 1).take 4))

theorem channelOf_encode {frame : ChannelFrame} {wire : Bytes}
    (ok : ChannelWire.encode frame = .ok wire) : channelOf wire = frame.channelId := by
  unfold ChannelWire.encode at ok
  split at ok
  · cases ok
  · cases ok
    have size : (ChannelWire.appendU32 frame.channelId.toNat).length = 4 :=
      LittleEndian.encode_length 4 _
    have field : LittleEndian.decode (ChannelWire.appendU32 frame.channelId.toNat) =
        frame.channelId.toNat :=
      LittleEndian.decode_encode_of_lt 4 _ frame.channelId.toNat_lt
    rw [channelOf, ChannelWire.header, List.cons_append, List.drop_succ_cons, List.drop_zero,
      List.append_assoc, List.take_left' size, field, UInt32.ofNat_toNat]

/-- Frames given to channels, and those that `DropQueued` took back. -/
structure SendLog where
  submitted : List (UInt32 × Bytes) := []
  dropped : List (UInt32 × Bytes) := []

namespace SendLog

def append (first second : SendLog) : SendLog where
  submitted := first.submitted ++ second.submitted
  dropped := first.dropped ++ second.dropped

@[simp] theorem append_blank (log : SendLog) : log.append {} = log := by
  simp [append]

/-- The frames of one channel. -/
def on (id : UInt32) (frames : List (UInt32 × Bytes)) : List Bytes :=
  (frames.filter fun frame => frame.1 == id).map (·.2)

@[simp] theorem on_nil (id : UInt32) : on id [] = [] := rfl

@[simp] theorem on_append (id : UInt32) (first second : List (UInt32 × Bytes)) :
    on id (first ++ second) = on id first ++ on id second := by
  simp [on]

theorem on_singleton (id other : UInt32) (wire : Bytes) :
    on id [(other, wire)] = if other = id then [wire] else [] := by
  by_cases same : other = id <;> simp [on, same]

theorem on_map (id other : UInt32) (wires : List Bytes) :
    on id (wires.map (other, ·)) = if other = id then wires else [] := by
  induction wires with
  | nil => simp
  | cons wire rest ih =>
      have front := on_singleton id other wire
      rw [List.map_cons, ← List.singleton_append, on_append, ih, front]
      by_cases same : other = id <;> simp [same]

end SendLog

namespace ChannelMux

section Weights

/-- The total weight of a map loses that of the entry erased. -/
theorem sum_kerase {β : Type} (weight : β → Nat) (id : UInt32) (entries : List (Σ _ : UInt32, β)) :
    ((entries.kerase id).map fun entry => weight entry.2).sum +
      (entries.dlookup id).elim 0 weight = (entries.map fun entry => weight entry.2).sum := by
  induction entries with
  | nil => rfl
  | cons entry rest ih =>
      by_cases same : id = entry.1
      · rw [List.kerase_cons_eq same, List.map_cons, List.sum_cons]
        cases entry
        cases same
        rw [List.dlookup_cons_eq]
        exact Nat.add_comm _ _
      · rw [List.kerase_cons_ne same, List.dlookup_cons_ne _ _ same, List.map_cons, List.map_cons,
          List.sum_cons, List.sum_cons, Nat.add_assoc, ih]

end Weights

variable {τ : Type}

def bytesOf (queue : List Bytes) : Nat := (queue.map List.length).sum

/-- The bytes of every queued frame. -/
def waitingBytes (mux : ChannelMux τ) : Nat :=
  (mux.sendQueues.entries.map fun entry => bytesOf entry.2).sum

theorem elim_queueOf (weight : List Bytes → Nat) (blank : weight [] = 0) (mux : ChannelMux τ)
    (id : UInt32) : (mux.sendQueues.lookup id).elim 0 weight = weight (mux.queueOf id) := by
  unfold queueOf
  cases mux.sendQueues.lookup id with
  | none => exact blank.symm
  | some queue => rfl

/-- The weight of all queues once one is replaced. -/
theorem sum_insert (weight : List Bytes → Nat) (blank : weight [] = 0) (mux : ChannelMux τ)
    (id : UInt32) (queue : List Bytes) :
    ((mux.sendQueues.insert id queue).entries.map fun entry => weight entry.2).sum +
      weight (mux.queueOf id) =
    (mux.sendQueues.entries.map fun entry => weight entry.2).sum + weight queue := by
  have erased := sum_kerase weight id mux.sendQueues.entries
  have front := elim_queueOf weight blank mux id
  rw [AList.lookup] at front
  rw [front] at erased
  rw [AList.entries_insert, List.map_cons, List.sum_cons]
  dsimp only
  omega

/-- The weight of all queues once one is gone. -/
theorem sum_erase (weight : List Bytes → Nat) (blank : weight [] = 0) (mux : ChannelMux τ)
    (id : UInt32) :
    ((mux.sendQueues.erase id).entries.map fun entry => weight entry.2).sum +
      weight (mux.queueOf id) =
    (mux.sendQueues.entries.map fun entry => weight entry.2).sum := by
  have erased := sum_kerase weight id mux.sendQueues.entries
  have front := elim_queueOf weight blank mux id
  rw [AList.lookup] at front
  rw [front] at erased
  exact erased

/-- What the queues owe: the count is that of their bytes, every channel with a
frame to send is in the order, no queue is empty, and each holds its own frames. -/
structure Queued (mux : ChannelMux τ) : Prop where
  bytes : mux.queuedBytes = mux.waitingBytes
  ordered : ∀ id, mux.queueOf id ≠ [] → id ∈ mux.sendOrder
  filled : ∀ id, mux.sendQueues.lookup id ≠ some []
  own : ∀ id, ∀ wire ∈ mux.queueOf id, channelOf wire = id

/-- No queue holds more than is counted, so a subtraction never wraps. -/
theorem Queued.covered {mux : ChannelMux τ} (queued : mux.Queued) (id : UInt32) :
    bytesOf (mux.queueOf id) ≤ mux.queuedBytes := by
  have erased := sum_erase bytesOf rfl mux id
  rw [queued.bytes, waitingBytes]
  omega

@[simp] theorem bytesOf_nil : bytesOf [] = 0 := rfl

theorem bytesOf_cons (wire : Bytes) (rest : List Bytes) :
    bytesOf (wire :: rest) = wire.length + bytesOf rest := rfl

theorem bytesOf_append (first second : List Bytes) :
    bytesOf (first ++ second) = bytesOf first + bytesOf second := by
  simp [bytesOf]

/-- What flushing and submitting change of a mux. -/
structure Outbox (τ : Type) where
  transport : τ
  sendQueues : AList (fun _ : UInt32 => List Bytes)
  sendOrder : List UInt32
  queuedBytes : Nat

def outbox (mux : ChannelMux τ) : Outbox τ :=
  ⟨mux.transport, mux.sendQueues, mux.sendOrder, mux.queuedBytes⟩

def withOutbox (mux : ChannelMux τ) (outbox : Outbox τ) : ChannelMux τ :=
  { mux with
    transport := outbox.transport
    sendQueues := outbox.sendQueues
    sendOrder := outbox.sendOrder
    queuedBytes := outbox.queuedBytes }

/-- Nothing but the outbox changes. -/
def OnlyOutbox (before after : ChannelMux τ) : Prop := after = before.withOutbox after.outbox

namespace OnlyOutbox

variable {before middle after : ChannelMux τ}

theorem trans (one : OnlyOutbox before middle) (two : OnlyOutbox middle after) :
    OnlyOutbox before after := by
  unfold OnlyOutbox at *
  rw [one] at two
  exact two

theorem channels (only : OnlyOutbox before after) : after.channels = before.channels := by
  unfold OnlyOutbox at only
  rw [only]
  rfl

theorem delivered (only : OnlyOutbox before after) : after.delivered = before.delivered := by
  unfold OnlyOutbox at only
  rw [only]
  rfl

theorem tuning (only : OnlyOutbox before after) : after.tuning = before.tuning := by
  unfold OnlyOutbox at only
  rw [only]
  rfl

end OnlyOutbox

theorem Queued.congr {mux after : ChannelMux τ} (queued : mux.Queued)
    (queues : after.sendQueues = mux.sendQueues) (order : after.sendOrder = mux.sendOrder)
    (bytes : after.queuedBytes = mux.queuedBytes) : after.Queued := by
  refine ⟨?_, ?_, ?_, ?_⟩
  · rw [bytes, waitingBytes, queues]
    exact queued.bytes
  · intro id
    rw [queueOf, queues, order]
    exact queued.ordered id
  · intro id
    rw [queues]
    exact queued.filled id
  · intro id
    rw [queueOf, queues]
    exact queued.own id

theorem Queued.same {mux after : ChannelMux τ} (queued : mux.Queued)
    (same : after.outbox = mux.outbox) : after.Queued :=
  queued.congr (congrArg Outbox.sendQueues same) (congrArg Outbox.sendOrder same)
    (congrArg Outbox.queuedBytes same)

theorem Queued.skip {mux : ChannelMux τ} (queued : mux.Queued) {id : UInt32} {order : List UInt32}
    (listed : mux.sendOrder = id :: order) (blank : mux.queueOf id = []) :
    { mux with sendOrder := order }.Queued := by
  refine ⟨queued.bytes, ?_, queued.filled, queued.own⟩
  intro other waiting
  have member := queued.ordered other waiting
  rw [listed] at member
  rcases List.mem_cons.mp member with front | later
  · subst front
    exact absurd blank waiting
  · exact later

/-- One frame leaves its queue, and the queue goes with its last one. -/
theorem Queued.release {mux : ChannelMux τ} (queued : mux.Queued) {id : UInt32}
    {order : List UInt32} {wire : Bytes} {rest : List Bytes}
    (listed : mux.sendOrder = id :: order) (queue : mux.queueOf id = wire :: rest)
    (transport : τ) :
    ({ mux with queuedBytes := mux.queuedBytes - wire.length
                transport := transport }.requeue id order rest).Queued := by
  have covered := queued.covered id
  have counted := queued.bytes
  rw [waitingBytes] at counted
  rw [queue, bytesOf_cons] at covered
  have queues (other : UInt32) := queueOf_requeue { mux with
    queuedBytes := mux.queuedBytes - wire.length
    transport := transport } id other order rest
  have old (other : UInt32) : queueOf { mux with
      queuedBytes := mux.queuedBytes - wire.length
      transport := transport } other = mux.queueOf other := rfl
  refine ⟨?_, ?_, ?_, ?_⟩
  · unfold requeue
    split
    · rename_i last
      have erased := sum_erase bytesOf rfl mux id
      rw [queue, List.isEmpty_iff.mp last, bytesOf_cons, bytesOf_nil] at erased
      show mux.queuedBytes - wire.length =
        ((mux.sendQueues.erase id).entries.map fun entry => bytesOf entry.2).sum
      omega
    · have inserted := sum_insert bytesOf rfl mux id rest
      rw [queue, bytesOf_cons] at inserted
      show mux.queuedBytes - wire.length =
        ((mux.sendQueues.insert id rest).entries.map fun entry => bytesOf entry.2).sum
      omega
  · intro other waiting
    rw [queues, old] at waiting
    have kept : other ∈ order ∨ other = id ∧ rest ≠ [] := by
      by_cases same : other = id
      · rw [if_pos same] at waiting
        exact Or.inr ⟨same, waiting⟩
      · rw [if_neg same] at waiting
        have member := queued.ordered other waiting
        rw [listed] at member
        exact Or.inl ((List.mem_cons.mp member).resolve_left same)
    unfold requeue
    split
    · rename_i last
      exact kept.resolve_right fun both => both.2 (List.isEmpty_iff.mp last)
    · rcases kept with later | own
      · exact List.mem_append_left _ later
      · exact List.mem_append_right _ (List.mem_singleton.mpr own.1)
  · intro other
    unfold requeue
    split
    · show (mux.sendQueues.erase id).lookup other ≠ _
      by_cases same : other = id
      · rw [same, AList.lookup_erase]
        exact (Option.some_ne_none _).symm
      · rw [AList.lookup_erase_ne same]
        exact queued.filled other
    · rename_i some_left
      show (mux.sendQueues.insert id rest).lookup other ≠ _
      by_cases same : other = id
      · rw [same, AList.lookup_insert]
        intro blank
        exact some_left (List.isEmpty_iff.mpr (Option.some.inj blank))
      · rw [AList.lookup_insert_ne same]
        exact queued.filled other
  · intro other held member
    rw [queues, old] at member
    split at member
    · rename_i same
      rw [same]
      apply queued.own id held
      rw [queue]
      exact List.mem_cons_of_mem _ member
    · exact queued.own other held member

theorem Queued.enqueue {mux : ChannelMux τ} (queued : mux.Queued) {id : UInt32} {wire : Bytes}
    (named : channelOf wire = id) : (mux.enqueue id wire).Queued := by
  have counted := queued.bytes
  rw [waitingBytes] at counted
  refine ⟨?_, ?_, ?_, ?_⟩
  · have inserted := sum_insert bytesOf rfl mux id (mux.queueOf id ++ [wire])
    rw [bytesOf_append, bytesOf_cons, bytesOf_nil] at inserted
    show mux.queuedBytes + wire.length = ((mux.sendQueues.insert id
      (mux.queueOf id ++ [wire])).entries.map fun entry => bytesOf entry.2).sum
    omega
  · intro other waiting
    show other ∈ if (mux.queueOf id).isEmpty then mux.sendOrder ++ [id] else mux.sendOrder
    rw [queueOf_enqueue] at waiting
    by_cases same : other = id
    · subst same
      split
      · simp
      · rename_i some_left
        exact queued.ordered other fun blank => some_left (List.isEmpty_iff.mpr blank)
    · rw [if_neg same] at waiting
      have member := queued.ordered other waiting
      split
      · exact List.mem_append_left _ member
      · exact member
  · intro other
    show (mux.sendQueues.insert id _).lookup other ≠ _
    by_cases same : other = id
    · rw [same, AList.lookup_insert]
      simp
    · rw [AList.lookup_insert_ne same]
      exact queued.filled other
  · intro other held member
    rw [queueOf_enqueue] at member
    split at member
    · rename_i same
      rcases List.mem_append.mp member with old | new
      · exact same ▸ queued.own id held old
      · rw [List.mem_singleton.mp new, same]
        exact named
    · exact queued.own other held member

theorem Queued.drop {mux : ChannelMux τ} (queued : mux.Queued) (id : UInt32) :
    (mux.dropQueued id).Queued := by
  have counted := queued.bytes
  rw [waitingBytes] at counted
  have queues := queueOf_dropQueued mux id
  refine ⟨?_, ?_, ?_, ?_⟩
  · unfold dropQueued
    split
    · exact queued.bytes
    · rename_i queue found
      have erased := sum_erase bytesOf rfl mux id
      rw [queueOf, found, Option.getD_some] at erased
      show mux.queuedBytes - bytesOf queue =
        ((mux.sendQueues.erase id).entries.map fun entry => bytesOf entry.2).sum
      omega
  · intro other waiting
    rw [queues] at waiting
    have order : (mux.dropQueued id).sendOrder = mux.sendOrder := by
      unfold dropQueued
      split <;> rfl
    rw [order]
    split at waiting
    · exact absurd rfl waiting
    · exact queued.ordered other waiting
  · intro other
    unfold dropQueued
    split
    · exact queued.filled other
    · show (mux.sendQueues.erase id).lookup other ≠ _
      by_cases same : other = id
      · rw [same, AList.lookup_erase]
        exact (Option.some_ne_none _).symm
      · rw [AList.lookup_erase_ne same]
        exact queued.filled other
  · intro other held member
    rw [queues] at member
    split at member
    · exact absurd member List.not_mem_nil
    · exact queued.own other held member

section Flushing

variable [MuxTransport τ]

/-- Nothing more to flush: no channel is in turn, or no credit is left. -/
def Settled (mux : ChannelMux τ) : Prop := mux.sendOrder = [] ∨ mux.hasReliableCredit = false

theorem flushTurns_of_settled {mux : ChannelMux τ} (settled : mux.Settled) (turns : Nat) :
    flushTurns turns mux = mux := by
  cases turns with
  | zero => rfl
  | succ turns =>
      unfold flushTurns
      rcases settled with idle | broke
      · rw [idle]
      · split
        · rfl
        · rw [broke]
          rfl

theorem flushTurns_add (first second : Nat) : ∀ mux : ChannelMux τ,
    flushTurns (first + second) mux = flushTurns second (flushTurns first mux) := by
  induction first with
  | zero =>
      intro mux
      rw [Nat.zero_add]
      rfl
  | succ first ih =>
      intro mux
      rw [Nat.succ_add_eq_add_succ, Nat.add_succ]
      simp only [flushTurns]
      cases listed : mux.sendOrder with
      | nil => exact (flushTurns_of_settled (Or.inl listed) second).symm
      | cons id order =>
          cases credit : mux.hasReliableCredit with
          | false => exact (flushTurns_of_settled (Or.inr credit) second).symm
          | true =>
              simp only [Bool.not_true, Bool.false_eq_true, ↓reduceIte]
              cases queue : mux.queueOf id with
              | nil =>
                  simp only
                  exact ih _
              | cons wire rest =>
                  simp only
                  exact ih _

omit [MuxTransport τ] in
theorem requeue_only (mux : ChannelMux τ) (id : UInt32) (order : List UInt32)
    (rest : List Bytes) : OnlyOutbox mux (mux.requeue id order rest) := by
  unfold requeue
  split <;> rfl

theorem flushTurns_only (turns : Nat) : ∀ mux : ChannelMux τ,
    OnlyOutbox mux (flushTurns turns mux) := by
  induction turns with
  | zero => exact fun _ => rfl
  | succ turns ih =>
      intro mux
      unfold flushTurns
      split
      · rfl
      · split
        · rfl
        · split
          · rename_i order _ _ _ _
            have skipped : OnlyOutbox mux { mux with sendOrder := order } := rfl
            exact skipped.trans (ih _)
          · rename_i id order _ _ _ wire rest _
            have released := requeue_only ({ mux with
              queuedBytes := mux.queuedBytes - wire.length }.transmit .reliable wire).1 id order rest
            have sent : OnlyOutbox mux ({ mux with
              queuedBytes := mux.queuedBytes - wire.length }.transmit .reliable wire).1 := rfl
            exact sent.trans (released.trans (ih _))

/-- Flushing reads nothing but what it changes. -/
theorem flushTurns_outbox (turns : Nat) : ∀ {mux after : ChannelMux τ},
    after.outbox = mux.outbox → (flushTurns turns after).outbox = (flushTurns turns mux).outbox := by
  induction turns with
  | zero => exact fun same => same
  | succ turns ih =>
      intro mux after same
      have transport : after.transport = mux.transport := congrArg Outbox.transport same
      have queues : after.sendQueues = mux.sendQueues := congrArg Outbox.sendQueues same
      have order : after.sendOrder = mux.sendOrder := congrArg Outbox.sendOrder same
      have bytes : after.queuedBytes = mux.queuedBytes := congrArg Outbox.queuedBytes same
      have credit : after.hasReliableCredit = mux.hasReliableCredit := by
        unfold hasReliableCredit
        rw [transport]
      have queue (id : UInt32) : after.queueOf id = mux.queueOf id := by
        unfold queueOf
        rw [queues]
      simp only [flushTurns, order, credit, queue]
      split
      · exact same
      · split
        · exact same
        · split
          · apply ih
            simp only [outbox, transport, queues, bytes]
          · apply ih
            unfold requeue transmit
            simp only [transport, queues, bytes]
            split <;> rfl

/-- What a flush does to the outbox is all it does, whatever else the mux holds. -/
theorem flushTurns_congr (turns : Nat) {mux after : ChannelMux τ} (same : after.outbox = mux.outbox) :
    flushTurns turns after = after.withOutbox (flushTurns turns mux).outbox := by
  rw [← flushTurns_outbox turns same]
  exact flushTurns_only turns after

theorem flushTurns_bytes (turns : Nat) : ∀ mux : ChannelMux τ,
    (flushTurns turns mux).queuedBytes ≤ mux.queuedBytes := by
  induction turns with
  | zero => exact fun _ => Nat.le_refl _
  | succ turns ih =>
      intro mux
      unfold flushTurns
      split
      · exact Nat.le_refl _
      · split
        · exact Nat.le_refl _
        · split
          · exact ih _
          · rename_i id order _ _ _ wire rest _
            apply (ih _).trans
            have kept : (({ mux with queuedBytes := mux.queuedBytes - wire.length }.transmit
                .reliable wire).1.requeue id order rest).queuedBytes =
                  mux.queuedBytes - wire.length := by
              unfold requeue
              split <;> rfl
            exact kept.trans_le (Nat.sub_le _ _)

theorem flushQueued_only (mux : ChannelMux τ) : OnlyOutbox mux mux.flushQueued :=
  flushTurns_only _ mux

/-- A flush takes at most this many turns: each takes an entry of the order, and puts it
back only for a frame it sent. -/
def turnsLeft (mux : ChannelMux τ) : Nat := mux.sendOrder.length + mux.queuedFrameCount

omit [MuxTransport τ] in
theorem turnsLeft_requeue {mux : ChannelMux τ} {id : UInt32} {order : List UInt32} {wire : Bytes}
    {rest : List Bytes} (listed : mux.sendOrder = id :: order)
    (queue : mux.queueOf id = wire :: rest) (bytes : Nat) (transport : τ) :
    ({ mux with queuedBytes := bytes, transport := transport }.requeue id order rest).turnsLeft <
      mux.turnsLeft := by
  have size : mux.sendOrder.length = order.length + 1 := by rw [listed, List.length_cons]
  unfold turnsLeft requeue
  split
  · have erased := sum_erase List.length rfl mux id
    rw [queue, List.length_cons] at erased
    show order.length + ((mux.sendQueues.erase id).entries.map fun entry => entry.2.length).sum <
      mux.sendOrder.length + (mux.sendQueues.entries.map fun entry => entry.2.length).sum
    omega
  · have inserted := sum_insert List.length rfl mux id rest
    rw [queue, List.length_cons] at inserted
    show (order ++ [id]).length +
      ((mux.sendQueues.insert id rest).entries.map fun entry => entry.2.length).sum <
      mux.sendOrder.length + (mux.sendQueues.entries.map fun entry => entry.2.length).sum
    rw [List.length_append, List.length_singleton]
    omega

/-- With enough turns the loop ends on its own condition. -/
theorem flushTurns_settled (turns : Nat) : ∀ mux : ChannelMux τ, mux.turnsLeft ≤ turns →
    (flushTurns turns mux).Settled := by
  induction turns with
  | zero =>
      intro mux enough
      have none_left : mux.sendOrder.length = 0 := by
        unfold turnsLeft at enough
        omega
      exact Or.inl (List.eq_nil_of_length_eq_zero none_left)
  | succ turns ih =>
      intro mux enough
      unfold flushTurns
      split
      · rename_i listed
        exact Or.inl listed
      · rename_i id order listed
        split
        · rename_i broke
          exact Or.inr (by simpa using broke)
        · split
          · apply ih
            have size : mux.sendOrder.length = order.length + 1 := by rw [listed, List.length_cons]
            show order.length + mux.queuedFrameCount ≤ turns
            unfold turnsLeft at enough
            omega
          · rename_i wire rest queue
            have fewer := turnsLeft_requeue listed queue (mux.queuedBytes - wire.length)
              (MuxTransport.send mux.transport .reliable wire).1
            exact ih _ (Nat.le_of_lt_succ (Nat.lt_of_lt_of_le fewer enough))

theorem flushQueued_settled (mux : ChannelMux τ) : mux.flushQueued.Settled :=
  flushTurns_settled _ mux (Nat.le_refl _)

/-- More turns than `flushQueued` has change nothing: the loop terminates. -/
theorem flushTurns_enough {mux : ChannelMux τ} {turns : Nat} (enough : mux.turnsLeft ≤ turns) :
    flushTurns turns mux = mux.flushQueued := by
  obtain ⟨more, rfl⟩ := Nat.exists_eq_add_of_le enough
  rw [flushTurns_add]
  exact flushTurns_of_settled (flushQueued_settled mux) more

theorem Queued.flushTurns (turns : Nat) : ∀ {mux : ChannelMux τ}, mux.Queued →
    (ChannelMux.flushTurns turns mux).Queued := by
  induction turns with
  | zero => exact fun queued => queued
  | succ turns ih =>
      intro mux queued
      unfold ChannelMux.flushTurns
      split
      · exact queued
      · rename_i id order listed
        split
        · exact queued
        · split
          · rename_i blank
            exact ih (queued.skip listed blank)
          · rename_i wire rest queue
            exact ih (queued.release listed queue _)

theorem Queued.flush {mux : ChannelMux τ} (queued : mux.Queued) : mux.flushQueued.Queued :=
  queued.flushTurns _

end Flushing

section Trail

variable [MuxTransport τ]

/-- A channel's reliable frames: those the transport was handed, and behind them those
that wait. -/
def trail (mux : ChannelMux (Logged τ)) (id : UInt32) : List Bytes :=
  mux.transport.reached.filter (fun wire => channelOf wire == id) ++ mux.queueOf id

omit [MuxTransport τ] in
theorem trail_same {mux after : ChannelMux (Logged τ)} (same : after.outbox = mux.outbox)
    (id : UInt32) : after.trail id = mux.trail id := by
  have queues : after.sendQueues = mux.sendQueues := congrArg Outbox.sendQueues same
  have transport : after.transport = mux.transport := congrArg Outbox.transport same
  rw [trail, trail, queueOf, queueOf, queues, transport]

/-- Flushing moves a frame along its channel's trail and changes no trail. -/
theorem trail_release {mux : ChannelMux (Logged τ)} (queued : mux.Queued) {id : UInt32}
    {wire : Bytes} {rest : List Bytes} (queue : mux.queueOf id = wire :: rest) (bytes : Nat)
    (order : List UInt32) (other : UInt32) :
    (({ mux with queuedBytes := bytes }.transmit .reliable wire).1.requeue id order rest).trail
      other = mux.trail other := by
  have named : channelOf wire = id := queued.own id wire (by rw [queue]; exact List.mem_cons_self)
  have queues := queueOf_requeue ({ mux with queuedBytes := bytes }.transmit .reliable wire).1 id
    other order rest
  have transport : (({ mux with queuedBytes := bytes }.transmit .reliable wire).1.requeue id order
      rest).transport.reached = mux.transport.reached ++ [wire] := by
    unfold requeue
    split <;> rfl
  rw [trail, trail, transport, queues, List.filter_append, List.append_assoc]
  by_cases same : other = id
  · subst same
    rw [if_pos rfl, queue]
    simp [named]
  · have apart : ¬ id = other := fun equal => same equal.symm
    rw [if_neg same]
    simp [named, apart]
    rfl

theorem flushTurns_trail (turns : Nat) : ∀ {mux : ChannelMux (Logged τ)}, mux.Queued →
    ∀ id, (flushTurns turns mux).trail id = mux.trail id := by
  induction turns with
  | zero => exact fun _ _ => rfl
  | succ turns ih =>
      intro mux queued other
      unfold flushTurns
      split
      · rfl
      · rename_i id order listed
        split
        · rfl
        · split
          · rename_i blank
            exact ih (queued.skip listed blank) other
          · rename_i wire rest queue
            have released := queued.release listed queue
              (MuxTransport.send mux.transport .reliable wire).1
            have moved := trail_release queued queue (mux.queuedBytes - wire.length) order other
            exact (ih released other).trans moved

theorem trail_transmit {mux : ChannelMux (Logged τ)} {wire : Bytes}
    (blank : mux.queueOf (channelOf wire) = []) (other : UInt32) :
    (mux.transmit .reliable wire).1.trail other =
      mux.trail other ++ SendLog.on other [(channelOf wire, wire)] := by
  show (mux.transport.reached ++ [wire]).filter _ ++ mux.queueOf other = _
  rw [SendLog.on_singleton, trail, List.filter_append]
  by_cases same : channelOf wire = other
  · rw [same] at blank
    rw [blank]
    simp [same]
  · simp [same]

omit [MuxTransport τ] in
theorem trail_enqueue (mux : ChannelMux (Logged τ)) (id : UInt32) (wire : Bytes)
    (other : UInt32) : (mux.enqueue id wire).trail other =
      mux.trail other ++ SendLog.on other [(id, wire)] := by
  show mux.transport.reached.filter _ ++ (mux.enqueue id wire).queueOf other = _
  rw [queueOf_enqueue, SendLog.on_singleton, trail, List.append_assoc]
  by_cases same : other = id
  · subst same
    rw [if_pos rfl, if_pos rfl]
  · have apart : ¬ id = other := fun equal => same equal.symm
    rw [if_neg same, if_neg apart, List.append_nil]

/-- Whether `SendWire` takes a reliable frame on: it says so, or it hands the frame to the
transport at once, whatever that says. -/
def takesOn (mux : ChannelMux τ) (id : UInt32) (wire : Bytes) : Bool :=
  (mux.sendWire id .reliable wire).2.toBool ||
    (mux.flushQueued.queueOf id).isEmpty && mux.flushQueued.hasReliableCredit

/-- The frames that a call of `SendWire` takes on. -/
def wireLog (mux : ChannelMux τ) (id : UInt32) (qos : QosClass) (wire : Bytes) : SendLog where
  submitted := if qos = .reliable ∧ mux.takesOn id wire = true then [(id, wire)] else []

def detachAllChannels (mux : ChannelMux τ) : ChannelMux τ × List (UInt32 × String) :=
  ({ mux with
      sendQueues := ∅
      sendOrder := []
      queuedBytes := 0
      channels := (mux.mapChannels fun channel => { channel with
        state := .closed, onData := false, onTerminal := false }).channels
      pendingHandlers := []
      pendingTerminalHandlers := []
      pendingOpenData := ∅ },
    (mux.channels.entries.filter fun entry => entry.2.onTerminal).map
      fun entry => (entry.1, kLinkDroppedReason))

/-- Every queued frame with its channel. -/
def everyQueued (mux : ChannelMux τ) : List (UInt32 × Bytes) :=
  mux.sendQueues.entries.flatMap fun entry => entry.2.map (entry.1, ·)

/-- What is done to the queues between two states: calls of `SendWire`, `DropQueued`,
`FlushQueued` and `DetachAllChannels`, with what they submitted and dropped. -/
inductive Works : ChannelMux (Logged τ) → SendLog → ChannelMux (Logged τ) → Prop
  | aside {before after} (same : after.outbox = before.outbox) : Works before {} after
  | loose (mux : ChannelMux (Logged τ)) (wire : Bytes) : Works mux {} (mux.transmit .bestEffort wire).1
  | reliable (mux : ChannelMux (Logged τ)) (wire : Bytes) :
      Works mux (mux.wireLog (channelOf wire) .reliable wire)
        (mux.sendWire (channelOf wire) .reliable wire).1
  | drop (mux : ChannelMux (Logged τ)) (id : UInt32) :
      Works mux { dropped := (mux.queueOf id).map (id, ·) } (mux.dropQueued id)
  | flush (mux : ChannelMux (Logged τ)) : Works mux {} mux.flushQueued
  | credit (mux : ChannelMux (Logged τ)) (inner : τ) :
      Works mux {} { mux with transport := { mux.transport with inner := inner } }
  | detach (mux : ChannelMux (Logged τ)) :
      Works mux { dropped := mux.everyQueued } mux.detachAllChannels.1
  | trans {before middle after first second} (one : Works before first middle)
      (two : Works middle second after) : Works before (first.append second) after

/-- The frames of each channel are where they were submitted, in that order, less those
that were dropped. -/
structure Traced (log : SendLog) (mux : ChannelMux (Logged τ)) : Prop where
  order : ∀ id, (mux.trail id).Sublist (SendLog.on id log.submitted)
  rest : ∀ id, (SendLog.on id log.submitted).Perm (mux.trail id ++ SendLog.on id log.dropped)

omit [MuxTransport τ] in
theorem Traced.submit {older : SendLog} {mux after : ChannelMux (Logged τ)}
    (traced : Traced older mux) {frames : List (UInt32 × Bytes)}
    (added : ∀ id, after.trail id = mux.trail id ++ SendLog.on id frames) :
    Traced (older.append { submitted := frames }) after := by
  refine ⟨?_, ?_⟩
  · intro id
    rw [added, SendLog.append, SendLog.on_append]
    exact (traced.order id).append (List.Sublist.refl _)
  · intro id
    have grown := (traced.rest id).append_right (SendLog.on id frames)
    rw [List.append_assoc] at grown
    rw [added, SendLog.append, SendLog.on_append, List.append_nil, List.append_assoc]
    exact grown.trans (List.perm_append_comm.append_left _)

omit [MuxTransport τ] in
/-- What waits on some channels is dropped, and their trails end with what was sent. -/
theorem Traced.cut {older : SendLog} {mux after : ChannelMux (Logged τ)}
    (traced : Traced older mux) {frames : List (UInt32 × Bytes)}
    (ended : ∀ id, mux.trail id = after.trail id ++ SendLog.on id frames) :
    Traced (older.append { dropped := frames }) after := by
  refine ⟨?_, ?_⟩
  · intro id
    have shorter : (after.trail id).Sublist (mux.trail id) := by
      rw [ended]
      exact List.sublist_append_left _ _
    rw [SendLog.append, List.append_nil]
    exact shorter.trans (traced.order id)
  · intro id
    have before := traced.rest id
    rw [ended, List.append_assoc] at before
    rw [SendLog.append, List.append_nil, SendLog.on_append]
    exact before.trans (List.perm_append_comm.append_left _)

theorem Queued.sendWire {mux : ChannelMux τ} (queued : mux.Queued) (wire : Bytes) :
    (mux.sendWire (channelOf wire) .reliable wire).1.Queued := by
  have flushed := queued.flush
  unfold ChannelMux.sendWire
  rw [if_neg (fun differs => differs rfl)]
  dsimp only
  split
  · exact flushed.congr rfl rfl rfl
  · split
    · exact flushed
    · exact flushed.enqueue rfl

/-- `SendWire` adds the frames it takes on at the end of their channel's trail. -/
theorem sendWire_trail {mux : ChannelMux (Logged τ)} (queued : mux.Queued) (wire : Bytes)
    (id : UInt32) : (mux.sendWire (channelOf wire) .reliable wire).1.trail id = mux.trail id ++
      SendLog.on id (mux.wireLog (channelOf wire) .reliable wire).submitted := by
  have flushed : mux.flushQueued.trail id = mux.trail id := flushTurns_trail _ queued id
  have sent : mux.sendWire (channelOf wire) .reliable wire =
      if (mux.flushQueued.queueOf (channelOf wire)).isEmpty && mux.flushQueued.hasReliableCredit then
        mux.flushQueued.transmit .reliable wire
      else if mux.flushQueued.tuning.maxQueuedBytes < mux.flushQueued.queuedBytes + wire.length then
        (mux.flushQueued, .error "amp mux: send queue full")
      else (mux.flushQueued.enqueue (channelOf wire) wire, .ok ()) := if_neg fun differs => differs rfl
  unfold wireLog takesOn
  rw [sent]
  by_cases direct : ((mux.flushQueued.queueOf (channelOf wire)).isEmpty &&
      mux.flushQueued.hasReliableCredit) = true
  · have blank := List.isEmpty_iff.mp (Bool.and_eq_true_iff.mp direct).1
    rw [if_pos direct, if_pos ⟨rfl, by rw [direct, Bool.or_true]⟩, trail_transmit blank, flushed]
  · rw [if_neg direct]
    by_cases full : mux.flushQueued.tuning.maxQueuedBytes <
        mux.flushQueued.queuedBytes + wire.length
    · rw [if_pos full, if_neg, SendLog.on_nil, List.append_nil]
      · exact flushed
      · intro taken
        rcases Bool.or_eq_true_iff.mp taken.2 with said | handed
        · exact Bool.noConfusion said
        · exact direct handed
    · rw [if_neg full, if_pos ⟨rfl, rfl⟩, trail_enqueue, flushed]

theorem on_flatMap (id : UInt32) (entries : List (Σ _ : UInt32, List Bytes))
    (fresh : entries.NodupKeys) :
    SendLog.on id (entries.flatMap fun entry => entry.2.map (entry.1, ·)) =
      (entries.dlookup id).getD [] := by
  induction entries with
  | nil => rfl
  | cons entry rest ih =>
      have unlisted := (List.nodupKeys_cons.mp fresh).1
      rw [List.flatMap_cons, SendLog.on_append, SendLog.on_map,
        ih (List.nodupKeys_cons.mp fresh).2]
      by_cases same : entry.1 = id
      · rw [same] at unlisted
        rw [if_pos same, List.dlookup_eq_none.mpr unlisted]
        cases entry
        cases same
        rw [List.dlookup_cons_eq, Option.getD_none, List.append_nil, Option.getD_some]
      · rw [if_neg same, List.nil_append,
          List.dlookup_cons_ne _ _ (fun equal => same equal.symm)]

omit [MuxTransport τ] in
theorem on_everyQueued (mux : ChannelMux τ) (id : UInt32) :
    SendLog.on id mux.everyQueued = mux.queueOf id :=
  on_flatMap id mux.sendQueues.entries mux.sendQueues.nodupKeys

theorem Works.queued {before after : ChannelMux (Logged τ)} {log : SendLog}
    (works : Works before log after) (queued : before.Queued) : after.Queued := by
  induction works with
  | aside same => exact queued.same same
  | loose mux wire => exact queued.congr rfl rfl rfl
  | reliable mux wire => exact queued.sendWire wire
  | drop mux id => exact queued.drop id
  | flush mux => exact queued.flush
  | credit mux inner => exact queued.congr rfl rfl rfl
  | detach mux =>
      exact ⟨rfl, fun id waiting => absurd rfl waiting, fun id => nofun,
        fun id wire absent => absurd absent List.not_mem_nil⟩
  | trans _ _ first second => exact second (first queued)

theorem Works.traced {before after : ChannelMux (Logged τ)} {log : SendLog}
    (works : Works before log after) : before.Queued → ∀ {older : SendLog}, Traced older before →
    Traced (older.append log) after := by
  induction works with
  | aside same =>
      intro _ older traced
      apply traced.submit
      intro id
      rw [trail_same same, SendLog.on_nil, List.append_nil]
  | loose mux wire =>
      intro _ older traced
      apply traced.submit
      intro id
      rw [SendLog.on_nil, List.append_nil]
      rfl
  | reliable mux wire =>
      intro queued older traced
      exact traced.submit (sendWire_trail queued wire)
  | drop mux id =>
      intro _ older traced
      apply traced.cut
      intro other
      have transport : (mux.dropQueued id).transport = mux.transport := by
        unfold dropQueued
        split <;> rfl
      rw [trail, trail, transport, queueOf_dropQueued, SendLog.on_map]
      by_cases same : other = id
      · subst same
        rw [if_pos rfl, if_pos rfl, List.append_nil]
      · rw [if_neg same, if_neg (fun equal => same equal.symm), List.append_nil]
  | flush mux =>
      intro queued older traced
      apply traced.submit
      intro id
      rw [SendLog.on_nil, List.append_nil]
      exact flushTurns_trail _ queued id
  | credit mux inner =>
      intro _ older traced
      apply traced.submit
      intro id
      rw [SendLog.on_nil, List.append_nil]
      rfl
  | detach mux =>
      intro _ older traced
      apply traced.cut
      intro id
      rw [on_everyQueued]
      show _ = (mux.transport.reached.filter _ ++ []) ++ _
      rw [List.append_nil]
      rfl
  | trans one two first second =>
      intro queued older traced
      have last := second (one.queued queued) (first queued traced)
      simp only [SendLog.append, List.append_assoc] at last ⊢
      exact last

end Trail

section Logs

variable [MuxTransport τ]

def sendFrameLog (mux : ChannelMux τ) (frame : ChannelFrame) (cls : ChannelClass) : SendLog :=
  match ChannelWire.encode frame with
  | .error _ => {}
  | .ok wire => mux.wireLog frame.channelId (qosForClass cls) wire

/-- Fragments go on being submitted as long as the channel takes them. -/
def sendFragsLog (qos : QosClass) (id : UInt32) (msgId count totalLen : Nat) :
    Nat → List Bytes → ChannelRecord → ChannelMux τ → SendLog
  | _, [], _, _ => {}
  | index, chunk :: rest, channel, mux =>
      match ChannelWire.encode
          ⟨id, channel.txSeq, .frag ⟨msgId, index, count, totalLen, chunk⟩⟩ with
      | .error _ => {}
      | .ok wire => (mux.wireLog id qos wire).append <|
          match mux.sendWire id qos wire with
          | (_, .error _) => {}
          | (mux, .ok _) =>
              match mux.channelById id with
              | none => {}
              | some channel =>
                  if channel.state ≠ .opened then {}
                  else
                    let channel := { channel with txSeq := nextSeq channel.txSeq }
                    sendFragsLog qos id msgId count totalLen (index + 1) rest channel
                      (mux.putChannel id channel)

def sendFragmentedLog (mux : ChannelMux τ) (id : UInt32) (channel : ChannelRecord)
    (payload : Bytes) : SendLog :=
  let chunkBytes := mux.maxFrameBytes - kChannelHeaderBytes - kChannelFragFieldsBytes
  let needed := (payload.length + chunkBytes - 1) / chunkBytes
  if kMaxFragmentsPerMessage < needed then {}
  else
    let qos := qosForClass channel.policy.cls
    if qos = .reliable ∧ mux.tuning.maxQueuedBytes < mux.queuedBytes + payload.length then {}
    else sendFragsLog qos id mux.nextFragMsgId needed (payload.length % 2 ^ 32) 0
      (chunksOf chunkBytes needed payload) channel mux.takeMsgId

def sendDataLog (mux : ChannelMux τ) (id : UInt32) (payload : Bytes) : SendLog :=
  match mux.channelById id with
  | none => {}
  | some channel =>
      if channel.state ≠ .opened then {}
      else if channel.policy.maxMessageBytes < payload.length then {}
      else if payload.length ≤ mux.maxFrameBytes - kChannelHeaderBytes then
        mux.sendFrameLog (dataFrame id channel.txSeq payload) channel.policy.cls
      else mux.sendFragmentedLog id channel payload

def openAsLog (mux : ChannelMux τ) (id : UInt32) (protocolId : Bytes) (policy : ChannelPolicy) :
    SendLog :=
  (mux.adoptHandlers (openingRecord id protocolId policy)).sendFrameLog
    (openFrame id protocolId policy) policy.cls

def openOutboundLog (mux : ChannelMux τ) (protocolId : Bytes) (policy : ChannelPolicy)
    (fixedId : Option UInt32) : SendLog :=
  match fixedId with
  | some id => if (mux.channelById id).isSome then {} else mux.openAsLog id protocolId policy
  | none =>
      let (id, next) := mux.allocateId
      let mux := { mux with nextDynamicId := next }
      if (mux.channelById id).isSome then {} else mux.openAsLog id protocolId policy

def dropQueuedLog (mux : ChannelMux τ) (id : UInt32) : SendLog where
  dropped := (mux.queueOf id).map (id, ·)

/-- What waits is dropped before the Reset is submitted. -/
def resetChannelLog (mux : ChannelMux τ) (id code : UInt32) : SendLog :=
  match mux.channelById id with
  | none => {}
  | some channel => (mux.dropQueuedLog id).append
      ((mux.dropQueued id).sendFrameLog ⟨id, channel.txSeq, .reset code⟩ channel.policy.cls)

def closeChannelLog (mux : ChannelMux τ) (id : UInt32) (reason : Bytes) : SendLog :=
  match mux.channelById id with
  | none => {}
  | some channel =>
      let mux := mux.putChannel id { channel with
        txSeq := nextSeq channel.txSeq, state := .closing }
      mux.sendFrameLog ⟨id, channel.txSeq, .close reason⟩ channel.policy.cls

def handleOpenLog (mux : ChannelMux τ) (id : UInt32) (protocolId : Bytes) (cls : ChannelClass)
    (offered : Nat) : SendLog :=
  if (mux.channelById id).isSome then {}
  else match mux.openRefusal id protocolId with
    | some result =>
        let mux := { mux with
          pendingTerminalHandlers := mux.pendingTerminalHandlers.filter (· ≠ id) }
        mux.sendFrameLog (ackFrame id result) cls
    | none => (mux.adoptHandlers (acceptedRecord id protocolId cls offered)).sendFrameLog
        (ackFrame id 0) cls

def handleOpenAckLog (mux : ChannelMux τ) (id : UInt32) (result : UInt8) : SendLog :=
  match mux.channelById id with
  | none => {}
  | some channel =>
      if result ≠ 0 then {}
      else
        let mux := mux.putChannel id { channel with state := .opened }
        match mux.pendingOpenData.lookup id with
        | none => {}
        | some payload =>
            { mux with pendingOpenData := mux.pendingOpenData.erase id }.sendDataLog id payload

def handleFragLog (mux : ChannelMux τ) (id seq : UInt32) (channel : ChannelRecord)
    (frag : ChannelFragBody) : SendLog :=
  if channel.state ≠ .opened then {}
  else if !inTurn channel seq then {}
  else
    let (reassembly, assembled) := channel.reassembly.push frag mux.nowMs
    let channel := { countFrame channel with reassembly := reassembly }
    match assembled with
    | .error _ => (mux.putChannel id channel).resetChannelLog id 1
    | .ok _ => {}

def onFrameInboundLog (mux : ChannelMux τ) (wire : Bytes) : SendLog :=
  match ChannelWire.decode wire with
  | .error _ => {}
  | .ok frame =>
      let id := frame.channelId
      match frame.body, mux.channelById id with
      | .openFrame protocolId cls _ offered, _ => mux.handleOpenLog id protocolId cls offered
      | _, none => {}
      | .openAck result, some _ => mux.handleOpenAckLog id result
      | .reset _, some _ => mux.dropQueuedLog id
      | .close _, some _ => mux.dropQueuedLog id
      | .data _, some _ => {}
      | .frag frag, some channel => mux.handleFragLog id frame.channelSeq channel frag

def expireReaderLog (mux : ChannelMux τ) (id : UInt32) : SendLog :=
  match mux.channelById id with
  | none => {}
  | some _ => mux.resetChannelLog id 1

def expireReadersLog : List UInt32 → ChannelMux τ → SendLog
  | [], _ => {}
  | id :: rest, mux => (mux.expireReaderLog id).append (expireReadersLog rest (mux.expireReader id))

def tickLog (mux : ChannelMux τ) (now : Int) : SendLog :=
  let mux := mux.mapChannels (sweepChannel mux.tuning now)
  expireReadersLog ((mux.channels.entries.filter fun entry => readExpired now entry.2).map (·.1))
    (mux.mapChannels (startReadClock now))

end Logs

section Calls

variable [MuxTransport τ] {mux : ChannelMux (Logged τ)}

/-- A change of what is not the outbox after some work. -/
theorem Works.then {before middle after : ChannelMux (Logged τ)} {log : SendLog}
    (one : Works before log middle) (same : after.outbox = middle.outbox) :
    Works before log after := by
  have done := one.trans (.aside same)
  rwa [SendLog.append_blank] at done

/-- Some work after a change of what is not the outbox. -/
theorem Works.since {before middle after : ChannelMux (Logged τ)} {log : SendLog}
    (two : Works middle log after) (same : middle.outbox = before.outbox) :
    Works before log after := (Works.aside same).trans two

theorem sendWire_works (mux : ChannelMux (Logged τ)) {id : UInt32} {wire : Bytes}
    (named : channelOf wire = id) (qos : QosClass) :
    Works mux (mux.wireLog id qos wire) (mux.sendWire id qos wire).1 := by
  subst named
  cases qos with
  | reliable => exact .reliable mux wire
  | bestEffort => exact .loose mux wire

theorem sendFrame_works (mux : ChannelMux (Logged τ)) (frame : ChannelFrame)
    (cls : ChannelClass) : Works mux (mux.sendFrameLog frame cls) (mux.sendFrame frame cls).1 := by
  unfold sendFrame sendFrameLog
  cases encoded : ChannelWire.encode frame with
  | error message => exact .aside rfl
  | ok wire => exact sendWire_works mux (channelOf_encode encoded) _

theorem sendFrags_works (qos : QosClass) (id : UInt32) (msgId count totalLen : Nat)
    (chunks : List Bytes) : ∀ (index : Nat) (channel : ChannelRecord)
    (mux : ChannelMux (Logged τ)),
    Works mux (sendFragsLog qos id msgId count totalLen index chunks channel mux)
      (sendFrags qos id msgId count totalLen index chunks channel mux).1 := by
  induction chunks with
  | nil => exact fun _ _ mux => .aside rfl
  | cons chunk rest ih =>
      intro index channel mux
      unfold sendFrags sendFragsLog
      cases encoded : ChannelWire.encode
          ⟨id, channel.txSeq, .frag ⟨msgId, index, count, totalLen, chunk⟩⟩ with
      | error message => exact .aside rfl
      | ok wire =>
          have sent := sendWire_works mux (channelOf_encode encoded) qos
          dsimp only at sent ⊢
          generalize mux.sendWire id qos wire = outcome at sent ⊢
          obtain ⟨after, said⟩ := outcome
          cases said with
          | error message => exact sent.trans (.aside rfl)
          | ok _ =>
              dsimp only
              cases after.channelById id with
              | none => exact sent.trans (.aside rfl)
              | some channel =>
                  dsimp only
                  split
                  · exact sent.trans (.aside rfl)
                  · exact sent.trans ((ih _ _ _).since rfl)

theorem sendData_works (mux : ChannelMux (Logged τ)) (id : UInt32) (payload : Bytes) :
    Works mux (mux.sendDataLog id payload) (mux.sendData id payload).1 := by
  unfold sendData sendDataLog
  cases mux.channelById id with
  | none => exact .aside rfl
  | some channel =>
      dsimp only
      split
      · exact .aside rfl
      · split
        · exact .aside rfl
        · split
          · have sent := sendFrame_works mux (dataFrame id channel.txSeq payload) channel.policy.cls
            split
            · rename_i outcome
              rw [outcome] at sent
              exact sent
            · rename_i outcome
              rw [outcome] at sent
              exact sent.then rfl
          · unfold sendFragmented sendFragmentedLog
            dsimp only
            split
            · exact .aside rfl
            · split
              · exact .aside rfl
              · exact (sendFrags_works ..).since rfl

theorem openAs_works (mux : ChannelMux (Logged τ)) (id : UInt32) (protocolId : Bytes)
    (policy : ChannelPolicy) :
    Works mux (mux.openAsLog id protocolId policy) (mux.openAs id protocolId policy).1 := by
  have sent := sendFrame_works (mux.adoptHandlers (openingRecord id protocolId policy))
    (openFrame id protocolId policy) policy.cls
  have adopted : Works mux (mux.openAsLog id protocolId policy)
      ((mux.adoptHandlers (openingRecord id protocolId policy)).sendFrame
        (openFrame id protocolId policy) policy.cls).1 := sent.since rfl
  unfold openAs
  dsimp only
  split
  all_goals
    rename_i outcome
    rw [outcome] at adopted
    exact adopted

theorem openOutbound_works (mux : ChannelMux (Logged τ)) (protocolId : Bytes)
    (policy : ChannelPolicy) (fixedId : Option UInt32) :
    Works mux (mux.openOutboundLog protocolId policy fixedId)
      (mux.openOutbound protocolId policy fixedId).1 := by
  unfold openOutbound openOutboundLog
  cases fixedId with
  | some id =>
      dsimp only
      split
      · exact .aside rfl
      · exact openAs_works ..
  | none =>
      dsimp only
      split
      · exact .aside rfl
      · exact (openAs_works ..).since rfl

theorem resetChannel_works (mux : ChannelMux (Logged τ)) (id code : UInt32) :
    Works mux (mux.resetChannelLog id code) (mux.resetChannel id code).1 := by
  unfold resetChannel resetChannelLog
  cases mux.channelById id with
  | none => exact .aside rfl
  | some channel =>
      have dropped : Works mux (mux.dropQueuedLog id) (mux.dropQueued id) := .drop mux id
      have sent := sendFrame_works (mux.dropQueued id) ⟨id, channel.txSeq, .reset code⟩
        channel.policy.cls
      exact (dropped.trans sent).then rfl

theorem closeChannel_works (mux : ChannelMux (Logged τ)) (id : UInt32) (reason : Bytes) :
    Works mux (mux.closeChannelLog id reason) (mux.closeChannel id reason).1 := by
  unfold closeChannel closeChannelLog
  cases mux.channelById id with
  | none => exact .aside rfl
  | some channel => exact (sendFrame_works ..).since rfl

omit [MuxTransport τ] in
theorem notifyTerminal_outbox (mux : ChannelMux (Logged τ)) (id : UInt32)
    (channel : ChannelRecord) (reason : String) :
    (mux.notifyTerminal id channel reason).outbox = mux.outbox := by
  unfold notifyTerminal
  split <;> rfl

omit [MuxTransport τ] in
theorem deliverPayload_outbox (mux : ChannelMux (Logged τ)) (id : UInt32)
    (channel : ChannelRecord) (payload : Bytes) :
    (mux.deliverPayload id channel payload).outbox = mux.outbox := by
  unfold deliverPayload
  split <;> rfl

omit [MuxTransport τ] in
theorem noteInboundOpen_outbox (mux : ChannelMux (Logged τ)) (id : UInt32) (protocolId : Bytes) :
    (mux.noteInboundOpen id protocolId).outbox = mux.outbox := by
  unfold noteInboundOpen
  split <;> rfl

theorem handleOpen_works (mux : ChannelMux (Logged τ)) (id : UInt32) (protocolId : Bytes)
    (cls : ChannelClass) (offered : Nat) :
    Works mux (mux.handleOpenLog id protocolId cls offered)
      (mux.handleOpen id protocolId cls offered).1 := by
  unfold handleOpen handleOpenLog
  split
  · exact .aside rfl
  · cases mux.openRefusal id protocolId with
    | some result => exact (sendFrame_works ..).since rfl
    | none =>
        have sent := sendFrame_works (mux.adoptHandlers (acceptedRecord id protocolId cls offered))
          (ackFrame id 0) cls
        dsimp only
        generalize (mux.adoptHandlers (acceptedRecord id protocolId cls offered)).sendFrame
          (ackFrame id 0) cls = outcome at sent ⊢
        obtain ⟨after, said⟩ := outcome
        cases said with
        | error message => exact sent.since rfl
        | ok _ =>
            have accepted : Works mux _ after := sent.since rfl
            exact accepted.then (noteInboundOpen_outbox ..)

theorem handleOpenAck_works (mux : ChannelMux (Logged τ)) (id : UInt32) (result : UInt8) :
    Works mux (mux.handleOpenAckLog id result) (mux.handleOpenAck id result).1 := by
  unfold handleOpenAck handleOpenAckLog
  cases mux.channelById id with
  | none => exact .aside rfl
  | some channel =>
      dsimp only
      split
      · exact .aside (notifyTerminal_outbox ..)
      · unfold flushPendingOpenData
        cases (mux.putChannel id { channel with state := .opened }).pendingOpenData.lookup id with
        | none => exact .aside rfl
        | some payload => exact (sendData_works ..).since rfl

theorem handleEnd_works (mux : ChannelMux (Logged τ)) (id : UInt32) (channel : ChannelRecord)
    (reason : String) : Works mux (mux.dropQueuedLog id) (mux.handleEnd id channel reason) := by
  have dropped : Works mux (mux.dropQueuedLog id) (mux.dropQueued id) := .drop mux id
  exact dropped.then (notifyTerminal_outbox ..)

theorem handleData_works (mux : ChannelMux (Logged τ)) (id seq : UInt32)
    (channel : ChannelRecord) (payload : Bytes) :
    Works mux {} (mux.handleData id seq channel payload).1 := by
  unfold handleData
  split
  · exact .aside rfl
  · split
    · exact .aside rfl
    · exact .aside (deliverPayload_outbox ..)

theorem handleFrag_works (mux : ChannelMux (Logged τ)) (id seq : UInt32)
    (channel : ChannelRecord) (frag : ChannelFragBody) :
    Works mux (mux.handleFragLog id seq channel frag) (mux.handleFrag id seq channel frag).1 := by
  unfold handleFrag handleFragLog
  split
  · exact .aside rfl
  · split
    · exact .aside rfl
    · generalize channel.reassembly.push frag mux.nowMs = pushed
      obtain ⟨reassembly, assembled⟩ := pushed
      rcases assembled with message | (_ | message)
      · exact ((resetChannel_works ..).then (notifyTerminal_outbox ..)).since rfl
      · exact .aside rfl
      · exact .aside (deliverPayload_outbox ..)

theorem onFrameInbound_works (mux : ChannelMux (Logged τ)) (wire : Bytes) :
    Works mux (mux.onFrameInboundLog wire) (mux.onFrameInbound wire).1 := by
  unfold onFrameInbound onFrameInboundLog
  cases ChannelWire.decode wire with
  | error message => exact .aside rfl
  | ok frame =>
      obtain ⟨id, seq, body⟩ := frame
      unfold dispatchFrame
      dsimp only
      generalize mux.channelById id = known
      cases body with
      | openFrame protocolId cls flags offered => exact handleOpen_works ..
      | openAck result =>
          cases known with
          | none => exact .aside rfl
          | some channel => exact handleOpenAck_works ..
      | reset code =>
          cases known with
          | none => exact .aside rfl
          | some channel => exact handleEnd_works ..
      | close reason =>
          cases known with
          | none => exact .aside rfl
          | some channel => exact handleEnd_works ..
      | data payload =>
          cases known with
          | none => exact .aside rfl
          | some channel => exact handleData_works ..
      | frag frag =>
          cases known with
          | none => exact .aside rfl
          | some channel => exact handleFrag_works ..

theorem expireReader_works (mux : ChannelMux (Logged τ)) (id : UInt32) :
    Works mux (mux.expireReaderLog id) (mux.expireReader id) := by
  unfold expireReader expireReaderLog
  cases mux.channelById id with
  | none => exact .aside rfl
  | some channel => exact (resetChannel_works ..).then (notifyTerminal_outbox ..)

theorem expireReaders_works (gone : List UInt32) : ∀ mux : ChannelMux (Logged τ),
    Works mux (expireReadersLog gone mux) (gone.foldl expireReader mux) := by
  induction gone with
  | nil => exact fun mux => .aside rfl
  | cons id rest ih => exact fun mux => (expireReader_works mux id).trans (ih _)

theorem tick_works (mux : ChannelMux (Logged τ)) (now : Int) :
    Works mux (mux.tickLog now) (mux.tick now) := by
  have expired : Works mux (mux.tickLog now)
      ((mux.mapChannels (sweepChannel mux.tuning now)).expireIdleReaders now) :=
    (expireReaders_works ..).since rfl
  have flushed := expired.trans (.flush _)
  rwa [SendLog.append_blank] at flushed

/-- A call of the mux, or a change of what its transport is. -/
inductive QueueCall (τ : Type) where
  | sendData (id : UInt32) (payload : Bytes)
  | openOutbound (protocolId : Bytes) (policy : ChannelPolicy) (fixedId : Option UInt32)
  | closeChannel (id : UInt32) (reason : Bytes)
  | resetChannel (id code : UInt32)
  | onFrameInbound (wire : Bytes)
  | tick (now : Int)
  | detachAllChannels
  | setDataHandler (id : UInt32)
  | setTerminalHandler (id : UInt32)
  | applyChannelPolicy (id : UInt32) (policy : ChannelPolicy)
  | setMaxFrameBytes (bytes : Nat)
  | setTuning (tuning : MuxTuning)
  | setClock (now : Int)
  | transport (inner : τ)

def answer (mux : ChannelMux (Logged τ)) : QueueCall τ → ChannelMux (Logged τ)
  | .sendData id payload => (mux.sendData id payload).1
  | .openOutbound protocolId policy fixedId => (mux.openOutbound protocolId policy fixedId).1
  | .closeChannel id reason => (mux.closeChannel id reason).1
  | .resetChannel id code => (mux.resetChannel id code).1
  | .onFrameInbound wire => (mux.onFrameInbound wire).1
  | .tick now => mux.tick now
  | .detachAllChannels => mux.detachAllChannels.1
  | .setDataHandler id => mux.setDataHandler id
  | .setTerminalHandler id => mux.setTerminalHandler id
  | .applyChannelPolicy id policy => (mux.applyChannelPolicy id policy).1
  | .setMaxFrameBytes bytes => (mux.setMaxFrameBytes bytes).1
  | .setTuning tuning => { mux with tuning := tuning }
  | .setClock now => { mux with nowMs := now }
  | .transport inner => { mux with transport := { mux.transport with inner := inner } }

/-- The reliable frames that a call submits, and those it drops. -/
def answerLog (mux : ChannelMux (Logged τ)) : QueueCall τ → SendLog
  | .sendData id payload => mux.sendDataLog id payload
  | .openOutbound protocolId policy fixedId => mux.openOutboundLog protocolId policy fixedId
  | .closeChannel id reason => mux.closeChannelLog id reason
  | .resetChannel id code => mux.resetChannelLog id code
  | .onFrameInbound wire => mux.onFrameInboundLog wire
  | .tick now => mux.tickLog now
  | .detachAllChannels => { dropped := mux.everyQueued }
  | _ => {}

/-- The log of a run, call by call. -/
def runLog (mux : ChannelMux (Logged τ)) : List (QueueCall τ) → SendLog
  | [] => {}
  | call :: rest => (mux.answerLog call).append (runLog (mux.answer call) rest)

theorem answer_works (mux : ChannelMux (Logged τ)) (call : QueueCall τ) :
    Works mux (mux.answerLog call) (mux.answer call) := by
  cases call with
  | sendData id payload => exact sendData_works mux id payload
  | openOutbound protocolId policy fixedId => exact openOutbound_works mux protocolId policy fixedId
  | closeChannel id reason => exact closeChannel_works mux id reason
  | resetChannel id code => exact resetChannel_works mux id code
  | onFrameInbound wire => exact onFrameInbound_works mux wire
  | tick now => exact tick_works mux now
  | detachAllChannels => exact .detach mux
  | setDataHandler id =>
      apply Works.aside
      simp only [answer, setDataHandler]
      split <;> rfl
  | setTerminalHandler id =>
      apply Works.aside
      simp only [answer, setTerminalHandler]
      split <;> rfl
  | applyChannelPolicy id policy =>
      apply Works.aside
      simp only [answer, applyChannelPolicy]
      split <;> rfl
  | setMaxFrameBytes bytes =>
      apply Works.aside
      simp only [answer, setMaxFrameBytes]
      split <;> rfl
  | setTuning tuning => exact .aside rfl
  | setClock now => exact .aside rfl
  | transport inner => exact .credit mux inner

/-- A mux with whatever channels and settings, and nothing sent or queued yet. -/
def unsent (mux : ChannelMux (Logged τ)) : ChannelMux (Logged τ) :=
  { mux with
    transport := { mux.transport with reached := [] }
    sendQueues := ∅
    sendOrder := []
    queuedBytes := 0 }

/-- What the queues promise after any calls: the byte count is that of the queued
frames, at every turn of a flush; whoever waits is in the order; a flush ends by itself,
with no empty queue, and with no queue at all unless the credit is gone; and each
channel's frames reached the transport, and wait, in the order of their submission, none
missing but those dropped. -/
structure Dutiful (log : SendLog) (mux : ChannelMux (Logged τ)) : Prop where
  bytes : mux.queuedBytes = mux.waitingBytes
  covered : ∀ turns id, bytesOf ((flushTurns turns mux).queueOf id) ≤
    (flushTurns turns mux).queuedBytes
  ordered : ∀ id, mux.queueOf id ≠ [] → id ∈ mux.sendOrder
  terminates : ∀ turns, mux.turnsLeft ≤ turns → flushTurns turns mux = mux.flushQueued
  filled : ∀ id, mux.flushQueued.sendQueues.lookup id ≠ some []
  flushed : mux.flushQueued.hasReliableCredit = false ∨ ∀ id, mux.flushQueued.queueOf id = []
  traced : Traced log mux

theorem Queued.dutiful {log : SendLog} (queued : mux.Queued) (traced : Traced log mux) :
    Dutiful log mux := by
  refine ⟨queued.bytes, fun turns => (queued.flushTurns turns).covered, queued.ordered,
    fun _ => flushTurns_enough, queued.flush.filled, ?_, traced⟩
  rcases flushQueued_settled mux with listed | broke
  · right
    intro id
    by_contra waiting
    have member := queued.flush.ordered id waiting
    rw [listed] at member
    exact List.not_mem_nil member
  · exact Or.inl broke

theorem run_traced (calls : List (QueueCall τ)) : ∀ {mux : ChannelMux (Logged τ)} {older : SendLog},
    mux.Queued → Traced older mux → (Run.exec answer mux calls).Queued ∧
      Traced (older.append (mux.runLog calls)) (Run.exec answer mux calls) := by
  induction calls with
  | nil =>
      intro mux older queued traced
      refine ⟨queued, ?_⟩
      simpa [SendLog.append, runLog] using traced
  | cons call rest ih =>
      intro mux older queued traced
      have works := answer_works mux call
      obtain ⟨after, trail⟩ := ih (works.queued queued) (works.traced queued traced)
      refine ⟨after, ?_⟩
      simpa [SendLog.append, runLog, List.append_assoc] using trail

/-- Over every run of calls, whatever the transport takes and credits, the send queues
keep their promises. -/
theorem run_dutiful (mux : ChannelMux (Logged τ)) (calls : List (QueueCall τ)) :
    Dutiful (mux.unsent.runLog calls) (Run.exec answer mux.unsent calls) := by
  have queued : mux.unsent.Queued :=
    ⟨rfl, fun id waiting => absurd rfl waiting, fun id => nofun,
      fun id wire absent => absurd absent List.not_mem_nil⟩
  have traced : Traced {} mux.unsent := ⟨fun id => List.Sublist.refl _, fun id => List.Perm.refl _⟩
  obtain ⟨after, trail⟩ := run_traced calls queued traced
  exact after.dutiful trail

end Calls

section Samples

/-- A transport that takes as many reliable frames as it has credit. -/
local instance : MuxTransport Nat where
  send credit _ _ := (credit - 1, .ok ())
  credits credit := credit

/-- With credit for one frame, the first message of a channel goes out and the second waits
for the transport to take more. -/
theorem run_dutiful_sample :
    let mux : ChannelMux (Logged Nat) := {
      transport := { inner := 1 }
      maxFrameBytes := 64
      channels := AList.singleton 5 { id := 5, state := .opened }
      nextDynamicId := 2 }
    let calls := [.sendData 5 [1], .sendData 5 [2], .transport 1, .tick 0]
    (mux.unsent.runLog calls).submitted.map Prod.fst = [5, 5] ∧
      (Run.exec answer mux.unsent calls).transport.reached =
        (mux.unsent.runLog calls).submitted.map Prod.snd ∧
      Dutiful (mux.unsent.runLog calls) (Run.exec answer mux.unsent calls) := by
  intro mux calls
  exact ⟨by decide +kernel, by decide +kernel, run_dutiful mux calls⟩

end Samples

end ChannelMux

end Amp
