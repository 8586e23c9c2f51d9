import Amp.L3.ChannelStream

set_option autoImplicit false

/- A channel's line: its reliable frames on their way to the peer, those the
transport has taken and behind them those that wait. Flushing moves frames along
the line and never changes it; a send adds at its end. -/
namespace Amp

open Adp (Bytes QosClass)

/-- A transport that takes every frame. Reliable frames leave it in order, each
once; its credits are any function of what it has sent. -/
structure Pipe where
  flying : List Bytes := []
  loose : List Bytes := []
  sent : Nat := 0
  allowance : Nat → Nat := fun _ => 1

instance : MuxTransport Pipe where
  send pipe qos wire :=
    match qos with
    | .reliable => ({ pipe with flying := pipe.flying ++ [wire], sent := pipe.sent + 1 }, .ok ())
    | .bestEffort => ({ pipe with loose := pipe.loose ++ [wire] }, .ok ())
  credits pipe := pipe.allowance pipe.sent

namespace ChannelMux

/-- The frame of a wire, if it is one of this channel. -/
def frameOn (id : UInt32) (wire : Bytes) : Option ChannelFrame :=
  match ChannelWire.decode wire with
  | .ok frame => if frame.channelId = id then some frame else none
  | .error _ => none

def framesOn (id : UInt32) (wires : List Bytes) : List ChannelFrame := wires.filterMap (frameOn id)

def line (mux : ChannelMux Pipe) (id : UInt32) : List ChannelFrame :=
  framesOn id mux.transport.flying ++ framesOn id (mux.queueOf id)

/-- No frame of the channel waits in another's queue or went out best-effort. -/
structure Tidy (mux : ChannelMux Pipe) (id : UInt32) : Prop where
  queued : ∀ other wire, other ≠ id → wire ∈ mux.queueOf other → frameOn id wire = none
  loose : ∀ wire ∈ mux.transport.loose, frameOn id wire = none

/-- Only the sending side of the mux taken from another state. -/
def withOutgoing (mux after : ChannelMux Pipe) : ChannelMux Pipe :=
  { mux with
    transport := after.transport
    sendQueues := after.sendQueues
    sendOrder := after.sendOrder
    queuedBytes := after.queuedBytes }

/-- Frames are added to the channel's line and nothing but the sending side changes. -/
structure Sends (id : UInt32) (frames : List ChannelFrame) (before after : ChannelMux Pipe) :
    Prop where
  rest : after = before.withOutgoing after
  line : after.line id = before.line id ++ frames
  tidy : after.Tidy id

theorem Sends.refl {mux : ChannelMux Pipe} {id : UInt32} (tidy : mux.Tidy id) :
    Sends id [] mux mux :=
  ⟨rfl, (List.append_nil _).symm, tidy⟩

theorem Sends.trans {id : UInt32} {first second : List ChannelFrame}
    {before middle after : ChannelMux Pipe} (one : Sends id first before middle)
    (two : Sends id second middle after) : Sends id (first ++ second) before after := by
  refine ⟨?_, ?_, two.tidy⟩
  · rw [two.rest, one.rest]
    rfl
  · rw [two.line, one.line, List.append_assoc]

theorem Sends.channels {id : UInt32} {frames : List ChannelFrame} {before after : ChannelMux Pipe}
    (sends : Sends id frames before after) : after.channels = before.channels := by
  rw [sends.rest]
  rfl

theorem Sends.delivered {id : UInt32} {frames : List ChannelFrame} {before after : ChannelMux Pipe}
    (sends : Sends id frames before after) : after.delivered = before.delivered := by
  rw [sends.rest]
  rfl

theorem framesOn_append (id : UInt32) (first second : List Bytes) :
    framesOn id (first ++ second) = framesOn id first ++ framesOn id second :=
  List.filterMap_append ..

theorem framesOn_singleton (id : UInt32) (wire : Bytes) :
    framesOn id [wire] = (frameOn id wire).toList := by
  unfold framesOn
  rw [List.filterMap_cons, List.filterMap_nil]
  cases frameOn id wire <;> rfl

/-- One frame moves from its queue to the transport. -/
theorem flushTurn_sends (mux : ChannelMux Pipe) (id turn : UInt32) (order : List UInt32)
    (wire : Bytes) (rest : List Bytes) (bytes : Nat) (tidy : mux.Tidy id)
    (queue : mux.queueOf turn = wire :: rest) :
    Sends id [] mux
      (({ mux with queuedBytes := bytes }.transmit .reliable wire).1.requeue turn order rest) := by
  have queues (other : UInt32) : (({ mux with queuedBytes := bytes }.transmit .reliable
      wire).1.requeue turn order rest).queueOf other =
        if other = turn then rest else mux.queueOf other :=
    queueOf_requeue _ turn other order rest
  have transport : (({ mux with queuedBytes := bytes }.transmit .reliable
      wire).1.requeue turn order rest).transport =
        { mux.transport with flying := mux.transport.flying ++ [wire]
                             sent := mux.transport.sent + 1 } := by
    unfold requeue
    split <;> rfl
  refine ⟨?_, ?_, ⟨?_, ?_⟩⟩
  · unfold requeue
    split <;> rfl
  · unfold line
    rw [transport, queues, framesOn_append, List.append_nil, List.append_assoc]
    by_cases same : id = turn
    · subst same
      rw [if_pos rfl, queue, ← framesOn_append, List.singleton_append]
    · have quiet : framesOn id [wire] = [] := by
        rw [framesOn_singleton, tidy.queued turn wire (Ne.symm same) (by rw [queue]; simp)]
        rfl
      rw [if_neg same, quiet, List.nil_append]
  · intro other held differs member
    rw [queues] at member
    split at member
    · rename_i same
      subst same
      exact tidy.queued other held differs (by rw [queue]; exact List.mem_cons_of_mem _ member)
    · exact tidy.queued other held differs member
  · rw [transport]
    exact tidy.loose

theorem flushTurns_sends (id : UInt32) (turns : Nat) : ∀ mux : ChannelMux Pipe, mux.Tidy id →
    Sends id [] mux (flushTurns turns mux) := by
  induction turns with
  | zero => exact fun mux tidy => Sends.refl tidy
  | succ turns ih =>
      intro mux tidy
      unfold flushTurns
      split
      · exact Sends.refl tidy
      · rename_i turn order listed
        split
        · exact Sends.refl tidy
        · split
          · have skipped : Sends id [] mux { mux with sendOrder := order } :=
              ⟨rfl, (List.append_nil _).symm, ⟨tidy.queued, tidy.loose⟩⟩
            exact skipped.trans (ih _ skipped.tidy)
          · rename_i wire rest queue
            have moved := flushTurn_sends mux id turn order wire rest
              (mux.queuedBytes - wire.length) tidy queue
            exact moved.trans (ih _ moved.tidy)

theorem flushQueued_sends (mux : ChannelMux Pipe) (id : UInt32) (tidy : mux.Tidy id) :
    Sends id [] mux mux.flushQueued :=
  flushTurns_sends id _ mux tidy

/-- A frame is its wire's frame, and no other channel's. -/
theorem frameOn_encode (id : UInt32) (frame : ChannelFrame) (wire : Bytes)
    (fits : ChannelWire.Fits frame.body) (ok : ChannelWire.encode frame = .ok wire) :
    (frameOn id wire).toList = if frame.channelId = id then [frame] else [] := by
  unfold frameOn
  rw [ChannelWire.decode_encode frame wire fits ok]
  dsimp only
  split <;> rfl

theorem transmit_reliable (mux : ChannelMux Pipe) (id : UInt32) (wire : Bytes)
    (tidy : mux.Tidy id) (first : mux.queueOf id = [] ∨ frameOn id wire = none) :
    Sends id (frameOn id wire).toList mux (mux.transmit .reliable wire).1 := by
  refine ⟨rfl, ?_, ⟨tidy.queued, tidy.loose⟩⟩
  show framesOn id (mux.transport.flying ++ [wire]) ++ framesOn id (mux.queueOf id) = _
  rw [framesOn_append, framesOn_singleton, line]
  rcases first with blank | other
  · rw [blank]
    simp [framesOn]
  · rw [other]
    simp

theorem enqueue_sends (mux : ChannelMux Pipe) (id channel : UInt32) (wire : Bytes)
    (tidy : mux.Tidy id) (own : channel = id ∨ frameOn id wire = none) :
    Sends id (frameOn id wire).toList mux (mux.enqueue channel wire) := by
  refine ⟨rfl, ?_, ⟨?_, tidy.loose⟩⟩
  · show framesOn id mux.transport.flying ++ framesOn id ((mux.enqueue channel wire).queueOf id) = _
    rw [queueOf_enqueue, line]
    split
    · rename_i same
      rw [same, framesOn_append, framesOn_singleton, List.append_assoc]
    · rename_i differs
      rcases own with same | other
      · exact absurd same.symm differs
      · rw [other]
        simp
  · intro other held differs member
    rw [queueOf_enqueue] at member
    split at member
    · rename_i same
      rcases List.mem_append.mp member with old | new
      · exact tidy.queued channel held (same ▸ differs) old
      · rcases own with mine | quiet
        · exact absurd (same.trans mine) differs
        · rw [List.mem_singleton.mp new]
          exact quiet
    · exact tidy.queued other held differs member

/-- `SendWire` on a reliable channel: the frame joins the line, or the queue is
full and the line stays. -/
theorem sendWire_spec (mux : ChannelMux Pipe) (id : UInt32) (channel : UInt32) (wire : Bytes)
    (tidy : mux.Tidy id) (own : channel = id ∨ frameOn id wire = none) :
    Sends id (if (mux.sendWire channel .reliable wire).2.isOk then (frameOn id wire).toList else [])
      mux (mux.sendWire channel .reliable wire).1 := by
  have flushed := flushQueued_sends mux id tidy
  have reliable : ¬ (QosClass.reliable ≠ QosClass.reliable) := fun differs => differs rfl
  unfold sendWire
  rw [if_neg reliable]
  dsimp only
  by_cases direct : ((mux.flushQueued.queueOf channel).isEmpty &&
      mux.flushQueued.hasReliableCredit) = true
  · rw [if_pos direct]
    have blank := List.isEmpty_iff.mp (Bool.and_eq_true_iff.mp direct).1
    have first : mux.flushQueued.queueOf id = [] ∨ frameOn id wire = none := by
      rcases own with same | quiet
      · exact Or.inl (same ▸ blank)
      · exact Or.inr quiet
    exact flushed.trans (transmit_reliable mux.flushQueued id wire flushed.tidy first)
  · rw [if_neg direct]
    split
    · exact flushed
    · exact flushed.trans (enqueue_sends mux.flushQueued id channel wire flushed.tidy own)

/-- A best-effort frame of another channel. -/
theorem transmit_loose (mux : ChannelMux Pipe) (id : UInt32) (wire : Bytes) (tidy : mux.Tidy id)
    (quiet : frameOn id wire = none) : Sends id [] mux (mux.transmit .bestEffort wire).1 := by
  refine ⟨rfl, (List.append_nil _).symm, ⟨tidy.queued, ?_⟩⟩
  intro held member
  rcases List.mem_append.mp member with old | new
  · exact tidy.loose held old
  · rw [List.mem_singleton.mp new]
    exact quiet

theorem sendWire_other (mux : ChannelMux Pipe) (id channel : UInt32) (qos : QosClass)
    (wire : Bytes) (tidy : mux.Tidy id) (quiet : frameOn id wire = none) :
    Sends id [] mux (mux.sendWire channel qos wire).1 := by
  cases qos with
  | reliable =>
      have sent := sendWire_spec mux id channel wire tidy (Or.inr quiet)
      rw [quiet] at sent
      simpa using sent
  | bestEffort => exact transmit_loose mux id wire tidy quiet

theorem frameOn_other (id : UInt32) (frame : ChannelFrame) (wire : Bytes)
    (fits : ChannelWire.Fits frame.body) (ok : ChannelWire.encode frame = .ok wire)
    (differs : frame.channelId ≠ id) : frameOn id wire = none := by
  have listed := frameOn_encode id frame wire fits ok
  rw [if_neg differs] at listed
  cases found : frameOn id wire with
  | none => rfl
  | some other =>
      rw [found] at listed
      cases listed

theorem sendFrame_other (mux : ChannelMux Pipe) (id : UInt32) (frame : ChannelFrame)
    (cls : ChannelClass) (tidy : mux.Tidy id) (fits : ChannelWire.Fits frame.body)
    (differs : frame.channelId ≠ id) : Sends id [] mux (mux.sendFrame frame cls).1 := by
  unfold sendFrame
  split
  · exact Sends.refl tidy
  · rename_i wire encoded
    exact sendWire_other mux id _ _ wire tidy (frameOn_other id frame wire fits encoded differs)

/-- `SendFrame` on a reliable channel. -/
theorem sendFrame_spec (mux : ChannelMux Pipe) (frame : ChannelFrame) (cls : ChannelClass)
    (tidy : mux.Tidy frame.channelId) (fits : ChannelWire.Fits frame.body)
    (reliable : qosForClass cls = .reliable) :
    Sends frame.channelId (if (mux.sendFrame frame cls).2.isOk then [frame] else []) mux
      (mux.sendFrame frame cls).1 := by
  unfold sendFrame
  split
  · exact Sends.refl tidy
  · rename_i wire encoded
    rw [reliable]
    have sent := sendWire_spec mux frame.channelId frame.channelId wire tidy (Or.inl rfl)
    rwa [frameOn_encode frame.channelId frame wire fits encoded, if_pos rfl] at sent

/-- Dropping a channel's queue cuts its line, and no other. -/
theorem dropQueued_line (mux : ChannelMux Pipe) (id other : UInt32) (tidy : mux.Tidy id) :
    (mux.dropQueued other) = mux.withOutgoing (mux.dropQueued other) ∧
      (mux.dropQueued other).Tidy id ∧ (mux.dropQueued other).line id <+: mux.line id ∧
      (other ≠ id → (mux.dropQueued other).line id = mux.line id) := by
  have queues := queueOf_dropQueued mux other
  have transport : (mux.dropQueued other).transport = mux.transport := by
    unfold dropQueued
    split <;> rfl
  refine ⟨?_, ⟨?_, ?_⟩, ?_, ?_⟩
  · unfold dropQueued
    split <;> rfl
  · intro channel wire differs member
    rw [queues] at member
    split at member
    · exact absurd member List.not_mem_nil
    · exact tidy.queued channel wire differs member
  · rw [transport]
    exact tidy.loose
  · unfold line
    rw [transport, queues]
    split
    · simp only [framesOn, List.filterMap_nil, List.append_nil]
      exact List.prefix_append ..
    · exact List.prefix_refl _
  · intro differs
    unfold line
    rw [transport, queues, if_neg (Ne.symm differs)]

end ChannelMux

end Amp
