import Amp.L3.ChannelJoined
import Amp.L3.MuxEnd

set_option autoImplicit false

/- The mux follows the protocol of each of its reliable channels: every call is a
move of the channel, and every frame it dispatches is heard. -/
namespace Amp

open Adp (Bytes QosClass)

namespace ChannelMux

/-- Every Open among the frames is of a reliable class. -/
def Calls (frames : List ChannelFrame) : Prop :=
  ∀ frame ∈ frames, ∀ protocolId cls flags limit,
    frame.body = .openFrame protocolId cls flags limit → qosForClass cls = .reliable

theorem calls_of_quiet {frames : List ChannelFrame} (quiet : ∀ frame ∈ frames, frame.isOpen = false) :
    Calls frames := by
  intro frame member protocolId cls flags limit body
  have never := quiet frame member
  rw [ChannelFrame.isOpen, body] at never
  cases never

theorem Calls.append {first second : List ChannelFrame} (one : Calls first) (two : Calls second) :
    Calls (first ++ second) := by
  intro frame member
  rcases List.mem_append.mp member with inFirst | inSecond
  · exact one frame inFirst
  · exact two frame inSecond

/-- What the calls of a run keep of one reliable channel. -/
structure Steady (mux : ChannelMux Pipe) (id : UInt32) : Prop where
  tidy : mux.Tidy id
  reliable : ∀ channel, mux.channelById id = some channel →
    qosForClass channel.policy.cls = .reliable
  calls : Calls (mux.line id)
  pending : mux.pendingOpenData.lookup id = none
  frame : kMinFrameBytes ≤ mux.maxFrameBytes
  msgId : mux.nextFragMsgId < 2 ^ 64

theorem Aside.steady {id : UInt32} {before after : ChannelMux Pipe} (aside : Aside id before after)
    (steady : before.Steady id) : after.Steady id := by
  refine ⟨aside.tidy, ?_, ?_, ?_, ?_, aside.msgId steady.msgId⟩
  · rw [aside.record]
    exact steady.reliable
  · rw [aside.line]
    exact steady.calls
  · rw [aside.pending]
    exact steady.pending
  · rw [aside.frame]
    exact steady.frame

/-- A call on the channel itself: its record after it, and the frames it adds. -/
structure Turn (id : UInt32) (record : Option ChannelRecord) (frames : List ChannelFrame)
    (before after : ChannelMux Pipe) : Prop where
  record : after.channelById id = record
  line : after.line id = before.line id ++ frames
  tidy : after.Tidy id
  delivered : after.delivered = before.delivered
  pending : after.pendingOpenData = before.pendingOpenData
  frame : after.maxFrameBytes = before.maxFrameBytes
  msgId : after.nextFragMsgId = before.nextFragMsgId

theorem Turn.trans {id : UInt32} {record last : Option ChannelRecord}
    {first second : List ChannelFrame} {before middle after : ChannelMux Pipe}
    (one : Turn id record first before middle) (two : Turn id last second middle after) :
    Turn id last (first ++ second) before after := by
  refine ⟨two.record, ?_, two.tidy, two.delivered.trans one.delivered,
    two.pending.trans one.pending, two.frame.trans one.frame, two.msgId.trans one.msgId⟩
  rw [two.line, one.line, List.append_assoc]

theorem Sends.turn {id : UInt32} {frames : List ChannelFrame} {before after : ChannelMux Pipe}
    (sends : Sends id frames before after) :
    Turn id (before.channelById id) frames before after := by
  have rest := sends.rest
  refine ⟨?_, sends.line, sends.tidy, sends.delivered, ?_, ?_, ?_⟩
  · rw [channelById, channelById, sends.channels]
  · rw [rest]
    rfl
  · rw [rest]
    rfl
  · rw [rest]
    rfl

theorem putChannel_turn {mux : ChannelMux Pipe} {id : UInt32} (tidy : mux.Tidy id)
    (channel : ChannelRecord) : Turn id (some channel) [] mux (mux.putChannel id channel) := by
  refine ⟨?_, (List.append_nil _).symm, ⟨tidy.queued, tidy.loose⟩, rfl, rfl, rfl, rfl⟩
  rw [channelById_putChannel, if_pos rfl]

theorem eraseChannel_turn {mux : ChannelMux Pipe} {id : UInt32} (tidy : mux.Tidy id) :
    Turn id none [] mux (mux.eraseChannel id) := by
  refine ⟨?_, (List.append_nil _).symm, ⟨tidy.queued, tidy.loose⟩, rfl, rfl, rfl, rfl⟩
  rw [channelById_eraseChannel, if_pos rfl]

theorem Turn.view {id : UInt32} {record : Option ChannelRecord} {frames : List ChannelFrame}
    {before after : ChannelMux Pipe} (turn : Turn id record frames before after)
    (accepted : List Bytes) : after.view id accepted =
      { before.view id accepted with
        record := record.map ChannelRecord.face, line := before.line id ++ frames } := by
  unfold ChannelMux.view
  rw [turn.record, turn.line, turn.delivered]

theorem Turn.steady {id : UInt32} {record : Option ChannelRecord} {frames : List ChannelFrame}
    {before after : ChannelMux Pipe} (turn : Turn id record frames before after)
    (steady : before.Steady id)
    (reliable : ∀ channel, record = some channel → qosForClass channel.policy.cls = .reliable)
    (calls : Calls frames) : after.Steady id := by
  refine ⟨turn.tidy, ?_, ?_, ?_, ?_, ?_⟩
  · rw [turn.record]
    exact reliable
  · rw [turn.line]
    exact steady.calls.append calls
  · rw [turn.pending]
    exact steady.pending
  · rw [turn.frame]
    exact steady.frame
  · rw [turn.msgId]
    exact steady.msgId

theorem sendFrame_turn {mux : ChannelMux Pipe} (frame : ChannelFrame) (cls : ChannelClass)
    (tidy : mux.Tidy frame.channelId) (fits : ChannelWire.Fits frame.body)
    (reliable : qosForClass cls = .reliable) :
    Turn frame.channelId (mux.channelById frame.channelId)
      (if (mux.sendFrame frame cls).2.isOk then [frame] else []) mux (mux.sendFrame frame cls).1 :=
  (sendFrame_spec mux frame cls tidy fits reliable).turn

/-- A change of the record, and a frame sent after it. -/
theorem Turn.sends {id : UInt32} {record : Option ChannelRecord} {mux middle : ChannelMux Pipe}
    (put : Turn id record [] mux middle) (frame : ChannelFrame) (mine : frame.channelId = id)
    (cls : ChannelClass) (fits : ChannelWire.Fits frame.body)
    (reliable : qosForClass cls = .reliable) :
    Turn id record (if (middle.sendFrame frame cls).2.isOk then [frame] else []) mux
      (middle.sendFrame frame cls).1 := by
  subst mine
  have sent := sendFrame_turn frame cls put.tidy fits reliable
  rw [put.record] at sent
  exact put.trans sent

/-- On a transport that takes everything, a reliable frame is refused only by a
full queue. -/
theorem sendWire_outcome (mux : ChannelMux Pipe) (id : UInt32) (wire : Bytes) :
    (mux.sendWire id .reliable wire).2 = .ok () ∨
      (mux.sendWire id .reliable wire).2 = .error "amp mux: send queue full" := by
  have reliable : ¬ (QosClass.reliable ≠ QosClass.reliable) := fun differs => differs rfl
  unfold sendWire
  rw [if_neg reliable]
  dsimp only
  split
  · exact Or.inl rfl
  · split
    · exact Or.inr rfl
    · exact Or.inl rfl

section Speaking

variable {id : UInt32}

theorem speaks_data (seq : UInt32) (payload : Bytes) :
    View.Speaks seq payload [dataFrame id seq payload] (nextSeq seq) := by
  refine ⟨?_, fun _ limit messages _ => ⟨⟨⟨rfl, rfl⟩, trivial⟩, rfl⟩⟩
  intro frame member
  rw [List.mem_singleton.mp member]
  exact ⟨rfl, rfl⟩

theorem fragFrames_quiet (msgId count total : Nat) (chunks : List Bytes) :
    ∀ (index : Nat) (seq : UInt32), ∀ frame ∈ fragFrames id msgId count total index seq chunks,
      frame.isOpen = false ∧ frame.isAck = false := by
  induction chunks with
  | nil => exact fun _ _ _ absent => absurd absent List.not_mem_nil
  | cons chunk rest ih =>
      intro index seq frame member
      rcases List.mem_cons.mp member with first | later
      · rw [first]
        exact ⟨rfl, rfl⟩
      · exact ih (index + 1) (nextSeq seq) frame later

/-- The fragments of a payload that does not fit one frame carry it. -/
theorem speaks_frags (seq : UInt32) (msgId size : Nat) (payload : Bytes) (positive : 0 < size)
    (long : 0 < payload.length) :
    View.Speaks seq payload
      (fragFrames id msgId ((payload.length + size - 1) / size) (payload.length % 2 ^ 32) 0 seq
        (chunksOf size ((payload.length + size - 1) / size) payload))
      (seqAfter ((payload.length + size - 1) / size) seq) := by
  refine ⟨fragFrames_quiet msgId _ _ _ 0 seq, fun short limit messages within => ?_⟩
  have total : payload.length % 2 ^ 32 = payload.length := Nat.mod_eq_of_lt short
  have counted := Nat.div_add_mod (payload.length + size - 1) size
  have remainder := Nat.mod_lt (payload.length + size - 1) positive
  have product : size * ((payload.length + size - 1) / size) =
      (payload.length + size - 1) / size * size := Nat.mul_comm ..
  generalize (payload.length + size - 1) / size = needed at *
  obtain ⟨joined, full⟩ := chunksOf_spec size positive needed payload (by omega) (by omega)
  have length := chunksOf_length size needed payload
  have some_left : chunksOf size needed payload ≠ [] := by
    intro blank
    rw [blank, List.flatten_nil] at joined
    rw [← joined] at long
    exact absurd long (Nat.lt_irrefl 0)
  have fewer := length_le_flatten (chunksOf size needed payload) full
  have reads := fragFrames_read limit id msgId needed payload.length messages within
    (chunksOf size needed payload) [] seq none some_left rfl nofun full
    (by rw [List.nil_append]; exact length) (by rw [joined, length] at fewer; exact fewer)
    (by rw [List.nil_append, joined])
  rw [total]
  rw [List.nil_append, joined, length] at reads
  exact reads

/-- The loop over the fragments of a message on the channel itself: all of them
join the line, unless the queue fills. -/
theorem sendFrags_turn (msgId count total : Nat) (msgIdFits : msgId < 2 ^ 64)
    (countFits : count < 2 ^ 16) (totalFits : total < 2 ^ 32) (chunks : List Bytes) :
    ∀ (index : Nat) (channel : ChannelRecord) (mux : ChannelMux Pipe), mux.Tidy id →
    mux.channelById id = some channel → channel.state = .opened → index + chunks.length ≤ count →
    (sendFrags .reliable id msgId count total index chunks channel mux).2 =
        .error "amp mux: send queue full" ∨
      ((sendFrags .reliable id msgId count total index chunks channel mux).2 = .ok () ∧
        Turn id (some { channel with txSeq := seqAfter chunks.length channel.txSeq })
          (fragFrames id msgId count total index channel.txSeq chunks) mux
          (sendFrags .reliable id msgId count total index chunks channel mux).1) := by
  induction chunks with
  | nil =>
      intro index channel mux tidy found _ _
      exact Or.inr ⟨rfl, ⟨found, (List.append_nil _).symm, tidy, rfl, rfl, rfl, rfl⟩⟩
  | cons chunk rest ih =>
      intro index channel mux tidy found opened inside
      rw [List.length_cons] at inside
      have fits : ChannelWire.Fits
          (.frag (⟨msgId, index, count, total, chunk⟩ : ChannelFragBody)) :=
        ⟨msgIdFits, by dsimp only; omega, countFits, totalFits⟩
      have encoded : ∃ wire, ChannelWire.encode
          ⟨id, channel.txSeq, .frag ⟨msgId, index, count, total, chunk⟩⟩ = .ok wire := ⟨_, rfl⟩
      obtain ⟨wire, encoded⟩ := encoded
      have framed := frameOn_encode id _ wire fits encoded
      rw [if_pos rfl] at framed
      have sent := sendWire_spec mux id id wire tidy (Or.inl rfl)
      rw [framed] at sent
      unfold sendFrags
      rw [encoded]
      dsimp only
      rcases sendWire_outcome mux id wire with ok | full
      · rw [ok] at sent
        have turn := sent.turn
        rw [found] at turn
        have paired : mux.sendWire id .reliable wire =
            ((mux.sendWire id .reliable wire).1, .ok ()) := Prod.ext rfl ok
        rw [paired]
        dsimp only
        rw [turn.record]
        dsimp only
        rw [if_neg (fun differs => differs opened)]
        have put := putChannel_turn turn.tidy { channel with txSeq := nextSeq channel.txSeq }
        rcases ih (index + 1) { channel with txSeq := nextSeq channel.txSeq } _ put.tidy put.record
          opened (by omega) with stuck | ⟨done, later⟩
        · exact Or.inl stuck
        · exact Or.inr ⟨done, (turn.trans put).trans later⟩
      · have paired : mux.sendWire id .reliable wire =
            ((mux.sendWire id .reliable wire).1, .error "amp mux: send queue full") :=
          Prod.ext rfl full
        rw [paired]
        exact Or.inl rfl

end Speaking

section Moves

variable {mux : ChannelMux Pipe} {id : UInt32}

theorem Turn.stays {after : ChannelMux Pipe} {channel : ChannelRecord}
    (turn : Turn id (some channel) [] mux after) (found : mux.channelById id = some channel)
    (accepted : List Bytes) : after.view id accepted = mux.view id accepted := by
  rw [turn.view, List.append_nil]
  simp only [ChannelMux.view, found]

theorem view_found {channel : ChannelRecord} (found : mux.channelById id = some channel)
    (accepted : List Bytes) : (mux.view id accepted).record = some channel.face := by
  simp only [ChannelMux.view, found, Option.map_some]

/-- A call that leaves the record as it was, or its number further on. -/
theorem Turn.steady_same {after : ChannelMux Pipe} {channel other : ChannelRecord}
    {frames : List ChannelFrame} (turn : Turn id (some other) frames mux after)
    (steady : mux.Steady id) (found : mux.channelById id = some channel)
    (policy : other.policy = channel.policy) (quiet : ∀ frame ∈ frames, frame.isOpen = false) :
    after.Steady id := by
  refine turn.steady steady ?_ (calls_of_quiet quiet)
  intro record same
  rw [← Option.some.inj same, policy]
  exact steady.reliable channel found

/-- A payload that joined the line. -/
theorem say_move {after : ChannelMux Pipe} {channel : ChannelRecord} {frames : List ChannelFrame}
    {seq : UInt32} {payload : Bytes} (steady : mux.Steady id)
    (found : mux.channelById id = some channel) (opened : channel.state = .opened)
    (within : payload.length ≤ channel.policy.maxMessageBytes)
    (speaks : View.Speaks channel.txSeq payload frames seq)
    (turn : Turn id (some { channel with txSeq := seq }) frames mux after) (accepted : List Bytes) :
    after.Steady id ∧
      View.Move (mux.view id accepted) (after.view id (accepted ++ [payload])) := by
  refine ⟨turn.steady_same steady found rfl fun frame member => (speaks.quiet frame member).1, ?_⟩
  rw [turn.view]
  exact .say channel.face payload frames seq (view_found found accepted) opened within speaks

/-- What a call that sends `payload` comes to: a payload it takes is accepted. -/
def SendMoves (mux : ChannelMux Pipe) (id : UInt32) (payload : Bytes) (accepted : List Bytes)
    (outcome : ChannelMux Pipe × Except String Unit) : Prop :=
  outcome.1.Steady id ∧
    View.Move (mux.view id accepted)
      (outcome.1.view id (if outcome.2.isOk then accepted ++ [payload] else accepted))

theorem sendFragmented_move (steady : mux.Steady id) {channel : ChannelRecord}
    (found : mux.channelById id = some channel) (opened : channel.state = .opened)
    (payload : Bytes) (within : payload.length ≤ channel.policy.maxMessageBytes)
    (long : ¬ payload.length ≤ mux.maxFrameBytes - kChannelHeaderBytes) (accepted : List Bytes)
    (roomy : (mux.sendFragmented id channel payload).2 ≠ .error "amp mux: send queue full") :
    mux.SendMoves id payload accepted (mux.sendFragmented id channel payload) := by
  have reliable := steady.reliable channel found
  have room := steady.frame
  have header : kChannelHeaderBytes = 9 := rfl
  have fields : kChannelFragFieldsBytes = 16 := rfl
  have least : kMinFrameBytes = 64 := rfl
  unfold sendFragmented at roomy ⊢
  dsimp only at roomy ⊢
  generalize chunk : mux.maxFrameBytes - kChannelHeaderBytes - kChannelFragFieldsBytes = size
    at roomy ⊢
  have positive : 0 < size := by omega
  by_cases many : kMaxFragmentsPerMessage < (payload.length + size - 1) / size
  · rw [if_pos many]
    exact ⟨steady, .stay⟩
  · rw [if_neg many] at roomy ⊢
    split at roomy
    · exact absurd rfl roomy
    · rename_i small
      rw [if_neg small]
      rw [reliable] at roomy ⊢
      have fits := needed_fits payload.length _ many
      have taken : mux.takeMsgId.Steady id := (takeMsgId_aside steady.tidy).steady steady
      rcases sendFrags_turn mux.nextFragMsgId _ _ steady.msgId fits.1 fits.2
        (chunksOf size ((payload.length + size - 1) / size) payload) 0 channel mux.takeMsgId
        taken.tidy found opened (by rw [chunksOf_length]; omega) with full | ⟨ok, turn⟩
      · exact absurd full roomy
      · unfold SendMoves
        rw [ok]
        have seqs : seqAfter (chunksOf size ((payload.length + size - 1) / size) payload).length
            channel.txSeq = seqAfter ((payload.length + size - 1) / size) channel.txSeq := by
          rw [chunksOf_length]
        rw [seqs] at turn
        exact say_move taken found opened within
          (speaks_frags channel.txSeq mux.nextFragMsgId size payload positive (by omega)) turn
          accepted

/-- `SendData` that no full queue refused. -/
theorem sendData_move (steady : mux.Steady id) (payload : Bytes) (accepted : List Bytes)
    (roomy : (mux.sendData id payload).2 ≠ .error "amp mux: send queue full") :
    mux.SendMoves id payload accepted (mux.sendData id payload) := by
  unfold sendData at roomy ⊢
  cases found : mux.channelById id with
  | none => exact ⟨steady, .stay⟩
  | some channel =>
    rw [found] at roomy
    dsimp only at roomy ⊢
    by_cases shut : channel.state ≠ .opened
    · rw [if_pos shut]
      exact ⟨steady, .stay⟩
    rw [if_neg shut] at roomy ⊢
    have opened : channel.state = .opened := not_not.mp shut
    by_cases large : channel.policy.maxMessageBytes < payload.length
    · rw [if_pos large]
      exact ⟨steady, .stay⟩
    rw [if_neg large] at roomy ⊢
    by_cases single : payload.length ≤ mux.maxFrameBytes - kChannelHeaderBytes
    · rw [if_pos single]
      have turn := sendFrame_turn (dataFrame id channel.txSeq payload) channel.policy.cls
        steady.tidy trivial (steady.reliable channel found)
      rw [show (dataFrame id channel.txSeq payload).channelId = id from rfl, found] at turn
      generalize mux.sendFrame (dataFrame id channel.txSeq payload) channel.policy.cls = result
        at turn ⊢
      obtain ⟨after, result⟩ := result
      cases result with
      | error message =>
          refine ⟨turn.steady_same steady found rfl nofun, ?_⟩
          have same : after.view id accepted = mux.view id accepted :=
            Turn.stays turn found accepted
          show View.Move (mux.view id accepted) (after.view id accepted)
          rw [same]
          exact .stay
      | ok _ =>
          have put := putChannel_turn turn.tidy { channel with txSeq := nextSeq channel.txSeq }
          exact say_move steady found opened (Nat.le_of_not_lt large)
            (speaks_data channel.txSeq payload) (turn.trans put) accepted
    · rw [if_neg single] at roomy ⊢
      exact sendFragmented_move steady found opened payload (Nat.le_of_not_lt large) single accepted
        roomy

/-- A call of one end: a move of the channel that keeps it steady. -/
def Moves (mux : ChannelMux Pipe) (id : UInt32) (accepted : List Bytes)
    (after : ChannelMux Pipe) : Prop :=
  after.Steady id ∧ View.Move (mux.view id accepted) (after.view id accepted)

theorem Aside.moves {after : ChannelMux Pipe} (aside : Aside id mux after)
    (steady : mux.Steady id) (accepted : List Bytes) : mux.Moves id accepted after := by
  refine ⟨aside.steady steady, ?_⟩
  rw [aside.view]
  exact .stay

/-- `CloseChannel`, unless its Close is refused while the channel still opens. -/
theorem closeChannel_move (steady : mux.Steady id) (reason : Bytes) (accepted : List Bytes)
    (sound : ∀ channel, mux.channelById id = some channel → channel.state = .opening →
      (mux.closeChannel id reason).2.isOk = true) :
    mux.Moves id accepted (mux.closeChannel id reason).1 := by
  unfold closeChannel at sound ⊢
  cases found : mux.channelById id with
  | none => exact ⟨steady, .stay⟩
  | some channel =>
      have sound := sound channel found
      rw [found] at sound
      dsimp only at sound ⊢
      have put := putChannel_turn steady.tidy
        { channel with txSeq := nextSeq channel.txSeq, state := .closing }
      have turn := put.sends ⟨id, channel.txSeq, .close reason⟩ rfl channel.policy.cls trivial
        (steady.reliable channel found)
      refine ⟨turn.steady_same steady found rfl ?_, ?_⟩
      · intro frame member
        split at member
        · rw [List.mem_singleton.mp member]
          rfl
        · exact absurd member List.not_mem_nil
      · rw [turn.view]
        split
        · exact .close channel.face _ _ (view_found found accepted) rfl
        · rename_i refused
          rw [List.append_nil]
          refine .closeLost channel.face _ (view_found found accepted) ?_
          intro opening
          exact refused (sound opening)

/-- The channel leaves: its record goes, and its line is cut. -/
structure Leaves (id : UInt32) (before after : ChannelMux Pipe) : Prop where
  record : after.channelById id = none
  cut : View.Cut (before.line id) (after.line id)
  tidy : after.Tidy id
  delivered : entriesOn id after.delivered = entriesOn id before.delivered
  pending : before.pendingOpenData.lookup id = none → after.pendingOpenData.lookup id = none
  frame : after.maxFrameBytes = before.maxFrameBytes
  msgId : before.nextFragMsgId < 2 ^ 64 → after.nextFragMsgId < 2 ^ 64

theorem Leaves.view {after : ChannelMux Pipe} (leaves : Leaves id mux after)
    (accepted : List Bytes) : after.view id accepted =
      { mux.view id accepted with record := none, line := after.line id } := by
  unfold ChannelMux.view
  rw [leaves.record, leaves.delivered]
  rfl

theorem Leaves.steady {after : ChannelMux Pipe} (leaves : Leaves id mux after)
    (steady : mux.Steady id) : after.Steady id := by
  refine ⟨leaves.tidy, ?_, ?_, leaves.pending steady.pending, ?_, leaves.msgId steady.msgId⟩
  · rw [leaves.record]
    exact nofun
  · obtain ⟨kept, isPrefix, shape⟩ := leaves.cut
    have old : Calls kept := fun frame inside => steady.calls frame (isPrefix.subset inside)
    rcases shape with same | ⟨last, ends, same⟩
    · rw [same]
      exact old
    · rw [same]
      refine old.append (calls_of_quiet fun frame member => ?_)
      rw [List.mem_singleton.mp member]
      exact ChannelFrame.isOpen_of_isEnd ends
  · rw [leaves.frame]
    exact steady.frame

theorem Leaves.moves {after : ChannelMux Pipe} (leaves : Leaves id mux after)
    (steady : mux.Steady id) {channel : ChannelRecord}
    (found : mux.channelById id = some channel) (accepted : List Bytes) :
    mux.Moves id accepted after := by
  refine ⟨leaves.steady steady, ?_⟩
  rw [leaves.view]
  exact .drop _ (by rw [view_found found]; rfl) leaves.cut

theorem Leaves.aside {middle after : ChannelMux Pipe} (leaves : Leaves id mux middle)
    (aside : Aside id middle after) : Leaves id mux after := by
  refine ⟨?_, ?_, aside.tidy, aside.delivered.trans leaves.delivered, ?_,
    aside.frame.trans leaves.frame, fun fits => aside.msgId (leaves.msgId fits)⟩
  · rw [aside.record]
    exact leaves.record
  · rw [aside.line]
    exact leaves.cut
  · rw [aside.pending]
    exact leaves.pending

theorem Aside.leaves {middle after : ChannelMux Pipe} (aside : Aside id mux middle)
    (leaves : Leaves id middle after) : Leaves id mux after := by
  refine ⟨leaves.record, ?_, leaves.tidy, leaves.delivered.trans aside.delivered, ?_,
    leaves.frame.trans aside.frame, fun fits => leaves.msgId (aside.msgId fits)⟩
  · rw [← aside.line]
    exact leaves.cut
  · rw [← aside.pending]
    exact leaves.pending

theorem Turn.leaves {record : Option ChannelRecord} {middle after : ChannelMux Pipe}
    (turn : Turn id record [] mux middle) (leaves : Leaves id middle after) :
    Leaves id mux after := by
  have line := turn.line
  rw [List.append_nil] at line
  refine ⟨leaves.record, ?_, leaves.tidy, ?_, ?_, leaves.frame.trans turn.frame, ?_⟩
  · rw [← line]
    exact leaves.cut
  · rw [leaves.delivered, turn.delivered]
  · rw [← turn.pending]
    exact leaves.pending
  · rw [← turn.msgId]
    exact leaves.msgId

theorem dropQueued_erase_leaves (tidy : mux.Tidy id) (last : List ChannelFrame)
    (ends : last = [] ∨ ∃ frame : ChannelFrame, frame.isEnd = true ∧ last = [frame])
    {after : ChannelMux Pipe} (turn : Turn id none last (mux.dropQueued id) after) :
    Leaves id mux after := by
  obtain ⟨same, _, shorter, _⟩ := dropQueued_line mux id id tidy
  refine ⟨turn.record, ⟨_, shorter, ?_⟩, turn.tidy, ?_, ?_, ?_, ?_⟩
  · rw [turn.line]
    rcases ends with none | ⟨frame, isEnd, one⟩
    · rw [none]
      exact Or.inl (List.append_nil _)
    · rw [one]
      exact Or.inr ⟨frame, isEnd, rfl⟩
  · rw [turn.delivered, same]
    rfl
  · rw [turn.pending, same]
    exact fun absent => absent
  · rw [turn.frame, same]
    rfl
  · rw [turn.msgId, same]
    exact fun fits => fits

theorem resetChannel_leaves (steady : mux.Steady id) {channel : ChannelRecord}
    (found : mux.channelById id = some channel) (code : UInt32) :
    Leaves id mux (mux.resetChannel id code).1 := by
  obtain ⟨_, tidy, _, _⟩ := dropQueued_line mux id id steady.tidy
  have sent := sendFrame_turn ⟨id, channel.txSeq, .reset code⟩ channel.policy.cls tidy trivial
    (steady.reliable channel found)
  have turn := sent.trans (eraseChannel_turn sent.tidy)
  unfold resetChannel
  rw [found]
  refine dropQueued_erase_leaves steady.tidy _ ?_ turn
  rw [List.append_nil]
  split
  · exact Or.inr ⟨_, rfl, rfl⟩
  · exact Or.inl rfl

theorem resetChannel_move (steady : mux.Steady id) (code : UInt32) (accepted : List Bytes) :
    mux.Moves id accepted (mux.resetChannel id code).1 := by
  cases found : mux.channelById id with
  | none =>
      unfold resetChannel
      rw [found]
      exact ⟨steady, .stay⟩
  | some channel => exact (resetChannel_leaves steady found code).moves steady found accepted

theorem Turn.aside {after : ChannelMux Pipe} (turn : Turn id (mux.channelById id) [] mux after) :
    Aside id mux after := by
  refine ⟨turn.record, ?_, turn.tidy, by rw [turn.delivered], by rw [turn.pending], turn.frame, ?_⟩
  · rw [turn.line, List.append_nil]
  · rw [turn.msgId]
    exact fun fits => fits

/-- A change of the record that the protocol does not see. -/
theorem Turn.unseen {after : ChannelMux Pipe} {channel other : ChannelRecord}
    (turn : Turn id (some other) [] mux after) (steady : mux.Steady id)
    (found : mux.channelById id = some channel) (same : other.face = channel.face) :
    after.Steady id ∧ ∀ accepted, after.view id accepted = mux.view id accepted := by
  refine ⟨turn.steady_same steady found (congrArg Face.policy same) nofun, fun accepted => ?_⟩
  rw [turn.view, List.append_nil]
  simp only [ChannelMux.view, found, Option.map_some, same]

theorem setDataHandler_move (steady : mux.Steady id) (accepted : List Bytes) :
    mux.Moves id accepted (mux.setDataHandler id) := by
  unfold setDataHandler
  cases found : mux.channelById id with
  | none =>
      have aside : Aside id mux { mux with pendingHandlers := id :: mux.pendingHandlers } :=
        ⟨rfl, rfl, ⟨steady.tidy.queued, steady.tidy.loose⟩, rfl, rfl, rfl, fun fits => fits⟩
      exact aside.moves steady accepted
  | some channel =>
      have turn := putChannel_turn steady.tidy { channel with onData := true }
      refine ⟨turn.steady_same steady found rfl nofun, ?_⟩
      have bound : View.Move (mux.view id accepted) _ := .bind
      rw [view_found found accepted] at bound
      dsimp only
      rw [turn.view, List.append_nil]
      exact bound

theorem setTerminalHandler_move (steady : mux.Steady id) (accepted : List Bytes) :
    mux.Moves id accepted (mux.setTerminalHandler id) := by
  unfold setTerminalHandler
  cases found : mux.channelById id with
  | none =>
      have aside : Aside id mux
          { mux with pendingTerminalHandlers := id :: mux.pendingTerminalHandlers } :=
        ⟨rfl, rfl, ⟨steady.tidy.queued, steady.tidy.loose⟩, rfl, rfl, rfl, fun fits => fits⟩
      exact aside.moves steady accepted
  | some channel =>
      have turn := putChannel_turn steady.tidy { channel with onTerminal := true }
      obtain ⟨kept, same⟩ := turn.unseen steady found rfl
      refine ⟨kept, ?_⟩
      dsimp only
      rw [same]
      exact .stay

theorem setMaxFrameBytes_move (steady : mux.Steady id) (bytes : Nat) (accepted : List Bytes) :
    mux.Moves id accepted (mux.setMaxFrameBytes bytes).1 := by
  unfold setMaxFrameBytes
  split
  · exact ⟨steady, .stay⟩
  · rename_i enough
    exact ⟨⟨⟨steady.tidy.queued, steady.tidy.loose⟩, steady.reliable, steady.calls, steady.pending,
      Nat.le_of_not_lt enough, steady.msgId⟩, .stay⟩

theorem flushQueued_move (steady : mux.Steady id) (accepted : List Bytes) :
    mux.Moves id accepted mux.flushQueued :=
  (flushQueued_sends mux id steady.tidy).aside.moves steady accepted

theorem mapChannels_turn (tidy : mux.Tidy id) (change : ChannelRecord → ChannelRecord) :
    Turn id ((mux.channelById id).map change) [] mux (mux.mapChannels change) :=
  ⟨channelById_mapChannels mux change id, (List.append_nil _).symm, ⟨tidy.queued, tidy.loose⟩,
    rfl, rfl, rfl, rfl⟩

/-- What an idle reader's expiry, of any channel, does to this one. -/
def Spares (id : UInt32) (before after : ChannelMux Pipe) : Prop :=
  Aside id before after ∨ (before.channelById id).isSome = true ∧ Leaves id before after

theorem expireReader_spares (steady : mux.Steady id) (other : UInt32) :
    Spares id mux (mux.expireReader other) := by
  unfold expireReader
  split
  · exact Or.inl (Aside.refl steady.tidy)
  · rename_i channel found
    by_cases same : other = id
    · subst same
      have leaves := resetChannel_leaves steady found 1
      exact Or.inr ⟨by rw [found]; rfl,
        leaves.aside (notifyTerminal_aside leaves.tidy _ channel _)⟩
    · have aside := resetChannel_aside steady.tidy same 1
      exact Or.inl (aside.trans (notifyTerminal_aside aside.tidy _ channel _))

theorem expireReaders_spares (others : List UInt32) : ∀ mux : ChannelMux Pipe, mux.Steady id →
    Spares id mux (others.foldl expireReader mux) := by
  induction others with
  | nil => exact fun mux steady => Or.inl (Aside.refl steady.tidy)
  | cons other rest ih =>
      intro mux steady
      rw [List.foldl_cons]
      rcases expireReader_spares steady other with aside | ⟨present, leaves⟩
      · rcases ih _ (aside.steady steady) with later | ⟨present, later⟩
        · exact Or.inl (aside.trans later)
        · rw [aside.record] at present
          exact Or.inr ⟨present, aside.leaves later⟩
      · rcases ih _ (leaves.steady steady) with later | ⟨again, _⟩
        · exact Or.inr ⟨present, leaves.aside later⟩
        · rw [leaves.record] at again
          cases again

theorem startReadClock_face (now : Int) (channel : ChannelRecord) :
    (startReadClock now channel).face = channel.face := by
  unfold startReadClock
  split <;> rfl

theorem startReadClocks_unseen (steady : mux.Steady id) (now : Int) :
    (mux.mapChannels (startReadClock now)).Steady id ∧ ∀ accepted,
      (mux.mapChannels (startReadClock now)).view id accepted = mux.view id accepted := by
  have turn := mapChannels_turn steady.tidy (startReadClock now)
  cases found : mux.channelById id with
  | none =>
      rw [found, Option.map_none, ← found] at turn
      exact ⟨turn.aside.steady steady, fun accepted => turn.aside.view accepted⟩
  | some channel =>
      rw [found] at turn
      exact turn.unseen steady found (startReadClock_face now channel)

/-- `Tick` that sweeps nothing of the channel. -/
theorem tick_move (steady : mux.Steady id) (now : Int) (accepted : List Bytes)
    (unswept : ∀ channel, mux.channelById id = some channel →
      sweepChannel mux.tuning now channel = channel) :
    mux.Moves id accepted (mux.tick now) := by
  have swept : Aside id mux (mux.mapChannels (sweepChannel mux.tuning now)) := by
    have turn := mapChannels_turn steady.tidy (sweepChannel mux.tuning now)
    cases found : mux.channelById id with
    | none =>
        rw [found, Option.map_none, ← found] at turn
        exact turn.aside
    | some channel =>
        rw [found, Option.map_some, unswept channel found, ← found] at turn
        exact turn.aside
  have kept := swept.steady steady
  obtain ⟨clocked, sameView⟩ := startReadClocks_unseen kept now
  have outset := (sameView accepted).trans (swept.view accepted)
  rw [Moves, ← outset]
  unfold tick expireIdleReaders
  dsimp only
  rcases expireReaders_spares _ _ clocked with aside | ⟨present, leaves⟩
  · exact (aside.trans (flushQueued_sends _ id aside.tidy).aside).moves clocked accepted
  · obtain ⟨channel, found⟩ := Option.isSome_iff_exists.mp present
    exact (leaves.aside (flushQueued_sends _ id leaves.tidy).aside).moves clocked found accepted

end Moves

section Opening

variable {mux : ChannelMux Pipe} {id : UInt32}

theorem adoptHandlers_turn (tidy : mux.Tidy id) (channel : ChannelRecord) (named : channel.id = id) :
    Turn id (some { channel with
      onData := mux.pendingHandlers.contains channel.id
      onTerminal := mux.pendingTerminalHandlers.contains channel.id }) [] mux
      (mux.adoptHandlers channel) := by
  refine ⟨?_, (List.append_nil _).symm, ⟨tidy.queued, tidy.loose⟩, rfl, rfl, rfl, rfl⟩
  subst named
  exact AList.lookup_insert _

theorem reassemblyFor_holds (policy : ChannelPolicy) :
    (reassemblyFor policy).Holds policy.maxMessageBytes none :=
  ⟨rfl, show 0 < 64 by decide, fun _ => rfl, nofun⟩

/-- `OpenOutbound` that records the channel: its Open joins the line or finds no
room. -/
structure Opens (id : UInt32) (before after : ChannelMux Pipe) (face : Face)
    (calls : List ChannelFrame) : Prop where
  steady : after.Steady id
  opening : face.state = .opening
  first : face.txSeq = 1
  unheard : View.Unheard face
  one : calls = [] ∨ ∃ call : ChannelFrame, calls = [call] ∧ call.isOpen = true
  view : ∀ accepted, after.view id accepted =
    { before.view id accepted with record := some face, line := before.line id ++ calls }

theorem openAs_opens (steady : mux.Steady id) (protocolId : Bytes) (policy : ChannelPolicy)
    (reliable : qosForClass policy.cls = .reliable) :
    ∃ face calls, Opens id mux (mux.openAs id protocolId policy).1 face calls := by
  have adopted := adoptHandlers_turn steady.tidy (openingRecord id protocolId policy) rfl
  have turn := adopted.sends (openFrame id protocolId policy) rfl policy.cls
    (openFrame_fits id protocolId policy) reliable
  have result : (mux.openAs id protocolId policy).1 =
      ((mux.adoptHandlers (openingRecord id protocolId policy)).sendFrame
        (openFrame id protocolId policy) policy.cls).1 := by
    unfold openAs
    dsimp only
    split <;> rename_i same <;> rw [same]
  rw [result]
  have shut : ChannelState.opening ≠ .opened := nofun
  refine ⟨_, _, ?_, rfl, rfl, ⟨shut, rfl, reassemblyFor_holds policy⟩, ?_, turn.view⟩
  · refine turn.steady steady ?_ ?_
    · intro channel found
      rw [← Option.some.inj found]
      exact reliable
    · intro frame member _ cls _ _ body
      split at member
      · rw [List.mem_singleton.mp member] at body
        cases body
        exact reliable
      · exact absurd member List.not_mem_nil
  · split
    · exact Or.inr ⟨_, rfl, rfl⟩
    · exact Or.inl rfl

theorem allocated_aside (tidy : mux.Tidy id) (next : UInt32) :
    Aside id mux { mux with nextDynamicId := next } :=
  ⟨rfl, rfl, ⟨tidy.queued, tidy.loose⟩, rfl, rfl, rfl, fun fits => fits⟩

theorem openOutbound_opens (steady : mux.Steady id) (protocolId : Bytes) (policy : ChannelPolicy)
    (fixedId : Option UInt32) (reliable : qosForClass policy.cls = .reliable)
    (named : MuxEnd.nextId mux fixedId = id) (absent : mux.channelById id = none) :
    ∃ face calls, Opens id mux (mux.openOutbound protocolId policy fixedId).1 face calls := by
  cases fixedId with
  | some fixed =>
      have same : fixed = id := named
      subst same
      unfold openOutbound
      dsimp only
      rw [absent]
      exact openAs_opens steady protocolId policy reliable
  | none =>
      have same : mux.allocateId.1 = id := named
      have taken := allocated_aside steady.tidy mux.allocateId.2
      have still := taken.record.trans absent
      unfold openOutbound
      dsimp only
      rw [same, still]
      obtain ⟨face, calls, opens⟩ := openAs_opens (taken.steady steady) protocolId policy reliable
      exact ⟨face, calls, opens.steady, opens.opening, opens.first, opens.unheard, opens.one,
        opens.view⟩

theorem openOutbound_aside (tidy : mux.Tidy id) (protocolId : Bytes) (policy : ChannelPolicy)
    (fixedId : Option UInt32)
    (other : MuxEnd.nextId mux fixedId ≠ id ∨
      (mux.channelById (MuxEnd.nextId mux fixedId)).isSome = true) :
    Aside id mux (mux.openOutbound protocolId policy fixedId).1 := by
  unfold openOutbound
  cases fixedId with
  | some fixed =>
      dsimp only
      split
      · exact Aside.refl tidy
      · rename_i unknown
        exact openAs_aside tidy (other.resolve_right unknown) protocolId policy
  | none =>
      have taken := allocated_aside tidy mux.allocateId.2
      dsimp only
      split
      · exact taken
      · rename_i unknown
        exact taken.trans (openAs_aside taken.tidy (other.resolve_right unknown) protocolId policy)

end Opening

end ChannelMux

end Amp
