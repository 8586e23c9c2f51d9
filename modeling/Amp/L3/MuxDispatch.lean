import Amp.L3.MuxRefinement

set_option autoImplicit false

/- `DispatchFrame` of a frame of a reliable channel: what the mux does is what the
protocol of the channel says hearing the frame does. -/
namespace Amp

open Adp (Bytes QosClass)

/-- The errors that say a reliable stream is broken: a frame out of turn, or a
message that cannot be put together. -/
def streamFaults : List String :=
  ["amp mux: out of order seq", "amp mux: out of order frag seq", "amp ch: bad frag indices",
    "amp ch: message too large", "amp ch: frag count exceeds message length",
    "amp ch: too many in-flight partial messages", "amp ch: frag metadata mismatch",
    "amp ch: frag stream exceeds declared length", "amp ch: assembled length mismatch"]

namespace ChannelFrame

variable {frame : ChannelFrame}

theorem data_kind {payload : Bytes} (body : frame.body = .data payload) :
    frame.isOpen = false ∧ frame.isAck = false ∧ frame.isEnd = false ∧ frame.isSpeech = true := by
  simp only [isOpen, isAck, isEnd, isSpeech, body, and_self]

theorem frag_kind {frag : ChannelFragBody} (body : frame.body = .frag frag) :
    frame.isOpen = false ∧ frame.isAck = false ∧ frame.isEnd = false ∧ frame.isSpeech = true := by
  simp only [isOpen, isAck, isEnd, isSpeech, body, and_self]

theorem end_kind (ends : frame.isEnd = true) :
    frame.isOpen = false ∧ frame.isAck = false ∧ frame.isSpeech = false :=
  ⟨isOpen_of_isEnd ends, isAck_of_isEnd ends, isSpeech_of_isEnd ends⟩

theorem close_kind {reason : Bytes} (body : frame.body = .close reason) : frame.isEnd = true := by
  simp only [isEnd, body]

theorem reset_kind {code : UInt32} (body : frame.body = .reset code) : frame.isEnd = true := by
  simp only [isEnd, body]

theorem openAck_kind {result : UInt8} (body : frame.body = .openAck result) :
    frame.isOpen = false ∧ frame.isAck = (result == 0) ∧ frame.isSpeech = false := by
  simp only [isOpen, isAck, isSpeech, body, and_self]

theorem open_kind {protocolId : Bytes} {cls : ChannelClass} {flags limit : Nat}
    (body : frame.body = .openFrame protocolId cls flags limit) : frame.isOpen = true := by
  simp only [isOpen, body]

end ChannelFrame

namespace ChannelMux

variable {mux : ChannelMux Pipe} {id : UInt32}

/-- The outcome of a dispatch is what hearing the frame does, and an error of a
broken stream is one of its faults. -/
def Heard (mux : ChannelMux Pipe) (id : UInt32) (frame : ChannelFrame) (accepted : List Bytes)
    (outcome : ChannelMux Pipe × Except String Unit) : Prop :=
  outcome.1.Steady id ∧ ∃ fault,
    View.Hears (mux.view id accepted) frame (outcome.1.view id accepted) fault ∧
      (fault = none → ∀ message ∈ streamFaults, outcome.2 ≠ .error message)

theorem harmless {outcome : Except String Unit} (reason : String) (safe : reason ∉ streamFaults)
    (cases : outcome = .ok () ∨ outcome = .error reason) :
    ∀ message ∈ streamFaults, outcome ≠ .error message := by
  intro message listed same
  rcases cases with ok | error
  · rw [ok] at same
    cases same
  · rw [error] at same
    cases same
    exact safe listed

theorem sendFrame_ack_outcome (mux : ChannelMux Pipe) (id : UInt32) (result : UInt8)
    (cls : ChannelClass) (reliable : qosForClass cls = .reliable) :
    (mux.sendFrame (ackFrame id result) cls).2 = .ok () ∨
      (mux.sendFrame (ackFrame id result) cls).2 = .error "amp mux: send queue full" := by
  unfold sendFrame
  rw [reliable]
  exact sendWire_outcome mux id _

theorem view_absent (absent : mux.channelById id = none) (accepted : List Bytes) :
    (mux.view id accepted).record = none := by
  rw [ChannelMux.view, absent]
  rfl

/-- A channel that does not listen. -/
theorem deaf (steady : mux.Steady id) (frame : ChannelFrame) (accepted : List Bytes)
    (shut : ∀ channel, mux.channelById id = some channel → channel.state ≠ .opened)
    (other : frame.isOpen = false)
    (kept : (mux.channelById id).isSome = true → frame.isAck = false ∧ frame.isEnd = false)
    (reason : String) (safe : reason ∉ streamFaults) :
    mux.Heard id frame accepted (mux, .error reason) := by
  refine ⟨steady, none, ?_, fun _ => harmless reason safe (Or.inr rfl)⟩
  refine .deaf frame ?_ other ?_
  · intro face found
    obtain ⟨channel, known, rfl⟩ := Option.map_eq_some_iff.mp found
    exact shut channel known
  · intro present
    refine kept ?_
    rwa [ChannelMux.view, Option.isSome_map] at present

section Opens

theorem acceptedRecord_small (id : UInt32) (protocolId : Bytes) (cls : ChannelClass) (offered : Nat) :
    (acceptedRecord id protocolId cls offered).policy.maxMessageBytes < 2 ^ 32 := by
  have ceiling : localMaxMessageBytesCeiling cls < 2 ^ 32 := by
    unfold localMaxMessageBytesCeiling
    split <;> decide
  unfold acceptedRecord
  dsimp only
  split
  · have least := Nat.min_le_right offered (localMaxMessageBytesCeiling cls)
    exact Nat.lt_of_le_of_lt least ceiling
  · exact show AmpChannelLimits.kMaxChatStreamJsonBytes < 2 ^ 32 by decide

theorem acceptedRecord_cls (id : UInt32) (protocolId : Bytes) (cls : ChannelClass) (offered : Nat) :
    (acceptedRecord id protocolId cls offered).policy.cls = cls := by
  unfold acceptedRecord
  dsimp only
  split <;> rfl

theorem refuseOpen_heard (steady : mux.Steady id) (frame : ChannelFrame) (accepted : List Bytes)
    (opening : frame.isOpen = true) (absent : mux.channelById id = none) (cls : ChannelClass)
    (reliable : qosForClass cls = .reliable) (result : UInt8) (refusal : result ≠ 0) :
    mux.Heard id frame accepted (mux.refuseOpen id cls result) := by
  have forgotten : Turn id none [] mux { mux with
      pendingTerminalHandlers := mux.pendingTerminalHandlers.filter (· ≠ id) } :=
    ⟨absent, (List.append_nil _).symm, ⟨steady.tidy.queued, steady.tidy.loose⟩, rfl, rfl, rfl, rfl⟩
  have turn := forgotten.sends (ackFrame id result) rfl cls trivial reliable
  have quiet : ∀ ack ∈ (if (mux.refuseOpen id cls result).2.isOk then [ackFrame id result] else []),
      ack.isOpen = false ∧ ack.isAck = false := by
    intro ack member
    split at member
    · rw [List.mem_singleton.mp member]
      exact ⟨rfl, beq_false_of_ne refusal⟩
    · exact absurd member List.not_mem_nil
  refine ⟨turn.steady steady nofun (calls_of_quiet fun ack member => (quiet ack member).1), none,
    ?_, fun _ => harmless _ (by decide) (sendFrame_ack_outcome _ id result cls reliable)⟩
  have same := view_absent absent accepted
  have view := turn.view accepted
  rw [Option.map_none, ← same] at view
  have heard := View.Hears.refuse frame opening same _ quiet
  unfold refuseOpen at heard ⊢
  rw [view]
  exact heard

theorem openRefusal_ne_zero {protocolId : Bytes} {result : UInt8}
    (refused : mux.openRefusal id protocolId = some result) : result ≠ 0 := by
  unfold openRefusal at refused
  split_ifs at refused <;> cases refused <;> decide

theorem noteInboundOpen_aside (tidy : mux.Tidy id) (other : UInt32) (protocolId : Bytes) :
    Aside id mux (mux.noteInboundOpen other protocolId) := by
  unfold noteInboundOpen
  split
  · exact ⟨rfl, rfl, ⟨tidy.queued, tidy.loose⟩, rfl, rfl, rfl, fun fits => fits⟩
  · exact Aside.refl tidy

theorem acceptOpen_heard (steady : mux.Steady id) (frame : ChannelFrame) (accepted : List Bytes)
    (opening : frame.isOpen = true) (absent : mux.channelById id = none) (protocolId : Bytes)
    (cls : ChannelClass) (reliable : qosForClass cls = .reliable) (offered : Nat) :
    mux.Heard id frame accepted
      ((mux.adoptHandlers (acceptedRecord id protocolId cls offered)).sendFrame
        (ackFrame id 0) cls) := by
  have adopted := adoptHandlers_turn steady.tidy (acceptedRecord id protocolId cls offered) rfl
  have turn := adopted.sends (ackFrame id 0) rfl cls trivial reliable
  refine ⟨turn.steady steady ?_ ?_, none, ?_,
    fun _ => harmless _ (by decide) (sendFrame_ack_outcome _ id 0 cls reliable)⟩
  · intro channel found
    rw [← Option.some.inj found]
    dsimp only
    rw [acceptedRecord_cls]
    exact reliable
  · refine calls_of_quiet fun ack member => ?_
    split at member
    · rw [List.mem_singleton.mp member]
      rfl
    · exact absurd member List.not_mem_nil
  · rw [turn.view]
    refine .accept frame opening (view_absent absent accepted) _ rfl ⟨rfl, rfl⟩
      (reassemblyFor_holds _) (acceptedRecord_small id protocolId cls offered) _ ?_
    split
    · exact Or.inr ⟨_, rfl, rfl, rfl⟩
    · exact Or.inl rfl

theorem handleOpen_heard (steady : mux.Steady id) (frame : ChannelFrame) (accepted : List Bytes)
    (opening : frame.isOpen = true) (protocolId : Bytes) (cls : ChannelClass)
    (reliable : qosForClass cls = .reliable) (offered : Nat) :
    mux.Heard id frame accepted (mux.handleOpen id protocolId cls offered) := by
  unfold handleOpen
  split
  · rename_i present
    refine ⟨steady, none, .duplicate frame opening ?_,
      fun _ => harmless _ (by decide) (Or.inr rfl)⟩
    rwa [ChannelMux.view, Option.isSome_map]
  · rename_i unknown
    have absent : mux.channelById id = none := Option.not_isSome_iff_eq_none.mp unknown
    split
    · rename_i result refused
      exact refuseOpen_heard steady frame accepted opening absent cls reliable result
        (openRefusal_ne_zero refused)
    · have heard := acceptOpen_heard steady frame accepted opening absent protocolId cls reliable
        offered
      split <;> rename_i same <;> rw [same] at heard
      · exact heard
      · obtain ⟨kept, fault, hears, _⟩ := heard
        have noted := noteInboundOpen_aside kept.tidy id protocolId
        refine ⟨noted.steady kept, fault, ?_, fun _ => harmless "" (by decide) (Or.inl rfl)⟩
        dsimp only
        rw [noted.view]
        exact hears

end Opens

section Records

variable {channel : ChannelRecord}

theorem Leaves.heard {after : ChannelMux Pipe} (leaves : Leaves id mux after)
    (steady : mux.Steady id) (frame : ChannelFrame) (accepted : List Bytes)
    (other : frame.isOpen = false ∧ frame.isAck = false ∧ frame.isSpeech = false)
    {outcome : Except String Unit} (reason : String) (safe : reason ∉ streamFaults)
    (cases : outcome = .ok () ∨ outcome = .error reason) :
    mux.Heard id frame accepted (after, outcome) := by
  refine ⟨leaves.steady steady, none, ?_, fun _ => harmless reason safe cases⟩
  dsimp only
  rw [leaves.view]
  exact .gone frame _ leaves.cut other

theorem handleEnd_leaves (steady : mux.Steady id) (channel : ChannelRecord) (reason : String) :
    Leaves id mux (mux.handleEnd id channel reason) := by
  obtain ⟨_, tidy, _, _⟩ := dropQueued_line mux id id steady.tidy
  have told := notifyTerminal_aside tidy id channel reason
  have gone := eraseChannel_turn told.tidy
  unfold handleEnd
  refine dropQueued_erase_leaves steady.tidy [] (Or.inl rfl) ?_
  have line := gone.line
  rw [told.line] at line
  refine ⟨gone.record, line, gone.tidy, gone.delivered.trans ?_, gone.pending.trans ?_,
    gone.frame.trans told.frame, gone.msgId.trans ?_⟩
  all_goals
    unfold notifyTerminal
    split <;> rfl

theorem rejected_leaves (steady : mux.Steady id) (channel : ChannelRecord) (reason : String) :
    Leaves id mux (({ mux with pendingOpenData := mux.pendingOpenData.erase id }.notifyTerminal id
      channel reason).eraseChannel id) := by
  have erased : Aside id mux { mux with pendingOpenData := mux.pendingOpenData.erase id } := by
    refine ⟨rfl, rfl, ⟨steady.tidy.queued, steady.tidy.loose⟩, rfl, ?_, rfl, fun fits => fits⟩
    rw [steady.pending]
    exact AList.lookup_erase ..
  have told := erased.trans (notifyTerminal_aside erased.tidy id channel reason)
  have gone := eraseChannel_turn told.tidy
  refine told.leaves ⟨gone.record, ⟨_, List.prefix_refl _, Or.inl ?_⟩, gone.tidy, ?_, ?_, gone.frame, ?_⟩
  · rw [gone.line, List.append_nil]
  · rw [gone.delivered]
  · rw [gone.pending]
    exact fun absent => absent
  · rw [gone.msgId]
    exact fun fits => fits

theorem handleOpenAck_heard (steady : mux.Steady id) (frame : ChannelFrame) (accepted : List Bytes)
    (found : mux.channelById id = some channel) (result : UInt8)
    (body : frame.body = .openAck result) :
    mux.Heard id frame accepted (mux.handleOpenAck id result) := by
  unfold handleOpenAck
  rw [found]
  dsimp only
  split
  · rename_i refused
    refine (rejected_leaves steady channel _).heard steady frame accepted ?_
      "amp mux: open rejected" (by decide) (Or.inr rfl)
    obtain ⟨other, ack, silent⟩ := ChannelFrame.openAck_kind body
    exact ⟨other, ack.trans (beq_false_of_ne refused), silent⟩
  · rename_i granted
    have zero : result = 0 := not_not.mp granted
    have turn := putChannel_turn steady.tidy { channel with state := .opened }
    have kept := turn.steady_same steady found rfl nofun
    have quiet : (mux.putChannel id { channel with state := .opened }).flushPendingOpenData id =
        mux.putChannel id { channel with state := .opened } := by
      unfold flushPendingOpenData
      rw [kept.pending]
    rw [quiet]
    refine ⟨kept, none, ?_, fun _ => harmless "" (by decide) (Or.inl rfl)⟩
    dsimp only
    rw [turn.view, List.append_nil]
    refine .answered frame ?_ channel.face (view_found found accepted)
    rw [(ChannelFrame.openAck_kind body).2.1, zero]
    rfl

theorem deliverPayload_view (mux : ChannelMux Pipe) (id : UInt32) (channel : ChannelRecord)
    (payload : Bytes) (accepted : List Bytes) :
    (mux.deliverPayload id channel payload).view id accepted =
      { mux.view id accepted with
        delivered := if channel.onData then (mux.view id accepted).delivered ++ [payload]
          else (mux.view id accepted).delivered } := by
  unfold deliverPayload
  split
  · unfold ChannelMux.view
    dsimp only
    rw [entriesOn_append, entriesOn_singleton, if_pos rfl]
    rfl
  · rfl

theorem deliverPayload_steady (steady : mux.Steady id) (channel : ChannelRecord)
    (payload : Bytes) : (mux.deliverPayload id channel payload).Steady id := by
  unfold deliverPayload
  split
  · exact ⟨⟨steady.tidy.queued, steady.tidy.loose⟩, steady.reliable, steady.calls, steady.pending,
      steady.frame, steady.msgId⟩
  · exact steady

theorem inTurn_reliable (reliable : qosForClass channel.policy.cls = .reliable) (seq : UInt32) :
    inTurn channel seq = true ↔ seq = channel.rxSeq := by
  rw [inTurn, reliable]
  simp

theorem countFrame_reliable (reliable : qosForClass channel.policy.cls = .reliable) :
    countFrame channel = { channel with rxSeq := nextSeq channel.rxSeq, readClockMs := -1 } := by
  rw [countFrame, if_pos reliable]

theorem handleData_heard (steady : mux.Steady id) (frame : ChannelFrame) (accepted : List Bytes)
    (found : mux.channelById id = some channel) (payload : Bytes)
    (body : frame.body = .data payload) :
    mux.Heard id frame accepted (mux.handleData id frame.channelSeq channel payload) := by
  have reliable := steady.reliable channel found
  obtain ⟨other, notAck, notEnd, speech⟩ := ChannelFrame.data_kind body
  unfold handleData
  split
  · rename_i shut
    refine deaf steady frame accepted ?_ other (fun _ => ⟨notAck, notEnd⟩) _ (by decide)
    intro record known
    rw [found] at known
    cases known
    exact shut
  · rename_i listening
    have opened : channel.state = .opened := not_not.mp listening
    split
    · rename_i early
      refine ⟨steady, some "amp mux: out of order seq", ?_, nofun⟩
      refine .outOfTurn frame speech channel.face (view_found found accepted) opened ?_ _
      intro turn
      rw [(inTurn_reliable reliable _).mpr turn] at early
      cases early
    · rename_i turn
      have counted := (inTurn_reliable reliable _).mp (by simpa using turn)
      dsimp only
      rw [countFrame_reliable reliable]
      have put := putChannel_turn steady.tidy
        { channel with rxSeq := nextSeq channel.rxSeq, readClockMs := -1 }
      refine ⟨deliverPayload_steady (put.steady_same steady found rfl nofun) _ payload, none, ?_,
        fun _ => harmless "" (by decide) (Or.inl rfl)⟩
      dsimp only
      rw [deliverPayload_view, put.view, List.append_nil]
      exact .data frame payload body channel.face (view_found found accepted) opened counted

theorem handleBadMessage_leaves (steady : mux.Steady id)
    (found : mux.channelById id = some channel) (other : ChannelRecord) :
    Leaves id mux (mux.handleBadMessage id other) := by
  have leaves := resetChannel_leaves steady found 1
  exact leaves.aside (notifyTerminal_aside leaves.tidy id other kBadMessageReason)

theorem handleFrag_heard (steady : mux.Steady id) (frame : ChannelFrame) (accepted : List Bytes)
    (found : mux.channelById id = some channel) (frag : ChannelFragBody)
    (body : frame.body = .frag frag) :
    mux.Heard id frame accepted (mux.handleFrag id frame.channelSeq channel frag) := by
  have reliable := steady.reliable channel found
  obtain ⟨other, notAck, notEnd, speech⟩ := ChannelFrame.frag_kind body
  unfold handleFrag
  split
  · rename_i shut
    refine deaf steady frame accepted ?_ other (fun _ => ⟨notAck, notEnd⟩) _ (by decide)
    intro record known
    rw [found] at known
    cases known
    exact shut
  · rename_i listening
    have opened : channel.state = .opened := not_not.mp listening
    split
    · rename_i early
      refine ⟨steady, some "amp mux: out of order frag seq", ?_, nofun⟩
      refine .outOfTurn frame speech channel.face (view_found found accepted) opened ?_ _
      intro turn
      rw [(inTurn_reliable reliable _).mpr turn] at early
      cases early
    · rename_i turn
      have counted := (inTurn_reliable reliable _).mp (by simpa using turn)
      dsimp only
      rw [countFrame_reliable reliable]
      dsimp only
      have put := putChannel_turn steady.tidy { channel with
        rxSeq := nextSeq channel.rxSeq, readClockMs := -1
        reassembly := (channel.reassembly.push frag mux.nowMs).1 }
      have kept := put.steady_same steady found rfl nofun
      have hears (message : Option Bytes)
          (pushed : (channel.reassembly.push frag mux.nowMs).2 = .ok message) :=
        View.Hears.frag frame frag body channel.face mux.nowMs (view_found found accepted) opened
          counted message pushed
      cases assembled : (channel.reassembly.push frag mux.nowMs).2 with
      | error message =>
          have leaves := put.leaves (handleBadMessage_leaves kept put.record { channel with
            rxSeq := nextSeq channel.rxSeq, readClockMs := -1
            reassembly := (channel.reassembly.push frag mux.nowMs).1 })
          refine ⟨leaves.steady steady, some message, ?_, nofun⟩
          dsimp only
          rw [leaves.view]
          exact .bad frame frag body channel.face mux.nowMs (view_found found accepted) opened
            message assembled _ leaves.cut
      | ok message =>
          cases message with
          | none =>
              refine ⟨kept, none, ?_, fun _ => harmless "" (by decide) (Or.inl rfl)⟩
              have heard := hears none assembled
              dsimp only
              rw [put.view, List.append_nil]
              rw [Option.toList_none, List.append_nil, ite_self] at heard
              exact heard
          | some payload =>
              refine ⟨deliverPayload_steady kept _ payload, none, ?_,
                fun _ => harmless "" (by decide) (Or.inl rfl)⟩
              dsimp only
              rw [deliverPayload_view, put.view, List.append_nil]
              exact hears (some payload) assembled

end Records

/-- `DispatchFrame` of a frame of the channel. -/
theorem dispatchFrame_heard (steady : mux.Steady id) (frame : ChannelFrame)
    (mine : frame.channelId = id) (calls : Calls [frame]) (accepted : List Bytes) :
    mux.Heard id frame accepted (mux.dispatchFrame frame) := by
  subst mine
  have unknown (absent : mux.channelById frame.channelId = none) (other : frame.isOpen = false) :
      mux.Heard frame.channelId frame accepted (mux, .error "amp mux: unknown channel") := by
    refine deaf steady frame accepted ?_ other ?_ _ (by decide)
    · rw [absent]
      exact nofun
    · rw [absent]
      exact nofun
  unfold dispatchFrame
  dsimp only
  cases body : frame.body with
  | openFrame protocolId cls flags offered =>
      exact handleOpen_heard steady frame accepted (ChannelFrame.open_kind body) protocolId
        cls (calls frame (List.mem_singleton.mpr rfl) _ _ _ _ body) offered
  | openAck result =>
      cases found : mux.channelById frame.channelId with
      | none => exact unknown found (ChannelFrame.openAck_kind body).1
      | some channel => exact handleOpenAck_heard steady frame accepted found result body
  | data payload =>
      cases found : mux.channelById frame.channelId with
      | none => exact unknown found (ChannelFrame.data_kind body).1
      | some channel => exact handleData_heard steady frame accepted found payload body
  | close reason =>
      cases found : mux.channelById frame.channelId with
      | none => exact unknown found (ChannelFrame.end_kind (ChannelFrame.close_kind body)).1
      | some channel =>
          exact (handleEnd_leaves steady channel _).heard steady frame accepted
            (ChannelFrame.end_kind (ChannelFrame.close_kind body)) "" (by decide) (Or.inl rfl)
  | reset code =>
      cases found : mux.channelById frame.channelId with
      | none => exact unknown found (ChannelFrame.end_kind (ChannelFrame.reset_kind body)).1
      | some channel =>
          exact (handleEnd_leaves steady channel _).heard steady frame accepted
            (ChannelFrame.end_kind (ChannelFrame.reset_kind body)) "" (by decide) (Or.inl rfl)
  | frag frag =>
      cases found : mux.channelById frame.channelId with
      | none => exact unknown found (ChannelFrame.frag_kind body).1
      | some channel => exact handleFrag_heard steady frame accepted found frag body

end ChannelMux

end Amp
