import Amp.L3.ChannelLine
import Amp.L3.ChannelProtocol

set_option autoImplicit false

/- A mux on a pipe and the calls it takes, and what a call on one channel leaves
alone of another. -/
namespace Amp

open Adp (Bytes QosClass)

/-- A mux and what was done with it: the payloads `SendData` took, the ids
`OpenOutbound` recorded and the errors `DispatchFrame` returned. -/
structure MuxEnd where
  mux : ChannelMux Pipe
  accepted : List (UInt32 × Bytes) := []
  opened : List UInt32 := []
  faults : List (UInt32 × String) := []

namespace MuxEnd

inductive Event where
  | openOutbound (protocolId : Bytes) (policy : ChannelPolicy) (fixedId : Option UInt32)
  | sendData (id : UInt32) (payload : Bytes)
  | closeChannel (id : UInt32) (reason : Bytes)
  | resetChannel (id code : UInt32)
  | flushQueued
  | tick (now : Int)
  | setDataHandler (id : UInt32)
  | setTerminalHandler (id : UInt32)
  | setMaxFrameBytes (bytes : Nat)
  /-- The injected clock moves. -/
  | clock (now : Int)
  /-- The transport's credits change. -/
  | credits (allowance : Nat → Nat)

/-- The id the next `OpenOutbound` takes. -/
def nextId (mux : ChannelMux Pipe) (fixedId : Option UInt32) : UInt32 :=
  fixedId.getD mux.allocateId.1

def openOutbound (this : MuxEnd) (protocolId : Bytes) (policy : ChannelPolicy)
    (fixedId : Option UInt32) : MuxEnd :=
  { this with
    mux := (this.mux.openOutbound protocolId policy fixedId).1
    opened := if (this.mux.channelById (nextId this.mux fixedId)).isSome then this.opened
      else this.opened ++ [nextId this.mux fixedId] }

def sendData (this : MuxEnd) (id : UInt32) (payload : Bytes) : MuxEnd :=
  { this with
    mux := (this.mux.sendData id payload).1
    accepted := if (this.mux.sendData id payload).2.isOk then this.accepted ++ [(id, payload)]
      else this.accepted }

def onMux (this : MuxEnd) (mux : ChannelMux Pipe) : MuxEnd := { this with mux := mux }

def step (this : MuxEnd) : Event → MuxEnd
  | .openOutbound protocolId policy fixedId => this.openOutbound protocolId policy fixedId
  | .sendData id payload => this.sendData id payload
  | .closeChannel id reason => this.onMux (this.mux.closeChannel id reason).1
  | .resetChannel id code => this.onMux (this.mux.resetChannel id code).1
  | .flushQueued => this.onMux this.mux.flushQueued
  | .tick now => this.onMux (this.mux.tick now)
  | .setDataHandler id => this.onMux (this.mux.setDataHandler id)
  | .setTerminalHandler id => this.onMux (this.mux.setTerminalHandler id)
  | .setMaxFrameBytes bytes => this.onMux (this.mux.setMaxFrameBytes bytes).1
  | .clock now => this.onMux { this.mux with nowMs := now }
  | .credits allowance =>
      this.onMux { this.mux with transport := { this.mux.transport with allowance := allowance } }

def logFault (faults : List (UInt32 × String)) (id : UInt32) :
    Except String Unit → List (UInt32 × String)
  | .error message => faults ++ [(id, message)]
  | .ok _ => faults

theorem mem_logFault {faults : List (UInt32 × String)} {id : UInt32} {outcome : Except String Unit}
    {entry : UInt32 × String} (member : entry ∈ logFault faults id outcome) :
    entry ∈ faults ∨ entry.1 = id ∧ outcome = .error entry.2 := by
  cases outcome with
  | ok => exact Or.inl member
  | error message =>
      rcases List.mem_append.mp member with old | new
      · exact Or.inl old
      · rw [List.mem_singleton.mp new]
        exact Or.inr ⟨rfl, rfl⟩

/-- `OnFrameInbound` of a frame of the peer's. -/
def receive (this : MuxEnd) (wire : Bytes) : MuxEnd :=
  match ChannelWire.decode wire with
  | .error _ => this
  | .ok frame =>
      { this with
        mux := (this.mux.dispatchFrame frame).1
        faults := logFault this.faults frame.channelId (this.mux.dispatchFrame frame).2 }

end MuxEnd

def ChannelRecord.face (channel : ChannelRecord) : Face where
  state := channel.state
  txSeq := channel.txSeq
  rxSeq := channel.rxSeq
  policy := channel.policy
  reassembly := channel.reassembly
  onData := channel.onData

namespace ChannelMux

/-- The entries of a log that are of one channel. -/
def entriesOn {α : Type} (id : UInt32) (log : List (UInt32 × α)) : List α :=
  log.filterMap fun entry => if entry.1 = id then some entry.2 else none

theorem entriesOn_append {α : Type} (id : UInt32) (first second : List (UInt32 × α)) :
    entriesOn id (first ++ second) = entriesOn id first ++ entriesOn id second :=
  List.filterMap_append ..

theorem entriesOn_singleton {α : Type} (id other : UInt32) (item : α) :
    entriesOn id [(other, item)] = if other = id then [item] else [] := by
  unfold entriesOn
  split <;> simp_all

def view (mux : ChannelMux Pipe) (id : UInt32) (accepted : List Bytes) : View where
  record := (mux.channelById id).map ChannelRecord.face
  line := mux.line id
  delivered := entriesOn id mux.delivered
  accepted := accepted

/-- A call on other channels, as one channel sees it. -/
structure Aside (id : UInt32) (before after : ChannelMux Pipe) : Prop where
  record : after.channelById id = before.channelById id
  line : after.line id = before.line id
  tidy : after.Tidy id
  delivered : entriesOn id after.delivered = entriesOn id before.delivered
  pending : after.pendingOpenData.lookup id = before.pendingOpenData.lookup id
  frame : after.maxFrameBytes = before.maxFrameBytes
  msgId : before.nextFragMsgId < 2 ^ 64 → after.nextFragMsgId < 2 ^ 64

theorem Aside.view {id : UInt32} {before after : ChannelMux Pipe} (aside : Aside id before after)
    (accepted : List Bytes) : after.view id accepted = before.view id accepted := by
  unfold ChannelMux.view
  rw [aside.record, aside.line, aside.delivered]

theorem Aside.refl {mux : ChannelMux Pipe} {id : UInt32} (tidy : mux.Tidy id) :
    Aside id mux mux :=
  ⟨rfl, rfl, tidy, rfl, rfl, rfl, fun fits => fits⟩

theorem Aside.trans {id : UInt32} {before middle after : ChannelMux Pipe}
    (one : Aside id before middle) (two : Aside id middle after) : Aside id before after :=
  ⟨two.record.trans one.record, two.line.trans one.line, two.tidy,
    two.delivered.trans one.delivered, two.pending.trans one.pending, two.frame.trans one.frame,
    fun fits => two.msgId (one.msgId fits)⟩

theorem Sends.aside {id : UInt32} {before after : ChannelMux Pipe} (sends : Sends id [] before after) :
    Aside id before after := by
  have line := sends.line
  rw [List.append_nil] at line
  have rest := sends.rest
  refine ⟨?_, line, sends.tidy, ?_, ?_, ?_, ?_⟩
  · rw [rest]
    rfl
  · rw [rest]
    rfl
  · rw [rest]
    rfl
  · rw [rest]
    rfl
  · rw [rest]
    exact fun fits => fits

section Others

variable {mux : ChannelMux Pipe} {id other : UInt32}

theorem putChannel_aside (tidy : mux.Tidy id) (differs : other ≠ id) (channel : ChannelRecord) :
    Aside id mux (mux.putChannel other channel) := by
  refine ⟨?_, rfl, ⟨tidy.queued, tidy.loose⟩, rfl, rfl, rfl, fun fits => fits⟩
  rw [channelById_putChannel, if_neg (Ne.symm differs)]

theorem eraseChannel_aside (tidy : mux.Tidy id) (differs : other ≠ id) :
    Aside id mux (mux.eraseChannel other) := by
  refine ⟨?_, rfl, ⟨tidy.queued, tidy.loose⟩, rfl, rfl, rfl, fun fits => fits⟩
  rw [channelById_eraseChannel, if_neg (Ne.symm differs)]

theorem dropQueued_aside (tidy : mux.Tidy id) (differs : other ≠ id) :
    Aside id mux (mux.dropQueued other) := by
  obtain ⟨rest, tidied, _, line⟩ := dropQueued_line mux id other tidy
  have sends : Sends id [] mux (mux.dropQueued other) :=
    ⟨rest, by rw [List.append_nil]; exact line differs, tidied⟩
  exact sends.aside

theorem notifyTerminal_aside (tidy : mux.Tidy id) (other : UInt32) (channel : ChannelRecord) (reason : String) :
    Aside id mux (mux.notifyTerminal other channel reason) := by
  unfold notifyTerminal
  split
  · exact ⟨rfl, rfl, ⟨tidy.queued, tidy.loose⟩, rfl, rfl, rfl, fun fits => fits⟩
  · exact Aside.refl tidy

theorem deliverPayload_aside (tidy : mux.Tidy id) (differs : other ≠ id)
    (channel : ChannelRecord) (payload : Bytes) :
    Aside id mux (mux.deliverPayload other channel payload) := by
  unfold deliverPayload
  split
  · refine ⟨rfl, rfl, ⟨tidy.queued, tidy.loose⟩, ?_, rfl, rfl, fun fits => fits⟩
    dsimp only
    rw [entriesOn_append, entriesOn_singleton, if_neg differs, List.append_nil]
  · exact Aside.refl tidy

theorem adoptHandlers_aside (tidy : mux.Tidy id) (channel : ChannelRecord)
    (differs : channel.id ≠ id) : Aside id mux (mux.adoptHandlers channel) := by
  refine ⟨?_, rfl, ⟨tidy.queued, tidy.loose⟩, rfl, rfl, rfl, fun fits => fits⟩
  simp [channelById, adoptHandlers, AList.lookup_insert_ne (Ne.symm differs)]

theorem takeMsgId_aside (tidy : mux.Tidy id) : Aside id mux mux.takeMsgId :=
  ⟨rfl, rfl, ⟨tidy.queued, tidy.loose⟩, rfl, rfl, rfl, fun _ => Nat.mod_lt _ (by decide)⟩

theorem sendFrame_aside (tidy : mux.Tidy id) (frame : ChannelFrame) (cls : ChannelClass)
    (fits : ChannelWire.Fits frame.body) (differs : frame.channelId ≠ id) :
    Aside id mux (mux.sendFrame frame cls).1 :=
  (sendFrame_other mux id frame cls tidy fits differs).aside

theorem openFrame_fits (channel : UInt32) (protocolId : Bytes) (policy : ChannelPolicy) :
    ChannelWire.Fits (openFrame channel protocolId policy).body := by
  have bound : min policy.maxMessageBytes 0xFFFFFFFF ≤ 0xFFFFFFFF := Nat.min_le_right ..
  exact ⟨by decide, by omega⟩

theorem openAs_aside (tidy : mux.Tidy id) (differs : other ≠ id) (protocolId : Bytes)
    (policy : ChannelPolicy) : Aside id mux (mux.openAs other protocolId policy).1 := by
  have adopted := adoptHandlers_aside tidy (openingRecord other protocolId policy) differs
  have sent := sendFrame_aside adopted.tidy (openFrame other protocolId policy) policy.cls
    (openFrame_fits other protocolId policy) differs
  unfold openAs
  dsimp only
  split <;> rename_i same <;> rw [same] at sent <;> exact adopted.trans sent

/-- The loop over the fragments of a message on another channel. -/
theorem sendFrags_aside (qos : QosClass) (msgId count total : Nat) (differs : other ≠ id)
    (msgIdFits : msgId < 2 ^ 64) (countFits : count < 2 ^ 16) (totalFits : total < 2 ^ 32)
    (chunks : List Bytes) : ∀ (index : Nat) (channel : ChannelRecord) (mux : ChannelMux Pipe),
    mux.Tidy id → index + chunks.length ≤ count →
    Aside id mux (sendFrags qos other msgId count total index chunks channel mux).1 := by
  induction chunks with
  | nil => exact fun _ _ _ tidy _ => Aside.refl tidy
  | cons chunk rest ih =>
      intro index channel mux tidy inside
      rw [List.length_cons] at inside
      have fits : ChannelWire.Fits
          (.frag (⟨msgId, index, count, total, chunk⟩ : ChannelFragBody)) :=
        ⟨msgIdFits, by dsimp only; omega, countFits, totalFits⟩
      unfold sendFrags
      split
      · exact Aside.refl tidy
      · rename_i wire encoded
        have quiet : frameOn id wire = none := frameOn_other id _ wire fits encoded differs
        have sent := (sendWire_other mux id other qos wire tidy quiet).aside
        split
        · rename_i after message same
          rw [same] at sent
          exact sent
        · rename_i after _ same
          rw [same] at sent
          split
          · exact sent
          · rename_i found _
            split
            · exact sent
            · have put := putChannel_aside sent.tidy differs
                { found with txSeq := nextSeq found.txSeq }
              exact (sent.trans put).trans (ih (index + 1) _ _ put.tidy (by omega))

/-- The bounds a fragmented send keeps: its count and length fit their fields. -/
theorem needed_fits (size needed : Nat) (few : ¬ kMaxFragmentsPerMessage < needed) :
    needed < 2 ^ 16 ∧ size % 2 ^ 32 < 2 ^ 32 := by
  have bound : kMaxFragmentsPerMessage = 65535 := rfl
  exact ⟨by omega, Nat.mod_lt _ (by decide)⟩

theorem sendFragmented_aside (tidy : mux.Tidy id) (differs : other ≠ id)
    (msgIdFits : mux.nextFragMsgId < 2 ^ 64) (channel : ChannelRecord) (payload : Bytes) :
    Aside id mux (mux.sendFragmented other channel payload).1 := by
  have taken := takeMsgId_aside tidy
  unfold sendFragmented
  dsimp only
  split
  · exact Aside.refl tidy
  · rename_i few
    have fits := needed_fits payload.length _ few
    split
    · exact taken
    · exact taken.trans (sendFrags_aside _ _ _ _ differs msgIdFits fits.1 fits.2 _ 0 channel
        mux.takeMsgId taken.tidy (by rw [chunksOf_length]; omega))

theorem sendData_aside (tidy : mux.Tidy id) (differs : other ≠ id)
    (msgIdFits : mux.nextFragMsgId < 2 ^ 64) (payload : Bytes) :
    Aside id mux (mux.sendData other payload).1 := by
  unfold sendData
  split
  · exact Aside.refl tidy
  · rename_i channel _
    split
    · exact Aside.refl tidy
    · split
      · exact Aside.refl tidy
      · split
        · have sent := sendFrame_aside tidy (dataFrame other channel.txSeq payload)
            channel.policy.cls trivial differs
          split <;> rename_i same <;> rw [same] at sent
          · exact sent
          · exact sent.trans (putChannel_aside sent.tidy differs _)
        · exact sendFragmented_aside tidy differs msgIdFits channel payload

theorem resetChannel_aside (tidy : mux.Tidy id) (differs : other ≠ id) (code : UInt32) :
    Aside id mux (mux.resetChannel other code).1 := by
  unfold resetChannel
  split
  · exact Aside.refl tidy
  · rename_i channel _
    have dropped := dropQueued_aside tidy differs
    have sent := sendFrame_aside dropped.tidy ⟨other, channel.txSeq, .reset code⟩
      channel.policy.cls trivial differs
    exact (dropped.trans sent).trans (eraseChannel_aside sent.tidy differs)

theorem closeChannel_aside (tidy : mux.Tidy id) (differs : other ≠ id) (reason : Bytes) :
    Aside id mux (mux.closeChannel other reason).1 := by
  unfold closeChannel
  split
  · exact Aside.refl tidy
  · rename_i channel _
    have put := putChannel_aside tidy differs
      { channel with txSeq := nextSeq channel.txSeq, state := .closing }
    exact put.trans (sendFrame_aside put.tidy ⟨other, channel.txSeq, .close reason⟩
      channel.policy.cls trivial differs)

theorem setDataHandler_aside (tidy : mux.Tidy id) (differs : other ≠ id) :
    Aside id mux (mux.setDataHandler other) := by
  unfold setDataHandler
  split
  · exact putChannel_aside tidy differs _
  · exact ⟨rfl, rfl, ⟨tidy.queued, tidy.loose⟩, rfl, rfl, rfl, fun fits => fits⟩

theorem handleOpen_aside (tidy : mux.Tidy id) (differs : other ≠ id) (protocolId : Bytes)
    (cls : ChannelClass) (offered : Nat) :
    Aside id mux (mux.handleOpen other protocolId cls offered).1 := by
  unfold handleOpen
  split
  · exact Aside.refl tidy
  · split
    · rename_i result _
      have forgotten : Aside id mux { mux with
          pendingTerminalHandlers := mux.pendingTerminalHandlers.filter (· ≠ other) } :=
        ⟨rfl, rfl, ⟨tidy.queued, tidy.loose⟩, rfl, rfl, rfl, fun fits => fits⟩
      exact forgotten.trans (sendFrame_aside forgotten.tidy (ackFrame other result) cls trivial
        differs)
    · have adopted := adoptHandlers_aside tidy (acceptedRecord other protocolId cls offered) differs
      have sent := sendFrame_aside adopted.tidy (ackFrame other 0) cls trivial differs
      split <;> rename_i same <;> rw [same] at sent
      · exact adopted.trans sent
      · refine (adopted.trans sent).trans ?_
        unfold noteInboundOpen
        split
        · exact ⟨rfl, rfl, ⟨sent.tidy.queued, sent.tidy.loose⟩, rfl, rfl, rfl, fun fits => fits⟩
        · exact Aside.refl sent.tidy

theorem pendingOpenData_aside (tidy : mux.Tidy id) (differs : other ≠ id) :
    Aside id mux { mux with pendingOpenData := mux.pendingOpenData.erase other } :=
  ⟨rfl, rfl, ⟨tidy.queued, tidy.loose⟩, rfl, AList.lookup_erase_ne (Ne.symm differs), rfl,
    fun fits => fits⟩

theorem flushPendingOpenData_aside (tidy : mux.Tidy id) (differs : other ≠ id)
    (msgIdFits : mux.nextFragMsgId < 2 ^ 64) :
    Aside id mux (mux.flushPendingOpenData other) := by
  unfold flushPendingOpenData
  split
  · exact Aside.refl tidy
  · rename_i payload _
    have erased := pendingOpenData_aside tidy differs
    exact erased.trans (sendData_aside erased.tidy differs (erased.msgId msgIdFits) payload)

theorem handleOpenAck_aside (tidy : mux.Tidy id) (differs : other ≠ id)
    (msgIdFits : mux.nextFragMsgId < 2 ^ 64) (result : UInt8) :
    Aside id mux (mux.handleOpenAck other result).1 := by
  unfold handleOpenAck
  split
  · exact Aside.refl tidy
  · rename_i channel _
    split
    · have erased := pendingOpenData_aside tidy differs
      have notified := notifyTerminal_aside erased.tidy other channel
        (if result = kOpenAckNoHandler then "open rejected: no handler" else "open rejected")
      exact (erased.trans notified).trans (eraseChannel_aside notified.tidy differs)
    · have put := putChannel_aside tidy differs { channel with state := .opened }
      exact put.trans (flushPendingOpenData_aside put.tidy differs (put.msgId msgIdFits))

theorem handleEnd_aside (tidy : mux.Tidy id) (differs : other ≠ id) (channel : ChannelRecord)
    (reason : String) : Aside id mux (mux.handleEnd other channel reason) := by
  have dropped := dropQueued_aside tidy differs
  have notified := notifyTerminal_aside dropped.tidy other channel reason
  exact (dropped.trans notified).trans (eraseChannel_aside notified.tidy differs)

theorem handleData_aside (tidy : mux.Tidy id) (differs : other ≠ id) (seq : UInt32)
    (channel : ChannelRecord) (payload : Bytes) :
    Aside id mux (mux.handleData other seq channel payload).1 := by
  unfold handleData
  split
  · exact Aside.refl tidy
  · split
    · exact Aside.refl tidy
    · have put := putChannel_aside tidy differs (countFrame channel)
      exact put.trans (deliverPayload_aside put.tidy differs _ payload)

theorem handleFrag_aside (tidy : mux.Tidy id) (differs : other ≠ id) (seq : UInt32)
    (channel : ChannelRecord) (frag : ChannelFragBody) :
    Aside id mux (mux.handleFrag other seq channel frag).1 := by
  unfold handleFrag
  split
  · exact Aside.refl tidy
  · split
    · exact Aside.refl tidy
    · have put := putChannel_aside tidy differs
        { countFrame channel with reassembly := (channel.reassembly.push frag mux.nowMs).1 }
      dsimp only
      split
      · have reset := resetChannel_aside put.tidy differs 1
        exact (put.trans reset).trans (notifyTerminal_aside reset.tidy other _ _)
      · exact put
      · exact put.trans (deliverPayload_aside put.tidy differs _ _)

/-- A frame of another channel. -/
theorem dispatchFrame_aside (tidy : mux.Tidy id) (msgIdFits : mux.nextFragMsgId < 2 ^ 64)
    (frame : ChannelFrame) (differs : frame.channelId ≠ id) :
    Aside id mux (mux.dispatchFrame frame).1 := by
  unfold dispatchFrame
  dsimp only
  split
  · exact handleOpen_aside tidy differs _ _ _
  · exact Aside.refl tidy
  · exact handleOpenAck_aside tidy differs msgIdFits _
  · exact handleEnd_aside tidy differs _ _
  · exact handleEnd_aside tidy differs _ _
  · exact handleData_aside tidy differs _ _ _
  · exact handleFrag_aside tidy differs _ _ _

end Others

end ChannelMux

end Amp
