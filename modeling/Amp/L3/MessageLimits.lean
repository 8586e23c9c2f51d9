import Amp.L3.ChannelOpening
import Amp.L3.ReassemblyBounds

set_option autoImplicit false

/- The limit on a channel's messages: where it comes from and what it keeps out. -/
namespace Amp

open Adp (Bytes QosClass)

namespace ChannelMux

variable {τ : Type}

/-- Every channel that is still there has the policy it had, and its reassembly the limit. -/
def KeepsLimits (before after : ChannelMux τ) : Prop :=
  ∀ id channel, after.channelById id = some channel → ∃ old, before.channelById id = some old ∧
    channel.policy = old.policy ∧
    channel.reassembly.maxMessageBytes = old.reassembly.maxMessageBytes

namespace KeepsLimits

theorem of_channels {before after : ChannelMux τ} (same : after.channels = before.channels) :
    KeepsLimits before after := by
  intro id channel found
  unfold channelById at found
  rw [same] at found
  exact ⟨channel, found, rfl, rfl⟩

theorem refl (mux : ChannelMux τ) : KeepsLimits mux mux := of_channels rfl

theorem trans {before middle after : ChannelMux τ} (one : KeepsLimits before middle)
    (two : KeepsLimits middle after) : KeepsLimits before after := by
  intro id channel found
  obtain ⟨between, known, policy, limit⟩ := two id channel found
  obtain ⟨old, first, earlier, less⟩ := one id between known
  exact ⟨old, first, policy.trans earlier, limit.trans less⟩

theorem put {mux : ChannelMux τ} {id : UInt32} {old channel : ChannelRecord}
    (known : mux.channelById id = some old) (policy : channel.policy = old.policy)
    (limit : channel.reassembly.maxMessageBytes = old.reassembly.maxMessageBytes) :
    KeepsLimits mux (mux.putChannel id channel) := by
  intro other record found
  rw [channelById_putChannel] at found
  split at found
  · rename_i same
    cases found
    exact ⟨old, same ▸ known, policy, limit⟩
  · exact ⟨record, found, rfl, rfl⟩

theorem erase (mux : ChannelMux τ) (id : UInt32) : KeepsLimits mux (mux.eraseChannel id) := by
  intro other channel found
  rw [channelById_eraseChannel] at found
  split at found
  · cases found
  · exact ⟨channel, found, rfl, rfl⟩

theorem map (mux : ChannelMux τ) {change : ChannelRecord → ChannelRecord}
    (same : ∀ channel, (change channel).policy = channel.policy ∧
      (change channel).reassembly.maxMessageBytes = channel.reassembly.maxMessageBytes) :
    KeepsLimits mux (mux.mapChannels change) := by
  intro id channel found
  rw [channelById_mapChannels] at found
  obtain ⟨old, known, changed⟩ := Option.map_eq_some_iff.mp found
  subst changed
  exact ⟨old, known, same old⟩

end KeepsLimits

theorem notifyTerminal_channels (mux : ChannelMux τ) (id : UInt32) (channel : ChannelRecord)
    (reason : String) : (mux.notifyTerminal id channel reason).channels = mux.channels := by
  unfold notifyTerminal
  split <;> rfl

theorem dropQueued_channels (mux : ChannelMux τ) (id : UInt32) :
    (mux.dropQueued id).channels = mux.channels := by
  unfold dropQueued
  split <;> rfl

theorem deliverPayload_channels (mux : ChannelMux τ) (id : UInt32) (channel : ChannelRecord)
    (payload : Bytes) : (mux.deliverPayload id channel payload).channels = mux.channels := by
  unfold deliverPayload
  split <;> rfl

section Calls

variable [MuxTransport τ]

theorem sendFrame_limits (mux : ChannelMux τ) (frame : ChannelFrame) (cls : ChannelClass) :
    KeepsLimits mux (mux.sendFrame frame cls).1 :=
  .of_channels (sendFrame_only mux frame cls).channels

theorem sendFrags_limits (qos : QosClass) (id : UInt32) (msgId count totalLen : Nat)
    (chunks : List Bytes) : ∀ (index : Nat) (channel : ChannelRecord) (mux : ChannelMux τ),
    KeepsLimits mux (sendFrags qos id msgId count totalLen index chunks channel mux).1 := by
  induction chunks with
  | nil => exact fun _ _ mux => .refl mux
  | cons chunk rest ih =>
      intro index channel mux
      unfold sendFrags
      split
      · exact .refl mux
      · rename_i wire _
        have sent := sendWire_only mux id qos wire
        split <;> rename_i result <;> rw [result] at sent
        · exact .of_channels sent.channels
        · have first := KeepsLimits.of_channels sent.channels
          split
          · exact first
          · rename_i after _ _ current known
            split
            · exact first
            · have counted : KeepsLimits after
                  (after.putChannel id { current with txSeq := nextSeq current.txSeq }) :=
                .put known rfl rfl
              exact (first.trans counted).trans (ih _ _ _)

theorem sendData_limits (mux : ChannelMux τ) (id : UInt32) (payload : Bytes) :
    KeepsLimits mux (mux.sendData id payload).1 := by
  unfold sendData
  split
  · exact .refl mux
  · rename_i channel known
    split
    · exact .refl mux
    · split
      · exact .refl mux
      · split
        · have sent := sendFrame_only mux (dataFrame id channel.txSeq payload) channel.policy.cls
          split <;> rename_i after _ result <;> rw [result] at sent
          · exact .of_channels sent.channels
          · have kept : after.channelById id = some channel := by
              unfold channelById
              rw [sent.channels]
              exact known
            have counted : KeepsLimits after
                (after.putChannel id { channel with txSeq := nextSeq channel.txSeq }) :=
              .put kept rfl rfl
            exact (KeepsLimits.of_channels sent.channels).trans counted
        · unfold sendFragmented
          dsimp only
          split
          · exact .refl mux
          · split
            · exact .of_channels rfl
            · exact (KeepsLimits.of_channels rfl).trans (sendFrags_limits _ _ _ _ _ _ _ _ mux.takeMsgId)

theorem resetChannel_limits (mux : ChannelMux τ) (id code : UInt32) :
    KeepsLimits mux (mux.resetChannel id code).1 := by
  unfold resetChannel
  split
  · exact .refl mux
  · have dropped := KeepsLimits.of_channels (dropQueued_channels mux id)
    exact (dropped.trans (sendFrame_limits _ _ _)).trans (.erase _ id)

theorem closeChannel_limits (mux : ChannelMux τ) (id : UInt32) (reason : Bytes) :
    KeepsLimits mux (mux.closeChannel id reason).1 := by
  unfold closeChannel
  split
  · exact .refl mux
  · rename_i channel known
    have closing : KeepsLimits mux (mux.putChannel id { channel with
        txSeq := nextSeq channel.txSeq, state := .closing }) := .put known rfl rfl
    exact closing.trans (sendFrame_limits _ _ _)

theorem expireReader_limits (mux : ChannelMux τ) (id : UInt32) :
    KeepsLimits mux (mux.expireReader id) := by
  unfold expireReader
  split
  · exact .refl mux
  · exact (resetChannel_limits mux id 1).trans (.of_channels (notifyTerminal_channels _ _ _ _))

theorem expireReaders_limits (gone : List UInt32) : ∀ mux : ChannelMux τ,
    KeepsLimits mux (gone.foldl expireReader mux) := by
  induction gone with
  | nil => exact .refl
  | cons id rest ih => exact fun mux => (expireReader_limits mux id).trans (ih _)

theorem tick_limits (mux : ChannelMux τ) (now : Int) : KeepsLimits mux (mux.tick now) := by
  have swept : KeepsLimits mux (mux.mapChannels (sweepChannel mux.tuning now)) :=
    .map mux fun _ => ⟨rfl, rfl⟩
  have timed (between : ChannelMux τ) :
      KeepsLimits between (between.mapChannels (startReadClock now)) := by
    apply KeepsLimits.map
    intro channel
    unfold startReadClock
    split <;> exact ⟨rfl, rfl⟩
  have expired : KeepsLimits (mux.mapChannels (sweepChannel mux.tuning now))
      ((mux.mapChannels (sweepChannel mux.tuning now)).expireIdleReaders now) :=
    (timed _).trans (expireReaders_limits _ _)
  exact (swept.trans expired).trans (.of_channels (flushTurns_only _ _).channels)

theorem flushPendingOpenData_limits (mux : ChannelMux τ) (id : UInt32) :
    KeepsLimits mux (mux.flushPendingOpenData id) := by
  unfold flushPendingOpenData
  split
  · exact .refl _
  · exact (KeepsLimits.of_channels rfl).trans (sendData_limits _ _ _)

theorem handleOpenAck_limits (mux : ChannelMux τ) (id : UInt32) (result : UInt8) :
    KeepsLimits mux (mux.handleOpenAck id result).1 := by
  unfold handleOpenAck
  split
  · exact .refl mux
  · rename_i channel known
    split
    · dsimp only
      apply KeepsLimits.trans _ (.erase _ id)
      apply KeepsLimits.of_channels
      rw [notifyTerminal_channels]
    · have opened : KeepsLimits mux (mux.putChannel id { channel with state := .opened }) :=
        .put known rfl rfl
      exact opened.trans (flushPendingOpenData_limits _ id)

omit [MuxTransport τ] in
theorem handleEnd_limits (mux : ChannelMux τ) (id : UInt32) (channel : ChannelRecord)
    (reason : String) : KeepsLimits mux (mux.handleEnd id channel reason) := by
  unfold handleEnd
  apply KeepsLimits.trans _ (.erase _ id)
  apply KeepsLimits.of_channels
  rw [notifyTerminal_channels, dropQueued_channels]

omit [MuxTransport τ] in
theorem handleData_limits {mux : ChannelMux τ} {id : UInt32} {channel : ChannelRecord}
    (known : mux.channelById id = some channel) (seq : UInt32) (payload : Bytes) :
    KeepsLimits mux (mux.handleData id seq channel payload).1 := by
  unfold handleData
  split
  · exact .refl mux
  · split
    · exact .refl mux
    · have counted : KeepsLimits mux (mux.putChannel id (countFrame channel)) :=
        .put known rfl rfl
      exact counted.trans (.of_channels (deliverPayload_channels _ _ _ _))

theorem handleFrag_limits {mux : ChannelMux τ} {id : UInt32} {channel : ChannelRecord}
    (known : mux.channelById id = some channel) (seq : UInt32) (frag : ChannelFragBody) :
    KeepsLimits mux (mux.handleFrag id seq channel frag).1 := by
  unfold handleFrag
  split
  · exact .refl mux
  · split
    · exact .refl mux
    · have kept : KeepsLimits mux (mux.putChannel id { countFrame channel with
          reassembly := (channel.reassembly.push frag mux.nowMs).1 }) :=
        .put known rfl (MessageReassembly.push_fields _ frag mux.nowMs).1
      dsimp only
      split
      · unfold handleBadMessage
        exact (kept.trans (resetChannel_limits _ id 1)).trans
          (.of_channels (notifyTerminal_channels _ _ _ _))
      · exact kept
      · exact kept.trans (.of_channels (deliverPayload_channels _ _ _ _))

end Calls

/-- A reassembly with the limit of its channel's policy. -/
def Sized (channel : ChannelRecord) : Prop :=
  channel.reassembly.maxMessageBytes = channel.policy.maxMessageBytes

/-- A call of the mux, or another choice of what it answers. -/
inductive MuxEvent (τ : Type) where
  | call (call : QueueCall τ)
  | setHandlers (protocolHandlers : List Bytes) (refuseUnhandledOpens : Bool)

/-- Where a channel's limits come from: it had them, or its record was not there and was
asked for here or offered by the peer, or they were applied here. -/
inductive LimitSource (mux : ChannelMux (Logged τ)) (event : MuxEvent τ) (id : UInt32)
    (channel : ChannelRecord) : Prop
  | kept (old : ChannelRecord) (known : mux.channelById id = some old)
      (policy : channel.policy = old.policy)
      (limit : channel.reassembly.maxMessageBytes = old.reassembly.maxMessageBytes)
  | asked (protocolId : Bytes) (policy : ChannelPolicy) (fixedId : Option UInt32)
      (call : event = .call (.openOutbound protocolId policy fixedId))
      (absent : mux.channelById id = none) (sized : Sized channel)
  | offered (absent : mux.channelById id = none) (sized : Sized channel)
      (within : channel.policy.maxMessageBytes ≤ localMaxMessageBytesCeiling channel.policy.cls)
  | applied (policy : ChannelPolicy) (call : event = .call (.applyChannelPolicy id policy))
      (sized : Sized channel)
      (within : channel.policy.maxMessageBytes ≤ AmpChannelLimits.kMaxBulkFrameBytes)

theorem KeepsLimits.source {mux after : ChannelMux (Logged τ)} (keeps : KeepsLimits mux after)
    (event : MuxEvent τ) {id : UInt32} {channel : ChannelRecord}
    (found : after.channelById id = some channel) : LimitSource mux event id channel := by
  obtain ⟨old, known, policy, limit⟩ := keeps id channel found
  exact .kept old known policy limit

/-- A record put in place, and those beside it. -/
theorem adoptHandlers_found {mux : ChannelMux τ} {record channel : ChannelRecord} {id : UInt32}
    (found : (mux.adoptHandlers record).channelById id = some channel) :
    id = record.id ∧ channel.policy = record.policy ∧ channel.reassembly = record.reassembly ∨
      mux.channelById id = some channel := by
  by_cases same : id = record.id
  · left
    subst same
    rw [adoptHandlers_channelById] at found
    cases found
    exact ⟨rfl, rfl, rfl⟩
  · right
    have other : (mux.adoptHandlers record).channelById id = mux.channelById id :=
      AList.lookup_insert_ne same
    rw [← other]
    exact found

section Sources

variable [MuxTransport τ] {mux : ChannelMux (Logged τ)} {id : UInt32} {channel : ChannelRecord}

theorem openOutbound_source {protocolId : Bytes} {policy : ChannelPolicy} {fixedId : Option UInt32}
    (found : (mux.openOutbound protocolId policy fixedId).1.channelById id = some channel) :
    LimitSource mux (.call (.openOutbound protocolId policy fixedId)) id channel := by
  obtain ⟨base, message, records, _, _, call⟩ := openOutbound_cases mux protocolId policy fixedId
  have before : base.channelById id = mux.channelById id := by
    unfold channelById
    rw [records.channels]
  rw [call] at found
  split at found
  · exact (KeepsLimits.of_channels records.channels).source _ found
  · rename_i absent
    unfold channelById at found
    rw [openAs_channels] at found
    rcases adoptHandlers_found found with ⟨named, same, limit⟩ | known
    · apply LimitSource.asked protocolId policy fixedId rfl
      · rw [named]
        exact Option.not_isSome_iff_eq_none.mp absent
      · unfold Sized
        rw [same, limit]
        rfl
    · rw [before] at known
      exact .kept channel known rfl rfl

theorem acceptedRecord_within (id : UInt32) (protocolId : Bytes) (cls : ChannelClass)
    (offered : Nat) : (acceptedRecord id protocolId cls offered).policy.maxMessageBytes ≤
      localMaxMessageBytesCeiling (acceptedRecord id protocolId cls offered).policy.cls := by
  have least : AmpChannelLimits.kMaxChatStreamJsonBytes ≤ localMaxMessageBytesCeiling cls := by
    unfold localMaxMessageBytesCeiling
    split <;> decide
  unfold acceptedRecord
  dsimp only
  split
  · exact Nat.min_le_right offered (localMaxMessageBytesCeiling cls)
  · exact least

theorem handleOpen_source (event : MuxEvent τ) {opened : UInt32} {protocolId : Bytes}
    {cls : ChannelClass} {offered : Nat}
    (found : (mux.handleOpen opened protocolId cls offered).1.channelById id = some channel) :
    LimitSource mux event id channel := by
  cases record : mux.channelById opened with
  | some held =>
      have same : (mux.handleOpen opened protocolId cls offered).1 = mux := by
        unfold handleOpen
        rw [record]
        rfl
      rw [same] at found
      exact (KeepsLimits.refl mux).source event found
  | none =>
      unfold channelById at found
      cases verdict : mux.openRefusal opened protocolId with
      | some result =>
          have kept := KeepsLimits.of_channels (handleOpen_refused cls offered record verdict)
          exact kept.source event found
      | none =>
          rw [(handleOpen_answers cls offered record verdict).1] at found
          rcases adoptHandlers_found found with ⟨named, policy, reassembly⟩ | known
          · apply LimitSource.offered
            · rw [named]
              exact record
            · unfold Sized
              rw [policy, reassembly]
              rfl
            · rw [policy]
              exact acceptedRecord_within opened protocolId cls offered
          · exact .kept channel known rfl rfl

theorem onFrameInbound_source (event : MuxEvent τ) {wire : Bytes}
    (found : (mux.onFrameInbound wire).1.channelById id = some channel) :
    LimitSource mux event id channel := by
  unfold onFrameInbound at found
  split at found
  · exact (KeepsLimits.refl mux).source event found
  · unfold dispatchFrame at found
    dsimp only at found
    split at found
    · exact handleOpen_source event found
    · exact (KeepsLimits.refl mux).source event found
    · exact (handleOpenAck_limits mux _ _).source event found
    · exact (handleEnd_limits mux _ _ _).source event found
    · exact (handleEnd_limits mux _ _ _).source event found
    · rename_i known
      exact (handleData_limits known _ _).source event found
    · rename_i known
      exact (handleFrag_limits known _ _).source event found

omit [MuxTransport τ] in
theorem applyChannelPolicy_source {tuned : UInt32} {policy : ChannelPolicy}
    (found : (mux.applyChannelPolicy tuned policy).1.channelById id = some channel) :
    LimitSource mux (.call (.applyChannelPolicy tuned policy)) id channel := by
  unfold applyChannelPolicy at found
  split at found
  · exact (KeepsLimits.refl mux).source _ found
  · rw [channelById_putChannel] at found
    split at found
    · rename_i same
      cases found
      subst same
      exact .applied policy rfl rfl (Nat.min_le_right _ _)
    · exact .kept channel found rfl rfl

/-- One event, and where it leaves a channel's limits. -/
def turn (mux : ChannelMux (Logged τ)) : MuxEvent τ → ChannelMux (Logged τ)
  | .call call => mux.answer call
  | .setHandlers protocolHandlers refuseUnhandledOpens => { mux with
      protocolHandlers := protocolHandlers
      refuseUnhandledOpens := refuseUnhandledOpens }

omit [MuxTransport τ] in
theorem setDataHandler_limits (mux : ChannelMux (Logged τ)) (id : UInt32) :
    KeepsLimits mux (mux.setDataHandler id) := by
  unfold setDataHandler
  split
  · rename_i known
    exact .put known rfl rfl
  · exact .of_channels rfl

omit [MuxTransport τ] in
theorem setTerminalHandler_limits (mux : ChannelMux (Logged τ)) (id : UInt32) :
    KeepsLimits mux (mux.setTerminalHandler id) := by
  unfold setTerminalHandler
  split
  · rename_i known
    exact .put known rfl rfl
  · exact .of_channels rfl

theorem turn_source (event : MuxEvent τ) (found : (mux.turn event).channelById id = some channel) :
    LimitSource mux event id channel := by
  cases event with
  | setHandlers protocolHandlers refuse => exact (KeepsLimits.of_channels rfl).source _ found
  | call call =>
      cases call with
      | sendData other payload => exact (sendData_limits mux other payload).source _ found
      | openOutbound protocolId policy fixedId => exact openOutbound_source found
      | closeChannel other reason => exact (closeChannel_limits mux other reason).source _ found
      | resetChannel other code => exact (resetChannel_limits mux other code).source _ found
      | onFrameInbound wire => exact onFrameInbound_source _ found
      | tick now => exact (tick_limits mux now).source _ found
      | detachAllChannels =>
          have kept : KeepsLimits mux (mux.mapChannels fun channel => { channel with
            state := .closed, onData := false, onTerminal := false }) := .map mux fun _ => ⟨rfl, rfl⟩
          exact (kept.trans (.of_channels rfl)).source _ found
      | setDataHandler other => exact (setDataHandler_limits mux other).source _ found
      | setTerminalHandler other => exact (setTerminalHandler_limits mux other).source _ found
      | applyChannelPolicy other policy => exact applyChannelPolicy_source found
      | setMaxFrameBytes bytes =>
          apply KeepsLimits.source _ _ found
          apply KeepsLimits.of_channels
          show (mux.setMaxFrameBytes bytes).1.channels = mux.channels
          unfold setMaxFrameBytes
          split <;> rfl
      | setTuning tuning => exact (KeepsLimits.of_channels rfl).source _ found
      | setClock now => exact (KeepsLimits.of_channels rfl).source _ found
      | transport inner => exact (KeepsLimits.of_channels rfl).source _ found

/-- A channel that is there all along a run. -/
def Stays (id : UInt32) (mux : ChannelMux (Logged τ)) (events : List (MuxEvent τ)) : Prop :=
  Run.Always turn (fun mux => (mux.channelById id).isSome = true) mux events

/-- No policy is applied to the channel. -/
def Untuned (id : UInt32) (events : List (MuxEvent τ)) : Prop :=
  ∀ policy, .call (.applyChannelPolicy id policy) ∉ events

theorem policy_stays (events : List (MuxEvent τ)) : ∀ {mux : ChannelMux (Logged τ)}
    {channel : ChannelRecord}, mux.channelById id = some channel → Stays id mux events →
    Untuned id events → ∃ last, (Run.exec turn mux events).channelById id = some last ∧
      last.policy = channel.policy := by
  induction events with
  | nil => exact fun found _ _ => ⟨_, found, rfl⟩
  | cons event rest ih =>
      intro mux channel found stays untuned
      obtain ⟨next, known⟩ := Option.isSome_iff_exists.mp stays.2.head
      have later : Untuned id rest := fun policy listed =>
        untuned policy (List.mem_cons_of_mem event listed)
      obtain ⟨last, reached, same⟩ := ih known stays.2 later
      refine ⟨last, reached, ?_⟩
      rw [same]
      rcases turn_source event known with ⟨old, held, policy, _⟩ | ⟨_, _, _, _, absent, _⟩ |
        ⟨absent, _, _⟩ | ⟨policy, call, _, _⟩
      · rw [found] at held
        cases held
        exact policy
      · rw [found] at absent
        cases absent
      · rw [found] at absent
        cases absent
      · rw [call] at untuned
        exact absurd List.mem_cons_self (untuned policy)

/-- What a frame gives to data handlers. -/
def hears (mux : ChannelMux (Logged τ)) (wire : Bytes) : List (UInt32 × Bytes) :=
  (mux.onFrameInbound wire).1.delivered.drop mux.delivered.length

/-- The limit of a channel that an inbound OPEN made is within the ceiling of its class. -/
def Ceilinged (mux : ChannelMux (Logged τ)) (wire : Bytes) (id : UInt32)
    (events : List (MuxEvent τ)) : Prop :=
  mux.channelById id = none → Stays id (mux.onFrameInbound wire).1 events →
    ∀ channel, (Run.exec turn (mux.onFrameInbound wire).1 events).channelById id = some channel →
      channel.policy.maxMessageBytes ≤ localMaxMessageBytesCeiling channel.policy.cls

/-- What the limits promise: a message put together from fragments is within that of its
channel; a channel that the peer opened has one within the ceiling of its class for as long
as none was applied here, and one that was applied is no more than a bulk message's. -/
structure LimitsKept (mux : ChannelMux (Logged τ)) : Prop where
  assembled : ∀ wire id seq frag, ChannelWire.decode wire = .ok ⟨id, seq, .frag frag⟩ →
    ∀ message ∈ mux.hears wire, message.1 = id ∧ ∃ channel,
      (mux.onFrameInbound wire).1.channelById id = some channel ∧
        message.2.length ≤ channel.policy.maxMessageBytes
  offered : ∀ wire id events, Untuned id events → mux.Ceilinged wire id events
  applied : ∀ id policy events, Untuned id events → Stays id (mux.applyChannelPolicy id policy).1 events →
    ∀ channel, (Run.exec turn (mux.applyChannelPolicy id policy).1 events).channelById id =
      some channel → channel.policy.maxMessageBytes ≤ AmpChannelLimits.kMaxBulkFrameBytes

theorem handleBadMessage_delivered (mux : ChannelMux (Logged τ)) (id : UInt32)
    (channel : ChannelRecord) : (mux.handleBadMessage id channel).delivered = mux.delivered := by
  have reset : (mux.resetChannel id 1).1.delivered = mux.delivered := by
    unfold resetChannel
    split
    · rfl
    · rename_i held _
      have sent := sendFrame_only (mux.dropQueued id) ⟨id, held.txSeq, .reset 1⟩ held.policy.cls
      have dropped : (mux.dropQueued id).delivered = mux.delivered := by
        unfold dropQueued
        split <;> rfl
      exact sent.delivered.trans dropped
  unfold handleBadMessage notifyTerminal
  split <;> exact reset

/-- A fragment gives its channel's handler nothing, or a message within the limit. -/
theorem handleFrag_delivered (mux : ChannelMux (Logged τ)) (id : UInt32) (sized : Sized channel)
    (seq : UInt32) (frag : ChannelFragBody) :
    (mux.handleFrag id seq channel frag).1.delivered = mux.delivered ∨
      ∃ message last, (mux.handleFrag id seq channel frag).1.delivered =
        mux.delivered ++ [(id, message)] ∧
        (mux.handleFrag id seq channel frag).1.channelById id = some last ∧
        message.length ≤ last.policy.maxMessageBytes := by
  unfold handleFrag
  split
  · exact Or.inl rfl
  · split
    · exact Or.inl rfl
    · dsimp only
      split
      · left
        rw [handleBadMessage_delivered]
        rfl
      · exact Or.inl rfl
      · rename_i message pushed
        obtain ⟨length, small⟩ := MessageReassembly.push_message pushed
        rw [← length, sized] at small
        unfold deliverPayload
        split
        · right
          have placed := channelById_putChannel mux id id { countFrame channel with
            reassembly := (channel.reassembly.push frag mux.nowMs).1 }
          rw [if_pos rfl] at placed
          exact ⟨message, _, rfl, placed, small⟩
        · exact Or.inl rfl

theorem hears_frag (sized : ∀ id channel, mux.channelById id = some channel → Sized channel)
    {wire : Bytes} {seq : UInt32} {frag : ChannelFragBody}
    (decoded : ChannelWire.decode wire = .ok ⟨id, seq, .frag frag⟩) :
    ∀ message ∈ mux.hears wire, message.1 = id ∧ ∃ channel,
      (mux.onFrameInbound wire).1.channelById id = some channel ∧
        message.2.length ≤ channel.policy.maxMessageBytes := by
  intro message heard
  unfold hears onFrameInbound at heard
  unfold onFrameInbound
  rw [decoded] at heard ⊢
  unfold dispatchFrame at heard ⊢
  dsimp only at heard ⊢
  cases record : mux.channelById id with
  | none =>
      rw [record] at heard
      simp at heard
  | some channel =>
      rw [record] at heard
      dsimp only at heard ⊢
      rcases handleFrag_delivered mux id (sized id channel record) seq frag with nothing |
        ⟨whole, last, delivered, found, small⟩
      · rw [nothing, List.drop_length] at heard
        cases heard
      · rw [delivered, List.drop_left] at heard
        cases List.mem_singleton.mp heard
        exact ⟨rfl, last, found, small⟩

omit [MuxTransport τ] in
theorem applyChannelPolicy_within {policy : ChannelPolicy}
    (found : (mux.applyChannelPolicy id policy).1.channelById id = some channel) :
    channel.policy.maxMessageBytes ≤ AmpChannelLimits.kMaxBulkFrameBytes := by
  unfold applyChannelPolicy at found
  split at found
  · rename_i absent
    rw [absent] at found
    cases found
  · rw [channelById_putChannel, if_pos rfl] at found
    cases found
    exact Nat.min_le_right _ _

/-- A mux with whatever settings and handlers, and no channel yet. -/
def channelless (mux : ChannelMux (Logged τ)) : ChannelMux (Logged τ) := { mux with channels := ∅ }

theorem turn_sized (mux : ChannelMux (Logged τ)) (event : MuxEvent τ)
    (sized : ∀ id channel, mux.channelById id = some channel → Sized channel) :
    ∀ id channel, (mux.turn event).channelById id = some channel → Sized channel := by
  intro id channel found
  rcases turn_source event found with ⟨old, known, policy, limit⟩ | ⟨_, _, _, _, _, own⟩ |
    ⟨_, own, _⟩ | ⟨_, _, own, _⟩
  · unfold Sized
    rw [policy, limit]
    exact sized id old known
  · exact own
  · exact own
  · exact own

/-- The limits are kept after any run of a mux, whatever its peer sends. -/
theorem run_limitsKept (mux : ChannelMux (Logged τ)) (history : List (MuxEvent τ)) :
    LimitsKept (Run.exec turn mux.channelless history) := by
  have sized := Run.invariant_always turn
    (fun mux => ∀ id channel, mux.channelById id = some channel → Sized channel) turn_sized history
    mux.channelless nofun
  generalize Run.exec turn mux.channelless history = reached at sized
  refine ⟨fun wire id seq frag => hears_frag sized, ?_, ?_⟩
  · intro wire id events untuned absent stays channel found
    obtain ⟨first, known⟩ := Option.isSome_iff_exists.mp stays.head
    obtain ⟨last, ending, same⟩ := policy_stays events known stays untuned
    rw [found] at ending
    cases ending
    rw [same]
    have source : LimitSource reached (.call (.onFrameInbound wire)) id first :=
      onFrameInbound_source _ known
    rcases source with ⟨old, held, _, _⟩ | ⟨_, _, _, call, _, _⟩ | ⟨_, _, within⟩ | ⟨_, call, _, _⟩
    · rw [absent] at held
      cases held
    · cases call
    · exact within
    · cases call
  · intro id policy events untuned stays channel found
    obtain ⟨first, known⟩ := Option.isSome_iff_exists.mp stays.head
    obtain ⟨last, ending, same⟩ := policy_stays events known stays untuned
    rw [found] at ending
    cases ending
    rw [same]
    exact applyChannelPolicy_within known

/-- A control channel that the peer opened, and a bulk limit applied to it here. -/
theorem run_limit_over_ceiling :
    ¬ Ceilinged (create true { inner := {} } : ChannelMux (Logged Pipe)) (wireOf (openFrame 2 [112] {}))
      2 [.call (.applyChannelPolicy 2 { maxMessageBytes := AmpChannelLimits.kMaxBulkFrameBytes })] := by
  intro ceilinged
  have policy : ((Run.exec turn ((create true { inner := {} } : ChannelMux (Logged Pipe)).onFrameInbound
      (wireOf (openFrame 2 [112] {}))).1 [.call (.applyChannelPolicy 2 {
        maxMessageBytes := AmpChannelLimits.kMaxBulkFrameBytes })]).channelById 2).map
          ChannelRecord.policy =
      some { cls := .control, maxMessageBytes := AmpChannelLimits.kMaxBulkFrameBytes } := by decide
  obtain ⟨channel, found, applied⟩ := Option.map_eq_some_iff.mp policy
  have within := ceilinged rfl (by unfold Stays; decide) channel found
  rw [applied] at within
  exact absurd within (by decide)

end Sources

end ChannelMux

end Amp
