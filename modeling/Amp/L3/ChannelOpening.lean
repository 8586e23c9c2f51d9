import Amp.L3.FragmentedSend

set_option autoImplicit false

/- What an open that fails leaves behind. -/
namespace Amp

open Adp (Bytes QosClass)

/-- A mux without a transport: every send fails. -/
instance {τ : Type} [MuxTransport τ] : MuxTransport (Option τ) where
  send transport qos wire :=
    match transport with
    | some transport => ((MuxTransport.send transport qos wire).map some id)
    | none => (none, .error "amp mux: no transport")
  credits transport := transport.elim 1 MuxTransport.credits

namespace ChannelMux

variable {τ : Type}

/-- The channels and the handlers that wait for theirs. -/
structure SameRecords (before after : ChannelMux τ) : Prop where
  channels : after.channels = before.channels
  pendingHandlers : after.pendingHandlers = before.pendingHandlers
  pendingTerminalHandlers : after.pendingTerminalHandlers = before.pendingTerminalHandlers

theorem SameRecords.refl (mux : ChannelMux τ) : SameRecords mux mux := ⟨rfl, rfl, rfl⟩

section Sending

variable [MuxTransport τ]

/-- Whether `SendWire` takes a frame: a reliable one that need not wait, if the transport
does, and one that has to, if there is room. -/
def Sendable (mux : ChannelMux τ) (id : UInt32) (qos : QosClass) (wire : Bytes) : Prop :=
  if qos ≠ .reliable then (MuxTransport.send mux.transport qos wire).2 = .ok ()
  else if (mux.flushQueued.queueOf id).isEmpty && mux.flushQueued.hasReliableCredit then
    (MuxTransport.send mux.flushQueued.transport .reliable wire).2 = .ok ()
  else mux.flushQueued.queuedBytes + wire.length ≤ mux.tuning.maxQueuedBytes

theorem flushQueued_outbox {mux after : ChannelMux τ} (same : after.outbox = mux.outbox) :
    after.flushQueued.outbox = mux.flushQueued.outbox := by
  have turns : after.turnsLeft = mux.turnsLeft := by
    have queues : after.sendQueues = mux.sendQueues := congrArg Outbox.sendQueues same
    have order : after.sendOrder = mux.sendOrder := congrArg Outbox.sendOrder same
    unfold turnsLeft queuedFrameCount
    rw [queues, order]
  show (flushTurns after.turnsLeft after).outbox = (flushTurns mux.turnsLeft mux).outbox
  rw [turns]
  exact flushTurns_outbox _ same

theorem Sendable.congr {mux after : ChannelMux τ} (same : after.outbox = mux.outbox)
    (tuning : after.tuning = mux.tuning) (id : UInt32) (qos : QosClass) (wire : Bytes) :
    after.Sendable id qos wire ↔ mux.Sendable id qos wire := by
  have flushed := flushQueued_outbox same
  have transport : after.transport = mux.transport := congrArg Outbox.transport same
  have later : after.flushQueued.transport = mux.flushQueued.transport :=
    congrArg Outbox.transport flushed
  have queues : after.flushQueued.sendQueues = mux.flushQueued.sendQueues :=
    congrArg Outbox.sendQueues flushed
  have bytes : after.flushQueued.queuedBytes = mux.flushQueued.queuedBytes :=
    congrArg Outbox.queuedBytes flushed
  unfold Sendable queueOf hasReliableCredit
  rw [transport, later, queues, bytes, tuning]

theorem sendWire_ok_iff (mux : ChannelMux τ) (id : UInt32) (qos : QosClass) (wire : Bytes) :
    (mux.sendWire id qos wire).2 = .ok () ↔ mux.Sendable id qos wire := by
  unfold sendWire Sendable
  split
  · rfl
  · rename_i reliable
    rw [not_not.mp reliable]
    dsimp only
    split
    · rfl
    · rw [mux.flushQueued_only.tuning]
      split
      · rename_i full
        constructor
        · exact nofun
        · intro room
          exact absurd full (Nat.not_lt.mpr room)
      · rename_i room
        exact ⟨fun _ => Nat.not_lt.mp room, fun _ => rfl⟩

theorem sendWire_only (mux : ChannelMux τ) (id : UInt32) (qos : QosClass) (wire : Bytes) :
    OnlyOutbox mux (mux.sendWire id qos wire).1 := by
  have flushed := mux.flushQueued_only
  unfold sendWire
  split
  · rfl
  · dsimp only
    split
    · exact flushed.trans rfl
    · split
      · exact flushed
      · exact flushed.trans rfl

theorem sendFrame_only (mux : ChannelMux τ) (frame : ChannelFrame) (cls : ChannelClass) :
    OnlyOutbox mux (mux.sendFrame frame cls).1 := by
  unfold sendFrame
  split
  · rfl
  · exact sendWire_only mux _ _ _

end Sending

/-- The id an outbound open takes. -/
def openId (mux : ChannelMux τ) (fixedId : Option UInt32) : UInt32 := fixedId.getD mux.allocateId.1

section Opens

variable [MuxTransport τ]

/-- The OPEN of an outbound channel can be made and sent. -/
def OpenSendable (mux : ChannelMux τ) (protocolId : Bytes) (policy : ChannelPolicy)
    (fixedId : Option UInt32) : Prop :=
  protocolId.length ≤ 0xFFFFFFFF ∧ mux.Sendable (mux.openId fixedId) (qosForClass policy.cls)
    (wireOf (openFrame (mux.openId fixedId) protocolId policy))

/-- An outbound open that fails leaves the records and the waiting handlers as they were. -/
def OpensCleanly (mux : ChannelMux τ) (protocolId : Bytes) (policy : ChannelPolicy)
    (fixedId : Option UInt32) : Prop :=
  ∀ error, (mux.openOutbound protocolId policy fixedId).2 = .error error →
    SameRecords mux (mux.openOutbound protocolId policy fixedId).1

/-- An inbound open whose answer cannot be sent leaves no open channel. -/
def AcceptsCleanly (mux : ChannelMux τ) (id : UInt32) (protocolId : Bytes) (cls : ChannelClass)
    (offered : Nat) : Prop :=
  mux.channelById id = none → ∀ error, (mux.handleOpen id protocolId cls offered).2 = .error error →
    (mux.handleOpen id protocolId cls offered).1.state id ≠ .opened

theorem encode_open_long (id : UInt32) {protocolId : Bytes} (policy : ChannelPolicy)
    (long : 0xFFFFFFFF < protocolId.length) :
    ChannelWire.encode (openFrame id protocolId policy) = .error "amp ch: string too long" := by
  unfold ChannelWire.encode openFrame ChannelWire.encodeBody ChannelWire.encodeLenUtf8Le
  dsimp only
  rw [if_pos long]

theorem encode_open (id : UInt32) {protocolId : Bytes} (policy : ChannelPolicy)
    (fits : protocolId.length ≤ 0xFFFFFFFF) : ChannelWire.encode (openFrame id protocolId policy) =
      .ok (wireOf (openFrame id protocolId policy)) := by
  have short : ¬ 0xFFFFFFFF < protocolId.length := Nat.not_lt.mpr fits
  unfold wireOf ChannelWire.encode openFrame ChannelWire.encodeBody ChannelWire.encodeLenUtf8Le
  dsimp only
  rw [if_neg short]

omit [MuxTransport τ] in
theorem adoptHandlers_channelById (mux : ChannelMux τ) (channel : ChannelRecord) :
    (mux.adoptHandlers channel).channelById channel.id = some { channel with
      onData := mux.pendingHandlers.contains channel.id
      onTerminal := mux.pendingTerminalHandlers.contains channel.id } :=
  AList.lookup_insert _

/-- The send after a record was put in place does what it would have done before. -/
theorem sendWire_adopted_iff (mux : ChannelMux τ) (channel : ChannelRecord) (id : UInt32)
    (qos : QosClass) (wire : Bytes) :
    ((mux.adoptHandlers channel).sendWire id qos wire).2 = .ok () ↔ mux.Sendable id qos wire := by
  have outbox : (mux.adoptHandlers channel).outbox = mux.outbox := rfl
  exact (sendWire_ok_iff _ id qos wire).trans (Sendable.congr outbox rfl id qos wire)

theorem openAs_channels (mux : ChannelMux τ) (id : UInt32) (protocolId : Bytes)
    (policy : ChannelPolicy) : (mux.openAs id protocolId policy).1.channels =
      (mux.adoptHandlers (openingRecord id protocolId policy)).channels := by
  have sent := sendFrame_only (mux.adoptHandlers (openingRecord id protocolId policy))
    (openFrame id protocolId policy) policy.cls
  rw [← sent.channels]
  unfold openAs
  dsimp only
  split <;> rename_i result <;> rw [result]

/-- `OpenOutbound` past its checks: the record is there whether or not the OPEN was sent. -/
theorem openAs_channelById (mux : ChannelMux τ) (id : UInt32) (protocolId : Bytes)
    (policy : ChannelPolicy) :
    ((mux.openAs id protocolId policy).1.channelById id).isSome = true := by
  unfold channelById
  rw [openAs_channels]
  have adopted := adoptHandlers_channelById mux (openingRecord id protocolId policy)
  exact Option.isSome_of_eq_some adopted

theorem openAs_ok_iff (mux : ChannelMux τ) (id : UInt32) (protocolId : Bytes)
    (policy : ChannelPolicy) : (∀ error, (mux.openAs id protocolId policy).2 ≠ .error error) ↔
      protocolId.length ≤ 0xFFFFFFFF ∧ mux.Sendable id (qosForClass policy.cls)
        (wireOf (openFrame id protocolId policy)) := by
  have outcome : (∀ error, (mux.openAs id protocolId policy).2 ≠ .error error) ↔
      ((mux.adoptHandlers (openingRecord id protocolId policy)).sendFrame
        (openFrame id protocolId policy) policy.cls).2 = .ok () := by
    unfold openAs
    dsimp only
    split <;> rename_i result <;> rw [result]
    · constructor
      · exact fun never => absurd rfl (never _)
      · exact nofun
    · exact ⟨fun _ => rfl, fun _ _ => nofun⟩
  rw [outcome]
  unfold sendFrame
  by_cases fits : protocolId.length ≤ 0xFFFFFFFF
  · rw [encode_open id policy fits]
    dsimp only
    have own : (openFrame id protocolId policy).channelId = id := rfl
    rw [own, sendWire_adopted_iff]
    exact ⟨fun sendable => ⟨fits, sendable⟩, fun both => both.2⟩
  · rw [encode_open_long id policy (Nat.lt_of_not_le fits)]
    constructor
    · exact nofun
    · exact fun both => absurd both.1 fits

/-- `OpenOutbound` but for the number it takes. -/
theorem openOutbound_cases (mux : ChannelMux τ) (protocolId : Bytes) (policy : ChannelPolicy)
    (fixedId : Option UInt32) : ∃ base : ChannelMux τ, ∃ message, SameRecords mux base ∧
      base.outbox = mux.outbox ∧ base.tuning = mux.tuning ∧
      mux.openOutbound protocolId policy fixedId =
        if (mux.channelById (mux.openId fixedId)).isSome then (base, .error message)
        else base.openAs (mux.openId fixedId) protocolId policy := by
  cases fixedId with
  | some id => exact ⟨mux, _, SameRecords.refl mux, rfl, rfl, rfl⟩
  | none => exact ⟨{ mux with nextDynamicId := mux.allocateId.2 }, _, ⟨rfl, rfl, rfl⟩, rfl, rfl, rfl⟩

/-- An outbound open is clean when its id is taken, so that nothing was tried, or
its OPEN is sent. -/
theorem opensCleanly_iff (mux : ChannelMux τ) (protocolId : Bytes) (policy : ChannelPolicy)
    (fixedId : Option UInt32) : mux.OpensCleanly protocolId policy fixedId ↔
      (mux.channelById (mux.openId fixedId)).isSome = true ∨
        mux.OpenSendable protocolId policy fixedId := by
  obtain ⟨base, message, records, outbox, tuning, call⟩ :=
    openOutbound_cases mux protocolId policy fixedId
  unfold OpensCleanly OpenSendable
  rw [call]
  by_cases taken : (mux.channelById (mux.openId fixedId)).isSome = true
  · rw [if_pos taken]
    exact ⟨fun _ => Or.inl taken, fun _ _ _ => records⟩
  · rw [if_neg taken]
    have sent := openAs_ok_iff base (mux.openId fixedId) protocolId policy
    rw [Sendable.congr outbox tuning] at sent
    rw [← sent]
    constructor
    · intro clean
      right
      intro error failed
      have added := openAs_channelById base (mux.openId fixedId) protocolId policy
      unfold channelById at added taken
      rw [(clean error failed).channels] at added
      exact taken added
    · rintro (found | sendable) error failed
      · exact absurd found taken
      · exact absurd failed (sendable error)

omit [MuxTransport τ] in
theorem state_of_absent {mux : ChannelMux τ} {id : UInt32} (absent : mux.channelById id = none) :
    mux.state id ≠ .opened := by
  unfold state
  rw [absent]
  exact nofun

/-- An inbound open past its checks puts its record in place and answers. -/
theorem handleOpen_answers {mux : ChannelMux τ} {id : UInt32} {protocolId : Bytes}
    (cls : ChannelClass) (offered : Nat) (absent : mux.channelById id = none)
    (accepted : mux.openRefusal id protocolId = none) :
    (mux.handleOpen id protocolId cls offered).1.channels =
        (mux.adoptHandlers (acceptedRecord id protocolId cls offered)).channels ∧
      (mux.handleOpen id protocolId cls offered).2 =
        ((mux.adoptHandlers (acceptedRecord id protocolId cls offered)).sendFrame
          (ackFrame id 0) cls).2 := by
  have sent := sendFrame_only (mux.adoptHandlers (acceptedRecord id protocolId cls offered))
    (ackFrame id 0) cls
  rw [← sent.channels]
  unfold handleOpen
  simp only [absent, accepted, Option.isSome_none, Bool.false_eq_true, if_false]
  split <;> rename_i result <;> rw [result]
  · exact ⟨rfl, rfl⟩
  · refine ⟨?_, rfl⟩
    unfold noteInboundOpen
    split <;> rfl

/-- Its record stays, open, whether or not the ack was sent. -/
theorem handleOpen_accepted {mux : ChannelMux τ} {id : UInt32} {protocolId : Bytes}
    (cls : ChannelClass) (offered : Nat) (absent : mux.channelById id = none)
    (accepted : mux.openRefusal id protocolId = none) :
    (mux.handleOpen id protocolId cls offered).1.state id = .opened ∧
      ((mux.handleOpen id protocolId cls offered).2 = .ok () ↔
        mux.Sendable id (qosForClass cls) (wireOf (ackFrame id 0))) := by
  have outcome : ((mux.adoptHandlers (acceptedRecord id protocolId cls offered)).sendFrame
      (ackFrame id 0) cls).2 = .ok () ↔
        mux.Sendable id (qosForClass cls) (wireOf (ackFrame id 0)) := sendWire_adopted_iff _ _ _ _ _
  have record : ∃ channel, (mux.adoptHandlers
      (acceptedRecord id protocolId cls offered)).channels.lookup id = some channel ∧
        channel.state = .opened := ⟨_, adoptHandlers_channelById mux _, rfl⟩
  obtain ⟨channels, answer⟩ := handleOpen_answers cls offered absent accepted
  obtain ⟨channel, found, opened⟩ := record
  rw [answer]
  refine ⟨?_, outcome⟩
  unfold state channelById
  rw [channels, found]
  exact opened

theorem handleOpen_refused {mux : ChannelMux τ} {id : UInt32} {protocolId : Bytes} {result : UInt8}
    (cls : ChannelClass) (offered : Nat) (absent : mux.channelById id = none)
    (refused : mux.openRefusal id protocolId = some result) :
    (mux.handleOpen id protocolId cls offered).1.channels = mux.channels := by
  have sent := sendFrame_only { mux with
    pendingTerminalHandlers := mux.pendingTerminalHandlers.filter (· ≠ id) } (ackFrame id result) cls
  have call : mux.handleOpen id protocolId cls offered = mux.refuseOpen id cls result := by
    unfold handleOpen
    rw [absent, refused]
    rfl
  rw [call]
  exact sent.channels

/-- An inbound open is clean when it is a duplicate or refused, or its OPEN_ACK is sent. -/
theorem acceptsCleanly_iff (mux : ChannelMux τ) (id : UInt32) (protocolId : Bytes)
    (cls : ChannelClass) (offered : Nat) : mux.AcceptsCleanly id protocolId cls offered ↔
      (mux.channelById id).isSome = true ∨ (mux.openRefusal id protocolId).isSome = true ∨
        mux.Sendable id (qosForClass cls) (wireOf (ackFrame id 0)) := by
  unfold AcceptsCleanly
  cases record : mux.channelById id with
  | some channel => exact ⟨fun _ => Or.inl rfl, nofun⟩
  | none =>
      cases verdict : mux.openRefusal id protocolId with
      | some result =>
          have left : (mux.handleOpen id protocolId cls offered).1.channelById id = none := by
            unfold channelById
            rw [handleOpen_refused cls offered record verdict]
            exact record
          exact ⟨fun _ => Or.inr (Or.inl rfl), fun _ _ _ _ => state_of_absent left⟩
      | none =>
          obtain ⟨opened, sent⟩ := handleOpen_accepted cls offered record verdict
          rw [← sent]
          constructor
          · intro clean
            cases outcome : (mux.handleOpen id protocolId cls offered).2 with
            | ok _ => exact Or.inr (Or.inr rfl)
            | error message => exact absurd opened (clean rfl message outcome)
          · rintro (found | refused | ok) _ error failed
            · cases found
            · cases refused
            · rw [ok] at failed
              cases failed

/-- A failed open leaves no trace exactly when it was turned down at once, or does not fail:
a channel whose OPEN or OPEN_ACK could not be sent keeps its record. -/
theorem openOutbound_handleOpen_clean_iff (mux : ChannelMux τ) (protocolId : Bytes)
    (policy : ChannelPolicy) (fixedId : Option UInt32) (id : UInt32) (cls : ChannelClass)
    (offered : Nat) :
    (mux.OpensCleanly protocolId policy fixedId ↔
      (mux.channelById (mux.openId fixedId)).isSome = true ∨
        mux.OpenSendable protocolId policy fixedId) ∧
    (mux.AcceptsCleanly id protocolId cls offered ↔
      (mux.channelById id).isSome = true ∨ (mux.openRefusal id protocolId).isSome = true ∨
        mux.Sendable id (qosForClass cls) (wireOf (ackFrame id 0))) :=
  ⟨opensCleanly_iff mux protocolId policy fixedId, acceptsCleanly_iff mux id protocolId cls offered⟩

/-- A channel of the full queue's mux: the OPEN is refused and the channel stays. -/
theorem openOutbound_leaves_channel : ¬ (crowded 10).OpensCleanly [112] {} (some 3) := by
  intro clean
  have failed : ((crowded 10).openOutbound [112] {} (some 3)).2 =
      .error "amp mux: send queue full" := by decide
  have same := (clean _ failed).channels
  have count := congrArg (fun channels => channels.entries.length) same
  exact absurd count (by decide)

example : ((create true (none : Option Pipe)).openOutbound [112] {} none).2 =
    .error "amp mux: no transport" := by decide

end Opens

end ChannelMux

end Amp
