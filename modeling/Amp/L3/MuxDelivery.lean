import Amp.Lib.Duplex
import Amp.Lib.Run
import Amp.L3.MuxDispatch
import Amp.L3.SendQueue

set_option autoImplicit false

/- Two muxes joined by a transport that takes every frame and delivers the
reliable ones in order, each once. On a reliable channel the payloads delivered
are the first ones of those accepted. -/
namespace Amp

open Adp (Bytes QosClass)
open Duplex (Side Ends)

namespace ChannelMux

/-- What `SendWire` checks of a reliable frame, once the queues are flushed. -/
def takesWire (mux : ChannelMux Pipe) (id : UInt32) (wire : Bytes) : Bool :=
  let mux := mux.flushQueued
  ((mux.queueOf id).isEmpty && mux.hasReliableCredit) ||
    decide (mux.queuedBytes + wire.length ≤ mux.tuning.maxQueuedBytes)

/-- The Close of this reason can be encoded and finds room. -/
def takesClose (mux : ChannelMux Pipe) (id : UInt32) (channel : ChannelRecord) (reason : Bytes) :
    Bool :=
  match ChannelWire.encode ⟨id, channel.txSeq, .close reason⟩ with
  | .ok wire => mux.takesWire id wire
  | .error _ => false

def withChannels (mux : ChannelMux Pipe) (channels : AList (fun _ : UInt32 => ChannelRecord)) :
    ChannelMux Pipe :=
  { mux with channels := channels }

theorem flushQueued_withChannels (mux : ChannelMux Pipe)
    (channels : AList (fun _ : UInt32 => ChannelRecord)) :
    (mux.withChannels channels).flushQueued = mux.flushQueued.withChannels channels := by
  have alone : flushTurns mux.turnsLeft (mux.withChannels channels) =
      (mux.withChannels channels).withOutbox (flushTurns mux.turnsLeft mux).outbox :=
    flushTurns_congr _ rfl
  have flushed : mux.flushQueued = mux.withOutbox (flushTurns mux.turnsLeft mux).outbox :=
    mux.flushQueued_only
  rw [flushed]
  exact alone

theorem takesWire_withChannels (mux : ChannelMux Pipe)
    (channels : AList (fun _ : UInt32 => ChannelRecord)) (id : UInt32) (wire : Bytes) :
    (mux.withChannels channels).takesWire id wire = mux.takesWire id wire := by
  unfold takesWire
  rw [flushQueued_withChannels]
  rfl

theorem sendWire_ok {mux : ChannelMux Pipe} {id : UInt32} {wire : Bytes}
    (takes : mux.takesWire id wire = true) :
    (mux.sendWire id .reliable wire).2 = .ok () := by
  unfold takesWire at takes
  unfold sendWire
  rw [if_neg (fun differs => differs rfl)]
  dsimp only at takes ⊢
  rcases Bool.or_eq_true_iff.mp takes with direct | room
  · rw [if_pos direct]
    rfl
  · split
    · rfl
    · rw [if_neg (Nat.not_lt.mpr (of_decide_eq_true room))]

theorem closeChannel_ok {mux : ChannelMux Pipe} {id : UInt32} {channel : ChannelRecord}
    (found : mux.channelById id = some channel)
    (reliable : qosForClass channel.policy.cls = .reliable) (reason : Bytes)
    (takes : mux.takesClose id channel reason = true) :
    (mux.closeChannel id reason).2.isOk = true := by
  unfold takesClose at takes
  split at takes
  · rename_i wire encoded
    unfold closeChannel
    rw [found]
    dsimp only
    unfold sendFrame
    rw [encoded]
    dsimp only
    rw [reliable]
    have same := takesWire_withChannels mux (mux.channels.insert id
      { channel with txSeq := nextSeq channel.txSeq, state := .closing }) id wire
    have sent := sendWire_ok (same.trans takes)
    exact congrArg Except.isOk sent
  · cases takes

end ChannelMux

namespace MuxEnd

open ChannelMux

def viewOn (this : MuxEnd) (id : UInt32) : View := this.mux.view id (entriesOn id this.accepted)

/-- `OpenOutbound` would record the channel. -/
def records (this : MuxEnd) (id : UInt32) (fixedId : Option UInt32) : Prop :=
  nextId this.mux fixedId = id ∧ this.mux.channelById id = none

/-- What a call may not do to the channel: be refused for a full queue, or sweep a
partial message of it. -/
def Allows (this : MuxEnd) (id : UInt32) : Event → Prop
  | .openOutbound _ policy fixedId => this.records id fixedId → qosForClass policy.cls = .reliable
  | .sendData other payload => other = id →
      (this.mux.sendData id payload).2 ≠ .error "amp mux: send queue full"
  | .tick now => ∀ channel, this.mux.channelById id = some channel →
      ∀ entry ∈ channel.reassembly.partials.entries, MessageReassembly.expired now
        (sweepTimeoutMs this.mux.tuning channel) entry.2 = false
  | _ => True

/-- A Close called while the channel still opens can leave. -/
def ClosesWell (this : MuxEnd) (id : UInt32) : Event → Prop
  | .closeChannel other reason => other = id → ∀ channel, this.mux.channelById id = some channel →
      channel.state = .opening → this.mux.takesClose id channel reason = true
  | _ => True

instance (this : MuxEnd) (id : UInt32) (fixedId : Option UInt32) :
    Decidable (this.records id fixedId) :=
  inferInstanceAs (Decidable (_ ∧ _))

instance (id : UInt32) (this : MuxEnd) : (event : Event) → Decidable (this.Allows id event)
  | .openOutbound _ policy fixedId =>
      inferInstanceAs (Decidable (this.records id fixedId → qosForClass policy.cls = .reliable))
  | .sendData other payload =>
      inferInstanceAs (Decidable (other = id →
        (this.mux.sendData id payload).2 ≠ .error "amp mux: send queue full"))
  | .tick now =>
      inferInstanceAs (Decidable (∀ channel ∈ this.mux.channelById id,
        ∀ entry ∈ channel.reassembly.partials.entries, MessageReassembly.expired now
          (sweepTimeoutMs this.mux.tuning channel) entry.2 = false))
  | .closeChannel .. | .resetChannel .. | .flushQueued | .setDataHandler _ | .setTerminalHandler _
  | .setMaxFrameBytes _ | .clock _ | .credits _ => inferInstanceAs (Decidable True)

instance (id : UInt32) (this : MuxEnd) : (event : Event) → Decidable (this.ClosesWell id event)
  | .closeChannel other reason =>
      inferInstanceAs (Decidable (other = id → ∀ channel ∈ this.mux.channelById id,
        channel.state = .opening → this.mux.takesClose id channel reason = true))
  | .openOutbound .. | .sendData .. | .resetChannel .. | .flushQueued | .tick _ | .setDataHandler _
  | .setTerminalHandler _ | .setMaxFrameBytes _ | .clock _ | .credits _ =>
      inferInstanceAs (Decidable True)

/-- The call opens the channel. -/
def Calls (this : MuxEnd) (id : UInt32) : Event → Prop
  | .openOutbound _ _ fixedId => this.records id fixedId
  | _ => False

instance (this : MuxEnd) (id : UInt32) : (event : Event) → Decidable (this.Calls id event)
  | .openOutbound _ _ fixedId => inferInstanceAs (Decidable (this.records id fixedId))
  | .sendData .. | .closeChannel .. | .resetChannel .. | .flushQueued | .tick _ | .setDataHandler _
  | .setTerminalHandler _ | .setMaxFrameBytes _ | .clock _ | .credits _ =>
      inferInstanceAs (Decidable False)

/-- A call is a move of the channel, or opens it. -/
inductive Acts (id : UInt32) (this after : MuxEnd) (calling : Prop) : Prop where
  | moves (steady : after.mux.Steady id) (move : View.Move (this.viewOn id) (after.viewOn id))
      (opened : id ∈ after.opened ↔ id ∈ this.opened)
  | opens (face : Face) (calls : List ChannelFrame)
      (opens : Opens id this.mux after.mux face calls) (mine : calling)
      (accepted : after.accepted = this.accepted) (opened : id ∈ after.opened)

theorem acts_of_moves {id : UInt32} {this : MuxEnd} {after : ChannelMux Pipe} {calling : Prop}
    (moves : this.mux.Moves id (entriesOn id this.accepted) after) :
    Acts id this (this.onMux after) calling :=
  .moves moves.1 moves.2 Iff.rfl

theorem openOutbound_acts {id : UInt32} {this : MuxEnd} (steady : this.mux.Steady id)
    (protocolId : Bytes) (policy : ChannelPolicy) (fixedId : Option UInt32)
    (reliable : this.records id fixedId → qosForClass policy.cls = .reliable) :
    Acts id this (this.openOutbound protocolId policy fixedId) (this.records id fixedId) := by
  by_cases mine : this.records id fixedId
  · obtain ⟨face, calls, opens⟩ := openOutbound_opens steady protocolId policy fixedId
      (reliable mine) mine.1 mine.2
    refine .opens face calls opens mine rfl ?_
    unfold openOutbound
    dsimp only
    rw [mine.1, mine.2]
    exact List.mem_append_right _ (List.mem_singleton.mpr rfl)
  · have other : nextId this.mux fixedId ≠ id ∨
        (this.mux.channelById (nextId this.mux fixedId)).isSome = true := by
      by_cases named : nextId this.mux fixedId = id
      · refine Or.inr ?_
        rw [named]
        exact Option.isSome_iff_ne_none.mpr fun absent => mine ⟨named, absent⟩
      · exact Or.inl named
    have aside := openOutbound_aside steady.tidy protocolId policy fixedId other
    have moves := aside.moves steady (entriesOn id this.accepted)
    refine .moves moves.1 moves.2 ?_
    unfold openOutbound
    dsimp only
    split
    · exact Iff.rfl
    · rename_i unknown
      rw [List.mem_append, List.mem_singleton]
      have differs : id ≠ nextId this.mux fixedId := fun same =>
        (other.resolve_right unknown) same.symm
      exact ⟨fun member => member.resolve_right differs, Or.inl⟩

theorem sendData_acts {id : UInt32} {this : MuxEnd} (steady : this.mux.Steady id) (other : UInt32)
    (payload : Bytes) (roomy : other = id →
      (this.mux.sendData id payload).2 ≠ .error "amp mux: send queue full") :
    Acts id this (this.sendData other payload) False := by
  by_cases mine : other = id
  · subst mine
    obtain ⟨kept, move⟩ := sendData_move steady payload (entriesOn other this.accepted) (roomy rfl)
    refine .moves kept ?_ Iff.rfl
    unfold viewOn MuxEnd.sendData
    dsimp only
    split at move
    · rename_i ok
      rw [if_pos ok, entriesOn_append, entriesOn_singleton, if_pos rfl]
      exact move
    · rename_i refused
      rw [if_neg refused]
      exact move
  · have aside := sendData_aside steady.tidy mine steady.msgId payload
    have moves := aside.moves steady (entriesOn id this.accepted)
    refine .moves moves.1 ?_ Iff.rfl
    have accepted : entriesOn id (this.sendData other payload).accepted =
        entriesOn id this.accepted := by
      unfold MuxEnd.sendData
      dsimp only
      split
      · rw [entriesOn_append, entriesOn_singleton, if_neg mine, List.append_nil]
      · rfl
    unfold viewOn
    rw [accepted]
    exact moves.2

theorem sweepChannel_spared {tuning : MuxTuning} {now : Int} {channel : ChannelRecord}
    (spared : ∀ entry ∈ channel.reassembly.partials.entries,
      MessageReassembly.expired now (sweepTimeoutMs tuning channel) entry.2 = false) :
    sweepChannel tuning now channel = channel := by
  have kept : channel.reassembly.sweepExpired now (sweepTimeoutMs tuning channel) =
      channel.reassembly := by
    have same : (channel.reassembly.partials.entries.filter fun entry =>
        !MessageReassembly.expired now (sweepTimeoutMs tuning channel) entry.2) =
          channel.reassembly.partials.entries := by
      refine List.filter_eq_self.mpr fun entry member => ?_
      rw [spared entry member]
      rfl
    unfold MessageReassembly.sweepExpired
    congr
  unfold sweepChannel
  rw [kept]

/-- One call of an end, as one channel sees it. -/
theorem step_acts {id : UInt32} {this : MuxEnd} (steady : this.mux.Steady id) (event : Event)
    (allows : this.Allows id event) (closes : this.ClosesWell id event) :
    Acts id this (this.step event) (this.Calls id event) := by
  cases event with
  | openOutbound protocolId policy fixedId =>
      exact openOutbound_acts steady protocolId policy fixedId allows
  | sendData other payload => exact sendData_acts steady other payload allows
  | closeChannel other reason =>
      refine acts_of_moves ?_
      by_cases mine : other = id
      · subst mine
        refine closeChannel_move steady reason _ fun channel found opening => ?_
        exact closeChannel_ok found (steady.reliable channel found) reason
          (closes rfl channel found opening)
      · exact (closeChannel_aside steady.tidy mine reason).moves steady _
  | resetChannel other code =>
      refine acts_of_moves ?_
      by_cases mine : other = id
      · subst mine
        exact resetChannel_move steady code _
      · exact (resetChannel_aside steady.tidy mine code).moves steady _
  | flushQueued => exact acts_of_moves (flushQueued_move steady _)
  | tick now =>
      refine acts_of_moves (tick_move steady now _ fun channel found => ?_)
      exact sweepChannel_spared (allows channel found)
  | setDataHandler other =>
      refine acts_of_moves ?_
      by_cases mine : other = id
      · subst mine
        exact setDataHandler_move steady _
      · exact (setDataHandler_aside steady.tidy mine).moves steady _
  | setTerminalHandler other =>
      refine acts_of_moves ?_
      by_cases mine : other = id
      · subst mine
        exact setTerminalHandler_move steady _
      · refine Aside.moves ?_ steady _
        unfold setTerminalHandler
        split
        · exact putChannel_aside steady.tidy mine _
        · exact ⟨rfl, rfl, ⟨steady.tidy.queued, steady.tidy.loose⟩, rfl, rfl, rfl, fun fits => fits⟩
  | setMaxFrameBytes bytes => exact acts_of_moves (setMaxFrameBytes_move steady bytes _)
  | clock now =>
      refine acts_of_moves (Aside.moves ?_ steady _)
      exact ⟨rfl, rfl, ⟨steady.tidy.queued, steady.tidy.loose⟩, rfl, rfl, rfl, fun fits => fits⟩
  | credits allowance =>
      refine acts_of_moves (Aside.moves ?_ steady _)
      exact ⟨rfl, rfl, ⟨steady.tidy.queued, steady.tidy.loose⟩, rfl, rfl, rfl, fun fits => fits⟩

theorem step_faults (this : MuxEnd) (event : Event) : (this.step event).faults = this.faults := by
  cases event <;> rfl

/-- The end after the transport handed its first reliable frame over. -/
def handOver (this : MuxEnd) (rest : List Bytes) : MuxEnd :=
  this.onMux { this.mux with transport := { this.mux.transport with flying := rest } }

/-- A mux as it is built, with its tuning, protocol handlers and credits. -/
def create (initiator : Bool) (tuning : MuxTuning) (protocolHandlers : List Bytes)
    (refuseUnhandledOpens : Bool) (allowance : Nat → Nat) : MuxEnd where
  mux := { ChannelMux.create initiator ({ allowance := allowance } : Pipe) with
    tuning := tuning
    protocolHandlers := protocolHandlers
    refuseUnhandledOpens := refuseUnhandledOpens }

end MuxEnd

namespace MuxPair

open ChannelMux

/-- What happens at one end: a call, or a frame of the other end's: the next
reliable one, or any best-effort one it has sent. -/
inductive Action where
  | call (event : MuxEnd.Event)
  | deliver
  | deliverLoose (index : Nat)

def step (ends : Ends MuxEnd) (act : Side × Action) : Ends MuxEnd :=
  match act.2 with
  | .call event => ends.put act.1 ((ends.endAt act.1).step event)
  | .deliver =>
      match (ends.endAt act.1.other).mux.transport.flying with
      | [] => ends
      | wire :: rest =>
          (ends.put act.1.other ((ends.endAt act.1.other).handOver rest)).put act.1
            ((ends.endAt act.1).receive wire)
  | .deliverLoose index =>
      match (ends.endAt act.1.other).mux.transport.loose[index]? with
      | none => ends
      | some wire => ends.put act.1 ((ends.endAt act.1).receive wire)

/-- The sender's limit is within the receiver's, and an open receiver has a data
handler. -/
structure Suits (id : UInt32) (sender receiver : MuxEnd) : Prop where
  limits : ∀ own far, sender.mux.channelById id = some own → receiver.mux.channelById id = some far →
    own.policy.maxMessageBytes ≤ far.policy.maxMessageBytes
  bound : ∀ far, receiver.mux.channelById id = some far → far.state = .opened → far.onData = true

/-- A step that the channel from `side` to the other end allows: it is opened
once, as a reliable one, and each call at either end is an allowed one. -/
structure Allowed (id : UInt32) (side : Side) (ends : Ends MuxEnd) (act : Side × Action) : Prop where
  suits : Suits id (ends.endAt side) (ends.endAt side.other)
  allows : ∀ event, act.2 = .call event → (ends.endAt act.1).Allows id event
  once : ∀ event, act.2 = .call event → (ends.endAt act.1).Calls id event →
    id ∉ (ends.endAt side).opened ∧ id ∉ (ends.endAt side.other).opened

/-- The step is no call of `CloseChannel` that loses the Close of an opening channel. -/
def KeepsClose (id : UInt32) (ends : Ends MuxEnd) (act : Side × Action) : Prop :=
  ∀ event, act.2 = .call event → (ends.endAt act.1).ClosesWell id event

/-- The payloads the receiver's handler got are the first of those the sender's
`SendData` took, and no frame of the channel was found out of order or broken. -/
def InOrder (id : UInt32) (side : Side) (ends : Ends MuxEnd) : Prop :=
  entriesOn id (ends.endAt side.other).mux.delivered <+: entriesOn id (ends.endAt side).accepted ∧
    ∀ message ∈ streamFaults, (id, message) ∉ (ends.endAt side.other).faults

section Decidable

variable (id : UInt32)

instance (sender receiver : MuxEnd) : Decidable (Suits id sender receiver) :=
  decidable_of_iff
    ((∀ own ∈ sender.mux.channelById id, ∀ far ∈ receiver.mux.channelById id,
        own.policy.maxMessageBytes ≤ far.policy.maxMessageBytes) ∧
      ∀ far ∈ receiver.mux.channelById id, far.state = .opened → far.onData = true)
    ⟨fun both => ⟨fun own far here there => both.1 own here far there, both.2⟩,
      fun suits => ⟨fun own here far there => suits.limits own far here there, suits.bound⟩⟩

/-- A condition on the call of an action, if it is one. -/
def OnCall (condition : MuxEnd.Event → Prop) : Action → Prop
  | .call event => condition event
  | .deliver | .deliverLoose _ => True

instance (condition : MuxEnd.Event → Prop) [DecidablePred condition] :
    (action : Action) → Decidable (OnCall condition action)
  | .call event => inferInstanceAs (Decidable (condition event))
  | .deliver | .deliverLoose _ => inferInstanceAs (Decidable True)

theorem onCall_iff (condition : MuxEnd.Event → Prop) (action : Action) :
    OnCall condition action ↔ ∀ event, action = .call event → condition event := by
  cases action <;> simp [OnCall]

instance (side : Side) (ends : Ends MuxEnd) (act : Side × Action) :
    Decidable (Allowed id side ends act) :=
  decidable_of_iff
    (Suits id (ends.endAt side) (ends.endAt side.other) ∧
      OnCall ((ends.endAt act.1).Allows id) act.2 ∧
      OnCall (fun event => (ends.endAt act.1).Calls id event →
        id ∉ (ends.endAt side).opened ∧ id ∉ (ends.endAt side.other).opened) act.2)
    ⟨fun parts => ⟨parts.1, (onCall_iff _ _).mp parts.2.1, (onCall_iff _ _).mp parts.2.2⟩,
      fun allowed => ⟨allowed.suits, (onCall_iff _ _).mpr allowed.allows,
        (onCall_iff _ _).mpr allowed.once⟩⟩

instance (ends : Ends MuxEnd) (act : Side × Action) : Decidable (KeepsClose id ends act) :=
  decidable_of_iff (OnCall ((ends.endAt act.1).ClosesWell id) act.2) (onCall_iff _ _)

instance (side : Side) (ends : Ends MuxEnd) : Decidable (InOrder id side ends) :=
  inferInstanceAs (Decidable (_ ∧ _))

end Decidable

/-- Nothing has happened on the channel yet. -/
structure Blank (view : View) : Prop where
  record : view.record = none
  line : view.line = []
  accepted : view.accepted = []
  delivered : view.delivered = []

theorem Blank.move {view after : View} (blank : Blank view) (move : View.Move view after) :
    Blank after := by
  have absent := blank.record
  cases move with
  | stay => exact blank
  | bind => exact ⟨by dsimp only; rw [absent]; rfl, blank.line, blank.accepted, blank.delivered⟩
  | say face _ _ _ found => simp [absent] at found
  | close face _ _ found => simp [absent] at found
  | closeLost face _ found => simp [absent] at found
  | drop line present => simp [absent] at present

/-- What relates the two ends of the channel in every state. -/
structure Linked (id : UInt32) (sender receiver : MuxEnd) : Prop where
  joined : View.Joined (sender.viewOn id) (receiver.viewOn id)
  sending : sender.mux.Steady id
  receiving : receiver.mux.Steady id
  fresh : id ∉ sender.opened → id ∉ receiver.opened →
    Blank (sender.viewOn id) ∧ Blank (receiver.viewOn id)
  sound : ∀ message ∈ streamFaults, (id, message) ∉ receiver.faults

theorem opens_view {id : UInt32} {this after : MuxEnd} {face : Face} {calls : List ChannelFrame}
    (opens : Opens id this.mux after.mux face calls) (accepted : after.accepted = this.accepted) :
    after.viewOn id = { this.viewOn id with
      record := some face, line := (this.viewOn id).line ++ calls } := by
  unfold MuxEnd.viewOn
  rw [opens.view, accepted]
  rfl

theorem Linked.safe {id : UInt32} {sender receiver : MuxEnd} (linked : Linked id sender receiver) :
    entriesOn id receiver.mux.delivered <+: entriesOn id sender.accepted :=
  linked.joined.safe

section Calls

variable {id : UInt32} {sender receiver after : MuxEnd} {calling : Prop}

theorem Suits.faces (suits : Suits id sender receiver) : ∀ own face,
    (sender.viewOn id).record = some own → (receiver.viewOn id).record = some face →
      own.policy.maxMessageBytes ≤ face.policy.maxMessageBytes := by
  intro own face here there
  obtain ⟨near, found, rfl⟩ := Option.map_eq_some_iff.mp here
  obtain ⟨far, known, rfl⟩ := Option.map_eq_some_iff.mp there
  exact suits.limits near far found known

theorem Suits.listening (suits : Suits id sender receiver) : ∀ face,
    (receiver.viewOn id).record = some face → face.state = .opened → face.onData = true := by
  intro face there opened
  obtain ⟨far, known, rfl⟩ := Option.map_eq_some_iff.mp there
  exact suits.bound far known opened

theorem Linked.sender_acts (linked : Linked id sender receiver)
    (acts : MuxEnd.Acts id sender after calling) (suits : Suits id sender receiver)
    (once : calling → id ∉ sender.opened ∧ id ∉ receiver.opened) : Linked id after receiver := by
  cases acts with
  | moves steady move opened =>
      refine ⟨linked.joined.sender_move move suits.faces, steady, linked.receiving, ?_, linked.sound⟩
      intro unopened others
      obtain ⟨own, far⟩ := linked.fresh (fun member => unopened (opened.mpr member)) others
      exact ⟨own.move move, far⟩
  | opens face calls opens mine accepted opened =>
      obtain ⟨own, far⟩ := linked.fresh (once mine).1 (once mine).2
      refine ⟨?_, opens.steady, linked.receiving, fun unopened => absurd opened unopened,
        linked.sound⟩
      rw [opens_view opens accepted]
      exact .sender_opens far.record own.line far.line own.accepted far.delivered face
        opens.opening opens.first calls opens.one

theorem Linked.receiver_acts (linked : Linked id sender receiver)
    (acts : MuxEnd.Acts id receiver after calling) (same : after.faults = receiver.faults)
    (once : calling → id ∉ sender.opened ∧ id ∉ receiver.opened) : Linked id sender after := by
  have sound : ∀ message ∈ streamFaults, (id, message) ∉ after.faults := by
    rw [same]
    exact linked.sound
  cases acts with
  | moves steady move opened =>
      refine ⟨linked.joined.receiver_move move, linked.sending, steady, ?_, sound⟩
      intro others unopened
      obtain ⟨far, own⟩ := linked.fresh others (fun member => unopened (opened.mpr member))
      exact ⟨far, own.move move⟩
  | opens face calls opens mine accepted opened =>
      obtain ⟨far, own⟩ := linked.fresh (once mine).1 (once mine).2
      refine ⟨?_, linked.sending, opens.steady, fun _ unopened => absurd opened unopened, sound⟩
      rw [opens_view opens accepted]
      exact .receiver_opens far.record far.line own.line far.accepted own.delivered face
        opens.unheard calls opens.one

end Calls

section Frames

variable {id : UInt32} {this : MuxEnd}

/-- A frame of another channel, or no frame at all. -/
theorem receive_other (steady : this.mux.Steady id) (wire : Bytes)
    (other : frameOn id wire = none) :
    (this.receive wire).mux.Steady id ∧ (this.receive wire).viewOn id = this.viewOn id ∧
      (this.receive wire).opened = this.opened ∧
      ∀ message, (id, message) ∈ (this.receive wire).faults → (id, message) ∈ this.faults := by
  unfold MuxEnd.receive
  unfold frameOn at other
  cases decoded : ChannelWire.decode wire with
  | error message => exact ⟨steady, rfl, rfl, fun _ member => member⟩
  | ok frame =>
      rw [decoded] at other
      dsimp only at other ⊢
      have differs : frame.channelId ≠ id := by
        intro same
        rw [if_pos same] at other
        cases other
      have aside := dispatchFrame_aside steady.tidy steady.msgId frame differs
      refine ⟨aside.steady steady, aside.view _, rfl, ?_⟩
      intro message member
      rcases MuxEnd.mem_logFault member with old | ⟨same, _⟩
      · exact old
      · exact absurd same.symm differs

/-- A frame of the channel: it is heard. -/
theorem receive_mine (steady : this.mux.Steady id) (wire : Bytes) (frame : ChannelFrame)
    (mine : frameOn id wire = some frame) (calls : ChannelMux.Calls [frame]) :
    (this.receive wire).mux.Steady id ∧ (this.receive wire).opened = this.opened ∧
      ∃ fault, View.Hears (this.viewOn id) frame ((this.receive wire).viewOn id) fault ∧
        (fault = none → ∀ message ∈ streamFaults, (id, message) ∈ (this.receive wire).faults →
          (id, message) ∈ this.faults) := by
  unfold frameOn at mine
  cases decoded : ChannelWire.decode wire with
  | error message =>
      rw [decoded] at mine
      cases mine
  | ok other =>
      rw [decoded] at mine
      dsimp only at mine
      split at mine
      · rename_i same
        cases mine
        obtain ⟨kept, fault, hears, harmless⟩ :=
          dispatchFrame_heard steady frame same calls (entriesOn id this.accepted)
        have received : this.receive wire = { this with
            mux := (this.mux.dispatchFrame frame).1
            faults := MuxEnd.logFault this.faults frame.channelId
              (this.mux.dispatchFrame frame).2 } := by
          simp only [MuxEnd.receive, decoded]
        rw [received]
        refine ⟨kept, rfl, fault, hears, ?_⟩
        intro faultless message listed member
        rcases MuxEnd.mem_logFault member with old | ⟨_, result⟩
        · exact old
        · exact absurd result (harmless faultless message listed)
      · cases mine

theorem handOver_line (id : UInt32) (wire : Bytes) (rest : List Bytes)
    (front : this.mux.transport.flying = wire :: rest) :
    this.mux.line id = (frameOn id wire).toList ++ (this.handOver rest).mux.line id := by
  unfold line
  rw [front]
  cases found : frameOn id wire with
  | none =>
      unfold framesOn
      rw [List.filterMap_cons_none found]
      rfl
  | some frame =>
      unfold framesOn
      rw [List.filterMap_cons_some found]
      rfl

theorem handOver_steady (steady : this.mux.Steady id) (wire : Bytes) (rest : List Bytes)
    (front : this.mux.transport.flying = wire :: rest) : (this.handOver rest).mux.Steady id := by
  refine ⟨⟨steady.tidy.queued, steady.tidy.loose⟩, steady.reliable, ?_, steady.pending,
    steady.frame, steady.msgId⟩
  intro frame member
  refine steady.calls frame ?_
  rw [handOver_line id wire rest front]
  exact List.mem_append_right _ member

theorem handOver_other (wire : Bytes) (rest : List Bytes)
    (front : this.mux.transport.flying = wire :: rest) (other : frameOn id wire = none) :
    (this.handOver rest).viewOn id = this.viewOn id := by
  have line := handOver_line id wire rest front
  rw [other, Option.toList_none, List.nil_append] at line
  unfold MuxEnd.viewOn ChannelMux.view
  rw [line]
  rfl

end Frames

section Hearing

variable {id : UInt32} {sender receiver : MuxEnd}

theorem Linked.receiver_ignores (linked : Linked id sender receiver) (wire : Bytes)
    (other : frameOn id wire = none) : Linked id sender (receiver.receive wire) := by
  obtain ⟨steady, view, opened, faults⟩ := receive_other linked.receiving wire other
  refine ⟨?_, linked.sending, steady, ?_, ?_⟩
  · rw [view]
    exact linked.joined
  · rw [view, opened]
    exact linked.fresh
  · intro message listed member
    exact linked.sound message listed (faults message member)

theorem Linked.sender_ignores (linked : Linked id sender receiver) (wire : Bytes)
    (other : frameOn id wire = none) : Linked id (sender.receive wire) receiver := by
  obtain ⟨steady, view, opened, _⟩ := receive_other linked.sending wire other
  refine ⟨?_, steady, linked.receiving, ?_, linked.sound⟩
  · rw [view]
    exact linked.joined
  · rw [view, opened]
    exact linked.fresh

/-- The line of a channel that nobody opened is empty, so no frame of it can be
at its front. -/
theorem Linked.opened_of_front (linked : Linked id sender receiver) {frame : ChannelFrame}
    {rest : List ChannelFrame}
    (front : (sender.viewOn id).line = frame :: rest ∨ (receiver.viewOn id).line = frame :: rest) :
    id ∈ sender.opened ∨ id ∈ receiver.opened := by
  by_contra neither
  rw [not_or] at neither
  obtain ⟨own, far⟩ := linked.fresh neither.1 neither.2
  rcases front with here | there
  · rw [own.line] at here
    cases here
  · rw [far.line] at there
    cases there

/-- The receiver is given the next reliable frame of the sender. -/
theorem Linked.receiver_takes (linked : Linked id sender receiver) (suits : Suits id sender receiver)
    (wire : Bytes) (rest : List Bytes) (front : sender.mux.transport.flying = wire :: rest) :
    Linked id (sender.handOver rest) (receiver.receive wire) := by
  have handed := handOver_steady linked.sending wire rest front
  cases found : frameOn id wire with
  | none =>
      have ignored := linked.receiver_ignores wire found
      have same := handOver_other wire rest front found
      refine ⟨?_, handed, ignored.receiving, ?_, ignored.sound⟩
      · rw [same]
        exact ignored.joined
      · rw [same]
        exact ignored.fresh
  | some frame =>
      have line := handOver_line id wire rest front
      rw [found, Option.toList_some, List.singleton_append] at line
      have calls : ChannelMux.Calls [frame] := by
        intro one member
        refine linked.sending.calls one ?_
        rw [List.mem_singleton.mp member, line]
        exact List.mem_cons_self
      obtain ⟨steady, opened, fault, hears, faults⟩ :=
        receive_mine linked.receiving wire frame found calls
      obtain ⟨faultless, joined⟩ :=
        linked.joined.receiver_hears (show (sender.viewOn id).line = _ from line) suits.listening
          hears
      refine ⟨joined, handed, steady, ?_, ?_⟩
      · intro unopened others
        rw [opened] at others
        exact absurd (linked.opened_of_front (Or.inl line)) (not_or.mpr ⟨unopened, others⟩)
      · intro message listed member
        exact linked.sound message listed (faults faultless message listed member)

/-- The sender is given the next reliable frame of the receiver. -/
theorem Linked.sender_takes (linked : Linked id sender receiver) (wire : Bytes) (rest : List Bytes)
    (front : receiver.mux.transport.flying = wire :: rest) :
    Linked id (sender.receive wire) (receiver.handOver rest) := by
  have handed := handOver_steady linked.receiving wire rest front
  cases found : frameOn id wire with
  | none =>
      have ignored := linked.sender_ignores wire found
      have same := handOver_other wire rest front found
      refine ⟨?_, ignored.sending, handed, ?_, linked.sound⟩
      · rw [same]
        exact ignored.joined
      · rw [same]
        exact ignored.fresh
  | some frame =>
      have line := handOver_line id wire rest front
      rw [found, Option.toList_some, List.singleton_append] at line
      have calls : ChannelMux.Calls [frame] := by
        intro one member
        refine linked.receiving.calls one ?_
        rw [List.mem_singleton.mp member, line]
        exact List.mem_cons_self
      obtain ⟨steady, opened, fault, hears, _⟩ :=
        receive_mine linked.sending wire frame found calls
      refine ⟨linked.joined.sender_hears (show (receiver.viewOn id).line = _ from line) hears,
        steady, handed, ?_, linked.sound⟩
      intro unopened others
      rw [opened] at unopened
      exact absurd (linked.opened_of_front (Or.inr line)) (not_or.mpr ⟨unopened, others⟩)

end Hearing

/-- Every allowed step keeps the two ends of the channel linked. -/
theorem step_linked (id : UInt32) (side : Side) (ends : Ends MuxEnd) (act : Side × Action)
    (allowed : Allowed id side ends act) (keeps : KeepsClose id ends act)
    (linked : Linked id (ends.endAt side) (ends.endAt side.other)) :
    Linked id ((step ends act).endAt side) ((step ends act).endAt side.other) := by
  obtain ⟨acting, action⟩ := act
  have suits := allowed.suits
  have once := allowed.once
  cases action with
  | call event =>
      have allows := allowed.allows event rfl
      have closes := keeps event rfl
      have once := once event rfl
      -- the acting end is the sender or the receiver of this direction
      cases side <;> cases acting
      · exact linked.sender_acts (MuxEnd.step_acts linked.sending event allows closes) suits once
      · exact linked.receiver_acts (MuxEnd.step_acts linked.receiving event allows closes)
          (MuxEnd.step_faults ends.right event) once
      · exact linked.receiver_acts (MuxEnd.step_acts linked.receiving event allows closes)
          (MuxEnd.step_faults ends.left event) once
      · exact linked.sender_acts (MuxEnd.step_acts linked.sending event allows closes) suits once
  | deliver =>
      unfold step
      dsimp only
      split
      · exact linked
      · rename_i wire rest front
        cases side <;> cases acting
        · exact linked.sender_takes wire rest front
        · exact linked.receiver_takes suits wire rest front
        · exact linked.receiver_takes suits wire rest front
        · exact linked.sender_takes wire rest front
  | deliverLoose index =>
      unfold step
      dsimp only
      split
      · exact linked
      · rename_i wire found
        have listed := List.mem_of_getElem? found
        cases side <;> cases acting
        · exact linked.sender_ignores wire (linked.receiving.tidy.loose wire listed)
        · exact linked.receiver_ignores wire (linked.sending.tidy.loose wire listed)
        · exact linked.receiver_ignores wire (linked.sending.tidy.loose wire listed)
        · exact linked.sender_ignores wire (linked.receiving.tidy.loose wire listed)

theorem create_steady (id : UInt32) (initiator : Bool) (tuning : MuxTuning)
    (protocolHandlers : List Bytes) (refuse : Bool) (allowance : Nat → Nat) :
    (MuxEnd.create initiator tuning protocolHandlers refuse allowance).mux.Steady id ∧
      Blank ((MuxEnd.create initiator tuning protocolHandlers refuse allowance).viewOn id) := by
  refine ⟨⟨⟨?_, nofun⟩, nofun, nofun, rfl, show 64 ≤ Adp.kMaxSealedPayload by decide,
    show 1 < 2 ^ 64 by decide⟩, ⟨rfl, rfl, rfl, rfl⟩⟩
  intro other wire _ member
  exact absurd member List.not_mem_nil

/-- Two muxes of one session, before anything happened. -/
def start (tuning : Side → MuxTuning) (protocolHandlers : Side → List Bytes) (refuse : Side → Bool)
    (allowance : Side → Nat → Nat) : Ends MuxEnd where
  left := .create true (tuning .left) (protocolHandlers .left) (refuse .left) (allowance .left)
  right := .create false (tuning .right) (protocolHandlers .right) (refuse .right)
    (allowance .right)

theorem start_linked (id : UInt32) (side : Side) (tuning : Side → MuxTuning)
    (protocolHandlers : Side → List Bytes) (refuse : Side → Bool) (allowance : Side → Nat → Nat) :
    Linked id ((start tuning protocolHandlers refuse allowance).endAt side)
      ((start tuning protocolHandlers refuse allowance).endAt side.other) := by
  have blanks (one : Side) : ((start tuning protocolHandlers refuse allowance).endAt one).mux.Steady id ∧
      Blank (((start tuning protocolHandlers refuse allowance).endAt one).viewOn id) := by
    cases one <;> exact create_steady id _ _ _ _ _
  have faultless (one : Side) :
      ((start tuning protocolHandlers refuse allowance).endAt one).faults = [] := by
    cases one <;> rfl
  obtain ⟨sending, own⟩ := blanks side
  obtain ⟨receiving, far⟩ := blanks side.other
  refine ⟨.unopened own.record far.record own.line far.line own.accepted far.delivered, sending,
    receiving, fun _ _ => ⟨own, far⟩, ?_⟩
  intro message _ member
  rw [faultless] at member
  exact absurd member List.not_mem_nil

/-- On every reliable channel that a run opens once, in either direction: what
the data handler is given is, in order and each once, the first of what
`SendData` took, and no frame is found out of order or broken; unless the Close
of a channel that still opens is lost. -/
theorem reliable_channel_in_order (id : UInt32) (side : Side) (tuning : Side → MuxTuning)
    (protocolHandlers : Side → List Bytes) (refuse : Side → Bool) (allowance : Side → Nat → Nat)
    (acts : List (Side × Action))
    (met : Run.Meets step (fun ends act => Allowed id side ends act ∧ KeepsClose id ends act)
      (start tuning protocolHandlers refuse allowance) acts) :
    Run.Always step (InOrder id side) (start tuning protocolHandlers refuse allowance) acts := by
  refine Run.always_of_invariant step _
    (fun ends => Linked id (ends.endAt side) (ends.endAt side.other)) (InOrder id side) ?_ ?_ acts _
    met (start_linked id side tuning protocolHandlers refuse allowance)
  · intro ends act allowed linked
    exact step_linked id side ends act allowed.1 allowed.2 linked
  · intro ends linked
    exact ⟨linked.safe, linked.sound⟩

/-- A run with a message in one frame and one in two. -/
theorem reliable_channel_in_order_sample :
    let tuning : Side → MuxTuning := fun _ => {}
    let acts : List (Side × Action) := [
      (.right, .call (.setDataHandler 1)), (.left, .call (.setMaxFrameBytes 64)),
      (.left, .call (.openOutbound [97] {} none)), (.right, .deliver), (.left, .deliver),
      (.left, .call (.sendData 1 [7])), (.left, .call (.sendData 1 (List.replicate 60 8))),
      (.right, .deliver), (.right, .deliver), (.right, .deliver)]
    let ends := Run.exec step (start tuning (fun _ => []) (fun _ => false) (fun _ _ => 5)) acts
    ends.right.mux.delivered = [(1, [7]), (1, List.replicate 60 8)] ∧
      Run.Always step (InOrder 1 .left)
        (start tuning (fun _ => []) (fun _ => false) (fun _ _ => 5)) acts :=
  ⟨by decide +kernel, reliable_channel_in_order 1 .left _ _ _ _ _ (by decide +kernel)⟩

/-- The Close of a channel that still opens is refused, the answer opens the
channel all the same, and its first payload comes with the second number. -/
theorem reliable_channel_out_of_order :
    let tuning : Side → MuxTuning := fun
      | .left => { maxQueuedBytes := 20 }
      | .right => {}
    let acts : List (Side × Action) := [
      (.right, .call (.setDataHandler 3)),
      (.left, .call (.openOutbound [97] {} none)), (.right, .deliver), (.left, .deliver),
      (.left, .call (.openOutbound [97] {} none)), (.right, .deliver),
      (.left, .call (.credits fun _ => 0)), (.left, .call (.sendData 1 [1, 2, 3])),
      (.left, .call (.closeChannel 3 [])), (.left, .deliver),
      (.left, .call (.credits fun _ => 5)), (.left, .call (.sendData 3 [7])),
      (.right, .deliver), (.right, .deliver)]
    Run.Meets step (Allowed 3 .left)
        (start tuning (fun _ => []) (fun _ => false) (fun _ _ => 5)) acts ∧
      ¬ Run.Always step (InOrder 3 .left)
        (start tuning (fun _ => []) (fun _ => false) (fun _ _ => 5)) acts := by
  decide +kernel

end MuxPair

end Amp
