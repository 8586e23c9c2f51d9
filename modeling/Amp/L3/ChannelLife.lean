import Amp.L3.ChannelMux
import Amp.Lib.Lives
import Amp.Lib.Run

set_option autoImplicit false

/- A mux whose handlers and transport may call it again before it is done
(ChannelMux.cpp). What a call still has to do when it leaves the mux waits on a
stack; sends are left to the world outside, in whose hands their outcome is. Each
record is a life of its own, and what becomes of it is kept as a trace. -/
namespace Amp

open Adp (Bytes)

def ChannelState.rank : ChannelState → Nat
  | .opening => 0
  | .opened => 1
  | .closing => 2
  | .closed => 3

theorem ChannelState.rank_le_closed (state : ChannelState) :
    state.rank ≤ ChannelState.closed.rank := by
  cases state <;> decide

/-- The rest of a call that waits for a handler or the transport to return. -/
inductive Waiting where
  /-- `channels_.erase` at the end of `ResetChannel` and of a terminal notice. -/
  | erase (id : UInt32)
  /-- The readers `ExpireIdleReaders` has not come to. -/
  | expire (ids : List UInt32)
  /-- `SendCapabilityOffer` past its `OpenOutbound`. -/
  | offer (encoded : Bytes)

structure ReentrantMux (τ : Type) where
  mux : ChannelMux τ
  /-- The life of the record an id has, or had last. -/
  lives : UInt32 → Nat := fun _ => 0
  nextLife : Nat := 0
  stack : List Waiting := []
  /-- Trace: every state given to a record, and every payload taken for it or handed to it. -/
  trace : List (Lives.Mark ChannelState) := []

namespace ReentrantMux

open ChannelMux

variable {τ : Type}

/-- A change of the mux that gives no record another state. -/
def onMux (this : ReentrantMux τ) (change : ChannelMux τ → ChannelMux τ) : ReentrantMux τ :=
  { this with mux := change this.mux }

def push (this : ReentrantMux τ) (rest : Waiting) : ReentrantMux τ :=
  { this with stack := rest :: this.stack }

/-- A new record, with the handlers that waited for it. -/
def record (this : ReentrantMux τ) (channel : ChannelRecord) : ReentrantMux τ :=
  { this with
    mux := this.mux.adoptHandlers channel
    lives := Function.update this.lives channel.id this.nextLife
    nextLife := this.nextLife + 1
    trace := this.trace ++ [.became this.nextLife channel.state] }

/-- `channel->state = state`. -/
def assign (this : ReentrantMux τ) (id : UInt32) (channel : ChannelRecord) (state : ChannelState) :
    ReentrantMux τ :=
  { this with
    mux := this.mux.putChannel id { channel with state := state }
    trace := this.trace ++ [.became (this.lives id) state] }

def use (this : ReentrantMux τ) (id : UInt32) : ReentrantMux τ :=
  { this with trace := this.trace ++ [.used (this.lives id)] }

def erase (this : ReentrantMux τ) (id : UInt32) : ReentrantMux τ :=
  this.onMux fun mux => mux.eraseChannel id

def openOutbound (this : ReentrantMux τ) (protocolId : Bytes) (policy : ChannelPolicy)
    (fixedId : Option UInt32) : ReentrantMux τ :=
  match fixedId with
  | some id =>
      if (this.mux.channelById id).isSome then this
      else this.record (openingRecord id protocolId policy)
  | none =>
      let (id, next) := this.mux.allocateId
      let this := this.onMux fun mux => { mux with nextDynamicId := next }
      if (this.mux.channelById id).isSome then this
      else this.record (openingRecord id protocolId policy)

/-- `SendData` up to what it puts on the wire; a payload past the checks is used. -/
def sendData (this : ReentrantMux τ) (id : UInt32) (payload : Bytes) : ReentrantMux τ :=
  match this.mux.channelById id with
  | none => this
  | some channel =>
      if channel.state ≠ .opened then this
      else if channel.policy.maxMessageBytes < payload.length then this
      else this.use id

def closeChannel (this : ReentrantMux τ) (id : UInt32) : ReentrantMux τ :=
  match this.mux.channelById id with
  | none => this
  | some channel => this.assign id channel .closing

def resetChannel (this : ReentrantMux τ) (id : UInt32) : ReentrantMux τ :=
  match this.mux.channelById id with
  | none => this
  | some channel =>
      ((this.assign id channel .closed).onMux fun mux => mux.dropQueued id).push (.erase id)

def detach (this : ReentrantMux τ) (id : UInt32) : ReentrantMux τ :=
  match this.mux.channelById id with
  | none => this
  | some channel => this.assign id { channel with onData := false, onTerminal := false } .closed

/-- `DetachAllChannels`; the notices it returns are run by its caller. -/
def detachAllChannels (this : ReentrantMux τ) : ReentrantMux τ :=
  this.mux.channels.keys.foldl detach (this.onMux fun mux =>
    { mux with
      sendQueues := ∅
      sendOrder := []
      queuedBytes := 0
      pendingHandlers := []
      pendingTerminalHandlers := []
      pendingOpenData := ∅ })

/-- `SendCapabilityOffer` once its channel is there or was asked for. -/
def offer (this : ReentrantMux τ) (encoded : Bytes) : ReentrantMux τ :=
  match this.mux.state kCapabilityChannelId with
  | .opened => this.sendData kCapabilityChannelId encoded
  | .opening => this.onMux fun mux =>
      { mux with pendingOpenData := mux.pendingOpenData.insert kCapabilityChannelId encoded }
  | _ => this

def sendCapabilityOffer (this : ReentrantMux τ) (protocolId : Bytes) (policy : ChannelPolicy)
    (encoded : Bytes) : ReentrantMux τ :=
  if (this.mux.channelById kCapabilityChannelId).isSome then this.offer encoded
  else (this.openOutbound protocolId policy (some kCapabilityChannelId)).push (.offer encoded)

/-- A terminal notice, and the record's end after it. -/
def notifyAndErase (this : ReentrantMux τ) (id : UInt32) (channel : ChannelRecord) :
    ReentrantMux τ :=
  if channel.onTerminal then this.push (.erase id) else this.erase id

def handleOpen (this : ReentrantMux τ) (id : UInt32) (protocolId : Bytes) (cls : ChannelClass)
    (offered : Nat) : ReentrantMux τ :=
  if (this.mux.channelById id).isSome then this
  else match this.mux.openRefusal id protocolId with
    | some _ => this.onMux fun mux =>
        { mux with pendingTerminalHandlers := mux.pendingTerminalHandlers.filter (· ≠ id) }
    | none => this.record (acceptedRecord id protocolId cls offered)

def flushPendingOpenData (this : ReentrantMux τ) (id : UInt32) : ReentrantMux τ :=
  match this.mux.pendingOpenData.lookup id with
  | none => this
  | some payload =>
      (this.onMux fun mux =>
        { mux with pendingOpenData := mux.pendingOpenData.erase id }).sendData id payload

def handleOpenAck (this : ReentrantMux τ) (id : UInt32) (channel : ChannelRecord) (result : UInt8) :
    ReentrantMux τ :=
  if result ≠ 0 then
    ((this.assign id channel .closed).onMux fun mux =>
      { mux with pendingOpenData := mux.pendingOpenData.erase id }).notifyAndErase id channel
  else (this.assign id channel .opened).flushPendingOpenData id

/-- The peer's Close or Reset. -/
def handleEnd (this : ReentrantMux τ) (id : UInt32) (channel : ChannelRecord) : ReentrantMux τ :=
  ((this.onMux fun mux => mux.dropQueued id).assign id channel .closed).notifyAndErase id channel

def handleData (this : ReentrantMux τ) (id seq : UInt32) (channel : ChannelRecord) :
    ReentrantMux τ :=
  if channel.state ≠ .opened then this
  else if !inTurn channel seq then this
  else (this.onMux fun mux => mux.putChannel id (countFrame channel)).use id

def handleFrag (this : ReentrantMux τ) (id seq : UInt32) (channel : ChannelRecord)
    (frag : ChannelFragBody) : ReentrantMux τ :=
  if channel.state ≠ .opened then this
  else if !inTurn channel seq then this
  else
    let (reassembly, assembled) := channel.reassembly.push frag this.mux.nowMs
    let channel := { countFrame channel with reassembly := reassembly }
    let this := this.onMux fun mux => mux.putChannel id channel
    match assembled with
    | .error _ => this.resetChannel id
    | .ok none => this
    | .ok (some _) => this.use id

def dispatchFrame (this : ReentrantMux τ) (frame : ChannelFrame) : ReentrantMux τ :=
  let id := frame.channelId
  match frame.body, this.mux.channelById id with
  | .openFrame protocolId cls _ offered, _ => this.handleOpen id protocolId cls offered
  | _, none => this
  | .openAck result, some channel => this.handleOpenAck id channel result
  | .reset _, some channel => this.handleEnd id channel
  | .close _, some channel => this.handleEnd id channel
  | .data _, some channel => this.handleData id frame.channelSeq channel
  | .frag frag, some channel => this.handleFrag id frame.channelSeq channel frag

/-- The loop of `ExpireIdleReaders`, up to the next reader it resets. -/
def expire (this : ReentrantMux τ) : List UInt32 → ReentrantMux τ
  | [] => this
  | id :: rest =>
      if (this.mux.channelById id).isSome then (this.push (.expire rest)).resetChannel id
      else this.expire rest

def tick (this : ReentrantMux τ) (now : Int) : ReentrantMux τ :=
  let this := this.onMux fun mux => mux.mapChannels (sweepChannel mux.tuning now)
  let expired := (this.mux.channels.entries.filter fun entry => readExpired now entry.2).map (·.1)
  (this.onMux fun mux => mux.mapChannels (startReadClock now)).expire expired

def setDataHandler (mux : ChannelMux τ) (id : UInt32) (bound : Bool) : ChannelMux τ :=
  match mux.channelById id with
  | some channel => mux.putChannel id { channel with onData := bound }
  | none => { mux with pendingHandlers := id :: mux.pendingHandlers }

def setTerminalHandler (mux : ChannelMux τ) (id : UInt32) (bound : Bool) : ChannelMux τ :=
  match mux.channelById id with
  | some channel => mux.putChannel id { channel with onTerminal := bound }
  | none =>
      { mux with pendingTerminalHandlers :=
          if bound then id :: mux.pendingTerminalHandlers
          else mux.pendingTerminalHandlers.filter (· ≠ id) }

def setProtocolHandler (mux : ChannelMux τ) (protocolId : Bytes) (bound : Bool) : ChannelMux τ :=
  { mux with protocolHandlers :=
      if bound then protocolId :: mux.protocolHandlers
      else mux.protocolHandlers.filter (· ≠ protocolId) }

inductive Call where
  | openOutbound (protocolId : Bytes) (policy : ChannelPolicy) (fixedId : Option UInt32)
  | sendData (id : UInt32) (payload : Bytes)
  | closeChannel (id : UInt32)
  | resetChannel (id : UInt32)
  | detachAllChannels
  | sendCapabilityOffer (protocolId : Bytes) (policy : ChannelPolicy) (encoded : Bytes)
  | setDataHandler (id : UInt32) (bound : Bool)
  | setTerminalHandler (id : UInt32) (bound : Bool)
  | setProtocolHandler (protocolId : Bytes) (bound : Bool)
  | clearProtocolHandlers
  | setRefuseUnhandledOpens (refuse : Bool)
  | setTuning (tuning : MuxTuning)
  | applyChannelPolicy (id : UInt32) (policy : ChannelPolicy)
  | clock (now : Int)
  /-- `OnFrameInbound`. -/
  | inbound (wire : Bytes)
  | tick (now : Int)

/-- A call from outside or from within a handler, or the return of the handler or
send that the call made last waits for, and whether a send was taken. -/
inductive Event where
  | call (call : Call)
  | returned (sent : Bool)

def call (this : ReentrantMux τ) : Call → ReentrantMux τ
  | .openOutbound protocolId policy fixedId => this.openOutbound protocolId policy fixedId
  | .sendData id payload => this.sendData id payload
  | .closeChannel id => this.closeChannel id
  | .resetChannel id => this.resetChannel id
  | .detachAllChannels => this.detachAllChannels
  | .sendCapabilityOffer protocolId policy encoded =>
      this.sendCapabilityOffer protocolId policy encoded
  | .setDataHandler id bound => this.onMux fun mux => setDataHandler mux id bound
  | .setTerminalHandler id bound => this.onMux fun mux => setTerminalHandler mux id bound
  | .setProtocolHandler protocolId bound => this.onMux fun mux =>
      setProtocolHandler mux protocolId bound
  | .clearProtocolHandlers => this.onMux fun mux => { mux with protocolHandlers := [] }
  | .setRefuseUnhandledOpens refuse => this.onMux fun mux =>
      { mux with refuseUnhandledOpens := refuse }
  | .setTuning tuning => this.onMux fun mux => { mux with tuning := tuning }
  | .applyChannelPolicy id policy => this.onMux fun mux => (mux.applyChannelPolicy id policy).1
  | .clock now => this.onMux fun mux => { mux with nowMs := now }
  | .inbound wire =>
      match ChannelWire.decode wire with
      | .error _ => this
      | .ok frame => this.dispatchFrame frame
  | .tick now => this.tick now

def finish (this : ReentrantMux τ) (sent : Bool) : Waiting → ReentrantMux τ
  | .erase id => this.erase id
  | .expire ids => this.expire ids
  | .offer encoded => if sent then this.offer encoded else this

def step (this : ReentrantMux τ) : Event → ReentrantMux τ
  | .call call => this.call call
  | .returned sent =>
      match this.stack with
      | [] => this
      | rest :: stack => { this with stack := stack }.finish sent rest

/-- Neither an OPEN_ACK that accepts reaches a record past Open, nor a CloseChannel
one that is Closed. -/
def Onward (this : ReentrantMux τ) : Event → Prop
  | .call (.closeChannel id) => ∀ channel, this.mux.channelById id = some channel →
      channel.state ≠ .closed
  | .call (.inbound wire) => ∀ id seq channel, ChannelWire.decode wire = .ok ⟨id, seq, .openAck 0⟩ →
      this.mux.channelById id = some channel → channel.state = .opening ∨ channel.state = .opened
  | _ => True

open Lives

/-- No record comes, goes or gets another state. -/
def Quiet (before after : ChannelMux τ) : Prop :=
  ∀ id, (after.channelById id).map ChannelRecord.state =
    (before.channelById id).map ChannelRecord.state

/-- What may be done of what the calls do. A record may always be closed. -/
structure Terms where
  counts : Prop
  records : UInt32 → ChannelState → Prop
  assigns : UInt32 → ChannelState → ChannelState → Prop
  ends : ∀ id state, assigns id state .closed

/-- What a call is made of, on its terms. -/
inductive Moves (terms : Terms) : ReentrantMux τ → ReentrantMux τ → Prop
  | quiet {this : ReentrantMux τ} {mux : ChannelMux τ} (stack : List Waiting)
      (same : Quiet this.mux mux) (counter : mux.nextDynamicId = this.mux.nextDynamicId) :
      Moves terms this { this with mux := mux, stack := stack }
  | count {this : ReentrantMux τ} (next : UInt32) (may : terms.counts) :
      Moves terms this (this.onMux fun mux => { mux with nextDynamicId := next })
  | record {this : ReentrantMux τ} {channel : ChannelRecord}
      (free : this.mux.channelById channel.id = none)
      (may : terms.records channel.id channel.state) : Moves terms this (this.record channel)
  | assign {this : ReentrantMux τ} {id : UInt32} {channel : ChannelRecord} (next : ChannelRecord)
      {state : ChannelState} (found : this.mux.channelById id = some channel)
      (may : terms.assigns id channel.state state) : Moves terms this (this.assign id next state)
  | use {this : ReentrantMux τ} {id : UInt32} {channel : ChannelRecord}
      (found : this.mux.channelById id = some channel) (usable : channel.state = .opened) :
      Moves terms this (this.use id)
  | erase {this : ReentrantMux τ} (id : UInt32) : Moves terms this (this.erase id)
  | trans {before middle after : ReentrantMux τ} (one : Moves terms before middle)
      (two : Moves terms middle after) : Moves terms before after

/-- A frame is heard on these terms. -/
def Terms.Hears (terms : Terms) (this : ReentrantMux τ) (frame : ChannelFrame) : Prop :=
  match frame.body with
  | .openFrame protocolId .. => this.mux.channelById frame.channelId = none →
      this.mux.openRefusal frame.channelId protocolId = none →
        terms.records frame.channelId .opened
  | .openAck result => result = 0 → ∀ channel,
      this.mux.channelById frame.channelId = some channel →
        terms.assigns frame.channelId channel.state .opened
  | _ => True

/-- A step is taken on these terms. -/
def Terms.Allows (terms : Terms) (this : ReentrantMux τ) : Event → Prop
  | .call (.openOutbound _ _ (some id)) => terms.records id .opening
  | .call (.openOutbound _ _ none) => terms.counts ∧ ∀ id, terms.records id .opening
  | .call (.sendCapabilityOffer ..) => terms.records kCapabilityChannelId .opening
  | .call (.closeChannel id) => ∀ channel, this.mux.channelById id = some channel →
      terms.assigns id channel.state .closing
  | .call (.inbound wire) => ∀ frame, ChannelWire.decode wire = .ok frame → terms.Hears this frame
  | _ => True

/-- A record's state is the last of its life, and no two records share one. -/
structure Tracked (this : ReentrantMux τ) : Prop where
  current : ∀ id channel, this.mux.channelById id = some channel →
    (stagesOf (this.lives id) this.trace).getLast? = some channel.state
  apart : ∀ one two, (this.mux.channelById one).isSome → (this.mux.channelById two).isSome →
    this.lives one = this.lives two → one = two
  below : ∀ id, (this.mux.channelById id).isSome → this.lives id < this.nextLife
  unborn : ∀ life, this.nextLife ≤ life → stagesOf life this.trace = []

theorem Quiet.isSome {before after : ChannelMux τ} (quiet : Quiet before after) (id : UInt32) :
    (after.channelById id).isSome = (before.channelById id).isSome := by
  have same := congrArg Option.isSome (quiet id)
  rwa [Option.isSome_map, Option.isSome_map] at same

theorem Quiet.some {before after : ChannelMux τ} (quiet : Quiet before after) {id : UInt32}
    {channel : ChannelRecord} (found : after.channelById id = some channel) :
    ∃ old, before.channelById id = some old ∧ old.state = channel.state := by
  have same := quiet id
  rw [found, Option.map_some] at same
  obtain ⟨old, held, state⟩ := Option.map_eq_some_iff.mp same.symm
  exact ⟨old, held, state⟩

/-- The records but one stand as they did, and so do the lives of all. -/
theorem Tracked.assign {this : ReentrantMux τ} (tracked : this.Tracked) {id : UInt32}
    {channel : ChannelRecord} (found : this.mux.channelById id = some channel)
    (next : ChannelRecord) (state : ChannelState) : (this.assign id next state).Tracked := by
  have present : ∀ other, ((this.assign id next state).mux.channelById other).isSome →
      (this.mux.channelById other).isSome := by
    intro other there
    have reads := channelById_putChannel this.mux other id { next with state := state }
    by_cases same : other = id
    · rw [same, found]
      rfl
    · rw [if_neg same] at reads
      exact reads ▸ there
  refine ⟨?_, ?_, ?_, ?_⟩
  · intro other record held
    have reads := channelById_putChannel this.mux other id { next with state := state }
    by_cases same : other = id
    · subst same
      rw [if_pos rfl] at reads
      obtain rfl := Option.some.inj (reads.symm.trans held)
      show (stagesOf (this.lives other) (this.trace ++ [.became (this.lives other) state])).getLast? =
        some state
      rw [stagesOf_became, List.getLast?_concat]
    · rw [if_neg same] at reads
      have before : this.mux.channelById other = some record := reads.symm.trans held
      have differs : this.lives id ≠ this.lives other := by
        intro equal
        exact same (tracked.apart other id (by rw [before]; rfl) (by rw [found]; rfl) equal.symm)
      show (stagesOf (this.lives other) (this.trace ++ [.became (this.lives id) state])).getLast? = _
      rw [stagesOf_became_ne differs]
      exact tracked.current other record before
  · exact fun one two first second => tracked.apart one two (present one first) (present two second)
  · exact fun other there => tracked.below other (present other there)
  · intro life beyond
    have differs : this.lives id ≠ life := by
      have below := tracked.below id (by rw [found]; rfl)
      have beyond : this.nextLife ≤ life := beyond
      omega
    show stagesOf life (this.trace ++ [.became (this.lives id) state]) = []
    rw [stagesOf_became_ne differs]
    exact tracked.unborn life beyond

theorem channelById_record (this : ReentrantMux τ) (channel : ChannelRecord) (other : UInt32) :
    ((this.record channel).mux.channelById other).map ChannelRecord.state =
      if other = channel.id then some channel.state
      else (this.mux.channelById other).map ChannelRecord.state := by
  show ((AList.insert channel.id _ this.mux.channels).lookup other).map _ = _
  by_cases same : other = channel.id
  · rw [if_pos same, same, AList.lookup_insert]
    rfl
  · rw [if_neg same, AList.lookup_insert_ne same]
    rfl

theorem Tracked.record {this : ReentrantMux τ} (tracked : this.Tracked) (channel : ChannelRecord) :
    (this.record channel).Tracked := by
  have lives : ∀ other, (this.record channel).lives other =
      if other = channel.id then this.nextLife else this.lives other := by
    intro other
    show Function.update this.lives channel.id this.nextLife other = _
    rw [Function.update_apply]
  have present : ∀ other, other ≠ channel.id →
      ((this.record channel).mux.channelById other).isSome = (this.mux.channelById other).isSome := by
    intro other differs
    have same := congrArg Option.isSome (channelById_record this channel other)
    rwa [if_neg differs, Option.isSome_map, Option.isSome_map] at same
  refine ⟨?_, ?_, ?_, ?_⟩
  · intro other record held
    have reads := channelById_record this channel other
    rw [held, Option.map_some] at reads
    show (stagesOf _ (this.trace ++ [.became this.nextLife channel.state])).getLast? = _
    rw [lives]
    by_cases same : other = channel.id
    · rw [if_pos same] at reads ⊢
      rw [stagesOf_became, List.getLast?_concat, reads]
    · rw [if_neg same] at reads ⊢
      obtain ⟨old, before, state⟩ := Option.map_eq_some_iff.mp reads.symm
      have below := tracked.below other (by rw [before]; rfl)
      rw [stagesOf_became_ne (Nat.ne_of_gt below), ← state]
      exact tracked.current other old before
  · intro one two first second equal
    rw [lives, lives] at equal
    by_cases own : one = channel.id
    · by_cases also : two = channel.id
      · exact own.trans also.symm
      · rw [if_pos own, if_neg also] at equal
        have below := tracked.below two (by rw [← present two also]; exact second)
        omega
    · by_cases also : two = channel.id
      · rw [if_neg own, if_pos also] at equal
        have below := tracked.below one (by rw [← present one own]; exact first)
        omega
      · rw [if_neg own, if_neg also] at equal
        exact tracked.apart one two (by rw [← present one own]; exact first)
          (by rw [← present two also]; exact second) equal
  · intro other there
    rw [lives]
    show _ < this.nextLife + 1
    by_cases own : other = channel.id
    · rw [if_pos own]
      exact Nat.lt_succ_self _
    · rw [if_neg own]
      exact Nat.lt_succ_of_lt (tracked.below other (by rw [← present other own]; exact there))
  · intro life beyond
    have above : this.nextLife + 1 ≤ life := beyond
    show stagesOf life (this.trace ++ [.became this.nextLife channel.state]) = []
    rw [stagesOf_became_ne (by omega)]
    exact tracked.unborn life (by omega)

theorem Tracked.erase {this : ReentrantMux τ} (tracked : this.Tracked) (id : UInt32) :
    (this.erase id).Tracked := by
  have kept : ∀ other channel, (this.erase id).mux.channelById other = some channel →
      this.mux.channelById other = some channel := by
    intro other channel held
    have reads := channelById_eraseChannel this.mux other id
    have held : (this.mux.eraseChannel id).channelById other = some channel := held
    rw [reads] at held
    split at held
    · cases held
    · exact held
  have present : ∀ other, ((this.erase id).mux.channelById other).isSome →
      (this.mux.channelById other).isSome := by
    intro other there
    obtain ⟨channel, held⟩ := Option.isSome_iff_exists.mp there
    rw [kept other channel held]
    rfl
  exact ⟨fun other channel held => tracked.current other channel (kept other channel held),
    fun one two first second => tracked.apart one two (present one first) (present two second),
    fun other there => tracked.below other (present other there), tracked.unborn⟩

theorem Tracked.use {this : ReentrantMux τ} (tracked : this.Tracked) (id : UInt32) :
    (this.use id).Tracked := by
  refine ⟨?_, tracked.apart, tracked.below, ?_⟩
  · intro other channel held
    show (stagesOf _ (this.trace ++ [.used (this.lives id)])).getLast? = _
    rw [stagesOf_used]
    exact tracked.current other channel held
  · intro life beyond
    show stagesOf life (this.trace ++ [.used (this.lives id)]) = []
    rw [stagesOf_used]
    exact tracked.unborn life beyond

theorem Tracked.quiet {this : ReentrantMux τ} (tracked : this.Tracked) {mux : ChannelMux τ}
    (same : Quiet this.mux mux) (stack : List Waiting) :
    Tracked { this with mux := mux, stack := stack } := by
  refine ⟨?_, ?_, ?_, tracked.unborn⟩
  · intro id channel held
    obtain ⟨old, before, state⟩ := same.some held
    rw [← state]
    exact tracked.current id old before
  · intro one two first second
    exact tracked.apart one two (same.isSome one ▸ first) (same.isSome two ▸ second)
  · exact fun id there => tracked.below id (same.isSome id ▸ there)

theorem Moves.tracked {terms : Terms} {before after : ReentrantMux τ}
    (moves : Moves terms before after) : before.Tracked → after.Tracked := by
  induction moves with
  | quiet stack same counter => exact fun tracked => tracked.quiet same stack
  | @count this next may =>
      intro tracked
      have same : Quiet this.mux { this.mux with nextDynamicId := next } := fun _ => rfl
      exact tracked.quiet same this.stack
  | record free may => exact fun tracked => tracked.record _
  | assign next found may => exact fun tracked => tracked.assign found next _
  | use found usable => exact fun tracked => tracked.use _
  | erase id => exact fun tracked => tracked.erase id
  | trans one two first second => exact fun tracked => second (first tracked)

/-- Every record so far went forward only, and none was used past Open. -/
def Forward (this : ReentrantMux τ) : Prop :=
  Orderly ChannelState.rank ChannelState.opened.rank this.trace

/-- States go forward, if the step is onward. -/
def forwardTerms (onward : Prop) : Terms where
  counts := True
  records _ _ := True
  assigns _ old state := onward → old.rank ≤ state.rank
  ends _ old _ := ChannelState.rank_le_closed old

theorem Moves.forward {onward : Prop} {before after : ReentrantMux τ}
    (moves : Moves (forwardTerms onward) before after) (allowed : onward) :
    before.Tracked → before.Forward → after.Forward := by
  induction moves with
  | quiet stack same counter => exact fun _ forward => forward
  | count next may => exact fun _ forward => forward
  | @record this channel free may =>
      intro tracked forward
      apply Orderly.became forward
      intro last known
      rw [tracked.unborn this.nextLife le_rfl] at known
      cases known
  | @assign this id channel next state found onto =>
      intro tracked forward
      apply Orderly.became forward
      intro last known
      rw [tracked.current id channel found] at known
      exact Option.some.inj known ▸ onto allowed
  | @use this id channel found usable =>
      intro tracked forward
      apply Orderly.use forward (tracked.current id channel found)
      rw [usable]
  | erase id => exact fun _ forward => forward
  | trans one two first second =>
      intro tracked forward
      exact second (one.tracked tracked) (first tracked forward)

section Calls

variable {this : ReentrantMux τ} {mux : ChannelMux τ} {terms : Terms}

theorem quiet_of_channels {before after : ChannelMux τ} (same : after.channels = before.channels) :
    Quiet before after := by
  intro id
  unfold channelById
  rw [same]

theorem quiet_putChannel {id : UInt32} {channel : ChannelRecord} {next : ChannelRecord}
    (found : mux.channelById id = some channel) (state : next.state = channel.state) :
    Quiet mux (mux.putChannel id next) := by
  intro other
  rw [channelById_putChannel]
  by_cases same : other = id
  · rw [if_pos same, same, found, Option.map_some, Option.map_some, state]
  · rw [if_neg same]

theorem quiet_mapChannels {change : ChannelRecord → ChannelRecord}
    (state : ∀ channel, (change channel).state = channel.state) :
    Quiet mux (mux.mapChannels change) := by
  intro id
  rw [channelById_mapChannels, Option.map_map]
  apply congrArg fun read => (mux.channelById id).map read
  exact funext state

theorem quiet_dropQueued (id : UInt32) : Quiet mux (mux.dropQueued id) := by
  apply quiet_of_channels
  unfold dropQueued
  split
  · rfl
  · rfl

theorem startReadClock_state (now : Int) (channel : ChannelRecord) :
    (startReadClock now channel).state = channel.state := by
  unfold startReadClock
  split
  · rfl
  · rfl

theorem dropQueued_counter (id : UInt32) : (mux.dropQueued id).nextDynamicId = mux.nextDynamicId := by
  unfold dropQueued
  split
  · rfl
  · rfl

theorem Moves.same : Moves terms this this := .quiet this.stack (fun _ => rfl) rfl

theorem Moves.onMux {change : ChannelMux τ → ChannelMux τ} (quiet : Quiet this.mux (change this.mux))
    (counter : (change this.mux).nextDynamicId = this.mux.nextDynamicId) :
    Moves terms this (this.onMux change) := .quiet this.stack quiet counter

theorem Moves.push (rest : Waiting) : Moves terms this (this.push rest) :=
  .quiet (rest :: this.stack) (fun _ => rfl) rfl

theorem openOutbound_moves (protocolId : Bytes) (policy : ChannelPolicy) {fixedId : Option UInt32}
    (may : terms.Allows this (.call (.openOutbound protocolId policy fixedId))) :
    Moves terms this (this.openOutbound protocolId policy fixedId) := by
  unfold openOutbound
  cases fixedId with
  | some id =>
      show Moves terms this (if _ then _ else _)
      split
      · exact .same
      · rename_i free
        exact .record (Option.not_isSome_iff_eq_none.mp free) may
  | none =>
      show Moves terms this (if _ then _ else _)
      have counted : Moves terms this (this.onMux fun mux =>
          { mux with nextDynamicId := this.mux.allocateId.2 }) := .count _ may.1
      split
      · exact counted
      · rename_i free
        exact counted.trans (.record (Option.not_isSome_iff_eq_none.mp free) (may.2 _))

theorem sendData_moves (id : UInt32) (payload : Bytes) :
    Moves terms this (this.sendData id payload) := by
  unfold sendData
  split
  · exact .same
  · rename_i channel found
    split
    · exact .same
    · rename_i usable
      split
      · exact .same
      · exact .use found (not_not.mp usable)

theorem closeChannel_moves {id : UInt32} (may : terms.Allows this (.call (.closeChannel id))) :
    Moves terms this (this.closeChannel id) := by
  unfold closeChannel
  split
  · exact .same
  · rename_i channel found
    exact .assign channel found (may channel found)

theorem close_moves {id : UInt32} {channel : ChannelRecord} (next : ChannelRecord)
    (found : this.mux.channelById id = some channel) :
    Moves terms this (this.assign id next .closed) := .assign next found (terms.ends id _)

theorem resetChannel_moves (id : UInt32) : Moves terms this (this.resetChannel id) := by
  unfold resetChannel
  split
  · exact .same
  · rename_i channel found
    have dropped : ∀ this : ReentrantMux τ, Moves terms this (this.onMux fun mux =>
        mux.dropQueued id) := fun this => .onMux (quiet_dropQueued id) (dropQueued_counter id)
    exact ((close_moves channel found).trans (dropped _)).trans (.push _)

theorem detach_moves (id : UInt32) : Moves terms this (this.detach id) := by
  unfold detach
  split
  · exact .same
  · rename_i channel found
    exact close_moves _ found

theorem detachAllChannels_moves : Moves terms this this.detachAllChannels := by
  have all : ∀ (ids : List UInt32) (this : ReentrantMux τ),
      Moves terms this (ids.foldl detach this) := by
    intro ids
    induction ids with
    | nil => exact fun this => .same
    | cons id rest ih => exact fun this => (detach_moves id).trans (ih (this.detach id))
  exact (Moves.onMux (quiet_of_channels rfl) rfl).trans (all _ _)

theorem offer_moves (encoded : Bytes) : Moves terms this (this.offer encoded) := by
  unfold offer
  split
  · exact sendData_moves _ _
  · exact .onMux (quiet_of_channels rfl) rfl
  · exact .same

theorem sendCapabilityOffer_moves (protocolId : Bytes) (policy : ChannelPolicy) (encoded : Bytes)
    (may : terms.records kCapabilityChannelId .opening) :
    Moves terms this (this.sendCapabilityOffer protocolId policy encoded) := by
  unfold sendCapabilityOffer
  split
  · exact offer_moves encoded
  · have opened : Moves terms this
        (this.openOutbound protocolId policy (some kCapabilityChannelId)) :=
      openOutbound_moves protocolId policy may
    exact opened.trans (.push _)

theorem notifyAndErase_moves (id : UInt32) (channel : ChannelRecord) :
    Moves terms this (this.notifyAndErase id channel) := by
  unfold notifyAndErase
  split
  · exact .push _
  · exact .erase id

theorem handleOpen_moves {id : UInt32} {protocolId : Bytes} (cls : ChannelClass) (offered : Nat)
    (may : this.mux.channelById id = none → this.mux.openRefusal id protocolId = none →
      terms.records id .opened) : Moves terms this (this.handleOpen id protocolId cls offered) := by
  unfold handleOpen
  split
  · exact .same
  · rename_i free
    have free := Option.not_isSome_iff_eq_none.mp free
    split
    · exact .onMux (quiet_of_channels rfl) rfl
    · rename_i accepted
      exact .record free (may free accepted)

theorem flushPendingOpenData_moves (id : UInt32) :
    Moves terms this (this.flushPendingOpenData id) := by
  unfold flushPendingOpenData
  split
  · exact .same
  · exact (Moves.onMux (quiet_of_channels rfl) rfl).trans (sendData_moves _ _)

theorem handleOpenAck_moves {id : UInt32} {channel : ChannelRecord} (result : UInt8)
    (found : this.mux.channelById id = some channel)
    (may : result = 0 → terms.assigns id channel.state .opened) :
    Moves terms this (this.handleOpenAck id channel result) := by
  unfold handleOpenAck
  split
  · have closes : Moves terms this (this.assign id channel .closed) := close_moves _ found
    exact (closes.trans (.onMux (quiet_of_channels rfl) rfl)).trans (notifyAndErase_moves _ _)
  · rename_i accepts
    have opens : Moves terms this (this.assign id channel .opened) :=
      .assign channel found (may (not_not.mp accepts))
    exact opens.trans (flushPendingOpenData_moves id)

theorem handleEnd_moves {id : UInt32} {channel : ChannelRecord}
    (found : this.mux.channelById id = some channel) :
    Moves terms this (this.handleEnd id channel) := by
  have dropped : Moves terms this (this.onMux fun mux => mux.dropQueued id) :=
    .onMux (quiet_dropQueued id) (dropQueued_counter id)
  obtain ⟨kept, held, _⟩ : ∃ kept, (this.mux.dropQueued id).channelById id = some kept ∧
      kept.state = channel.state := by
    have same : ((this.mux.dropQueued id).channelById id).map _ = _ :=
      quiet_dropQueued id id
    rw [found] at same
    exact Option.map_eq_some_iff.mp same
  exact (dropped.trans (close_moves channel held)).trans (notifyAndErase_moves _ _)

/-- A record changed in place and then used. -/
theorem putChannel_use_moves {id : UInt32} {channel next : ChannelRecord}
    (found : this.mux.channelById id = some channel) (usable : channel.state = .opened)
    (state : next.state = channel.state) :
    Moves terms this ((this.onMux fun mux => mux.putChannel id next).use id) := by
  have put : Moves terms this (this.onMux fun mux => mux.putChannel id next) :=
    .onMux (quiet_putChannel found state) rfl
  have held : (this.onMux fun mux => mux.putChannel id next).mux.channelById id = some next :=
    (channelById_putChannel this.mux id id next).trans (if_pos rfl)
  exact put.trans (.use held (state.trans usable))

theorem handleData_moves {id seq : UInt32} {channel : ChannelRecord}
    (found : this.mux.channelById id = some channel) :
    Moves terms this (this.handleData id seq channel) := by
  unfold handleData
  split
  · exact .same
  · rename_i usable
    split
    · exact .same
    · exact putChannel_use_moves found (not_not.mp usable) rfl

theorem handleFrag_moves {id seq : UInt32} {channel : ChannelRecord} {frag : ChannelFragBody}
    (found : this.mux.channelById id = some channel) :
    Moves terms this (this.handleFrag id seq channel frag) := by
  unfold handleFrag
  split
  · exact .same
  · rename_i usable
    split
    · exact .same
    · dsimp only
      have put : ∀ reassembly, Moves terms this (this.onMux fun mux =>
          mux.putChannel id { countFrame channel with reassembly := reassembly }) :=
        fun _ => .onMux (quiet_putChannel found rfl) rfl
      split
      · exact (put _).trans (resetChannel_moves id)
      · exact put _
      · exact putChannel_use_moves found (not_not.mp usable) rfl

theorem dispatchFrame_moves {frame : ChannelFrame} (may : terms.Hears this frame) :
    Moves terms this (this.dispatchFrame frame) := by
  unfold Terms.Hears at may
  unfold dispatchFrame
  dsimp only
  split
  · rename_i body
    rw [body] at may
    exact handleOpen_moves _ _ may
  · exact .same
  · rename_i channel body found
    rw [body] at may
    exact handleOpenAck_moves _ found fun accepts => may accepts channel found
  · rename_i found
    exact handleEnd_moves found
  · rename_i found
    exact handleEnd_moves found
  · rename_i found
    exact handleData_moves found
  · rename_i found
    exact handleFrag_moves found

theorem expire_moves (ids : List UInt32) :
    ∀ this : ReentrantMux τ, Moves terms this (this.expire ids) := by
  induction ids with
  | nil => exact fun this => .same
  | cons id rest ih =>
      intro this
      unfold expire
      split
      · exact (Moves.push _).trans (resetChannel_moves id)
      · exact ih this

theorem tick_moves (now : Int) : Moves terms this (this.tick now) := by
  have swept : Moves terms this (this.onMux fun mux =>
      mux.mapChannels (sweepChannel mux.tuning now)) := .onMux (quiet_mapChannels fun _ => rfl) rfl
  have clocked : ∀ this : ReentrantMux τ, Moves terms this (this.onMux fun mux =>
      mux.mapChannels (startReadClock now)) := fun _ =>
    .onMux (quiet_mapChannels (startReadClock_state now)) rfl
  exact (swept.trans (clocked _)).trans (expire_moves _ _)

theorem setDataHandler_moves (id : UInt32) (bound : Bool) :
    Moves terms this (this.onMux fun mux => setDataHandler mux id bound) := by
  unfold setDataHandler
  cases found : this.mux.channelById id with
  | some channel =>
      apply Moves.onMux
      · rw [found]
        exact quiet_putChannel found rfl
      · rw [found]
        rfl
  | none =>
      apply Moves.onMux
      · rw [found]
        exact quiet_of_channels rfl
      · rw [found]

theorem setTerminalHandler_moves (id : UInt32) (bound : Bool) :
    Moves terms this (this.onMux fun mux => setTerminalHandler mux id bound) := by
  unfold setTerminalHandler
  cases found : this.mux.channelById id with
  | some channel =>
      apply Moves.onMux
      · rw [found]
        exact quiet_putChannel found rfl
      · rw [found]
        rfl
  | none =>
      apply Moves.onMux
      · rw [found]
        exact quiet_of_channels rfl
      · rw [found]

theorem applyChannelPolicy_moves (id : UInt32) (policy : ChannelPolicy) :
    Moves terms this (this.onMux fun mux => (mux.applyChannelPolicy id policy).1) := by
  unfold applyChannelPolicy
  cases found : this.mux.channelById id with
  | some channel =>
      apply Moves.onMux
      · rw [found]
        exact quiet_putChannel found rfl
      · rw [found]
        rfl
  | none =>
      apply Moves.onMux
      · rw [found]
        exact fun _ => rfl
      · rw [found]

theorem call_moves (called : Call) (may : terms.Allows this (.call called)) :
    Moves terms this (this.call called) := by
  unfold call
  cases called with
  | openOutbound protocolId policy fixedId => exact openOutbound_moves protocolId policy may
  | sendData id payload => exact sendData_moves id payload
  | closeChannel id => exact closeChannel_moves may
  | resetChannel id => exact resetChannel_moves id
  | detachAllChannels => exact detachAllChannels_moves
  | sendCapabilityOffer protocolId policy encoded =>
      exact sendCapabilityOffer_moves protocolId policy encoded may
  | setDataHandler id bound => exact setDataHandler_moves id bound
  | setTerminalHandler id bound => exact setTerminalHandler_moves id bound
  | setProtocolHandler protocolId bound => exact .onMux (quiet_of_channels rfl) rfl
  | clearProtocolHandlers => exact .onMux (quiet_of_channels rfl) rfl
  | setRefuseUnhandledOpens refuse => exact .onMux (quiet_of_channels rfl) rfl
  | setTuning tuning => exact .onMux (quiet_of_channels rfl) rfl
  | applyChannelPolicy id policy => exact applyChannelPolicy_moves id policy
  | clock now => exact .onMux (quiet_of_channels rfl) rfl
  | inbound wire =>
      dsimp only
      split
      · exact .same
      · rename_i frame decoded
        exact dispatchFrame_moves (may frame decoded)
  | tick now => exact tick_moves now

theorem finish_moves (sent : Bool) (rest : Waiting) : Moves terms this (this.finish sent rest) := by
  cases rest with
  | erase id => exact .erase id
  | expire ids => exact expire_moves ids this
  | offer encoded =>
      show Moves terms this (if sent then this.offer encoded else this)
      split
      · exact offer_moves encoded
      · exact .same

theorem step_moves (event : Event) (may : terms.Allows this event) :
    Moves terms this (this.step event) := by
  cases event with
  | call called => exact call_moves called may
  | returned sent =>
      unfold step
      dsimp only
      split
      · exact .same
      · rename_i rest stack _
        have popped : Moves terms this { this with stack := stack } :=
          .quiet stack (fun _ => rfl) rfl
        exact popped.trans (finish_moves sent rest)

end Calls

theorem Onward.allows {this : ReentrantMux τ} (event : Event) :
    (forwardTerms (this.Onward event)).Allows this event := by
  cases event with
  | returned sent => trivial
  | call called =>
      cases called with
      | openOutbound protocolId policy fixedId =>
          cases fixedId with
          | some id => trivial
          | none => exact ⟨trivial, fun _ => trivial⟩
      | closeChannel id =>
          intro channel found onward
          have live := onward channel found
          cases state : channel.state with
          | opening => decide
          | opened => decide
          | closing => decide
          | closed => exact absurd state live
      | inbound wire =>
          intro frame decoded
          unfold Terms.Hears
          cases body : frame.body with
          | openAck result =>
              intro accepts channel found onward
              have early := onward frame.channelId frame.channelSeq channel
                (by rw [decoded, ← accepts, ← body]) found
              rcases early with state | state
              · rw [state]
                decide
              · rw [state]
          | openFrame protocolId cls version offered => exact fun _ _ => trivial
          | _ => trivial
      | _ => trivial

theorem step_advances {this : ReentrantMux τ} (event : Event) :
    Moves (forwardTerms (this.Onward event)) this (this.step event) :=
  step_moves event (Onward.allows event)

/-- What is still added to a trace. -/
theorem Moves.trace {terms : Terms} {before after : ReentrantMux τ}
    (moves : Moves terms before after) : ∃ later, after.trace = before.trace ++ later := by
  induction moves with
  | quiet stack same counter => exact ⟨[], (List.append_nil _).symm⟩
  | count next may => exact ⟨[], (List.append_nil _).symm⟩
  | record free may => exact ⟨_, rfl⟩
  | assign next found may => exact ⟨_, rfl⟩
  | use found usable => exact ⟨_, rfl⟩
  | erase id => exact ⟨[], (List.append_nil _).symm⟩
  | trans one two first second =>
      obtain ⟨more, first⟩ := first
      obtain ⟨rest, second⟩ := second
      exact ⟨more ++ rest, by rw [second, first, List.append_assoc]⟩

section Forced

variable {this : ReentrantMux τ}

/-- A record put back shows for good. -/
theorem Tracked.not_forward (tracked : this.Tracked) {id : UInt32} {channel : ChannelRecord}
    (found : this.mux.channelById id = some channel) {state : ChannelState} (next : ChannelRecord)
    (back : state.rank < channel.state.rank) {terms : Terms} {after : ReentrantMux τ}
    (moves : Moves terms (this.assign id next state) after) : ¬ after.Forward := by
  obtain ⟨later, trace⟩ := moves.trace
  unfold Forward
  rw [trace]
  exact not_orderly_of_back (tracked.current id channel found) back later

/-- A step after which every record still went forward was onward. -/
theorem onward_of_forward (tracked : this.Tracked) (event : Event)
    (forward : (this.step event).Forward) : this.Onward event := by
  cases event with
  | returned sent => trivial
  | call called =>
      cases called with
      | closeChannel id =>
          intro channel found closed
          have step : this.step (.call (.closeChannel id)) = this.assign id channel .closing := by
            show this.closeChannel id = _
            unfold closeChannel
            rw [found]
          rw [step] at forward
          have kept : Moves (forwardTerms True) (this.assign id channel .closing) _ := .same
          have back : ChannelState.closing.rank < channel.state.rank := by
            rw [closed]
            decide
          exact tracked.not_forward found channel back kept forward
      | inbound wire =>
          intro id seq channel decoded found
          have step : this.step (.call (.inbound wire)) =
              (this.assign id channel .opened).flushPendingOpenData id := by
            show this.call (.inbound wire) = _
            unfold call
            dsimp only
            rw [decoded]
            dsimp only
            unfold dispatchFrame
            dsimp only
            rw [found]
            exact if_neg fun refused => refused rfl
          rw [step] at forward
          have flushed : Moves (forwardTerms True) (this.assign id channel .opened) _ :=
            flushPendingOpenData_moves id
          have passes : ¬ ChannelState.opened.rank < channel.state.rank := fun back =>
            tracked.not_forward found channel back flushed forward
          cases state : channel.state with
          | opening => exact Or.inl rfl
          | opened => exact Or.inr rfl
          | closing => exact absurd (by rw [state]; decide) passes
          | closed => exact absurd (by rw [state]; decide) passes
      | _ => trivial

end Forced

/-- A mux as its constructor leaves it. -/
def create (initiator : Bool) (transport : τ) : ReentrantMux τ where
  mux := ChannelMux.create initiator transport

theorem create_tracked (initiator : Bool) (transport : τ) :
    (create initiator transport : ReentrantMux τ).Tracked := by
  have none : ∀ id, (create initiator transport : ReentrantMux τ).mux.channelById id = none :=
    fun _ => rfl
  refine ⟨?_, ?_, ?_, fun _ _ => rfl⟩
  · intro id channel held
    rw [none] at held
    cases held
  · intro one two first
    rw [none] at first
    cases first
  · intro id held
    rw [none] at held
    cases held

theorem create_forward (initiator : Bool) (transport : τ) :
    (create initiator transport : ReentrantMux τ).Forward := orderly_nil _ _

/-- States only move forward in exactly the runs whose every step is onward. -/
theorem forward_iff_onward (initiator : Bool) (transport : τ) (events : List Event) :
    Run.Always step Forward (create initiator transport) events ↔
      Run.Meets step Onward (create initiator transport) events := by
  constructor
  · apply Run.meets_of_always step Onward Tracked Forward
    · exact fun this event tracked => (step_advances event).tracked tracked
    · exact fun this event tracked forward => onward_of_forward tracked event forward
    · exact create_tracked initiator transport
  · intro met
    apply Run.always_of_invariant step Onward (fun this => this.Tracked ∧ this.Forward) Forward
      _ (fun this holds => holds.2) events _ met
      ⟨create_tracked initiator transport, create_forward initiator transport⟩
    intro this event onward holds
    have moves : Moves (forwardTerms (this.Onward event)) this (this.step event) := step_advances event
    exact ⟨moves.tracked holds.1, moves.forward onward holds.1 holds.2⟩

/-- A channel closed before its OPEN_ACK came is open again when it comes. -/
def closedEarly : List Event :=
  [.call (.openOutbound [] {} none), .call (.closeChannel 1),
    .call (.inbound [1, 1, 0, 0, 0, 0, 0, 0, 0, 0])]

theorem reopened_by_ack : ¬ Run.Always step Forward (create true ()) closedEarly := by
  intro always
  have last : Forward (Run.exec step (create true ()) closedEarly) := always.2.2.2
  have trace : (Run.exec step (create true ()) closedEarly).trace =
      [.became 0 .opening, .became 0 .closing, .became 0 .opened] := by decide
  unfold Forward at last
  rw [trace] at last
  exact absurd (last.forward 0) (by decide)

end ReentrantMux

end Amp
