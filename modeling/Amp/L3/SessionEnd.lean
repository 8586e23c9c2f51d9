import Amp.L3.ChannelSession

set_option autoImplicit false

/- When a closed session is closed for good. -/
namespace Amp

open Adp (Bytes)

namespace ReentrantMux

open ChannelMux

variable {τ : Type} {this : ReentrantMux τ} {id : UInt32}

/-- A frame that makes the record of a channel Open. -/
def opens (mux : ChannelMux τ) (id : UInt32) (frame : ChannelFrame) : Bool :=
  frame.channelId == id && match frame.body with
    | .openFrame protocolId _ _ _ =>
        (mux.channelById id).isNone && (mux.openRefusal id protocolId).isNone
    | .openAck result => result == 0 && (mux.channelById id).isSome
    | _ => false

/-- The channel is not Open. -/
def Idle (this : ReentrantMux τ) (id : UInt32) : Prop := this.mux.state id ≠ .opened

theorem state_eq (mux : ChannelMux τ) (id : UInt32) :
    mux.state id = ((mux.channelById id).map ChannelRecord.state).getD .closed := by
  unfold ChannelMux.state
  split
  · rename_i found
    rw [found]
    rfl
  · rename_i none
    rw [none]
    rfl

theorem Quiet.state {before after : ChannelMux τ} (quiet : Quiet before after) (id : UInt32) :
    after.state id = before.state id := by
  rw [state_eq, state_eq, quiet id]

theorem assign_state (channel : ChannelRecord) (state : ChannelState) (other : UInt32) :
    (this.assign id channel state).mux.state other =
      if other = id then state else this.mux.state other := by
  have reads := channelById_putChannel this.mux other id { channel with state := state }
  rw [state_eq, state_eq]
  show ((ChannelMux.channelById (this.mux.putChannel id _) other).map _).getD _ = _
  rw [reads]
  split
  · rfl
  · rfl

theorem record_state (channel : ChannelRecord) (other : UInt32) :
    (this.record channel).mux.state other =
      if other = channel.id then channel.state else this.mux.state other := by
  rw [state_eq, state_eq, channelById_record]
  split
  · rfl
  · rfl

theorem erase_state (other : UInt32) :
    (this.erase id).mux.state other = if other = id then .closed else this.mux.state other := by
  rw [state_eq, state_eq]
  show ((ChannelMux.channelById (this.mux.eraseChannel id) other).map _).getD _ = _
  rw [channelById_eraseChannel]
  split
  · rfl
  · rfl

theorem Idle.quiet {after : ReentrantMux τ} (idle : this.Idle id) (quiet : Quiet this.mux after.mux) :
    after.Idle id := by
  unfold Idle
  rw [quiet.state]
  exact idle

theorem Idle.assign (idle : this.Idle id) {other : UInt32} (channel : ChannelRecord)
    {state : ChannelState} (unopened : other = id → state ≠ .opened) :
    (this.assign other channel state).Idle id := by
  unfold Idle
  rw [assign_state]
  split
  · rename_i same
    exact unopened same.symm
  · exact idle

theorem Idle.record (idle : this.Idle id) {channel : ChannelRecord}
    (unopened : channel.id = id → channel.state ≠ .opened) : (this.record channel).Idle id := by
  unfold Idle
  rw [record_state]
  split
  · rename_i same
    exact unopened same.symm
  · exact idle

theorem Idle.erase (idle : this.Idle id) (other : UInt32) : (this.erase other).Idle id := by
  unfold Idle
  rw [erase_state]
  split
  · exact ChannelState.noConfusion
  · exact idle

/-- The channel is not opened. -/
def idleTerms (id : UInt32) : Terms where
  counts := True
  records other state := other = id → state ≠ .opened
  assigns other _ state := other = id → state ≠ .opened
  ends _ _ _ := ChannelState.noConfusion

theorem Moves.idle {after : ReentrantMux τ} (moves : Moves (idleTerms id) this after) :
    this.Idle id → after.Idle id := by
  induction moves with
  | quiet stack same counter => exact fun idle => idle.quiet same
  | count next may => exact fun idle => idle
  | record free may => exact fun idle => idle.record may
  | assign next found may => exact fun idle => idle.assign next may
  | use found usable => exact fun idle => idle
  | erase other => exact fun idle => idle.erase other
  | trans one two first second => exact fun idle => second (first idle)

theorem sendData_mux (payload : Bytes) : (this.sendData id payload).mux = this.mux := by
  unfold sendData
  split
  · rfl
  · split
    · rfl
    · split
      · rfl
      · rfl

theorem state_closed_of_none (none : this.mux.channelById id = none) : this.mux.state id = .closed := by
  rw [state_eq, none]
  rfl

theorem closeChannel_ends : (this.closeChannel id).Idle id := by
  unfold closeChannel Idle
  split
  · rename_i none
    rw [state_closed_of_none none]
    exact ChannelState.noConfusion
  · rw [assign_state, if_pos rfl]
    exact ChannelState.noConfusion

theorem resetChannel_ends : (this.resetChannel id).Idle id := by
  unfold resetChannel
  split
  · rename_i none
    unfold Idle
    rw [state_closed_of_none none]
    exact ChannelState.noConfusion
  · rename_i channel _
    have closed : (this.assign id channel .closed).Idle id := by
      unfold Idle
      rw [assign_state, if_pos rfl]
      exact ChannelState.noConfusion
    exact closed.quiet (quiet_dropQueued id)

theorem erase_ends : (this.erase id).Idle id := by
  unfold Idle
  rw [erase_state, if_pos rfl]
  exact ChannelState.noConfusion

theorem flushPendingOpenData_quiet (other : UInt32) :
    Quiet this.mux (this.flushPendingOpenData other).mux := by
  unfold flushPendingOpenData
  split
  · exact fun _ => rfl
  · rw [sendData_mux]
    exact quiet_of_channels rfl

/-- A record is closed when its handler is told of its end. -/
theorem notifyAndErase_ends {channel : ChannelRecord} (closed : this.mux.state id = .closed) :
    (this.notifyAndErase id channel).Idle id := by
  apply (notifyAndErase_moves id channel).idle
  unfold Idle
  rw [closed]
  exact ChannelState.noConfusion

theorem handleEnd_ends (channel : ChannelRecord) : (this.handleEnd id channel).Idle id := by
  apply notifyAndErase_ends
  exact (assign_state channel .closed id).trans (if_pos rfl)

theorem handleOpenAck_ends (channel : ChannelRecord) {result : UInt8} (refuses : result ≠ 0) :
    (this.handleOpenAck id channel result).Idle id := by
  unfold handleOpenAck
  rw [if_pos refuses]
  apply notifyAndErase_ends
  exact (assign_state channel .closed id).trans (if_pos rfl)

theorem opens_hears {frame : ChannelFrame} (quiet : opens this.mux id frame = false) :
    (idleTerms id).Hears this frame := by
  unfold opens at quiet
  unfold Terms.Hears
  cases body : frame.body with
  | openFrame protocolId cls version offered =>
      intro free accepted same
      rw [body, same] at quiet
      rw [same] at free accepted
      simp [free, accepted] at quiet
  | openAck result =>
      intro accepts channel found same
      rw [body, same] at quiet
      rw [same] at found
      simp [accepts, found] at quiet
  | _ => trivial

theorem dispatchFrame_idle (idle : this.Idle id) {frame : ChannelFrame}
    (quiet : opens this.mux id frame = false) : (this.dispatchFrame frame).Idle id :=
  (dispatchFrame_moves (opens_hears quiet)).idle idle

/-- And no other frame does. -/
theorem dispatchFrame_opens {frame : ChannelFrame} (opening : opens this.mux id frame = true) :
    (this.dispatchFrame frame).mux.state id = .opened := by
  unfold opens at opening
  rw [Bool.and_eq_true, beq_iff_eq] at opening
  obtain ⟨own, opening⟩ := opening
  unfold dispatchFrame
  dsimp only
  cases body : frame.body with
  | openFrame protocolId cls version offered =>
      rw [body] at opening
      simp only [Bool.and_eq_true, Option.isNone_iff_eq_none] at opening
      obtain ⟨free, accepted⟩ := opening
      dsimp only
      unfold handleOpen
      rw [own, free, accepted]
      exact (record_state _ id).trans (if_pos rfl)
  | openAck result =>
      rw [body] at opening
      simp only [Bool.and_eq_true, beq_iff_eq] at opening
      obtain ⟨accepts, there⟩ := opening
      obtain ⟨channel, found⟩ := Option.isSome_iff_exists.mp there
      rw [own, found]
      dsimp only
      unfold handleOpenAck
      rw [if_neg (not_not.mpr accepts), (flushPendingOpenData_quiet id).state]
      exact (assign_state channel .opened id).trans (if_pos rfl)
  | _ =>
      rw [body] at opening
      cases opening

theorem call_idle (idle : this.Idle id) {called : Call}
    (quiet : ∀ wire frame, called = .inbound wire → ChannelWire.decode wire = .ok frame →
      opens this.mux id frame = false) : (this.call called).Idle id := by
  have allows : (idleTerms id).Allows this (.call called) := by
    cases called with
    | openOutbound protocolId policy fixedId =>
        cases fixedId with
        | some other => exact fun _ => ChannelState.noConfusion
        | none => exact ⟨trivial, fun _ _ => ChannelState.noConfusion⟩
    | sendCapabilityOffer protocolId policy encoded => exact fun _ => ChannelState.noConfusion
    | closeChannel other => exact fun _ _ _ => ChannelState.noConfusion
    | inbound wire => exact fun frame decoded => opens_hears (quiet wire frame rfl decoded)
    | _ => trivial
  exact (call_moves called allows).idle idle

end ReentrantMux

def SessionMark.isFrame : SessionMark → Bool
  | .framed _ => true
  | _ => false

/-- What the closed callback is called with. -/
def SessionMark.notice : SessionMark → Option String
  | .told reason => some reason
  | _ => none

/-- The last part of a close begun. -/
def Rest.ends : Rest → Bool
  | .finish _ => true
  | _ => false

/-- Left to do by the mux. -/
def Rest.muxes : Rest → Bool
  | .mux _ | .expire _ | .tell .. => true
  | _ => false

theorem Rest.muxes_ofWaiting (rest : Waiting) : (Rest.ofWaiting rest).muxes = true := by
  cases rest <;> rfl

theorem Rest.ends_of_muxes {rest : Rest} (muxes : rest.muxes = true) : rest.ends = false := by
  cases rest with
  | finish route => cases muxes
  | _ => rfl

namespace SessionMux

variable {τ : Type} {this after : SessionMux τ} {callback : Bool}

/-- What the owner of the session sees when it ends. -/
def notices (callback : Bool) (route : Route) : List SessionMark :=
  if callback then route.reason.toList.map SessionMark.told else []

/-- How far a session is: open, with a close begun that waits for the mux, or closed. -/
inductive Phase (callback : Bool) (this : SessionMux τ) : Prop
  | opened (live : this.session.closed = false)
      (frames : ∀ mark ∈ this.trace, mark.isFrame = true) (set : this.session.onClosed = callback)
      (none : ∀ rest ∈ this.stack, rest.ends = false)
  | closing (route : Route) (before : List SessionMark) (above below : List Rest)
      (closed : this.session.closed = true) (trace : this.trace = before ++ [.closing route])
      (frames : ∀ mark ∈ before, mark.isFrame = true) (set : this.session.onClosed = callback)
      (stack : this.stack = above ++ .finish route :: below)
      (muxes : ∀ rest ∈ above, rest.muxes = true) (none : ∀ rest ∈ below, rest.ends = false)
  | finished (route : Route) (before : List SessionMark) (closed : this.session.closed = true)
      (trace : this.trace = before ++ .closing route :: notices callback route)
      (frames : ∀ mark ∈ before, mark.isFrame = true) (noFrame : this.session.onFrame = false)
      (noClosed : this.session.onClosed = false) (none : ∀ rest ∈ this.stack, rest.ends = false)

/-- Whether a session reads and tells as it did. -/
structure Same (after this : SessionMux τ) : Prop where
  closed : after.session.closed = this.session.closed
  onFrame : after.session.onFrame = this.session.onFrame
  onClosed : after.session.onClosed = this.session.onClosed
  trace : after.trace = this.trace

section Phases

/-- Calls may wait for the mux at any time, and for others while the session is open. -/
theorem Phase.idle (phase : this.Phase callback) (same : after.Same this) {added : List Rest}
    (stack : after.stack = added ++ this.stack) (apart : ∀ rest ∈ added, rest.muxes = true ∨
      this.session.closed = false ∧ rest.ends = false) : after.Phase callback := by
  have none (before : ∀ rest ∈ this.stack, rest.ends = false) :
      ∀ rest ∈ after.stack, rest.ends = false := by
    intro rest held
    rw [stack] at held
    rcases List.mem_append.mp held with new | old
    · rcases apart rest new with muxes | other
      · exact Rest.ends_of_muxes muxes
      · exact other.2
    · exact before rest old
  cases phase with
  | opened live frames set clear =>
      apply Phase.opened
      · rw [same.closed, live]
      · rw [same.trace]
        exact frames
      · rw [same.onClosed, set]
      · exact none clear
  | closing route before above below closed trace frames set begun muxes clear =>
      apply Phase.closing route before (added ++ above) below
      · rw [same.closed, closed]
      · rw [same.trace, trace]
      · exact frames
      · rw [same.onClosed, set]
      · rw [stack, begun, List.append_assoc]
      · intro rest held
        rcases List.mem_append.mp held with new | old
        · rcases apart rest new with passes | other
          · exact passes
          · rw [closed] at other
            cases other.1
        · exact muxes rest old
      · exact clear
  | finished route before closed trace frames noFrame noClosed clear =>
      apply Phase.finished route before
      · rw [same.closed, closed]
      · rw [same.trace, trace]
      · exact frames
      · rw [same.onFrame, noFrame]
      · rw [same.onClosed, noClosed]
      · exact none clear

theorem Phase.same (phase : this.Phase callback) (same : after.Same this)
    (stack : after.stack = this.stack) : after.Phase callback := by
  have none : after.stack = [] ++ this.stack := stack
  exact phase.idle same none fun _ held => absurd held List.not_mem_nil

theorem onMux_same (this : SessionMux τ) (call : ReentrantMux τ → ReentrantMux τ) : (this.onMux call).Same this ∧
    ∃ added, (this.onMux call).stack = added ++ this.stack ∧ ∀ rest ∈ added, rest.muxes = true := by
  unfold onMux
  split
  · exact ⟨⟨rfl, rfl, rfl, rfl⟩, [], rfl, fun _ held => absurd held List.not_mem_nil⟩
  · refine ⟨⟨rfl, rfl, rfl, rfl⟩, _, rfl, ?_⟩
    intro rest held
    obtain ⟨waiting, _, rfl⟩ := List.mem_map.mp held
    exact Rest.muxes_ofWaiting waiting

theorem onMux_phase (phase : this.Phase callback) (call : ReentrantMux τ → ReentrantMux τ) :
    (this.onMux call).Phase callback := by
  obtain ⟨same, added, stack, muxes⟩ := this.onMux_same call
  exact phase.idle same stack fun rest held => Or.inl (muxes rest held)

theorem leave_same (this : SessionMux τ) (rest : Rest) (call : ReentrantMux τ → ReentrantMux τ) :
    (this.leave rest call).Same this ∧ (this.leave rest call).stack = rest :: this.stack := by
  unfold leave
  split
  · exact ⟨⟨rfl, rfl, rfl, rfl⟩, rfl⟩
  · exact ⟨⟨rfl, rfl, rfl, rfl⟩, rfl⟩

theorem leave_phase (phase : this.Phase callback) {rest : Rest}
    (apart : rest.muxes = true ∨ this.session.closed = false ∧ rest.ends = false)
    (call : ReentrantMux τ → ReentrantMux τ) : (this.leave rest call).Phase callback := by
  obtain ⟨same, stack⟩ := this.leave_same rest call
  have added : (this.leave rest call).stack = [rest] ++ this.stack := stack
  apply phase.idle same added
  intro other held
  rw [List.mem_singleton.mp held]
  exact apart

/-- A session closed with nothing to wait for. -/
theorem Phase.finish (phase : this.Phase callback) (live : this.session.closed = false)
    (route : Route) : ((this.shut route).finishClosed route.reason).Phase callback := by
  cases phase with
  | opened _ frames set clear =>
      apply Phase.finished route this.trace
      · rfl
      · show (this.shut route).trace ++ (if this.session.onClosed then _ else _) = _
        unfold shut
        rw [live, set]
        exact List.append_assoc ..
      · exact frames
      · rfl
      · rfl
      · exact clear
  | closing route before above below closed =>
      rw [closed] at live
      cases live
  | finished route before closed =>
      rw [closed] at live
      cases live

/-- A close that waits for the mux. -/
theorem Phase.begin (phase : this.Phase callback) (live : this.session.closed = false) (route : Route)
    (call : ReentrantMux τ → ReentrantMux τ) :
    ((this.shut route).leave (.finish route) call).Phase callback := by
  obtain ⟨same, stack⟩ := (this.shut route).leave_same (.finish route) call
  cases phase with
  | opened _ frames set clear =>
      apply Phase.closing route this.trace [] this.stack
      · rw [same.closed]
        rfl
      · rw [same.trace]
        unfold shut
        rw [live]
        rfl
      · exact frames
      · rw [same.onClosed]
        exact set
      · exact stack
      · exact fun _ none => absurd none List.not_mem_nil
      · exact clear
  | closing route before above below closed =>
      rw [closed] at live
      cases live
  | finished route before closed =>
      rw [closed] at live
      cases live

theorem notifyRemoteTerminal_phase (phase : this.Phase callback) (reason : String) :
    (this.notifyRemoteTerminal reason).Phase callback := by
  unfold notifyRemoteTerminal
  split
  · exact phase
  · rename_i live
    exact phase.finish (Bool.eq_false_of_not_eq_true live) (.terminal reason)

theorem onTerminal_phase (phase : this.Phase callback) (reason : String) :
    (this.onTerminal reason).Phase callback := by
  unfold onTerminal
  split
  · apply notifyRemoteTerminal_phase
    exact phase.same ⟨rfl, rfl, rfl, rfl⟩ rfl
  · exact notifyRemoteTerminal_phase phase reason

theorem closeBy_phase (phase : this.Phase callback) (route : Route) :
    (this.closeBy route).Phase callback := by
  unfold closeBy
  split
  · exact phase
  · rename_i open_
    simp only [Bool.or_eq_true, Bool.not_eq_true', not_or, Bool.not_eq_true] at open_
    split
    · exact phase.begin open_.1 route _
    · exact phase.finish open_.1 route

theorem reset_phase (phase : this.Phase callback) : this.reset.Phase callback := by
  unfold reset
  split
  · exact phase
  · rename_i open_
    simp only [Bool.or_eq_true, Bool.not_eq_true', not_or, Bool.not_eq_true] at open_
    split
    · exact phase.begin open_.1 .reset _
    · exact phase.finish open_.1 .reset

/-- A failed write of a session that is open, or has nothing to tell any more. -/
theorem writeFailed_phase (phase : this.Phase callback) (ready : this.session.closed = false ∨
    this.session.onFrame = false ∧ this.session.onClosed = false) :
    this.writeFailed.Phase callback := by
  have idle : (this.onSession ChannelSession.idle).Phase callback :=
    phase.same ⟨rfl, rfl, rfl, rfl⟩ rfl
  unfold writeFailed failOutbound
  cases closed : this.session.closed with
  | false => exact idle.finish closed .writeFailed
  | true =>
      rw [closed] at ready
      obtain ⟨noFrame, noClosed⟩ := ready.resolve_left Bool.true_eq_false.mp
      have same : (((this.onSession ChannelSession.idle).shut .writeFailed).finishClosed
          Route.writeFailed.reason).Same this := by
        refine ⟨closed.symm, noFrame.symm, noClosed.symm, ?_⟩
        show (if this.session.closed then this.trace else _) ++
          (if this.session.onClosed then _ else []) = this.trace
        rw [closed, noClosed]
        exact List.append_nil _
      exact phase.same same rfl

theorem next_live {session : ChannelSession} {body : Bytes} (next : session.next = some body) :
    session.closed = false := by
  unfold ChannelSession.next at next
  split at next
  · cases next
  · rename_i open_
    simp only [Bool.or_eq_true, not_or, Bool.not_eq_true] at open_
    exact open_.1.2

theorem pumpWrite_phase (phase : this.Phase callback) : this.pumpWrite.Phase callback := by
  unfold pumpWrite
  split
  · exact phase
  · rename_i body next
    have live := next_live next
    dsimp only
    have taken : (this.onSession fun session =>
        { session with writeInflight := true, outbound := session.outbound.tail }).Phase callback :=
      phase.same ⟨rfl, rfl, rfl, rfl⟩ rfl
    split
    · exact leave_phase taken (Or.inr ⟨live, rfl⟩) _
    · exact writeFailed_phase taken (Or.inl live)

theorem written_phase (phase : this.Phase callback) (sent : Bool)
    (ready : this.session.closed = false ∨
      this.session.onFrame = false ∧ this.session.onClosed = false) :
    (this.written sent).Phase callback := by
  unfold written
  split
  · apply pumpWrite_phase
    exact phase.same ⟨rfl, rfl, rfl, rfl⟩ rfl
  · exact writeFailed_phase phase ready

theorem accept_phase (phase : this.Phase callback) (body : Bytes) :
    (this.accept body).Phase callback := by
  apply pumpWrite_phase
  exact phase.same ⟨rfl, rfl, rfl, rfl⟩ rfl

theorem push_phase (phase : this.Phase callback) {rest : Rest}
    (apart : rest.muxes = true ∨ this.session.closed = false ∧ rest.ends = false) :
    (this.push rest).Phase callback := by
  have same : (this.push rest).Same this := ⟨rfl, rfl, rfl, rfl⟩
  have added : (this.push rest).stack = [rest] ++ this.stack := rfl
  apply phase.idle same added
  intro other held
  rw [List.mem_singleton.mp held]
  exact apart

theorem enqueueOutbound_phase (phase : this.Phase callback) (body : Bytes) :
    (this.enqueueOutbound body).Phase callback := by
  unfold enqueueOutbound
  split
  · exact phase
  · rename_i open_
    simp only [Bool.or_eq_true, Bool.not_eq_true', not_or, Bool.not_eq_true] at open_
    split
    · exact accept_phase phase body
    · split
      · exact phase
      · have dropped : (this.onSession ChannelSession.dropOldest).Phase callback :=
          phase.same ⟨rfl, rfl, rfl, rfl⟩ rfl
        split
        · exact push_phase dropped (Or.inr ⟨open_.1, rfl⟩)
        · exact accept_phase dropped body

theorem onData_phase (phase : this.Phase callback) (payload : Bytes) :
    (this.onData payload).Phase callback := by
  unfold onData
  split
  · exact phase
  · rename_i open_
    simp only [Bool.or_eq_true, not_or, Bool.not_eq_true] at open_
    have read : ({ this with trace := this.trace ++ [.framed payload] } : SessionMux τ).Phase
        callback := by
      cases phase with
      | opened live frames set none =>
          apply Phase.opened
          · exact live
          · intro mark held
            rcases List.mem_append.mp held with old | new
            · exact frames mark old
            · rw [List.mem_singleton.mp new]
              rfl
          · exact set
          · exact none
      | closing route before above below closed =>
          rw [closed] at open_
          cases open_.1
      | finished route before closed =>
          rw [closed] at open_
          cases open_.1
    have waits : Rest.frame.ends = false := rfl
    exact push_phase read (Or.inr ⟨open_.1, waits⟩)

theorem framed_phase (phase : this.Phase callback) (keepOpen : Bool) :
    (this.framed keepOpen).Phase callback := by
  unfold framed
  split
  · exact closeBy_phase phase .close
  · exact phase

theorem hear_phase (phase : this.Phase callback) (frame : ChannelFrame) (channel : ChannelRecord)
    (notice : Notice) : (this.hear frame channel notice).Phase callback := by
  have dispatched : (this.onMux fun mux => mux.dispatchFrame frame).Phase callback :=
    onMux_phase phase _
  cases notice with
  | data payload =>
      unfold hear
      dsimp only
      split
      · exact onData_phase dispatched payload
      · exact dispatched
  | terminal reason =>
      unfold hear
      dsimp only
      split
      · exact onTerminal_phase dispatched reason
      · exact dispatched
  | badMessage =>
      unfold hear
      exact leave_phase phase (Or.inl rfl) _

theorem dispatchFrame_phase (phase : this.Phase callback) (frame : ChannelFrame) :
    (this.dispatchFrame frame).Phase callback := by
  unfold dispatchFrame
  split
  · exact onMux_phase phase _
  · exact hear_phase phase frame _ _

theorem expire_phase (ids : List UInt32) :
    ∀ this : SessionMux τ, this.Phase callback → (this.expire ids).Phase callback := by
  induction ids with
  | nil => exact fun _ phase => phase
  | cons id rest ih =>
      intro this phase
      unfold expire
      split
      · exact ih this phase
      · have waits : (this.push (.expire rest)).Phase callback := push_phase phase (Or.inl rfl)
        dsimp only
        split
        · exact leave_phase waits (Or.inl rfl) _
        · exact onMux_phase waits _

theorem tick_phase (phase : this.Phase callback) (now : Int) : (this.tick now).Phase callback := by
  apply expire_phase
  exact onMux_phase (onMux_phase phase _) _

theorem detach_phase (phase : this.Phase callback) : this.detach.Phase callback := by
  unfold detach
  split
  · exact phase
  · have detached : (this.onMux fun mux => mux.detachAllChannels).Phase callback :=
      onMux_phase phase _
    exact detached.same ⟨rfl, rfl, rfl, rfl⟩ rfl

theorem linkNotice_phase (phase : this.Phase callback) : this.linkNotice.Phase callback := by
  unfold linkNotice
  split
  · apply onTerminal_phase
    exact phase.same ⟨rfl, rfl, rfl, rfl⟩ rfl
  · exact phase

theorem call_phase (phase : this.Phase callback) (called : Call) :
    (this.call called).Phase callback := by
  cases called with
  | enqueueOutbound body => exact enqueueOutbound_phase phase body
  | close => exact closeBy_phase phase .close
  | closeQuiet => exact closeBy_phase phase .closeQuiet
  | reset => exact reset_phase phase
  | linkNotice => exact linkNotice_phase phase
  | mux called =>
      cases called with
      | inbound wire =>
          unfold call
          dsimp only
          split
          · exact phase
          · exact dispatchFrame_phase phase _
      | tick now =>
          unfold call
          dsimp only
          split
          · exact phase
          · exact tick_phase phase now
      | detachAllChannels => exact detach_phase phase
      | _ =>
          unfold call
          exact onMux_phase phase _

/-- What a session does next while a close of it waits is the mux's, or its end. -/
theorem Phase.popped (phase : this.Phase callback) {rest : Rest} {stack : List Rest}
    (top : this.stack = rest :: stack) (goesOn : rest.ends = false) :
    ({ this with stack := stack } : SessionMux τ).Phase callback ∧
      (rest.muxes = true ∨ this.session.closed = false ∨
        this.session.onFrame = false ∧ this.session.onClosed = false) := by
  have below (none : ∀ rest ∈ this.stack, rest.ends = false) : ∀ rest ∈ stack, rest.ends = false := by
    intro other held
    apply none
    rw [top]
    exact List.mem_cons_of_mem _ held
  cases phase with
  | opened live frames set none =>
      exact ⟨.opened live frames set (below none), Or.inr (Or.inl live)⟩
  | closing route before above rests closed trace frames set begun muxes none =>
      cases above with
      | nil =>
          rw [top, List.nil_append] at begun
          rw [(List.cons.inj begun).1] at goesOn
          cases goesOn
      | cons first others =>
          rw [top, List.cons_append] at begun
          obtain ⟨rfl, rfl⟩ := List.cons.inj begun
          refine ⟨?_, Or.inl (muxes rest List.mem_cons_self)⟩
          apply Phase.closing route before others rests
          · exact closed
          · exact trace
          · exact frames
          · exact set
          · rfl
          · exact fun other held => muxes other (List.mem_cons_of_mem _ held)
          · exact none
  | finished route before closed trace frames noFrame noClosed none =>
      exact ⟨.finished route before closed trace frames noFrame noClosed (below none),
        Or.inr (Or.inr ⟨noFrame, noClosed⟩)⟩

/-- The end of a close, once the mux is done. -/
theorem Phase.ended (phase : this.Phase callback) {route : Route} {stack : List Rest}
    (top : this.stack = .finish route :: stack) :
    (({ this with stack := stack } : SessionMux τ).finishClosed route.reason).Phase callback := by
  cases phase with
  | opened live frames set none =>
      have clear := none (.finish route) (top ▸ List.mem_cons_self)
      cases clear
  | closing begun before above rests closed trace frames set waits muxes none =>
      cases above with
      | nil =>
          rw [top, List.nil_append] at waits
          obtain ⟨isRoute, rfl⟩ := List.cons.inj waits
          obtain rfl := Rest.finish.inj isRoute
          apply Phase.finished route before
          · exact closed
          · show this.trace ++ (if this.session.onClosed then _ else _) = _
            rw [trace, set]
            exact List.append_assoc ..
          · exact frames
          · rfl
          · rfl
          · exact none
      | cons first others =>
          rw [top, List.cons_append] at waits
          have passes := muxes first List.mem_cons_self
          rw [← (List.cons.inj waits).1] at passes
          cases passes
  | finished begun before closed trace frames noFrame noClosed none =>
      have clear := none (.finish route) (top ▸ List.mem_cons_self)
      cases clear

theorem finishClosed_same (same : after.Same this) (reason : Option String) :
    (after.finishClosed reason).Same (this.finishClosed reason) := by
  refine ⟨same.closed, rfl, rfl, ?_⟩
  unfold finishClosed
  rw [same.trace, same.onClosed]

/-- The record goes before the end of a reset. -/
theorem Phase.erased {reason : Option String} (phase : (this.finishClosed reason).Phase callback)
    (id : UInt32) : ((this.onMux fun mux => mux.erase id).finishClosed reason).Phase callback := by
  have same := (this.onMux_same fun mux => mux.erase id).1
  apply phase.same (finishClosed_same same reason)
  show (this.onMux fun mux => mux.erase id).stack = this.stack
  unfold onMux
  split
  · rfl
  · rfl

theorem step_phase (phase : this.Phase callback) (event : Event) :
    (this.step event).Phase callback := by
  cases event with
  | call called => exact call_phase phase called
  | returned said =>
      unfold step
      dsimp only
      split
      · exact phase
      · rename_i rest stack top
        cases rest with
        | finish route =>
            have ended := phase.ended top
            cases route with
            | reset => exact ended.erased this.session.channelId
            | _ => exact ended
        | mux rest =>
            obtain ⟨popped, _⟩ := phase.popped top rfl
            unfold finish
            exact onMux_phase popped _
        | expire ids =>
            obtain ⟨popped, _⟩ := phase.popped top rfl
            unfold finish
            dsimp only
            split
            · exact popped
            · exact expire_phase ids _ popped
        | tell reason bound =>
            obtain ⟨popped, _⟩ := phase.popped top rfl
            have erased := onMux_phase popped fun mux => mux.erase this.session.channelId
            unfold finish
            dsimp only
            split
            · exact onTerminal_phase erased reason
            · exact erased
        | enqueue body =>
            obtain ⟨popped, _⟩ := phase.popped top rfl
            exact accept_phase popped body
        | pump =>
            obtain ⟨popped, ready⟩ := phase.popped top rfl
            exact written_phase popped said (ready.resolve_left Bool.false_ne_true)
        | frame =>
            obtain ⟨popped, _⟩ := phase.popped top rfl
            exact framed_phase popped said

end Phases

/-- The mux, as long as it exists, does not have the channel Open. -/
def Idle (this : SessionMux τ) : Prop := this.muxGone = false → this.state ≠ .opened

def NotOpen (this : SessionMux τ) : Prop := this.session.closed = true → this.Idle

/-- The session as a call comes to hand its next body to the mux. -/
def pumping (this : SessionMux τ) : Event → Option ChannelSession
  | .call (.enqueueOutbound body) =>
      if this.session.closed || !this.session.mux then none
      else if !this.session.full then some (this.session.queue body)
      else if this.session.policy.drop = .never || this.session.policy.onOutboundDrop then none
      else some (this.session.dropOldest.queue body)
  | .returned said =>
      match this.stack with
      | .enqueue body :: _ => some (this.session.queue body)
      | .pump :: _ => if said then some this.session.idle else none
      | _ => none
  | _ => none

/-- The mux does not take a body of the session, at once or on the way out. -/
def failsWrite (this : SessionMux τ) (event : Event) : Bool :=
  ((this.pumping event).any fun session => session.next.any fun body => !this.takes body) ||
    match event, this.stack with
    | .returned false, .pump :: _ => true
    | _, _ => false

/-- A frame makes the channel of a closed session Open. -/
def revives (this : SessionMux τ) : Event → Bool
  | .call (.mux (.inbound wire)) =>
      match ChannelWire.decode wire with
      | .error _ => false
      | .ok frame => this.session.closed &&
          ReentrantMux.opens this.mux.mux this.session.channelId frame
  | _ => false

/-- While the mux exists, no write fails on the Open channel, and no frame makes the
channel Open once its session is closed. -/
def Releases (this : SessionMux τ) (event : Event) : Prop := this.muxGone = false →
  (this.failsWrite event = true → this.state ≠ .opened) ∧ this.revives event = false

section Channels

theorem NotOpen.keep (before : this.NotOpen) (closed : after.session.closed = this.session.closed)
    (idle : this.Idle → after.Idle) : after.NotOpen := by
  intro isClosed
  exact idle (before (closed ▸ isClosed))

/-- What a call of the mux does to the channel, as long as the mux exists. -/
theorem onMux_does {call : ReentrantMux τ → ReentrantMux τ} (does : this.muxGone = false →
    (call { this.mux with stack := [] }).Idle this.session.channelId) : (this.onMux call).Idle := by
  intro exists_
  unfold onMux at exists_ ⊢
  split
  · rename_i gone
    rw [if_pos gone, gone] at exists_
    cases exists_
  · rename_i exists_
    exact does (Bool.eq_false_of_not_eq_true exists_)

/-- The mux is the same, whatever waits for it. -/
theorem leave_does (rest : Rest) {call : ReentrantMux τ → ReentrantMux τ} (does : this.muxGone = false →
    (call { this.mux with stack := [] }).Idle this.session.channelId) :
    (this.leave rest call).Idle := by
  intro exists_
  have called : (this.onMux call).Idle := onMux_does does
  unfold onMux at called
  unfold leave at exists_ ⊢
  split
  · rename_i gone
    rw [if_pos gone] at called
    rw [if_pos gone] at exists_
    exact called exists_
  · rename_i stays
    rw [if_neg stays] at called
    exact called (Bool.eq_false_of_not_eq_true stays)

theorem onMux_idle (idle : this.Idle) {call : ReentrantMux τ → ReentrantMux τ}
    (keeps : ∀ mux : ReentrantMux τ, mux.mux = this.mux.mux → mux.Idle this.session.channelId →
      (call mux).Idle this.session.channelId) : (this.onMux call).Idle :=
  onMux_does fun exists_ => keeps { this.mux with stack := [] } rfl (idle exists_)

theorem leave_idle (idle : this.Idle) (rest : Rest) {call : ReentrantMux τ → ReentrantMux τ}
    (keeps : ∀ mux : ReentrantMux τ, mux.mux = this.mux.mux → mux.Idle this.session.channelId →
      (call mux).Idle this.session.channelId) : (this.leave rest call).Idle :=
  leave_does rest fun exists_ => keeps { this.mux with stack := [] } rfl (idle exists_)

/-- A call of the mux after which the channel is not Open, whatever it was. -/
theorem onMux_ends (this : SessionMux τ) {call : ReentrantMux τ → ReentrantMux τ} (ends : ∀ mux : ReentrantMux τ,
      mux.mux = this.mux.mux → (call mux).Idle this.session.channelId) : (this.onMux call).Idle :=
  onMux_does fun _ => ends { this.mux with stack := [] } rfl

theorem leave_ends (this : SessionMux τ) (rest : Rest) {call : ReentrantMux τ → ReentrantMux τ} (ends :
    ∀ mux : ReentrantMux τ, mux.mux = this.mux.mux → (call mux).Idle this.session.channelId) :
    (this.leave rest call).Idle :=
  leave_does rest fun _ => ends { this.mux with stack := [] } rfl

theorem notifyRemoteTerminal_idle (idle : this.Idle) (reason : String) :
    (this.notifyRemoteTerminal reason).Idle := by
  unfold notifyRemoteTerminal
  split
  · exact idle
  · exact idle

theorem onTerminal_idle (idle : this.Idle) (reason : String) : (this.onTerminal reason).Idle := by
  unfold onTerminal
  split
  · apply notifyRemoteTerminal_idle
    exact idle
  · exact notifyRemoteTerminal_idle idle reason

theorem idle_of_none (none : this.channel = none) : this.Idle := by
  intro _
  unfold SessionMux.state ChannelMux.state
  unfold channel at none
  rw [none]
  exact ChannelState.noConfusion

theorem closeBy_notOpen (before : this.NotOpen) (route : Route) : (this.closeBy route).NotOpen := by
  unfold closeBy
  split
  · exact before
  · split
    · intro _
      apply (this.shut route).leave_ends
      exact fun _ _ => ReentrantMux.closeChannel_ends
    · rename_i none
      intro _
      exact idle_of_none (Option.not_isSome_iff_eq_none.mp none)

theorem reset_notOpen (before : this.NotOpen) : this.reset.NotOpen := by
  unfold reset
  split
  · exact before
  · split
    · intro _
      apply (this.shut .reset).leave_ends
      exact fun _ _ => ReentrantMux.resetChannel_ends
    · rename_i none
      intro _
      exact idle_of_none (Option.not_isSome_iff_eq_none.mp none)

theorem pumpWrite_notOpen (before : this.NotOpen) (fits : ∀ body, this.session.next = some body →
    this.takes body = false → this.Idle) : this.pumpWrite.NotOpen := by
  unfold pumpWrite
  split
  · exact before
  · rename_i body next
    have live := next_live next
    dsimp only
    split
    · intro closed
      obtain ⟨same, _⟩ := (this.onSession fun session =>
        { session with writeInflight := true, outbound := session.outbound.tail }).leave_same .pump
          fun mux => mux.sendData this.session.channelId body
      have open_ : this.session.closed = true := same.closed.symm.trans closed
      rw [live] at open_
      cases open_
    · rename_i refused
      exact fun _ => fits body next (Bool.eq_false_of_not_eq_true refused)

theorem accept_notOpen (before : this.NotOpen) {body : Bytes} (fits : ∀ sent,
    (this.session.queue body).next = some sent → this.takes sent = false → this.Idle) :
    (this.accept body).NotOpen := by
  apply pumpWrite_notOpen
  · exact before
  · exact fits

theorem framed_notOpen (before : this.NotOpen) (keepOpen : Bool) : (this.framed keepOpen).NotOpen := by
  unfold framed
  split
  · exact closeBy_notOpen before .close
  · exact before

theorem onMux_notOpen (before : this.NotOpen) {call : ReentrantMux τ → ReentrantMux τ}
    (keeps : ∀ mux : ReentrantMux τ, mux.mux = this.mux.mux → mux.Idle this.session.channelId →
      (call mux).Idle this.session.channelId) : (this.onMux call).NotOpen :=
  before.keep (this.onMux_same call).1.closed fun idle => onMux_idle idle keeps

theorem leave_notOpen (before : this.NotOpen) (rest : Rest) {call : ReentrantMux τ → ReentrantMux τ}
    (keeps : ∀ mux : ReentrantMux τ, mux.mux = this.mux.mux → mux.Idle this.session.channelId →
      (call mux).Idle this.session.channelId) : (this.leave rest call).NotOpen :=
  before.keep (this.leave_same rest call).1.closed fun idle => leave_idle idle rest keeps

/-- What is told of a frame is that the channel has ended, or the channel is read. -/
theorem notice_ends {now : Int} {channel : ChannelRecord} {frame : ChannelFrame} {reason : String}
    (ending : notice now channel frame = some (.terminal reason)) {mux : ReentrantMux τ}
    (found : mux.mux.channelById frame.channelId = some channel) :
    (mux.dispatchFrame frame).Idle frame.channelId := by
  unfold notice at ending
  dsimp only at ending
  unfold ReentrantMux.dispatchFrame
  dsimp only
  rw [found]
  cases body : frame.body with
  | openFrame =>
      rw [body] at ending
      cases ending
  | openAck result =>
      rw [body] at ending
      dsimp only at ending ⊢
      split at ending
      · cases ending
      · rename_i refuses
        exact ReentrantMux.handleOpenAck_ends channel refuses
  | reset code => exact ReentrantMux.handleEnd_ends channel
  | close reason => exact ReentrantMux.handleEnd_ends channel
  | data payload =>
      rw [body] at ending
      dsimp only at ending
      split at ending
      · cases ending
      · cases ending
  | frag frag =>
      rw [body] at ending
      dsimp only at ending
      split at ending
      · cases ending
      · split at ending <;> cases ending

theorem dispatchFrame_notOpen (before : this.NotOpen) {frame : ChannelFrame}
    (quiet : this.muxGone = false → this.session.closed = true →
      ReentrantMux.opens this.mux.mux this.session.channelId frame = false) :
    (this.dispatchFrame frame).NotOpen := by
  -- a session that is closed has its channel left as it was
  have kept (closed : this.session.closed = true) (idle : this.Idle) :
      (this.onMux fun mux => mux.dispatchFrame frame).Idle := by
    cases gone : this.muxGone with
    | true =>
        unfold onMux
        rw [if_pos gone]
        exact idle
    | false =>
        apply onMux_idle idle
        intro mux same unopened
        apply ReentrantMux.dispatchFrame_idle unopened
        rw [same]
        exact quiet gone closed
  have same := (this.onMux_same fun mux => mux.dispatchFrame frame).1
  have dispatched : (this.onMux fun mux => mux.dispatchFrame frame).NotOpen := by
    intro closed
    rw [same.closed] at closed
    exact kept closed (before closed)
  unfold dispatchFrame
  split
  · exact dispatched
  · rename_i noticed
    unfold SessionMux.noticed at noticed
    split at noticed
    · cases noticed
    · rename_i own
      simp only [Bool.or_eq_true, bne_iff_ne, ne_eq, not_or, not_not, Bool.not_eq_true] at own
      obtain ⟨record, found, mapped⟩ := Option.bind_eq_some_iff.mp noticed
      obtain ⟨heard, told, pair⟩ := Option.map_eq_some_iff.mp mapped
      obtain ⟨rfl, rfl⟩ := Prod.mk.inj pair
      cases heard with
      | data payload =>
          unfold hear
          dsimp only
          split
          · unfold onData
            split
            · exact dispatched
            · exact dispatched
          · exact dispatched
      | terminal reason =>
          have ends : (this.onMux fun mux => mux.dispatchFrame frame).Idle := by
            apply onMux_ends
            intro mux same
            rw [← own.2]
            apply notice_ends told
            rw [same, own.2]
            exact found
          unfold hear
          dsimp only
          split
          · exact fun _ => onTerminal_idle ends reason
          · exact dispatched
      | badMessage =>
          unfold hear
          intro closed
          obtain ⟨left, _⟩ := this.leave_same (.tell kBadMessageReason record.onTerminal)
            fun mux => mux.dispatchFrame frame
          have was : this.session.closed = true := left.closed.symm.trans closed
          apply leave_idle (before was)
          intro mux same unopened
          apply ReentrantMux.dispatchFrame_idle unopened
          rw [same]
          exact quiet own.1 was

theorem expire_notOpen (ids : List UInt32) :
    ∀ this : SessionMux τ, this.NotOpen → (this.expire ids).NotOpen := by
  induction ids with
  | nil => exact fun _ before => before
  | cons id rest ih =>
      intro this before
      unfold expire
      split
      · exact ih this before
      · have waits : (this.push (.expire rest)).NotOpen := before
        dsimp only
        split
        · apply leave_notOpen waits
          exact fun _ _ => (ReentrantMux.resetChannel_moves id).idle
        · apply onMux_notOpen waits
          exact fun _ _ => (ReentrantMux.resetChannel_moves id).idle

theorem tick_notOpen (before : this.NotOpen) (now : Int) : (this.tick now).NotOpen := by
  apply expire_notOpen
  apply onMux_notOpen
  · apply onMux_notOpen before
    exact fun _ _ unopened => unopened.quiet (ReentrantMux.quiet_mapChannels fun _ => rfl)
  · exact fun _ _ unopened =>
      unopened.quiet (ReentrantMux.quiet_mapChannels (ReentrantMux.startReadClock_state now))

theorem linkNotice_notOpen (before : this.NotOpen) : this.linkNotice.NotOpen := by
  unfold linkNotice
  split
  · rename_i due
    rw [Bool.and_eq_true] at due
    intro _
    apply onTerminal_idle
    intro exists_
    have gone : this.muxGone = false := exists_
    rw [due.1] at gone
    cases gone
  · exact before

theorem enqueueOutbound_notOpen (before : this.NotOpen) {body : Bytes}
    (fits : ∀ session sent, this.pumping (.call (.enqueueOutbound body)) = some session →
      session.next = some sent → this.takes sent = false → this.Idle) :
    (this.enqueueOutbound body).NotOpen := by
  unfold pumping at fits
  dsimp only at fits
  unfold enqueueOutbound
  split
  · exact before
  · rename_i open_
    rw [if_neg open_] at fits
    split
    · rename_i room
      rw [if_pos room] at fits
      exact accept_notOpen before fun sent => fits _ sent rfl
    · rename_i full
      rw [if_neg full] at fits
      split
      · exact before
      · rename_i policy
        split
        · exact before
        · rename_i quiet
          rw [if_neg (by simp [policy, quiet])] at fits
          have dropped : (this.onSession ChannelSession.dropOldest).NotOpen := before
          exact accept_notOpen dropped fun sent => fits _ sent rfl

theorem call_notOpen (before : this.NotOpen) {called : Call} (releases : this.Releases (.call called)) :
    (this.call called).NotOpen := by
  cases called with
  | enqueueOutbound body =>
      apply enqueueOutbound_notOpen before
      intro session sent pumps next refused exists_
      apply (releases exists_).1
      unfold failsWrite
      simp [pumps, next, refused]
  | close => exact closeBy_notOpen before .close
  | closeQuiet => exact closeBy_notOpen before .closeQuiet
  | reset => exact reset_notOpen before
  | linkNotice => exact linkNotice_notOpen before
  | mux called =>
      cases called with
      | inbound wire =>
          unfold call
          dsimp only
          split
          · exact before
          · rename_i frame decoded
            apply dispatchFrame_notOpen before
            intro exists_ closed
            have quiet := (releases exists_).2
            unfold revives at quiet
            dsimp only at quiet
            rw [decoded, closed] at quiet
            exact quiet
      | tick now =>
          unfold call
          dsimp only
          split
          · exact before
          · exact tick_notOpen before now
      | detachAllChannels =>
          unfold call detach
          dsimp only
          split
          · exact before
          · intro _ exists_
            cases exists_
      | _ =>
          unfold call
          apply onMux_notOpen before
          intro mux same unopened
          apply ReentrantMux.call_idle unopened
          intro wire frame isInbound
          cases isInbound

theorem step_notOpen (phase : this.Phase callback) (before : this.NotOpen) {event : Event}
    (releases : this.Releases event) : (this.step event).NotOpen := by
  cases event with
  | call called => exact call_notOpen before releases
  | returned said =>
      unfold step
      dsimp only
      split
      · exact before
      · rename_i rest stack top
        have popped : ({ this with stack := stack } : SessionMux τ).NotOpen := before
        cases rest with
        | mux rest =>
            unfold finish
            apply onMux_notOpen popped
            exact fun _ _ => (ReentrantMux.finish_moves said rest).idle
        | expire ids =>
            unfold finish
            dsimp only
            split
            · exact popped
            · exact expire_notOpen ids _ popped
        | tell reason bound =>
            have ends : (({ this with stack := stack } : SessionMux τ).onMux fun mux =>
                mux.erase this.session.channelId).Idle := by
              apply onMux_ends
              exact fun _ _ => ReentrantMux.erase_ends
            unfold finish
            dsimp only
            split
            · exact fun _ => onTerminal_idle ends reason
            · exact fun _ => ends
        | enqueue body =>
            apply accept_notOpen popped
            intro sent next refused exists_
            apply (releases exists_).1
            unfold failsWrite pumping
            simp [top, next, show this.takes sent = false from refused]
        | pump =>
            unfold finish written
            dsimp only
            split
            · rename_i sent
              apply pumpWrite_notOpen
              · exact popped
              · intro body next refused exists_
                apply (releases exists_).1
                unfold failsWrite pumping
                have follows : this.session.idle.next = some body := next
                simp [top, sent, follows, show this.takes body = false from refused]
            · rename_i failed
              intro _ exists_
              apply (releases exists_).1
              unfold failsWrite
              simp [top, Bool.eq_false_of_not_eq_true failed]
        | frame => exact framed_notOpen popped said
        | finish route =>
            have closed : this.session.closed = true := by
              cases phase with
              | opened _ _ _ none =>
                  have clear := none (.finish route) (top ▸ List.mem_cons_self)
                  cases clear
              | closing _ _ _ _ closed => exact closed
              | finished _ _ closed => exact closed
            have idle : this.Idle := before closed
            cases route with
            | reset =>
                intro _
                apply SessionMux.onMux_ends { this with stack := stack }
                exact fun _ _ => ReentrantMux.erase_ends
            | _ => exact fun _ => idle

end Channels

section Forced

/-- A session closed while the mux has its channel Open. -/
def Stranded (this : SessionMux τ) : Prop :=
  this.session.closed = true ∧ this.muxGone = false ∧ this.state = .opened

theorem Stranded.not_notOpen (stranded : this.Stranded) : ¬ this.NotOpen :=
  fun notOpen => notOpen stranded.1 stranded.2.1 stranded.2.2

theorem writeFailed_strands (exists_ : this.muxGone = false) (open_ : this.state = .opened) :
    this.writeFailed.Stranded := ⟨rfl, exists_, open_⟩

theorem pumpWrite_strands (exists_ : this.muxGone = false) (open_ : this.state = .opened) {body : Bytes}
    (next : this.session.next = some body) (refused : this.takes body = false) :
    this.pumpWrite.Stranded := by
  unfold pumpWrite
  rw [next]
  dsimp only
  have again : (this.onSession fun session => { session with
      writeInflight := true, outbound := session.outbound.tail }).takes body = false := refused
  rw [again, if_neg Bool.false_ne_true]
  exact writeFailed_strands exists_ open_

/-- A call that comes to hand a body to the mux does it in `PumpWrite`. -/
theorem step_pumps {event : Event} {session : ChannelSession} (pumps : this.pumping event = some session) :
    ∃ before : SessionMux τ, this.step event = before.pumpWrite ∧ before.session = session ∧
      before.mux = this.mux ∧ before.muxGone = this.muxGone ∧
      session.channelId = this.session.channelId := by
  unfold pumping at pumps
  cases event with
  | call called =>
      cases called with
      | enqueueOutbound body =>
          show ∃ before : SessionMux τ, this.enqueueOutbound body = before.pumpWrite ∧ _
          dsimp only at pumps
          unfold enqueueOutbound
          split at pumps
          · cases pumps
          · rename_i live
            rw [if_neg live]
            split at pumps
            · rename_i room
              rw [if_pos room]
              obtain rfl := Option.some.inj pumps
              exact ⟨this.onSession fun session => session.queue body, rfl, rfl, rfl, rfl, rfl⟩
            · rename_i full
              rw [if_neg full]
              split at pumps
              · cases pumps
              · rename_i drops
                simp only [Bool.or_eq_true, decide_eq_true_eq, not_or] at drops
                rw [if_neg drops.1, if_neg drops.2]
                obtain rfl := Option.some.inj pumps
                exact ⟨(this.onSession ChannelSession.dropOldest).onSession fun session =>
                  session.queue body, rfl, rfl, rfl, rfl, rfl⟩
      | _ => cases pumps
  | returned said =>
      unfold step
      cases top : this.stack with
      | nil =>
          rw [top] at pumps
          cases pumps
      | cons rest stack =>
          rw [top] at pumps
          cases rest with
          | enqueue body =>
              obtain rfl := Option.some.inj pumps
              exact ⟨({ this with stack := stack } : SessionMux τ).onSession fun session =>
                session.queue body, rfl, rfl, rfl, rfl, rfl⟩
          | pump =>
              cases said with
              | false => cases pumps
              | true =>
                  obtain rfl := Option.some.inj pumps
                  exact ⟨({ this with stack := stack } : SessionMux τ).onSession ChannelSession.idle,
                    rfl, rfl, rfl, rfl, rfl⟩
          | _ => cases pumps

/-- A write that fails while the channel is Open strands it. -/
theorem failsWrite_strands {event : Event} (exists_ : this.muxGone = false)
    (open_ : this.state = .opened) (fails : this.failsWrite event = true) :
    (this.step event).Stranded := by
  unfold failsWrite at fails
  rcases Bool.or_eq_true_iff.mp fails with refused | returned
  · rw [Option.any_eq_true] at refused
    obtain ⟨session, pumps, refused⟩ := refused
    rw [Option.any_eq_true] at refused
    obtain ⟨body, next, refused⟩ := refused
    rw [Bool.not_eq_true'] at refused
    obtain ⟨before, steps, rfl, mux, gone, own⟩ := step_pumps pumps
    rw [steps]
    apply pumpWrite_strands (gone.trans exists_) _ next
    · unfold takes channel at refused ⊢
      rw [mux, own]
      exact refused
    · unfold SessionMux.state at open_ ⊢
      rw [mux, own]
      exact open_
  · split at returned
    · rename_i stack top
      unfold step
      rw [top]
      have popped : ({ this with stack := stack } : SessionMux τ).state = .opened := open_
      exact writeFailed_strands exists_ popped
    · cases returned

/-- A frame that makes the channel of a closed session Open strands it. -/
theorem revives_strands {event : Event} (exists_ : this.muxGone = false)
    (revives : this.revives event = true) : (this.step event).Stranded := by
  unfold SessionMux.revives at revives
  split at revives
  · rename_i wire
    split at revives
    · cases revives
    · rename_i frame decoded
      obtain ⟨closed, opening⟩ := Bool.and_eq_true_iff.mp revives
      have step : this.step (.call (.mux (.inbound wire))) = this.dispatchFrame frame := by
        show this.call (.mux (.inbound wire)) = _
        unfold call
        dsimp only
        rw [decoded]
      have unnoticed : this.noticed frame = none := by
        unfold noticed
        split
        · rfl
        · have quiet (channel : ChannelRecord) : notice this.mux.mux.nowMs channel frame = none := by
            unfold ReentrantMux.opens at opening
            unfold notice
            cases body : frame.body with
            | openFrame => rfl
            | openAck result =>
                rw [body] at opening
                simp only [Bool.and_eq_true, beq_iff_eq] at opening
                exact if_pos opening.2.1
            | _ =>
                rw [body] at opening
                simp at opening
          simp [quiet]
      rw [step]
      unfold dispatchFrame
      rw [unnoticed]
      have same := (this.onMux_same fun mux => mux.dispatchFrame frame).1
      refine ⟨same.closed.trans closed, ?_, ?_⟩
      · unfold onMux
        rw [if_neg (by simp [exists_])]
        exact exists_
      · unfold onMux
        rw [if_neg (by simp [exists_])]
        have emptied : ReentrantMux.opens ({ this.mux with stack := [] } : ReentrantMux τ).mux
            this.session.channelId frame = true := opening
        exact ReentrantMux.dispatchFrame_opens emptied
  · cases revives

/-- A closed session stays off its channel in a step exactly if the step releases it. -/
theorem step_notOpen_iff (phase : this.Phase callback) (before : this.NotOpen) (event : Event) :
    (this.step event).NotOpen ↔ this.Releases event := by
  constructor
  · intro after exists_
    constructor
    · intro fails open_
      exact (failsWrite_strands exists_ open_ fails).not_notOpen after
    · apply Bool.eq_false_of_not_eq_true
      intro revives
      exact (revives_strands exists_ revives).not_notOpen after
  · exact step_notOpen phase before

end Forced

/-- The end of a close is still to come. -/
def ending (this : SessionMux τ) : Bool := this.stack.any Rest.ends

/-- A session that is closed stays so, its owner is told once, and its channel is not
left Open. -/
structure ClosedForGood (callback : Bool) (this : SessionMux τ) : Prop where
  silent : ∀ before route after, this.trace = before ++ .closing route :: after →
    ∀ payload, .framed payload ∉ after
  marked : this.session.closed = true ↔ ∃ route, .closing route ∈ this.trace
  early : this.session.closed = false ∨ this.ending = true →
    this.trace.filterMap SessionMark.notice = []
  told : this.session.closed = true → this.ending = false → ∃ route, .closing route ∈ this.trace ∧
    this.trace.filterMap SessionMark.notice = if callback then route.reason.toList else []
  released : this.session.closed = true → this.ending = false →
    this.session.onFrame = false ∧ this.session.onClosed = false
  notOpen : this.session.closed = true → this.muxGone = false → this.state ≠ .opened

section Outcome

/-- The mark of a session's closing is the one there is. -/
theorem split_closing {route other : Route} {tail after : List SessionMark}
    (once : ∀ mark ∈ tail, mark ≠ .closing other) (frames : List SessionMark) :
    ∀ before, (∀ mark ∈ frames, mark.isFrame = true) →
      frames ++ .closing route :: tail = before ++ .closing other :: after → after = tail := by
  induction frames with
  | nil =>
      intro before _ same
      cases before with
      | nil => exact (List.cons.inj same).2.symm
      | cons first rest =>
          have held : SessionMark.closing other ∈ tail := by
            rw [(List.cons.inj same).2]
            exact List.mem_append_right _ List.mem_cons_self
          exact absurd rfl (once _ held)
  | cons frame frames ih =>
      intro before isFrame same
      cases before with
      | nil =>
          have first := isFrame frame List.mem_cons_self
          rw [(List.cons.inj same).1] at first
          cases first
      | cons first rest =>
          apply ih rest
          · exact fun mark held => isFrame mark (List.mem_cons_of_mem _ held)
          · exact (List.cons.inj same).2

theorem notices_of_frames {marks : List SessionMark} (frames : ∀ mark ∈ marks, mark.isFrame = true) :
    marks.filterMap SessionMark.notice = [] := by
  rw [List.filterMap_eq_nil_iff]
  intro mark held
  have isFrame := frames mark held
  cases mark with
  | framed payload => rfl
  | closing route => cases isFrame
  | told reason => cases isFrame

theorem notices_told (callback : Bool) (route : Route) :
    (notices callback route).filterMap SessionMark.notice =
      if callback then route.reason.toList else [] := by
  unfold notices
  split
  · cases route <;> rfl
  · rfl

theorem mem_notices {callback : Bool} {route : Route} {mark : SessionMark}
    (held : mark ∈ notices callback route) : ∃ reason, mark = .told reason := by
  unfold notices at held
  split at held
  · obtain ⟨reason, _, rfl⟩ := List.mem_map.mp held
    exact ⟨reason, rfl⟩
  · cases held

theorem ending_of_none (none : ∀ rest ∈ this.stack, rest.ends = false) : this.ending = false := by
  unfold ending
  rw [List.any_eq_false]
  intro rest held
  rw [none rest held]
  exact Bool.false_ne_true

theorem closedForGood_of_phase (phase : this.Phase callback) (notOpen : this.NotOpen) :
    this.ClosedForGood callback := by
  cases phase with
  | opened live frames set none =>
      have unmarked (route : Route) : SessionMark.closing route ∉ this.trace := by
        intro held
        have isFrame := frames _ held
        cases isFrame
      refine ⟨?_, ?_, ?_, ?_, ?_, notOpen⟩
      · intro before route after trace
        have held : SessionMark.closing route ∈ this.trace := by
          rw [trace]
          exact List.mem_append_right _ List.mem_cons_self
        exact absurd held (unmarked route)
      · constructor
        · intro closed
          rw [live] at closed
          cases closed
        · rintro ⟨route, held⟩
          exact absurd held (unmarked route)
      · exact fun _ => notices_of_frames frames
      · intro closed
        rw [live] at closed
        cases closed
      · intro closed
        rw [live] at closed
        cases closed
  | closing route before above below closed trace frames set stack muxes none =>
      have ends : this.ending = true := by
        unfold ending
        rw [List.any_eq_true, stack]
        exact ⟨.finish route, List.mem_append_right _ List.mem_cons_self, rfl⟩
      refine ⟨?_, ?_, ?_, ?_, ?_, notOpen⟩
      · intro first other after same
        rw [trace] at same
        have last : after = [] := split_closing (fun _ none => absurd none List.not_mem_nil)
          before first frames same
        rw [last]
        exact fun _ => List.not_mem_nil
      · refine ⟨fun _ => ⟨route, ?_⟩, fun _ => closed⟩
        rw [trace]
        exact List.mem_append_right _ List.mem_cons_self
      · intro _
        rw [trace, List.filterMap_append, notices_of_frames frames]
        rfl
      · intro _ past
        rw [ends] at past
        cases past
      · intro _ past
        rw [ends] at past
        cases past
  | finished route before closed trace frames noFrame noClosed none =>
      have told : this.trace.filterMap SessionMark.notice =
          if callback then route.reason.toList else [] := by
        rw [trace, List.filterMap_append, notices_of_frames frames, List.nil_append]
        exact notices_told callback route
      have mark : SessionMark.closing route ∈ this.trace := by
        rw [trace]
        exact List.mem_append_right _ List.mem_cons_self
      refine ⟨?_, ⟨fun _ => ⟨route, mark⟩, fun _ => closed⟩, ?_, ?_, ?_, notOpen⟩
      · intro first other after same payload held
        rw [trace] at same
        have tail : after = notices callback route := by
          apply split_closing _ before first frames same
          intro mark isNotice
          obtain ⟨reason, rfl⟩ := mem_notices isNotice
          exact SessionMark.noConfusion
        rw [tail] at held
        obtain ⟨reason, isTold⟩ := mem_notices held
        cases isTold
      · intro early
        rcases early with live | ends
        · rw [closed] at live
          cases live
        · rw [ending_of_none none] at ends
          cases ends
      · exact fun _ _ => ⟨route, mark, told⟩
      · exact fun _ _ => ⟨noFrame, noClosed⟩

theorem bind_phase (mux : ReentrantMux τ) (channelId : UInt32) (policy : SessionPolicy)
    (onFrame onClosed : Bool) : (bind mux channelId policy onFrame onClosed).Phase onClosed := by
  apply Phase.opened
  · rfl
  · exact fun _ none => absurd none List.not_mem_nil
  · rfl
  · intro rest held
    obtain ⟨waiting, _, rfl⟩ := List.mem_map.mp held
    exact Rest.ends_of_muxes (Rest.muxes_ofWaiting waiting)

/-- A session bound to a channel of a mux is closed for good in every state of exactly
the runs in which no write fails on the Open channel and no frame makes the channel Open
once the session is closed. -/
theorem closed_for_good_iff (mux : ReentrantMux τ) (channelId : UInt32) (policy : SessionPolicy)
    (onFrame onClosed : Bool) (events : List Event) :
    Run.Always step (ClosedForGood onClosed) (bind mux channelId policy onFrame onClosed) events ↔
      Run.Meets step Releases (bind mux channelId policy onFrame onClosed) events := by
  let inv := fun this : SessionMux τ => this.Phase onClosed ∧ this.NotOpen
  have phase := bind_phase mux channelId policy onFrame onClosed
  have notOpen : (bind mux channelId policy onFrame onClosed).NotOpen := fun closed => nomatch closed
  have turn : Run.Always step inv (bind mux channelId policy onFrame onClosed) events ↔
      Run.Meets step Releases (bind mux channelId policy onFrame onClosed) events := by
    apply Run.always_iff_meets step Releases inv _ events _ ⟨phase, notOpen⟩
    intro this event before
    constructor
    · exact fun after => (step_notOpen_iff before.1 before.2 event).mp after.2
    · exact fun releases =>
        ⟨step_phase before.1 event, (step_notOpen_iff before.1 before.2 event).mpr releases⟩
  rw [← turn]
  constructor
  · intro always
    have notOpens : Run.Always step NotOpen (bind mux channelId policy onFrame onClosed) events :=
      always.mono fun _ closed => closed.notOpen
    exact notOpens.with_invariant (fun _ event phase => step_phase phase event) phase
  · exact fun always => always.mono fun _ holds => closedForGood_of_phase holds.1 holds.2

/-- A channel the peer accepted. -/
def acceptedChannel : ReentrantMux Unit :=
  ((ReentrantMux.create true ()).call (.openOutbound [] {} none)).call
    (.inbound [1, 1, 0, 0, 0, 0, 0, 0, 0, 0])

/-- A body over the limit of its channel closes the session, and the channel stays Open. -/
theorem stranded_by_write : ¬ Run.Always step (ClosedForGood true)
    (bind acceptedChannel 1 { maxMessageBytes := 1 } true true) [.call (.enqueueOutbound [1, 2])] := by
  intro always
  have last := always.2.notOpen
  revert last
  decide

end Outcome

end SessionMux

end Amp
