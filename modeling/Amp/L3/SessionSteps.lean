import Amp.L3.SessionEnd

set_option autoImplicit false

/- What one step of a session does to it, as those who hold it see. -/
namespace Amp

open Adp (Bytes)

namespace SessionMux

variable {τ : Type}

/-- A session on its way: closed once closed, with its mux until then, and some marks more. -/
structure Onward (seen : SessionMark → Prop) (before after : SessionMux τ) : Prop where
  live : after.session.closed = false →
    before.session.closed = false ∧ after.session.mux = before.session.mux
  marks : ∃ marks, after.trace = before.trace ++ marks ∧ ∀ mark ∈ marks, seen mark

/-- A mark of anything but `CloseQuiet`. -/
def Loud (mark : SessionMark) : Prop := mark ≠ .closing .closeQuiet

/-- Neither a frame nor, unless it is asked for, the mark of `CloseQuiet`. -/
def Plain (quietly : Bool) (mark : SessionMark) : Prop :=
  mark.isFrame = false ∧ (quietly = false → Loud mark)

namespace Onward

variable {seen wider : SessionMark → Prop} {before middle after : SessionMux τ}

theorem of_same (session : after.session.closed = before.session.closed)
    (mux : after.session.mux = before.session.mux) (trace : after.trace = before.trace) :
    Onward seen before after := by
  refine ⟨?_, [], ?_, nofun⟩
  · intro live
    rw [session] at live
    exact ⟨live, mux⟩
  · rw [trace, List.append_nil]

theorem refl (this : SessionMux τ) : Onward seen this this := .of_same rfl rfl rfl

theorem trans (one : Onward seen before middle) (two : Onward seen middle after) :
    Onward seen before after := by
  obtain ⟨first, old, early⟩ := one.marks
  obtain ⟨second, new, late⟩ := two.marks
  refine ⟨?_, first ++ second, ?_, ?_⟩
  · intro live
    obtain ⟨between, kept⟩ := two.live live
    obtain ⟨start, earlier⟩ := one.live between
    exact ⟨start, kept.trans earlier⟩
  · rw [new, old, List.append_assoc]
  · intro mark listed
    exact (List.mem_append.mp listed).elim (early mark) (late mark)

theorem mono (weakens : ∀ mark, seen mark → wider mark) (onward : Onward seen before after) :
    Onward wider before after := by
  obtain ⟨marks, trace, all⟩ := onward.marks
  exact ⟨onward.live, marks, trace, fun mark listed => weakens mark (all mark listed)⟩

/-- A session that is closed, whatever else is seen of it. -/
theorem of_closed (closed : after.session.closed = true) {marks : List SessionMark}
    (trace : after.trace = before.trace ++ marks) (all : ∀ mark ∈ marks, seen mark) :
    Onward seen before after := by
  refine ⟨?_, marks, trace, all⟩
  intro live
  rw [closed] at live
  cases live

/-- A closed session stays closed. -/
theorem closed (onward : Onward seen before after) (closed : before.session.closed = true) :
    after.session.closed = true := by
  by_contra live
  rw [(onward.live (Bool.eq_false_of_not_eq_true live)).1] at closed
  cases closed

end Onward

section Steps

variable {this : SessionMux τ} {seen : SessionMark → Prop}

theorem onMux_onward (this : SessionMux τ) (call : ReentrantMux τ → ReentrantMux τ) :
    Onward seen this (this.onMux call) := by
  unfold onMux
  split
  · exact .refl this
  · exact .of_same rfl rfl rfl

theorem leave_onward (this : SessionMux τ) (rest : Rest) (call : ReentrantMux τ → ReentrantMux τ) :
    Onward seen this (this.leave rest call) := by
  unfold leave
  split
  · exact .of_same rfl rfl rfl
  · exact .of_same rfl rfl rfl

theorem shut_onward (this : SessionMux τ) (route : Route) :
    Onward (Plain (route == .closeQuiet)) this (this.shut route) := by
  have marks : (this.shut route).trace = this.trace ++
      if this.session.closed then [] else [.closing route] := by
    unfold shut
    split
    · exact (List.append_nil _).symm
    · rfl
  apply Onward.of_closed rfl marks
  intro mark listed
  split at listed
  · cases listed
  · rw [List.mem_singleton.mp listed]
    refine ⟨rfl, ?_⟩
    intro loud same
    cases same
    cases loud

theorem finishClosed_onward {quietly : Bool} (closed : this.session.closed = true)
    (reason : Option String) : Onward (Plain quietly) this (this.finishClosed reason) := by
  have after : (this.finishClosed reason).session.closed = true := closed
  apply Onward.of_closed after rfl
  intro mark listed
  split at listed
  · obtain ⟨told, _, rfl⟩ := List.mem_map.mp listed
    exact ⟨rfl, fun _ => SessionMark.noConfusion⟩
  · cases listed

/-- A session closed with nothing to wait for. -/
theorem shut_finish_onward (this : SessionMux τ) (route : Route) (reason : Option String) :
    Onward (Plain (route == .closeQuiet)) this ((this.shut route).finishClosed reason) :=
  (shut_onward this route).trans (finishClosed_onward rfl reason)

theorem notifyRemoteTerminal_onward (this : SessionMux τ) (reason : String) :
    Onward (Plain false) this (this.notifyRemoteTerminal reason) := by
  unfold notifyRemoteTerminal
  split
  · exact .refl this
  · exact shut_finish_onward this (.terminal reason) _

theorem notifyRemoteTerminal_closed (this : SessionMux τ) (reason : String) :
    (this.notifyRemoteTerminal reason).session.closed = true := by
  unfold notifyRemoteTerminal
  split
  · assumption
  · rfl

theorem onTerminal_onward (this : SessionMux τ) (reason : String) :
    Onward (Plain false) this (this.onTerminal reason) := by
  unfold onTerminal
  split
  · have told := notifyRemoteTerminal_onward
      (this.onSession fun session => { session with mux := false }) reason
    refine ⟨?_, told.marks⟩
    intro live
    rw [notifyRemoteTerminal_closed] at live
    cases live
  · exact notifyRemoteTerminal_onward this reason

theorem closeBy_onward (this : SessionMux τ) (route : Route) :
    Onward (Plain (route == .closeQuiet)) this (this.closeBy route) := by
  unfold closeBy
  split
  · exact .refl this
  · split
    · exact (shut_onward this route).trans (leave_onward _ _ _)
    · exact shut_finish_onward this route _

theorem reset_onward (this : SessionMux τ) : Onward (Plain false) this this.reset := by
  unfold reset
  split
  · exact .refl this
  · split
    · exact (shut_onward this .reset).trans (leave_onward _ _ _)
    · exact shut_finish_onward this .reset _

theorem writeFailed_onward (this : SessionMux τ) : Onward (Plain false) this this.writeFailed := by
  have idle : Onward (Plain false) this (this.onSession ChannelSession.idle) := .of_same rfl rfl rfl
  exact idle.trans (shut_finish_onward _ .writeFailed _)

theorem pumpWrite_onward (this : SessionMux τ) : Onward (Plain false) this this.pumpWrite := by
  unfold pumpWrite
  split
  · exact .refl this
  · have taken : Onward (Plain false) this (this.onSession fun session =>
        { session with writeInflight := true, outbound := session.outbound.tail }) :=
      .of_same rfl rfl rfl
    dsimp only
    split
    · exact taken.trans (leave_onward _ _ _)
    · exact taken.trans (writeFailed_onward _)

theorem written_onward (this : SessionMux τ) (sent : Bool) : Onward (Plain false) this (this.written sent) := by
  have idle : Onward (Plain false) this (this.onSession ChannelSession.idle) := .of_same rfl rfl rfl
  unfold written
  split
  · exact idle.trans (pumpWrite_onward _)
  · exact writeFailed_onward this

theorem accept_onward (this : SessionMux τ) (body : Bytes) : Onward (Plain false) this (this.accept body) := by
  have queued : Onward (Plain false) this (this.onSession fun session => session.queue body) :=
    .of_same rfl rfl rfl
  exact queued.trans (pumpWrite_onward _)

theorem enqueueOutbound_onward (this : SessionMux τ) (body : Bytes) :
    Onward (Plain false) this (this.enqueueOutbound body) := by
  have dropped : Onward (Plain false) this (this.onSession ChannelSession.dropOldest) :=
    .of_same rfl rfl rfl
  unfold enqueueOutbound
  split
  · exact .refl this
  · split
    · exact accept_onward this body
    · split
      · exact .refl this
      · split
        · exact dropped.trans (.of_same rfl rfl rfl)
        · exact dropped.trans (accept_onward _ body)

theorem onData_onward (this : SessionMux τ) (payload : Bytes) :
    Onward Loud this (this.onData payload) := by
  unfold onData
  split
  · exact .refl this
  · refine ⟨fun live => ⟨live, rfl⟩, [.framed payload], rfl, ?_⟩
    intro mark listed
    rw [List.mem_singleton.mp listed]
    exact SessionMark.noConfusion

theorem framed_onward (this : SessionMux τ) (keepOpen : Bool) :
    Onward (Plain false) this (this.framed keepOpen) := by
  unfold framed
  split
  · exact closeBy_onward this .close
  · exact .refl this

theorem Onward.loud {before after : SessionMux τ} (onward : Onward (Plain false) before after) :
    Onward Loud before after := onward.mono fun _ plain => plain.2 rfl

/-- A frame that its channel's frame handler does not see, or one that it is called with. -/
theorem dispatchFrame_onward (this : SessionMux τ) (frame : ChannelFrame) :
    Onward (Plain false) this (this.dispatchFrame frame) ∨
      Onward Loud this (this.dispatchFrame frame) ∧
        (this.dispatchFrame frame).session.closed = false ∧
        ∃ rest, (this.dispatchFrame frame).stack = .frame :: rest := by
  unfold dispatchFrame
  split
  · exact Or.inl (onMux_onward this _)
  · rename_i channel notice _
    unfold hear
    cases notice with
    | data payload =>
        dsimp only
        split
        · by_cases shut : ((this.onMux fun mux => mux.dispatchFrame frame).session.closed ||
              !(this.onMux fun mux => mux.dispatchFrame frame).session.onFrame) = true
          · left
            unfold onData
            rw [if_pos shut]
            exact onMux_onward this _
          · right
            have passed := onData_onward (this.onMux fun mux => mux.dispatchFrame frame) payload
            refine ⟨(onMux_onward this _).trans passed, ?_⟩
            unfold onData
            rw [if_neg shut]
            rw [Bool.or_eq_true, not_or] at shut
            exact ⟨Bool.eq_false_of_not_eq_true shut.1, _, rfl⟩
        · exact Or.inl (onMux_onward this _)
    | terminal reason =>
        dsimp only
        split
        · exact Or.inl ((onMux_onward this _).trans (onTerminal_onward _ reason))
        · exact Or.inl (onMux_onward this _)
    | badMessage => exact Or.inl (leave_onward this _ _)

theorem expire_onward (ids : List UInt32) : ∀ this : SessionMux τ,
    Onward (Plain false) this (this.expire ids) := by
  induction ids with
  | nil => exact .refl
  | cons id rest ih =>
      intro this
      have waits : Onward (Plain false) this (this.push (.expire rest)) := .of_same rfl rfl rfl
      unfold expire
      split
      · exact ih this
      · dsimp only
        split
        · exact waits.trans (leave_onward _ _ _)
        · exact waits.trans (onMux_onward _ _)

theorem tick_onward (this : SessionMux τ) (now : Int) : Onward (Plain false) this (this.tick now) := by
  unfold tick
  exact ((onMux_onward this _).trans (onMux_onward _ _)).trans (expire_onward _ _)

theorem detach_onward (this : SessionMux τ) : Onward (Plain false) this this.detach := by
  unfold detach
  split
  · exact .refl this
  · exact (onMux_onward this _).trans (.of_same rfl rfl rfl)

theorem linkNotice_onward (this : SessionMux τ) : Onward (Plain false) this this.linkNotice := by
  unfold linkNotice
  split
  · have noted : Onward (Plain false) this { this with noticeDue := false } := .of_same rfl rfl rfl
    exact noted.trans (onTerminal_onward _ _)
  · exact .refl this

/-- A call, but of `CloseQuiet`: the frame handler is called at most once, of a session
that is open, and is what returns next. -/
theorem call_onward (this : SessionMux τ) {called : Call} (loud : called ≠ .closeQuiet) :
    Onward (Plain false) this (this.call called) ∨
      Onward Loud this (this.call called) ∧ (this.call called).session.closed = false ∧
        ∃ rest, (this.call called).stack = .frame :: rest := by
  cases called with
  | enqueueOutbound body => exact Or.inl (enqueueOutbound_onward this body)
  | close => exact Or.inl (closeBy_onward this .close)
  | closeQuiet => exact absurd rfl loud
  | reset => exact Or.inl (reset_onward this)
  | linkNotice => exact Or.inl (linkNotice_onward this)
  | mux called =>
      cases called with
      | inbound wire =>
          dsimp only [call]
          split
          · exact Or.inl (.refl this)
          · exact dispatchFrame_onward this _
      | tick now =>
          dsimp only [call]
          split
          · exact Or.inl (.refl this)
          · exact Or.inl (tick_onward this now)
      | detachAllChannels => exact Or.inl (detach_onward this)
      | _ =>
          dsimp only [call]
          exact Or.inl (onMux_onward this _)

theorem finish_onward {this : SessionMux τ} {rest : Rest}
    (ended : rest.ends = true → this.session.closed = true) (said : Bool) :
    Onward (Plain false) this (this.finish said rest) := by
  cases rest with
  | mux rest =>
      dsimp only [finish]
      exact onMux_onward this _
  | expire ids =>
      dsimp only [finish]
      split
      · exact .refl this
      · exact expire_onward ids this
  | tell reason onTerminal =>
      have erased : Onward (Plain false) this
          (this.onMux fun mux => mux.erase this.session.channelId) := onMux_onward this _
      dsimp only [finish]
      split
      · exact erased.trans (onTerminal_onward _ reason)
      · exact erased
  | enqueue body => exact accept_onward this body
  | pump => exact written_onward this said
  | frame => exact framed_onward this said
  | finish route =>
      have closed := ended rfl
      cases route with
      | reset =>
          have erased : Onward (Plain false) this
              (this.onMux fun mux => mux.erase this.session.channelId) := onMux_onward this _
          have kept : (this.onMux fun mux => mux.erase this.session.channelId).session.closed =
              true := by
            rw [(this.onMux_same _).1.closed]
            exact closed
          exact erased.trans (finishClosed_onward kept _)
      | _ => exact finishClosed_onward closed _

/-- The end of a close waits only at a closed session. -/
theorem Phase.closed_of_ends {this : SessionMux τ} {callback : Bool} (phase : this.Phase callback)
    {rest : Rest} (waits : rest ∈ this.stack) (ends : rest.ends = true) :
    this.session.closed = true := by
  cases phase with
  | opened live frames set none =>
      rw [none rest waits] at ends
      cases ends
  | closing route before above below closed => exact closed
  | finished route before closed => exact closed

theorem returned_onward {callback : Bool} (phase : this.Phase callback) (said : Bool) :
    Onward (Plain false) this (this.step (.returned said)) := by
  dsimp only [step]
  split
  · exact .refl this
  · rename_i rest stack waits
    have popped : Onward (Plain false) this { this with stack := stack } := .of_same rfl rfl rfl
    apply popped.trans
    apply finish_onward
    intro ends
    exact phase.closed_of_ends (by rw [waits]; exact List.mem_cons_self) ends

/-- A step, but a call of `CloseQuiet`. -/
theorem step_onward {callback : Bool} (phase : this.Phase callback) {event : Event}
    (loud : event ≠ .call .closeQuiet) : Onward Loud this (this.step event) := by
  cases event with
  | call called =>
      have other : called ≠ .closeQuiet := fun same => loud (by rw [same])
      rcases call_onward this other with plain | framed
      · exact plain.loud
      · exact framed.1
  | returned said => exact (returned_onward phase said).loud

/-- Any step. -/
theorem step_onward_any {callback : Bool} (phase : this.Phase callback) (event : Event) :
    Onward (fun _ => True) this (this.step event) := by
  by_cases quiet : event = .call .closeQuiet
  · rw [quiet]
    exact (closeBy_onward this .closeQuiet).mono fun _ _ => trivial
  · exact (step_onward phase quiet).mono fun _ _ => trivial

theorem closeBy_closes (live : this.session.closed = false) (bound : this.session.mux = true)
    (route : Route) : (this.closeBy route).session.closed = true := by
  have goesOn : ¬ (this.session.closed || !this.session.mux) = true := by
    rw [live, bound]
    decide
  unfold closeBy
  rw [if_neg goesOn]
  split
  · rw [(leave_same _ _ _).1.closed]
    rfl
  · rfl

/-- A frame handler that will not keep the channel open closes its session. -/
theorem returned_closes (live : this.session.closed = false) (bound : this.session.mux = true)
    {rest : List Rest} (top : this.stack = .frame :: rest) :
    (this.step (.returned false)).session.closed = true := by
  dsimp only [step]
  rw [top]
  show (framed _ false).session.closed = true
  unfold framed
  rw [if_pos (by rw [live]; rfl)]
  apply closeBy_closes
  · exact live
  · exact bound

end Steps

end SessionMux

end Amp
