import Amp.L3.ChannelProtocol

set_option autoImplicit false

/- The relation of the two ends of a channel through its whole life, and that
every step of either end keeps it. -/
namespace Amp

open Adp (Bytes)

namespace View

/-- An answer that opens the channel is still on this line. -/
def Waiting (line : List ChannelFrame) : Prop := ∃ frame ∈ line, frame.isAck = true

def NoOpen (line : List ChannelFrame) : Prop := ∀ frame ∈ line, frame.isOpen = false

/-- Nothing on the line can give the receiver a record or open the one it has. -/
def Quiet (line : List ChannelFrame) : Prop :=
  ∀ frame ∈ line, frame.isOpen = false ∧ frame.isAck = false

/-- The line back to the sender: no open, and one answer at most. -/
structure Back (line : List ChannelFrame) : Prop where
  noOpen : NoOpen line
  once : (line.filter ChannelFrame.isAck).length ≤ 1

/-- A record that was opened from here and has heard nothing yet. -/
structure Unheard (face : Face) : Prop where
  shut : face.state ≠ .opened
  first : face.rxSeq = 1
  holds : face.reassembly.Holds face.policy.maxMessageBytes none

/-- A channel from sender to receiver, from before it is opened to after both
ends have let go of it. -/
inductive Joined (sender receiver : View) : Prop where
  | unopened (senderNone : sender.record = none) (receiverNone : receiver.record = none)
      (senderLine : sender.line = []) (receiverLine : receiver.line = [])
      (accepted : sender.accepted = []) (delivered : receiver.delivered = [])
  | calling (call : ChannelFrame) (junk : List ChannelFrame) (line : sender.line = call :: junk)
      (isCall : call.isOpen = true) (ends : ∀ frame ∈ junk, frame.isEnd = true)
      (receiverNone : receiver.record = none) (receiverLine : receiver.line = [])
      (accepted : sender.accepted = []) (delivered : receiver.delivered = [])
      (own : ∀ face, sender.record = some face → face.state ≠ .opened ∧
        (junk = [] → face.state = .opening ∧ face.txSeq = 1))
  | called (call : ChannelFrame) (junk : List ChannelFrame) (line : receiver.line = call :: junk)
      (isCall : call.isOpen = true) (ends : ∀ frame ∈ junk, frame.isEnd = true)
      (senderNone : sender.record = none) (senderLine : sender.line = [])
      (accepted : sender.accepted = []) (delivered : receiver.delivered = [])
      (unheard : ∀ face, receiver.record = some face → Unheard face)
  | answered (ack : ChannelFrame) (rest : List ChannelFrame) (line : sender.line = ack :: rest)
      (isAck : ack.isAck = true) (quiet : Quiet rest) (back : Back receiver.line)
      (safe : receiver.delivered <+: sender.accepted)
      (flows : ∀ face, receiver.record = some face → face.state ≠ .opened ∧
        Flows sender.record sender.accepted (Waiting receiver.line) rest receiver.delivered face)
  | flowing (quiet : Quiet sender.line) (back : Back receiver.line)
      (safe : receiver.delivered <+: sender.accepted)
      (flows : ∀ face, receiver.record = some face → face.state = .opened →
        Flows sender.record sender.accepted (Waiting receiver.line) sender.line receiver.delivered face)

theorem Joined.safe {sender receiver : View} (joined : Joined sender receiver) :
    receiver.delivered <+: sender.accepted := by
  cases joined with
  | unopened _ _ _ _ _ delivered =>
      rw [delivered]
      exact List.nil_prefix
  | calling _ _ _ _ _ _ _ _ delivered =>
      rw [delivered]
      exact List.nil_prefix
  | called _ _ _ _ _ _ _ _ delivered =>
      rw [delivered]
      exact List.nil_prefix
  | answered _ _ _ _ _ _ safe => exact safe
  | flowing _ _ safe => exact safe

theorem quiet_end {frame : ChannelFrame} (ends : frame.isEnd = true) : Quiet [frame] := by
  intro other member
  rw [List.mem_singleton.mp member]
  exact ⟨ChannelFrame.isOpen_of_isEnd ends, ChannelFrame.isAck_of_isEnd ends⟩

theorem Quiet.append {line more : List ChannelFrame} (quiet : Quiet line) (others : Quiet more) :
    Quiet (line ++ more) := by
  intro frame member
  rcases List.mem_append.mp member with old | new
  · exact quiet frame old
  · exact others frame new

theorem Quiet.cut {line after : List ChannelFrame} (quiet : Quiet line) (cut : Cut line after) :
    Quiet after := by
  obtain ⟨kept, isPrefix, shape⟩ := cut
  have fewer : Quiet kept := fun frame member => quiet frame (isPrefix.subset member)
  rcases shape with rfl | ⟨last, ends, rfl⟩
  · exact fewer
  · exact fewer.append (quiet_end ends)

theorem Back.append {line more : List ChannelFrame} (back : Back line) (quiet : Quiet more) :
    Back (line ++ more) := by
  have none_new : more.filter ChannelFrame.isAck = [] := by
    rw [List.filter_eq_nil_iff]
    intro frame member
    simp [(quiet frame member).2]
  refine ⟨?_, ?_⟩
  · intro frame member
    rcases List.mem_append.mp member with old | new
    · exact back.noOpen frame old
    · exact (quiet frame new).1
  · rw [List.filter_append, none_new, List.append_nil]
    exact back.once

theorem Back.shorter {line kept : List ChannelFrame} (back : Back line) (fewer : kept <+: line) :
    Back kept := by
  refine ⟨fun frame member => back.noOpen frame (fewer.subset member), ?_⟩
  have sublist := (fewer.sublist.filter ChannelFrame.isAck).length_le
  exact Nat.le_trans sublist back.once

theorem Back.cut {line after : List ChannelFrame} (back : Back line) (cut : Cut line after) :
    Back after := by
  obtain ⟨kept, isPrefix, shape⟩ := cut
  have fewer := back.shorter isPrefix
  rcases shape with rfl | ⟨last, ends, rfl⟩
  · exact fewer
  · exact fewer.append (quiet_end ends)

theorem Waiting.of_append {line more : List ChannelFrame} (quiet : Quiet more)
    (waiting : Waiting (line ++ more)) : Waiting line := by
  obtain ⟨frame, member, ack⟩ := waiting
  rcases List.mem_append.mp member with old | new
  · exact ⟨frame, old, ack⟩
  · rw [(quiet frame new).2] at ack
    cases ack

theorem Waiting.of_cut {line after : List ChannelFrame} (cut : Cut line after)
    (waiting : Waiting after) : Waiting line := by
  obtain ⟨kept, isPrefix, shape⟩ := cut
  have kept_waiting : Waiting kept := by
    rcases shape with rfl | ⟨last, ends, rfl⟩
    · exact waiting
    · exact Waiting.of_append (quiet_end ends) waiting
  obtain ⟨frame, member, ack⟩ := kept_waiting
  exact ⟨frame, isPrefix.subset member, ack⟩

theorem back_of_ends {junk : List ChannelFrame} (ends : ∀ frame ∈ junk, frame.isEnd = true) :
    Back junk := by
  have quiet : Quiet junk := fun frame member =>
    ⟨ChannelFrame.isOpen_of_isEnd (ends frame member), ChannelFrame.isAck_of_isEnd (ends frame member)⟩
  have nothing : Back [] := ⟨fun _ absent => absurd absent List.not_mem_nil, Nat.zero_le _⟩
  exact nothing.append quiet

/-- A cut line that began with a call has lost the call, or kept it and some of
the rest. -/
theorem Cut.call {call : ChannelFrame} {junk after : List ChannelFrame}
    (ends : ∀ frame ∈ junk, frame.isEnd = true) (cut : Cut (call :: junk) after) :
    (∀ frame ∈ after, frame.isEnd = true) ∨
      ∃ rest, after = call :: rest ∧ ∀ frame ∈ rest, frame.isEnd = true := by
  obtain ⟨kept, isPrefix, shape⟩ := cut
  cases kept with
  | nil =>
      rcases shape with rfl | ⟨last, isEnd, rfl⟩
      · exact Or.inl fun _ absent => absurd absent List.not_mem_nil
      · refine Or.inl fun frame member => ?_
        rw [List.mem_singleton.mp member]
        exact isEnd
  | cons first rest =>
      obtain ⟨rfl, fewer⟩ := List.cons_prefix_cons.mp isPrefix
      have kept_ends : ∀ frame ∈ rest, frame.isEnd = true := fun frame member =>
        ends frame (fewer.subset member)
      rcases shape with rfl | ⟨last, isEnd, rfl⟩
      · exact Or.inr ⟨rest, rfl, kept_ends⟩
      · refine Or.inr ⟨rest ++ [last], rfl, fun frame member => ?_⟩
        rcases List.mem_append.mp member with old | new
        · exact kept_ends frame old
        · rw [List.mem_singleton.mp new]
          exact isEnd

theorem ends_append {junk : List ChannelFrame} (ends : ∀ frame ∈ junk, frame.isEnd = true)
    {last : ChannelFrame} (isEnd : last.isEnd = true) :
    ∀ frame ∈ junk ++ [last], frame.isEnd = true := by
  intro frame member
  rcases List.mem_append.mp member with old | new
  · exact ends frame old
  · rw [List.mem_singleton.mp new]
    exact isEnd

/-- A receiver that does not hear, and lines that will not make it hear. -/
theorem Joined.shut {sender receiver : View} (quiet : Quiet sender.line)
    (back : Back receiver.line) (safe : receiver.delivered <+: sender.accepted)
    (shut : ∀ face, receiver.record = some face → face.state ≠ .opened) :
    Joined sender receiver :=
  .flowing quiet back safe fun face found opened => absurd opened (shut face found)

theorem Joined.idle {sender receiver : View} (quiet : Quiet sender.line)
    (back : Back receiver.line) (delivered : receiver.delivered = [])
    (shut : ∀ face, receiver.record = some face → face.state ≠ .opened) :
    Joined sender receiver := by
  apply Joined.shut quiet back ?_ shut
  rw [delivered]
  exact List.nil_prefix

/-- The answer, too, may be cut from the line it leads. -/
theorem Cut.ack {ack : ChannelFrame} {rest after : List ChannelFrame} (cut : Cut (ack :: rest) after) :
    Quiet after ∨ ∃ shorter, after = ack :: shorter ∧ Cut rest shorter := by
  obtain ⟨kept, isPrefix, shape⟩ := cut
  cases kept with
  | nil =>
      rcases shape with rfl | ⟨last, isEnd, rfl⟩
      · exact Or.inl fun _ absent => absurd absent List.not_mem_nil
      · exact Or.inl (quiet_end isEnd)
  | cons first others =>
      obtain ⟨rfl, fewer⟩ := List.cons_prefix_cons.mp isPrefix
      rcases shape with rfl | ⟨last, isEnd, rfl⟩
      · exact Or.inr ⟨others, rfl, others, fewer, Or.inl rfl⟩
      · exact Or.inr ⟨others ++ [last], rfl, others, fewer, Or.inr ⟨last, isEnd, rfl⟩⟩

theorem quiet_of_ends {junk : List ChannelFrame} (ends : ∀ frame ∈ junk, frame.isEnd = true) :
    Quiet junk := fun frame member =>
  ⟨ChannelFrame.isOpen_of_isEnd (ends frame member), ChannelFrame.isAck_of_isEnd (ends frame member)⟩

theorem bound_same {view : View} : ∀ own,
    (view.record.map fun face => { face with onData := true }) = some own →
      ∃ before, view.record = some before ∧ own.txSeq = before.txSeq ∧
        own.policy = before.policy ∧ own.state = before.state := by
  intro own found
  obtain ⟨before, known, rfl⟩ := Option.map_eq_some_iff.mp found
  exact ⟨before, known, rfl, rfl, rfl⟩

/-- What the sender does of its own accord. -/
theorem Joined.sender_move {sender receiver after : View} (joined : Joined sender receiver)
    (move : Move sender after)
    (compatible : ∀ own face, sender.record = some own → receiver.record = some face →
      own.policy.maxMessageBytes ≤ face.policy.maxMessageBytes) : Joined after receiver := by
  cases joined with
  | unopened senderNone receiverNone senderLine receiverLine accepted delivered =>
      cases move with
      | stay => exact .unopened senderNone receiverNone senderLine receiverLine accepted delivered
      | bind =>
          rw [senderNone]
          exact .unopened rfl receiverNone senderLine receiverLine accepted delivered
      | say face _ _ _ found => exact absurd found (by rw [senderNone]; nofun)
      | close face _ _ found => exact absurd found (by rw [senderNone]; nofun)
      | closeLost face _ found => exact absurd found (by rw [senderNone]; nofun)
      | drop _ present => exact absurd present (by rw [senderNone]; nofun)
  | calling call junk line isCall ends receiverNone receiverLine accepted delivered own =>
      cases move with
      | stay =>
          exact .calling call junk line isCall ends receiverNone receiverLine accepted delivered own
      | bind =>
          refine .calling call junk line isCall ends receiverNone receiverLine accepted delivered ?_
          intro face found
          obtain ⟨before, known, rfl⟩ := Option.map_eq_some_iff.mp found
          exact own before known
      | say face _ _ _ found opened => exact absurd opened (own face found).1
      | close face frame seq found isEnd =>
          refine .calling call (junk ++ [frame]) ?_ isCall (ends_append ends isEnd) receiverNone
            receiverLine accepted delivered ?_
          · dsimp only
            rw [line, List.cons_append]
          · intro other same
            cases same
            exact ⟨nofun, fun bare => absurd bare (by simp)⟩
      | closeLost face seq found late =>
          refine .calling call junk line isCall ends receiverNone receiverLine accepted delivered ?_
          intro other same
          cases same
          exact ⟨nofun, fun bare => absurd ((own face found).2 bare).1 late⟩
      | drop shorter _ cut =>
          rw [line] at cut
          rcases cut.call ends with lost | ⟨rest, rfl, rest_ends⟩
          · exact Joined.idle (quiet_of_ends lost) (by rw [receiverLine]; exact back_of_ends (by simp))
              delivered (by rw [receiverNone]; nofun)
          · exact .calling call rest rfl isCall rest_ends receiverNone receiverLine accepted
              delivered nofun
  | called call junk line isCall ends senderNone senderLine accepted delivered unheard =>
      cases move with
      | stay =>
          exact .called call junk line isCall ends senderNone senderLine accepted delivered unheard
      | bind =>
          rw [senderNone]
          exact .called call junk line isCall ends rfl senderLine accepted delivered unheard
      | say face _ _ _ found => exact absurd found (by rw [senderNone]; nofun)
      | close face _ _ found => exact absurd found (by rw [senderNone]; nofun)
      | closeLost face _ found => exact absurd found (by rw [senderNone]; nofun)
      | drop _ present => exact absurd present (by rw [senderNone]; nofun)
  | answered ack rest line isAck quiet back safe flows =>
      cases move with
      | stay => exact .answered ack rest line isAck quiet back safe flows
      | bind =>
          refine .answered ack rest line isAck quiet back safe fun face found => ?_
          exact ⟨(flows face found).1, (flows face found).2.keep _ bound_same⟩
      | say own payload frames seq found opened within speaks =>
          refine .answered ack (rest ++ frames) ?_ isAck (quiet.append speaks.quiet) back
            (safe.trans (List.prefix_append ..)) fun face known => ?_
          · dsimp only
            rw [line, List.cons_append]
          · exact ⟨(flows face known).1, (flows face known).2.say own found opened payload frames seq
              within speaks (compatible own face found known)⟩
      | close own frame seq found isEnd =>
          refine .answered ack (rest ++ [frame]) ?_ isAck (quiet.append (quiet_end isEnd)) back safe
            fun face known => ?_
          · dsimp only
            rw [line, List.cons_append]
          · exact ⟨(flows face known).1, (flows face known).2.close own found frame isEnd seq⟩
      | closeLost own seq found late =>
          refine .answered ack rest line isAck quiet back safe fun face known => ?_
          exact ⟨(flows face known).1, (flows face known).2.closeLost own found late seq⟩
      | drop shorter _ cut =>
          rw [line] at cut
          rcases cut.ack with lost | ⟨fewer, rfl, inner⟩
          · exact Joined.shut lost back safe fun face known => (flows face known).1
          · exact .answered ack fewer rfl isAck (quiet.cut inner) back safe fun face known =>
              ⟨(flows face known).1, (flows face known).2.drop inner⟩
  | flowing quiet back safe flows =>
      cases move with
      | stay => exact .flowing quiet back safe flows
      | bind =>
          exact .flowing quiet back safe fun face found opened =>
            (flows face found opened).keep _ bound_same
      | say own payload frames seq found opened within speaks =>
          exact .flowing (quiet.append speaks.quiet) back (safe.trans (List.prefix_append ..))
            fun face known open_ => (flows face known open_).say own found opened payload frames
              seq within speaks (compatible own face found known)
      | close own frame seq found isEnd =>
          exact .flowing (quiet.append (quiet_end isEnd)) back safe fun face known opened =>
            (flows face known opened).close own found frame isEnd seq
      | closeLost own seq found late =>
          exact .flowing quiet back safe fun face known opened =>
            (flows face known opened).closeLost own found late seq
      | drop shorter _ cut =>
          exact .flowing (quiet.cut cut) back safe fun face known opened =>
            (flows face known opened).drop cut

/-- What the receiver does of its own accord. -/
theorem Joined.receiver_move {sender receiver after : View} (joined : Joined sender receiver)
    (move : Move receiver after) : Joined sender after := by
  cases joined with
  | unopened senderNone receiverNone senderLine receiverLine accepted delivered =>
      cases move with
      | stay => exact .unopened senderNone receiverNone senderLine receiverLine accepted delivered
      | bind =>
          rw [receiverNone]
          exact .unopened senderNone rfl senderLine receiverLine accepted delivered
      | say face _ _ _ found => exact absurd found (by rw [receiverNone]; nofun)
      | close face _ _ found => exact absurd found (by rw [receiverNone]; nofun)
      | closeLost face _ found => exact absurd found (by rw [receiverNone]; nofun)
      | drop _ present => exact absurd present (by rw [receiverNone]; nofun)
  | calling call junk line isCall ends receiverNone receiverLine accepted delivered own =>
      cases move with
      | stay =>
          exact .calling call junk line isCall ends receiverNone receiverLine accepted delivered own
      | bind =>
          rw [receiverNone]
          exact .calling call junk line isCall ends rfl receiverLine accepted delivered own
      | say face _ _ _ found => exact absurd found (by rw [receiverNone]; nofun)
      | close face _ _ found => exact absurd found (by rw [receiverNone]; nofun)
      | closeLost face _ found => exact absurd found (by rw [receiverNone]; nofun)
      | drop _ present => exact absurd present (by rw [receiverNone]; nofun)
  | called call junk line isCall ends senderNone senderLine accepted delivered unheard =>
      cases move with
      | stay =>
          exact .called call junk line isCall ends senderNone senderLine accepted delivered unheard
      | bind =>
          refine .called call junk line isCall ends senderNone senderLine accepted delivered ?_
          intro face found
          obtain ⟨before, known, rfl⟩ := Option.map_eq_some_iff.mp found
          exact ⟨(unheard before known).shut, (unheard before known).first,
            (unheard before known).holds⟩
      | say face _ _ _ found opened => exact absurd opened (unheard face found).shut
      | close face frame seq found isEnd =>
          refine .called call (junk ++ [frame]) ?_ isCall (ends_append ends isEnd) senderNone
            senderLine accepted delivered ?_
          · dsimp only
            rw [line, List.cons_append]
          · intro other same
            cases same
            exact ⟨nofun, (unheard face found).first, (unheard face found).holds⟩
      | closeLost face seq found late =>
          refine .called call junk line isCall ends senderNone senderLine accepted delivered ?_
          intro other same
          cases same
          exact ⟨nofun, (unheard face found).first, (unheard face found).holds⟩
      | drop shorter _ cut =>
          rw [line] at cut
          rcases cut.call ends with lost | ⟨rest, rfl, rest_ends⟩
          · apply Joined.idle
            · rw [senderLine]
              exact fun _ absent => absurd absent List.not_mem_nil
            · exact back_of_ends lost
            · exact delivered
            · nofun
          · exact .called call rest rfl isCall rest_ends senderNone senderLine accepted delivered
              nofun
  | answered ack rest line isAck quiet back safe flows =>
      cases move with
      | stay => exact .answered ack rest line isAck quiet back safe flows
      | bind =>
          refine .answered ack rest line isAck quiet back safe fun face found => ?_
          obtain ⟨before, known, rfl⟩ := Option.map_eq_some_iff.mp found
          exact ⟨(flows before known).1, (flows before known).2.receiver _ rfl rfl rfl⟩
      | say face _ _ _ found opened => exact absurd opened (flows face found).1
      | close face frame seq found isEnd =>
          refine .answered ack rest line isAck quiet (back.append (quiet_end isEnd)) safe
            fun other same => ?_
          cases same
          exact ⟨nofun, ((flows face found).2.wait
            (Waiting.of_append (quiet_end isEnd))).receiver _ rfl rfl rfl⟩
      | closeLost face seq found late =>
          refine .answered ack rest line isAck quiet back safe fun other same => ?_
          cases same
          exact ⟨nofun, (flows face found).2.receiver _ rfl rfl rfl⟩
      | drop shorter _ cut => exact .answered ack rest line isAck quiet (back.cut cut) safe nofun
  | flowing quiet back safe flows =>
      cases move with
      | stay => exact .flowing quiet back safe flows
      | bind =>
          refine .flowing quiet back safe fun face found opened => ?_
          obtain ⟨before, known, rfl⟩ := Option.map_eq_some_iff.mp found
          exact (flows before known opened).receiver _ rfl rfl rfl
      | say face payload frames seq found opened within speaks =>
          refine .flowing quiet (back.append speaks.quiet) safe fun other same _ => ?_
          cases same
          exact ((flows face found opened).wait
            (Waiting.of_append speaks.quiet)).receiver _ rfl rfl rfl
      | close face frame seq found isEnd =>
          refine .flowing quiet (back.append (quiet_end isEnd)) safe fun other same opened => ?_
          cases same
          cases opened
      | closeLost face seq found late =>
          refine .flowing quiet back safe fun other same opened => ?_
          cases same
          cases opened
      | drop shorter _ cut => exact .flowing quiet (back.cut cut) safe nofun

/-- The sender opens the channel: the call is on the line, or found no room. -/
theorem Joined.sender_opens {sender receiver : View}
    (receiverNone : receiver.record = none) (senderLine : sender.line = [])
    (receiverLine : receiver.line = []) (accepted : sender.accepted = [])
    (delivered : receiver.delivered = []) (face : Face) (opening : face.state = .opening)
    (first : face.txSeq = 1) (calls : List ChannelFrame)
    (one : calls = [] ∨ ∃ call : ChannelFrame, calls = [call] ∧ call.isOpen = true) :
    Joined { sender with record := some face, line := sender.line ++ calls } receiver := by
  rcases one with rfl | ⟨call, rfl, isCall⟩
  · apply Joined.idle
    · dsimp only
      rw [senderLine]
      exact fun _ absent => absurd absent List.not_mem_nil
    · rw [receiverLine]
      exact back_of_ends fun _ absent => absurd absent List.not_mem_nil
    · exact delivered
    · rw [receiverNone]
      nofun
  · refine .calling call [] ?_ isCall (fun _ absent => absurd absent List.not_mem_nil) receiverNone
      receiverLine accepted delivered ?_
    · dsimp only
      rw [senderLine, List.nil_append]
    · intro other same
      cases same
      exact ⟨by rw [opening]; nofun, fun _ => ⟨opening, first⟩⟩

theorem Joined.receiver_opens {sender receiver : View} (senderNone : sender.record = none)
    (senderLine : sender.line = []) (receiverLine : receiver.line = [])
    (accepted : sender.accepted = []) (delivered : receiver.delivered = []) (face : Face)
    (unheard : Unheard face) (calls : List ChannelFrame)
    (one : calls = [] ∨ ∃ call : ChannelFrame, calls = [call] ∧ call.isOpen = true) :
    Joined sender { receiver with record := some face, line := receiver.line ++ calls } := by
  rcases one with rfl | ⟨call, rfl, isCall⟩
  · apply Joined.idle
    · rw [senderLine]
      exact fun _ absent => absurd absent List.not_mem_nil
    · dsimp only
      rw [receiverLine]
      exact back_of_ends fun _ absent => absurd absent List.not_mem_nil
    · exact delivered
    · intro other same
      cases same
      exact unheard.shut
  · refine .called call [] ?_ isCall (fun _ absent => absurd absent List.not_mem_nil) senderNone
      senderLine accepted delivered ?_
    · dsimp only
      rw [receiverLine, List.nil_append]
    · intro other same
      cases same
      exact unheard

/-- What hearing a frame other than a call does to a sender. -/
theorem Hears.as_sender {sender after : View} {frame : ChannelFrame} {fault : Option String}
    (hears : Hears sender frame after fault) (notOpen : frame.isOpen = false) :
    after.accepted = sender.accepted ∧
      ((after.line = sender.line ∧ ∀ own, after.record = some own → ∃ before,
          sender.record = some before ∧ own.txSeq = before.txSeq ∧ own.policy = before.policy ∧
            own.state = before.state) ∨
        (frame.isAck = true ∧ after.line = sender.line ∧ ∃ own, sender.record = some own ∧
          after.record = some { own with state := .opened }) ∨
        (after.record = none ∧ Cut sender.line after.line)) := by
  cases hears with
  | deaf => exact ⟨rfl, Or.inl ⟨rfl, fun own found => ⟨own, found, rfl, rfl, rfl⟩⟩⟩
  | duplicate opening => simp_all
  | refuse opening => simp_all
  | accept opening => simp_all
  | answered ack own found => exact ⟨rfl, Or.inr (Or.inl ⟨ack, rfl, own, found, rfl⟩)⟩
  | gone line cut => exact ⟨rfl, Or.inr (Or.inr ⟨rfl, cut⟩)⟩
  | data payload body face found =>
      refine ⟨rfl, Or.inl ⟨rfl, fun own same => ?_⟩⟩
      cases same
      exact ⟨face, found, rfl, rfl, rfl⟩
  | frag frag body face now found =>
      refine ⟨rfl, Or.inl ⟨rfl, fun own same => ?_⟩⟩
      cases same
      exact ⟨face, found, rfl, rfl, rfl⟩
  | outOfTurn => exact ⟨rfl, Or.inl ⟨rfl, fun own found => ⟨own, found, rfl, rfl, rfl⟩⟩⟩
  | bad frag body face now found opened fault pushed line cut =>
      exact ⟨rfl, Or.inr (Or.inr ⟨rfl, cut⟩)⟩

theorem Back.rest {frame : ChannelFrame} {rest : List ChannelFrame} (back : Back (frame :: rest)) :
    frame.isOpen = false ∧ Back rest ∧ (frame.isAck = true → ¬ Waiting rest) := by
  refine ⟨back.noOpen frame (List.mem_cons_self ..),
    ⟨fun other member => back.noOpen other (List.mem_cons_of_mem _ member), ?_⟩, ?_⟩
  · have fewer := ((List.sublist_cons_self frame rest).filter ChannelFrame.isAck).length_le
    exact Nat.le_trans fewer back.once
  · intro ack waiting
    obtain ⟨other, member, second⟩ := waiting
    have listed : other ∈ rest.filter ChannelFrame.isAck := List.mem_filter.mpr ⟨member, second⟩
    have count := List.length_pos_of_mem listed
    have once := back.once
    rw [List.filter_cons, if_pos ack, List.length_cons] at once
    omega

theorem Waiting.cons {frame : ChannelFrame} {rest : List ChannelFrame} (waiting : Waiting rest) :
    Waiting (frame :: rest) := by
  obtain ⟨other, member, ack⟩ := waiting
  exact ⟨other, List.mem_cons_of_mem _ member, ack⟩

/-- A receiver that takes a call, or a sender that does: the stream starts at its
first number. -/
theorem flows_start {record : Option Face} {waiting : Prop} {junk : List ChannelFrame}
    {face : Face} (first : face.rxSeq = 1)
    (holds : face.reassembly.Holds face.policy.maxMessageBytes none)
    (ended : junk = [] ∨ Ends junk)
    (small : ∀ own, record = some own →
      own.policy.maxMessageBytes < 2 ^ 32 ∨ face.policy.maxMessageBytes < 2 ^ 32)
    (live : ∀ own, record = some own → own.state = .opened → Ends junk ∨ junk = [] ∧ own.txSeq = 1)
    (early : ∀ own, record = some own → waiting →
      Ends junk ∨ own.state = .opening ∧ junk = [] ∧ own.txSeq = 1) :
    Flows record [] waiting junk [] face := by
  refine ⟨⟨1, [], none⟩, [], junk, first, rfl, holds, rfl, trivial, List.prefix_refl _, ended, small,
    ?_, ?_⟩
  · intro own found opened
    refine (live own found opened).imp_right fun both => ⟨both.1, ?_⟩
    rw [both.2]
    rfl
  · intro own found pending
    refine (early own found pending).imp_right fun both => ⟨both.1, both.2.1, ?_⟩
    rw [both.2.2]
    rfl

/-- The sender hears the frame at the front of the receiver's line. -/
theorem Joined.sender_hears {sender receiver after : View} (joined : Joined sender receiver)
    {frame : ChannelFrame} {rest : List ChannelFrame} (front : receiver.line = frame :: rest)
    {fault : Option String} (hears : Hears sender frame after fault) :
    Joined after { receiver with line := rest } := by
  cases joined with
  | unopened _ _ _ receiverLine => exact absurd front (by rw [receiverLine]; nofun)
  | calling _ _ _ _ _ _ receiverLine => exact absurd front (by rw [receiverLine]; nofun)
  | called call junk line isCall ends senderNone senderLine accepted delivered unheard =>
      rw [line] at front
      cases front
      have shut : ∀ face, receiver.record = some face → face.state ≠ .opened :=
        fun face found => (unheard face found).shut
      cases hears with
      | deaf _ other => simp_all
      | duplicate _ present => simp_all
      | refuse opening absent acks quiet =>
          apply Joined.idle
          · dsimp only
            rw [senderLine, List.nil_append]
            exact quiet
          · exact back_of_ends ends
          · exact delivered
          · exact shut
      | accept opening absent face opened first fresh small acks one =>
          rcases one with rfl | ⟨ack, rfl, isAck, notOpen⟩
          · apply Joined.idle
            · dsimp only
              rw [senderLine]
              exact fun _ absent => absurd absent List.not_mem_nil
            · exact back_of_ends ends
            · exact delivered
            · exact shut
          · refine .answered ack [] ?_ isAck (fun _ absent => absurd absent List.not_mem_nil)
              (back_of_ends ends) ?_ fun other known => ⟨shut other known, ?_⟩
            · dsimp only
              rw [senderLine, List.nil_append]
            · dsimp only
              rw [delivered]
              exact List.nil_prefix
            · dsimp only
              rw [accepted, delivered]
              apply flows_start (unheard other known).first (unheard other known).holds (Or.inl rfl)
              · intro own same
                cases same
                exact Or.inl small
              · intro own same _
                cases same
                exact Or.inr ⟨rfl, first.1⟩
              · intro own same waiting
                obtain ⟨ack', member, isAck'⟩ := waiting
                have never := ChannelFrame.isAck_of_isEnd (ends ack' member)
                rw [isAck'] at never
                cases never
      | answered ack own found => simp_all
      | gone _ _ other => simp_all
      | data payload body face found => simp_all
      | frag frag body face now found => simp_all
      | outOfTurn _ face found => simp_all
      | bad frag body face now found => simp_all
  | answered ack others line isAck quiet back safe flows =>
      rw [front] at back
      obtain ⟨notOpen, rested, once⟩ := back.rest
      obtain ⟨accepted, change⟩ := hears.as_sender notOpen
      have stays : receiver.delivered <+: after.accepted := by rw [accepted]; exact safe
      rcases change with ⟨same, keeps⟩ | ⟨isAck', same, own, found, opened⟩ | ⟨gone, cut⟩
      · refine .answered ack others (same.trans line) isAck quiet rested stays fun face known =>
          ⟨(flows face known).1, ?_⟩
        have flow := (flows face known).2
        rw [front] at flow
        rw [accepted]
        exact (flow.keep after.record keeps).wait Waiting.cons
      · refine .answered ack others (same.trans line) isAck quiet rested stays fun face known =>
          ⟨(flows face known).1, ?_⟩
        have flow := (flows face known).2
        rw [front] at flow
        rw [accepted, opened]
        exact flow.answer ⟨frame, List.mem_cons_self .., isAck'⟩ own found (once isAck')
      · rw [line] at cut
        rcases cut.ack with lost | ⟨fewer, kept, inner⟩
        · exact Joined.shut lost rested stays fun face known => (flows face known).1
        · refine .answered ack fewer kept isAck (quiet.cut inner) rested stays fun face known =>
            ⟨(flows face known).1, ?_⟩
          have flow := (flows face known).2
          rw [front] at flow
          rw [accepted, gone]
          exact (flow.drop inner).wait Waiting.cons
  | flowing quiet back safe flows =>
      rw [front] at back
      obtain ⟨notOpen, rested, once⟩ := back.rest
      obtain ⟨accepted, change⟩ := hears.as_sender notOpen
      have stays : receiver.delivered <+: after.accepted := by rw [accepted]; exact safe
      rcases change with ⟨same, keeps⟩ | ⟨isAck, same, own, found, opened⟩ | ⟨gone, cut⟩
      · refine .flowing (same ▸ quiet) rested stays fun face known hearing => ?_
        have flow := flows face known hearing
        rw [front] at flow
        rw [accepted, same]
        exact (flow.keep after.record keeps).wait Waiting.cons
      · refine .flowing (same ▸ quiet) rested stays fun face known hearing => ?_
        have flow := flows face known hearing
        rw [front] at flow
        rw [accepted, same, opened]
        exact flow.answer ⟨frame, List.mem_cons_self .., isAck⟩ own found (once isAck)
      · refine .flowing (quiet.cut cut) rested stays fun face known hearing => ?_
        have flow := flows face known hearing
        rw [front] at flow
        rw [accepted, gone]
        exact (flow.drop cut).wait Waiting.cons

theorem cut_refl (line : List ChannelFrame) : Cut line line :=
  ⟨line, List.prefix_refl _, Or.inl rfl⟩

/-- A frame that neither calls nor answers reaches a receiver that does not hear. -/
theorem Hears.shut {receiver after : View} {frame : ChannelFrame} {fault : Option String}
    (hears : Hears receiver frame after fault)
    (quiet : frame.isOpen = false ∧ frame.isAck = false)
    (shut : ∀ face, receiver.record = some face → face.state ≠ .opened) :
    fault = none ∧ after.delivered = receiver.delivered ∧
      ∀ face, after.record = some face → face.state ≠ .opened := by
  cases hears with
  | deaf => exact ⟨rfl, rfl, shut⟩
  | duplicate opening => simp_all
  | refuse opening => simp_all
  | accept opening => simp_all
  | answered ack => simp_all
  | gone => exact ⟨rfl, rfl, nofun⟩
  | data payload body face found opened => exact absurd opened (shut face found)
  | frag frag body face now found opened => exact absurd opened (shut face found)
  | outOfTurn _ face found opened => exact absurd opened (shut face found)
  | bad frag body face now found opened => exact absurd opened (shut face found)

/-- Hearing such a frame adds nothing but an end to the hearer's own line. -/
theorem Hears.cut {view after : View} {frame : ChannelFrame} {fault : Option String}
    (hears : Hears view frame after fault) (notOpen : frame.isOpen = false) :
    Cut view.line after.line := by
  rcases (hears.as_sender notOpen).2 with ⟨same, _⟩ | ⟨_, same, _⟩ | ⟨_, cut⟩
  · rw [same]
    exact cut_refl _
  · rw [same]
    exact cut_refl _
  · exact cut

theorem over_of_ends {junk : List ChannelFrame} (ends : ∀ frame ∈ junk, frame.isEnd = true) :
    junk = [] ∨ Ends junk := by
  cases junk with
  | nil => exact Or.inl rfl
  | cons first rest => exact Or.inr ⟨first, rest, rfl, ends first (List.mem_cons_self ..)⟩

/-- The receiver hears the frame at the front of the sender's line: it finds no
fault. -/
theorem Joined.receiver_hears {sender receiver after : View} (joined : Joined sender receiver)
    {frame : ChannelFrame} {rest : List ChannelFrame} (front : sender.line = frame :: rest)
    (bound : ∀ face, receiver.record = some face → face.state = .opened → face.onData = true)
    {fault : Option String} (hears : Hears receiver frame after fault) :
    fault = none ∧ Joined { sender with line := rest } after := by
  cases joined with
  | unopened _ _ senderLine => exact absurd front (by rw [senderLine]; nofun)
  | called _ _ _ _ _ _ senderLine => exact absurd front (by rw [senderLine]; nofun)
  | calling call junk line isCall ends receiverNone receiverLine accepted delivered own =>
      rw [line] at front
      cases front
      cases hears with
      | deaf _ other => simp_all
      | duplicate _ present => simp_all
      | refuse opening absent acks quiet =>
          refine ⟨rfl, Joined.idle (quiet_of_ends ends) ?_ delivered ?_⟩
          · dsimp only
            rw [receiverLine]
            have nothing : Back [] := back_of_ends fun _ absent => absurd absent List.not_mem_nil
            exact nothing.append quiet
          · dsimp only
            rw [receiverNone]
            nofun
      | accept opening absent face opened first fresh small acks one =>
          have back : Back acks := by
            rcases one with rfl | ⟨ack, rfl, isAck, notOpen⟩
            · exact back_of_ends fun _ absent => absurd absent List.not_mem_nil
            · refine ⟨fun other member => ?_, List.length_filter_le _ _⟩
              rw [List.mem_singleton.mp member]
              exact notOpen
          refine ⟨rfl, .flowing (quiet_of_ends ends) ?_ ?_ ?_⟩
          · dsimp only
            rw [receiverLine]
            exact back
          · dsimp only
            rw [delivered]
            exact List.nil_prefix
          · intro other same _
            cases same
            dsimp only
            rw [accepted, delivered]
            apply flows_start first.2 fresh (over_of_ends ends)
            · exact fun _ _ => Or.inr small
            · exact fun mine found opened => absurd opened (own mine found).1
            · intro mine found _
              rcases over_of_ends ends with bare | ended
              · obtain ⟨opening, seq⟩ := (own mine found).2 bare
                exact Or.inr ⟨opening, bare, seq⟩
              · exact Or.inl ended
      | answered ack own found => simp_all
      | gone _ _ other => simp_all
      | data payload body face found => simp_all
      | frag frag body face now found => simp_all
      | outOfTurn _ face found => simp_all
      | bad frag body face now found => simp_all
  | answered ack others line isAck quiet back safe flows =>
      rw [line] at front
      cases front
      have notOpen := ChannelFrame.isOpen_of_isAck isAck
      have notSpeech := ChannelFrame.isSpeech_of_isAck isAck
      cases hears with
      | deaf shut _ kept => exact ⟨rfl, Joined.shut quiet back safe shut⟩
      | duplicate opening => simp_all
      | refuse opening => simp_all
      | accept opening => simp_all
      | answered _ face found =>
          refine ⟨rfl, .flowing quiet back safe fun other same _ => ?_⟩
          cases same
          exact (flows face found).2.receiver _ rfl rfl rfl
      | gone _ _ other => simp_all
      | data payload body => simp_all
      | frag frag body => simp_all
      | outOfTurn speech => simp_all
      | bad frag body => simp_all
  | flowing quiet back safe flows =>
      have calm := quiet frame (by rw [front]; exact List.mem_cons_self ..)
      have rested : Quiet rest := fun other member =>
        quiet other (by rw [front]; exact List.mem_cons_of_mem _ member)
      have backed : Back after.line := back.cut (hears.cut calm.1)
      have waits : Waiting after.line → Waiting receiver.line := Waiting.of_cut (hears.cut calm.1)
      by_cases hearing : ∃ face, receiver.record = some face ∧ face.state = .opened
      · obtain ⟨face, found, opened⟩ := hearing
        have flow := flows face found opened
        rw [front] at flow
        rcases flow.front with ends | ⟨reading, data, tail, split, streams⟩
        · obtain ⟨clean, same, gone⟩ := hears.ends ends found opened
          refine ⟨clean, Joined.shut rested backed ?_ ?_⟩
          · rw [same]
            exact safe
          · rw [gone]
            nofun
        · obtain ⟨clean, own, recorded, onward⟩ :=
            streams.hear split found opened (bound face found opened) calm hears
          refine ⟨clean, .flowing rested backed onward.safe fun other same _ => ?_⟩
          rw [recorded] at same
          cases same
          exact onward.wait waits
      · have shut : ∀ face, receiver.record = some face → face.state ≠ .opened :=
          fun face found opened => hearing ⟨face, found, opened⟩
        obtain ⟨clean, same, still⟩ := hears.shut calm shut
        refine ⟨clean, Joined.shut rested backed ?_ still⟩
        rw [same]
        exact safe

end View

end Amp
