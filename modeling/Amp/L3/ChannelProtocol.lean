import Amp.L3.ChannelStream

set_option autoImplicit false

/- One channel between two muxes, apart from all others: what each end may do
with it, what a frame does to the end that hears it, and the relation of sender
and receiver that every step keeps. -/
namespace Amp

open Adp (Bytes)

/-- What the protocol sees of a channel record. -/
structure Face where
  state : ChannelState
  txSeq : UInt32
  rxSeq : UInt32
  policy : ChannelPolicy
  reassembly : MessageReassembly
  onData : Bool

/-- One end of the channel: its record, its frames on their way, the payloads
given to its data handler and those its `SendData` took. -/
structure View where
  record : Option Face
  line : List ChannelFrame
  delivered : List Bytes
  accepted : List Bytes

namespace ChannelFrame

def isOpen (frame : ChannelFrame) : Bool :=
  match frame.body with
  | .openFrame .. => true
  | _ => false

/-- An ack that opens the channel. -/
def isAck (frame : ChannelFrame) : Bool :=
  match frame.body with
  | .openAck result => result == 0
  | _ => false

def isEnd (frame : ChannelFrame) : Bool :=
  match frame.body with
  | .close _ | .reset _ => true
  | _ => false

/-- A frame that carries payload. -/
def isSpeech (frame : ChannelFrame) : Bool :=
  match frame.body with
  | .data _ | .frag _ => true
  | _ => false

theorem isSpeech_of_isEnd {frame : ChannelFrame} (ends : frame.isEnd = true) :
    frame.isSpeech = false := by
  unfold isEnd at ends
  unfold isSpeech
  split at ends <;> simp_all

theorem isOpen_of_isAck {frame : ChannelFrame} (ack : frame.isAck = true) :
    frame.isOpen = false := by
  unfold isAck at ack
  unfold isOpen
  split at ack <;> simp_all

theorem isSpeech_of_isAck {frame : ChannelFrame} (ack : frame.isAck = true) :
    frame.isSpeech = false := by
  unfold isAck at ack
  unfold isSpeech
  split at ack <;> simp_all

theorem isOpen_of_isEnd {frame : ChannelFrame} (ends : frame.isEnd = true) :
    frame.isOpen = false := by
  unfold isEnd at ends
  unfold isOpen
  split at ends <;> simp_all

theorem isAck_of_isEnd {frame : ChannelFrame} (ends : frame.isEnd = true) :
    frame.isAck = false := by
  unfold isEnd at ends
  unfold isAck
  split at ends <;> simp_all

end ChannelFrame

namespace View

/-- The rest of a line that begins with a Close or Reset. -/
def Ends (tail : List ChannelFrame) : Prop :=
  ∃ frame rest, tail = frame :: rest ∧ frame.isEnd = true

/-- A line whose queued part was dropped, and an end put behind it or not. -/
def Cut (line after : List ChannelFrame) : Prop :=
  ∃ kept, kept <+: line ∧
    (after = kept ∨ ∃ frame : ChannelFrame, frame.isEnd = true ∧ after = kept ++ [frame])

/-- The frames that carry one payload from a number on. -/
structure Speaks (seq : UInt32) (payload : Bytes) (frames : List ChannelFrame) (after : UInt32) :
    Prop where
  quiet : ∀ frame ∈ frames, frame.isOpen = false ∧ frame.isAck = false
  reads : payload.length < 2 ^ 32 → ∀ limit messages, payload.length ≤ limit →
    Reading.Readable limit ⟨seq, messages, none⟩ frames ∧
      frames.foldl Reading.read ⟨seq, messages, none⟩ = ⟨after, messages ++ [payload], none⟩

/-- What an end does of its own accord once the channel is opened. -/
inductive Move (view : View) : View → Prop where
  | stay : Move view view
  | bind : Move view { view with record := view.record.map fun face => { face with onData := true } }
  | say (face : Face) (payload : Bytes) (frames : List ChannelFrame) (after : UInt32)
      (found : view.record = some face) (opened : face.state = .opened)
      (within : payload.length ≤ face.policy.maxMessageBytes)
      (speaks : Speaks face.txSeq payload frames after) :
      Move view { view with
        record := some { face with txSeq := after }
        line := view.line ++ frames
        accepted := view.accepted ++ [payload] }
  | close (face : Face) (frame : ChannelFrame) (after : UInt32) (found : view.record = some face)
      (ends : frame.isEnd = true) :
      Move view { view with
        record := some { face with txSeq := after, state := .closing }
        line := view.line ++ [frame] }
  | closeLost (face : Face) (after : UInt32) (found : view.record = some face)
      (late : face.state ≠ .opening) :
      Move view { view with record := some { face with txSeq := after, state := .closing } }
  | drop (line : List ChannelFrame) (present : view.record.isSome = true)
      (cut : Cut view.line line) :
      Move view { view with record := none, line := line }

/-- What hearing a frame of the channel does, and the fault of the stream it
found: a frame out of turn, or a message that cannot be put together. -/
inductive Hears (view : View) : ChannelFrame → View → Option String → Prop where
  | deaf (frame : ChannelFrame) (shut : ∀ face, view.record = some face → face.state ≠ .opened)
      (other : frame.isOpen = false)
      (kept : view.record.isSome = true → frame.isAck = false ∧ frame.isEnd = false) :
      Hears view frame view none
  | duplicate (frame : ChannelFrame) (opening : frame.isOpen = true)
      (present : view.record.isSome = true) : Hears view frame view none
  | refuse (frame : ChannelFrame) (opening : frame.isOpen = true) (absent : view.record = none)
      (acks : List ChannelFrame)
      (quiet : ∀ ack ∈ acks, ack.isOpen = false ∧ ack.isAck = false) :
      Hears view frame { view with line := view.line ++ acks } none
  | accept (frame : ChannelFrame) (opening : frame.isOpen = true) (absent : view.record = none)
      (face : Face) (opened : face.state = .opened) (first : face.txSeq = 1 ∧ face.rxSeq = 1)
      (fresh : face.reassembly.Holds face.policy.maxMessageBytes none)
      (small : face.policy.maxMessageBytes < 2 ^ 32) (acks : List ChannelFrame)
      (one : acks = [] ∨ ∃ ack : ChannelFrame, acks = [ack] ∧ ack.isAck = true ∧
        ack.isOpen = false) :
      Hears view frame { view with record := some face, line := view.line ++ acks } none
  | answered (frame : ChannelFrame) (ack : frame.isAck = true) (face : Face)
      (found : view.record = some face) :
      Hears view frame { view with record := some { face with state := .opened } } none
  | gone (frame : ChannelFrame) (line : List ChannelFrame) (cut : Cut view.line line)
      (other : frame.isOpen = false ∧ frame.isAck = false ∧ frame.isSpeech = false) :
      Hears view frame { view with record := none, line := line } none
  | data (frame : ChannelFrame) (payload : Bytes) (body : frame.body = .data payload) (face : Face)
      (found : view.record = some face) (opened : face.state = .opened)
      (turn : frame.channelSeq = face.rxSeq) :
      Hears view frame { view with
        record := some { face with rxSeq := ChannelMux.nextSeq face.rxSeq }
        delivered := if face.onData then view.delivered ++ [payload] else view.delivered } none
  | frag (frame : ChannelFrame) (frag : ChannelFragBody) (body : frame.body = .frag frag)
      (face : Face) (now : Int) (found : view.record = some face) (opened : face.state = .opened)
      (turn : frame.channelSeq = face.rxSeq) (message : Option Bytes)
      (pushed : (face.reassembly.push frag now).2 = .ok message) :
      Hears view frame { view with
        record := some { face with
          rxSeq := ChannelMux.nextSeq face.rxSeq, reassembly := (face.reassembly.push frag now).1 }
        delivered := if face.onData then view.delivered ++ message.toList
          else view.delivered } none
  | outOfTurn (frame : ChannelFrame) (speech : frame.isSpeech = true) (face : Face)
      (found : view.record = some face) (opened : face.state = .opened)
      (early : frame.channelSeq ≠ face.rxSeq) (fault : String) :
      Hears view frame view (some fault)
  | bad (frame : ChannelFrame) (frag : ChannelFragBody) (body : frame.body = .frag frag)
      (face : Face) (now : Int) (found : view.record = some face) (opened : face.state = .opened)
      (fault : String) (pushed : (face.reassembly.push frag now).2 = .error fault)
      (line : List ChannelFrame) (cut : Cut view.line line) :
      Hears view frame { view with record := none, line := line } (some fault)

/-- The line to a receiver that follows it: data the receiver can read in turn,
then nothing or an end. While the sender may still speak, it goes on where the
data stops. -/
structure Streams (record : Option Face) (accepted : List Bytes) (waiting : Prop) (line : List ChannelFrame)
    (delivered : List Bytes) (face : Face) (reading : Reading) (data tail : List ChannelFrame) :
    Prop where
  next : face.rxSeq = reading.next
  messages : delivered = reading.messages
  holds : face.reassembly.Holds face.policy.maxMessageBytes reading.part
  split : line = data ++ tail
  readable : Reading.Readable face.policy.maxMessageBytes reading data
  safe : (data.foldl Reading.read reading).messages <+: accepted
  ended : tail = [] ∨ Ends tail
  small : ∀ own, record = some own →
    own.policy.maxMessageBytes < 2 ^ 32 ∨ face.policy.maxMessageBytes < 2 ^ 32
  live : ∀ own, record = some own → own.state = .opened →
    Ends tail ∨ tail = [] ∧ data.foldl Reading.read reading = ⟨own.txSeq, accepted, none⟩
  early : ∀ own, record = some own → waiting →
    Ends tail ∨ own.state = .opening ∧ tail = [] ∧
      data.foldl Reading.read reading = ⟨own.txSeq, accepted, none⟩

def Flows (record : Option Face) (accepted : List Bytes) (waiting : Prop)
    (line : List ChannelFrame) (delivered : List Bytes) (face : Face) : Prop :=
  ∃ reading data tail, Streams record accepted waiting line delivered face reading data tail

theorem Flows.safe {record : Option Face} {accepted : List Bytes} {waiting : Prop} {line : List ChannelFrame}
    {delivered : List Bytes} {face : Face} (flows : Flows record accepted waiting line delivered face) :
    delivered <+: accepted := by
  obtain ⟨reading, data, tail, streams⟩ := flows
  rw [streams.messages]
  exact (Reading.foldl_messages data reading).trans streams.safe

theorem Ends.append {tail more : List ChannelFrame} (ends : Ends tail) : Ends (tail ++ more) := by
  obtain ⟨frame, rest, rfl, isEnd⟩ := ends
  exact ⟨frame, rest ++ more, rfl, isEnd⟩

theorem prefix_append_cases {kept first second : List ChannelFrame}
    (isPrefix : kept <+: first ++ second) :
    kept <+: first ∨ ∃ more, kept = first ++ more ∧ more <+: second := by
  rcases Nat.le_total kept.length first.length with shorter | longer
  · exact Or.inl (List.prefix_of_prefix_length_le isPrefix (List.prefix_append ..) shorter)
  · obtain ⟨more, rfl⟩ := List.prefix_of_prefix_length_le (List.prefix_append ..) isPrefix longer
    exact Or.inr ⟨more, rfl, (List.prefix_append_right_inj first).mp isPrefix⟩

section Sender

variable {record : Option Face} {accepted : List Bytes} {waiting : Prop} {line : List ChannelFrame} {delivered : List Bytes}
  {face : Face}

/-- The sender's record changes in nothing the stream depends on. -/
theorem Flows.keep (flows : Flows record accepted waiting line delivered face) (after : Option Face)
    (same : ∀ own, after = some own → ∃ before, record = some before ∧
      own.txSeq = before.txSeq ∧ own.policy = before.policy ∧ own.state = before.state) :
    Flows after accepted waiting line delivered face := by
  obtain ⟨reading, data, tail, streams⟩ := flows
  refine ⟨reading, data, tail, streams.next, streams.messages, streams.holds, streams.split,
    streams.readable, streams.safe, streams.ended, ?_, ?_, ?_⟩
  · intro own found
    obtain ⟨before, known, _, policy, _⟩ := same own found
    rw [policy]
    exact streams.small before known
  · intro own found opened
    obtain ⟨before, known, seq, _, state⟩ := same own found
    rw [seq]
    exact streams.live before known (state ▸ opened)
  · intro own found pending
    obtain ⟨before, known, seq, _, state⟩ := same own found
    rw [seq, state]
    exact streams.early before known pending

theorem Flows.wait (flows : Flows record accepted waiting line delivered face) {later : Prop}
    (fewer : later → waiting) : Flows record accepted later line delivered face := by
  obtain ⟨reading, data, tail, streams⟩ := flows
  exact ⟨reading, data, tail, streams.next, streams.messages, streams.holds, streams.split,
    streams.readable, streams.safe, streams.ended, streams.small, streams.live,
    fun own found pending => streams.early own found (fewer pending)⟩

/-- The answer arrives: a sender that was waiting for it may now speak. -/
theorem Flows.answer (flows : Flows record accepted waiting line delivered face) (pending : waiting)
    (own : Face) (found : record = some own) {later : Prop} (past : ¬ later) :
    Flows (some { own with state := .opened }) accepted later line delivered
      face := by
  obtain ⟨reading, data, tail, streams⟩ := flows
  refine ⟨reading, data, tail, streams.next, streams.messages, streams.holds, streams.split,
    streams.readable, streams.safe, streams.ended, ?_, ?_, ?_⟩
  · intro other same
    cases same
    exact streams.small own found
  · intro other same _
    cases same
    exact (streams.early own found pending).imp_right And.right
  · intro other same later
    exact absurd later past

/-- The sender lets go of the channel, and of what waited in its queue. -/
theorem Flows.drop (flows : Flows record accepted waiting line delivered face)
    {after : List ChannelFrame} (cut : Cut line after) :
    Flows none accepted waiting after delivered face := by
  obtain ⟨reading, data, tail, streams⟩ := flows
  obtain ⟨kept, isPrefix, shape⟩ := cut
  rw [streams.split] at isPrefix
  -- what is kept is some of the data, or all of it and some of the tail
  have parts : ∃ some_data some_tail, kept = some_data ++ some_tail ∧ some_data <+: data ∧
      (some_tail = [] ∨ Ends some_tail) := by
    rcases prefix_append_cases isPrefix with inData | ⟨some_tail, rfl, inTail⟩
    · exact ⟨kept, [], (List.append_nil _).symm, inData, Or.inl rfl⟩
    · refine ⟨data, some_tail, rfl, List.prefix_refl _, ?_⟩
      cases some_tail with
      | nil => exact Or.inl rfl
      | cons first rest =>
          rcases streams.ended with none | ⟨frame, others, same, ends⟩
          · rw [none] at inTail
            exact absurd (List.prefix_nil.mp inTail) (List.cons_ne_nil _ _)
          · rw [same] at inTail
            obtain ⟨rfl, _⟩ := List.cons_prefix_cons.mp inTail
            exact Or.inr ⟨first, rest, rfl, ends⟩
  obtain ⟨some_data, some_tail, rfl, shorter, tailed⟩ := parts
  obtain ⟨more, rfl⟩ := shorter
  have readable := ((Reading.readable_append _ some_data more _).mp streams.readable).1
  have safe : (some_data.foldl Reading.read reading).messages <+: accepted := by
    have grown := Reading.foldl_messages more (some_data.foldl Reading.read reading)
    rw [← List.foldl_append] at grown
    exact grown.trans streams.safe
  rcases shape with rfl | ⟨frame, ends, rfl⟩
  · exact ⟨reading, some_data, some_tail, streams.next, streams.messages, streams.holds, rfl,
      readable, safe, tailed, nofun, nofun, nofun⟩
  · refine ⟨reading, some_data, some_tail ++ [frame], streams.next, streams.messages,
      streams.holds, List.append_assoc .., readable, safe, Or.inr ?_, nofun, nofun, nofun⟩
    rcases tailed with none | ends'
    · rw [none]
      exact ⟨frame, [], rfl, ends⟩
    · exact ends'.append

/-- An end of the channel joins the line. -/
theorem Flows.close (flows : Flows record accepted waiting line delivered face) (own : Face)
    (found : record = some own) (frame : ChannelFrame) (ends : frame.isEnd = true)
    (after : UInt32) :
    Flows (some { own with txSeq := after, state := .closing }) accepted waiting
      (line ++ [frame]) delivered face := by
  obtain ⟨reading, data, tail, streams⟩ := flows
  have ended : Ends (tail ++ [frame]) := by
    rcases streams.ended with none | already
    · rw [none]
      exact ⟨frame, [], rfl, ends⟩
    · exact already.append
  refine ⟨reading, data, tail ++ [frame], streams.next, streams.messages, streams.holds, ?_,
    streams.readable, streams.safe, Or.inr ended, ?_, fun _ _ _ => Or.inl ended,
    fun _ _ _ => Or.inl ended⟩
  · rw [streams.split, List.append_assoc]
  · intro other same
    cases same
    exact streams.small own found

/-- A Close that found no room: the channel was open or closing, so no answer is
awaited that could open it again. -/
theorem Flows.closeLost (flows : Flows record accepted waiting line delivered face) (own : Face)
    (found : record = some own) (late : own.state ≠ .opening)
    (after : UInt32) :
    Flows (some { own with txSeq := after, state := .closing }) accepted waiting
      line delivered face := by
  obtain ⟨reading, data, tail, streams⟩ := flows
  refine ⟨reading, data, tail, streams.next, streams.messages, streams.holds, streams.split,
    streams.readable, streams.safe, streams.ended, ?_, ?_, ?_⟩
  · intro other same
    cases same
    exact streams.small own found
  · intro other same opened
    cases same
    cases opened
  · intro other same pending
    rcases streams.early own found pending with ended | ⟨opening, _⟩
    · exact Or.inl ended
    · exact absurd opening late

/-- A payload joins the line, in frames the receiver can read after the others. -/
theorem Flows.say (flows : Flows record accepted waiting line delivered face) (own : Face)
    (found : record = some own) (opened : own.state = .opened) (payload : Bytes)
    (frames : List ChannelFrame) (after : UInt32)
    (within : payload.length ≤ own.policy.maxMessageBytes)
    (speaks : Speaks own.txSeq payload frames after)
    (compatible : own.policy.maxMessageBytes ≤ face.policy.maxMessageBytes) :
    Flows (some { own with txSeq := after }) (accepted ++ [payload]) waiting (line ++ frames)
      delivered face := by
  obtain ⟨reading, data, tail, streams⟩ := flows
  have short : payload.length < 2 ^ 32 := by
    rcases streams.small own found with mine | theirs <;> omega
  have small : ∀ other, some { own with txSeq := after } = some other →
      other.policy.maxMessageBytes < 2 ^ 32 ∨ face.policy.maxMessageBytes < 2 ^ 32 := by
    intro other same
    cases same
    exact streams.small own found
  have longer : accepted <+: accepted ++ [payload] := List.prefix_append ..
  rcases streams.live own found opened with ended | ⟨bare, caughtUp⟩
  · refine ⟨reading, data, tail ++ frames, streams.next, streams.messages, streams.holds, ?_,
      streams.readable, streams.safe.trans longer, Or.inr ended.append, small,
      fun _ _ _ => Or.inl ended.append, fun _ _ _ => Or.inl ended.append⟩
    rw [streams.split, List.append_assoc]
  · obtain ⟨readable, final⟩ := speaks.reads short face.policy.maxMessageBytes accepted
      (by omega)
    have whole : (data ++ frames).foldl Reading.read reading =
        ⟨after, accepted ++ [payload], none⟩ := by
      rw [List.foldl_append, caughtUp, final]
    refine ⟨reading, data ++ frames, [], streams.next, streams.messages, streams.holds, ?_, ?_,
      ?_, Or.inl rfl, small, ?_, ?_⟩
    · rw [streams.split, bare, List.append_nil, List.append_nil]
    · rw [Reading.readable_append, caughtUp]
      exact ⟨streams.readable, readable⟩
    · have all : ((data ++ frames).foldl Reading.read reading).messages = accepted ++ [payload] :=
        congrArg Reading.messages whole
      exact all ▸ List.prefix_refl _
    · intro other same _
      cases same
      exact Or.inr ⟨rfl, whole⟩
    · intro other same pending
      rcases streams.early own found pending with ⟨frame, rest, some_left, _⟩ | ⟨opening, _⟩
      · rw [bare] at some_left
        cases some_left
      · rw [opened] at opening
        cases opening

end Sender

section Receiver

variable {record : Option Face} {accepted : List Bytes} {waiting : Prop} {line : List ChannelFrame} {delivered : List Bytes}
  {face : Face}

/-- The receiver's record changes in nothing the stream depends on. -/
theorem Flows.receiver (flows : Flows record accepted waiting line delivered face) (other : Face)
    (rxSeq : other.rxSeq = face.rxSeq) (policy : other.policy = face.policy)
    (reassembly : other.reassembly = face.reassembly) :
    Flows record accepted waiting line delivered other := by
  obtain ⟨reading, data, tail, streams⟩ := flows
  refine ⟨reading, data, tail, rxSeq.trans streams.next, streams.messages, ?_, streams.split, ?_,
    streams.safe, streams.ended, ?_, streams.live, streams.early⟩
  · rw [policy, reassembly]
    exact streams.holds
  · rw [policy]
    exact streams.readable
  · rw [policy]
    exact streams.small

/-- The frame at the front of the line is an end, or the next of the data. -/
theorem Flows.front {frame : ChannelFrame} {rest : List ChannelFrame}
    (flows : Flows record accepted waiting (frame :: rest) delivered face) :
    frame.isEnd = true ∨ ∃ reading data tail, rest = data ++ tail ∧
      Streams record accepted waiting (frame :: rest) delivered face reading (frame :: data) tail := by
  obtain ⟨reading, data, tail, streams⟩ := flows
  have split := streams.split
  cases data with
  | nil =>
      rcases streams.ended with bare | ⟨first, others, same, ends⟩
      · rw [bare] at split
        cases split
      · rw [same] at split
        cases split
        exact Or.inl ends
  | cons first data =>
      rw [List.cons_append] at split
      cases split
      exact Or.inr ⟨reading, data, tail, rfl, streams⟩

/-- The receiver reads the frame at the front. -/
theorem Streams.advance {reading : Reading} {frame : ChannelFrame}
    {rest data tail : List ChannelFrame}
    (streams : Streams record accepted waiting (frame :: rest) delivered face reading (frame :: data) tail)
    (split : rest = data ++ tail) (after : Face) (heard : List Bytes)
    (policy : after.policy = face.policy) (next : after.rxSeq = (reading.read frame).next)
    (messages : heard = (reading.read frame).messages)
    (holds : after.reassembly.Holds face.policy.maxMessageBytes (reading.read frame).part) :
    Flows record accepted waiting rest heard after := by
  refine ⟨reading.read frame, data, tail, next, messages, ?_, split, ?_, streams.safe,
    streams.ended, ?_, streams.live, streams.early⟩
  · rw [policy]
    exact holds
  · rw [policy]
    exact streams.readable.2
  · rw [policy]
    exact streams.small

theorem isSpeech_of_fits {limit : Nat} {reading : Reading} {frame : ChannelFrame}
    (fits : Reading.Fits limit reading frame) : frame.isSpeech = true := by
  obtain ⟨_, body⟩ := fits
  unfold ChannelFrame.isSpeech
  split at body <;> simp_all

/-- An end of the line reaches an open receiver: no fault, and the record goes. -/
theorem Hears.ends {receiver after : View} {frame : ChannelFrame} {fault : Option String}
    (hears : Hears receiver frame after fault) (ends : frame.isEnd = true)
    (found : receiver.record = some face) (opened : face.state = .opened) :
    fault = none ∧ after.delivered = receiver.delivered ∧ after.record = none := by
  have notOpen := ChannelFrame.isOpen_of_isEnd ends
  have notAck := ChannelFrame.isAck_of_isEnd ends
  have notSpeech := ChannelFrame.isSpeech_of_isEnd ends
  cases hears with
  | deaf shut => exact absurd opened (shut face found)
  | duplicate opening => simp_all
  | refuse opening => simp_all
  | accept opening => simp_all
  | answered ack => simp_all
  | gone => exact ⟨rfl, rfl, rfl⟩
  | data payload body => simp_all [ChannelFrame.isEnd]
  | frag frag body => simp_all [ChannelFrame.isEnd]
  | outOfTurn speech => simp_all
  | bad frag body => simp_all [ChannelFrame.isEnd]

/-- A receiver with a bound handler hears the data at the front of its line
without a fault, and follows on. -/
theorem Streams.hear {receiver after : View} {reading : Reading} {frame : ChannelFrame}
    {rest data tail : List ChannelFrame} {fault : Option String}
    (streams : Streams record accepted waiting (frame :: rest) receiver.delivered face reading
      (frame :: data) tail)
    (split : rest = data ++ tail) (found : receiver.record = some face)
    (opened : face.state = .opened) (bound : face.onData = true)
    (quiet : frame.isOpen = false ∧ frame.isAck = false)
    (hears : Hears receiver frame after fault) :
    fault = none ∧ ∃ own, after.record = some own ∧
      Flows record accepted waiting rest after.delivered own := by
  have fits := streams.readable.1
  have speech := isSpeech_of_fits fits
  have turn : frame.channelSeq = face.rxSeq := fits.1.trans streams.next.symm
  cases hears with
  | deaf shut => exact absurd opened (shut face found)
  | duplicate opening => simp_all
  | refuse opening => simp_all
  | accept opening => simp_all
  | answered ack => simp_all
  | gone _ _ other => simp_all
  | outOfTurn _ other known _ early =>
      rw [found] at known
      cases known
      exact absurd turn early
  | data payload body other known =>
      rw [found] at known
      cases known
      have between : reading.part = none := by
        have second := fits.2
        rwa [body] at second
      have step : reading.read frame =
          ⟨ChannelMux.nextSeq reading.next, reading.messages ++ [payload], none⟩ := by
        rw [Reading.read, body, between]
      refine ⟨rfl, _, rfl, streams.advance split _ _ rfl ?_ ?_ ?_⟩
      · rw [step, streams.next]
      · rw [step, bound, ← streams.messages]
        rfl
      · rw [step, ← between]
        exact streams.holds
  | frag frag body other now known _ _ message pushed =>
      rw [found] at known
      cases known
      have second : Reading.FragFits face.policy.maxMessageBytes reading.part frag := by
        have both := fits.2
        rwa [body] at both
      obtain ⟨outcome, holds⟩ := MessageReassembly.push_spec face.reassembly _ reading.part frag
        now streams.holds second
      rw [pushed] at outcome
      have same := Except.ok.inj outcome
      have step : reading.read frame = reading.readFrag frag := by rw [Reading.read, body]
      refine ⟨rfl, _, rfl, streams.advance split _ _ rfl ?_ ?_ ?_⟩
      · rw [step, streams.next, Reading.readFrag]
        dsimp only
        split_ifs <;> rfl
      · rw [step, bound, if_pos rfl, same, Reading.readFrag, streams.messages]
        dsimp only
        split_ifs
        · rfl
        · exact List.append_nil _
      · rw [step, Reading.readFrag]
        dsimp only
        split_ifs with last
        · rwa [if_pos last] at holds
        · rwa [if_neg last] at holds
  | bad frag body other now known _ _ failed =>
      rw [found] at known
      cases known
      have second : Reading.FragFits face.policy.maxMessageBytes reading.part frag := by
        have both := fits.2
        rwa [body] at both
      have outcome := (MessageReassembly.push_spec face.reassembly _ reading.part frag
        now streams.holds second).1
      rw [failed] at outcome
      cases outcome

end Receiver

end View

end Amp
