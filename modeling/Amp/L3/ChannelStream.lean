import Amp.L3.ChannelMux

set_option autoImplicit false

/- One channel's data frames as a stream: what has been read of it, which frame
may come next, and that the receiving record follows. -/
namespace Amp

open Adp (Bytes)

/-- A message of which some fragments have come, in order. -/
structure Assembly where
  msgId : Nat
  count : Nat
  total : Nat
  got : List Bytes

/-- What a reader of the stream has taken in. -/
structure Reading where
  next : UInt32
  messages : List Bytes
  part : Option Assembly

namespace Reading

def got (part : Option Assembly) : List Bytes :=
  match part with
  | none => []
  | some assembly => assembly.got

def readFrag (reading : Reading) (frag : ChannelFragBody) : Reading :=
  let chunks := got reading.part ++ [frag.chunk]
  if chunks.length = frag.fragCount then
    ⟨ChannelMux.nextSeq reading.next, reading.messages ++ [chunks.flatten], none⟩
  else
    ⟨ChannelMux.nextSeq reading.next, reading.messages,
      some ⟨frag.msgId, frag.fragCount, frag.totalLen, chunks⟩⟩

def read (reading : Reading) (frame : ChannelFrame) : Reading :=
  match frame.body with
  | .data payload =>
      ⟨ChannelMux.nextSeq reading.next, reading.messages ++ [payload], reading.part⟩
  | .frag frag => reading.readFrag frag
  | _ => reading

/-- The fragment that comes next: of the message in hand, or the first of a new one. -/
structure FragFits (limit : Nat) (part : Option Assembly) (frag : ChannelFragBody) : Prop where
  index : frag.fragIndex = (got part).length
  inside : frag.fragIndex < frag.fragCount
  counted : frag.fragCount ≤ frag.totalLen
  allowed : frag.totalLen ≤ limit
  chunk : frag.chunk ≠ []
  length : (got part ++ [frag.chunk]).flatten.length ≤ frag.totalLen
  last : (got part).length + 1 = frag.fragCount →
    (got part ++ [frag.chunk]).flatten.length = frag.totalLen
  same : ∀ assembly, part = some assembly → frag.msgId = assembly.msgId ∧
    frag.fragCount = assembly.count ∧ frag.totalLen = assembly.total

/-- A frame the reader can take next. -/
def Fits (limit : Nat) (reading : Reading) (frame : ChannelFrame) : Prop :=
  frame.channelSeq = reading.next ∧
    match frame.body with
    | .data _ => reading.part = none
    | .frag frag => FragFits limit reading.part frag
    | _ => False

def Readable (limit : Nat) : Reading → List ChannelFrame → Prop
  | _, [] => True
  | reading, frame :: rest => Fits limit reading frame ∧ Readable limit (reading.read frame) rest

theorem readable_append (limit : Nat) (first second : List ChannelFrame) :
    ∀ reading, Readable limit reading (first ++ second) ↔
      Readable limit reading first ∧ Readable limit (first.foldl read reading) second := by
  induction first with
  | nil => intro reading; simp [Readable]
  | cons frame rest ih =>
      intro reading
      simp only [List.cons_append, Readable, ih, List.foldl_cons, and_assoc]

theorem read_messages (reading : Reading) (frame : ChannelFrame) :
    reading.messages <+: (reading.read frame).messages := by
  unfold read
  split
  · exact List.prefix_append ..
  · unfold readFrag
    dsimp only
    split
    · exact List.prefix_append ..
    · exact List.prefix_refl _
  · exact List.prefix_refl _

theorem foldl_messages (frames : List ChannelFrame) : ∀ reading : Reading,
    reading.messages <+: (frames.foldl read reading).messages := by
  induction frames with
  | nil => intro reading; exact List.prefix_refl _
  | cons frame rest ih =>
      intro reading
      exact (read_messages reading frame).trans (ih (reading.read frame))

end Reading

namespace MessageReassembly

/-- The partial of an assembly: its chunks, and blanks for those to come. -/
def shape (assembly : Assembly) (started : Int) : Partial where
  fragCount := assembly.count
  totalLen := assembly.total
  chunks := assembly.got ++ List.replicate (assembly.count - assembly.got.length) []
  receivedBytes := assembly.got.flatten.length
  startedMs := started

/-- The reassembly holds the message in hand and nothing else. -/
structure Holds (this : MessageReassembly) (limit : Nat) (part : Option Assembly) : Prop where
  limit : this.maxMessageBytes = limit
  room : 0 < this.maxPartials
  empty : part = none → this.partials.entries = []
  one : ∀ assembly, part = some assembly → assembly.got.length < assembly.count ∧
    (∀ chunk ∈ assembly.got, chunk ≠ []) ∧
    ∃ started, this.partials.entries = [⟨assembly.msgId, shape assembly started⟩]

theorem put_single (this : MessageReassembly) (msgId : Nat) (before after : Partial)
    (single : this.partials.entries = [⟨msgId, before⟩]) :
    (this.put msgId after).partials.entries = [⟨msgId, after⟩] := by
  simp [put, AList.insert, single, List.kinsert, List.kerase]

theorem drop_single (this : MessageReassembly) (msgId : Nat) (before : Partial)
    (single : this.partials.entries = [⟨msgId, before⟩]) :
    (this.drop msgId).partials.entries = [] := by
  have erased : (this.drop msgId).partials.entries = this.partials.entries.kerase msgId := rfl
  simp [erased, single, List.kerase]

theorem put_empty (this : MessageReassembly) (msgId : Nat) (after : Partial)
    (empty : this.partials.entries = []) :
    (this.put msgId after).partials.entries = [⟨msgId, after⟩] := by
  simp [put, AList.insert, empty, List.kinsert, List.kerase]

/-- The next blank takes the chunk. -/
theorem shape_set (assembly : Assembly) (started : Int) (chunk : Bytes)
    (inside : assembly.got.length < assembly.count) :
    (shape assembly started).chunks.set assembly.got.length chunk =
      (assembly.got ++ [chunk]) ++
        List.replicate (assembly.count - (assembly.got ++ [chunk]).length) [] := by
  have blank : assembly.count - assembly.got.length =
      (assembly.count - (assembly.got ++ [chunk]).length) + 1 := by
    rw [List.length_append, List.length_singleton]
    omega
  simp only [shape]
  rw [blank, List.replicate_succ, List.set_append_right _ _ (Nat.le_refl _), Nat.sub_self,
    List.set_cons_zero, List.append_assoc, List.singleton_append]

theorem shape_blank (assembly : Assembly) (started : Int)
    (inside : assembly.got.length < assembly.count) :
    (shape assembly started).chunks[assembly.got.length]? = some [] := by
  simp only [shape]
  rw [List.getElem?_append_right (Nat.le_refl _), Nat.sub_self, List.getElem?_replicate]
  rw [if_pos (by omega)]

/-- The chunk is the last one exactly when no blank is left. -/
theorem any_blank (chunks : List Bytes) (left : Nat) (full : ∀ chunk ∈ chunks, chunk ≠ []) :
    (chunks ++ List.replicate left []).any List.isEmpty = decide (0 < left) := by
  have none_blank : chunks.any List.isEmpty = false := by
    rw [List.any_eq_false]
    intro chunk member
    simpa using full chunk member
  rw [List.any_append, none_blank, Bool.false_or]
  cases left with
  | zero => rfl
  | succ left => simp

/-- Taking the chunk that comes next. -/
theorem fill_spec (this : MessageReassembly) (limit : Nat) (assembly : Assembly) (started : Int)
    (frag : ChannelFragBody) (fits : Reading.FragFits limit (some assembly) frag)
    (bound : this.maxMessageBytes = limit) (room : 0 < this.maxPartials)
    (full : ∀ chunk ∈ assembly.got, chunk ≠ [])
    (single : this.partials.entries = [⟨assembly.msgId, shape assembly started⟩]) :
    let chunks := assembly.got ++ [frag.chunk]
    (this.fill frag (shape assembly started)).2 =
        .ok (if chunks.length = frag.fragCount then some chunks.flatten else none) ∧
      Holds (this.fill frag (shape assembly started)).1 limit
        (if chunks.length = frag.fragCount then none
          else some ⟨frag.msgId, frag.fragCount, frag.totalLen, chunks⟩) := by
  intro chunks
  obtain ⟨msgId, count, total⟩ := fits.same assembly rfl
  have index : frag.fragIndex = assembly.got.length := fits.index
  have inside : assembly.got.length < assembly.count := by
    have below := fits.inside
    omega
  have size : chunks.length = assembly.got.length + 1 := by
    rw [List.length_append, List.length_singleton]
  have chunksFull : ∀ chunk ∈ chunks, chunk ≠ [] := by
    intro chunk member
    rcases List.mem_append.mp member with old | new
    · exact full chunk old
    · rw [List.mem_singleton.mp new]
      exact fits.chunk
  have length : chunks.flatten.length = assembly.got.flatten.length + frag.chunk.length := by
    rw [List.flatten_append, List.length_append, List.flatten_singleton]
  have within : chunks.flatten.length ≤ assembly.total := total ▸ fits.length
  have metadata : ¬ ((shape assembly started).fragCount ≠ frag.fragCount ∨
      (shape assembly started).totalLen ≠ frag.totalLen) := by
    simp only [shape, count, total]
    tauto
  have blank : ¬ (shape assembly started).chunks[frag.fragIndex]? ≠ some [] := by
    rw [index, shape_blank assembly started inside]
    tauto
  have short : ¬ (shape assembly started).totalLen <
      (shape assembly started).receivedBytes + frag.chunk.length := by
    simp only [shape]
    omega
  unfold fill
  rw [if_neg metadata, if_neg blank, if_neg short]
  simp only [index, shape_set assembly started frag.chunk inside,
    any_blank (assembly.got ++ [frag.chunk]) _ chunksFull]
  by_cases last : chunks.length = frag.fragCount
  · have done : assembly.count - (assembly.got ++ [frag.chunk]).length = 0 := by
      have same : (assembly.got ++ [frag.chunk]).length = chunks.length := rfl
      omega
    have complete : chunks.flatten.length = assembly.total := by
      rw [← total]
      exact fits.last (by rw [← last, size]; rfl)
    have finished : ¬ chunks.flatten.length ≠ (shape assembly started).totalLen := by
      simp only [shape, complete]
      tauto
    simp only [done, List.replicate_zero, List.append_nil, Nat.lt_irrefl, decide_false,
      Bool.false_eq_true, ↓reduceIte]
    rw [if_neg finished, if_pos last, if_pos last]
    refine ⟨rfl, ⟨bound, room, fun _ => ?_, nofun⟩⟩
    rw [msgId]
    exact drop_single _ _ _ (put_single this _ _ _ single)
  · have left : 0 < assembly.count - (assembly.got ++ [frag.chunk]).length := by
      have same : (assembly.got ++ [frag.chunk]).length = chunks.length := rfl
      omega
    simp only [left, decide_true, ↓reduceIte]
    rw [if_neg last, if_neg last]
    refine ⟨rfl, ⟨bound, room, nofun, fun other same => ?_⟩⟩
    cases same
    refine ⟨?_, chunksFull, started, ?_⟩
    · dsimp only
      omega
    · rw [msgId, put_single this _ _ _ single]
      simp only [shape, count, total, length]
      rfl

/-- `Push` of the fragment that comes next. -/
theorem push_spec (this : MessageReassembly) (limit : Nat) (part : Option Assembly)
    (frag : ChannelFragBody) (now : Int) (holds : Holds this limit part)
    (fits : Reading.FragFits limit part frag) :
    let chunks := Reading.got part ++ [frag.chunk]
    (this.push frag now).2 =
        .ok (if chunks.length = frag.fragCount then some chunks.flatten else none) ∧
      Holds (this.push frag now).1 limit
        (if chunks.length = frag.fragCount then none
          else some ⟨frag.msgId, frag.fragCount, frag.totalLen, chunks⟩) := by
  have inside := fits.inside
  have indices : ¬ (frag.fragCount = 0 ∨ frag.fragCount ≤ frag.fragIndex) := by omega
  have allowed : ¬ this.maxMessageBytes < frag.totalLen := by
    rw [holds.limit]
    exact Nat.not_lt.mpr fits.allowed
  have counted : ¬ frag.totalLen < frag.fragCount := Nat.not_lt.mpr fits.counted
  unfold push
  rw [if_neg indices, if_neg allowed, if_neg counted]
  cases part with
  | none =>
      have empty := holds.empty rfl
      have absent : this.partials.lookup frag.msgId = none := by
        simp [AList.lookup, empty]
      have roomy : ¬ this.maxPartials ≤ this.partials.entries.length := by
        rw [empty, List.length_nil]
        exact Nat.not_le.mpr holds.room
      have refused : ¬ (this.maxPartials ≤ this.partials.entries.length ∧ this.lossy = false) :=
        fun both => roomy both.1
      rw [absent]
      dsimp only
      rw [if_neg refused, if_neg roomy]
      have begins : begun frag now =
          shape ⟨frag.msgId, frag.fragCount, frag.totalLen, []⟩ now := by
        simp [begun, shape]
      have opening : Reading.FragFits limit
          (some ⟨frag.msgId, frag.fragCount, frag.totalLen, []⟩) frag :=
        ⟨fits.index, inside, fits.counted, fits.allowed, fits.chunk, fits.length, fits.last,
          fun assembly same => by cases same; exact ⟨rfl, rfl, rfl⟩⟩
      rw [begins]
      exact fill_spec _ limit ⟨frag.msgId, frag.fragCount, frag.totalLen, []⟩ now frag opening
        holds.limit holds.room (fun _ absent => absurd absent List.not_mem_nil)
        (put_empty this _ _ empty)
  | some assembly =>
      obtain ⟨_, full, started, single⟩ := holds.one assembly rfl
      have found : this.partials.lookup frag.msgId = some (shape assembly started) := by
        rw [(fits.same assembly rfl).1]
        simp [AList.lookup, single]
      rw [found]
      exact fill_spec this limit assembly started frag fits holds.limit holds.room full single

end MessageReassembly

namespace ChannelMux

/-- The frames of a fragmented message from one of its chunks on. -/
def fragFrames (id : UInt32) (msgId count total : Nat) :
    Nat → UInt32 → List Bytes → List ChannelFrame
  | _, _, [] => []
  | index, seq, chunk :: rest =>
      ⟨id, seq, .frag ⟨msgId, index, count, total, chunk⟩⟩ ::
        fragFrames id msgId count total (index + 1) (nextSeq seq) rest

def seqAfter : Nat → UInt32 → UInt32
  | 0, seq => seq
  | count + 1, seq => seqAfter count (nextSeq seq)

theorem chunksOf_length (size count : Nat) (payload : Bytes) :
    (chunksOf size count payload).length = count := by
  induction count generalizing payload with
  | zero => rfl
  | succ count ih => rw [chunksOf, List.length_cons, ih]

/-- Enough pieces hold the whole payload, and none of them is blank. -/
theorem chunksOf_spec (size : Nat) (positive : 0 < size) (count : Nat) : ∀ payload : Bytes,
    count * size < payload.length + size → payload.length ≤ count * size →
    (chunksOf size count payload).flatten = payload ∧
      ∀ chunk ∈ chunksOf size count payload, chunk ≠ [] := by
  induction count with
  | zero =>
      intro payload _ enough
      have blank : payload = [] := List.eq_nil_of_length_eq_zero (by omega)
      rw [blank]
      exact ⟨rfl, fun _ absent => absurd absent List.not_mem_nil⟩
  | succ count ih =>
      intro payload tight enough
      rw [Nat.succ_mul] at tight enough
      have dropped : (payload.drop size).length = payload.length - size := List.length_drop ..
      rw [chunksOf]
      by_cases more : count = 0
      · subst more
        have nonempty : payload.take size ≠ [] := by
          intro blank
          have length := congrArg List.length blank
          rw [List.length_take, List.length_nil] at length
          omega
        have whole : payload.take size = payload := List.take_of_length_le (by omega)
        rw [chunksOf, List.flatten_singleton]
        refine ⟨whole, fun chunk member => ?_⟩
        rw [List.mem_singleton.mp member]
        exact nonempty
      · have above : size ≤ count * size := Nat.le_mul_of_pos_left size (Nat.pos_of_ne_zero more)
        obtain ⟨rejoined, full⟩ := ih (payload.drop size) (by omega) (by omega)
        refine ⟨?_, fun chunk member => ?_⟩
        · rw [List.flatten_cons, rejoined, List.take_append_drop]
        · rcases List.mem_cons.mp member with first | later
          · rw [first]
            intro blank
            have length := congrArg List.length blank
            rw [List.length_take, List.length_nil] at length
            omega
          · exact full chunk later

theorem length_le_flatten (chunks : List Bytes) (full : ∀ chunk ∈ chunks, chunk ≠ []) :
    chunks.length ≤ chunks.flatten.length := by
  induction chunks with
  | nil => exact Nat.le_refl _
  | cons chunk rest ih =>
      have tail := ih fun other member => full other (List.mem_cons_of_mem _ member)
      have head := List.length_pos_iff.mpr (full chunk (List.mem_cons_self ..))
      rw [List.length_cons, List.flatten_cons, List.length_append]
      omega

open Reading (Readable Fits FragFits got)

/-- A reader that has the first chunks reads the rest, and then has the message. -/
theorem fragFrames_read (limit : Nat) (id : UInt32) (msgId count total : Nat) (messages : List Bytes)
    (allowed : total ≤ limit) (rest : List Bytes) : ∀ (done : List Bytes) (seq : UInt32)
    (part : Option Assembly), rest ≠ [] → got part = done →
    (∀ assembly, part = some assembly → assembly = ⟨msgId, count, total, done⟩) →
    (∀ chunk ∈ rest, chunk ≠ []) → (done ++ rest).length = count → count ≤ total →
    (done ++ rest).flatten.length = total →
    Readable limit ⟨seq, messages, part⟩ (fragFrames id msgId count total done.length seq rest) ∧
      (fragFrames id msgId count total done.length seq rest).foldl Reading.read ⟨seq, messages, part⟩ =
        ⟨seqAfter rest.length seq, messages ++ [(done ++ rest).flatten], none⟩ := by
  induction rest with
  | nil => intro _ _ _ some_left; exact absurd rfl some_left
  | cons chunk rest ih =>
      intro done seq part _ inHand named full length counted size
      have grown : (done ++ [chunk]).length = done.length + 1 := by
        rw [List.length_append, List.length_singleton]
      have split : done ++ chunk :: rest = (done ++ [chunk]) ++ rest := by
        rw [List.append_assoc, List.singleton_append]
      have total_length : (done ++ [chunk]).flatten.length + rest.flatten.length = total := by
        rw [← size, split]
        simp only [List.flatten_append, List.length_append]
      have count_length : done.length + 1 + rest.length = count := by
        rw [← length, split, List.length_append, grown]
      have fits : FragFits limit part ⟨msgId, done.length, count, total, chunk⟩ := by
        refine ⟨?_, ?_, counted, allowed, full chunk (List.mem_cons_self ..), ?_, ?_, ?_⟩
        · dsimp only
          rw [inHand]
        · dsimp only
          omega
        · dsimp only
          rw [inHand]
          omega
        · dsimp only
          rw [inHand]
          intro last
          have none_left : rest = [] := List.eq_nil_of_length_eq_zero (by omega)
          rw [none_left, List.flatten_nil, List.length_nil] at total_length
          omega
        · intro assembly same
          rw [named assembly same]
          exact ⟨rfl, rfl, rfl⟩
      simp only [fragFrames, Readable, List.foldl_cons]
      by_cases last : rest = []
      · subst last
        have complete : (done ++ [chunk]).length = count := by
          rw [← count_length, grown]
          rfl
        have step : Reading.read ⟨seq, messages, part⟩
            ⟨id, seq, .frag ⟨msgId, done.length, count, total, chunk⟩⟩ =
            ⟨nextSeq seq, messages ++ [(done ++ [chunk]).flatten], none⟩ := by
          simp only [Reading.read, Reading.readFrag, inHand, complete, ↓reduceIte]
        rw [step]
        exact ⟨⟨⟨rfl, fits⟩, trivial⟩, rfl⟩
      · have unfinished : (done ++ [chunk]).length ≠ count := by
          have some_left := List.length_pos_iff.mpr last
          omega
        have step : Reading.read ⟨seq, messages, part⟩
            ⟨id, seq, .frag ⟨msgId, done.length, count, total, chunk⟩⟩ =
            ⟨nextSeq seq, messages, some ⟨msgId, count, total, done ++ [chunk]⟩⟩ := by
          simp only [Reading.read, Reading.readFrag, inHand, unfinished, ↓reduceIte]
        rw [step]
        obtain ⟨readable, final⟩ := ih (done ++ [chunk]) (nextSeq seq)
          (some ⟨msgId, count, total, done ++ [chunk]⟩) last rfl
          (fun assembly same => (Option.some.inj same).symm)
          (fun other member => full other (List.mem_cons_of_mem _ member))
          (by rw [← split]; exact length) counted (by rw [← split]; exact size)
        rw [grown] at readable final
        rw [split]
        exact ⟨⟨⟨rfl, fits⟩, readable⟩, final⟩

end ChannelMux

end Amp
