import Amp.L1.Ledger

set_option autoImplicit false

/- What each call can do to the numbers a connection has given out, the packets
it tracks and the reliable packets it has taken in. `step_moves` is the one case
analysis of the connection's code; the invariants of runs are read off it. -/
namespace Amp.Adp

/-- The receiving side of the reliable stream. -/
structure Inbox where
  window : ReplayWindow
  next : Nat
  hold : AList (fun _ : Nat => HeldReliable)
  messages : List Message
  recorded : List WirePacket

namespace Inbox

def handOver (id : AssocId) (held : HeldReliable) (inbox : Inbox) : Inbox :=
  { inbox with
    messages := inbox.messages ++ [⟨id, inbox.next, .reliable, held.wasSealed, held.payload⟩]
    hold := inbox.hold.erase inbox.next
    next := (inbox.next + 1) % 2 ^ 32 }

def release (id : AssocId) : Nat → Inbox → Inbox
  | 0, inbox => inbox
  | turns + 1, inbox =>
      match inbox.hold.lookup inbox.next with
      | none => inbox
      | some held => release id turns (inbox.handOver id held)

def record (pkt : WirePacket) (inbox : Inbox) : Inbox :=
  { inbox with
    window := (inbox.window.accept pkt.seq).1
    recorded := inbox.recorded ++ [pkt] }

def holdPacket (pkt : WirePacket) (inbox : Inbox) : Inbox :=
  { inbox with hold := inbox.hold.insert pkt.seq ⟨pkt.type.isSealed, pkt.payload⟩ }

/-- With a handler the packet is held, and what is next in order is handed on. -/
def keep (id : AssocId) (installed : Bool) (pkt : WirePacket) (inbox : Inbox) : Inbox :=
  if installed then
    (inbox.holdPacket pkt).release id (inbox.holdPacket pkt).hold.entries.length
  else inbox

end Inbox

/-- What a connection has numbered, tracks and has taken in. -/
structure Book where
  id : AssocId
  installed : Bool
  txSeqBe : Nat
  txSeqRel : Nat
  takenBe : List Bytes
  taken : List Bytes
  outstanding : List Outstanding
  inbox : Inbox

/-- A reliable packet is recorded and kept. -/
def Book.take (book : Book) (pkt : WirePacket) : Book :=
  { book with inbox := (book.inbox.record pkt).keep book.id book.installed pkt }

theorem Inbox.release_window (id : AssocId) (turns : Nat) : ∀ inbox : Inbox,
    (inbox.release id turns).window = inbox.window := by
  induction turns with
  | zero => intro inbox; rfl
  | succ turns ih =>
      intro inbox
      unfold Inbox.release
      split
      · rfl
      · rw [ih]
        rfl

theorem Book.take_window (book : Book) (pkt : WirePacket) :
    (book.take pkt).inbox.window = (book.inbox.window.accept pkt.seq).1 := by
  unfold Book.take Inbox.keep
  dsimp only
  split
  · rw [Inbox.release_window]
    rfl
  · rfl

namespace Connection

variable {π : Type}

def reliableMessages (c : Connection π) : List Message :=
  c.delivered.filter fun message => message.qos = .reliable

def inbox (c : Connection π) : Inbox where
  window := c.rxRel
  next := c.rxRelNextDeliver
  hold := c.rxRelHold
  messages := c.reliableMessages
  recorded := c.recorded

def book (c : Connection π) : Book where
  id := c.id
  installed := c.onMessage
  txSeqBe := c.txSeqBe
  txSeqRel := c.txSeqRel
  takenBe := c.takenBe
  taken := c.taken
  outstanding := c.outstanding
  inbox := c.inbox

theorem handOver_inbox (c : Connection π) (held : HeldReliable) :
    (c.handOver held).inbox = c.inbox.handOver c.id held := by
  simp only [inbox, handOver, Inbox.handOver, reliableMessages, List.filter_append]
  rfl

theorem deliverHeld_inbox (turns : Nat) : ∀ c : Connection π,
    (deliverHeld turns c).inbox = c.inbox.release c.id turns := by
  induction turns with
  | zero => intro c; rfl
  | succ turns ih =>
      intro c
      have held : c.inbox.hold.lookup c.inbox.next = c.rxRelHold.lookup c.rxRelNextDeliver := rfl
      unfold deliverHeld Inbox.release
      rw [held]
      cases c.rxRelHold.lookup c.rxRelNextDeliver with
      | none => rfl
      | some packet =>
          dsimp only
          rw [ih, handOver_inbox]
          rfl

theorem deliverHeld_rest (turns : Nat) : ∀ c : Connection π,
    (deliverHeld turns c).book = { c.book with inbox := (deliverHeld turns c).inbox } := by
  induction turns with
  | zero => intro c; rfl
  | succ turns ih =>
      intro c
      unfold deliverHeld
      split
      · rfl
      · rw [ih]
        rfl

theorem OnlySends.book {c after : Connection π} (only : OnlySends c after) :
    after.book = c.book := by
  obtain ⟨_, _, _, rfl⟩ := only
  rfl

theorem OnlyNotes.book {c after : Connection π} (only : OnlyNotes c after) :
    after.book = c.book := by
  obtain ⟨_, _, _, rfl⟩ := only
  rfl

theorem OnlyStamps.book {c after : Connection π} (only : OnlyStamps c after) :
    after.book = c.book := by
  obtain ⟨_, _, rfl⟩ := only
  rfl

theorem OnlySamples.book {c after : Connection π} (only : OnlySamples c after) :
    after.book = c.book := by
  obtain ⟨_, _, rfl⟩ := only
  rfl

section Frames

variable [PacketProtection π] [Hmac]

@[simp] theorem sendPacket_book (c : Connection π) (type : PacketType) (seq : Nat)
    (payload : Bytes) (now : Int) (key : Option PeerKey) :
    (c.sendPacket type seq payload now key).1.book = c.book :=
  (sendPacket_only ..).book

omit [PacketProtection π] [Hmac] in
@[simp] theorem setPeerEndpoint_book (c : Connection π) (peer : IpEndpoint) :
    (c.setPeerEndpoint peer).book = c.book :=
  (setPeerEndpoint_only c peer).book

omit [PacketProtection π] [Hmac] in
@[simp] theorem noteTimestamp_book (c : Connection π) (pkt : WirePacket) :
    (c.noteTimestamp pkt).book = c.book :=
  (noteTimestamp_only c pkt).book

omit [PacketProtection π] [Hmac] in
@[simp] theorem noteFresh_book (c : Connection π) (fresh : Bool) (source : IpEndpoint)
    (now : Int) : (c.noteFresh fresh source now).book = c.book :=
  (noteFresh_only c fresh source now).book

@[simp] theorem sendKeepalivePacket_book (c : Connection π) (now : Int)
    (intervalMs flags : Nat) : (c.sendKeepalivePacket now intervalMs flags).1.book = c.book :=
  (sendKeepalivePacket_only ..).book

omit [PacketProtection π] [Hmac] in
@[simp] theorem notePeerKeepalive_book (c : Connection π) (announced : Nat) :
    (c.notePeerKeepalive announced).book = c.book := rfl

@[simp] theorem handleKeepalive_book (c : Connection π) (pkt : WirePacket) (now : Int) :
    (c.handleKeepalive pkt now).book = c.book := by
  unfold handleKeepalive
  split
  · dsimp only
    split
    · rw [sendKeepalivePacket_book, notePeerKeepalive_book]
    · rw [notePeerKeepalive_book]
  · rfl

@[simp] theorem sendAck_book (c : Connection π) (seq : Nat) (wanted : Bool) (now : Int) :
    (c.sendAck seq wanted now).book = c.book :=
  (sendAck_only ..).book

omit [PacketProtection π] [Hmac] in
theorem noteRttSample_book (c : Connection π) (rttMs : Int) :
    (c.noteRttSample rttMs).book = c.book :=
  (noteRttSample_only c rttMs).book

omit [PacketProtection π] [Hmac] in
theorem handleAck_book (c : Connection π) (pkt : WirePacket) (now : Int) :
    (c.handleAck pkt now).book =
      { c.book with outstanding := c.outstanding.filter fun o => o.seq != pkt.seq } := by
  unfold handleAck
  split
  · rename_i o _
    exact congrArg (fun book : Book =>
      { book with outstanding := book.outstanding.filter fun o => o.seq != pkt.seq })
      (noteRttSample_book c (now - o.firstSentMs))
  · rfl

end Frames

/-- A reliable packet the connection takes in if it has room: in time, not plain
once there are keys, and not yet known. -/
structure Takes (c : Connection π) (pkt : WirePacket) (now : Int) : Prop where
  reliable : pkt.type.isReliableData = true
  inTime : c.timely pkt now = true
  wanted : pkt.type.isSealed = true ∨ c.protection = none
  fresh : c.rxRel.classify pkt.seq = .fresh

/-- What one call can do to the book. -/
inductive Moves [PacketProtection π] [Hmac] (c : Connection π) : Event π → Book → Prop
  | idle (event : Event π) : Moves c event c.book
  | handler (installed : Bool) :
      Moves c (.onMessage installed) { c.book with installed := installed }
  | numberedBestEffort (payload : Bytes) (isOpen : c.closed = false)
      (room : c.txSeqBe ≠ kSeqMax) :
      Moves c (.send .bestEffort payload) (c.numberBestEffort payload).book
  | numbered (payload : Bytes) (takes : c.TakesNumber payload) :
      Moves c (.send .reliable payload) (c.numberReliable payload c.endpoint.nowMs).book
  | ticked (now : Int) (isOpen : c.closed = false) :
      Moves c (.tick now) { c.book with
        outstanding := (c.outstanding.map (c.resent now)).dropWhile (c.exhausted now) }
  | acked (source : IpEndpoint) (bytes : Bytes) (now : Int) (pkt : WirePacket)
      (got : c.received bytes now = some pkt) (form : pkt.type = .ack) :
      Moves c (.datagram source bytes now) { c.book with
        outstanding := c.outstanding.filter fun o => o.seq != pkt.seq }
  | ackedPreUpgrade (source : IpEndpoint) (bytes : Bytes) (now : Int) (pkt : WirePacket)
      (got : c.receivedPreUpgrade bytes = some pkt) (form : pkt.type = .ack) :
      Moves c (.datagram source bytes now) { c.book with
        outstanding := c.outstanding.filter fun o => !(o.beforeUpgrade && o.seq == pkt.seq) }
  | took (source : IpEndpoint) (bytes : Bytes) (now : Int) (pkt : WirePacket)
      (got : c.received bytes now = some pkt) (takes : c.Takes pkt now)
      (room : c.hasRoom pkt.seq = true) :
      Moves c (.datagram source bytes now) (c.book.take pkt)

/-- Numbers are only ever added. -/
theorem Moves.taken [PacketProtection π] [Hmac] {c : Connection π} {event : Event π} {book : Book}
    (moves : Moves c event book) : c.taken <+: book.taken := by
  cases moves with
  | numbered payload => exact List.prefix_append c.taken [payload]
  | _ => exact List.prefix_rfl

/-- The inbox changes only by taking in a fresh reliable packet. -/
theorem Moves.inbox [PacketProtection π] [Hmac] {c : Connection π} {event : Event π} {book : Book}
    (moves : Moves c event book) : book.inbox = c.inbox ∨
      ∃ source bytes now pkt, event = .datagram source bytes now ∧
        c.received bytes now = some pkt ∧ c.Takes pkt now ∧ book = c.book.take pkt := by
  cases moves with
  | took source bytes now pkt got takes _ =>
      exact Or.inr ⟨source, bytes, now, pkt, rfl, got, takes, rfl⟩
  | _ => exact Or.inl rfl

section Steps

variable [PacketProtection π] [Hmac]

theorem send_takes_book {c : Connection π} {payload : Bytes} (takes : c.TakesNumber payload) :
    (c.send .reliable payload).1.book = (c.numberReliable payload c.endpoint.nowMs).book := by
  obtain ⟨type, _, same⟩ := send_takes takes
  rw [same, sendPacket_book]

theorem send_moves (c : Connection π) (qos : QosClass) (payload : Bytes) :
    Moves c (.send qos payload) (c.send qos payload).1.book := by
  rcases send_cases c qos payload with same | ⟨isOpen, rfl, room, type, _, same⟩ | ⟨rfl, takes⟩
  · rw [same]
    exact .idle _
  · rw [same, sendPacket_book]
    exact .numberedBestEffort payload isOpen room
  · rw [send_takes_book takes]
    exact .numbered payload takes

theorem tick_moves (c : Connection π) (now : Int) (fit : ∀ o ∈ c.outstanding, o.seq < 2 ^ 32) :
    Moves c (.tick now) (c.tick now).book := by
  unfold tick
  split
  · exact .idle _
  · rename_i isOpen
    obtain ⟨done, packets⟩ := resendAll_spec now c.outstanding c fit
    obtain ⟨calls, sent, unreachable, backoff, stats, state, _⟩ := done.state
    dsimp only
    rw [state, packets]
    exact .ticked now (by simpa using isOpen)

omit [PacketProtection π] [Hmac] in
theorem keepReliable_book (c : Connection π) (pkt : WirePacket) :
    (c.keepReliable pkt true).book =
      { c.book with inbox := c.book.inbox.keep c.book.id c.book.installed pkt } := by
  have view : c.book.installed = c.onMessage := rfl
  unfold keepReliable Inbox.keep deliverReliableInOrder
  rw [view]
  cases installed : c.onMessage with
  | false =>
      simp only [Bool.not_true, Bool.false_eq_true, ↓reduceIte]
  | true =>
      have kept : (c.holdReliable pkt).onMessage = true := installed
      simp only [kept, Bool.not_true, Bool.false_eq_true, ↓reduceIte]
      rw [deliverHeld_rest, deliverHeld_inbox]
      rfl

omit [PacketProtection π] [Hmac] in
theorem keepReliable_skip (c : Connection π) (pkt : WirePacket) :
    c.keepReliable pkt false = c := rfl

/-- A reliable packet past the refusals is known, not kept, or taken. -/
theorem handleAdmitted_reliable (c : Connection π) (pkt : WirePacket) (source : IpEndpoint)
    (now : Int) (form : pkt.type.isReliableData = true) :
    (c.handleAdmitted pkt source now).book = c.book ∨
      (c.rxRel.classify pkt.seq = .fresh ∧ c.hasRoom pkt.seq = true ∧
        (c.handleAdmitted pkt source now).book = c.book.take pkt) := by
  have admitted : c.admitPacket pkt = c.admitReliable pkt := by
    unfold admitPacket
    cases type : pkt.type <;> rw [type] at form <;> first | rfl | exact absurd form (by decide)
  have routed (after : Connection π) (admission : Admission) :
      after.dispatch pkt admission now = after.handleReliable pkt admission now := by
    unfold dispatch
    cases type : pkt.type <;> rw [type] at form <;> first | rfl | exact absurd form (by decide)
  unfold handleAdmitted
  rw [admitted]
  rcases admitReliable_cases c pkt with ⟨_, same⟩ | same | ⟨fresh, room, _, same⟩
  · left
    rw [same]
    dsimp only
    rw [routed, handleReliable, keepReliable_skip, sendAck_book, noteFresh_book,
      noteTimestamp_book]
  · left
    rw [same]
    dsimp only
    rw [routed, handleReliable, keepReliable_skip, sendAck_book, noteFresh_book,
      noteTimestamp_book]
  · refine Or.inr ⟨fresh, room, ?_⟩
    rw [same]
    dsimp only
    rw [routed, handleReliable, keepReliable_book, sendAck_book, noteFresh_book,
      noteTimestamp_book]
    rfl

omit [PacketProtection π] [Hmac] in
theorem deliverBestEffort_book (c : Connection π) (pkt : WirePacket) (freshData : Bool) :
    (c.deliverBestEffort pkt freshData).book = c.book := by
  unfold deliverBestEffort
  split
  · simp [book, inbox, reliableMessages]
  · rfl

/-- Past the refusals, a packet that is neither an ack nor reliable data leaves
the book as it is. -/
theorem handleAdmitted_other (c : Connection π) (pkt : WirePacket) (source : IpEndpoint)
    (now : Int) (notAck : pkt.type ≠ .ack) (notReliable : pkt.type.isReliableData = false) :
    (c.handleAdmitted pkt source now).book = c.book := by
  have quiet : (c.admitPacket pkt).1.book = c.book := by
    unfold admitPacket
    cases type : pkt.type <;> rw [type] at notReliable <;> first
      | rfl
      | exact absurd notReliable (by decide)
  have silent (after : Connection π) (admission : Admission) :
      (after.dispatch pkt admission now).book = after.book := by
    unfold dispatch
    split
    · rename_i type
      exact absurd type notAck
    · unfold handleClose
      split <;> rfl
    · split
      · rfl
      · exact handleKeepalive_book ..
    · exact deliverBestEffort_book ..
    · exact deliverBestEffort_book ..
    · rename_i type
      exact absurd notReliable (by simp [type, PacketType.isReliableData])
    · rename_i type
      exact absurd notReliable (by simp [type, PacketType.isReliableData])
  unfold handleAdmitted
  dsimp only
  rw [silent, noteFresh_book, noteTimestamp_book, quiet]

theorem handleAdmitted_ack (c : Connection π) (pkt : WirePacket) (source : IpEndpoint)
    (now : Int) (form : pkt.type = .ack) :
    (c.handleAdmitted pkt source now).book =
      { c.book with outstanding := c.outstanding.filter fun o => o.seq != pkt.seq } := by
  unfold handleAdmitted admitPacket dispatch
  rw [form]
  dsimp only
  generalize held : (c.noteTimestamp pkt).noteFresh (c.newerTimestamp pkt) source now = noted
  have same : noted.book = c.book := by
    rw [← held, noteFresh_book, noteTimestamp_book]
  have tracked : noted.outstanding = c.outstanding := congrArg Book.outstanding same
  rw [handleAck_book, same, tracked]

/-- Plain data is refused once there are keys; at most an ack comes of it. -/
theorem refusePlainAfterKeys_cases (c : Connection π) (pkt : WirePacket) :
    (∃ after, c.refusePlainAfterKeys pkt = (after, true) ∧ after.book = c.book) ∨
      (c.refusePlainAfterKeys pkt = (c, false) ∧
        (pkt.type.isReliableData = true → pkt.type.isSealed = true ∨ c.protection = none)) := by
  unfold refusePlainAfterKeys
  split
  · rename_i passes
    refine Or.inr ⟨rfl, fun _ => ?_⟩
    rw [Bool.or_eq_true, Option.isNone_iff_eq_none] at passes
    exact passes.symm
  · split
    · exact Or.inl ⟨c, rfl, rfl⟩
    · split
      · exact Or.inl ⟨_, rfl, sendPacket_book ..⟩
      · exact Or.inl ⟨c, rfl, rfl⟩
    · rename_i keyed _ notPlain
      refine Or.inr ⟨rfl, fun reliable => Or.inl ?_⟩
      cases type : pkt.type with
      | dataReliable => rfl
      | plainReliable => exact absurd type notPlain
      | _ => rw [type] at reliable; exact absurd reliable (by decide)

/-- Whatever packet is handled, the book stays, an ack settles packets, or the packet is taken. -/
theorem handleAuthenticated_cases (c : Connection π) (pkt : WirePacket) (source : IpEndpoint)
    (now : Int) : (c.handleAuthenticated pkt source now).book = c.book ∨
      (pkt.type = .ack ∧ (c.handleAuthenticated pkt source now).book =
        { c.book with outstanding := c.outstanding.filter fun o => o.seq != pkt.seq }) ∨
      (c.Takes pkt now ∧ c.hasRoom pkt.seq = true ∧
        (c.handleAuthenticated pkt source now).book = c.book.take pkt) := by
  unfold handleAuthenticated
  split
  · exact .inl rfl
  · rename_i skew
    rcases refusePlainAfterKeys_cases c pkt with ⟨after, refused, same⟩ | ⟨passed, wanted⟩
    · rw [refused]
      exact .inl same
    · rw [passed]
      dsimp only
      by_cases ack : pkt.type = .ack
      · exact .inr (.inl ⟨ack, handleAdmitted_ack c pkt source now ack⟩)
      · cases form : pkt.type.isReliableData with
        | false => exact .inl (handleAdmitted_other c pkt source now ack form)
        | true =>
            rcases handleAdmitted_reliable c pkt source now form with same | ⟨fresh, room, same⟩
            · exact .inl same
            · refine .inr (.inr ⟨⟨form, ?_, wanted form, fresh⟩, room, same⟩)
              unfold timely
              revert skew
              cases pkt.type.isSealed <;> cases c.acceptSkew pkt.timestampMs now <;> simp

theorem handleAuthenticated_moves (c : Connection π) (source : IpEndpoint) (bytes : Bytes)
    (now : Int) (pkt : WirePacket) (got : c.received bytes now = some pkt) :
    Moves c (.datagram source bytes now) (c.handleAuthenticated pkt source now).book := by
  rcases handleAuthenticated_cases c pkt source now with same | ⟨ack, same⟩ | ⟨takes, room, same⟩
  · rw [same]
    exact .idle _
  · rw [same]
    exact .acked source bytes now pkt got ack
  · rw [same]
    exact .took source bytes now pkt got takes room

theorem handlePreUpgradeKeyPacket_moves (c : Connection π) (source : IpEndpoint) (bytes : Bytes)
    (now : Int) (pkt : WirePacket) (got : c.receivedPreUpgrade bytes = some pkt) :
    Moves c (.datagram source bytes now) (c.handlePreUpgradeKeyPacket pkt now).book := by
  unfold handlePreUpgradeKeyPacket
  split
  · exact .idle _
  · split
    · rename_i form
      exact .ackedPreUpgrade source bytes now pkt got form
    · split
      · rw [sendPacket_book]
        exact .idle _
      · exact .idle _
    · exact .idle _

/-- Every call moves the book in one of the ways of `Moves`. -/
theorem step_moves {zero : Prop} {c : Connection π} (sound : c.ledger.Sound zero) (event : Event π) :
    Moves c event (c.step event).book := by
  cases event with
  | send qos payload => exact send_moves c qos payload
  | tick now =>
      exact tick_moves c now fun o member => sound.taken_lt (sound.tracked o member).payload
  | datagram source bytes now =>
      simp only [step]
      rw [handleDatagram_eq]
      split
      · rename_i pkt got
        exact handleAuthenticated_moves c source bytes now pkt got
      · rename_i pkt _ got
        exact handlePreUpgradeKeyPacket_moves c source bytes now pkt got
      · exact .idle _
  | versionNegotiation versions =>
      simp only [step, handleVersionNegotiation]
      split <;> exact .idle _
  | setPeerEndpoint peer =>
      simp only [step, setPeerEndpoint_book]
      exact .idle _
  | onMessage installed => exact .handler installed
  | sendKeepalive now intervalMs =>
      simp only [step, sendKeepalive, sendKeepalivePacket_book]
      exact .idle _
  | stopKeepalive now =>
      simp only [step, stopKeepalive]
      split
      · exact .idle _
      · rw [sendKeepalivePacket_book]
        exact .idle _
  | sendProbe now =>
      simp only [step, sendProbe, sendKeepalivePacket_book]
      exact .idle _
  | close =>
      simp only [step, close]
      split
      · exact .idle _
      · have same := sendPacket_book c .close 0 [] c.endpoint.nowMs none
        have kept := Moves.idle (c := c) .close
        rw [← same] at kept
        exact kept
  | abandon =>
      simp only [step, abandon]
      split <;> exact .idle _
  | upgradeBinder key => exact .idle _
  | setProtection protection => exact .idle _
  | onPathChange installed => exact .idle _
  | environment port => exact .idle _

theorem step_inbox {zero : Prop} {c : Connection π} (sound : c.ledger.Sound zero)
    (event : Event π) : (c.step event).inbox = c.inbox ∨
      ∃ source bytes now pkt, event = .datagram source bytes now ∧
        c.received bytes now = some pkt ∧ c.Takes pkt now ∧
        (c.step event).inbox = (c.book.take pkt).inbox := by
  rcases (step_moves sound event).inbox with same |
    ⟨source, bytes, now, pkt, brings, got, takes, same⟩
  · exact Or.inl same
  · exact Or.inr ⟨source, bytes, now, pkt, brings, got, takes, congrArg Book.inbox same⟩

theorem step_taken {zero : Prop} {c : Connection π} (sound : c.ledger.Sound zero)
    (event : Event π) : c.taken <+: (c.step event).taken :=
  (step_moves sound event).taken

/-- The reliable window changes only by accepting a fresh number. -/
theorem step_window {zero : Prop} {c : Connection π} (sound : c.ledger.Sound zero)
    (event : Event π) : (c.step event).rxRel = c.rxRel ∨
      ∃ source bytes now pkt, event = .datagram source bytes now ∧
        c.received bytes now = some pkt ∧ c.Takes pkt now ∧
        (c.step event).rxRel = (c.rxRel.accept pkt.seq).1 := by
  rcases step_inbox sound event with same | ⟨source, bytes, now, pkt, brings, got, takes, same⟩
  · exact Or.inl (congrArg Inbox.window same)
  · refine Or.inr ⟨source, bytes, now, pkt, brings, got, takes, ?_⟩
    exact (congrArg Inbox.window same).trans (Book.take_window c.book pkt)

theorem step_accepted {zero : Prop} {c : Connection π} (sound : c.ledger.Sound zero)
    (event : Event π) {seq : Nat} (accepted : c.rxRel.Accepted seq) :
    (c.step event).rxRel.Accepted seq := by
  rcases step_window sound event with same | ⟨_, _, _, pkt, _, _, _, same⟩
  · rwa [same]
  · rw [same]
    exact accepted.accept sound.strict pkt.seq

end Steps

end Connection

end Amp.Adp
