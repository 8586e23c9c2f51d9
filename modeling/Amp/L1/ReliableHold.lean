import Amp.L1.Sample
import Amp.L1.Timing
import Amp.Lib.Run

set_option autoImplicit false

/- The receiving side of the reliable stream keeps what it has taken in two places, the window and
the hold; they stay in step while there is a handler. -/
namespace Amp.Adp

namespace ReplayWindow

theorem accept_next {window : ReplayWindow} {seq : Nat} (next : seq = window.lastContiguous + 1) :
    (window.accept seq).1 = absorb window.pending.card { window with lastContiguous := seq } := by
  have past : ¬seq ≤ window.lastContiguous := by omega
  unfold accept
  rw [if_neg (by omega), if_neg past, if_pos next]

/-- A fresh number past the next one is left pending. -/
theorem accept_ahead {window : ReplayWindow} {seq : Nat} (strict : window.slideOnGap = false)
    (fresh : window.classify seq = .fresh) (ahead : seq ≠ window.lastContiguous + 1) :
    (window.accept seq).1 = { window with pending := insert seq window.pending } := by
  unfold classify at fresh
  by_cases known : seq = 0 ∨ seq ≤ window.lastContiguous ∨ seq ∈ window.pending
  · rw [if_pos known] at fresh
    cases fresh
  · rw [if_neg known] at fresh
    by_cases far : window.edge < seq ∧ window.slideOnGap = false
    · rw [if_pos far] at fresh
      cases fresh
    · simp only [not_or] at known
      have near : ¬window.edge < seq := fun beyond => far ⟨beyond, strict⟩
      unfold accept
      rw [if_neg known.1, if_neg known.2.1, if_neg ahead, if_neg near, if_neg known.2.2]

end ReplayWindow

namespace Inbox

/-- The hold has the packets of the window's pending numbers, and the next one out is the next
after those taken. -/
structure Coupled (window : ReplayWindow) (next : Nat)
    (hold : AList (fun _ : Nat => HeldReliable)) : Prop where
  next : next = window.lastContiguous + 1
  held : ∀ seq, seq ∈ hold ↔ seq ∈ window.pending
  small : ∀ seq, window.Accepted seq → seq + 1 < 2 ^ 32

theorem Coupled.keys {window : ReplayWindow} {next : Nat} {hold : AList (fun _ : Nat => HeldReliable)}
    (coupled : Coupled window next hold) : hold.keys.toFinset = window.pending := by
  ext seq
  rw [List.mem_toFinset]
  exact (AList.mem_keys).symm.trans (coupled.held seq)

theorem Coupled.size {window : ReplayWindow} {next : Nat} {hold : AList (fun _ : Nat => HeldReliable)}
    (coupled : Coupled window next hold) : hold.entries.length = window.pending.card := by
  rw [← coupled.keys, List.toFinset_card_of_nodup hold.keys_nodup]
  exact (List.length_map _).symm

theorem release_due {id : AssocId} {turns : Nat} {inbox : Inbox} {packet : HeldReliable}
    (found : inbox.hold.lookup inbox.next = some packet) :
    inbox.release id (turns + 1) = (inbox.handOver id packet).release id turns := by
  simp only [Inbox.release, found]

theorem release_none {id : AssocId} {turns : Nat} {inbox : Inbox}
    (found : inbox.hold.lookup inbox.next = none) : inbox.release id (turns + 1) = inbox := by
  simp only [Inbox.release, found]

/-- The hold gives out what the window takes off its pending numbers, one for one. -/
theorem Coupled.release (id : AssocId) (turns : Nat) : ∀ {inbox : Inbox} {window : ReplayWindow},
    Coupled window inbox.next inbox.hold →
    Coupled (window.absorb turns) (inbox.release id turns).next (inbox.release id turns).hold := by
  induction turns with
  | zero => exact fun coupled => coupled
  | succ turns ih =>
      intro inbox window coupled
      have due : (inbox.hold.lookup inbox.next).isSome ↔ window.lastContiguous + 1 ∈ window.pending := by
        rw [AList.lookup_isSome, coupled.held, coupled.next]
      unfold ReplayWindow.absorb
      cases found : inbox.hold.lookup inbox.next with
      | none =>
          rw [found] at due
          rw [release_none found, if_neg fun taken => Bool.false_ne_true (due.mpr taken)]
          exact coupled
      | some packet =>
          rw [found] at due
          rw [release_due found]
          have pending : window.lastContiguous + 1 ∈ window.pending := due.mp rfl
          rw [if_pos pending]
          apply ih
          have room := coupled.small _ (.inr pending)
          constructor
          · show (inbox.next + 1) % 2 ^ 32 = window.lastContiguous + 1 + 1
            rw [coupled.next]
            exact Nat.mod_eq_of_lt room
          · intro seq
            show seq ∈ inbox.hold.erase inbox.next ↔ _
            rw [AList.mem_erase, coupled.held, Finset.mem_erase, coupled.next]
          · rintro seq (low | kept)
            · have low : seq ≤ window.lastContiguous + 1 := low
              rcases Nat.lt_or_eq_of_le low with below | last
              · exact coupled.small seq (.inl (by omega))
              · rw [last]
                exact room
            · exact coupled.small seq (.inr (Finset.mem_of_mem_erase kept))

/-- What is next in line is not held. -/
structure Settled (inbox : Inbox) : Prop where
  coupled : Coupled inbox.window inbox.next inbox.hold
  strict : inbox.window.slideOnGap = false
  tight : inbox.window.Tight

/-- A packet that is taken keeps the two in step, and the hold within its bound. -/
theorem Settled.take {book : Book} {cap : Nat} {pkt : WirePacket} (settled : book.inbox.Settled)
    (bounded : book.inbox.hold.entries.length ≤ cap) (installed : book.installed = true)
    (fresh : book.inbox.window.classify pkt.seq = .fresh)
    (room : book.inbox.hold.entries.length < cap ∨ pkt.seq = book.inbox.next)
    (fits : pkt.seq + 1 < 2 ^ 32) :
    (book.take pkt).inbox.Settled ∧ (book.take pkt).inbox.hold.entries.length ≤ cap := by
  obtain ⟨coupled, strict, tight⟩ := settled
  have unknown : ¬(pkt.seq = 0 ∨ book.inbox.window.Accepted pkt.seq) := by
    rw [← ReplayWindow.classify_duplicate, fresh]
    decide
  rw [not_or] at unknown
  have unheld : pkt.seq ∉ book.inbox.hold := by
    rw [coupled.held]
    exact fun pending => unknown.2 (.inr pending)
  have window := Book.take_window book pkt
  have stillStrict : (book.take pkt).inbox.window.slideOnGap = false := by
    rw [window, ReplayWindow.accept_slideOnGap]
    exact strict
  have stillTight : (book.take pkt).inbox.window.Tight := by
    rw [window]
    exact tight.accept pkt.seq
  have released : (book.take pkt).inbox = ((book.inbox.record pkt).holdPacket pkt).release book.id
      ((book.inbox.record pkt).holdPacket pkt).hold.entries.length := by
    unfold Book.take keep
    dsimp only
    rw [if_pos installed]
  have held : ((book.inbox.record pkt).holdPacket pkt).hold =
      book.inbox.hold.insert pkt.seq ⟨pkt.type.isSealed, pkt.payload⟩ := rfl
  have longer : ((book.inbox.record pkt).holdPacket pkt).hold.entries.length =
      book.inbox.window.pending.card + 1 := by
    rw [held, AList.entries_insert_of_notMem unheld, List.length_cons, coupled.size]
  rw [longer] at released
  by_cases next : pkt.seq = book.inbox.window.lastContiguous + 1
  · -- the packet goes out first, then whatever it was waited for with
    have accepted := ReplayWindow.accept_next next
    have first : ((book.inbox.record pkt).holdPacket pkt).hold.lookup book.inbox.next =
        some ⟨pkt.type.isSealed, pkt.payload⟩ := by
      rw [held, coupled.next, ← next]
      exact AList.lookup_insert _
    have rest : (book.take pkt).inbox = (((book.inbox.record pkt).holdPacket pkt).handOver book.id
        ⟨pkt.type.isSealed, pkt.payload⟩).release book.id book.inbox.window.pending.card := by
      rw [released]
      exact release_due first
    have handed : Coupled { book.inbox.window with lastContiguous := pkt.seq }
        (((book.inbox.record pkt).holdPacket pkt).handOver book.id
          ⟨pkt.type.isSealed, pkt.payload⟩).next
        (((book.inbox.record pkt).holdPacket pkt).handOver book.id
          ⟨pkt.type.isSealed, pkt.payload⟩).hold := by
      constructor
      · show (book.inbox.next + 1) % 2 ^ 32 = pkt.seq + 1
        rw [coupled.next, ← next]
        exact Nat.mod_eq_of_lt fits
      · intro seq
        show seq ∈ (book.inbox.hold.insert pkt.seq _).erase book.inbox.next ↔ _
        rw [AList.mem_erase, AList.mem_insert, coupled.held, coupled.next, ← next]
        constructor
        · rintro ⟨apart, same | old⟩
          · exact absurd same apart
          · exact old
        · intro old
          refine ⟨?_, .inr old⟩
          rintro rfl
          exact unknown.2 (.inr old)
      · rintro seq (low | old)
        · have low : seq ≤ pkt.seq := low
          omega
        · exact coupled.small seq (.inr old)
    have done := handed.release book.id book.inbox.window.pending.card
    rw [← accepted, ← window, ← rest] at done
    refine ⟨⟨done, stillStrict, stillTight⟩, ?_⟩
    have fewer : (book.take pkt).inbox.window.pending ⊆ book.inbox.window.pending := by
      rw [window, accepted]
      exact ReplayWindow.absorb_pending _ _
    rw [done.size]
    rw [coupled.size] at bounded
    exact Nat.le_trans (Finset.card_le_card fewer) bounded
  · have accepted := ReplayWindow.accept_ahead strict fresh next
    have due : ((book.inbox.record pkt).holdPacket pkt).hold.lookup book.inbox.next = none := by
      have absent : book.inbox.next ∉ book.inbox.hold := by
        rw [coupled.held, coupled.next]
        exact tight
      rw [held, AList.lookup_insert_ne (by rw [coupled.next]; exact fun same => next same.symm)]
      exact AList.lookup_eq_none.mpr absent
    have kept : (book.take pkt).inbox = (book.inbox.record pkt).holdPacket pkt := by
      rw [released]
      exact release_none due
    have done : Coupled (book.take pkt).inbox.window (book.take pkt).inbox.next
        (book.take pkt).inbox.hold := by
      rw [window, accepted, kept]
      constructor
      · exact coupled.next
      · intro seq
        show seq ∈ book.inbox.hold.insert pkt.seq _ ↔ _
        rw [AList.mem_insert, coupled.held]
        exact (Finset.mem_insert).symm
      · rintro seq (low | taken)
        · exact coupled.small seq (.inl low)
        · rcases Finset.mem_insert.mp taken with rfl | old
          · exact fits
          · exact coupled.small seq (.inr old)
    refine ⟨⟨done, stillStrict, stillTight⟩, ?_⟩
    have space : book.inbox.hold.entries.length < cap := by
      rcases room with space | first
      · exact space
      · exact absurd (first.trans coupled.next) next
    rw [kept, longer, ← coupled.size]
    exact space

end Inbox

namespace Connection

variable {π : Type}

/-- Window and hold of a connection: in step, and the hold no longer than the window allows. -/
structure HoldMatches (c : Connection π) : Prop where
  next : c.rxRelNextDeliver = c.rxRel.lastContiguous + 1
  keys : c.rxRelHold.keys.toFinset = c.rxRel.pending
  bounded : c.rxRelHold.entries.length ≤ c.params.reliableWindow

/-- A call of a connection, or a packet its endpoint has authenticated for it. -/
inductive Handling (π : Type) where
  | call (event : Event π)
  | packet (pkt : WirePacket) (source : IpEndpoint) (now : Int)

variable [PacketProtection π] [Hmac]

/-- The handler stays, and no number is the last one of 32 bits. -/
def Numbered (c : Connection π) : Handling π → Prop
  | .call (.onMessage installed) => installed = true
  | .call (.datagram _ bytes now) =>
      ∀ pkt, c.received bytes now = some pkt → pkt.seq < 2 ^ 32 - 1
  | .call _ => True
  | .packet pkt _ _ => pkt.seq < 2 ^ 32 - 1

def handle (c : Connection π) : Handling π → Connection π
  | .call event => c.step event
  | .packet pkt source now => c.handleAuthenticated pkt source now

/-- What keeps window and hold in step. -/
structure KeepsHold (cap : Nat) (c : Connection π) : Prop where
  sound : c.ledger.Sound True
  installed : c.onMessage = true
  settled : c.inbox.Settled
  bounded : c.inbox.hold.entries.length ≤ cap
  params : c.timing.reliableWindow = cap

theorem KeepsHold.matches {cap : Nat} {c : Connection π} (keeps : c.KeepsHold cap) :
    c.HoldMatches where
  next := keeps.settled.coupled.next
  keys := keeps.settled.coupled.keys
  bounded := by
    have params : c.params.reliableWindow = cap := keeps.params
    rw [params]
    exact keeps.bounded

omit [PacketProtection π] [Hmac] in
theorem note_reliableWindow (t : Timing) (sample : Option (Nat × Int)) :
    (t.note sample).reliableWindow = t.reliableWindow := by
  cases sample with
  | none => rfl
  | some sample =>
      unfold Timing.note Timing.noteSample
      dsimp only
      split
      · rfl
      · rfl

/-- The book after a packet is taken, in a connection that has room for it. -/
theorem KeepsHold.take {cap : Nat} {c after : Connection π} {pkt : WirePacket} {now : Int}
    (keeps : c.KeepsHold cap) (takes : c.Takes pkt now) (room : c.hasRoom pkt.seq = true)
    (fits : pkt.seq < 2 ^ 32 - 1) (taken : after.book = c.book.take pkt)
    (sound : after.ledger.Sound True) (params : after.timing.reliableWindow = cap) :
    after.KeepsHold cap := by
  have installed : c.book.installed = true := keeps.installed
  have place : c.book.inbox.hold.entries.length < cap ∨ pkt.seq = c.book.inbox.next := by
    have window : c.params.reliableWindow = cap := keeps.params
    unfold hasRoom at room
    rw [keeps.installed, window] at room
    simp only [Bool.not_true, Bool.false_or, Bool.or_eq_true, decide_eq_true_eq, beq_iff_eq] at room
    exact room
  obtain ⟨settled, bounded⟩ := Inbox.Settled.take keeps.settled keeps.bounded installed takes.fresh
    place (by omega)
  have inbox : after.inbox = (c.book.take pkt).inbox := congrArg Book.inbox taken
  have still : after.onMessage = true := (congrArg Book.installed taken).trans installed
  rw [← inbox] at settled bounded
  exact ⟨sound, still, settled, bounded, params⟩

theorem KeepsHold.same {cap : Nat} {c after : Connection π} (keeps : c.KeepsHold cap)
    (inbox : after.inbox = c.inbox) (installed : after.onMessage = true)
    (sound : after.ledger.Sound True) (params : after.timing.reliableWindow = cap) :
    after.KeepsHold cap :=
  ⟨sound, installed, inbox ▸ keeps.settled, inbox ▸ keeps.bounded, params⟩

theorem handle_keepsHold {cap : Nat} {c : Connection π} (keeps : c.KeepsHold cap)
    {handling : Handling π} (numbered : c.Numbered handling) : (c.handle handling).KeepsHold cap := by
  cases handling with
  | packet pkt source now =>
      have fits : pkt.seq < 2 ^ 32 - 1 := numbered
      have sound := handleAuthenticated_sound keeps.sound pkt source now (by omega)
        (fun _ _ _ => trivial)
      have params : (c.handleAuthenticated pkt source now).timing.reliableWindow = cap := by
        rw [handleAuthenticated_timing, note_reliableWindow]
        exact keeps.params
      rcases handleAuthenticated_cases c pkt source now with same | ⟨_, same⟩ | ⟨takes, room, taken⟩
      · exact keeps.same (congrArg Book.inbox same)
          ((congrArg Book.installed same).trans keeps.installed) sound params
      · exact keeps.same (congrArg Book.inbox same)
          ((congrArg Book.installed same).trans keeps.installed) sound params
      · exact keeps.take takes room fits taken sound params
  | call event =>
      have sound := step_sound keeps.sound event (.inl trivial)
      have params : (c.step event).timing.reliableWindow = cap := by
        obtain ⟨backoff, _, timed⟩ := step_timing c event
        rw [timed]
        exact (note_reliableWindow _ _).trans keeps.params
      have moves := step_moves keeps.sound event
      generalize book : (c.step event).book = after at moves
      have inbox : (c.step event).inbox = after.inbox := congrArg Book.inbox book
      have handler : (c.step event).onMessage = after.installed := congrArg Book.installed book
      cases moves with
      | took source bytes now pkt got takes room =>
          exact keeps.take takes room (numbered pkt got) book sound params
      | handler installed =>
          have stays : installed = true := numbered
          exact keeps.same inbox (handler.trans stays) sound params
      | idle | numberedBestEffort | numbered | ticked | acked | ackedPreUpgrade =>
          exact keeps.same inbox (handler.trans keeps.installed) sound params

/-- A connection whose handler is set from the start. -/
def handled (endpoint : EndpointPort) (params : OpenParams) : Connection π :=
  (create endpoint params).step (.onMessage true)

theorem handled_keepsHold (endpoint : EndpointPort) (params : OpenParams) :
    (handled endpoint params : Connection π).KeepsHold params.reliableWindow := by
  have window : (handled endpoint params : Connection π).timing.reliableWindow =
      params.reliableWindow := by
    show (create (π := π) endpoint params).params.reliableWindow = _
    unfold create
    dsimp only
    split
    · rfl
    · rfl
  have coupled : Inbox.Coupled (handled endpoint params : Connection π).rxRel 1 ∅ := by
    constructor
    · rfl
    · intro seq
      constructor
      · exact fun held => absurd held (AList.notMem_empty seq)
      · exact fun held => absurd held (Finset.notMem_empty _)
    · rintro seq (low | held)
      · have low : seq ≤ 0 := low
        omega
      · exact absurd held (Finset.notMem_empty _)
  exact ⟨step_sound (create_sound endpoint params) _ (.inl trivial), rfl,
    ⟨coupled, rfl, Finset.notMem_empty _⟩, Nat.zero_le _, window⟩

/-- Whatever packets come, also from a peer that has the keys, the hold is what the window has
pending, and no more than it may be. -/
theorem hold_matches (endpoint : EndpointPort) (params : OpenParams) (handlings : List (Handling π))
    (numbered : Run.Meets handle Numbered (handled endpoint params) handlings) :
    Run.Always handle HoldMatches (handled endpoint params) handlings := by
  apply Run.always_of_invariant handle Numbered (KeepsHold params.reliableWindow) HoldMatches
  · exact fun c handling numbered keeps => handle_keepsHold keeps numbered
  · exact fun c keeps => keeps.matches
  · exact numbered
  · exact handled_keepsHold endpoint params

end Connection

namespace Connection

/-- Two packets early, one too many for the hold, the one they wait for, and a later one. -/
def outOfOrder : List (Handling TagProtection) :=
  [2, 3, 4, 1, 9].map fun seq =>
    .packet { type := .dataReliable, assoc := sampleParams.id, seq := seq } {} 1000

theorem hold_matches_sample :
    Run.Meets handle Numbered (handled samplePort { sampleParams with reliableWindow := 2 })
        outOfOrder ∧
      Run.Always handle HoldMatches (handled samplePort { sampleParams with reliableWindow := 2 })
        outOfOrder := by
  have fits : ∀ (c : Connection TagProtection) (seq : Nat), seq < 10 →
      c.Numbered (.packet { type := .dataReliable, assoc := sampleParams.id, seq := seq } {} 1000) :=
    fun _ _ small => Nat.lt_trans small (by decide)
  have numbered : Run.Meets handle Numbered
      (handled samplePort { sampleParams with reliableWindow := 2 }) outOfOrder :=
    ⟨fits _ 2 (by decide), fits _ 3 (by decide), fits _ 4 (by decide), fits _ 1 (by decide),
      fits _ 9 (by decide), trivial⟩
  exact ⟨numbered, hold_matches samplePort _ outOfOrder numbered⟩

end Connection

end Amp.Adp
