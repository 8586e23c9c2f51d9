import Amp.L1.Association

set_option autoImplicit false

/- What an ack promises. A reliable packet is recorded, acked and held in three
places of `HandleAuthenticated` that each look at the handler; the ack is kept
word only in runs that record no packet while there is no handler to hold it for. -/
namespace Amp.Adp

namespace Inbox

/-- The packet was handed over, or waits in the hold. -/
def Has (inbox : Inbox) (pkt : WirePacket) : Prop :=
  (∃ message ∈ inbox.messages, message.seq = pkt.seq ∧ message.payload = pkt.payload) ∨
    ∃ wasSealed, inbox.hold.lookup pkt.seq = some ⟨wasSealed, pkt.payload⟩

/-- Every number the window has taken belongs to a packet the inbox has, and
`count` packets were handed over in the order of their numbers. -/
structure Complete (inbox : Inbox) (count : Nat) : Prop where
  strict : inbox.window.slideOnGap = false
  next : inbox.next = (count + 1) % 2 ^ 32
  bound : count < 2 ^ 32
  order : inbox.messages.map Message.seq = List.range' 1 count
  accepted : ∀ seq, 0 < seq → inbox.window.Accepted seq → ∃ pkt ∈ inbox.recorded, pkt.seq = seq
  numbers : ∀ pkt ∈ inbox.recorded, 0 < pkt.seq ∧ inbox.window.Accepted pkt.seq
  has : ∀ pkt ∈ inbox.recorded, inbox.Has pkt
  held : ∀ seq packet, inbox.hold.lookup seq = some packet → ∃ pkt ∈ inbox.recorded, pkt.seq = seq
  handed : ∀ seq, seq ≤ count → inbox.window.Accepted seq
  ahead : ∀ seq packet, inbox.hold.lookup seq = some packet → count < seq

theorem Complete.next_eq {inbox : Inbox} {count : Nat} (complete : inbox.Complete count)
    {packet : HeldReliable} (found : inbox.hold.lookup inbox.next = some packet) :
    inbox.next = count + 1 ∧ count + 1 < 2 ^ 32 := by
  obtain ⟨pkt, member, same⟩ := complete.held inbox.next packet found
  have positive := (complete.numbers pkt member).1
  have next := complete.next
  have bound := complete.bound
  omega

theorem Complete.handOver {inbox : Inbox} {count : Nat} (complete : inbox.Complete count)
    (id : AssocId) (packet : HeldReliable)
    (found : inbox.hold.lookup inbox.next = some packet) :
    (inbox.handOver id packet).Complete (count + 1) := by
  obtain ⟨place, room⟩ := complete.next_eq found
  have erased : ∀ seq other, (inbox.handOver id packet).hold.lookup seq = some other →
      seq ≠ inbox.next ∧ inbox.hold.lookup seq = some other := by
    intro seq other kept
    by_cases due : seq = inbox.next
    · rw [due, Inbox.handOver, AList.lookup_erase] at kept
      cases kept
    · rw [Inbox.handOver, AList.lookup_erase_ne due] at kept
      exact ⟨due, kept⟩
  refine ⟨complete.strict, ?_, room, ?_, complete.accepted, complete.numbers, ?_, ?_, ?_, ?_⟩
  · simp only [Inbox.handOver, place]
  · simp only [Inbox.handOver, List.map_append, List.map_singleton, complete.order, place,
      List.range'_concat, Nat.one_mul, Nat.add_comm]
  · intro pkt member
    rcases complete.has pkt member with ⟨message, inside, seq, payload⟩ | ⟨wasSealed, waits⟩
    · exact Or.inl ⟨message, List.mem_append_left _ inside, seq, payload⟩
    · by_cases due : pkt.seq = inbox.next
      · rw [due, found] at waits
        cases waits
        exact Or.inl ⟨_, List.mem_append_right _ (List.mem_singleton_self _), due.symm, rfl⟩
      · exact Or.inr ⟨wasSealed, (AList.lookup_erase_ne due).trans waits⟩
  · intro seq other kept
    exact complete.held seq other (erased seq other kept).2
  · intro seq low
    rcases Nat.lt_or_eq_of_le low with below | last
    · exact complete.handed seq (by omega)
    · obtain ⟨pkt, member, same⟩ := complete.held inbox.next packet found
      have taken := (complete.numbers pkt member).2
      rwa [same, place, ← last] at taken
  · intro seq other kept
    obtain ⟨differs, old⟩ := erased seq other kept
    have above := complete.ahead seq other old
    omega

theorem Complete.release {inbox : Inbox} {count : Nat} (complete : inbox.Complete count)
    (id : AssocId) (turns : Nat) : ∃ reached, (inbox.release id turns).Complete reached := by
  induction turns generalizing inbox count with
  | zero => exact ⟨count, complete⟩
  | succ turns ih =>
      unfold Inbox.release
      split
      · exact ⟨count, complete⟩
      · rename_i packet found
        exact ih (complete.handOver id packet found)

/-- The hold's size is turns enough: what is due next is no longer held. -/
theorem release_settled (id : AssocId) (turns : Nat) : ∀ inbox : Inbox,
    inbox.hold.entries.length ≤ turns →
    (inbox.release id turns).hold.lookup (inbox.release id turns).next = none := by
  induction turns with
  | zero =>
      intro inbox size
      have empty : inbox.hold.entries = [] := List.length_eq_zero_iff.mp (Nat.le_zero.mp size)
      simp only [Inbox.release, AList.lookup, empty, List.dlookup_nil]
  | succ turns ih =>
      intro inbox size
      cases found : inbox.hold.lookup inbox.next with
      | none =>
          have stays : inbox.release id (turns + 1) = inbox := by
            simp only [Inbox.release, found]
          rw [stays]
          exact found
      | some packet =>
          have goes : inbox.release id (turns + 1) =
              (inbox.handOver id packet).release id turns := by
            simp only [Inbox.release, found]
          rw [goes]
          refine ih _ ?_
          have inside : ⟨inbox.next, packet⟩ ∈ inbox.hold.entries := AList.mem_lookup_iff.mp found
          have shrinks : (inbox.hold.entries.kerase inbox.next).length =
              inbox.hold.entries.length - 1 :=
            List.length_eraseP_of_mem inside (by simp)
          have erased : (inbox.handOver id packet).hold.entries =
              inbox.hold.entries.kerase inbox.next := rfl
          rw [erased]
          omega

/-- Recording a packet while there is a handler keeps the inbox complete. -/
theorem Complete.take {book : Book} {count : Nat} (complete : book.inbox.Complete count)
    (pkt : WirePacket) (fresh : book.inbox.window.classify pkt.seq = .fresh)
    (installed : book.installed = true) :
    ∃ reached, (book.take pkt).inbox.Complete reached ∧
      (book.take pkt).inbox.hold.lookup (book.take pkt).inbox.next = none := by
  have strict := complete.strict
  have taken := book.inbox.window.accept_of_fresh pkt.seq fresh
  have unknown : ¬ (pkt.seq = 0 ∨ book.inbox.window.Accepted pkt.seq) := by
    rw [← ReplayWindow.classify_duplicate, fresh]
    decide
  rw [not_or] at unknown
  obtain ⟨nonzero, notTaken⟩ := unknown
  have accepts : ∀ other, (book.inbox.window.accept pkt.seq).1.Accepted other ↔
      other = pkt.seq ∨ book.inbox.window.Accepted other := fun other =>
    book.inbox.window.accept_accepted pkt.seq other strict taken
  have distinct : ∀ old ∈ book.inbox.recorded, old.seq ≠ pkt.seq := by
    intro old member same
    exact notTaken (same ▸ (complete.numbers old member).2)
  have ready : ((book.inbox.record pkt).holdPacket pkt).Complete count := by
    refine ⟨?_, complete.next, complete.bound, complete.order, ?_, ?_, ?_, ?_, ?_, ?_⟩
    · exact (book.inbox.window.accept_slideOnGap pkt.seq).trans strict
    · intro seq positive accepted
      rcases (accepts seq).mp accepted with same | old
      · exact ⟨pkt, List.mem_append_right _ (List.mem_singleton_self _), same.symm⟩
      · obtain ⟨other, member, same⟩ := complete.accepted seq positive old
        exact ⟨other, List.mem_append_left _ member, same⟩
    · intro other member
      rcases List.mem_append.mp member with old | new
      · obtain ⟨positive, known⟩ := complete.numbers other old
        exact ⟨positive, (accepts other.seq).mpr (Or.inr known)⟩
      · rw [List.mem_singleton.mp new]
        exact ⟨Nat.pos_of_ne_zero nonzero, (accepts pkt.seq).mpr (Or.inl rfl)⟩
    · intro other member
      rcases List.mem_append.mp member with old | new
      · rcases complete.has other old with handed | ⟨wasSealed, waits⟩
        · exact Or.inl handed
        · refine Or.inr ⟨wasSealed, ?_⟩
          exact (AList.lookup_insert_ne (distinct other old)).trans waits
      · rw [List.mem_singleton.mp new]
        exact Or.inr ⟨pkt.type.isSealed, AList.lookup_insert _⟩
    · intro seq packet found
      by_cases same : seq = pkt.seq
      · exact ⟨pkt, List.mem_append_right _ (List.mem_singleton_self _), same.symm⟩
      · simp only [holdPacket, AList.lookup_insert_ne same] at found
        obtain ⟨other, member, known⟩ := complete.held seq packet found
        exact ⟨other, List.mem_append_left _ member, known⟩
    · exact fun seq low => (accepts seq).mpr (Or.inr (complete.handed seq low))
    · intro seq packet found
      by_cases same : seq = pkt.seq
      · rw [same]
        exact Nat.lt_of_not_le fun low => notTaken (complete.handed pkt.seq low)
      · simp only [holdPacket, AList.lookup_insert_ne same] at found
        exact complete.ahead seq packet found
  have released : (book.take pkt).inbox =
      ((book.inbox.record pkt).holdPacket pkt).release book.id
        ((book.inbox.record pkt).holdPacket pkt).hold.entries.length := by
    simp only [Book.take, keep, installed, ↓reduceIte]
  obtain ⟨reached, done⟩ := ready.release book.id
    ((book.inbox.record pkt).holdPacket pkt).hold.entries.length
  rw [released]
  exact ⟨reached, done, release_settled book.id _ _ (Nat.le_refl _)⟩

theorem complete_empty (window : ReplayWindow) (strict : window.slideOnGap = false)
    (start : window.lastContiguous = 0) (none : window.pending = ∅) :
    Complete ⟨window, 1, ∅, [], []⟩ 0 := by
  refine ⟨strict, rfl, by decide, rfl, ?_, ?_, ?_, ?_, ?_, ?_⟩
  · intro seq positive accepted
    simp only [ReplayWindow.Accepted, start, none, Finset.notMem_empty, or_false] at accepted
    omega
  · exact fun _ absent => absurd absent List.not_mem_nil
  · exact fun _ absent => absurd absent List.not_mem_nil
  · intro seq packet found
    simp at found
  · exact fun seq low => Or.inl (by omega)
  · intro seq packet found
    simp at found

end Inbox

namespace Connection

variable {π : Type} [PacketProtection π] [Hmac]

def ackNumber (datagram : Bytes) : Option Nat :=
  match WireCodec.decode datagram with
  | .ok pkt => if pkt.type = .ack then some pkt.seq else none
  | .error _ => none

/-- The connection has sent an ack of this number. -/
def AckSent (c : Connection π) (seq : Nat) : Prop := seq ∈ c.transmitted.filterMap ackNumber

instance (c : Connection π) (seq : Nat) : Decidable (c.AckSent seq) :=
  inferInstanceAs (Decidable (_ ∈ _))

omit [PacketProtection π] [Hmac] in
theorem AckSent.datagram {c : Connection π} {seq : Nat} (acked : c.AckSent seq) :
    ∃ datagram ∈ c.transmitted, ∃ pkt, WireCodec.decode datagram = .ok pkt ∧
      pkt.type = .ack ∧ pkt.seq = seq := by
  obtain ⟨datagram, sent, number⟩ := List.mem_filterMap.mp acked
  unfold ackNumber at number
  split at number
  · rename_i pkt decoded
    split at number
    · rename_i form
      exact ⟨datagram, sent, pkt, decoded, form, Option.some.inj number⟩
    · cases number
  · cases number

/-- The packet recorded under this number was handed to the handler. -/
def Handed (c : Connection π) (seq : Nat) : Prop :=
  ∃ pkt ∈ c.recorded, pkt.seq = seq ∧ ∃ message ∈ c.delivered,
    message.qos = .reliable ∧ message.seq = seq ∧ message.payload = pkt.payload

/-- The packet recorded under this number is in the hold. -/
def Held (c : Connection π) (seq : Nat) : Prop :=
  ∃ pkt ∈ c.recorded, pkt.seq = seq ∧
    ∃ wasSealed, c.rxRelHold.lookup seq = some ⟨wasSealed, pkt.payload⟩

/-- The condition on one call: no reliable packet numbered 0 arrives, and none
that would be recorded arrives while there is no handler. -/
def KeepsWord (c : Connection π) (event : Event π) : Prop :=
  c.ZeroFree event ∧ ∀ source bytes now, event = .datagram source bytes now → ∀ pkt,
    c.received bytes now = some pkt → c.Takes pkt now → c.onMessage = true

def AckInvariant (c : Connection π) : Prop :=
  c.ledger.Sound False ∧ c.rxRelHold.lookup c.rxRelNextDeliver = none ∧
    ∃ count, c.inbox.Complete count

theorem step_ackInvariant (c : Connection π) (event : Event π) (allowed : c.KeepsWord event)
    (inv : c.AckInvariant) : (c.step event).AckInvariant := by
  obtain ⟨sound, settled, count, complete⟩ := inv
  refine ⟨step_sound sound event (Or.inr allowed.1), ?_⟩
  show (c.step event).inbox.hold.lookup (c.step event).inbox.next = none ∧ _
  rcases step_inbox sound event with same | ⟨source, bytes, now, pkt, rfl, got, takes, same⟩
  · rw [same]
    exact ⟨settled, count, complete⟩
  · have installed : c.book.installed = true := allowed.2 source bytes now rfl pkt got takes
    obtain ⟨reached, done, released⟩ := Inbox.Complete.take complete pkt takes.fresh installed
    rw [same]
    exact ⟨released, reached, done⟩

theorem AckInvariant.ack_accepted {c : Connection π} (inv : c.AckInvariant) {seq : Nat}
    (acked : c.AckSent seq) : 0 < seq ∧ c.rxRel.Accepted seq := by
  obtain ⟨datagram, sent, pkt, decoded, form, same⟩ := acked.datagram
  obtain ⟨type, number, payload, ⟨built, carries, rfl, rfl, rfl⟩, numbered⟩ :=
    inv.1.wires datagram sent
  rw [decode_of_carries decoded carries] at form same
  rw [form, same] at numbered
  rcases numbered with ⟨impossible, _⟩ | taken
  · exact impossible.elim
  · exact taken

theorem AckInvariant.kept {c : Connection π} (inv : c.AckInvariant) {seq : Nat}
    (acked : c.AckSent seq) : c.Handed seq ∨ c.Held seq := by
  obtain ⟨positive, accepted⟩ := inv.ack_accepted acked
  obtain ⟨_, _, count, complete⟩ := inv
  obtain ⟨pkt, member, rfl⟩ := complete.accepted seq positive accepted
  rcases complete.has pkt member with ⟨message, inside, number, payload⟩ | held
  · obtain ⟨delivered, reliable⟩ := List.mem_filter.mp inside
    exact Or.inl ⟨pkt, member, rfl, message, delivered, of_decide_eq_true reliable, number, payload⟩
  · exact Or.inr ⟨pkt, member, rfl, held⟩

/-- Once every number up to `seq` is acked, its packet has been handed over. -/
theorem AckInvariant.handed {c : Connection π} (inv : c.AckInvariant) {seq : Nat}
    (positive : 0 < seq) (acked : ∀ other, 0 < other → other ≤ seq → c.AckSent other) :
    c.Handed seq := by
  rcases inv.kept (acked seq positive (Nat.le_refl _)) with handed | ⟨pkt, member, same, held⟩
  · exact handed
  · exfalso
    obtain ⟨wasSealed, waits⟩ := held
    obtain ⟨settled, count, complete⟩ := inv.2
    have above := complete.ahead seq _ waits
    -- the first number past the released ones is acked, so it is held, and due
    have due : c.rxRelNextDeliver = count + 1 := by
      have next : c.rxRelNextDeliver = (count + 1) % 2 ^ 32 := complete.next
      obtain ⟨datagram, _, built, decoded, _, number⟩ :=
        (acked seq positive (Nat.le_refl _)).datagram
      have fits := WireCodec.decode_seq_lt datagram built decoded
      omega
    rcases inv.kept (acked (count + 1) (Nat.succ_pos _) above) with
      ⟨first, _, _, message, delivered, reliable, number, _⟩ | ⟨first, _, _, other, found⟩
    · have listed : message.seq ∈ c.inbox.messages.map Message.seq :=
        List.mem_map_of_mem (List.mem_filter.mpr ⟨delivered, decide_eq_true reliable⟩)
      rw [complete.order, number, List.mem_range'_1] at listed
      omega
    · rw [← due, settled] at found
      cases found

theorem create_ackInvariant (endpoint : EndpointPort) (params : OpenParams) :
    (create (π := π) endpoint params).AckInvariant :=
  ⟨create_sound endpoint params, rfl, 0, Inbox.complete_empty _ rfl rfl rfl⟩

/-- In a run that meets the condition at every call, what is acked is kept: handed
over or held, handed over in order, and handed over once nothing before it is missing. -/
theorem acked_kept (endpoint : EndpointPort) (params : OpenParams) (run : List (Event π))
    (allowed : Run.Meets step KeepsWord (create endpoint params) run) :
    let c := Run.exec step (create endpoint params) run
    (∀ seq, c.AckSent seq → c.Handed seq ∨ c.Held seq) ∧
      (∃ count, c.reliableMessages.map Message.seq = List.range' 1 count) ∧
      ∀ seq, 0 < seq → (∀ other, 0 < other → other ≤ seq → c.AckSent other) → c.Handed seq := by
  intro c
  have inv : c.AckInvariant := Run.invariant step KeepsWord AckInvariant step_ackInvariant run _
    allowed (create_ackInvariant endpoint params)
  obtain ⟨count, complete⟩ := inv.2.2
  exact ⟨fun _ => inv.kept, ⟨count, complete.order⟩, fun _ => inv.handed⟩

theorem keepsWord_call (c : Connection π) (event : Event π)
    (own : ∀ source bytes now, event ≠ .datagram source bytes now) : c.KeepsWord event :=
  ⟨fun source bytes now same => absurd same (own source bytes now),
    fun source bytes now same => absurd same (own source bytes now)⟩

theorem keepsWord_datagram (c : Connection π) (source : IpEndpoint) (bytes : Bytes) (now : Int)
    (current : (c.received bytes now).all (fun pkt => pkt.seq != 0) = true)
    (earlier : (c.receivedPreUpgrade bytes).all (fun pkt => pkt.seq != 0) = true)
    (installed : c.onMessage = true) : c.KeepsWord (.datagram source bytes now) := by
  refine ⟨?_, fun _ _ _ _ _ _ _ => installed⟩
  intro _ _ _ same pkt got _ _
  cases same
  rcases got with got | got
  · simpa [got] using current
  · simpa [got] using earlier

end Connection

/-- Two reliable packets as an unauthenticated peer sends them. -/
def sampleDatagrams : List Bytes :=
  (((Connection.create samplePort sampleParams : Connection TagProtection).send
    .reliable [1]).1.send .reliable [2]).1.transmitted

theorem Connection.acked_kept_sample :
    let run : List (Event TagProtection) := [.onMessage true,
      .datagram {} (sampleDatagrams.getD 1 []) 1000, .datagram {} (sampleDatagrams.getD 0 []) 1000]
    let c := Run.exec step (create samplePort sampleParams) run
    c.reliableMessages.map Message.payload = [[1], [2]] ∧
      (∀ seq, c.AckSent seq → c.Handed seq ∨ c.Held seq) ∧
      (∃ count, c.reliableMessages.map Message.seq = List.range' 1 count) ∧
      ∀ seq, 0 < seq → (∀ other, 0 < other → other ≤ seq → c.AckSent other) → c.Handed seq :=
  ⟨by decide +kernel, acked_kept samplePort sampleParams _
    ⟨keepsWord_call _ _ (by simp),
      keepsWord_datagram _ _ _ _ (by decide +kernel) (by decide +kernel) rfl,
      keepsWord_datagram _ _ _ _ (by decide +kernel) (by decide +kernel) rfl, trivial⟩⟩

/-- A packet that arrives before there is a handler is acked and dropped. -/
theorem Connection.acked_not_kept :
    ¬ ∀ (run : List (Event TagProtection)) (seq : Nat),
      let c := Run.exec step (create samplePort sampleParams) run
      c.AckSent seq → c.Handed seq ∨ c.Held seq := by
  intro claim
  let c : Connection TagProtection := Run.exec step (create samplePort sampleParams)
    [.datagram {} (sampleDatagrams.getD 0 []) 1000, .onMessage true]
  have acked : c.AckSent 1 := by decide +kernel
  have silent : c.delivered = [] := by decide +kernel
  have empty : c.rxRelHold.lookup 1 = none := by decide +kernel
  rcases claim _ 1 acked with ⟨_, _, _, message, delivered, _⟩ | ⟨_, _, _, _, held⟩
  · rw [show _ = [] from silent] at delivered
    exact List.not_mem_nil delivered
  · exact absurd (empty.symm.trans held) (by simp)

end Amp.Adp
