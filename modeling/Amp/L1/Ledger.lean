import Amp.L1.Frames
import Amp.Lib.Reorder

set_option autoImplicit false

/- What a connection has numbered, what it may still resend, what it has put on
the wire and what it has sealed. Every operation leaves the ledger sound: a
datagram on the wire carries a packet its end really numbered or acknowledged. -/
namespace Amp.Adp

/-- A datagram and the packet it was built from. -/
inductive Carries (π : Type) [PacketProtection π] [Hmac] : Bytes → WirePacket → Prop
  | plain (key : PeerKey) (pkt : WirePacket) (body : Bytes)
      (encoded : WireCodec.encode pkt = .ok body) (seqFits : pkt.seq < 2 ^ 32)
      (timeFits : pkt.timestampMs < 2 ^ 32) : Carries π (HmacBinder.bind key body) pkt
  | keyed (protection : π) (header : SealedHeader) (payload body : Bytes)
      (sealing : header.type.isSealed = true) (fits : header.number < 2 ^ 32)
      (done : PacketProtection.sealPacket protection (spaceOf header.type) header.number
        (WireCodec.encodeSealedHeader header) payload = .ok body) :
      Carries π (WireCodec.encodeSealedHeader header ++ body)
        { type := header.type, assoc := header.assoc, seq := header.number, payload := payload }

/-- A datagram that carries a packet of this type, number and payload. -/
def WireOf (π : Type) [PacketProtection π] [Hmac] (type : PacketType) (seq : Nat)
    (payload datagram : Bytes) : Prop :=
  ∃ pkt, Carries π datagram pkt ∧ pkt.type = type ∧ pkt.seq = seq ∧ pkt.payload = payload

/-- A call of `SealPacket` for a packet of this association, type, number and payload. -/
structure SealOf {π : Type} (id : AssocId) (type : PacketType) (seq : Nat) (payload : Bytes)
    (call : SealCall π) : Prop where
  sealing : type.isSealed = true
  space : call.space = spaceOf type
  number : call.number = seq
  header : call.header = WireCodec.encodeSealedHeader ⟨type, id, seq⟩
  plaintext : call.plaintext = payload

structure Ledger (π : Type) where
  id : AssocId
  txSeqBe : Nat
  txSeqRel : Nat
  takenBe : List Bytes
  taken : List Bytes
  outstanding : List Outstanding
  transmitted : List Bytes
  seals : List (SealCall π)
  window : ReplayWindow

def Connection.ledger {π : Type} (c : Connection π) : Ledger π where
  id := c.id
  txSeqBe := c.txSeqBe
  txSeqRel := c.txSeqRel
  takenBe := c.takenBe
  taken := c.taken
  outstanding := c.outstanding
  transmitted := c.transmitted
  seals := c.seals
  window := c.rxRel

namespace Ledger

variable {π : Type} {zero : Prop}

/-- The packets an end may put on the wire: its numbered payloads, and acks of
what its replay window has taken. The window calls number 0 known, so where one
may arrive (`zero`) it is acked too. -/
def Numbered (zero : Prop) (ledger : Ledger π) (type : PacketType) (seq : Nat) (payload : Bytes) : Prop :=
  match type with
  | .dataReliable | .plainReliable => 0 < seq ∧ ledger.taken[seq - 1]? = some payload
  | .dataBestEffort | .plainBestEffort => 0 < seq ∧ ledger.takenBe[seq - 1]? = some payload
  | .ack => zero ∧ seq = 0 ∨ 0 < seq ∧ ledger.window.Accepted seq
  | .close | .keepalive => True

structure Tracked (ledger : Ledger π) (o : Outstanding) : Prop where
  reliable : o.type.isReliableData = true
  positive : 0 < o.seq
  payload : ledger.taken[o.seq - 1]? = some o.payload

structure Sound [PacketProtection π] [Hmac] (zero : Prop) (ledger : Ledger π) : Prop where
  strict : ledger.window.slideOnGap = false
  countBe : ledger.txSeqBe = ledger.takenBe.length
  count : ledger.txSeqRel = ledger.taken.length
  limitBe : ledger.txSeqBe ≤ kSeqMax
  limit : ledger.txSeqRel ≤ kSeqMax
  tracked : ∀ o ∈ ledger.outstanding, ledger.Tracked o
  wires : ∀ datagram ∈ ledger.transmitted, ∃ type seq payload,
    WireOf π type seq payload datagram ∧ ledger.Numbered zero type seq payload
  calls : ∀ call ∈ ledger.seals, ∃ type seq payload,
    SealOf ledger.id type seq payload call ∧ ledger.Numbered zero type seq payload

/-- Numbering only ever adds: payloads keep their numbers, acks stay covered. -/
structure Grows (before after : Ledger π) : Prop where
  id : after.id = before.id
  takenBe : before.takenBe <+: after.takenBe
  taken : before.taken <+: after.taken
  accepted : ∀ seq, before.window.Accepted seq → after.window.Accepted seq

theorem Numbered.grow {before after : Ledger π} {type : PacketType} {seq : Nat}
    {payload : Bytes} (numbered : before.Numbered zero type seq payload) (grows : Grows before after) :
    after.Numbered zero type seq payload := by
  cases type with
  | dataReliable | plainReliable =>
      exact ⟨numbered.1, Reorder.entry_of_grown grows.taken numbered.2⟩
  | dataBestEffort | plainBestEffort =>
      exact ⟨numbered.1, Reorder.entry_of_grown grows.takenBe numbered.2⟩
  | ack => exact numbered.imp_right fun taken => ⟨taken.1, grows.accepted seq taken.2⟩
  | close | keepalive => trivial

theorem Tracked.grow {before after : Ledger π} {o : Outstanding} (tracked : before.Tracked o)
    (grows : Grows before after) : after.Tracked o :=
  ⟨tracked.reliable, tracked.positive, Reorder.entry_of_grown grows.taken tracked.payload⟩

/-- A tracked packet is one its end numbered, whatever its form. -/
theorem Tracked.numbered {ledger : Ledger π} {o : Outstanding} (tracked : ledger.Tracked o) :
    ledger.Numbered zero o.type o.seq o.payload := by
  have reliable := tracked.reliable
  cases form : o.type <;> rw [form] at reliable
  all_goals first
    | exact ⟨tracked.positive, tracked.payload⟩
    | exact absurd reliable (by decide)

/-- What is kept stays sound as numbering grows; only what is new needs a proof. -/
theorem Sound.advance [PacketProtection π] [Hmac] {before after : Ledger π}
    (sound : before.Sound zero) (grows : Grows before after)
    (strict : after.window.slideOnGap = false)
    (countBe : after.txSeqBe = after.takenBe.length) (count : after.txSeqRel = after.taken.length)
    (limitBe : after.txSeqBe ≤ kSeqMax) (limit : after.txSeqRel ≤ kSeqMax)
    (tracked : ∀ o ∈ after.outstanding, o ∈ before.outstanding ∨ after.Tracked o)
    (wires : ∀ datagram ∈ after.transmitted, datagram ∈ before.transmitted ∨
      ∃ type seq payload, WireOf π type seq payload datagram ∧ after.Numbered zero type seq payload)
    (calls : ∀ call ∈ after.seals, call ∈ before.seals ∨
      ∃ type seq payload, SealOf after.id type seq payload call ∧
        after.Numbered zero type seq payload) : after.Sound zero := by
  refine ⟨strict, countBe, count, limitBe, limit, ?_, ?_, ?_⟩
  · intro o member
    rcases tracked o member with old | new
    · exact (sound.tracked o old).grow grows
    · exact new
  · intro datagram member
    rcases wires datagram member with old | new
    · obtain ⟨type, seq, payload, wired, numbered⟩ := sound.wires datagram old
      exact ⟨type, seq, payload, wired, numbered.grow grows⟩
    · exact new
  · intro call member
    rcases calls call member with old | new
    · obtain ⟨type, seq, payload, called, numbered⟩ := sound.calls call old
      exact ⟨type, seq, payload, grows.id ▸ called, numbered.grow grows⟩
    · exact new

/-- Fewer tracked packets, and datagrams and seals of packets already numbered. -/
theorem Sound.emit [PacketProtection π] [Hmac] {before : Ledger π} (sound : before.Sound zero)
    (outstanding : List Outstanding) (sent : List Bytes) (called : List (SealCall π))
    (tracked : ∀ o ∈ outstanding, before.Tracked o)
    (wires : ∀ datagram ∈ sent, ∃ type seq payload,
      WireOf π type seq payload datagram ∧ before.Numbered zero type seq payload)
    (calls : ∀ call ∈ called, ∃ type seq payload,
      SealOf before.id type seq payload call ∧ before.Numbered zero type seq payload) :
    Sound zero { before with
      outstanding := outstanding
      transmitted := before.transmitted ++ sent
      seals := before.seals ++ called } := by
  refine sound.advance ⟨rfl, List.prefix_rfl, List.prefix_rfl, fun _ taken => taken⟩ sound.strict
    sound.countBe sound.count sound.limitBe sound.limit ?_ ?_ ?_
  · intro o member
    have kept := tracked o member
    exact Or.inr ⟨kept.reliable, kept.positive, kept.payload⟩
  · exact fun datagram member => (List.mem_append.mp member).imp_right (wires datagram)
  · exact fun call member => (List.mem_append.mp member).imp_right (calls call)

theorem Numbered.reliable {ledger : Ledger π} {type : PacketType} {seq : Nat} {payload : Bytes}
    (numbered : ledger.Numbered zero type seq payload) (form : type.isReliableData = true) :
    0 < seq ∧ ledger.taken[seq - 1]? = some payload := by
  cases type <;> first
    | exact numbered
    | exact absurd form (by decide)

theorem Sound.taken_short [PacketProtection π] [Hmac] {ledger : Ledger π}
    (sound : ledger.Sound zero) : ledger.taken.length < 2 ^ 32 := by
  have count := sound.count
  have limit := sound.limit
  have bound : kSeqMax < 2 ^ 32 := by decide
  omega

theorem Sound.taken_lt [PacketProtection π] [Hmac] {ledger : Ledger π} (sound : ledger.Sound zero)
    {seq : Nat} {payload : Bytes} (found : ledger.taken[seq - 1]? = some payload) :
    seq < 2 ^ 32 := by
  have inside := (List.getElem?_eq_some_iff.mp found).1
  have count := sound.count
  have limit := sound.limit
  have bound : kSeqMax < 2 ^ 32 := by decide
  omega

end Ledger

theorem decode_of_carries {π : Type} [PacketProtection π] [Hmac] {datagram : Bytes}
    {pkt built : WirePacket} (decoded : WireCodec.decode datagram = .ok pkt)
    (carries : Carries π datagram built) : pkt = built := by
  cases carries with
  | plain key _ body encoded seqFits timeFits =>
      rw [decode_bind key built body encoded seqFits timeFits] at decoded
      cases decoded
      rfl
  | keyed sealer header payload body sealing fits done =>
      simp only [WireCodec.decode, peekType_sealed, sealing, ↓reduceIte] at decoded
      split at decoded <;> cases decoded

namespace Connection

theorem truncTs_lt (now : Int) : truncTs now < 2 ^ 32 := by
  unfold truncTs
  omega

variable {π : Type} [PacketProtection π] [Hmac] {zero : Prop}

theorem sealDatagram_spec (c : Connection π) (type : PacketType) (seq : Nat) (payload : Bytes)
    (sealing : type.isSealed = true) (fits : seq < 2 ^ 32) :
    ∃ calls, (c.sealDatagram type seq payload).1 = { c with seals := c.seals ++ calls } ∧
      (∀ call ∈ calls, SealOf c.id type seq payload call) ∧
      ∀ datagram, (c.sealDatagram type seq payload).2 = .ok datagram →
        WireOf π type seq payload datagram := by
  unfold sealDatagram
  split
  · exact ⟨[], by simp, by simp, by simp⟩
  · rename_i protection installed
    refine ⟨[⟨protection, spaceOf type, seq,
      WireCodec.encodeSealedHeader ⟨type, c.id, seq⟩, payload⟩], ?_, ?_, ?_⟩
    · dsimp only
      split <;> rfl
    · intro call member
      rw [List.mem_singleton.mp member]
      exact ⟨sealing, rfl, rfl, rfl, rfl⟩
    · intro datagram built
      dsimp only at built
      split at built
      · cases built
      · rename_i body done
        cases built
        exact ⟨_, Carries.keyed protection ⟨type, c.id, seq⟩ payload body sealing fits done,
          rfl, rfl, rfl⟩

theorem buildDatagram_spec (c : Connection π) (type : PacketType) (seq : Nat) (payload : Bytes)
    (now : Int) (key : Option PeerKey) (fits : seq < 2 ^ 32) :
    ∃ calls, (c.buildDatagram type seq payload now key).1 = { c with seals := c.seals ++ calls } ∧
      (∀ call ∈ calls, SealOf c.id type seq payload call) ∧
      ∀ datagram, (c.buildDatagram type seq payload now key).2 = .ok datagram →
        WireOf π type seq payload datagram := by
  unfold buildDatagram
  split
  · rename_i sealing
    exact sealDatagram_spec c type seq payload sealing fits
  · split
    · exact ⟨[], by simp, by simp, by simp⟩
    · rename_i encoded ok
      refine ⟨[], by simp, by simp, ?_⟩
      intro datagram built
      cases built
      exact ⟨_, Carries.plain _ _ _ ok fits (truncTs_lt now), rfl, rfl, rfl⟩

/-- All that `SendPacket` does: it asks for a seal, and puts at most one datagram
of the packet on the wire. -/
theorem sendPacket_spec (c : Connection π) (type : PacketType) (seq : Nat) (payload : Bytes)
    (now : Int) (key : Option PeerKey) (fits : seq < 2 ^ 32) :
    ∃ calls sent unreachable, (c.sendPacket type seq payload now key).1 = { c with
        seals := c.seals ++ calls
        transmitted := c.transmitted ++ sent
        peerUnreachable := unreachable } ∧
      (∀ call ∈ calls, SealOf c.id type seq payload call) ∧
      ∀ datagram ∈ sent, WireOf π type seq payload datagram := by
  obtain ⟨calls, state, called, built⟩ := buildDatagram_spec c type seq payload now key fits
  unfold sendPacket
  split
  · rename_i after failure outcome
    rw [outcome] at state
    exact ⟨calls, [], c.peerUnreachable, by simp [← state], called, by simp⟩
  · rename_i after datagram outcome
    rw [outcome] at state built
    dsimp only at state
    subst state
    split
    · refine ⟨calls, [datagram], c.peerUnreachable, rfl, called, ?_⟩
      intro other member
      rw [List.mem_singleton.mp member]
      exact built datagram rfl
    · exact ⟨calls, [], true, by simp, called, by simp⟩
    · exact ⟨calls, [], c.peerUnreachable, by simp, called, by simp⟩

/-- What a turn of the retransmit loop does to the packet itself. -/
def resent (c : Connection π) (now : Int) (o : Outstanding) : Outstanding :=
  if now < o.nextRtxMs then o
  else if c.params.maxRtx ≤ o.attempts then o
  else { o with
    attempts := o.attempts + 1
    nextRtxMs := now + c.retransmitIntervalMs (o.baseBackoff + (o.attempts + 1)) }

/-- The state a retransmit leaves: datagrams and seals, the backoff and counters. -/
structure Retransmitted (c after : Connection π) (packets : List Outstanding) : Prop where
  state : ∃ calls sent unreachable backoff stats, after = { c with
      seals := c.seals ++ calls
      transmitted := c.transmitted ++ sent
      peerUnreachable := unreachable
      rtoBackoff := backoff
      stats := stats } ∧
    stats.srttMs = c.stats.srttMs ∧ stats.rttvarMs = c.stats.rttvarMs ∧
    (∀ call ∈ calls, ∃ o ∈ packets, SealOf c.id o.type o.seq o.payload call) ∧
    ∀ datagram ∈ sent, ∃ o ∈ packets, WireOf π o.type o.seq o.payload datagram

theorem resend_spec (c : Connection π) (o : Outstanding) (now : Int) (fits : o.seq < 2 ^ 32) :
    Retransmitted c (c.resend o now).1 [o] ∧ (c.resend o now).2 = c.resent now o := by
  unfold resend resent
  split_ifs with early spent
  · exact ⟨⟨[], [], c.peerUnreachable, c.rtoBackoff, c.stats, by simp⟩, rfl⟩
  · exact ⟨⟨[], [], c.peerUnreachable, c.rtoBackoff, c.stats, by simp⟩, rfl⟩
  · refine ⟨?_, rfl⟩
    obtain ⟨calls, sent, unreachable, state, called, wired⟩ :=
      sendPacket_spec (c.noteRetransmit (o.baseBackoff + (o.attempts + 1))) o.type o.seq o.payload
        now (c.resendKey o) fits
    refine ⟨calls, sent, unreachable, _, _, state, rfl, rfl, ?_, ?_⟩
    · exact fun call member => ⟨o, List.mem_singleton_self o, called call member⟩
    · exact fun datagram member => ⟨o, List.mem_singleton_self o, wired datagram member⟩

theorem Retransmitted.resent_eq {c after : Connection π} {packets : List Outstanding}
    (done : Retransmitted c after packets) (now : Int) : after.resent now = c.resent now := by
  obtain ⟨calls, sent, unreachable, backoff, stats, rfl, srtt, rttvar, _, _⟩ := done.state
  funext o
  simp only [resent, retransmitIntervalMs, rtoMs, srtt, rttvar]

theorem Retransmitted.append {c middle after : Connection π} {first second : List Outstanding}
    (one : Retransmitted c middle first) (two : Retransmitted middle after second) :
    Retransmitted c after (first ++ second) := by
  obtain ⟨calls₁, sent₁, unreachable₁, backoff₁, stats₁, rfl, srtt₁, rttvar₁, called₁, wired₁⟩ :=
    one.state
  obtain ⟨calls₂, sent₂, unreachable₂, backoff₂, stats₂, rfl, srtt₂, rttvar₂, called₂, wired₂⟩ :=
    two.state
  refine ⟨calls₁ ++ calls₂, sent₁ ++ sent₂, unreachable₂, backoff₂, stats₂, ?_,
    srtt₂.trans srtt₁, rttvar₂.trans rttvar₁, ?_, ?_⟩
  · simp only [List.append_assoc]
  · intro call member
    rcases List.mem_append.mp member with early | late
    · obtain ⟨o, inside, called⟩ := called₁ call early
      exact ⟨o, List.mem_append_left _ inside, called⟩
    · obtain ⟨o, inside, called⟩ := called₂ call late
      exact ⟨o, List.mem_append_right _ inside, called⟩
  · intro datagram member
    rcases List.mem_append.mp member with early | late
    · obtain ⟨o, inside, wired⟩ := wired₁ datagram early
      exact ⟨o, List.mem_append_left _ inside, wired⟩
    · obtain ⟨o, inside, wired⟩ := wired₂ datagram late
      exact ⟨o, List.mem_append_right _ inside, wired⟩

theorem resendAll_spec (now : Int) (packets : List Outstanding) : ∀ c : Connection π,
    (∀ o ∈ packets, o.seq < 2 ^ 32) →
    Retransmitted c (resendAll now packets c).1 packets ∧
      (resendAll now packets c).2 = packets.map (c.resent now) := by
  induction packets with
  | nil =>
      intro c _
      exact ⟨⟨[], [], c.peerUnreachable, c.rtoBackoff, c.stats, by simp [resendAll]⟩, rfl⟩
  | cons o rest ih =>
      intro c fit
      obtain ⟨head, headEq⟩ := resend_spec c o now (fit o (List.mem_cons_self ..))
      obtain ⟨tail, tailEq⟩ := ih (c.resend o now).1
        (fun other member => fit other (List.mem_cons_of_mem o member))
      refine ⟨head.append tail, ?_⟩
      simp only [resendAll, List.map_cons, headEq, tailEq, head.resent_eq now]

theorem sendPacket_sound {c : Connection π} (sound : c.ledger.Sound zero) (type : PacketType)
    (seq : Nat) (payload : Bytes) (numbered : c.ledger.Numbered zero type seq payload)
    (fits : seq < 2 ^ 32) (now : Int) (key : Option PeerKey) :
    (c.sendPacket type seq payload now key).1.ledger.Sound zero := by
  obtain ⟨calls, sent, unreachable, state, called, wired⟩ :=
    sendPacket_spec c type seq payload now key fits
  rw [state]
  exact sound.emit c.outstanding sent calls sound.tracked
    (fun datagram member => ⟨type, seq, payload, wired datagram member, numbered⟩)
    (fun call member => ⟨type, seq, payload, called call member, numbered⟩)

omit [PacketProtection π] [Hmac] in
theorem resent_tracked {c : Connection π} {o : Outstanding} (now : Int)
    (tracked : c.ledger.Tracked o) : c.ledger.Tracked (c.resent now o) := by
  unfold resent
  split_ifs
  · exact tracked
  · exact tracked
  · exact ⟨tracked.reliable, tracked.positive, tracked.payload⟩

theorem tick_sound {c : Connection π} (sound : c.ledger.Sound zero) (now : Int) :
    (c.tick now).ledger.Sound zero := by
  unfold tick
  split
  · exact sound
  · have fit : ∀ o ∈ c.outstanding, o.seq < 2 ^ 32 := fun o member =>
      sound.taken_lt (sound.tracked o member).payload
    obtain ⟨done, packets⟩ := resendAll_spec now c.outstanding c fit
    obtain ⟨calls, sent, unreachable, backoff, stats, state, _, _, called, wired⟩ := done.state
    dsimp only
    rw [state, packets]
    refine sound.emit _ sent calls ?_ ?_ ?_
    · intro o member
      obtain ⟨old, inside, rfl⟩ := List.mem_map.mp (List.dropWhile_sublist _ |>.mem member)
      exact resent_tracked now (sound.tracked old inside)
    · intro datagram member
      obtain ⟨o, inside, wire⟩ := wired datagram member
      exact ⟨_, _, _, wire, (sound.tracked o inside).numbered⟩
    · intro call member
      obtain ⟨o, inside, sealing⟩ := called call member
      exact ⟨_, _, _, sealing, (sound.tracked o inside).numbered⟩

/-- The checks of `Send` that a reliable payload passes to take a number. -/
structure TakesNumber (c : Connection π) (payload : Bytes) : Prop where
  isOpen : c.closed = false
  small : payload.length ≤ if c.isSealing then kMaxSealedPayload else kMaxPayload
  credit : c.outstanding.length < c.params.reliableWindow
  room : c.txSeqRel ≠ kSeqMax

theorem send_takes {c : Connection π} {payload : Bytes} (takes : c.TakesNumber payload) :
    ∃ type, type.isReliableData = true ∧ (c.send .reliable payload).1 =
      ((c.numberReliable payload c.endpoint.nowMs).sendPacket type (c.txSeqRel + 1) payload
        c.endpoint.nowMs none).1 := by
  unfold send
  rw [if_neg (by rw [takes.isOpen]; decide), if_neg (Nat.not_lt_of_le takes.small)]
  dsimp only
  rw [if_neg (Nat.not_le_of_lt takes.credit), if_neg takes.room]
  refine ⟨if c.isSealing then .dataReliable else .plainReliable, ?_, ?_⟩
  · split <;> rfl
  · split <;> rename_i outcome <;> rw [outcome]
    split <;> rfl

/-- `Send` refuses, or takes the next number of its class and sends once. -/
theorem send_cases (c : Connection π) (qos : QosClass) (payload : Bytes) :
    (c.send qos payload).1 = c ∨
      (c.closed = false ∧ qos = .bestEffort ∧ c.txSeqBe ≠ kSeqMax ∧
        ∃ type, type.isBestEffortData = true ∧ (c.send qos payload).1 =
          ((c.numberBestEffort payload).sendPacket type (c.txSeqBe + 1) payload
            c.endpoint.nowMs none).1) ∨
      (qos = .reliable ∧ c.TakesNumber payload) := by
  by_cases closed : c.closed
  · exact Or.inl (by rw [send, if_pos closed])
  · have isOpen : c.closed = false := by simpa using closed
    by_cases large : (if c.isSealing then kMaxSealedPayload else kMaxPayload) < payload.length
    · exact Or.inl (by rw [send, if_neg closed, if_pos large])
    · cases qos with
      | bestEffort =>
          unfold send
          rw [if_neg closed, if_neg large]
          dsimp only
          by_cases wrap : c.txSeqBe = kSeqMax
          · exact Or.inl (by rw [if_pos wrap])
          · rw [if_neg wrap]
            refine Or.inr (Or.inl ⟨isOpen, rfl, wrap,
              if c.isSealing then .dataBestEffort else .plainBestEffort, ?_, ?_⟩)
            · split <;> rfl
            · split <;> rename_i outcome <;> rw [outcome]
      | reliable =>
          by_cases full : c.params.reliableWindow ≤ c.outstanding.length
          · refine Or.inl ?_
            rw [send, if_neg closed, if_neg large]
            dsimp only
            rw [if_pos full]
          · by_cases wrap : c.txSeqRel = kSeqMax
            · refine Or.inl ?_
              rw [send, if_neg closed, if_neg large]
              dsimp only
              rw [if_neg full, if_pos wrap]
            · exact Or.inr (Or.inr
                ⟨rfl, isOpen, Nat.le_of_not_lt large, Nat.lt_of_not_le full, wrap⟩)

omit [PacketProtection π] [Hmac] in
theorem numberBestEffort_grows (c : Connection π) (payload : Bytes) :
    Ledger.Grows c.ledger (c.numberBestEffort payload).ledger :=
  ⟨rfl, List.prefix_append .., List.prefix_rfl, fun _ taken => taken⟩

omit [PacketProtection π] [Hmac] in
theorem numberReliable_grows (c : Connection π) (payload : Bytes) (now : Int) :
    Ledger.Grows c.ledger (c.numberReliable payload now).ledger :=
  ⟨rfl, List.prefix_rfl, List.prefix_append .., fun _ taken => taken⟩

theorem numberBestEffort_sound {c : Connection π} (sound : c.ledger.Sound zero) (payload : Bytes)
    (room : c.txSeqBe ≠ kSeqMax) : (c.numberBestEffort payload).ledger.Sound zero := by
  have count := sound.countBe
  have limit := sound.limitBe
  refine sound.advance (numberBestEffort_grows c payload) sound.strict ?_ sound.count ?_
    sound.limit ?_ ?_ ?_
  · simp only [ledger, numberBestEffort, List.length_append, List.length_singleton] at count ⊢
    omega
  · simp only [ledger, numberBestEffort] at limit ⊢
    omega
  · exact fun o member => Or.inl member
  · exact fun datagram member => Or.inl member
  · exact fun call member => Or.inl member

theorem numberReliable_entry {c : Connection π} (sound : c.ledger.Sound zero) (payload : Bytes)
    (now : Int) : (c.numberReliable payload now).taken[c.txSeqRel]? = some payload := by
  have count : c.txSeqRel = c.taken.length := sound.count
  simp only [numberReliable, count, List.getElem?_concat_length]

theorem numberReliable_sound {c : Connection π} (sound : c.ledger.Sound zero) (payload : Bytes)
    (now : Int) (room : c.txSeqRel ≠ kSeqMax) : (c.numberReliable payload now).ledger.Sound zero := by
  have count := sound.count
  have limit := sound.limit
  refine sound.advance (numberReliable_grows c payload now) sound.strict sound.countBe ?_
    sound.limitBe ?_ ?_ ?_ ?_
  · simp only [ledger, numberReliable, List.length_append, List.length_singleton] at count ⊢
    omega
  · simp only [ledger, numberReliable] at limit ⊢
    omega
  · intro o member
    rcases List.mem_append.mp member with old | new
    · exact Or.inl old
    · rw [List.mem_singleton.mp new]
      refine Or.inr ⟨?_, Nat.succ_pos _, numberReliable_entry sound payload now⟩
      dsimp only
      split <;> rfl
  · exact fun datagram member => Or.inl member
  · exact fun call member => Or.inl member

theorem send_sound {c : Connection π} (sound : c.ledger.Sound zero) (qos : QosClass)
    (payload : Bytes) : (c.send qos payload).1.ledger.Sound zero := by
  have bound : kSeqMax + 1 = 2 ^ 32 := by decide
  rcases send_cases c qos payload with same | ⟨_, _, room, type, form, same⟩ | ⟨rfl, takes⟩
  · rw [same]
    exact sound
  · have limit : c.txSeqBe ≤ kSeqMax := sound.limitBe
    have count : c.txSeqBe = c.takenBe.length := sound.countBe
    have entry : (c.numberBestEffort payload).takenBe[c.txSeqBe]? = some payload := by
      simp only [numberBestEffort, count, List.getElem?_concat_length]
    rw [same]
    refine sendPacket_sound (numberBestEffort_sound sound payload room) type _ payload ?_
      (by omega) _ _
    cases type <;> first
      | exact ⟨Nat.succ_pos _, entry⟩
      | exact absurd form (by decide)
  · obtain ⟨type, form, same⟩ := send_takes takes
    have limit : c.txSeqRel ≤ kSeqMax := sound.limit
    have room := takes.room
    have entry := numberReliable_entry sound payload c.endpoint.nowMs
    rw [same]
    refine sendPacket_sound (numberReliable_sound sound payload _ room) type _ payload ?_
      (by omega) _ _
    cases type <;> first
      | exact ⟨Nat.succ_pos _, entry⟩
      | exact absurd form (by decide)

/- Receiving. -/

omit [PacketProtection π] [Hmac] in
@[simp] theorem setPeerEndpoint_ledger (c : Connection π) (peer : IpEndpoint) :
    (c.setPeerEndpoint peer).ledger = c.ledger := by
  unfold setPeerEndpoint
  split <;> rfl

omit [PacketProtection π] [Hmac] in
@[simp] theorem noteTimestamp_ledger (c : Connection π) (pkt : WirePacket) :
    (c.noteTimestamp pkt).ledger = c.ledger := by
  unfold noteTimestamp
  split <;> rfl

omit [PacketProtection π] [Hmac] in
@[simp] theorem noteFresh_ledger (c : Connection π) (fresh : Bool) (source : IpEndpoint)
    (now : Int) : (c.noteFresh fresh source now).ledger = c.ledger := by
  unfold noteFresh maybeLearnPath
  split
  · split
    · rw [setPeerEndpoint_ledger]
      rfl
    · split
      · rw [setPeerEndpoint_ledger]
        rfl
      · rfl
  · rfl

omit [PacketProtection π] [Hmac] in
theorem deliverHeld_ledger (turns : Nat) : ∀ c : Connection π,
    (deliverHeld turns c).ledger = c.ledger := by
  induction turns with
  | zero => intro c; rfl
  | succ turns ih =>
      intro c
      unfold deliverHeld
      split
      · rfl
      · rw [ih]
        rfl

omit [PacketProtection π] [Hmac] in
@[simp] theorem deliverReliableInOrder_ledger (c : Connection π) :
    c.deliverReliableInOrder.ledger = c.ledger := by
  unfold deliverReliableInOrder
  split
  · rfl
  · exact deliverHeld_ledger _ c

theorem sendKeepalivePacket_sound {c : Connection π} (sound : c.ledger.Sound zero) (now : Int)
    (intervalMs flags : Nat) : (c.sendKeepalivePacket now intervalMs flags).1.ledger.Sound zero := by
  unfold sendKeepalivePacket
  split
  · exact sound
  · split
    · exact sound
    · exact sendPacket_sound sound .keepalive 0 _ trivial (by decide) now none

omit [PacketProtection π] [Hmac] in
@[simp] theorem notePeerKeepalive_ledger (c : Connection π) (announced : Nat) :
    (c.notePeerKeepalive announced).ledger = c.ledger := rfl

theorem handleKeepalive_sound {c : Connection π} (sound : c.ledger.Sound zero) (pkt : WirePacket)
    (now : Int) : (c.handleKeepalive pkt now).ledger.Sound zero := by
  unfold handleKeepalive
  split
  · rename_i b0 b1 b2 b3 flags rest _
    generalize b0.toNat * 2 ^ 24 + b1.toNat * 2 ^ 16 + b2.toNat * 2 ^ 8 + b3.toNat = announced
    have noted : (c.notePeerKeepalive announced).ledger.Sound zero := by
      rw [notePeerKeepalive_ledger]
      exact sound
    dsimp only
    split
    · exact sendKeepalivePacket_sound noted now _ _
    · exact noted
  · exact sound

theorem dropTracked_sound {c : Connection π} (sound : c.ledger.Sound zero) (keep : Outstanding → Bool) :
    Ledger.Sound zero { c.ledger with outstanding := c.outstanding.filter keep } := by
  have kept := sound.emit (c.outstanding.filter keep) [] []
    (fun o member => sound.tracked o (List.mem_filter.mp member).1)
    (fun _ absent => absurd absent List.not_mem_nil)
    (fun _ absent => absurd absent List.not_mem_nil)
  rwa [List.append_nil, List.append_nil] at kept

omit [PacketProtection π] [Hmac] in
theorem noteRttSample_ledger (c : Connection π) (rttMs : Int) :
    (c.noteRttSample rttMs).ledger = c.ledger := by
  unfold noteRttSample
  dsimp only
  split <;> rfl

omit [PacketProtection π] [Hmac] in
theorem handleAck_ledger (c : Connection π) (pkt : WirePacket) (now : Int) :
    (c.handleAck pkt now).ledger =
      { c.ledger with outstanding := c.outstanding.filter fun o => o.seq != pkt.seq } := by
  unfold handleAck
  split
  · rename_i o _
    exact congrArg (fun ledger : Ledger π =>
      { ledger with outstanding := ledger.outstanding.filter fun o => o.seq != pkt.seq })
      (noteRttSample_ledger c (now - o.firstSentMs))
  · rfl

theorem sendAck_sound {c : Connection π} (sound : c.ledger.Sound zero) (seq : Nat) (wanted : Bool)
    (now : Int) (fits : seq < 2 ^ 32)
    (covered : wanted = true → zero ∧ seq = 0 ∨ 0 < seq ∧ c.rxRel.Accepted seq) :
    (c.sendAck seq wanted now).ledger.Sound zero := by
  unfold sendAck
  split
  · rename_i asked
    exact sendPacket_sound sound .ack seq [] (covered asked) fits now none
  · exact sound

omit [PacketProtection π] [Hmac] in
@[simp] theorem keepReliable_ledger (c : Connection π) (pkt : WirePacket) (freshData : Bool) :
    (c.keepReliable pkt freshData).ledger = c.ledger := by
  unfold keepReliable
  split
  · rfl
  · split
    · rw [deliverReliableInOrder_ledger]
      rfl
    · rfl

/-- A reliable packet is acked only when its number is taken. -/
theorem handleReliable_sound {c : Connection π} (sound : c.ledger.Sound zero) (pkt : WirePacket)
    (admission : Admission) (now : Int) (fits : pkt.seq < 2 ^ 32)
    (covered : admission.ackReliable = true → zero ∧ pkt.seq = 0 ∨
      0 < pkt.seq ∧ c.rxRel.Accepted pkt.seq) :
    (c.handleReliable pkt admission now).ledger.Sound zero := by
  rw [handleReliable, keepReliable_ledger]
  exact sendAck_sound sound pkt.seq admission.ackReliable now fits covered

theorem dispatch_sound {c : Connection π} (sound : c.ledger.Sound zero) (pkt : WirePacket)
    (admission : Admission) (now : Int) (fits : pkt.seq < 2 ^ 32)
    (covered : admission.ackReliable = true → zero ∧ pkt.seq = 0 ∨
      0 < pkt.seq ∧ c.rxRel.Accepted pkt.seq) :
    (c.dispatch pkt admission now).ledger.Sound zero := by
  unfold dispatch
  split
  · rw [handleAck_ledger]
    exact dropTracked_sound sound _
  · unfold handleClose
    split <;> exact sound
  · split
    · exact sound
    · exact handleKeepalive_sound sound pkt now
  · unfold deliverBestEffort
    split <;> exact sound
  · unfold deliverBestEffort
    split <;> exact sound
  · exact handleReliable_sound sound pkt admission now fits covered
  · exact handleReliable_sound sound pkt admission now fits covered

omit [PacketProtection π] [Hmac] in
/-- The verdicts on a reliable packet: known, not kept, or recorded. -/
theorem admitReliable_cases (c : Connection π) (pkt : WirePacket) :
    (c.rxRel.classify pkt.seq = .duplicate ∧
      c.admitReliable pkt = (c, { ackReliable := true })) ∨
    c.admitReliable pkt = (c, {}) ∨
    (c.rxRel.classify pkt.seq = .fresh ∧ c.hasRoom pkt.seq = true ∧
      (c.rxRel.accept pkt.seq).2 = true ∧
      c.admitReliable pkt = ({ c with
          rxRel := (c.rxRel.accept pkt.seq).1
          recorded := c.recorded ++ [pkt] },
        { fresh := true, freshData := true, ackReliable := true })) := by
  unfold admitReliable
  split
  · rename_i known
    exact Or.inl ⟨known, rfl⟩
  · exact Or.inr (Or.inl rfl)
  · rename_i fresh
    split
    · rename_i room
      have accepted := c.rxRel.accept_of_fresh pkt.seq fresh
      refine Or.inr (Or.inr ⟨fresh, room, accepted, ?_⟩)
      simp only [recordReliable, accepted, ↓reduceIte]
    · exact Or.inr (Or.inl rfl)

theorem takeNumber_sound {ledger : Ledger π} (sound : ledger.Sound zero) (seq : Nat) :
    Ledger.Sound zero { ledger with window := (ledger.window.accept seq).1 } := by
  refine sound.advance ⟨rfl, List.prefix_rfl, List.prefix_rfl, ?_⟩ ?_ sound.countBe sound.count
    sound.limitBe sound.limit ?_ ?_ ?_
  · exact fun other taken => taken.accept sound.strict seq
  · exact (ledger.window.accept_slideOnGap seq).trans sound.strict
  · exact fun o member => Or.inl member
  · exact fun datagram member => Or.inl member
  · exact fun call member => Or.inl member

omit [PacketProtection π] [Hmac] in
theorem known_covered {c : Connection π} {pkt : WirePacket} (fair : pkt.seq = 0 → zero)
    (known : c.rxRel.classify pkt.seq = .duplicate) :
    zero ∧ pkt.seq = 0 ∨ 0 < pkt.seq ∧ c.rxRel.Accepted pkt.seq := by
  rcases Nat.eq_zero_or_pos pkt.seq with none | positive
  · exact Or.inl ⟨fair none, none⟩
  · have taken := (c.rxRel.classify_duplicate pkt.seq).mp known
    exact Or.inr ⟨positive, taken.resolve_left (Nat.ne_of_gt positive)⟩

theorem admitReliable_sound {c : Connection π} (sound : c.ledger.Sound zero) (pkt : WirePacket)
    (fair : pkt.seq = 0 → zero) :
    (c.admitReliable pkt).1.ledger.Sound zero ∧ ((c.admitReliable pkt).2.ackReliable = true →
      zero ∧ pkt.seq = 0 ∨
        0 < pkt.seq ∧ (c.admitReliable pkt).1.rxRel.Accepted pkt.seq) := by
  rcases admitReliable_cases c pkt with ⟨known, same⟩ | same | ⟨_, _, accepted, same⟩
  · rw [same]
    exact ⟨sound, fun _ => known_covered fair known⟩
  · rw [same]
    exact ⟨sound, fun wanted => absurd wanted (by simp)⟩
  · rw [same]
    refine ⟨takeNumber_sound sound pkt.seq, fun _ => Or.inr ⟨?_, ?_⟩⟩
    · exact c.rxRel.accept_pos pkt.seq accepted
    · exact (c.rxRel.accept_accepted pkt.seq pkt.seq sound.strict accepted).mpr (Or.inl rfl)

theorem admitPacket_sound {c : Connection π} (sound : c.ledger.Sound zero) (pkt : WirePacket)
    (fair : pkt.type.isReliableData = true → pkt.seq = 0 → zero) :
    (c.admitPacket pkt).1.ledger.Sound zero ∧ ((c.admitPacket pkt).2.ackReliable = true →
      zero ∧ pkt.seq = 0 ∨ 0 < pkt.seq ∧ (c.admitPacket pkt).1.rxRel.Accepted pkt.seq) := by
  unfold admitPacket
  split
  · exact ⟨sound, fun wanted => absurd wanted (by simp [admitBestEffort])⟩
  · exact ⟨sound, fun wanted => absurd wanted (by simp [admitBestEffort])⟩
  · rename_i form
    exact admitReliable_sound sound pkt (fair (by rw [form]; rfl))
  · rename_i form
    exact admitReliable_sound sound pkt (fair (by rw [form]; rfl))
  · exact ⟨sound, fun wanted => absurd wanted (by simp)⟩

theorem refusePlainAfterKeys_sound {c : Connection π} (sound : c.ledger.Sound zero)
    (pkt : WirePacket) (fits : pkt.seq < 2 ^ 32)
    (fair : pkt.type.isReliableData = true → pkt.seq = 0 → zero) :
    (c.refusePlainAfterKeys pkt).1.ledger.Sound zero := by
  unfold refusePlainAfterKeys
  split
  · exact sound
  · split
    · exact sound
    · rename_i form
      split
      · rename_i known
        exact sendPacket_sound sound .ack pkt.seq []
          (known_covered (fair (by rw [form]; rfl)) known) fits _ _
      · exact sound
    · exact sound

/-- The skew check, which a sealed packet passes for want of a timestamp. -/
def timely (c : Connection π) (pkt : WirePacket) (now : Int) : Bool :=
  pkt.type.isSealed || c.acceptSkew pkt.timestampMs now

theorem handleAdmitted_sound {c : Connection π} (sound : c.ledger.Sound zero) (pkt : WirePacket)
    (source : IpEndpoint) (now : Int) (fits : pkt.seq < 2 ^ 32)
    (fair : pkt.type.isReliableData = true → pkt.seq = 0 → zero) :
    (c.handleAdmitted pkt source now).ledger.Sound zero := by
  obtain ⟨admitted, covered⟩ := admitPacket_sound sound pkt fair
  unfold handleAdmitted
  generalize c.admitPacket pkt = outcome at admitted covered ⊢
  obtain ⟨after, admission⟩ := outcome
  dsimp only at admitted covered ⊢
  have ready : ((after.noteTimestamp pkt).noteFresh admission.fresh source now).ledger =
      after.ledger := by
    rw [noteFresh_ledger, noteTimestamp_ledger]
  have window : ((after.noteTimestamp pkt).noteFresh admission.fresh source now).rxRel =
      after.rxRel := congrArg Ledger.window ready
  refine dispatch_sound (ready ▸ admitted) pkt admission now fits ?_
  rw [window]
  exact covered

theorem handleAuthenticated_sound {c : Connection π} (sound : c.ledger.Sound zero) (pkt : WirePacket)
    (source : IpEndpoint) (now : Int) (fits : pkt.seq < 2 ^ 32)
    (fair : c.timely pkt now = true → pkt.type.isReliableData = true → pkt.seq = 0 → zero) :
    (c.handleAuthenticated pkt source now).ledger.Sound zero := by
  unfold handleAuthenticated
  split
  · exact sound
  · rename_i skew
    have passes : c.timely pkt now = true := by
      unfold timely
      revert skew
      cases pkt.type.isSealed <;> cases c.acceptSkew pkt.timestampMs now <;> simp
    have refused := refusePlainAfterKeys_sound sound pkt fits (fair passes)
    split
    · rename_i after outcome
      rwa [outcome] at refused
    · rename_i after outcome
      rw [outcome] at refused
      exact handleAdmitted_sound refused pkt source now fits (fair passes)

theorem handlePreUpgradeKeyPacket_sound {c : Connection π} (sound : c.ledger.Sound zero)
    (pkt : WirePacket) (now : Int) (fits : pkt.seq < 2 ^ 32)
    (fair : c.timely pkt now = true → pkt.type.isReliableData = true → pkt.seq = 0 → zero) :
    (c.handlePreUpgradeKeyPacket pkt now).ledger.Sound zero := by
  unfold handlePreUpgradeKeyPacket
  split
  · exact sound
  · rename_i skew
    have passes : c.timely pkt now = true := by
      simp only [Bool.not_eq_true, Bool.not_eq_false'] at skew
      rw [timely, skew, Bool.or_true]
    split
    · exact dropTracked_sound sound _
    · rename_i form
      split
      · rename_i known
        exact sendPacket_sound sound .ack pkt.seq []
          (known_covered (fair passes (by rw [form]; rfl)) known) fits _ _
      · exact sound
    · exact sound

/-- The packet a datagram carries under the session's keys or the current
binder key. -/
def received (c : Connection π) (datagram : Bytes) (now : Int) : Option WirePacket :=
  match WireCodec.peekType datagram with
  | .error _ => none
  | .ok type =>
      if type.isSealed then (c.openDatagram datagram now).toOption
      else if HmacBinder.verify c.binderKey datagram then (WireCodec.decode datagram).toOption
      else none

/-- The packet a datagram carries under the pre-upgrade key only. -/
def receivedPreUpgrade (c : Connection π) (datagram : Bytes) : Option WirePacket :=
  match WireCodec.peekType datagram, c.preUpgradeKey with
  | .ok type, some key =>
      if !type.isSealed && !HmacBinder.verify c.binderKey datagram &&
          HmacBinder.verify key datagram then (WireCodec.decode datagram).toOption
      else none
  | _, _ => none

theorem handleDatagram_eq (c : Connection π) (source : IpEndpoint) (datagram : Bytes)
    (now : Int) : c.handleDatagram source datagram now =
      match c.received datagram now, c.receivedPreUpgrade datagram with
      | some pkt, _ => c.handleAuthenticated pkt source now
      | none, some pkt => c.handlePreUpgradeKeyPacket pkt now
      | none, none => c := by
  unfold handleDatagram received receivedPreUpgrade
  cases WireCodec.peekType datagram with
  | error message => rfl
  | ok type =>
      cases form : type.isSealed with
      | true =>
          cases c.openDatagram datagram now <;> cases c.preUpgradeKey <;>
            simp [form, Except.toOption]
      | false =>
          cases current : HmacBinder.verify c.binderKey datagram with
          | true =>
              cases WireCodec.decode datagram <;> cases c.preUpgradeKey <;>
                simp [form, Except.toOption]
          | false =>
              cases c.preUpgradeKey with
              | none => simp [form]
              | some key =>
                  cases passes : HmacBinder.verify key datagram <;>
                    cases WireCodec.decode datagram <;>
                    simp [form, passes, Except.toOption]

omit [Hmac] in
theorem openDatagram_seq_lt {c : Connection π} {datagram : Bytes} {now : Int} {pkt : WirePacket}
    (ok : c.openDatagram datagram now = .ok pkt) : pkt.seq < 2 ^ 32 := by
  unfold openDatagram at ok
  split at ok
  · cases ok
  · split at ok
    · cases ok
    · rename_i header read
      split at ok
      · cases ok
      · cases ok
        exact WireCodec.decodeSealedHeader_number_lt datagram header read

omit [PacketProtection π] [Hmac] in
theorem of_toOption {ε α : Type} {outcome : Except ε α} {value : α}
    (found : outcome.toOption = some value) : outcome = .ok value := by
  cases outcome with
  | error failure => cases found
  | ok other => cases found; rfl

theorem received_seq_lt {c : Connection π} {datagram : Bytes} {now : Int} {pkt : WirePacket}
    (got : c.received datagram now = some pkt) : pkt.seq < 2 ^ 32 := by
  unfold received at got
  split at got
  · cases got
  · split at got
    · exact openDatagram_seq_lt (of_toOption got)
    · split at got
      · exact WireCodec.decode_seq_lt datagram pkt (of_toOption got)
      · cases got

omit [PacketProtection π] in
theorem receivedPreUpgrade_decode {c : Connection π} {datagram : Bytes} {pkt : WirePacket}
    (got : c.receivedPreUpgrade datagram = some pkt) : WireCodec.decode datagram = .ok pkt := by
  unfold receivedPreUpgrade at got
  split at got
  · split at got
    · exact of_toOption got
    · cases got
  · cases got

/-- No reliable packet numbered 0 comes in time with this call. -/
def ZeroFree (c : Connection π) (event : Event π) : Prop :=
  ∀ source bytes now, event = .datagram source bytes now → ∀ pkt,
    c.received bytes now = some pkt ∨ c.receivedPreUpgrade bytes = some pkt →
    c.timely pkt now = true → pkt.type.isReliableData = true → pkt.seq ≠ 0

theorem handleDatagram_sound {c : Connection π} (sound : c.ledger.Sound zero)
    (source : IpEndpoint) (datagram : Bytes) (now : Int)
    (fair : zero ∨ c.ZeroFree (.datagram source datagram now)) :
    (c.handleDatagram source datagram now).ledger.Sound zero := by
  have numbered : ∀ pkt, c.received datagram now = some pkt ∨
      c.receivedPreUpgrade datagram = some pkt → c.timely pkt now = true →
      pkt.type.isReliableData = true → pkt.seq = 0 → zero := by
    intro pkt got inTime form none
    rcases fair with allowed | free
    · exact allowed
    · exact absurd none (free source datagram now rfl pkt got inTime form)
  rw [handleDatagram_eq]
  split
  · rename_i pkt got
    exact handleAuthenticated_sound sound pkt source now (received_seq_lt got)
      (numbered pkt (Or.inl got))
  · rename_i pkt _ got
    exact handlePreUpgradeKeyPacket_sound sound pkt now
      (WireCodec.decode_seq_lt datagram pkt (receivedPreUpgrade_decode got))
      (numbered pkt (Or.inr got))
  · exact sound

theorem step_sound {c : Connection π} (sound : c.ledger.Sound zero) (event : Event π)
    (fair : zero ∨ c.ZeroFree event) :
    (c.step event).ledger.Sound zero := by
  cases event with
  | send qos payload => exact send_sound sound qos payload
  | tick now => exact tick_sound sound now
  | datagram source bytes now => exact handleDatagram_sound sound source bytes now fair
  | versionNegotiation versions =>
      simp only [step, handleVersionNegotiation]
      split <;> exact sound
  | setPeerEndpoint peer =>
      simp only [step, setPeerEndpoint_ledger]
      exact sound
  | sendKeepalive now intervalMs => exact sendKeepalivePacket_sound (by exact sound) now _ _
  | stopKeepalive now =>
      simp only [step, stopKeepalive]
      split
      · exact sound
      · exact sendKeepalivePacket_sound (by exact sound) now _ _
  | sendProbe now => exact sendKeepalivePacket_sound sound now _ _
  | close =>
      simp only [step, close]
      split
      · exact sound
      · exact sendPacket_sound sound .close 0 [] trivial (by decide) _ none
  | abandon =>
      simp only [step, abandon]
      split <;> exact sound
  | upgradeBinder key => exact sound
  | setProtection protection => exact sound
  | onMessage installed => exact sound
  | onPathChange installed => exact sound
  | environment port => exact sound

theorem create_sound (endpoint : EndpointPort) (params : OpenParams) :
    (create (π := π) endpoint params).ledger.Sound zero := by
  refine ⟨rfl, rfl, rfl, Nat.zero_le _, Nat.zero_le _, ?_, ?_, ?_⟩
  · exact fun _ absent => absurd absent List.not_mem_nil
  · exact fun _ absent => absurd absent List.not_mem_nil
  · exact fun _ absent => absurd absent List.not_mem_nil

end Connection

end Amp.Adp
