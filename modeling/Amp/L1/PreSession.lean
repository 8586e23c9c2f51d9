import Amp.L1.Ledger
import Amp.L1.Sample

set_option autoImplicit false

/- What a datagram can do that verifies under the pre-session key only, once the
binder has the session's key. Everybody holds the pre-session key, so this is
what anybody can do to an established association. -/
namespace Amp.Adp

namespace Connection

section Datagrams

variable {π : Type} [Hmac]

/-- An ack, under the pre-session key, of a number that `rx_rel_` calls a duplicate. -/
def AckOfDuplicate (c : Connection π) (datagram : Bytes) : Prop :=
  ∃ key seq now encoded, c.preUpgradeKey = some key ∧ c.rxRel.classify seq = .duplicate ∧
    WireCodec.encode { type := .ack, assoc := c.id, seq := seq, timestampMs := truncTs now } =
      .ok encoded ∧
    datagram = HmacBinder.bind key encoded

/-- The state but for the three things such a datagram can reach. -/
def apart (c after : Connection π) : Connection π :=
  { c with
    outstanding := after.outstanding
    transmitted := after.transmitted
    peerUnreachable := after.peerUnreachable }

/-- Everything datagrams of the pre-session key have done: packets from before
the upgrade are settled, duplicates are acked under the pre-session key, and the
socket may have found no route for such an ack. -/
structure Powerless (before after : Connection π) : Prop where
  rest : after = before.apart after
  settled : ∃ seqs : List Nat, after.outstanding =
    before.outstanding.filter fun o => !(o.beforeUpgrade && seqs.contains o.seq)
  acked : ∃ acks, after.transmitted = before.transmitted ++ acks ∧
    ∀ ack ∈ acks, before.AckOfDuplicate ack
  unreachable : after.peerUnreachable = before.peerUnreachable ∨
    ∃ ack message, before.AckOfDuplicate ack ∧
      before.endpoint.sendRaw before.peer ack = .unreachable message

theorem Powerless.refl (c : Connection π) : Powerless c c := by
  refine ⟨rfl, ⟨[], ?_⟩, ⟨[], (List.append_nil _).symm, nofun⟩, Or.inl rfl⟩
  simp

theorem Powerless.trans {before middle after : Connection π} (one : Powerless before middle)
    (two : Powerless middle after) : Powerless before after := by
  have same := one.rest
  have acks : ∀ ack, middle.AckOfDuplicate ack → before.AckOfDuplicate ack := by
    intro ack
    rw [same]
    exact fun known => known
  have socket : middle.endpoint.sendRaw middle.peer = before.endpoint.sendRaw before.peer := by
    rw [same]
    rfl
  obtain ⟨first, kept⟩ := one.settled
  obtain ⟨second, left⟩ := two.settled
  obtain ⟨early, sent, known⟩ := one.acked
  obtain ⟨late, more, others⟩ := two.acked
  refine ⟨?_, ⟨first ++ second, ?_⟩, ⟨early ++ late, ?_, ?_⟩, ?_⟩
  · rw [two.rest, same]
    rfl
  · rw [left, kept, List.filter_filter]
    apply List.filter_congr
    intro o _
    cases o.beforeUpgrade <;> simp [Bool.and_comm]
  · rw [more, sent, List.append_assoc]
  · intro ack member
    rcases List.mem_append.mp member with old | new
    · exact known ack old
    · exact acks ack (others ack new)
  · rcases two.unreachable with unchanged | ⟨ack, message, duplicate, refused⟩
    · rw [unchanged]
      exact one.unreachable
    · rw [socket] at refused
      exact Or.inr ⟨ack, message, acks ack duplicate, refused⟩

variable [PacketProtection π]

/-- A datagram of the pre-session key: neither the binder's key nor the session
protection vouches for it. -/
structure PreSession (c : Connection π) (datagram : Bytes) : Prop where
  known : ∃ key, c.preUpgradeKey = some key ∧ HmacBinder.verify key datagram = true
  foreign : HmacBinder.verify c.binderKey datagram = false
  unopened : ∀ now pkt, c.openDatagram datagram now ≠ .ok pkt

/-- The ack of a duplicate, whatever the socket says of it. -/
theorem sendPacket_powerless (c : Connection π) (seq : Nat) (now : Int) {key : PeerKey}
    (upgraded : c.preUpgradeKey = some key) (duplicate : c.rxRel.classify seq = .duplicate) :
    Powerless c (c.sendPacket .ack seq [] now c.preUpgradeKey).1 := by
  have plain : PacketType.ack.isSealed = false := rfl
  unfold sendPacket buildDatagram
  simp only [plain, Bool.false_eq_true, if_false]
  cases encoded : WireCodec.encode
      { type := .ack, assoc := c.id, seq := seq, timestampMs := truncTs now, payload := [] } with
  | error message => exact Powerless.refl c
  | ok bytes =>
      have ack : c.AckOfDuplicate (HmacBinder.bind (c.preUpgradeKey.getD c.binderKey) bytes) := by
        refine ⟨key, seq, now, bytes, upgraded, duplicate, encoded, ?_⟩
        rw [upgraded]
        rfl
      have same : c.outstanding = c.outstanding.filter
          fun o => !(o.beforeUpgrade && ([] : List Nat).contains o.seq) := by simp
      dsimp only
      cases answered : c.endpoint.sendRaw c.peer
          (HmacBinder.bind (c.preUpgradeKey.getD c.binderKey) bytes) with
      | sent =>
          refine ⟨rfl, ⟨[], same⟩, ⟨[_], rfl, ?_⟩, Or.inl rfl⟩
          intro datagram member
          rw [List.mem_singleton.mp member]
          exact ack
      | unreachable message =>
          exact ⟨rfl, ⟨[], same⟩, ⟨[], (List.append_nil _).symm, nofun⟩,
            Or.inr ⟨_, message, ack, answered⟩⟩
      | failed message => exact Powerless.refl c

theorem handlePreUpgradeKeyPacket_powerless (c : Connection π) (pkt : WirePacket) (now : Int)
    {key : PeerKey} (upgraded : c.preUpgradeKey = some key) :
    Powerless c (c.handlePreUpgradeKeyPacket pkt now) := by
  unfold handlePreUpgradeKeyPacket
  split
  · exact Powerless.refl c
  · split
    · refine ⟨rfl, ⟨[pkt.seq], ?_⟩, ⟨[], (List.append_nil _).symm, nofun⟩, Or.inl rfl⟩
      apply List.filter_congr
      intro o _
      by_cases same : o.seq = pkt.seq <;> simp [same]
    · split
      · rename_i duplicate
        exact sendPacket_powerless c pkt.seq now upgraded duplicate
      · exact Powerless.refl c
    · exact Powerless.refl c

/-- A datagram of the pre-session key reaches no trusted path. -/
theorem PreSession.not_received {c : Connection π} {datagram : Bytes}
    (foreign : c.PreSession datagram) (now : Int) : c.received datagram now = none := by
  unfold received
  split
  · rfl
  · split
    · cases opened : c.openDatagram datagram now with
      | error failure => rfl
      | ok pkt => exact absurd opened (foreign.unopened now pkt)
    · rw [foreign.foreign]
      rfl

theorem handleDatagram_powerless {c : Connection π} {datagram : Bytes}
    (foreign : c.PreSession datagram) (source : IpEndpoint) (now : Int) :
    Powerless c (c.handleDatagram source datagram now) := by
  obtain ⟨key, upgraded, _⟩ := foreign.known
  rw [handleDatagram_eq, foreign.not_received now]
  cases c.receivedPreUpgrade datagram with
  | none => exact Powerless.refl c
  | some pkt => exact handlePreUpgradeKeyPacket_powerless c pkt now upgraded

/-- A datagram, where it came from and when. -/
structure Arrival where
  source : IpEndpoint
  datagram : Bytes
  now : Int

def arrive (c : Connection π) (arrival : Arrival) : Connection π :=
  c.handleDatagram arrival.source arrival.datagram arrival.now

theorem PreSession.kept {before after : Connection π} (powerless : Powerless before after)
    {datagram : Bytes} (foreign : before.PreSession datagram) : after.PreSession datagram := by
  rw [powerless.rest]
  exact ⟨foreign.known, foreign.foreign, foreign.unopened⟩

/-- Any number of datagrams of the pre-session key, from anywhere, settle packets
from before the upgrade and have duplicates acked; nothing else changes but that
the socket may report no route for such an ack. -/
theorem pre_session_key_powerless (c : Connection π) (arrivals : List Arrival)
    (foreign : ∀ arrival ∈ arrivals, c.PreSession arrival.datagram) :
    Powerless c (arrivals.foldl arrive c) := by
  induction arrivals generalizing c with
  | nil => exact Powerless.refl c
  | cons first rest ih =>
      have step : Powerless c (c.arrive first) :=
        handleDatagram_powerless (foreign first List.mem_cons_self) first.source first.now
      have later : ∀ arrival ∈ rest, (c.arrive first).PreSession arrival.datagram := by
        intro arrival member
        exact (foreign arrival (List.mem_cons_of_mem _ member)).kept step
      rw [List.foldl_cons]
      exact step.trans (ih (c.arrive first) later)

end Datagrams

/-- A packet as anybody can build it. -/
def forged (type : PacketType) (seq : Nat) : Bytes :=
  let packet := WireCodec.encode {
    type := type, assoc := sampleParams.id, seq := seq, timestampMs := 1000 }
  packet.toOption.elim [] (HmacBinder.bind [])

/-- An association with one handshake packet outstanding, after the upgrade. -/
def upgradedSample (port : EndpointPort) : Connection TagProtection :=
  ((create port sampleParams).send .reliable [5]).1.upgradeBinder [1]

theorem pre_session_key_powerless_sample :
    let c := upgradedSample samplePort
    let arrivals : List Arrival := [⟨{ port := 7 }, forged .ack 1, 1000⟩,
      ⟨{ port := 7 }, forged .close 0, 1000⟩]
    c.outstanding.length = 1 ∧ (arrivals.foldl arrive c).outstanding = [] ∧
      Powerless c (arrivals.foldl arrive c) := by
  refine ⟨by decide +kernel, by decide +kernel, pre_session_key_powerless _ _ ?_⟩
  intro arrival member
  have ack : (upgradedSample samplePort).PreSession (forged .ack 1) :=
    ⟨⟨[], rfl, by decide +kernel⟩, by decide +kernel, nofun⟩
  have close : (upgradedSample samplePort).PreSession (forged .close 0) :=
    ⟨⟨[], rfl, by decide +kernel⟩, by decide +kernel, nofun⟩
  simp only [List.mem_cons, List.not_mem_nil, or_false] at member
  rcases member with rfl | rfl
  · exact ack
  · exact close

/-- A forged packet with number 0 is acked though no packet was ever accepted, and
where the socket has no route the association notes its peer as unreachable. -/
theorem pre_session_key_acks_zero :
    let c := upgradedSample samplePort
    let cut : Connection TagProtection :=
      (create ⟨1000, fun _ _ => .unreachable "no route to host"⟩ sampleParams).upgradeBinder [1]
    let arrival : Arrival := ⟨{ port := 7 }, forged .plainReliable 0, 1000⟩
    c.PreSession arrival.datagram ∧ c.recorded = [] ∧
      (c.arrive arrival).transmitted = c.transmitted ++ [forged .ack 0] ∧
      cut.PreSession arrival.datagram ∧ cut.peerUnreachable = false ∧
      (cut.arrive arrival).peerUnreachable = true := by
  have verified : HmacBinder.verify [] (forged .plainReliable 0) = true := by decide +kernel
  have refused : HmacBinder.verify [1] (forged .plainReliable 0) = false := by decide +kernel
  exact ⟨⟨⟨[], rfl, verified⟩, refused, nofun⟩, by decide +kernel, by decide +kernel,
    ⟨⟨[], rfl, verified⟩, refused, nofun⟩, by decide +kernel, by decide +kernel⟩

end Connection

end Amp.Adp
