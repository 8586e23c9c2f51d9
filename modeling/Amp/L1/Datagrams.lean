import Amp.L1.Moves
import Amp.L1.Sample
import Amp.Lib.Run

set_option autoImplicit false

/- The sizes and forms of the datagrams a connection puts on the wire, and what its endpoint and
its peer make of them. -/
namespace Amp.Adp

/-- A sealed packet is its plaintext and a tag. -/
class SizedProtection (π : Type) [PacketProtection π] : Prop where
  seal_length : ∀ (protection : π) (space : PacketSpace) (number : Nat)
    (header plaintext body : Bytes),
    PacketProtection.sealPacket protection space number header plaintext = .ok body →
    body.length = plaintext.length + kPacketTagBytes

def kVersionNegotiationNibble : Nat := 15
def kVersionNegotiationEchoBytes : Nat := 16

structure VersionNegotiation where
  echo : Bytes
  versions : Bytes
  deriving DecidableEq, Repr

namespace WireCodec

/-- The echo is cut, or filled up with zeros, to its size. -/
def echoOf (received : Bytes) : Bytes :=
  (received ++ List.replicate kVersionNegotiationEchoBytes 0).take kVersionNegotiationEchoBytes

def encodeVersionNegotiation (received versions : Bytes) : Bytes :=
  UInt8.ofNat (kVersionNegotiationNibble * 16) ::
    (echoOf received ++ UInt8.ofNat versions.length :: versions)

def decodeVersionNegotiation (datagram : Bytes) : Except String VersionNegotiation :=
  match datagram with
  | [] => .error "adp: not a version negotiation"
  | first :: rest =>
      if rest.length < kVersionNegotiationEchoBytes + 1 ∨
          first.toNat / 16 ≠ kVersionNegotiationNibble then
        .error "adp: not a version negotiation"
      else
        let count := (rest.getD kVersionNegotiationEchoBytes 0).toNat
        let versions := rest.drop (kVersionNegotiationEchoBytes + 1)
        if count = 0 ∨ versions.length ≠ count then .error "adp: bad version negotiation"
        else .ok ⟨rest.take kVersionNegotiationEchoBytes, versions⟩

theorem echoOf_length (received : Bytes) :
    (echoOf received).length = kVersionNegotiationEchoBytes := by
  rw [echoOf, List.length_take, List.length_append, List.length_replicate]
  omega

/-- A reply says again what it answers and which versions its sender speaks. -/
theorem decodeVersionNegotiation_encode (received versions : Bytes) (least : 1 ≤ versions.length)
    (most : versions.length ≤ 255) :
    decodeVersionNegotiation (encodeVersionNegotiation received versions) =
      .ok ⟨echoOf received, versions⟩ := by
  have size := echoOf_length received
  have counted : (UInt8.ofNat versions.length).toNat = versions.length := by
    rw [UInt8.toNat_ofNat']
    omega
  have long : ¬ ((echoOf received ++ UInt8.ofNat versions.length :: versions).length <
      kVersionNegotiationEchoBytes + 1 ∨
        (UInt8.ofNat (kVersionNegotiationNibble * 16)).toNat / 16 ≠ kVersionNegotiationNibble) := by
    rw [List.length_append, size, List.length_cons]
    rintro (short | other)
    · omega
    · exact other rfl
  have count : (echoOf received ++ UInt8.ofNat versions.length :: versions).getD
      kVersionNegotiationEchoBytes 0 = UInt8.ofNat versions.length := by
    rw [List.getD_eq_getElem?_getD, List.getElem?_append_right (le_of_eq size), size, Nat.sub_self]
    rfl
  have after : (echoOf received ++ UInt8.ofNat versions.length :: versions).drop
      (kVersionNegotiationEchoBytes + 1) = versions := by
    rw [← List.drop_drop, List.drop_left' size]
    rfl
  have goesOn : ¬ (versions.length = 0 ∨ versions.length ≠ versions.length) := by
    rintro (none | differs)
    · omega
    · exact differs rfl
  unfold encodeVersionNegotiation decodeVersionNegotiation
  dsimp only
  rw [if_neg long, count, after, counted, if_neg goesOn, List.take_left' size]

end WireCodec

/-- What `Endpoint::HandleDatagram` does with a datagram before it looks for a connection. -/
inductive Endpoint.Gate where
  | foreignVersion
  | rejected
  | passed
  deriving DecidableEq, Repr

def Endpoint.gate (datagram : Bytes) : Endpoint.Gate :=
  if datagram.head?.any fun first => first.toNat / 16 != kWireVersion then .foreignVersion
  else if datagram.length < kSealedHeaderBytes + kPacketTagBytes ∨
      kMaxDatagramBytes < datagram.length then .rejected
  else .passed

open WireCodec

theorem versionAndType_nibble (type : PacketType) :
    (versionAndType type).toNat / 16 = kWireVersion := by
  cases type <;> rfl

section Plain

variable [Hmac]

theorem bind_size {pkt : WirePacket} {body : Bytes} (key : PeerKey) (encoded : encode pkt = .ok body) :
    (HmacBinder.bind key body).length = kHeaderBytes + pkt.payload.length + kHmacBytes := by
  rw [HmacBinder.bind, encode_append pkt body _ encoded, plainLayout_length,
    HmacBinder.computeTag_length]

omit [Hmac] in
theorem encode_plain {pkt : WirePacket} (version : pkt.version = kWireVersion)
    (plain : pkt.type.isSealed = false) (small : pkt.payload.length ≤ kMaxPayload) :
    ∃ body, encode pkt = .ok body := by
  unfold encode
  rw [if_neg (not_not.mpr version), if_neg (by rw [plain]; decide), if_neg (Nat.not_lt.mpr small)]
  exact ⟨_, rfl⟩

/-- A plain packet from its sender to its reader. -/
structure PlainTrip (key : PeerKey) (pkt : WirePacket) (datagram : Bytes) : Prop where
  size : datagram.length ≤ kMaxDatagramBytes
  verifies : HmacBinder.verify key datagram = true
  decodes : decode datagram = .ok pkt
  path : peekType datagram = .ok pkt.type ∧ pkt.type.isSealed = false
  refused : decodeSealedHeader datagram = .error "adp: not a sealed packet"
  gate : Endpoint.gate datagram = .passed

theorem plain_trip (key : PeerKey) {pkt : WirePacket} {body : Bytes}
    (encoded : encode pkt = .ok body) (seqFits : pkt.seq < 2 ^ 32)
    (timeFits : pkt.timestampMs < 2 ^ 32) : PlainTrip key pkt (HmacBinder.bind key body) := by
  obtain ⟨_, plain, small, _⟩ := encode_layout pkt body encoded
  have size := bind_size key encoded
  have limit : kHeaderBytes + kMaxPayload + kHmacBytes = kMaxDatagramBytes := by decide
  have least : kSealedHeaderBytes + kPacketTagBytes ≤ kHeaderBytes + kHmacBytes := by decide
  have typed := peekType_bind key pkt body encoded
  refine ⟨by omega, HmacBinder.verify_bind key body,
    decode_bind key pkt body encoded seqFits timeFits, ⟨typed, plain⟩, ?_, ?_⟩
  · unfold decodeSealedHeader
    rw [if_neg (by omega), if_neg (by omega), typed]
    dsimp only
    rw [if_neg (by rw [plain]; decide)]
  · have ours : (HmacBinder.bind key body).head?.any (fun first =>
        first.toNat / 16 != kWireVersion) = false := by
      rw [HmacBinder.bind, encode_append pkt body _ encoded, plainLayout]
      simp [versionAndType_nibble]
    unfold Endpoint.gate
    rw [if_neg (by rw [ours]; decide), if_neg (by omega)]

end Plain

section Sealed

variable {π : Type} [PacketProtection π] [SizedProtection π]

/-- A sealed packet from its sender to its reader. -/
structure SealedTrip (header : SealedHeader) (ciphertext datagram : Bytes) : Prop where
  size : datagram.length ≤ kMaxDatagramBytes
  decodes : decodeSealedHeader datagram = .ok header
  body : datagram.drop kSealedHeaderBytes = ciphertext
  path : peekType datagram = .ok header.type ∧ header.type.isSealed = true
  refused : ∀ pkt, decode datagram ≠ .ok pkt
  gate : Endpoint.gate datagram = .passed

theorem sealed_trip {protection : π} {header : SealedHeader} {plaintext ciphertext : Bytes}
    {space : PacketSpace} (isSealed : header.type.isSealed = true) (fits : header.number < 2 ^ 32)
    (small : plaintext.length ≤ kMaxSealedPayload)
    (done : PacketProtection.sealPacket protection space header.number (encodeSealedHeader header)
      plaintext = .ok ciphertext) :
    SealedTrip header ciphertext (encodeSealedHeader header ++ ciphertext) := by
  have body := SizedProtection.seal_length _ _ _ _ _ _ done
  have front := encodeSealedHeader_length header
  have size : (encodeSealedHeader header ++ ciphertext).length =
      kSealedHeaderBytes + plaintext.length + kPacketTagBytes := by
    rw [List.length_append, front, body]
    omega
  have limit : kSealedHeaderBytes + kMaxSealedPayload + kPacketTagBytes = kMaxDatagramBytes := by
    decide
  have typed := peekType_sealed header ciphertext
  have opens : ∃ read, decodeSealedHeader (encodeSealedHeader header ++ ciphertext) = .ok read := by
    unfold decodeSealedHeader
    rw [if_neg (by omega), if_neg (by omega), typed]
    dsimp only
    rw [if_pos isSealed]
    exact ⟨_, rfl⟩
  obtain ⟨read, opened⟩ := opens
  have same := decodeSealedHeader_append header ciphertext fits read opened
  refine ⟨by omega, by rw [opened, same], List.drop_left' front, ⟨typed, isSealed⟩, ?_, ?_⟩
  · intro pkt decoded
    unfold decode at decoded
    rw [typed] at decoded
    dsimp only at decoded
    rw [if_pos isSealed] at decoded
    split at decoded <;> cases decoded
  · have ours : (encodeSealedHeader header ++ ciphertext).head?.any (fun first =>
        first.toNat / 16 != kWireVersion) = false := by
      rw [encodeSealedHeader, List.cons_append]
      simp [versionAndType_nibble]
    unfold Endpoint.gate
    rw [if_neg (by rw [ours]; decide), if_neg (by omega)]

end Sealed

namespace Connection

variable {π : Type} [PacketProtection π] [Hmac]

/-- The numbered payloads fit into a sealed packet. -/
structure Fits (c : Connection π) : Prop where
  bestEffort : ∀ payload ∈ c.takenBe, payload.length ≤ kMaxSealedPayload
  reliable : ∀ payload ∈ c.taken, payload.length ≤ kMaxSealedPayload

theorem send_large {c : Connection π} {payload : Bytes}
    (large : kMaxSealedPayload < payload.length) (qos : QosClass) : (c.send qos payload).1 = c := by
  have limit : (if c.isSealing then kMaxSealedPayload else kMaxPayload) < payload.length := by
    have less : kMaxPayload ≤ kMaxSealedPayload := by decide
    split <;> omega
  by_cases closed : c.closed
  · rw [send, if_pos closed]
  · rw [send, if_neg closed, if_pos limit]

/-- Only `Send` numbers a payload. -/
theorem Moves.numbers {c : Connection π} {event : Event π} {book : Book}
    (moves : Moves c event book) : book.taken = c.taken ∧ book.takenBe = c.takenBe ∨
      ∃ qos payload, event = .send qos payload ∧
        (∀ other ∈ book.taken, other ∈ c.taken ∨ other = payload) ∧
        ∀ other ∈ book.takenBe, other ∈ c.takenBe ∨ other = payload := by
  cases moves with
  | numberedBestEffort payload isOpen room =>
      refine Or.inr ⟨.bestEffort, payload, rfl, fun _ old => Or.inl old, ?_⟩
      intro other listed
      rcases List.mem_append.mp listed with old | new
      · exact Or.inl old
      · exact Or.inr (List.mem_singleton.mp new)
  | numbered payload takes =>
      refine Or.inr ⟨.reliable, payload, rfl, ?_, fun _ old => Or.inl old⟩
      intro other listed
      rcases List.mem_append.mp listed with old | new
      · exact Or.inl old
      · exact Or.inr (List.mem_singleton.mp new)
  | _ => exact Or.inl ⟨rfl, rfl⟩

theorem step_fits {zero : Prop} {c : Connection π} (sound : c.ledger.Sound zero) (fits : c.Fits)
    (event : Event π) : (c.step event).Fits := by
  have moves := (step_moves sound event).numbers
  rcases moves with ⟨rel, be⟩ | ⟨qos, payload, rfl, rel, be⟩
  · have rel : (c.step event).taken = c.taken := rel
    have be : (c.step event).takenBe = c.takenBe := be
    exact ⟨be ▸ fits.bestEffort, rel ▸ fits.reliable⟩
  · by_cases large : kMaxSealedPayload < payload.length
    · show (c.send qos payload).1.Fits
      rw [send_large large]
      exact fits
    · constructor
      · intro other listed
        rcases be other listed with old | rfl
        · exact fits.bestEffort other old
        · omega
      · intro other listed
        rcases rel other listed with old | rfl
        · exact fits.reliable other old
        · omega

/-- What a connection has put on the wire passes the gate of an endpoint. -/
def PassesGates (c : Connection π) : Prop :=
  ∀ datagram ∈ c.transmitted, Endpoint.gate datagram = .passed

theorem passesGates_of_sound [SizedProtection π] {zero : Prop} {c : Connection π}
    (sound : c.ledger.Sound zero) (fits : c.Fits) : c.PassesGates := by
  intro datagram sent
  obtain ⟨type, seq, payload, ⟨pkt, carries, typed, counted, said⟩, numbered⟩ :=
    sound.wires datagram sent
  cases carries with
  | plain key _ body encoded seqFits timeFits => exact (plain_trip key encoded seqFits timeFits).gate
  | keyed protection header plaintext body isSealed number done =>
      have small : plaintext.length ≤ kMaxSealedPayload := by
        subst said
        subst typed
        cases form : header.type with
        | dataBestEffort =>
            rw [form] at numbered
            exact fits.bestEffort plaintext (List.mem_of_getElem? numbered.2)
        | dataReliable =>
            rw [form] at numbered
            exact fits.reliable plaintext (List.mem_of_getElem? numbered.2)
        | ack | close | keepalive | plainBestEffort | plainReliable =>
            rw [form] at isSealed
            cases isSealed
      exact (sealed_trip isSealed number small done).gate

/-- Whatever calls a connection takes, its datagrams pass. -/
theorem always_passesGates [SizedProtection π] (endpoint : EndpointPort) (params : OpenParams)
    (events : List (Event π)) : Run.Always step PassesGates (create endpoint params) events := by
  have kept : ∀ (c : Connection π) event, (c.ledger.Sound True ∧ c.Fits) →
      (c.step event).ledger.Sound True ∧ (c.step event).Fits := by
    rintro c event ⟨sound, fits⟩
    exact ⟨step_sound sound event (Or.inl trivial), step_fits sound fits event⟩
  apply Run.always_of_invariant step (fun _ _ => True) _ PassesGates (fun c event _ => kept c event)
    (fun c inv => passesGates_of_sound inv.1 inv.2) events
  · exact Run.meets_of_forall step _ (fun _ _ => trivial) events _
  · refine ⟨create_sound endpoint params, ?_, ?_⟩
    · exact fun _ absent => absurd absent List.not_mem_nil
    · exact fun _ absent => absurd absent List.not_mem_nil

end Connection

/-- The laws of the plain, the sealed and the version negotiation datagrams, and of all those that
a connection sends. -/
structure DatagramLaws (π : Type) [PacketProtection π] [Hmac] : Prop where
  plain : ∀ (key : PeerKey) (pkt : WirePacket), pkt.version = kWireVersion →
    pkt.type.isSealed = false → pkt.payload.length ≤ kMaxPayload → pkt.seq < 2 ^ 32 →
    pkt.timestampMs < 2 ^ 32 →
    ∃ body, encode pkt = .ok body ∧ PlainTrip key pkt (HmacBinder.bind key body)
  keyed : ∀ (protection : π) (space : PacketSpace) (header : SealedHeader)
    (plaintext ciphertext : Bytes), header.type.isSealed = true → header.number < 2 ^ 32 →
    plaintext.length ≤ kMaxSealedPayload →
    PacketProtection.sealPacket protection space header.number (encodeSealedHeader header)
      plaintext = .ok ciphertext →
    SealedTrip header ciphertext (encodeSealedHeader header ++ ciphertext)
  emitted : ∀ (endpoint : EndpointPort) (params : OpenParams) (events : List (Connection.Event π)),
    Run.Always Connection.step Connection.PassesGates (Connection.create endpoint params) events
  negotiation : ∀ received versions : Bytes, 1 ≤ versions.length → versions.length ≤ 255 →
    decodeVersionNegotiation (encodeVersionNegotiation received versions) =
      .ok ⟨echoOf received, versions⟩

theorem datagram_laws (π : Type) [PacketProtection π] [SizedProtection π] [Hmac] :
    DatagramLaws π where
  plain key pkt version isPlain small seqFits timeFits := by
    obtain ⟨body, encoded⟩ := encode_plain version isPlain small
    exact ⟨body, encoded, plain_trip key encoded seqFits timeFits⟩
  keyed _ _ _ _ _ isSealed fits small done := sealed_trip isSealed fits small done
  emitted := Connection.always_passesGates
  negotiation := decodeVersionNegotiation_encode

namespace TagProtection

instance : SizedProtection TagProtection where
  seal_length protection space number header plaintext body done := by
    cases done
    rw [List.length_append, tag, List.length_replicate]

end TagProtection

theorem datagram_laws_tagged : DatagramLaws TagProtection := datagram_laws TagProtection

end Amp.Adp
