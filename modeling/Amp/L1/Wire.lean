import Amp.L1.Types
import Amp.Lib.LittleEndian

set_option autoImplicit false

/- The datagram layouts (WireCodec.cpp) and the HMAC that ends a plain one
(HmacBinder.cpp). -/
namespace Amp.Adp

/-- libsodium's HMAC-SHA-256, keyed by 32 bytes and 32 bytes long. -/
class Hmac where
  hmacSha256 : Bytes → Bytes → Bytes
  hmacSha256_length : ∀ key input, (hmacSha256 key input).length = 32

structure SealedHeader where
  type : PacketType := .dataBestEffort
  assoc : AssocId := {}
  number : Nat := 0
  deriving DecidableEq

namespace WireCodec

def writeU32Le (value : Nat) : Bytes := LittleEndian.encode 4 value

def readU32Le (bytes : Bytes) : Nat := LittleEndian.decode (bytes.take 4)

def versionAndType (type : PacketType) : UInt8 :=
  UInt8.ofNat (kWireVersion * 16 + type.code)

def encode (pkt : WirePacket) : Except String Bytes :=
  if pkt.version ≠ kWireVersion then .error "adp: bad version"
  else if pkt.type.isSealed then .error "adp: a sealed packet has no plain encoding"
  else if kMaxPayload < pkt.payload.length then .error "adp: payload too large"
  else .ok (versionAndType pkt.type :: (pkt.assoc.bytes ++ (writeU32Le pkt.seq ++
    (writeU32Le pkt.timestampMs ++ pkt.payload))))

def peekType (datagram : Bytes) : Except String PacketType :=
  match datagram with
  | [] => .error "adp: empty datagram"
  | first :: _ =>
      if first.toNat / 16 ≠ kWireVersion then .error "adp: unknown version"
      else match PacketType.ofCode (first.toNat % 16) with
        | none => .error "adp: bad packet type"
        | some type => .ok type

/-- The association id, the same place in both layouts; all zero when the
datagram is too short to hold one. -/
def peekAssoc (datagram : Bytes) : AssocId :=
  if long : 1 + kAssocIdBytes ≤ datagram.length then
    ⟨(datagram.drop 1).take kAssocIdBytes, by
      rw [List.length_take, List.length_drop]
      omega⟩
  else {}

def decode (datagram : Bytes) : Except String WirePacket :=
  if datagram.length < kHeaderBytes + kHmacBytes then .error "adp: truncated datagram"
  else match peekType datagram with
    | .error message => .error message
    | .ok type =>
        if type.isSealed then .error "adp: a sealed packet has no plain decoding"
        else if kMaxDatagramBytes < datagram.length then .error "adp: datagram too large"
        else .ok {
          version := kWireVersion
          type := type
          assoc := peekAssoc datagram
          seq := readU32Le (datagram.drop (1 + kAssocIdBytes))
          timestampMs := readU32Le (datagram.drop (1 + kAssocIdBytes + 4))
          payload := (datagram.drop kHeaderBytes).take
            (datagram.length - kHeaderBytes - kHmacBytes) }

def encodeSealedHeader (header : SealedHeader) : Bytes :=
  versionAndType header.type :: (header.assoc.bytes ++ writeU32Le header.number)

def decodeSealedHeader (datagram : Bytes) : Except String SealedHeader :=
  if datagram.length < kSealedHeaderBytes + kPacketTagBytes then
    .error "adp: truncated sealed datagram"
  else if kMaxDatagramBytes < datagram.length then .error "adp: datagram too large"
  else match peekType datagram with
    | .error message => .error message
    | .ok type =>
        if type.isSealed then
          .ok ⟨type, peekAssoc datagram, readU32Le (datagram.drop (1 + kAssocIdBytes))⟩
        else .error "adp: not a sealed packet"

theorem peekType_versionAndType (type : PacketType) (rest : Bytes) :
    peekType (versionAndType type :: rest) = .ok type := by
  cases type <;> rfl

theorem peekAssoc_append (first : UInt8) (id : AssocId) (rest : Bytes) :
    peekAssoc (first :: (id.bytes ++ rest)) = id := by
  have size := id.size
  have long : 1 + kAssocIdBytes ≤ (first :: (id.bytes ++ rest)).length := by
    simp only [List.length_cons, List.length_append, size]
    omega
  obtain ⟨bytes, size⟩ := id
  simp only [peekAssoc, long, ↓reduceDIte, AssocId.mk.injEq, List.drop_succ_cons, List.drop_zero]
  rw [← size, List.take_left]

theorem readU32Le_append (value : Nat) (rest : Bytes) (fits : value < 2 ^ 32) :
    readU32Le (writeU32Le value ++ rest) = value := by
  have width : (writeU32Le value).length = 4 := LittleEndian.encode_length 4 value
  rw [readU32Le, ← width, List.take_left, writeU32Le,
    LittleEndian.decode_encode_of_lt 4 value (by simpa using fits)]

theorem readU32Le_lt (bytes : Bytes) : readU32Le bytes < 2 ^ 32 := by
  have bound := LittleEndian.decode_lt (bytes.take 4)
  have size : (bytes.take 4).length ≤ 4 := List.length_take_le 4 bytes
  have growth : 256 ^ (bytes.take 4).length ≤ 256 ^ 4 := Nat.pow_le_pow_right (by decide) size
  exact Nat.lt_of_lt_of_le bound growth

theorem decode_seq_lt (datagram : Bytes) (pkt : WirePacket) (ok : decode datagram = .ok pkt) :
    pkt.seq < 2 ^ 32 := by
  unfold decode at ok
  split at ok
  · cases ok
  · split at ok
    · cases ok
    · split_ifs at ok
      cases ok
      exact readU32Le_lt _

theorem decodeSealedHeader_number_lt (datagram : Bytes) (header : SealedHeader)
    (ok : decodeSealedHeader datagram = .ok header) : header.number < 2 ^ 32 := by
  unfold decodeSealedHeader at ok
  split_ifs at ok
  split at ok
  · cases ok
  · split_ifs at ok
    cases ok
    exact readU32Le_lt _

theorem encode_layout (pkt : WirePacket) (body : Bytes) (ok : encode pkt = .ok body) :
    pkt.version = kWireVersion ∧ pkt.type.isSealed = false ∧
      pkt.payload.length ≤ kMaxPayload ∧
      body = versionAndType pkt.type :: (pkt.assoc.bytes ++ (writeU32Le pkt.seq ++
        (writeU32Le pkt.timestampMs ++ pkt.payload))) := by
  unfold encode at ok
  split_ifs at ok with version isSealed long
  refine ⟨by simpa using version, by simpa using isSealed, by omega, ?_⟩
  exact (Except.ok.inj ok).symm

end WireCodec

namespace HmacBinder

variable [Hmac]

def computeTag (key : PeerKey) (input : Bytes) : Bytes :=
  (Hmac.hmacSha256 key input).take kHmacBytes

/-- `HmacBinder::Seal`: the bytes, then their tag. -/
def bind (key : PeerKey) (headerAndPayload : Bytes) : Bytes :=
  headerAndPayload ++ computeTag key headerAndPayload

def verify (key : PeerKey) (datagram : Bytes) : Bool :=
  if datagram.length < kHmacBytes then false
  else
    let input := datagram.take (datagram.length - kHmacBytes)
    computeTag key input == datagram.drop (datagram.length - kHmacBytes)

@[simp] theorem computeTag_length (key : PeerKey) (input : Bytes) :
    (computeTag key input).length = kHmacBytes := by
  rw [computeTag, List.length_take, Hmac.hmacSha256_length]
  rfl

@[simp] theorem bind_length (key : PeerKey) (body : Bytes) :
    (bind key body).length = body.length + kHmacBytes := by
  rw [bind, List.length_append, computeTag_length]

theorem verify_bind (key : PeerKey) (body : Bytes) : verify key (bind key body) = true := by
  have enough : ¬ (bind key body).length < kHmacBytes := by
    rw [bind_length]
    omega
  have cut : (bind key body).length - kHmacBytes = body.length := by
    rw [bind_length, Nat.add_sub_cancel]
  have input : (bind key body).take body.length = body := List.take_left
  have tag : (bind key body).drop body.length = computeTag key body := List.drop_left
  simp only [verify, enough, ↓reduceIte, cut, input, tag, beq_self_eq_true]

end HmacBinder

open WireCodec

/-- An encoded packet followed by any tag, field by field. -/
def plainLayout (pkt : WirePacket) (tag : Bytes) : Bytes :=
  versionAndType pkt.type :: (pkt.assoc.bytes ++ (writeU32Le pkt.seq ++
    (writeU32Le pkt.timestampMs ++ (pkt.payload ++ tag))))

theorem encode_append (pkt : WirePacket) (body tag : Bytes) (ok : encode pkt = .ok body) :
    body ++ tag = plainLayout pkt tag := by
  rw [(encode_layout pkt body ok).2.2.2]
  simp only [plainLayout, List.cons_append, List.append_assoc]

theorem plainLayout_length (pkt : WirePacket) (tag : Bytes) :
    (plainLayout pkt tag).length = kHeaderBytes + pkt.payload.length + tag.length := by
  simp only [plainLayout, List.length_cons, List.length_append, pkt.assoc.size, writeU32Le,
    LittleEndian.encode_length, kHeaderBytes]
  omega

theorem plainLayout_fields (pkt : WirePacket) (tag : Bytes) :
    (plainLayout pkt tag).drop (1 + kAssocIdBytes) =
        writeU32Le pkt.seq ++ (writeU32Le pkt.timestampMs ++ (pkt.payload ++ tag)) ∧
      (plainLayout pkt tag).drop (1 + kAssocIdBytes + 4) =
        writeU32Le pkt.timestampMs ++ (pkt.payload ++ tag) ∧
      (plainLayout pkt tag).drop kHeaderBytes = pkt.payload ++ tag := by
  have seqSize : (writeU32Le pkt.seq).length = 4 := LittleEndian.encode_length 4 _
  have timeSize : (writeU32Le pkt.timestampMs).length = 4 := LittleEndian.encode_length 4 _
  have seqAt : (plainLayout pkt tag).drop (1 + kAssocIdBytes) =
      writeU32Le pkt.seq ++ (writeU32Le pkt.timestampMs ++ (pkt.payload ++ tag)) := by
    rw [plainLayout, Nat.add_comm, List.drop_succ_cons, ← pkt.assoc.size, List.drop_left]
  have timeAt : (plainLayout pkt tag).drop (1 + kAssocIdBytes + 4) =
      writeU32Le pkt.timestampMs ++ (pkt.payload ++ tag) := by
    rw [← List.drop_drop, seqAt, ← seqSize, List.drop_left]
  refine ⟨seqAt, timeAt, ?_⟩
  rw [show kHeaderBytes = 1 + kAssocIdBytes + 4 + 4 from rfl, ← List.drop_drop, timeAt,
    ← timeSize, List.drop_left]

/-- A plain datagram decodes to the packet it was made from, whatever key its
tag was computed with. -/
theorem decode_bind [Hmac] (key : PeerKey) (pkt : WirePacket) (body : Bytes)
    (ok : encode pkt = .ok body) (seqFits : pkt.seq < 2 ^ 32)
    (timeFits : pkt.timestampMs < 2 ^ 32) :
    decode (HmacBinder.bind key body) = .ok pkt := by
  obtain ⟨version, plain, short, _⟩ := encode_layout pkt body ok
  rw [HmacBinder.bind, encode_append pkt body _ ok]
  have tagSize := HmacBinder.computeTag_length key body
  generalize HmacBinder.computeTag key body = tag at tagSize ⊢
  obtain ⟨seqAt, timeAt, payloadAt⟩ := plainLayout_fields pkt tag
  have size := plainLayout_length pkt tag
  have limit : kHeaderBytes + kMaxPayload + kHmacBytes = kMaxDatagramBytes := by decide
  have enough : ¬ (plainLayout pkt tag).length < kHeaderBytes + kHmacBytes := by omega
  have notLarge : ¬ kMaxDatagramBytes < (plainLayout pkt tag).length := by omega
  have payloadSize : (plainLayout pkt tag).length - kHeaderBytes - kHmacBytes =
      pkt.payload.length := by omega
  have typed : peekType (plainLayout pkt tag) = .ok pkt.type := peekType_versionAndType _ _
  have ident : peekAssoc (plainLayout pkt tag) = pkt.assoc := peekAssoc_append _ _ _
  simp only [decode, enough, ↓reduceIte, typed, plain, notLarge, ident, seqAt, timeAt, payloadAt,
    payloadSize, readU32Le_append _ _ seqFits, readU32Le_append _ _ timeFits, List.take_left,
    Bool.false_eq_true]
  rw [← version]

theorem peekType_bind [Hmac] (key : PeerKey) (pkt : WirePacket) (body : Bytes)
    (ok : encode pkt = .ok body) :
    peekType (HmacBinder.bind key body) = .ok pkt.type := by
  rw [HmacBinder.bind, encode_append pkt body _ ok]
  exact peekType_versionAndType _ _

theorem encodeSealedHeader_length (header : SealedHeader) :
    (encodeSealedHeader header).length = kSealedHeaderBytes := by
  rw [encodeSealedHeader, List.length_cons, List.length_append, header.assoc.size, writeU32Le,
    LittleEndian.encode_length]
  rfl

theorem peekType_sealed (header : SealedHeader) (body : Bytes) :
    peekType (encodeSealedHeader header ++ body) = .ok header.type := by
  rw [encodeSealedHeader, List.cons_append]
  exact peekType_versionAndType _ _

/-- The clear header of a sealed datagram, when its size lets it be read at all. -/
theorem decodeSealedHeader_append (header : SealedHeader) (body : Bytes)
    (fits : header.number < 2 ^ 32) (read : SealedHeader)
    (ok : decodeSealedHeader (encodeSealedHeader header ++ body) = .ok read) :
    read = header := by
  have ident : peekAssoc (encodeSealedHeader header ++ body) = header.assoc := by
    rw [encodeSealedHeader, List.cons_append, List.append_assoc]
    exact peekAssoc_append _ _ _
  have number : readU32Le ((encodeSealedHeader header ++ body).drop (1 + kAssocIdBytes)) =
      header.number := by
    rw [encodeSealedHeader, List.cons_append, List.append_assoc, Nat.add_comm,
      List.drop_succ_cons, ← header.assoc.size, List.drop_left]
    exact readU32Le_append _ _ fits
  unfold decodeSealedHeader at ok
  rw [peekType_sealed, ident, number] at ok
  split_ifs at ok
  simp only at ok
  split_ifs at ok
  exact (Except.ok.inj ok).symm

end Amp.Adp
