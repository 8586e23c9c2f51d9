import Amp.L1.Types
import Amp.Lib.LittleEndian
import Mathlib.Tactic.NormNum

set_option autoImplicit false

/- Payloads of a carrier-backed link and of its reliable lane (AmpAdpCarrier.cpp). -/
namespace Amp

open Adp (Bytes)

inductive AmpAdpPayloadKind where
  | msh
  | sealedFrame
  | mshChunk
  | laneData
  | laneAck
  | sealedReliable
  deriving DecidableEq, Repr

def AmpAdpPayloadKind.code : AmpAdpPayloadKind → UInt8
  | .msh => 0
  | .sealedFrame => 1
  | .mshChunk => 2
  | .laneData => 3
  | .laneAck => 4
  | .sealedReliable => 5

def kCarrierSealedHeaderBytes : Nat := 1 + 4
def kCarrierLaneHeaderBytes : Nat := 1 + 4

structure LaneAckFields where
  cumulative : Nat := 0
  selective : Nat := 0
  deriving DecidableEq, Repr

structure CarrierSealedHeader where
  reliable : Bool := false
  number : Nat := 0
  deriving DecidableEq, Repr

namespace AmpAdpCarrier

def appendU32 (value : Nat) : Bytes := LittleEndian.encode 4 value

def readU32 (wire : Bytes) (offset : Nat) : Except String Nat :=
  if wire.length < offset + 4 then .error "amp carrier: truncated u32"
  else .ok (LittleEndian.decode ((wire.drop offset).take 4))

def encodeSealedHeader (reliable : Bool) (number : Nat) : Bytes :=
  (if reliable then AmpAdpPayloadKind.sealedReliable.code
    else AmpAdpPayloadKind.sealedFrame.code) :: appendU32 number

def decodeSealedHeader (payload : Bytes) : Except String CarrierSealedHeader :=
  if payload.length < kCarrierSealedHeaderBytes + Adp.kPacketTagBytes then
    .error "amp carrier: truncated sealed packet"
  else
    let kind := payload.headD 0
    if kind ≠ AmpAdpPayloadKind.sealedFrame.code ∧
        kind ≠ AmpAdpPayloadKind.sealedReliable.code then
      .error "amp carrier: not a sealed packet"
    else match readU32 payload 1 with
      | .error message => .error message
      | .ok number => .ok ⟨kind == AmpAdpPayloadKind.sealedReliable.code, number⟩

def encodeLaneData (seq : Nat) (inner : Bytes) : Bytes :=
  AmpAdpPayloadKind.laneData.code :: (appendU32 seq ++ inner)

def decodeLaneData (payload : Bytes) : Except String (Nat × Bytes) :=
  if payload.head? ≠ some AmpAdpPayloadKind.laneData.code then
    .error "amp carrier: not a lane data payload"
  else match readU32 payload 1 with
    | .error message => .error message
    | .ok seq =>
        if seq = 0 ∨ payload.length ≤ 5 then .error "amp carrier: bad lane data"
        else .ok (seq, payload.drop 5)

def encodeLaneAck (ack : LaneAckFields) : Bytes :=
  AmpAdpPayloadKind.laneAck.code ::
    (appendU32 ack.cumulative ++ (appendU32 ack.selective ++ appendU32 (ack.selective >>> 32)))

def decodeLaneAck (payload : Bytes) : Except String LaneAckFields :=
  if payload.head? ≠ some AmpAdpPayloadKind.laneAck.code then
    .error "amp carrier: not a lane ack payload"
  else match readU32 payload 1, readU32 payload 5, readU32 payload 9 with
    | .ok cumulative, .ok low, .ok high => .ok ⟨cumulative, low ||| high <<< 32⟩
    | _, _, _ => .error "amp carrier: truncated lane ack"

@[simp] theorem appendU32_length (value : Nat) : (appendU32 value).length = 4 :=
  LittleEndian.encode_length 4 value

/-- A field written at an offset is the field read there, in 32 bits. -/
theorem readU32_at (front rest : Bytes) (value : Nat) :
    readU32 (front ++ (appendU32 value ++ rest)) front.length = .ok (value % 2 ^ 32) := by
  have enough : ¬ (front ++ (appendU32 value ++ rest)).length < front.length + 4 := by
    simp only [List.length_append, appendU32_length]
    omega
  have field : ((front ++ (appendU32 value ++ rest)).drop front.length).take 4 =
      appendU32 value := by
    rw [List.drop_left, ← appendU32_length value, List.take_left]
  rw [readU32, if_neg enough, field, appendU32, LittleEndian.decode_encode]
  norm_num

theorem encodeSealedHeader_length (reliable : Bool) (number : Nat) :
    (encodeSealedHeader reliable number).length = kCarrierSealedHeaderBytes := by
  rw [encodeSealedHeader, List.length_cons, appendU32_length]
  rfl

/-- A sealed packet is read back under its own class and number, with its body. -/
theorem decodeSealedHeader_encode (reliable : Bool) (number : Nat) (body : Bytes)
    (fits : number < 2 ^ 32) (tagged : Adp.kPacketTagBytes ≤ body.length) :
    decodeSealedHeader (encodeSealedHeader reliable number ++ body) = .ok ⟨reliable, number⟩ := by
  have size := encodeSealedHeader_length reliable number
  have enough : ¬ (encodeSealedHeader reliable number ++ body).length <
      kCarrierSealedHeaderBytes + Adp.kPacketTagBytes := by
    rw [List.length_append, size]
    omega
  have read : readU32 (encodeSealedHeader reliable number ++ body) 1 = .ok number := by
    have field := readU32_at [if reliable then AmpAdpPayloadKind.sealedReliable.code
      else AmpAdpPayloadKind.sealedFrame.code] body number
    rw [Nat.mod_eq_of_lt fits] at field
    exact field
  rw [decodeSealedHeader, if_neg enough, read]
  cases reliable with
  | false =>
      simp [encodeSealedHeader]
      decide
  | true => simp [encodeSealedHeader]

/-- What is read from a lane data payload is what was put in it. -/
theorem decodeLaneData_encode (seq : Nat) (inner : Bytes) (fits : seq < 2 ^ 32)
    (read : Nat × Bytes) (ok : decodeLaneData (encodeLaneData seq inner) = .ok read) :
    read = (seq, inner) := by
  have number : readU32 (encodeLaneData seq inner) 1 = .ok (seq % 2 ^ 32) :=
    readU32_at [AmpAdpPayloadKind.laneData.code] inner seq
  have rest : (encodeLaneData seq inner).drop 5 = inner := by
    rw [encodeLaneData, List.drop_succ_cons, ← appendU32_length seq, List.drop_left]
  rw [decodeLaneData, number, rest, Nat.mod_eq_of_lt fits] at ok
  split_ifs at ok with kind
  dsimp only at ok
  split_ifs at ok
  exact (Except.ok.inj ok).symm

/-- The two halves of the selective bits make the whole again. -/
theorem selective_halves (bits : Nat) : bits % 2 ^ 32 ||| (bits >>> 32) <<< 32 = bits := by
  rw [Nat.or_comm, ← Nat.shiftLeft_add_eq_or_of_lt (Nat.mod_lt _ (by decide)),
    Nat.shiftRight_eq_div_pow, Nat.shiftLeft_eq, Nat.mul_comm]
  exact Nat.div_add_mod bits (2 ^ 32)

theorem decodeLaneAck_encode (ack : LaneAckFields) (cumulative : ack.cumulative < 2 ^ 32)
    (selective : ack.selective < 2 ^ 64) : decodeLaneAck (encodeLaneAck ack) = .ok ack := by
  have whole : encodeLaneAck ack =
      [AmpAdpPayloadKind.laneAck.code] ++ (appendU32 ack.cumulative ++
        (appendU32 ack.selective ++ (appendU32 (ack.selective >>> 32) ++ []))) := by
    simp [encodeLaneAck]
  have first : readU32 (encodeLaneAck ack) 1 = .ok (ack.cumulative % 2 ^ 32) := by
    rw [whole]
    exact readU32_at [AmpAdpPayloadKind.laneAck.code] _ _
  have second : readU32 (encodeLaneAck ack) 5 = .ok (ack.selective % 2 ^ 32) := by
    have read := readU32_at ([AmpAdpPayloadKind.laneAck.code] ++ appendU32 ack.cumulative)
      (appendU32 (ack.selective >>> 32) ++ []) ack.selective
    rw [whole]
    simpa only [List.append_assoc, List.length_append, appendU32_length, List.length_singleton]
      using read
  have third : readU32 (encodeLaneAck ack) 9 = .ok ((ack.selective >>> 32) % 2 ^ 32) := by
    have read := readU32_at ([AmpAdpPayloadKind.laneAck.code] ++
      (appendU32 ack.cumulative ++ appendU32 ack.selective)) [] (ack.selective >>> 32)
    rw [whole]
    simpa only [List.append_assoc, List.length_append, appendU32_length, List.length_singleton]
      using read
  have high : (ack.selective >>> 32) % 2 ^ 32 = ack.selective >>> 32 := by
    rw [Nat.shiftRight_eq_div_pow]
    exact Nat.mod_eq_of_lt (by omega)
  rw [decodeLaneAck, first, second, third, high, if_neg (by simp [encodeLaneAck])]
  dsimp only
  rw [selective_halves, Nat.mod_eq_of_lt cumulative]

end AmpAdpCarrier

end Amp
