import Mathlib.Tactic.NormNum

set_option autoImplicit false

/- Little-endian byte strings of a fixed width, and the numbers they carry. -/
namespace LittleEndian

/-- The low `width` bytes of a value, least significant first. -/
def encode : Nat → Nat → List UInt8
  | 0, _ => []
  | width + 1, value => UInt8.ofNat value :: encode width (value / 256)

def decode : List UInt8 → Nat
  | [] => 0
  | byte :: rest => byte.toNat + 256 * decode rest

@[simp] theorem encode_length (width value : Nat) : (encode width value).length = width := by
  induction width generalizing value with
  | zero => rfl
  | succ width ih => simp only [encode, List.length_cons, ih]

/-- Bytes above the width are dropped, as by a narrowing conversion. -/
theorem decode_encode (width value : Nat) :
    decode (encode width value) = value % 256 ^ width := by
  induction width generalizing value with
  | zero => simp [encode, decode, Nat.mod_one]
  | succ width ih =>
      have low : (UInt8.ofNat value).toNat = value % 256 := UInt8.toNat_ofNat'
      rw [encode, decode, ih, low, Nat.pow_succ, Nat.mul_comm (256 ^ width) 256,
        Nat.mod_mul]

theorem decode_encode_of_lt (width value : Nat) (fits : value < 256 ^ width) :
    decode (encode width value) = value := by
  rw [decode_encode, Nat.mod_eq_of_lt fits]

theorem encode_injective (width left right : Nat) (fitsLeft : left < 256 ^ width)
    (fitsRight : right < 256 ^ width) (same : encode width left = encode width right) :
    left = right := by
  have values := congrArg decode same
  rwa [decode_encode_of_lt width left fitsLeft,
    decode_encode_of_lt width right fitsRight] at values

theorem decode_lt (bytes : List UInt8) : decode bytes < 256 ^ bytes.length := by
  induction bytes with
  | nil => simp [decode]
  | cons byte rest ih =>
      have low := byte.toNat_lt
      simp only [decode, List.length_cons, Nat.pow_succ]
      omega

/-- What is read of a byte string writes it again. -/
theorem encode_decode (bytes : List UInt8) : encode bytes.length (decode bytes) = bytes := by
  induction bytes with
  | nil => rfl
  | cons byte rest ih =>
      have low := byte.toNat_lt
      have quotient : (byte.toNat + 256 * decode rest) / 256 = decode rest := by omega
      have front : UInt8.ofNat (byte.toNat + 256 * decode rest) = byte := by
        apply UInt8.toNat_inj.mp
        rw [UInt8.toNat_ofNat']
        omega
      rw [decode, List.length_cons, encode, front, quotient, ih]

end LittleEndian
