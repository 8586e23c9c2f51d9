import Amp.L2.SessionKeys

set_option autoImplicit false

/- Transparent stand-ins for the two primitives a session is given, with which its
laws can be met and its runs evaluated. -/
namespace Amp

open Adp (Bytes)

namespace Transparent

/-- A byte string that says where it ends. -/
def frame : Bytes → Bytes
  | [] => [0]
  | byte :: rest => 1 :: byte :: frame rest

theorem frame_append_injective (left : Bytes) : ∀ {right leftRest rightRest : Bytes},
    frame left ++ leftRest = frame right ++ rightRest → left = right ∧ leftRest = rightRest := by
  induction left with
  | nil =>
      intro right leftRest rightRest same
      cases right with
      | nil => exact ⟨rfl, (List.cons.inj same).2⟩
      | cons byte rest => exact absurd (List.cons.inj same).1 (by decide)
  | cons byte rest ih =>
      intro right leftRest rightRest same
      cases right with
      | nil => exact absurd (List.cons.inj same).1 (by decide)
      | cons other others =>
          simp only [frame, List.cons_append, List.cons.injEq, true_and] at same
          obtain ⟨rfl, tails⟩ := same
          obtain ⟨rfl, rests⟩ := ih tails
          exact ⟨rfl, rests⟩

def cover (key nonce aad : Bytes) : Bytes :=
  List.replicate Adp.kPacketTagBytes 0 ++ (frame key ++ (frame nonce ++ frame aad))

theorem cover_append_injective {key nonce aad otherKey otherNonce other rest otherRest : Bytes}
    (same : cover key nonce aad ++ rest = cover otherKey otherNonce other ++ otherRest) :
    key = otherKey ∧ nonce = otherNonce ∧ aad = other := by
  simp only [cover, List.append_assoc, List.append_cancel_left_eq] at same
  obtain ⟨keys, same⟩ := frame_append_injective key same
  obtain ⟨nonces, same⟩ := frame_append_injective nonce same
  exact ⟨keys, nonces, (frame_append_injective aad same).1⟩

instance : Aead where
  encrypt key nonce aad plaintext := some (cover key nonce aad ++ plaintext)
  decrypt key nonce aad ciphertext :=
    if (cover key nonce aad).isPrefixOf ciphertext then
      some (ciphertext.drop (cover key nonce aad).length)
    else none

theorem decrypt_foreign {key nonce aad plaintext otherKey otherNonce other : Bytes}
    (differs : ¬ (otherKey = key ∧ otherNonce = nonce ∧ other = aad)) :
    Aead.decrypt otherKey otherNonce other (cover key nonce aad ++ plaintext) = none := by
  have apart : ¬ cover otherKey otherNonce other <+: cover key nonce aad ++ plaintext := by
    rintro ⟨rest, same⟩
    exact differs (cover_append_injective same)
  simp [Aead.decrypt, apart]

instance : LawfulAead where
  decrypt_encrypt made := by
    cases made
    simp [Aead.decrypt]
  decrypt_foreign made := by
    intro otherKey otherNonce other differs
    cases made
    exact decrypt_foreign differs
  tagged made := by
    cases made
    simp [cover]

/-- The info string, then the extracted key, cut to length. -/
def stretch (outLen : Nat) (info : String) (prk : Bytes) : Bytes :=
  (info.toList.map (fun letter : Char => UInt8.ofNat letter.toNat) ++
    (prk ++ List.replicate outLen 0)).take outLen

@[simp] theorem stretch_length (outLen : Nat) (info : String) (prk : Bytes) :
    (stretch outLen info prk).length = outLen := by
  simp only [stretch, List.length_take, List.length_append, List.length_replicate]
  omega

instance : Hkdf where
  extract _ ikm := some ikm
  expand outLen info prk :=
    if outLen ≤ kHkdfBytesMax then some (stretch outLen info prk) else none

theorem expand_eq {outLen : Nat} (fits : outLen ≤ kHkdfBytesMax) (info : String) (prk : Bytes) :
    Hkdf.expand outLen info prk = some (stretch outLen info prk) := if_pos fits

instance : LawfulHkdf where
  extracts _ _ := ⟨_, rfl⟩
  expands outLen info prk fits := ⟨_, expand_eq fits info prk, stretch_length outLen info prk⟩

end Transparent

end Amp
