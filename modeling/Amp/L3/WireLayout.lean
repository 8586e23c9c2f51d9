import Amp.L3.ChannelWire
import Amp.Lib.Reader

set_option autoImplicit false

/- Which bytes are a frame: the fields of each frame type, one after the other, and what
becomes of them when they are decoded and encoded again. -/
namespace Amp

open Adp (Bytes)

theorem ChannelClass.code_ofCode (code : UInt8) : (ChannelClass.ofCode code).code = code := by
  unfold ChannelClass.ofCode
  split
  · rfl
  · rename_i known
    have small := code.toNat_lt
    have same : code = UInt8.ofNat code.toNat := UInt8.ofNat_toNat.symm
    generalize code.toNat = value at known same
    have cases : value = 0 ∨ value = 1 ∨ value = 2 ∨ value = 3 ∨ value = 4 := by omega
    rcases cases with rfl | rfl | rfl | rfl | rfl
    all_goals
      rw [same]
      rfl

namespace ChannelWire

/-- A length and the text of that length. -/
def lenUtf8 (text : Bytes) : Bytes := appendU32 text.length ++ text

/-- The fields of a body, one after the other, with nothing after them. -/
inductive Layout : ChannelBody → Bytes → Prop where
  | openFrame {protocolId : Bytes} {cls : ChannelClass} {flags maxMessageBytes : Nat}
      (short : protocolId.length < 2 ^ 32) (flags16 : flags < 2 ^ 16)
      (limit32 : maxMessageBytes < 2 ^ 32) :
      Layout (.openFrame protocolId cls flags maxMessageBytes)
        (lenUtf8 protocolId ++ cls.code :: (appendU16 flags ++ appendU32 maxMessageBytes))
  /-- An Open that leaves its limit to its peer. -/
  | openDefault {protocolId : Bytes} {cls : ChannelClass} {flags : Nat}
      (short : protocolId.length < 2 ^ 32) (flags16 : flags < 2 ^ 16) :
      Layout (.openFrame protocolId cls flags 0) (lenUtf8 protocolId ++ cls.code :: appendU16 flags)
  | openAck {result : UInt8} : Layout (.openAck result) [result]
  | data {payload : Bytes} : Layout (.data payload) payload
  | close {reason : Bytes} (short : reason.length < 2 ^ 32) : Layout (.close reason) (lenUtf8 reason)
  | closeBare : Layout (.close []) []
  | reset {code : UInt32} : Layout (.reset code) (appendU32 code.toNat)
  | frag {frag : ChannelFragBody} (fits : Fits (.frag frag)) : Layout (.frag frag) (encodeFrag frag)

section Reading

theorem exact_readField (width : Nat) (message : String) :
    Reader.Exact (readField width message) (LittleEndian.encode width)
      fun value => value < 256 ^ width := by
  constructor
  · intro wire rest value read
    unfold readField at read
    split at read
    · cases read
    · rename_i enough
      cases read
      have size : (wire.take width).length = width := by
        rw [List.length_take]
        omega
      have again := LittleEndian.encode_decode (wire.take width)
      have bound := LittleEndian.decode_lt (wire.take width)
      rw [size] at again bound
      exact ⟨bound, by rw [again, List.take_append_drop]⟩
  · exact fun {value rest} fits => readField_append width message value rest fits

theorem exact_readU16 : Reader.Exact readU16 appendU16 fun value => value < 2 ^ 16 :=
  exact_readField 2 _

theorem exact_readU32 : Reader.Exact readU32 appendU32 fun value => value < 2 ^ 32 :=
  exact_readField 4 _

theorem exact_readU64 : Reader.Exact readU64 appendU64 fun value => value < 2 ^ 64 :=
  exact_readField 8 _

theorem exact_decodeLenUtf8Le :
    Reader.Exact decodeLenUtf8Le lenUtf8 fun text => text.length < 2 ^ 32 := by
  constructor
  · intro wire rest text read
    obtain ⟨length, after, bound, layout, read⟩ := exact_readU32.bind_iff.mp read
    by_cases short : after.length < length
    · simp [short, bind, Except.bind, throw, throwThe, MonadExceptOf.throw] at read
    · simp only [short, ↓reduceIte, pure, Except.pure, Except.ok.injEq, Prod.mk.injEq] at read
      obtain ⟨rfl, rfl⟩ := read
      have size : (after.take length).length = length := by
        rw [List.length_take]
        omega
      refine ⟨by rw [size]; exact bound, ?_⟩
      rw [lenUtf8, size, List.append_assoc, List.take_append_drop]
      exact layout
  · intro text rest short
    exact decodeLenUtf8Le_append text rest short

theorem expectEmpty_iff {wire : Bytes} : expectEmpty wire = .ok () ↔ wire = [] := by
  cases wire with
  | nil => exact iff_of_true rfl rfl
  | cons byte rest => exact iff_of_false nofun (List.cons_ne_nil byte rest)

end Reading

section Accepted

variable {wire : Bytes} {body : ChannelBody}

theorem decodeOpen_sound (read : decodeOpen wire = .ok body) :
    body.type = .openFrame ∧ Layout body wire := by
  obtain ⟨protocolId, afterName, short, named, read⟩ := exact_decodeLenUtf8Le.bind_iff.mp read
  cases afterName with
  | nil => cases read
  | cons cls afterClass =>
      obtain ⟨flags, afterFlags, flags16, flagged, read⟩ := exact_readU16.bind_iff.mp read
      have code := ChannelClass.code_ofCode cls
      by_cases blank : afterFlags = []
      · rw [blank] at read flagged
        cases read
        refine ⟨rfl, ?_⟩
        rw [named, flagged, List.append_nil]
        have layout : Layout (.openFrame protocolId (.ofCode cls) flags 0) _ :=
          .openDefault short flags16
        rwa [code] at layout
      · have goesOn : afterFlags.isEmpty = false := by
          rw [Bool.eq_false_iff, Ne, List.isEmpty_iff]
          exact blank
        simp only [goesOn, Bool.false_eq_true, ↓reduceIte] at read
        obtain ⟨limit, afterLimit, limit32, limited, read⟩ := exact_readU32.bind_iff.mp read
        obtain ⟨_, ends, read⟩ := Reader.bind_ok read
        cases read
        refine ⟨rfl, ?_⟩
        have nothing : afterLimit = [] := expectEmpty_iff.mp ends
        rw [named, flagged, limited, nothing, List.append_nil]
        have layout : Layout (.openFrame protocolId (.ofCode cls) flags limit) _ :=
          .openFrame short flags16 limit32
        rwa [code] at layout

theorem decodeClose_sound (read : decodeClose wire = .ok body) :
    body.type = .close ∧ Layout body wire := by
  by_cases blank : wire = []
  · subst blank
    cases read
    exact ⟨rfl, .closeBare⟩
  · have goesOn : wire.isEmpty = false := by
      rw [Bool.eq_false_iff, Ne, List.isEmpty_iff]
      exact blank
    unfold decodeClose at read
    simp only [goesOn, Bool.false_eq_true, ↓reduceIte] at read
    obtain ⟨reason, afterReason, short, named, read⟩ := exact_decodeLenUtf8Le.bind_iff.mp read
    obtain ⟨_, ends, read⟩ := Reader.bind_ok read
    cases read
    have nothing : afterReason = [] := expectEmpty_iff.mp ends
    rw [named, nothing, List.append_nil]
    exact ⟨rfl, .close short⟩

theorem decodeFrag_sound (read : decodeFrag wire = .ok body) :
    body.type = .frag ∧ Layout body wire := by
  obtain ⟨msgId, afterId, id64, first, read⟩ := exact_readU64.bind_iff.mp read
  obtain ⟨index, afterIndex, index16, second, read⟩ := exact_readU16.bind_iff.mp read
  obtain ⟨count, afterCount, count16, third, read⟩ := exact_readU16.bind_iff.mp read
  obtain ⟨total, chunk, total32, fourth, read⟩ := exact_readU32.bind_iff.mp read
  cases read
  refine ⟨rfl, ?_⟩
  rw [first, second, third, fourth]
  have layout : Layout (.frag ⟨msgId, index, count, total, chunk⟩) _ :=
    .frag ⟨id64, index16, count16, total32⟩
  exact layout

theorem decodeBody_sound {type : UInt8} (read : decodeBody type wire = .ok body) :
    body.type.code = type ∧ Layout body wire := by
  unfold decodeBody at read
  split at read
  · rename_i typed
    obtain ⟨same, layout⟩ := decodeOpen_sound read
    exact ⟨by rw [same, typed], layout⟩
  · split at read
    · rename_i typed
      split at read
      · cases read
      · obtain ⟨_, ends, read⟩ := Reader.bind_ok read
        cases read
        rw [expectEmpty_iff.mp ends]
        exact ⟨typed.symm, .openAck⟩
    · split at read
      · rename_i typed
        cases read
        exact ⟨typed.symm, .data⟩
      · split at read
        · rename_i typed
          obtain ⟨same, layout⟩ := decodeClose_sound read
          exact ⟨by rw [same, typed], layout⟩
        · split at read
          · rename_i typed
            obtain ⟨code, rest, code32, coded, read⟩ := exact_readU32.bind_iff.mp read
            obtain ⟨_, ends, read⟩ := Reader.bind_ok read
            cases read
            refine ⟨typed.symm, ?_⟩
            have nothing : rest = [] := expectEmpty_iff.mp ends
            have layout : Layout (.reset (.ofNat code)) _ := .reset
            rw [UInt32.toNat_ofNat', Nat.mod_eq_of_lt code32] at layout
            rwa [coded, nothing, List.append_nil]
          · split at read
            · rename_i typed
              obtain ⟨same, layout⟩ := decodeFrag_sound read
              exact ⟨by rw [same, typed], layout⟩
            · cases read

theorem appendU32_field {field : Bytes} (size : field.length = 4) :
    appendU32 (UInt32.ofNat (LittleEndian.decode field)).toNat = field := by
  have bound := LittleEndian.decode_lt field
  have again := LittleEndian.encode_decode field
  rw [size] at bound again
  have fits : LittleEndian.decode field < 2 ^ 32 := bound
  rw [UInt32.toNat_ofNat', Nat.mod_eq_of_lt fits]
  exact again

/-- An accepted frame is its header and its fields, and not a byte more. -/
theorem decode_sound {frame : ChannelFrame} (read : decode wire = .ok frame) : ∃ fields,
    wire = header frame.body.type frame.channelId frame.channelSeq ++ fields ∧
      Layout frame.body fields := by
  unfold decode at read
  split at read
  · cases read
  · rename_i type rest
    split at read
    · cases read
    · rename_i long
      split at read
      · cases read
      · rename_i body accepted
        cases read
        obtain ⟨typed, layout⟩ := decodeBody_sound accepted
        refine ⟨rest.drop 8, ?_, layout⟩
        have enough : 8 ≤ rest.length := by
          rw [List.length_cons, kChannelHeaderBytes] at long
          omega
        have idSize : (rest.take 4).length = 4 := by
          rw [List.length_take]
          omega
        have seqSize : ((rest.drop 4).take 4).length = 4 := by
          rw [List.length_take, List.length_drop]
          omega
        have idAgain := appendU32_field idSize
        have seqAgain := appendU32_field seqSize
        have back : (rest.drop 4).drop 4 = rest.drop 8 := List.drop_drop
        rw [header, typed, idAgain, seqAgain, List.cons_append, List.append_assoc, ← back,
          List.take_append_drop, List.take_append_drop]

end Accepted

section Again

/-- The bytes that an accepted frame is encoded to. They are the ones it came in, but an Open
that left its limit to its peer says so, and a Close with a reason of no bytes leaves it out. -/
def reencoded (frame : ChannelFrame) (wire : Bytes) : Bytes :=
  match frame.body with
  | .openFrame protocolId _ _ _ =>
      if wire.length = kChannelHeaderBytes + (4 + protocolId.length) + 1 + 2 then
        wire ++ [0, 0, 0, 0]
      else wire
  | .close [] => wire.take kChannelHeaderBytes
  | _ => wire

theorem header_length (type : ChannelFrameType) (channelId channelSeq : UInt32) :
    (header type channelId channelSeq).length = kChannelHeaderBytes := by
  rw [header, List.length_cons, List.length_append, appendU32, appendU32,
    LittleEndian.encode_length, LittleEndian.encode_length]
  rfl

theorem lenUtf8_length (text : Bytes) : (lenUtf8 text).length = 4 + text.length := by
  rw [lenUtf8, List.length_append, appendU32, LittleEndian.encode_length]

theorem encodeLenUtf8Le_short {text : Bytes} (short : text.length < 2 ^ 32) :
    encodeLenUtf8Le text = .ok (lenUtf8 text) := by
  unfold encodeLenUtf8Le
  rw [if_neg (by omega)]
  rfl

/-- What a header and the fields of a frame are encoded to again. -/
theorem encode_layout {frame : ChannelFrame} {fields : Bytes} (layout : Layout frame.body fields) :
    encode frame = .ok (reencoded frame
      (header frame.body.type frame.channelId frame.channelSeq ++ fields)) := by
  obtain ⟨channelId, channelSeq, body⟩ := frame
  unfold encode reencoded
  cases layout with
  | @openFrame protocolId cls flags limit short _ _ =>
      have longer : (header ChannelFrameType.openFrame channelId channelSeq ++
          (lenUtf8 protocolId ++ cls.code :: (appendU16 flags ++ appendU32 limit))).length ≠
            kChannelHeaderBytes + (4 + protocolId.length) + 1 + 2 := by
        simp only [List.length_append, header_length, lenUtf8_length, List.length_cons, appendU16,
          appendU32, LittleEndian.encode_length]
        omega
      simp only [encodeBody, encodeLenUtf8Le_short short, ChannelBody.type]
      exact congrArg Except.ok (if_neg longer).symm
  | @openDefault protocolId cls flags short _ =>
      have exactly : (header ChannelFrameType.openFrame channelId channelSeq ++
          (lenUtf8 protocolId ++ cls.code :: appendU16 flags)).length =
            kChannelHeaderBytes + (4 + protocolId.length) + 1 + 2 := by
        simp only [List.length_append, header_length, lenUtf8_length, List.length_cons, appendU16,
          LittleEndian.encode_length]
        omega
      simp only [encodeBody, encodeLenUtf8Le_short short, ChannelBody.type]
      refine congrArg Except.ok (Eq.trans ?_ (if_pos exactly).symm)
      simp only [List.append_assoc, List.cons_append]
      rfl
  | openAck => rfl
  | data => rfl
  | @close reason short =>
      cases reason with
      | nil =>
          show Except.ok (header ChannelFrameType.close channelId channelSeq ++ []) = Except.ok
            ((header ChannelFrameType.close channelId channelSeq ++ lenUtf8 []).take
              kChannelHeaderBytes)
          rw [List.append_nil, List.take_left' (header_length _ channelId channelSeq)]
      | cons byte rest =>
          simp only [encodeBody, List.isEmpty_cons, Bool.false_eq_true, ↓reduceIte,
            encodeLenUtf8Le_short short, ChannelBody.type]
  | closeBare =>
      show Except.ok (header ChannelFrameType.close channelId channelSeq ++ []) = Except.ok
        ((header ChannelFrameType.close channelId channelSeq ++ []).take kChannelHeaderBytes)
      rw [List.append_nil, List.take_of_length_le (le_of_eq (header_length _ _ _))]
  | reset => rfl
  | frag _ => rfl

end Again

/-- What is encoded is decoded, and what is accepted is its fields, which encode to themselves
but for an absent limit and an empty reason. -/
theorem codec_laws (frame : ChannelFrame) (wire : Bytes) :
    (Fits frame.body → encode frame = .ok wire → decode wire = .ok frame) ∧
      (decode wire = .ok frame → encode frame = .ok (reencoded frame wire) ∧ ∃ fields,
        wire = header frame.body.type frame.channelId frame.channelSeq ++ fields ∧
          Layout frame.body fields) := by
  constructor
  · intro fits encoded
    exact decode_encode frame wire fits encoded
  · intro read
    obtain ⟨fields, same, layout⟩ := decode_sound read
    refine ⟨?_, fields, same, layout⟩
    rw [same]
    exact encode_layout layout

/-- An Open that leaves its limit to its peer, there and back. -/
theorem codec_laws_open :
    (let opening : ChannelFrame := ⟨7, 0, .openFrame [112] .bulk 2 0⟩
    let short : Bytes := [0, 7, 0, 0, 0, 0, 0, 0, 0, 1, 0, 0, 0, 112, 2, 2, 0]
    decode (short ++ [0, 0, 0, 0]) = .ok opening ∧
      encode opening = .ok (short ++ [0, 0, 0, 0])) := by
  refine ⟨(codec_laws ⟨7, 0, .openFrame [112] .bulk 2 0⟩ _).1 ⟨by decide, by decide⟩ rfl, ?_⟩
  exact ((codec_laws ⟨7, 0, .openFrame [112] .bulk 2 0⟩
    [0, 7, 0, 0, 0, 0, 0, 0, 0, 1, 0, 0, 0, 112, 2, 2, 0]).2 rfl).1

end ChannelWire

end Amp
