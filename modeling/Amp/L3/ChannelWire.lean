import Amp.L3.Types
import Amp.Lib.LittleEndian
import Mathlib.Tactic.NormNum

set_option autoImplicit false

/- The frames of the mux and their bytes (ChannelWire.cpp). -/
namespace Amp

open Adp (Bytes)

structure ChannelFragBody where
  msgId : Nat
  fragIndex : Nat
  fragCount : Nat
  totalLen : Nat
  chunk : Bytes
  deriving DecidableEq

/-- The part of `ChannelFrame` its type selects. -/
inductive ChannelBody where
  | openFrame (protocolId : Bytes) (channelClass : ChannelClass) (flags maxMessageBytes : Nat)
  | openAck (result : UInt8)
  | data (payload : Bytes)
  | close (reason : Bytes)
  | reset (code : UInt32)
  | frag (frag : ChannelFragBody)
  deriving DecidableEq

structure ChannelFrame where
  channelId : UInt32
  channelSeq : UInt32
  body : ChannelBody
  deriving DecidableEq

def ChannelBody.type : ChannelBody → ChannelFrameType
  | .openFrame .. => .openFrame
  | .openAck _ => .openAck
  | .data _ => .data
  | .close _ => .close
  | .reset _ => .reset
  | .frag _ => .frag

def ChannelFrameType.code : ChannelFrameType → UInt8
  | .openFrame => 0
  | .openAck => 1
  | .data => 2
  | .close => 3
  | .reset => 4
  | .frag => 5

namespace ChannelWire

def appendU16 (value : Nat) : Bytes := LittleEndian.encode 2 value
def appendU32 (value : Nat) : Bytes := LittleEndian.encode 4 value
def appendU64 (value : Nat) : Bytes := LittleEndian.encode 8 value

/-- A little-endian field at the front of the span, and the span after it. -/
def readField (width : Nat) (message : String) (wire : Bytes) : Except String (Nat × Bytes) :=
  if wire.length < width then .error message
  else .ok (LittleEndian.decode (wire.take width), wire.drop width)

def readU16 : Bytes → Except String (Nat × Bytes) := readField 2 "amp ch: truncated u16"
def readU32 : Bytes → Except String (Nat × Bytes) := readField 4 "amp ch: truncated u32"
def readU64 : Bytes → Except String (Nat × Bytes) := readField 8 "amp ch: truncated u64"

def expectEmpty (wire : Bytes) : Except String Unit :=
  if wire.isEmpty then .ok () else .error "amp ch: trailing bytes"

def encodeLenUtf8Le (text : Bytes) : Except String Bytes :=
  if 0xFFFFFFFF < text.length then .error "amp ch: string too long"
  else .ok (appendU32 text.length ++ text)

/-- The text, and what follows it. -/
def decodeLenUtf8Le (wire : Bytes) : Except String (Bytes × Bytes) := do
  let (len, rest) ← readU32 wire
  if rest.length < len then throw "amp ch: truncated utf8"
  return (rest.take len, rest.drop len)

def encodeFrag (frag : ChannelFragBody) : Bytes :=
  appendU64 frag.msgId ++ (appendU16 frag.fragIndex ++ (appendU16 frag.fragCount ++
    (appendU32 frag.totalLen ++ frag.chunk)))

def encodeBody : ChannelBody → Except String Bytes
  | .openFrame protocolId channelClass flags maxMessageBytes =>
      match encodeLenUtf8Le protocolId with
      | .error message => .error message
      | .ok proto => .ok (proto ++ (channelClass.code ::
          (appendU16 flags ++ appendU32 maxMessageBytes)))
  | .openAck result => .ok [result]
  | .data payload => .ok payload
  | .close reason => if reason.isEmpty then .ok [] else encodeLenUtf8Le reason
  | .reset code => .ok (appendU32 code.toNat)
  | .frag frag => .ok (encodeFrag frag)

def header (type : ChannelFrameType) (channelId channelSeq : UInt32) : Bytes :=
  type.code :: (appendU32 channelId.toNat ++ appendU32 channelSeq.toNat)

def encode (frame : ChannelFrame) : Except String Bytes :=
  match encodeBody frame.body with
  | .error message => .error message
  | .ok body => .ok (header frame.body.type frame.channelId frame.channelSeq ++ body)

def decodeOpen (body : Bytes) : Except String ChannelBody := do
  let (proto, body) ← decodeLenUtf8Le body
  match body with
  | [] => throw "amp ch: missing channel class"
  | cls :: body =>
      let (flags, body) ← readU16 body
      if body.isEmpty then return .openFrame proto (.ofCode cls) flags 0
      let (maxBytes, body) ← readU32 body
      expectEmpty body
      return .openFrame proto (.ofCode cls) flags maxBytes

def decodeClose (body : Bytes) : Except String ChannelBody := do
  if body.isEmpty then return .close []
  let (reason, body) ← decodeLenUtf8Le body
  expectEmpty body
  return .close reason

def decodeFrag (body : Bytes) : Except String ChannelBody := do
  let (msgId, body) ← readU64 body
  let (fragIndex, body) ← readU16 body
  let (fragCount, body) ← readU16 body
  let (totalLen, body) ← readU32 body
  return .frag ⟨msgId, fragIndex, fragCount, totalLen, body⟩

def decodeBody (type : UInt8) (body : Bytes) : Except String ChannelBody :=
  if type = ChannelFrameType.openFrame.code then decodeOpen body
  else if type = ChannelFrameType.openAck.code then
    match body with
    | [] => .error "amp ch: missing open ack result"
    | result :: rest => do
        expectEmpty rest
        return .openAck result
  else if type = ChannelFrameType.data.code then .ok (.data body)
  else if type = ChannelFrameType.close.code then decodeClose body
  else if type = ChannelFrameType.reset.code then do
    let (code, rest) ← readU32 body
    expectEmpty rest
    return .reset (.ofNat code)
  else if type = ChannelFrameType.frag.code then decodeFrag body
  else .error "amp ch: unknown frame type"

def decode (wire : Bytes) : Except String ChannelFrame :=
  match wire with
  | [] => .error "amp ch: truncated header"
  | type :: rest =>
      if wire.length < kChannelHeaderBytes then .error "amp ch: truncated header"
      else
        match decodeBody type (rest.drop 8) with
        | .error message => .error message
        | .ok body => .ok {
            channelId := .ofNat (LittleEndian.decode (rest.take 4))
            channelSeq := .ofNat (LittleEndian.decode ((rest.drop 4).take 4))
            body := body }

/-- A field of the width's range is read back, with all that follows it. -/
theorem readField_append (width : Nat) (message : String) (value : Nat) (rest : Bytes)
    (fits : value < 256 ^ width) :
    readField width message (LittleEndian.encode width value ++ rest) = .ok (value, rest) := by
  have size : (LittleEndian.encode width value).length = width :=
    LittleEndian.encode_length width value
  have enough : ¬ (LittleEndian.encode width value ++ rest).length < width := by
    rw [List.length_append, size]
    omega
  have front : (LittleEndian.encode width value ++ rest).take width =
      LittleEndian.encode width value := List.take_left' size
  have back : (LittleEndian.encode width value ++ rest).drop width = rest := List.drop_left' size
  rw [readField, if_neg enough, front, back, LittleEndian.decode_encode_of_lt width value fits]

theorem readU16_append (value : Nat) (rest : Bytes) (fits : value < 2 ^ 16) :
    readU16 (appendU16 value ++ rest) = .ok (value, rest) :=
  readField_append 2 _ value rest fits

theorem readU32_append (value : Nat) (rest : Bytes) (fits : value < 2 ^ 32) :
    readU32 (appendU32 value ++ rest) = .ok (value, rest) :=
  readField_append 4 _ value rest fits

theorem readU64_append (value : Nat) (rest : Bytes) (fits : value < 2 ^ 64) :
    readU64 (appendU64 value ++ rest) = .ok (value, rest) :=
  readField_append 8 _ value rest fits

theorem decodeLenUtf8Le_append (text rest : Bytes) (fits : text.length < 2 ^ 32) :
    decodeLenUtf8Le (appendU32 text.length ++ text ++ rest) = .ok (text, rest) := by
  rw [List.append_assoc, decodeLenUtf8Le, readU32_append text.length (text ++ rest) fits]
  simp [bind, Except.bind, pure, Except.pure]

/-- Values of a body that the fields of its frame can hold. -/
def Fits : ChannelBody → Prop
  | .openFrame _ _ flags maxMessageBytes => flags < 2 ^ 16 ∧ maxMessageBytes < 2 ^ 32
  | .frag frag => frag.msgId < 2 ^ 64 ∧ frag.fragIndex < 2 ^ 16 ∧ frag.fragCount < 2 ^ 16 ∧
      frag.totalLen < 2 ^ 32
  | .openAck _ | .data _ | .close _ | .reset _ => True

theorem encodeLenUtf8Le_ok (text encoded : Bytes) (ok : encodeLenUtf8Le text = .ok encoded) :
    encoded = appendU32 text.length ++ text ∧ text.length < 2 ^ 32 := by
  unfold encodeLenUtf8Le at ok
  split_ifs at ok with long
  cases ok
  exact ⟨rfl, by omega⟩

theorem decodeBody_encode (body : ChannelBody) (bytes : Bytes) (fits : Fits body)
    (ok : encodeBody body = .ok bytes) : decodeBody body.type.code bytes = .ok body := by
  cases body with
  | openFrame protocolId channelClass flags maxMessageBytes =>
      dsimp only [encodeBody] at ok
      split at ok
      · cases ok
      · rename_i proto encoded
        cases ok
        obtain ⟨rfl, short⟩ := encodeLenUtf8Le_ok protocolId proto encoded
        have size : (appendU32 maxMessageBytes).length = 4 := LittleEndian.encode_length 4 _
        have some_left : (appendU32 maxMessageBytes).isEmpty = false := by
          rw [List.isEmpty_eq_false_iff_exists_mem]
          exact List.exists_mem_of_length_pos (by omega)
        have limit : readU32 (appendU32 maxMessageBytes) = .ok (maxMessageBytes, []) := by
          simpa using readU32_append maxMessageBytes [] fits.2
        show decodeOpen _ = _
        unfold decodeOpen
        rw [decodeLenUtf8Le_append protocolId _ short]
        simp only [bind, Except.bind, pure, Except.pure, readU16_append flags _ fits.1, some_left,
          Bool.false_eq_true, ↓reduceIte, limit, expectEmpty, List.isEmpty_nil,
          ChannelClass.ofCode_code]
  | openAck result =>
      cases ok
      rfl
  | data payload =>
      cases ok
      rfl
  | close reason =>
      show decodeClose bytes = _
      dsimp only [encodeBody] at ok
      by_cases blank : reason.isEmpty
      · rw [if_pos blank] at ok
        cases ok
        rw [List.isEmpty_iff.mp blank]
        rfl
      · rw [if_neg blank] at ok
        obtain ⟨rfl, short⟩ := encodeLenUtf8Le_ok reason bytes ok
        have size : (appendU32 reason.length).length = 4 := LittleEndian.encode_length 4 _
        have some_left : (appendU32 reason.length ++ reason).isEmpty = false := by
          rw [List.isEmpty_eq_false_iff_exists_mem]
          exact List.exists_mem_of_length_pos (by rw [List.length_append]; omega)
        have text := decodeLenUtf8Le_append reason [] short
        rw [List.append_nil] at text
        simp only [decodeClose, some_left, Bool.false_eq_true, ↓reduceIte, bind, Except.bind, text,
          expectEmpty, List.isEmpty_nil, pure, Except.pure]
  | reset code =>
      cases ok
      have field : readU32 (appendU32 code.toNat) = .ok (code.toNat, []) := by
        simpa using readU32_append code.toNat [] code.toNat_lt
      show (readU32 (appendU32 code.toNat) >>= fun (code, rest) => _) = _
      rw [field]
      simp [bind, Except.bind, pure, Except.pure, expectEmpty]
  | frag frag =>
      cases ok
      obtain ⟨msgId, index, count, total⟩ := fits
      show decodeFrag (encodeFrag frag) = _
      unfold decodeFrag encodeFrag
      rw [readU64_append _ _ msgId]
      simp only [bind, Except.bind, readU16_append _ _ index, readU16_append _ _ count,
        readU32_append _ _ total, pure, Except.pure]

/-- Every frame that encodes is the frame its bytes decode to. -/
theorem decode_encode (frame : ChannelFrame) (wire : Bytes) (fits : Fits frame.body)
    (ok : encode frame = .ok wire) : decode wire = .ok frame := by
  unfold encode at ok
  split at ok
  · cases ok
  · rename_i body encoded
    cases ok
    have idSize : (appendU32 frame.channelId.toNat).length = 4 := LittleEndian.encode_length 4 _
    have seqSize : (appendU32 frame.channelSeq.toNat).length = 4 := LittleEndian.encode_length 4 _
    have both : (appendU32 frame.channelId.toNat ++ appendU32 frame.channelSeq.toNat).length = 8 := by
      rw [List.length_append, idSize, seqSize]
    have idField : LittleEndian.decode (appendU32 frame.channelId.toNat) =
        frame.channelId.toNat :=
      LittleEndian.decode_encode_of_lt 4 _ frame.channelId.toNat_lt
    have seqField : LittleEndian.decode (appendU32 frame.channelSeq.toNat) =
        frame.channelSeq.toNat :=
      LittleEndian.decode_encode_of_lt 4 _ frame.channelSeq.toNat_lt
    have long : ¬ (frame.body.type.code ::
        (appendU32 frame.channelId.toNat ++ appendU32 frame.channelSeq.toNat ++ body)).length <
          kChannelHeaderBytes := by
      rw [List.length_cons, List.length_append, both, kChannelHeaderBytes]
      omega
    rw [header, List.cons_append, decode, if_neg long, List.drop_left' both, decodeBody_encode frame.body body fits encoded]
    dsimp only
    rw [List.append_assoc, List.take_left' idSize, List.drop_left' idSize, List.take_left' seqSize,
      idField, seqField, UInt32.ofNat_toNat, UInt32.ofNat_toNat]

end ChannelWire

end Amp
