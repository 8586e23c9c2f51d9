import Amp.L3.WireLayout
import Amp.Link.CapabilityExchange

set_option autoImplicit false

/- The three messages of channel 0: each is read back as it was said, and none is taken for
another. -/
namespace Amp

open Adp (Bytes)
open ChannelWire

theorem ChannelWire.encodeLenUtf8Le_iff {text wire : Bytes} :
    encodeLenUtf8Le text = .ok wire ↔ text.length < 2 ^ 32 ∧ wire = lenUtf8 text := by
  constructor
  · intro encoded
    obtain ⟨same, short⟩ := encodeLenUtf8Le_ok text wire encoded
    exact ⟨short, same⟩
  · rintro ⟨short, rfl⟩
    exact encodeLenUtf8Le_short short

namespace SessionControlCodec

theorem decode_encode (message : SessionRekeyMessage) : decode (encode message) = .ok message := by
  obtain ⟨kind, targetEpoch⟩ := message
  have size : (LittleEndian.encode 4 targetEpoch.toNat).length = 4 := LittleEndian.encode_length 4 _
  have epoch : UInt32.ofNat (LittleEndian.decode (LittleEndian.encode 4 targetEpoch.toNat)) =
      targetEpoch := by
    rw [LittleEndian.decode_encode_of_lt 4 _ targetEpoch.toNat_lt, UInt32.ofNat_toNat]
  unfold encode decode
  cases kind with
  | rekeyRequest => simp [size, epoch, SessionControlKind.code]
  | rekeyAck => simp [size, epoch, SessionControlKind.code]

theorem looksLike_encode (message : SessionRekeyMessage) :
    looksLikeSessionControl (encode message) = true := by
  have size : (LittleEndian.encode 4 message.targetEpoch.toNat).length = 4 :=
    LittleEndian.encode_length 4 _
  unfold encode looksLikeSessionControl
  cases kind : message.kind with
  | rekeyRequest => simp [size, SessionControlKind.code]
  | rekeyAck => simp [size, SessionControlKind.code]

end SessionControlCodec

namespace CapabilityCodec

/-- A count and that many texts. -/
def stringList (items : List Bytes) : Bytes := appendU16 items.length ++ items.flatMap lenUtf8

/-- Lists that a count and lengths of their widths can say. -/
def ListFits (items : List Bytes) : Prop :=
  items.length < 2 ^ 16 ∧ ∀ item ∈ items, item.length < 2 ^ 32

theorem appendStrings_ok {items : List Bytes} {wire : Bytes}
    (encoded : appendStrings items = .ok wire) :
    (∀ item ∈ items, item.length < 2 ^ 32) ∧ wire = items.flatMap lenUtf8 := by
  induction items generalizing wire with
  | nil =>
      cases encoded
      exact ⟨fun _ absent => absurd absent List.not_mem_nil, rfl⟩
  | cons item items ih =>
      unfold appendStrings at encoded
      split at encoded
      · cases encoded
      · rename_i front one
        split at encoded
        · cases encoded
        · rename_i rest others
          cases encoded
          obtain ⟨short, rfl⟩ := encodeLenUtf8Le_iff.mp one
          obtain ⟨all, rfl⟩ := ih others
          refine ⟨?_, rfl⟩
          intro other listed
          rcases List.mem_cons.mp listed with rfl | later
          · exact short
          · exact all other later

theorem appendStringList_ok {items : List Bytes} {wire : Bytes}
    (encoded : appendStringList items = .ok wire) : ListFits items ∧ wire = stringList items := by
  unfold appendStringList at encoded
  split at encoded
  · cases encoded
  · rename_i few
    split at encoded
    · cases encoded
    · rename_i texts each
      cases encoded
      obtain ⟨all, rfl⟩ := appendStrings_ok each
      exact ⟨⟨by omega, all⟩, rfl⟩

theorem readStrings_times (count : Nat) (wire : Bytes) :
    readStrings count wire = Reader.times decodeLenUtf8Le count wire := by
  induction count generalizing wire with
  | zero => rfl
  | succ count ih =>
      unfold readStrings Reader.times
      simp only [ih]

theorem exact_readStringList : Reader.Exact readStringList stringList ListFits := by
  have all (count : Nat) := exact_decodeLenUtf8Le.times count
  constructor
  · intro wire rest items read
    obtain ⟨count, after, count16, front, read⟩ := (exact_readField 2 _).bind_iff.mp read
    dsimp only at read
    rw [readStrings_times] at read
    obtain ⟨⟨size, short⟩, back⟩ := (all count).sound read
    rw [← size] at count16 front
    refine ⟨⟨count16, short⟩, ?_⟩
    rw [front, back, stringList, List.append_assoc]
    rfl
  · rintro items rest ⟨count16, short⟩
    have texts : Reader.times decodeLenUtf8Le items.length (items.flatMap lenUtf8 ++ rest) =
        .ok (items, rest) := (all items.length).complete ⟨rfl, short⟩
    rw [stringList, List.append_assoc]
    unfold readStringList
    apply (exact_readField 2 _).bind_iff.mpr
    refine ⟨items.length, _, count16, rfl, ?_⟩
    dsimp only
    rw [readStrings_times]
    exact texts

theorem encode_ok {payload : CapabilityPayload} {wire : Bytes} (encoded : encode payload = .ok wire) :
    payload.localPeerId.length < 2 ^ 32 ∧ ListFits payload.listenMultiaddrs ∧
      ListFits payload.protocols ∧ wire = 1 :: (lenUtf8 payload.localPeerId ++
        (stringList payload.listenMultiaddrs ++ stringList payload.protocols)) := by
  obtain ⟨peer, first, encoded⟩ := Reader.bind_ok encoded
  obtain ⟨addrs, second, encoded⟩ := Reader.bind_ok encoded
  obtain ⟨protos, third, encoded⟩ := Reader.bind_ok encoded
  cases encoded
  obtain ⟨short, rfl⟩ := encodeLenUtf8Le_iff.mp first
  obtain ⟨listens, rfl⟩ := appendStringList_ok second
  obtain ⟨speaks, rfl⟩ := appendStringList_ok third
  exact ⟨short, listens, speaks, rfl⟩

/-- A payload is read back when nothing follows it, and refused when anything does. -/
theorem decode_append {payload : CapabilityPayload} {wire : Bytes} (encoded : encode payload = .ok wire)
    (extra : Bytes) : decode (wire ++ extra) =
      if extra.isEmpty then .ok payload else .error "amp cap: trailing bytes" := by
  obtain ⟨short, listens, speaks, rfl⟩ := encode_ok encoded
  have peer : decodeLenUtf8Le (lenUtf8 payload.localPeerId ++ (stringList payload.listenMultiaddrs ++ (stringList payload.protocols ++ extra))) =
      .ok (payload.localPeerId, stringList payload.listenMultiaddrs ++ (stringList payload.protocols ++ extra)) := exact_decodeLenUtf8Le.complete short
  have addrs : readStringList (stringList payload.listenMultiaddrs ++ (stringList payload.protocols ++ extra)) =
      .ok (payload.listenMultiaddrs, stringList payload.protocols ++ extra) := exact_readStringList.complete listens
  have protocols : readStringList (stringList payload.protocols ++ extra) =
      .ok (payload.protocols, extra) := exact_readStringList.complete speaks
  simp only [List.cons_append, List.append_assoc, decode, peer, addrs, protocols, bind, Except.bind,
    pure, Except.pure, throw, throwThe, MonadExceptOf.throw]

theorem encodeExtension_ok {extension : CapabilityExtension} {wire : Bytes}
    (encoded : encodeExtension extension = .ok wire) :
    extension.nodeVersion.length < 2 ^ 32 ∧ ListFits extension.features ∧
      wire = kCapabilityExtensionTag :: extension.ampWire ::
        (lenUtf8 extension.nodeVersion ++ stringList extension.features) := by
  obtain ⟨version, first, encoded⟩ := Reader.bind_ok encoded
  obtain ⟨features, second, encoded⟩ := Reader.bind_ok encoded
  cases encoded
  obtain ⟨short, rfl⟩ := encodeLenUtf8Le_iff.mp first
  obtain ⟨names, rfl⟩ := appendStringList_ok second
  exact ⟨short, names, rfl⟩

/-- An extension is read back whatever follows it. -/
theorem decodeExtension_append {extension : CapabilityExtension} {wire : Bytes}
    (encoded : encodeExtension extension = .ok wire) (extra : Bytes) :
    decodeExtension (wire ++ extra) = .ok extension := by
  obtain ⟨short, names, rfl⟩ := encodeExtension_ok encoded
  have version : decodeLenUtf8Le (lenUtf8 extension.nodeVersion ++
      (stringList extension.features ++ extra)) =
      .ok (extension.nodeVersion, stringList extension.features ++ extra) :=
    exact_decodeLenUtf8Le.complete short
  have features : readStringList (stringList extension.features ++ extra) =
      .ok (extension.features, extra) := exact_readStringList.complete names
  simp only [List.cons_append, List.append_assoc, decodeExtension, ne_eq, not_true_eq_false,
    ↓reduceIte, version, features, bind, Except.bind, pure, Except.pure]

end CapabilityCodec

/-- What is said on channel 0. -/
inductive Ch0Message where
  | rekey (message : SessionRekeyMessage)
  | capability (payload : CapabilityPayload)
  | extension (extension : CapabilityExtension)
  deriving DecidableEq, Repr

namespace Ch0Message

def encode : Ch0Message → Except String Bytes
  | .rekey message => .ok (SessionControlCodec.encode message)
  | .capability payload => CapabilityCodec.encode payload
  | .extension ext => CapabilityCodec.encodeExtension ext

/-- What its own decoder makes of some bytes. -/
def decodes (wire : Bytes) : Ch0Message → Prop
  | .rekey message => SessionControlCodec.decode wire = .ok message
  | .capability payload => CapabilityCodec.decode wire = .ok payload
  | .extension ext => CapabilityCodec.decodeExtension wire = .ok ext

/-- The call that a message is for. -/
def call (wire : Bytes) : Ch0Message → Ch0Call
  | .rekey _ => .handleSessionControl wire
  | .capability payload => .applyRemoteCapability payload
  | .extension ext => .applyRemoteCapabilityExtension ext

/-- What bytes more than a message come to. -/
def Extended (wire extra : Bytes) : Ch0Message → Prop
  | .rekey _ => True
  | .capability _ => extra ≠ [] →
      CapabilityCodec.decode (wire ++ extra) = .error "amp cap: trailing bytes"
  | .extension ext => CapabilityCodec.decodeExtension (wire ++ extra) = .ok ext

theorem decodes_encode {message : Ch0Message} {wire : Bytes} (encoded : message.encode = .ok wire) :
    message.decodes wire := by
  cases message with
  | rekey message =>
      cases encoded
      exact SessionControlCodec.decode_encode message
  | capability payload =>
      have read := CapabilityCodec.decode_append encoded []
      rwa [List.append_nil] at read
  | extension ext =>
      have read := CapabilityCodec.decodeExtension_append encoded []
      rwa [List.append_nil] at read

theorem extended_encode {message : Ch0Message} {wire : Bytes} (encoded : message.encode = .ok wire)
    (extra : Bytes) : message.Extended wire extra := by
  cases message with
  | rekey message => trivial
  | capability payload =>
      intro something
      rw [CapabilityCodec.decode_append encoded extra, if_neg]
      exact fun blank => something (List.isEmpty_iff.mp blank)
  | extension ext => exact CapabilityCodec.decodeExtension_append encoded extra

/-- The first byte of a message tells which one it is. -/
theorem ch0Call_encode {message : Ch0Message} {wire : Bytes} (encoded : message.encode = .ok wire) :
    ch0Call wire = some (message.call wire) := by
  have read := decodes_encode encoded
  unfold ch0Call
  cases message with
  | rekey message =>
      cases encoded
      rw [if_pos (SessionControlCodec.looksLike_encode message)]
      rfl
  | capability payload =>
      obtain ⟨_, _, _, layout⟩ := CapabilityCodec.encode_ok encoded
      have other : looksLikeSessionControl wire = false := by
        rw [layout, looksLikeSessionControl.eq_def]
        split
        · rename_i same
          cases same
          simp [kSessionControlWireVersion]
        · rfl
      have plain : CapabilityCodec.isExtension wire = false := by
        rw [layout]
        rfl
      have read : CapabilityCodec.decode wire = .ok payload := read
      rw [other, plain, read]
      rfl
  | extension ext =>
      obtain ⟨_, _, layout⟩ := CapabilityCodec.encodeExtension_ok encoded
      have other : looksLikeSessionControl wire = false := by
        rw [layout]
        simp [looksLikeSessionControl, kCapabilityExtensionTag, kSessionControlWireVersion]
      have tagged : CapabilityCodec.isExtension wire = true := by
        rw [layout]
        rfl
      have read : CapabilityCodec.decodeExtension wire = .ok ext := read
      rw [other, tagged, read]
      rfl

end Ch0Message

/-- Every message of channel 0 that can be said is read back by its own decoder, and its reader
takes it to that decoder. -/
theorem channel_zero_laws (message : Ch0Message) (wire extra : Bytes)
    (encoded : message.encode = .ok wire) :
    message.decodes wire ∧ message.Extended wire extra ∧
      ch0Call wire = some (message.call wire) := by
  refine ⟨?_, ?_, ?_⟩
  · exact Ch0Message.decodes_encode encoded
  · exact Ch0Message.extended_encode encoded extra
  · exact Ch0Message.ch0Call_encode encoded

theorem channel_zero_laws_offer :
    (Ch0Message.capability ⟨[112], [[47, 97]], []⟩).decodes
      [1, 1, 0, 0, 0, 112, 1, 0, 2, 0, 0, 0, 47, 97, 0, 0] :=
  (channel_zero_laws (.capability ⟨[112], [[47, 97]], []⟩)
    [1, 1, 0, 0, 0, 112, 1, 0, 2, 0, 0, 0, 47, 97, 0, 0] [] rfl).1

end Amp
