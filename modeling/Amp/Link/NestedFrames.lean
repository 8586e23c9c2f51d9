import Amp.L1.Datagrams
import Amp.L2.Session
import Amp.L3.FragmentRoundTrip
import Amp.Link.CarrierLink

set_option autoImplicit false

/- Frames of a link nested in others over circuit carriers: what they come to in each mux on
the way out, and on the network. -/
namespace Amp

open Adp (Bytes QosClass PacketProtection SizedProtection Hmac Connection kMaxDatagramBytes
  kMaxSealedPayload)

namespace ChannelMux

variable {τ : Type}

/-- The budget of a mux on a link of its own. -/
def kDirectMaxFrameBytes : Nat := kMaxSealedPayload

/-- `PeerLink::CarrierMaxFrameBytes`, with the mux of the carrier. -/
def carrierMaxFrameBytes (carrier : Option (ChannelMux τ)) : Nat :=
  let outer := carrier.elim kDirectMaxFrameBytes maxFrameBytes
  let wrapping := kChannelHeaderBytes + kCarrierLaneHeaderBytes + kCarrierSealedHeaderBytes +
    Adp.kPacketTagBytes
  if wrapping < outer then outer - wrapping else 0

section Sizes

variable [MuxTransport τ] {mux : ChannelMux τ} {id : UInt32} {channel : ChannelRecord} {payload : Bytes}

/-- A fragment is as long as its chunk and its fields. -/
theorem fragFrames_small (id : UInt32) {msgId count total size budget : Nat}
    (room : size + kChannelHeaderBytes + kChannelFragFieldsBytes ≤ budget) (chunks : List Bytes) :
    ∀ (index : Nat) (seq : UInt32), (∀ chunk ∈ chunks, chunk.length ≤ size) →
      ∀ frame ∈ fragFrames id msgId count total index seq chunks, (wireOf frame).length ≤ budget := by
  induction chunks with
  | nil => exact fun _ _ _ _ absent => absurd absent List.not_mem_nil
  | cons chunk rest ih =>
      intro index seq sized frame member
      have first := sized chunk List.mem_cons_self
      rcases List.mem_cons.mp member with front | later
      · rw [front, wireOf_frag_length]
        dsimp only
        omega
      · exact ih (index + 1) (nextSeq seq)
          (fun other listed => sized other (List.mem_cons_of_mem chunk listed)) frame later

omit [MuxTransport τ] in
theorem payloadFrames_small (budget : kMinFrameBytes ≤ mux.maxFrameBytes) (id seq : UInt32) :
    ∀ frame ∈ mux.payloadFrames id seq payload, (wireOf frame).length ≤ mux.maxFrameBytes := by
  have header : kChannelHeaderBytes = 9 := rfl
  have floor : kMinFrameBytes = 64 := rfl
  unfold payloadFrames
  by_cases single : mux.fitsOneFrame payload
  · have fits : payload.length ≤ mux.maxFrameBytes - kChannelHeaderBytes := single
    rw [if_pos single]
    intro frame member
    rw [List.mem_singleton.mp member, wireOf_data_length]
    omega
  · have cut := cut_of_long budget single
    rw [if_neg single]
    exact fragFrames_small id cut.room _ 0 seq (chunksOf_small _ _ payload)

/-- Whatever `SendData` does with a payload, it emits frames of it or nothing. -/
theorem sendData_emits_any (found : mux.channelById id = some channel) :
    Emits mux id channel.policy.cls (mux.payloadFrames id channel.txSeq payload)
      (mux.sendData id payload) := by
  by_cases opened : channel.state = .opened
  case neg =>
    right
    unfold sendData
    rw [found]
    dsimp only
    rw [if_pos opened]
    exact ⟨_, rfl, rfl⟩
  case pos =>
    by_cases within : payload.length ≤ channel.policy.maxMessageBytes
    case neg =>
      right
      unfold sendData
      rw [found]
      dsimp only
      rw [if_neg (not_not.mpr opened), if_pos (Nat.lt_of_not_le within)]
      exact ⟨_, rfl, rfl⟩
    case pos =>
      by_cases refused : ¬ mux.fitsOneFrame payload ∧ kMaxFragmentsPerMessage < mux.needed payload
      · right
        rw [sendData_long found opened within refused.1, sendFragmented_eq, if_pos refused.2]
        exact ⟨_, rfl, rfl⟩
      · apply sendData_emits found opened within
        intro long
        exact Nat.not_lt.mp fun many => refused ⟨long, many⟩

end Sizes

end ChannelMux

namespace CarrierLink

variable {π : Type} [PacketProtection π]

/-- What the transport of `AttachMuxTransport` makes of a frame for the carrier. -/
def carrierWire (link : CarrierLink π) (qos : QosClass) (frame : Bytes) (now : Int) :
    Except String Bytes :=
  match link.sealCarrierFrame (qos == .reliable) frame with
  | (_, .error message) => .error message
  | (after, .ok wire) =>
      if qos == .reliable && link.carrierLaneActive then
        match after.lane.lane.wrap wire now with
        | (_, none) => .error "amp link: carrier lane window full"
        | (_, some laned) => .ok laned
      else .ok wire

theorem sealCarrierFrame_sent (link : CarrierLink π) (reliable : Bool) (frame : Bytes) :
    (link.sealCarrierFrame reliable frame).1.lane = link.lane ∧
      (link.sealCarrierFrame reliable frame).1.direct = link.direct := by
  have taken : (link.takeNumber reliable).lane = link.lane ∧
      (link.takeNumber reliable).direct = link.direct := by
    cases reliable
    · exact ⟨rfl, rfl⟩
    · exact ⟨rfl, rfl⟩
  unfold sealCarrierFrame
  split
  · exact ⟨rfl, rfl⟩
  · split
    · exact ⟨rfl, rfl⟩
    · dsimp only
      split
      · exact taken
      · exact taken

/-- It is what a link gives to its carrier for the frame. -/
theorem transmit_sent (link : CarrierLink π) (qos : QosClass) (frame : Bytes) (now : Int) :
    (link.transmit qos frame now).sent.Perm
      (link.sent ++ (link.carrierWire qos frame now).toOption.toList) := by
  obtain ⟨lane, direct⟩ := link.sealCarrierFrame_sent (qos == .reliable) frame
  unfold transmit carrierWire sent
  dsimp only
  generalize link.sealCarrierFrame (qos == .reliable) frame = sealing at lane direct ⊢
  obtain ⟨after, outcome⟩ := sealing
  dsimp only at lane direct
  cases outcome with
  | error message =>
      dsimp only
      rw [lane, direct]
      simp [Except.toOption]
  | ok wire =>
      dsimp only
      by_cases laned : (qos == .reliable && link.carrierLaneActive) = true
      · rw [if_pos laned, if_pos laned, ← lane, ← direct]
        unfold ride LaneEnd.wrap
        cases wrapped : after.lane.lane.wrap wire now with
        | mk lane taken =>
            cases taken with
            | none => simp [Except.toOption]
            | some laneWire =>
                simp only [Except.toOption, Option.toList, List.append_assoc]
                exact List.Perm.append_left _ List.perm_append_comm
      · rw [if_neg laned, if_neg laned, ← lane, ← direct]
        simp [Except.toOption]

theorem sealCarrierFrame_length [SizedProtection π] {link after : CarrierLink π} {reliable : Bool}
    {frame wire : Bytes} (done : link.sealCarrierFrame reliable frame = (after, .ok wire)) :
    wire.length = kCarrierSealedHeaderBytes + frame.length + Adp.kPacketTagBytes := by
  unfold sealCarrierFrame at done
  split at done
  · cases (Prod.mk.inj done).2
  · split at done
    · cases (Prod.mk.inj done).2
    · dsimp only at done
      split at done
      · cases (Prod.mk.inj done).2
      · rename_i body sealing
        have size := SizedProtection.seal_length _ _ _ _ _ _ sealing
        rw [← Except.ok.inj (Prod.mk.inj done).2, List.length_append,
          AmpAdpCarrier.encodeSealedHeader_length, size]
        omega

/-- Sealed, and in the lane or not, a frame grows by no more than the budget leaves out. -/
theorem carrierWire_length [SizedProtection π] {link : CarrierLink π} {qos : QosClass}
    {frame payload : Bytes} {now : Int} (sent : link.carrierWire qos frame now = .ok payload) :
    payload.length ≤ frame.length + kCarrierLaneHeaderBytes + kCarrierSealedHeaderBytes +
      Adp.kPacketTagBytes := by
  unfold carrierWire at sent
  cases sealing : link.sealCarrierFrame (qos == .reliable) frame with
  | mk after outcome =>
      rw [sealing] at sent
      cases outcome with
      | error message => cases sent
      | ok wire =>
          have size := sealCarrierFrame_length sealing
          dsimp only at sent
          split at sent
          · split at sent
            · cases sent
            · rename_i laned wrapped
              have wire5 : laned.length = wire.length + kCarrierLaneHeaderBytes := by
                unfold CarrierLane.wrap at wrapped
                split at wrapped
                · cases (Prod.mk.inj wrapped).2
                · rw [← Option.some.inj (Prod.mk.inj wrapped).2]
                  simp only [AmpAdpCarrier.encodeLaneData, List.length_cons, List.length_append,
                    AmpAdpCarrier.appendU32_length, kCarrierLaneHeaderBytes]
                  omega
              rw [← Except.ok.inj sent]
              omega
          · rw [← Except.ok.inj sent]
            omega

end CarrierLink

section Datagrams

variable {π : Type} [PacketProtection π]

/-- A frame goes out sealed in one datagram, or not at all, and is never refused for its size. -/
structure OneDatagram (frame : Bytes) (before : Connection π)
    (sent : Connection π × Except Adp.Failure Unit) : Prop where
  admitted : ∀ failure, sent.2 = .error failure → failure.code ≠ .payloadTooLarge
  datagrams : sent.1.transmitted = before.transmitted ∨
    ∃ (protection : π) (space : Adp.PacketSpace) (number : Nat) (header body : Bytes),
      PacketProtection.sealPacket protection space number header frame = .ok body ∧
        (header ++ body).length ≤ kMaxDatagramBytes ∧
        sent.1.transmitted = before.transmitted ++ [header ++ body]

theorem admitted_ok : ∀ failure, (.ok () : Except Adp.Failure Unit) = .error failure →
    failure.code ≠ .payloadTooLarge := by
  intro failure same
  cases same

theorem admitted_error {failure : Adp.Failure} (other : failure.code ≠ .payloadTooLarge) :
    ∀ given, (.error failure : Except Adp.Failure Unit) = .error given →
      given.code ≠ .payloadTooLarge := by
  intro given same
  cases same
  exact other

theorem OneDatagram.refused {frame : Bytes} {c after : Connection π} {failure : Adp.Failure}
    (same : after.transmitted = c.transmitted) (other : failure.code ≠ .payloadTooLarge) :
    OneDatagram frame c (after, .error failure) := ⟨admitted_error other, .inl same⟩

/-- What goes out does not depend on how the send is answered. -/
theorem OneDatagram.answered {frame : Bytes} {c before after : Connection π}
    {outcome answer : Except Adp.Failure Unit} (once : OneDatagram frame before (after, outcome))
    (same : before.transmitted = c.transmitted)
    (admitted : ∀ failure, answer = .error failure → failure.code ≠ .payloadTooLarge) :
    OneDatagram frame c (after, answer) := by
  refine ⟨admitted, ?_⟩
  rw [← same]
  exact once.datagrams

variable [SizedProtection π] [Hmac]

theorem sendPacket_oneDatagram (c : Connection π) (type : Adp.PacketType)
    (isSealed : type.isSealed = true) (seq : Nat) {frame : Bytes}
    (small : frame.length ≤ kMaxSealedPayload) (now : Int) (key : Option Adp.PeerKey) :
    OneDatagram frame c (c.sendPacket type seq frame now key) := by
  have limit : Adp.kSealedHeaderBytes + kMaxSealedPayload + Adp.kPacketTagBytes = kMaxDatagramBytes := by
    decide
  unfold Connection.sendPacket Connection.buildDatagram Connection.sealDatagram
  rw [if_pos isSealed]
  cases c.protection with
  | none => exact OneDatagram.refused rfl Adp.ConnectionErr.noConfusion
  | some protection =>
      dsimp only
      cases done : PacketProtection.sealPacket protection (Adp.spaceOf type) seq
          (Adp.WireCodec.encodeSealedHeader ⟨type, c.id, seq⟩) frame with
      | error message =>
          exact OneDatagram.refused rfl Adp.ConnectionErr.noConfusion
      | ok body =>
          have size := SizedProtection.seal_length _ _ _ _ _ _ done
          have front := Adp.encodeSealedHeader_length ⟨type, c.id, seq⟩
          dsimp only
          split
          · apply OneDatagram.mk admitted_ok
            refine .inr ⟨protection, _, seq, _, body, done, ?_, rfl⟩
            rw [List.length_append, front, size]
            omega
          · exact OneDatagram.refused rfl Adp.ConnectionErr.noConfusion
          · exact OneDatagram.refused rfl Adp.ConnectionErr.noConfusion

theorem send_oneDatagram (c : Connection π) (sealing : c.isSealing = true) (qos : QosClass)
    {frame : Bytes} (small : frame.length ≤ kMaxSealedPayload) :
    OneDatagram frame c (c.send qos frame) := by
  unfold Connection.send
  split
  · exact OneDatagram.refused rfl Adp.ConnectionErr.noConfusion
  · rw [if_neg (Nat.not_lt.mpr small)]
    dsimp only
    cases qos with
    | bestEffort =>
        dsimp only
        split
        · exact OneDatagram.refused rfl Adp.ConnectionErr.noConfusion
        · have once := sendPacket_oneDatagram (c.numberBestEffort frame) .dataBestEffort rfl
            (c.txSeqBe + 1) small c.endpoint.nowMs none
          generalize (c.numberBestEffort frame).sendPacket .dataBestEffort (c.txSeqBe + 1) frame
            c.endpoint.nowMs none = sent at once ⊢
          obtain ⟨after, outcome⟩ := sent
          cases outcome with
          | error failure =>
              exact once.answered rfl (admitted_error Adp.ConnectionErr.noConfusion)
          | ok _ => exact once.answered rfl admitted_ok
    | reliable =>
        dsimp only
        split
        · exact OneDatagram.refused rfl Adp.ConnectionErr.noConfusion
        · split
          · exact OneDatagram.refused rfl Adp.ConnectionErr.noConfusion
          · have once := sendPacket_oneDatagram (c.numberReliable frame c.endpoint.nowMs) .dataReliable
              rfl (c.txSeqRel + 1) small c.endpoint.nowMs none
            generalize (c.numberReliable frame c.endpoint.nowMs).sendPacket .dataReliable
              (c.txSeqRel + 1) frame c.endpoint.nowMs none = sent at once ⊢
            obtain ⟨after, outcome⟩ := sent
            cases outcome with
            | error failure =>
                dsimp only
                split
                · exact once.answered rfl once.admitted
                · exact once.answered rfl admitted_ok
            | ok _ => exact once.answered rfl admitted_ok

end Datagrams

section Nesting

/-- The budgets of a link's mux and of the muxes it is nested in, each nested one as
`SetMaxFrameBytes(CarrierMaxFrameBytes())` took it. -/
inductive Budgets (τ : Type) : List Nat → Prop
  | direct : Budgets τ [ChannelMux.kDirectMaxFrameBytes]
  | nested {mux outer : ChannelMux τ} {outers : List Nat} (around : Budgets τ (outer.maxFrameBytes :: outers))
      (accepted : (mux.setMaxFrameBytes (ChannelMux.carrierMaxFrameBytes (some outer))).2 = .ok ()) :
      Budgets τ ((mux.setMaxFrameBytes (ChannelMux.carrierMaxFrameBytes (some outer))).1.maxFrameBytes ::
        outer.maxFrameBytes :: outers)

/-- Whatever state the links and muxes around are in, a frame that goes to its carrier is one DATA
frame of the next mux, which goes on the same way, up to the one datagram on the network. -/
def Rides (π τ : Type) [PacketProtection π] [MuxTransport τ] [Hmac] : List Nat → Bytes → Prop
  | [], frame => ∀ (connection : Connection π) (qos : QosClass), connection.isSealing = true →
      OneDatagram frame connection (connection.send qos frame)
  | budget :: outers, frame => ∀ (link : CarrierLink π) (qos : QosClass) (now : Int) (payload : Bytes),
      link.carrierWire qos frame now = .ok payload →
      (link.transmit qos frame now).sent.Perm (link.sent ++ [payload]) ∧
      ∀ (outer : ChannelMux τ) (id : UInt32) (channel : ChannelRecord), outer.maxFrameBytes = budget →
        outer.channelById id = some channel →
        ChannelMux.Emits outer id channel.policy.cls [ChannelMux.dataFrame id channel.txSeq payload]
            (outer.sendData id payload) ∧
          Rides π τ outers (ChannelMux.wireOf (ChannelMux.dataFrame id channel.txSeq payload))

theorem setMaxFrameBytes_ok {τ : Type} {mux : ChannelMux τ} {bytes : Nat}
    (accepted : (mux.setMaxFrameBytes bytes).2 = .ok ()) :
    kMinFrameBytes ≤ bytes ∧ (mux.setMaxFrameBytes bytes).1.maxFrameBytes = bytes := by
  unfold ChannelMux.setMaxFrameBytes at accepted ⊢
  by_cases less : bytes < kMinFrameBytes
  · rw [if_pos less] at accepted
    cases accepted
  · rw [if_neg less]
    exact ⟨Nat.not_lt.mp less, rfl⟩

theorem Budgets.floor {τ : Type} {budget : Nat} {outers : List Nat}
    (budgets : Budgets τ (budget :: outers)) : kMinFrameBytes ≤ budget := by
  cases budgets with
  | direct => decide
  | nested around accepted =>
      obtain ⟨enough, same⟩ := setMaxFrameBytes_ok accepted
      rw [same]
      exact enough

/-- A budget that is taken leaves room in the outer mux for what the link wraps around a frame. -/
theorem carrierMaxFrameBytes_room {τ : Type} {outer : ChannelMux τ}
    (enough : kMinFrameBytes ≤ ChannelMux.carrierMaxFrameBytes (some outer)) :
    ChannelMux.carrierMaxFrameBytes (some outer) + (kChannelHeaderBytes + kCarrierLaneHeaderBytes +
      kCarrierSealedHeaderBytes + Adp.kPacketTagBytes) = outer.maxFrameBytes := by
  have floor : kMinFrameBytes = 64 := rfl
  have budget : ChannelMux.carrierMaxFrameBytes (some outer) = outer.maxFrameBytes -
      (kChannelHeaderBytes + kCarrierLaneHeaderBytes + kCarrierSealedHeaderBytes +
        Adp.kPacketTagBytes) := by
    show (if _ < outer.maxFrameBytes then outer.maxFrameBytes - _ else 0) = _
    split
    · rfl
    · rename_i none
      exact (Nat.sub_eq_zero_of_le (Nat.not_lt.mp none)).symm
  omega

theorem rides_of_budgets {π τ : Type} [PacketProtection π] [SizedProtection π] [MuxTransport τ] [Hmac]
    {outers : List Nat} : ∀ {budget : Nat} {frame : Bytes},
    Budgets τ (budget :: outers) → frame.length ≤ budget → Rides π τ outers frame := by
  induction outers with
  | nil =>
      intro budget frame budgets small
      cases budgets
      exact fun connection qos sealing => send_oneDatagram connection sealing qos small
  | cons outerBudget outers ih =>
      intro budget frame budgets small
      cases budgets with
      | nested around accepted =>
          rename_i mux around
          intro link qos now payload sent
          constructor
          · have given := link.transmit_sent qos frame now
            rw [sent] at given
            exact given
          intro outer id channel same found
          obtain ⟨enough, taken⟩ := setMaxFrameBytes_ok accepted
          have room := carrierMaxFrameBytes_room enough
          have size := CarrierLink.carrierWire_length sent
          have header : kChannelHeaderBytes = 9 := rfl
          have single : outer.fitsOneFrame payload := by
            show payload.length ≤ outer.maxFrameBytes - kChannelHeaderBytes
            omega
          constructor
          · have one : outer.payloadFrames id channel.txSeq payload = _ := if_pos single
            rw [← one]
            exact ChannelMux.sendData_emits_any found
          · rw [← same] at around
            apply ih around
            rw [ChannelMux.wireOf_data_length]
            omega

/-- Whatever is sent at whatever depth, no mux around cuts its frames again. -/
theorem nested_frames (π τ : Type) [PacketProtection π] [SizedProtection π] [MuxTransport τ] [Hmac]
    {budget : Nat} {outers : List Nat} (budgets : Budgets τ (budget :: outers)) (mux : ChannelMux τ)
    (same : mux.maxFrameBytes = budget) (id : UInt32) {channel : ChannelRecord}
    (found : mux.channelById id = some channel) (payload : Bytes) :
    ∃ frames, ChannelMux.Emits mux id channel.policy.cls frames (mux.sendData id payload) ∧
      ∀ frame ∈ frames, Rides π τ outers (ChannelMux.wireOf frame) := by
  have floor := same ▸ budgets.floor
  refine ⟨_, ChannelMux.sendData_emits_any found, ?_⟩
  intro frame member
  have small := ChannelMux.payloadFrames_small floor id channel.txSeq frame member
  exact rides_of_budgets budgets (same ▸ small)

end Nesting

section Sample

/-- A cipher with a blank tag, of the library's length. -/
local instance : Aead where
  encrypt _ _ _ plaintext := some (plaintext ++ List.replicate Adp.kPacketTagBytes 0)
  decrypt _ _ _ ciphertext := some (ciphertext.take (ciphertext.length - Adp.kPacketTagBytes))

local instance : SizedAead where
  encrypt_length made := by
    cases made
    rw [List.length_append, List.length_replicate]

/-- The mux of a link on the network, of one nested in it and of one nested in that. -/
def sampleOuter : ChannelMux Pipe := ChannelMux.create true {}

def sampleMiddle : ChannelMux Pipe :=
  (sampleOuter.setMaxFrameBytes (ChannelMux.carrierMaxFrameBytes (some sampleOuter))).1

def sampleInner : ChannelMux Pipe :=
  { (sampleOuter.setMaxFrameBytes (ChannelMux.carrierMaxFrameBytes (some sampleMiddle))).1 with
    channels := AList.singleton 1 { state := .opened } }

theorem nested_frames_sample : ∃ frames,
    ChannelMux.Emits sampleInner 1 .control frames (sampleInner.sendData 1 (List.replicate 3000 7)) ∧
      ∀ frame ∈ frames, Rides Session Pipe
        [sampleMiddle.maxFrameBytes, sampleOuter.maxFrameBytes] (ChannelMux.wireOf frame) :=
  nested_frames Session Pipe (.nested (.nested .direct rfl) rfl) sampleInner rfl 1 rfl
    (List.replicate 3000 7)

end Sample

end Amp
