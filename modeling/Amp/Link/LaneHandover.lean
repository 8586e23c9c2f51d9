import Amp.L1.Sample
import Amp.Link.CarrierLink
import Amp.Link.LaneDelivery

set_option autoImplicit false

/- From the lane to the mux: what a link has acknowledged it keeps until it is
Connected, and from then on each packet is opened and handed on once, in the
lane's order. The backlog is the only place on the way where one can be lost. -/
namespace Amp

open Adp (Bytes PacketProtection ReplayWindow QosClass PacketSpace)

namespace CarrierLink

variable {π : Type}

theorem wrap_fields (this : LaneEnd) (wire : Bytes) (now : Int) :
    (this.wrap wire now).released = this.released ∧
      (this.wrap wire now).lane.rxCumulative = this.lane.rxCumulative ∧
      (this.wrap wire now).lane.peerSpeaksLane = this.lane.peerSpeaksLane := by
  unfold LaneEnd.wrap CarrierLane.wrap
  by_cases full : this.lane.config.window ≤ this.lane.outstanding.length
  · simp only [full, ↓reduceIte, and_self]
  · simp only [full, ↓reduceIte, and_self]

/-- The lane's window is full, or the packet is wrapped. -/
theorem ride_cases (link : CarrierLink π) (number : Nat) (frame wire : Bytes) (now : Int) :
    link.ride number frame wire now = link ∨
    (link.lane.wrap wire now).wrapped = link.lane.wrapped ++ [wire] ∧
      link.ride number frame wire now =
        { link with lane := link.lane.wrap wire now, laned := link.laned ++ [(number, frame)] } := by
  unfold ride LaneEnd.wrap CarrierLane.wrap
  by_cases full : link.lane.lane.config.window ≤ link.lane.lane.outstanding.length
  · simp only [full, ↓reduceIte, true_or]
  · simp only [full, ↓reduceIte, and_self, or_true]

/-- The lane's own account of what a payload releases. -/
theorem receive_released (link : CarrierLink π) (payload : Bytes) (now : Int) :
    (link.lane.receive payload now).released =
      link.lane.released ++ (link.released payload).getD [] := by
  unfold LaneEnd.receive CarrierLink.released
  by_cases isAck : payload.head? = some AmpAdpPayloadKind.laneAck.code
  · have notData : payload.head? ≠ some AmpAdpPayloadKind.laneData.code := by
      rw [isAck]
      decide
    rw [if_pos isAck, if_pos notData]
    split <;> exact (List.append_nil _).symm
  · by_cases isData : payload.head? = some AmpAdpPayloadKind.laneData.code
    · rw [if_neg isAck, if_pos isData, if_neg (not_not.mpr isData)]
      cases read : AmpAdpCarrier.decodeLaneData payload with
      | error message => exact (List.append_nil _).symm
      | ok data => rfl
    · rw [if_neg isAck, if_neg isData, if_pos isData]
      exact (List.append_nil _).symm

/-- A lane payload releases no more than a window. -/
theorem released_length {link peer : CarrierLink π}
    (lanes : LaneEnd.Joined {} link.lane peer.lane) (short : peer.lane.wrapped.length < 2 ^ 32)
    {payload : Bytes} (sent : payload ∈ peer.lane.sent) {deliver : List Bytes}
    (releases : link.released payload = some deliver) : deliver.length ≤ 256 := by
  unfold CarrierLink.released at releases
  cases lanes.other.sent payload sent with
  | ack ack vouches =>
      have notData : (AmpAdpCarrier.encodeLaneAck ack).head? ≠
          some AmpAdpPayloadKind.laneData.code := by simp [AmpAdpCarrier.encodeLaneAck]; decide
      rw [if_pos notData] at releases
      cases releases
  | data seq inner positive named =>
      have bound := (List.getElem?_eq_some_iff.mp named).1
      have tuned : link.lane.lane.config.window = 256 := by rw [lanes.own.tuned]
      have isData : (AmpAdpCarrier.encodeLaneData seq inner).head? =
          some AmpAdpPayloadKind.laneData.code := rfl
      rw [if_neg (not_not.mpr isData)] at releases
      split at releases
      · cases releases
      · rename_i number item ok
        have same := AmpAdpCarrier.decodeLaneData_encode seq inner (by omega) _ ok
        cases same
        have count := lanes.inward.receives.deliver_length seq inner named
        rw [← Option.some.inj releases, ← tuned]
        exact count

theorem settle_speaks (ack : LaneAckFields) (now : Int) (frames : List LaneFrame) :
    ∀ lane : CarrierLane,
      (CarrierLane.settle ack now frames lane).1.peerSpeaksLane = lane.peerSpeaksLane := by
  induction frames with
  | nil => exact fun _ => rfl
  | cons frame rest ih =>
      intro lane
      simp only [CarrierLane.settle]
      split
      · rw [ih]
        split
        · unfold CarrierLane.sampleRtt
          dsimp only
          split <;> rfl
        · rfl
      · exact ih lane

theorem receive_speaks (this : LaneEnd) (payload : Bytes) (now : Int)
    (speaks : this.lane.peerSpeaksLane = true) :
    (this.receive payload now).lane.peerSpeaksLane = true := by
  unfold LaneEnd.receive
  split
  · split
    · exact settle_speaks ..
    · rfl
  · split
    · split <;> rfl
    · exact speaks

/-- The packets of the lane among all that the mux was given. -/
def lanePackets (receiver sender : CarrierLink π) : List (CarrierSealedHeader × Bytes) :=
  receiver.inbound.filter fun entry =>
    entry.1.reliable && sender.laned.any fun packet => packet.1 == entry.1.number

/-- A packet of the lane as the mux is given it. -/
def asInbound (packet : Nat × Bytes) : CarrierSealedHeader × Bytes := (⟨true, packet.1⟩, packet.2)

/-- The receiver's mux was given the first `count` packets of the lane; no number at or
above the next one has been taken. -/
structure Passes (sender receiver : CarrierLink π) (count : Nat) : Prop where
  passed : receiver.lanePackets sender = (sender.laned.take count).map asInbound
  taken : ∀ number, receiver.carrierRxRel.Accepted number →
    number ≤ sender.carrierTxRel ∧ ∀ packet ∈ sender.laned.drop count, number < packet.1
  slides : receiver.carrierRxRel.slideOnGap = true
  known : ∀ entry ∈ receiver.inbound, entry.1.reliable = true →
    entry.1.number ≤ sender.carrierTxRel

/-- What the lane released is with the mux up to `count`, the rest in the backlog. -/
structure Handing (sender receiver : CarrierLink π) (count : Nat) : Prop where
  passes : Passes sender receiver count
  within : count ≤ receiver.lane.released.length
  stored : receiver.phase = .connected ∨ receiver.wasConnected = false →
    receiver.laneBacklog = receiver.lane.released.drop count
  drained : receiver.phase = .connected → count = receiver.lane.released.length

/-- The side of a link that receives. -/
def hearing (link : CarrierLink π) : PeerLinkPhase × List Bytes × ReplayWindow ×
    List (CarrierSealedHeader × Bytes) × Bool × List Bytes :=
  (link.phase, link.laneBacklog, link.carrierRxRel, link.inbound, link.wasConnected,
    link.lane.released)

theorem Handing.congr {sender receiver next : CarrierLink π} {count : Nat}
    (handing : Handing sender receiver count) (same : next.hearing = receiver.hearing) :
    Handing sender next count := by
  simp only [hearing, Prod.mk.injEq] at same
  obtain ⟨phase, backlog, rel, inbound, was, released⟩ := same
  obtain ⟨⟨passed, taken, slides, known⟩, within, stored, drained⟩ := handing
  unfold lanePackets at passed
  rw [← inbound] at passed known
  rw [← rel] at taken slides
  rw [← released] at within stored drained
  rw [← phase, ← was, ← backlog] at stored
  rw [← phase] at drained
  exact ⟨⟨passed, taken, slides, known⟩, within, stored, drained⟩

/-- The sender is only seen by its packets, its numbers and its keys. -/
theorem Handing.sender {sender next receiver : CarrierLink π} {count : Nat}
    (handing : Handing sender receiver count) (laned : next.laned = sender.laned)
    (number : next.carrierTxRel = sender.carrierTxRel) : Handing next receiver count := by
  obtain ⟨⟨passed, taken, slides, known⟩, within, stored, drained⟩ := handing
  unfold lanePackets at passed
  rw [← laned] at passed taken
  rw [← number] at taken known
  exact ⟨⟨passed, taken, slides, known⟩, within, stored, drained⟩

/-- Room in the backlog for all that a payload releases, unless the mux is there. -/
def RoomFor (link : CarrierLink π) (payload : Bytes) : Prop :=
  link.wasConnected = true ∨
    link.laneBacklog.length + ((link.released payload).getD []).length ≤ kMaxLaneBacklogFrames

/-- What a lane frame releases all goes to the backlog of a link that is not Connected, and
through it to the mux of one that is. -/
theorem Handing.store {sender receiver : CarrierLink π} {count : Nat}
    (handing : Handing sender receiver count)
    (lanes : LaneEnd.Joined {} receiver.lane sender.lane)
    (short : sender.lane.wrapped.length < 2 ^ 32) {payload : Bytes}
    (sent : payload ∈ sender.lane.sent) (room : receiver.RoomFor payload) {deliver : List Bytes}
    (releases : receiver.released payload = some deliver)
    (live : receiver.phase = .connected ∨ receiver.wasConnected = false) :
    receiver.laneBacklog ++
        deliver.take (kMaxLaneBacklogFrames - receiver.laneBacklog.length) =
      (receiver.lane.released ++ deliver).drop count := by
  have window := released_length lanes short sent releases
  have stored := handing.stored live
  have fitting : deliver.length ≤ kMaxLaneBacklogFrames - receiver.laneBacklog.length := by
    rcases live with up | never
    · rw [stored, handing.drained up, List.drop_length]
      exact window
    · rcases room with was | room
      · exact absurd (never.symm.trans was) Bool.false_ne_true
      · rw [releases, Option.getD_some] at room
        exact Nat.le_sub_of_add_le' room
  rw [List.take_of_length_le fitting, List.drop_append_of_le_length handing.within, stored]

theorem fresh_handing (left right : π) :
    Handing ({ keys := left } : CarrierLink π) { keys := right } 0 := by
  refine ⟨⟨rfl, fun number taken => ?_, rfl, ?_⟩, Nat.le_refl _, fun _ => rfl,
    fun up => PeerLinkPhase.noConfusion up⟩
  · refine ⟨?_, fun _ absent => absurd absent List.not_mem_nil⟩
    rcases taken with low | held
    · exact low
    · exact absurd held (Finset.notMem_empty _)
  · exact fun _ absent => absurd absent List.not_mem_nil

variable [PacketProtection π]

/-- Two ends of one session and epoch: what one seals the other opens. -/
structure Fits (sealer opener : π) : Prop where
  opens : ∀ space number header plaintext body now,
    PacketProtection.sealPacket sealer space number header plaintext = .ok body →
    PacketProtection.openPacket opener space number header body now = .ok plaintext
  tagged : ∀ space number header plaintext body,
    PacketProtection.sealPacket sealer space number header plaintext = .ok body →
    Adp.kPacketTagBytes ≤ body.length

/-- `wire` is `frame`, sealed as packet `number` of its class. -/
def Seals (keys : π) (reliable : Bool) (number : Nat) (frame wire : Bytes) : Prop :=
  0 < number ∧ number < 2 ^ 32 ∧ ∃ body,
    PacketProtection.sealPacket keys (carrierSpace reliable) number
      (AmpAdpCarrier.encodeSealedHeader reliable number) frame = .ok body ∧
    wire = AmpAdpCarrier.encodeSealedHeader reliable number ++ body

/-- A link by itself. Its packets on the lane are sealed under rising numbers, above
those that went before the peer spoke the lane. -/
structure Own (link : CarrierLink π) : Prop where
  session : ∀ session, link.session = some session → session = link.keys
  numbers : link.carrierTxRel < 2 ^ 32 ∧ link.carrierTxBe < 2 ^ 32
  packets : List.Forall₂ (fun packet wire => Seals link.keys true packet.1 packet.2 wire)
    link.laned link.lane.wrapped
  rising : link.laned.Pairwise fun low high => low.1 < high.1
  named : ∀ packet ∈ link.laned, packet.1 ≤ link.carrierTxRel
  count : link.laned.length ≤ link.carrierTxRel
  unasked : link.carrierLaneActive = false → link.laned = []
  direct : ∀ wire ∈ link.direct, ∃ reliable number frame,
    Seals link.keys reliable number frame wire ∧
      (reliable = true → number ≤ link.carrierTxRel ∧ ∀ packet ∈ link.laned, number < packet.1)
  waiting : link.phase = .handshaking → link.wasConnected = false
  untouched : link.wasConnected = false → link.inbound = [] ∧ link.phase ≠ .connected
  connected : link.phase = .connected → link.session = some link.keys

section Sealing

/-- A number is taken, or the packet was not sealed at all. -/
theorem sealCarrierFrame_cases (link : CarrierLink π) (reliable : Bool) (frame : Bytes)
    (fits : link.carrierTxRel < 2 ^ 32 ∧ link.carrierTxBe < 2 ^ 32) :
    (∃ message, link.sealCarrierFrame reliable frame = (link, .error message)) ∨
    link.nextNumber reliable < 2 ^ 32 ∧
      ((∃ message, link.sealCarrierFrame reliable frame =
          (link.takeNumber reliable, .error message)) ∨
        ∃ session wire, link.session = some session ∧
          link.sealCarrierFrame reliable frame = (link.takeNumber reliable, .ok wire) ∧
          Seals session reliable (link.nextNumber reliable) frame wire) := by
  unfold sealCarrierFrame
  split
  · exact Or.inl ⟨_, rfl⟩
  · rename_i session held
    by_cases spent : link.nextNumber reliable = 2 ^ 32
    · rw [if_pos spent]
      exact Or.inl ⟨_, rfl⟩
    · have below : link.nextNumber reliable < 2 ^ 32 := by
        unfold nextNumber at spent ⊢
        cases reliable <;> simp only [Bool.false_eq_true, ↓reduceIte] at spent ⊢ <;> omega
      rw [if_neg spent]
      refine Or.inr ⟨below, ?_⟩
      dsimp only
      split
      · exact Or.inl ⟨_, rfl⟩
      · rename_i body sealed
        exact Or.inr ⟨session, _, held, rfl, Nat.succ_pos _, below, body, sealed, rfl⟩

theorem Own.takeNumber {link : CarrierLink π} (own : Own link) (reliable : Bool)
    (fits : link.nextNumber reliable < 2 ^ 32) : Own (link.takeNumber reliable) := by
  cases reliable with
  | false =>
      exact ⟨own.session, ⟨own.numbers.1, fits⟩, own.packets, own.rising, own.named, own.count,
        own.unasked, own.direct, own.waiting, own.untouched, own.connected⟩
  | true =>
      refine ⟨own.session, ⟨fits, own.numbers.2⟩, own.packets, own.rising, ?_,
        Nat.le_succ_of_le own.count, own.unasked, ?_, own.waiting, own.untouched, own.connected⟩
      · intro packet member
        exact Nat.le_succ_of_le (own.named packet member)
      · intro wire member
        obtain ⟨reliable, number, frame, seals, below⟩ := own.direct wire member
        refine ⟨reliable, number, frame, seals, fun asked => ?_⟩
        exact ⟨Nat.le_succ_of_le (below asked).1, (below asked).2⟩

/-- What sending may change at a link: nothing, a number spent, a packet given to the
carrier, or one more on the lane. -/
inductive Told (link : CarrierLink π) : CarrierLink π → Prop where
  | still : Told link link
  | spent (reliable : Bool) (fits : link.nextNumber reliable < 2 ^ 32) :
      Told link (link.takeNumber reliable)
  | plain (reliable : Bool) (alone : reliable = true → link.laned = []) (frame wire : Bytes)
      (seals : Seals link.keys reliable (link.nextNumber reliable) frame wire) :
      Told link { link.takeNumber reliable with
        direct := (link.takeNumber reliable).direct ++ [wire] }
  | rode (frame wire : Bytes) (now : Int) (speaks : link.carrierLaneActive = true)
      (seals : Seals link.keys true (link.carrierTxRel + 1) frame wire)
      (wrapped : (link.lane.wrap wire now).wrapped = link.lane.wrapped ++ [wire]) :
      Told link { link.takeNumber true with
        lane := link.lane.wrap wire now
        laned := link.laned ++ [(link.carrierTxRel + 1, frame)] }

theorem transmit_told {link : CarrierLink π} (own : Own link) (qos : QosClass) (frame : Bytes)
    (now : Int) : Told link (link.transmit qos frame now) := by
  unfold CarrierLink.transmit
  rcases sealCarrierFrame_cases link (qos == .reliable) frame own.numbers with
    ⟨message, unsealed⟩ | ⟨fits, ⟨message, failed⟩ | ⟨session, wire, held, done, seals⟩⟩
  · simp only [unsealed]
    exact .still
  · simp only [failed]
    exact .spent _ fits
  · have sealer := own.session session held
    subst sealer
    simp only [done, Bool.and_eq_true]
    by_cases rides : (qos == .reliable) = true ∧ link.carrierLaneActive = true
    · rw [if_pos rides]
      rw [rides.1] at seals ⊢
      rcases ride_cases (link.takeNumber true) (link.nextNumber true) frame wire now with
        full | ⟨wrapped, rode⟩
      · rw [full]
        exact .spent true seals.2.1
      · rw [rode]
        exact .rode frame wire now rides.2 seals wrapped
    · rw [if_neg rides]
      apply Told.plain _ _ frame wire seals
      intro reliable
      apply own.unasked
      exact Bool.eq_false_iff.mpr fun active => rides ⟨reliable, active⟩

theorem Told.own {link next : CarrierLink π} (told : Told link next) (own : Own link) :
    Own next := by
  cases told with
  | still => exact own
  | spent reliable fits => exact own.takeNumber reliable fits
  | plain reliable alone frame wire seals =>
      have taken : Own (link.takeNumber reliable) := own.takeNumber reliable seals.2.1
      have same : (link.takeNumber reliable).keys = link.keys ∧
          (link.takeNumber reliable).laned = link.laned := by
        cases reliable <;> exact ⟨rfl, rfl⟩
      refine ⟨taken.session, taken.numbers, taken.packets, taken.rising, taken.named, taken.count,
        taken.unasked, ?_, taken.waiting, taken.untouched, taken.connected⟩
      intro other member
      rcases List.mem_append.mp member with old | last
      · exact taken.direct other old
      · rw [List.mem_singleton.mp last]
        refine ⟨reliable, link.nextNumber reliable, frame, ?_, fun asked => ?_⟩
        · show Seals (link.takeNumber reliable).keys _ _ _ _
          rw [same.1]
          exact seals
        · show _ ∧ ∀ packet ∈ (link.takeNumber reliable).laned, _
          rw [same.2, alone asked, asked]
          exact ⟨Nat.le_refl _, fun _ absent => absurd absent List.not_mem_nil⟩
  | rode frame wire now speaks seals wrapped =>
      have taken : Own (link.takeNumber true) := own.takeNumber true seals.2.1
      refine ⟨taken.session, taken.numbers, ?_, ?_, ?_, ?_, ?_, ?_, taken.waiting,
        taken.untouched, taken.connected⟩
      · show List.Forall₂ _ (link.laned ++ _) (link.lane.wrap wire now).wrapped
        rw [wrapped]
        exact List.rel_append own.packets (.cons seals .nil)
      · apply List.pairwise_append.mpr
        refine ⟨own.rising, List.pairwise_singleton .., fun low inside high last => ?_⟩
        rw [List.mem_singleton.mp last]
        exact Nat.lt_succ_of_le (own.named low inside)
      · intro packet member
        rcases List.mem_append.mp member with old | last
        · exact taken.named packet old
        · rw [List.mem_singleton.mp last]
          exact Nat.le_refl _
      · show (link.laned ++ [_]).length ≤ link.carrierTxRel + 1
        rw [List.length_append, List.length_singleton]
        exact Nat.succ_le_succ own.count
      · intro silent
        have active : (link.lane.wrap wire now).lane.peerSpeaksLane = true :=
          (wrap_fields link.lane wire now).2.2.trans speaks
        exact absurd (active.symm.trans silent) (by decide)
      · intro other member
        obtain ⟨reliable, number, old, sealed, below⟩ := own.direct other member
        refine ⟨reliable, number, old, sealed, fun asked => ?_⟩
        refine ⟨Nat.le_succ_of_le (below asked).1, fun packet inside => ?_⟩
        rcases List.mem_append.mp inside with before | last
        · exact (below asked).2 packet before
        · rw [List.mem_singleton.mp last]
          exact Nat.lt_succ_of_le (below asked).1

/-- What is new on the lane is numbered above all that went before. -/
theorem Told.laned {link next : CarrierLink π} (told : Told link next) :
    link.carrierTxRel ≤ next.carrierTxRel ∧ ∃ more, next.laned = link.laned ++ more ∧
      ∀ packet ∈ more, link.carrierTxRel < packet.1 := by
  have none : ∀ packet ∈ ([] : List (Nat × Bytes)), link.carrierTxRel < packet.1 :=
    fun _ absent => absurd absent List.not_mem_nil
  have taken (reliable : Bool) : link.carrierTxRel ≤ (link.takeNumber reliable).carrierTxRel ∧
      (link.takeNumber reliable).laned = link.laned := by
    cases reliable with
    | false => exact ⟨Nat.le_refl _, rfl⟩
    | true => exact ⟨Nat.le_succ _, rfl⟩
  cases told with
  | still => exact ⟨Nat.le_refl _, [], (List.append_nil _).symm, none⟩
  | spent reliable _ =>
      exact ⟨(taken reliable).1, [], by rw [List.append_nil]; exact (taken reliable).2, none⟩
  | plain reliable _ _ _ _ =>
      exact ⟨(taken reliable).1, [], by rw [List.append_nil]; exact (taken reliable).2, none⟩
  | rode frame _ _ _ _ _ =>
      refine ⟨Nat.le_succ _, [(link.carrierTxRel + 1, frame)], rfl, fun packet member => ?_⟩
      rw [List.mem_singleton.mp member]
      exact Nat.lt_succ_self _

end Sealing

section Hearing

/-- What hearing a packet may change at a link. -/
def heard (link : CarrierLink π) (backlog : List Bytes) (be rel : ReplayWindow)
    (inbound : List (CarrierSealedHeader × Bytes)) : CarrierLink π :=
  { link with laneBacklog := backlog, carrierRxBe := be, carrierRxRel := rel, inbound := inbound }

theorem deliverSealedCarrierWire_heard (link : CarrierLink π) (now : Int) (wire : Bytes) :
    ∃ be rel inbound, link.deliverSealedCarrierWire now wire =
      link.heard link.laneBacklog be rel inbound := by
  have still : ∃ be rel inbound, link = link.heard link.laneBacklog be rel inbound :=
    ⟨link.carrierRxBe, link.carrierRxRel, link.inbound, rfl⟩
  unfold deliverSealedCarrierWire
  split
  · exact still
  · exact still
  · rename_i session header _ _
    split
    · exact still
    · split
      · exact still
      · unfold deliverFrame acceptNumber
        cases header.reliable with
        | false =>
            by_cases up : link.phase = .connected
            · refine ⟨_, _, _, if_neg ?_⟩
              exact not_not.mpr up
            · exact ⟨_, _, _, if_pos up⟩
        | true =>
            by_cases up : link.phase = .connected
            · refine ⟨_, _, _, if_neg ?_⟩
              exact not_not.mpr up
            · exact ⟨_, _, _, if_pos up⟩

/-- A packet the peer sealed is opened, unless its number was taken. -/
theorem deliver_sealed (link : CarrierLink π) {sealer : π} (fits : Fits sealer link.keys)
    (held : link.session = some link.keys) (now : Int) {reliable : Bool} {number : Nat}
    {frame wire : Bytes} (seals : Seals sealer reliable number frame wire) :
    link.deliverSealedCarrierWire now wire =
      if (link.window reliable).classify number ≠ .fresh then link
      else (link.acceptNumber ⟨reliable, number⟩).deliverFrame ⟨reliable, number⟩ frame := by
  obtain ⟨_, below, body, sealed, rfl⟩ := seals
  have tagged := fits.tagged _ _ _ _ _ sealed
  have size := AmpAdpCarrier.encodeSealedHeader_length reliable number
  have read := AmpAdpCarrier.decodeSealedHeader_encode reliable number body below tagged
  have opened := fits.opens _ _ _ _ _ now sealed
  unfold deliverSealedCarrierWire
  rw [held, read]
  dsimp only
  rw [← size, List.take_left, List.drop_left, opened]

/-- The lane's next packet: it is opened and handed on. -/
theorem Passes.next {sender receiver : CarrierLink π} {count : Nat}
    (passes : Passes sender receiver count) (own : Own sender)
    (fits : Fits sender.keys receiver.keys) (up : receiver.phase = .connected)
    (held : receiver.session = some receiver.keys) (now : Int) {wire : Bytes}
    (next : sender.lane.wrapped[count]? = some wire) :
    Passes sender (receiver.deliverSealedCarrierWire now wire) (count + 1) := by
  have inside := (List.getElem?_eq_some_iff.mp next).1
  have length := own.packets.length_eq
  obtain ⟨packet, listed⟩ : ∃ packet, sender.laned[count]? = some packet :=
    ⟨_, List.getElem?_eq_getElem (by omega)⟩
  have place : count < sender.laned.length := by omega
  have value : sender.laned[count] = packet := (List.getElem?_eq_some_iff.mp listed).2
  have seals : Seals sender.keys true packet.1 packet.2 wire := by
    have pair := own.packets.get place inside
    simp only [List.get_eq_getElem] at pair
    rw [value, (List.getElem?_eq_some_iff.mp next).2] at pair
    exact pair
  have split : sender.laned.drop count = packet :: sender.laned.drop (count + 1) := by
    rw [List.drop_eq_getElem_cons place, value]
  have member : packet ∈ sender.laned := value ▸ List.getElem_mem place
  have unknown : ¬ receiver.carrierRxRel.Accepted packet.1 := by
    intro known
    have below := (passes.taken packet.1 known).2 packet (split ▸ List.mem_cons_self ..)
    exact absurd below (Nat.lt_irrefl _)
  have fresh := ReplayWindow.fresh_of_slides passes.slides seals.1 unknown
  rw [deliver_sealed receiver fits held now seals,
    if_neg (not_not.mpr (show (receiver.window true).classify packet.1 = .fresh from fresh))]
  unfold deliverFrame acceptNumber
  rw [if_pos rfl, if_neg (not_not.mpr up)]
  refine ⟨?_, ?_, ?_, ?_⟩
  · show List.filter _ (receiver.inbound ++ [asInbound packet]) = _
    have kept : (sender.laned.any fun other => other.1 == packet.1) = true :=
      List.any_eq_true.mpr ⟨packet, member, beq_self_eq_true _⟩
    rw [List.filter_append, List.take_add_one, listed, List.map_append]
    apply congrArg₂ _ passes.passed
    simp only [asInbound, List.filter_cons, kept, Bool.true_and, ↓reduceIte, List.filter_nil,
      Option.toList_some, List.map_cons, List.map_nil]
  · intro number accepted
    have rising := (List.pairwise_cons.mp (split ▸ own.rising.sublist (List.drop_sublist ..))).1
    rcases ReplayWindow.accepted_of_accept _ _ _ accepted with before | low
    · have bounds := passes.taken number before
      rw [split] at bounds
      exact ⟨bounds.1, fun other later => bounds.2 other (List.mem_cons_of_mem _ later)⟩
    · have bound := own.named packet member
      refine ⟨Nat.le_trans low bound, fun other later => ?_⟩
      exact Nat.lt_of_le_of_lt low (rising other later)
  · exact (ReplayWindow.accept_slideOnGap _ _).trans passes.slides
  · intro entry given reliable
    rcases List.mem_append.mp given with before | last
    · exact passes.known entry before reliable
    · rw [List.mem_singleton.mp last]
      exact own.named packet member

/-- A packet that came past the lane is none of the lane's. -/
theorem Passes.aside {sender receiver : CarrierLink π} {count : Nat}
    (passes : Passes sender receiver count) (own : Own sender)
    (fits : Fits sender.keys receiver.keys) (up : receiver.phase = .connected)
    (held : receiver.session = some receiver.keys) (now : Int) {wire : Bytes}
    (sent : wire ∈ sender.direct) :
    Passes sender (receiver.deliverSealedCarrierWire now wire) count := by
  obtain ⟨reliable, number, frame, seals, below⟩ := own.direct wire sent
  rw [deliver_sealed receiver fits held now seals]
  by_cases fresh : (receiver.window reliable).classify number = .fresh
  · rw [if_neg (not_not.mpr fresh)]
    have other : (reliable && sender.laned.any fun packet => packet.1 == number) = false := by
      rw [Bool.and_eq_false_iff]
      cases reliable with
      | false => exact Or.inl rfl
      | true =>
          refine Or.inr (List.any_eq_false.mpr fun packet member same => ?_)
          have above := (below rfl).2 packet member
          rw [beq_iff_eq] at same
          omega
    have passed : List.filter (fun entry : CarrierSealedHeader × Bytes =>
        entry.1.reliable && sender.laned.any fun packet => packet.1 == entry.1.number)
        (receiver.inbound ++ [(⟨reliable, number⟩, frame)]) =
          (sender.laned.take count).map asInbound := by
      rw [List.filter_append, List.filter_singleton, other]
      exact (List.append_nil _).trans passes.passed
    unfold deliverFrame acceptNumber
    cases reliable with
    | false =>
        rw [if_neg Bool.false_ne_true, if_neg (not_not.mpr up)]
        refine ⟨passed, passes.taken, passes.slides, fun entry given asked => ?_⟩
        rcases List.mem_append.mp given with before | last
        · exact passes.known entry before asked
        · rw [List.mem_singleton.mp last] at asked
          exact absurd asked Bool.false_ne_true
    | true =>
        rw [if_pos rfl, if_neg (not_not.mpr up)]
        refine ⟨passed, fun other accepted => ?_,
          (ReplayWindow.accept_slideOnGap _ _).trans passes.slides, fun entry given asked => ?_⟩
        · rcases ReplayWindow.accepted_of_accept _ _ _ accepted with before | low
          · exact passes.taken other before
          · refine ⟨Nat.le_trans low (below rfl).1, fun packet later => ?_⟩
            exact Nat.lt_of_le_of_lt low ((below rfl).2 packet (List.mem_of_mem_drop later))
        · rcases List.mem_append.mp given with before | last
          · exact passes.known entry before asked
          · rw [List.mem_singleton.mp last]
            exact (below rfl).1
  · rw [if_pos fresh]
    exact passes

theorem Passes.grow {sender next receiver : CarrierLink π} {count : Nat}
    (passes : Passes sender receiver count) (told : Told sender next)
    (within : count ≤ sender.laned.length) : Passes next receiver count := by
  obtain ⟨rises, more, laned, above⟩ := told.laned
  refine ⟨?_, fun number accepted => ?_, passes.slides, fun entry given reliable => ?_⟩
  · have same : receiver.lanePackets next = receiver.lanePackets sender := by
      apply List.filter_congr
      intro entry given
      cases reliable : entry.1.reliable with
      | false => rfl
      | true =>
          have known := passes.known entry given reliable
          have none : (more.any fun packet => packet.1 == entry.1.number) = false := by
            refine List.any_eq_false.mpr fun packet member same => ?_
            have high := above packet member
            rw [beq_iff_eq] at same
            omega
          rw [laned, List.any_append, none, Bool.or_false]
    rw [same, laned, List.take_append_of_le_length within]
    exact passes.passed
  · have bounds := passes.taken number accepted
    refine ⟨Nat.le_trans bounds.1 rises, fun packet later => ?_⟩
    rw [laned, List.drop_append_of_le_length within] at later
    rcases List.mem_append.mp later with old | new
    · exact bounds.2 packet old
    · exact Nat.lt_of_le_of_lt bounds.1 (above packet new)
  · exact Nat.le_trans (passes.known entry given reliable) rises

/-- The backlog, frame after frame. -/
theorem Passes.flush {sender : CarrierLink π} (own : Own sender) (now : Int) (wires : List Bytes) :
    ∀ (receiver : CarrierLink π) (count : Nat), Passes sender receiver count →
    Fits sender.keys receiver.keys → receiver.phase = .connected →
    receiver.session = some receiver.keys → wires <+: sender.lane.wrapped.drop count →
    Passes sender (wires.foldl (fun link wire => link.deliverSealedCarrierWire now wire) receiver)
      (count + wires.length) := by
  induction wires with
  | nil => exact fun _ _ passes _ _ _ _ => passes
  | cons wire rest ih =>
      intro receiver count passes fits up held front
      have next : sender.lane.wrapped[count]? = some wire := by
        obtain ⟨tail, whole⟩ := front
        have first := congrArg List.head? whole
        rw [List.head?_drop] at first
        exact first.symm
      have later : rest <+: sender.lane.wrapped.drop (count + 1) := by
        obtain ⟨tail, whole⟩ := front
        refine ⟨tail, ?_⟩
        rw [← List.tail_drop, ← whole]
        rfl
      have passed := passes.next own fits up held now next
      obtain ⟨be, rel, inbound, kept⟩ := deliverSealedCarrierWire_heard receiver now wire
      rw [List.foldl_cons, List.length_cons, ← Nat.add_assoc, Nat.add_right_comm]
      rw [kept] at passed ⊢
      exact ih _ (count + 1) passed fits up held later

end Hearing

section HandingOver

theorem foldl_heard (now : Int) (wires : List Bytes) : ∀ link : CarrierLink π,
    ∃ be rel inbound,
      wires.foldl (fun link wire => link.deliverSealedCarrierWire now wire) link =
        link.heard link.laneBacklog be rel inbound := by
  induction wires with
  | nil => exact fun link => ⟨link.carrierRxBe, link.carrierRxRel, link.inbound, rfl⟩
  | cons wire rest ih =>
      intro link
      obtain ⟨be, rel, inbound, first⟩ := deliverSealedCarrierWire_heard link now wire
      obtain ⟨be', rel', inbound', later⟩ := ih (link.deliverSealedCarrierWire now wire)
      rw [first] at later
      rw [List.foldl_cons, first]
      exact ⟨be', rel', inbound', later⟩

theorem Own.heard {link : CarrierLink π} (own : Own link) (up : link.phase = .connected)
    (backlog : List Bytes) (be rel : ReplayWindow) (inbound : List (CarrierSealedHeader × Bytes)) :
    Own (link.heard backlog be rel inbound) := by
  refine ⟨own.session, own.numbers, own.packets, own.rising, own.named, own.count, own.unasked,
    own.direct, own.waiting, ?_, own.connected⟩
  intro never
  exact absurd up (own.untouched never).2

/-- The backlog empties into the mux. -/
theorem Passes.handOver {sender receiver : CarrierLink π} {count : Nat}
    (passes : Passes sender receiver count) (own : Own sender) (mine : Own receiver)
    (fits : Fits sender.keys receiver.keys)
    (prefixes : receiver.lane.released <+: sender.lane.wrapped)
    (within : count ≤ receiver.lane.released.length) (up : receiver.phase = .connected)
    (stored : receiver.laneBacklog = receiver.lane.released.drop count) (now : Int) :
    ∃ be rel inbound, receiver.flushLaneBacklog now = receiver.heard [] be rel inbound ∧
      Own (receiver.heard [] be rel inbound) ∧
      Handing sender (receiver.heard [] be rel inbound) receiver.lane.released.length := by
  have held := mine.connected up
  have flushes : receiver.flushLaneBacklog now =
      receiver.laneBacklog.foldl (fun link wire => link.deliverSealedCarrierWire now wire)
        { receiver with laneBacklog := [] } := by
    unfold flushLaneBacklog
    rw [held]
    apply if_neg
    rw [not_or, not_not]
    exact ⟨up, Bool.false_ne_true⟩
  have passed := Passes.flush own now receiver.laneBacklog { receiver with laneBacklog := [] } count
    ⟨passes.passed, passes.taken, passes.slides, passes.known⟩ fits up held
    (stored ▸ prefixes.drop count)
  have all : count + receiver.laneBacklog.length = receiver.lane.released.length := by
    rw [stored, List.length_drop]
    omega
  obtain ⟨be, rel, inbound, shape⟩ := foldl_heard now receiver.laneBacklog
    { receiver with laneBacklog := [] }
  rw [all, shape] at passed
  refine ⟨be, rel, inbound, flushes.trans shape, mine.heard up [] be rel inbound, passed,
    Nat.le_refl _, fun _ => ?_, fun _ => rfl⟩
  exact List.drop_length.symm

theorem Own.short {link : CarrierLink π} (own : Own link) : link.lane.wrapped.length < 2 ^ 32 := by
  have length := own.packets.length_eq
  have count := own.count
  have numbers := own.numbers.1
  omega

/-- Another lane with the same wires, and a backlog: neither is what `Own` is about. -/
theorem Own.onLane {link : CarrierLink π} (own : Own link) {lane : LaneEnd}
    (wrapped : lane.wrapped = link.lane.wrapped)
    (speaks : link.carrierLaneActive = true → lane.lane.peerSpeaksLane = true)
    (backlog : List Bytes) : Own { link with lane := lane, laneBacklog := backlog } := by
  refine ⟨own.session, own.numbers, ?_, own.rising, own.named, own.count, ?_, own.direct,
    own.waiting, own.untouched, own.connected⟩
  · show List.Forall₂ _ link.laned lane.wrapped
    rw [wrapped]
    exact own.packets
  · intro silent
    apply own.unasked
    exact Bool.eq_false_iff.mpr fun active => absurd ((speaks active).symm.trans silent) (by decide)

theorem Told.hearing {link next : CarrierLink π} (told : Told link next) :
    next.hearing = link.hearing ∧ next.keys = link.keys := by
  cases told with
  | still => exact ⟨rfl, rfl⟩
  | spent reliable _ => cases reliable <;> exact ⟨rfl, rfl⟩
  | plain reliable _ _ _ _ => cases reliable <;> exact ⟨rfl, rfl⟩
  | rode frame wire now _ _ _ =>
      refine ⟨?_, rfl⟩
      show (_, _, _, _, _, (link.lane.wrap wire now).released) = link.hearing
      rw [(wrap_fields link.lane wire now).1]
      rfl

/-- The lane's own relation carries over: fewer packets than numbers are ever sealed. -/
theorem Told.joined {link next peer : CarrierLink π} (told : Told link next) (own : Own link)
    (lanes : LaneEnd.Joined {} link.lane peer.lane) : LaneEnd.Joined {} next.lane peer.lane := by
  have short := (told.own own).short
  cases told with
  | still => exact lanes
  | spent reliable _ => cases reliable <;> exact lanes
  | plain reliable _ _ _ _ => cases reliable <;> exact lanes
  | rode frame wire now _ _ _ => exact lanes.wrap wire now short

/-- Two links over one carrier, in both directions. -/
structure Linked (this peer : CarrierLink π) : Prop where
  own : Own this
  other : Own peer
  lanes : LaneEnd.Joined {} this.lane peer.lane
  fits : Fits this.keys peer.keys
  back : Fits peer.keys this.keys
  outward : ∃ count, Handing this peer count
  inward : ∃ count, Handing peer this count

theorem Linked.symm {this peer : CarrierLink π} (linked : Linked this peer) : Linked peer this :=
  ⟨linked.other, linked.own, linked.lanes.symm, linked.back, linked.fits, linked.inward,
    linked.outward⟩

theorem Handing.inside {sender receiver : CarrierLink π} {count : Nat}
    (handing : Handing sender receiver count) (own : Own sender)
    (prefixes : receiver.lane.released <+: sender.lane.wrapped) : count ≤ sender.laned.length := by
  have length := own.packets.length_eq
  have within := handing.within
  have shorter := prefixes.length_le
  omega

theorem Linked.transmit {this peer : CarrierLink π} (linked : Linked this peer) (qos : QosClass)
    (frame : Bytes) (now : Int) : Linked (this.transmit qos frame now) peer := by
  have told := transmit_told linked.own qos frame now
  obtain ⟨same, keys⟩ := told.hearing
  obtain ⟨outCount, outward⟩ := linked.outward
  obtain ⟨inCount, inward⟩ := linked.inward
  have released := linked.lanes.outward.receives.tracks.out_isPrefix
  refine ⟨told.own linked.own, linked.other, told.joined linked.own linked.lanes,
    by rw [keys]; exact linked.fits, by rw [keys]; exact linked.back, ⟨outCount, ?_⟩,
    ⟨inCount, inward.congr same⟩⟩
  exact ⟨outward.passes.grow told (outward.inside linked.own released), outward.within,
    outward.stored, outward.drained⟩

/-- A lane that neither wrapped nor released. -/
theorem Linked.onLane {this peer : CarrierLink π} (linked : Linked this peer) {lane : LaneEnd}
    (lanes : LaneEnd.Joined {} lane peer.lane) (wrapped : lane.wrapped = this.lane.wrapped)
    (released : lane.released = this.lane.released)
    (speaks : this.carrierLaneActive = true → lane.lane.peerSpeaksLane = true) :
    Linked { this with lane := lane } peer := by
  obtain ⟨outCount, outward⟩ := linked.outward
  obtain ⟨inCount, inward⟩ := linked.inward
  refine ⟨linked.own.onLane wrapped speaks this.laneBacklog, linked.other, lanes, linked.fits,
    linked.back, ⟨outCount, outward.sender rfl rfl⟩, ⟨inCount, inward.congr ?_⟩⟩
  unfold hearing
  rw [released]

/-- A link whose mux is there and whose lane has just released: all of it is handed on. -/
theorem Linked.flush {this peer : CarrierLink π} {outCount inCount : Nat} (own : Own this)
    (other : Own peer) (lanes : LaneEnd.Joined {} this.lane peer.lane)
    (fits : Fits this.keys peer.keys) (back : Fits peer.keys this.keys)
    (outward : Handing this peer outCount) (passes : Passes peer this inCount)
    (within : inCount ≤ this.lane.released.length) (up : this.phase = .connected)
    (stored : this.laneBacklog = this.lane.released.drop inCount) (now : Int) :
    Linked (this.flushLaneBacklog now) peer := by
  have prefixes := lanes.inward.receives.tracks.out_isPrefix
  obtain ⟨be, rel, inbound, shape, kept, handed⟩ :=
    passes.handOver other own back prefixes within up stored now
  rw [shape]
  exact ⟨kept, other, lanes, fits, back, ⟨outCount, outward.sender rfl rfl⟩, ⟨_, handed⟩⟩

theorem Linked.laneFrame {this peer : CarrierLink π} (linked : Linked this peer) (payload : Bytes)
    (now : Int) (sent : payload ∈ peer.lane.sent) (room : this.RoomFor payload) :
    Linked (this.handleLaneFrame payload now) peer := by
  have wrapped := LaneEnd.receive_wrapped this.lane payload now
  have speaks := receive_speaks this.lane payload now
  have released := receive_released this payload now
  have lanes := linked.lanes.receive linked.own.short linked.other.short payload now sent
  obtain ⟨outCount, outward⟩ := linked.outward
  obtain ⟨inCount, inward⟩ := linked.inward
  unfold handleLaneFrame
  cases releases : this.released payload with
  | none =>
      rw [releases, Option.getD_none, List.append_nil] at released
      exact linked.onLane lanes wrapped released speaks
  | some deliver =>
      rw [releases, Option.getD_some] at released
      have own := linked.own.onLane wrapped speaks (this.laneBacklog ++
        deliver.take (kMaxLaneBacklogFrames - this.laneBacklog.length))
      have stored := inward.store linked.lanes linked.other.short sent room releases
      rw [← released] at stored
      have within : inCount ≤ (this.lane.receive payload now).released.length := by
        rw [released, List.length_append]
        exact Nat.le_add_right_of_le inward.within
      have passes := inward.passes
      by_cases up : this.phase = .connected
      · exact Linked.flush own linked.other lanes linked.fits linked.back (outward.sender rfl rfl)
          ⟨passes.passed, passes.taken, passes.slides, passes.known⟩ within up (stored (Or.inl up))
          now
      · show Linked (flushLaneBacklog _ now) peer
        unfold flushLaneBacklog
        rw [if_pos (Or.inl up)]
        refine ⟨own, linked.other, lanes, linked.fits, linked.back,
          ⟨outCount, outward.sender rfl rfl⟩, inCount, ?_⟩
        exact ⟨⟨passes.passed, passes.taken, passes.slides, passes.known⟩, within, stored,
          fun connected => absurd connected up⟩

/-- A packet past the lane is opened at a Connected link, and changes nothing elsewhere. -/
theorem Linked.sealedFrame {this peer : CarrierLink π} (linked : Linked this peer) (wire : Bytes)
    (now : Int) (sent : wire ∈ peer.direct) (up : this.phase = .connected) :
    Linked (this.deliverSealedCarrierWire now wire) peer := by
  obtain ⟨outCount, outward⟩ := linked.outward
  obtain ⟨inCount, inward⟩ := linked.inward
  have held := linked.own.connected up
  have passes := inward.passes.aside linked.other linked.back up held now sent
  obtain ⟨be, rel, inbound, shape⟩ := deliverSealedCarrierWire_heard this now wire
  rw [shape] at passes ⊢
  exact ⟨linked.own.heard up _ be rel inbound, linked.other, linked.lanes, linked.fits, linked.back,
    ⟨outCount, outward.sender rfl rfl⟩,
    ⟨inCount, passes, inward.within, inward.stored, inward.drained⟩⟩

theorem Linked.receive {this peer : CarrierLink π} (linked : Linked this peer) (payload : Bytes)
    (now : Int) (sent : payload ∈ peer.sent) (room : this.RoomFor payload) :
    Linked (this.handleCarrierFrame payload now) peer := by
  unfold handleCarrierFrame
  rcases List.mem_append.mp sent with onLane | past
  · have kind : isLaneKind payload = true := by
      cases linked.lanes.other.sent payload onLane with
      | data seq inner positive named => rfl
      | ack ack vouches => rfl
    rw [if_pos kind]
    exact linked.laneFrame payload now onLane room
  · have kind : isLaneKind payload = false := by
      obtain ⟨reliable, number, frame, ⟨_, _, body, _, rfl⟩, _⟩ := linked.other.direct payload past
      cases reliable <;> rfl
    rw [if_neg (by rw [kind]; exact Bool.false_ne_true)]
    by_cases heard : this.phase = .connected ∧ isSealedKind payload = true
    · rw [if_pos heard]
      exact linked.sealedFrame payload now past heard.1
    · rw [if_neg heard]
      exact linked

theorem Linked.stop {this peer : CarrierLink π} (linked : Linked this peer) (session : Option π)
    (held : ∀ keys, session = some keys → keys = this.keys) :
    Linked { this with session := session, phase := .backoff } peer := by
  obtain ⟨outCount, outward⟩ := linked.outward
  obtain ⟨inCount, inward⟩ := linked.inward
  have own := linked.own
  have down : PeerLinkPhase.backoff ≠ .connected := by decide
  refine ⟨⟨held, own.numbers, own.packets, own.rising, own.named, own.count, own.unasked,
      own.direct, fun waits => PeerLinkPhase.noConfusion waits,
      fun never => ⟨(own.untouched never).1, down⟩, fun up => absurd up down⟩,
    linked.other, linked.lanes, linked.fits, linked.back, ⟨outCount, outward.sender rfl rfl⟩,
    inCount, ?_, inward.within, fun live => ?_, fun up => absurd up down⟩
  · exact ⟨inward.passes.passed, inward.passes.taken, inward.passes.slides, inward.passes.known⟩
  · apply inward.stored
    exact Or.inr (live.resolve_left down)

theorem Linked.probe {this peer : CarrierLink π} (linked : Linked this peer) :
    Linked this.sendLaneProbe peer :=
  linked.onLane linked.lanes.probe rfl rfl id

theorem Linked.establish {this peer : CarrierLink π} (linked : Linked this peer)
    (waits : this.phase = .handshaking) (outcome : Establishment) (now : Int) :
    Linked (this.finishEstablishment outcome now) peer := by
  cases outcome with
  | noSession => exact linked.stop this.session linked.own.session
  | noBudget => exact linked.stop (some this.keys) fun keys same => (Option.some.inj same).symm
  | refused => exact linked.stop (some this.keys) fun keys same => (Option.some.inj same).symm
  | accepted =>
      obtain ⟨outCount, outward⟩ := linked.outward
      obtain ⟨inCount, inward⟩ := linked.inward
      have own := linked.own
      have passes := inward.passes
      have never := own.waiting waits
      have up : Own ({ this with
          session := some this.keys, phase := .connected, wasConnected := true }.sendLaneProbe) :=
        ⟨fun keys same => (Option.some.inj same).symm, own.numbers, own.packets, own.rising,
          own.named, own.count, own.unasked, own.direct, fun again => PeerLinkPhase.noConfusion again,
          fun absent => Bool.noConfusion absent, fun _ => rfl⟩
      exact Linked.flush up linked.other linked.lanes.probe linked.fits linked.back
        (outward.sender rfl rfl) ⟨passes.passed, passes.taken, passes.slides, passes.known⟩
        inward.within rfl (inward.stored (Or.inr never)) now

instance (link : CarrierLink π) (payload : Bytes) : Decidable (link.RoomFor payload) :=
  inferInstanceAs (Decidable (_ ∨ _))

/-- The condition on one call at a link. -/
def Event.roomy (link : CarrierLink π) : Event → Prop
  | .receive payload _ => link.RoomFor payload
  | _ => True

instance Event.decidableRoomy (link : CarrierLink π) : ∀ made : Event, Decidable (made.roomy link)
  | .receive payload _ => inferInstanceAs (Decidable (link.RoomFor payload))
  | .transmit _ _ _ | .probe | .tick _ | .establish _ _ | .stop => inferInstanceAs (Decidable True)

theorem Linked.step {this peer : CarrierLink π} (linked : Linked this peer) (made : Event)
    (honest : ∀ now payload, made = .receive payload now → payload ∈ peer.sent)
    (room : made.roomy this) : Linked (this.step made) peer := by
  cases made with
  | transmit qos frame now => exact linked.transmit qos frame now
  | probe => exact linked.probe
  | tick now =>
      show Linked (this.tickCarrierLane now) peer
      unfold tickCarrierLane
      split
      · exact linked
      · exact linked.onLane (linked.lanes.dueResends now) rfl rfl id
  | establish outcome now =>
      show Linked (if this.phase ≠ .handshaking then this else _) peer
      by_cases waits : this.phase = .handshaking
      · rw [if_neg (not_not.mpr waits)]
        exact linked.establish waits outcome now
      · rw [if_pos waits]
        exact linked
  | stop => exact linked.stop this.session linked.own.session
  | receive payload now => exact linked.receive payload now (honest now payload rfl) room

/-- What the lane has acknowledged: stored while the link has never been Connected, and
with the mux, opened, once each and in the lane's order, while it is. -/
structure Handed (sender receiver : CarrierLink π) : Prop where
  sealed : List.Forall₂ (fun packet wire => Seals sender.keys true packet.1 packet.2 wire)
    sender.laned sender.lane.wrapped
  stored : receiver.wasConnected = false →
    receiver.laneBacklog = sender.lane.wrapped.take receiver.lane.lane.rxCumulative
  passed : receiver.phase = .connected →
    receiver.lanePackets sender =
      (sender.laned.take receiver.lane.lane.rxCumulative).map asInbound

theorem Linked.handed {this peer : CarrierLink π} (linked : Linked this peer) :
    Handed this peer := by
  obtain ⟨count, handing⟩ := linked.outward
  have tracks := linked.lanes.outward.receives.tracks
  have length := tracks.out_length
  refine ⟨linked.own.packets, fun never => ?_, fun up => ?_⟩
  · have unused := (linked.other.untouched never).1
    have none : (this.laned.take count).length = 0 := by
      have passed := handing.passes.passed
      unfold lanePackets at passed
      rw [unused] at passed
      rw [← List.length_map, ← passed]
      rfl
    have inside := handing.inside linked.own tracks.out_isPrefix
    have zero : count = 0 := by
      rw [List.length_take] at none
      omega
    rw [handing.stored (Or.inr never), zero, List.drop_zero]
    exact tracks.released
  · rw [← length, ← handing.drained up]
    exact handing.passes.passed

end HandingOver

/-- Two links over one carrier, their handshake under way. -/
def opened (left right : π) : Duplex.Ends (CarrierLink π) where
  left := { keys := left }
  right := { keys := right }

theorem fresh_own (keys : π) : Own ({ keys := keys } : CarrierLink π) := by
  refine ⟨(fun _ none => by cases none), ⟨Nat.two_pow_pos 32, Nat.two_pow_pos 32⟩, .nil,
    .nil, ?_, Nat.le_refl _, fun _ => rfl, ?_, fun _ => rfl,
    fun _ => ⟨rfl, fun up => PeerLinkPhase.noConfusion up⟩, fun up => PeerLinkPhase.noConfusion up⟩
  · exact fun _ absent => absurd absent List.not_mem_nil
  · exact fun _ absent => absurd absent List.not_mem_nil

theorem opened_linked (left right : π) (fits : Fits left right) (back : Fits right left) :
    (opened left right).Both Linked := by
  have lanes := LaneEnd.opened_joined {}
  exact ⟨⟨fresh_own left, fresh_own right, lanes.1, fits, back, ⟨0, fresh_handing left right⟩,
      ⟨0, fresh_handing right left⟩⟩,
    ⟨fresh_own right, fresh_own left, lanes.2, back, fits, ⟨0, fresh_handing right left⟩,
      ⟨0, fresh_handing left right⟩⟩⟩

/-- A lane frame that reaches a link never Connected finds room in the backlog for all
that it releases. -/
def Roomy (ends : Duplex.Ends (CarrierLink π))
    (act : Duplex.Side × Duplex.Action (carrier (π := π))) : Prop :=
  ∀ made ∈ Duplex.event carrier ends act.1 act.2, made.roomy (ends.endAt act.1)

instance (ends : Duplex.Ends (CarrierLink π)) (act : Duplex.Side × Duplex.Action (carrier (π := π))) :
    Decidable (Roomy ends act) :=
  inferInstanceAs (Decidable
    (∀ made ∈ Duplex.event carrier ends act.1 act.2, made.roomy (ends.endAt act.1)))

theorem step_linked (ends : Duplex.Ends (CarrierLink π))
    (act : Duplex.Side × Duplex.Action (carrier (π := π))) (room : Roomy ends act)
    (linked : ends.Both Linked) : (Duplex.step carrier ends act).Both Linked := by
  have one : ∀ made, Duplex.event carrier ends act.1 act.2 = some made →
      Duplex.Honest carrier (ends.endAt act.1.other) made →
      Linked (ends.endAt act.1) (ends.endAt act.1.other) →
      Linked ((ends.endAt act.1).step made) (ends.endAt act.1.other) := by
    intro made makes honest holds
    exact holds.step made honest (room made makes)
  apply Duplex.step_both carrier Linked ends act linked
  · exact one
  · intro made makes honest holds
    exact (one made makes honest holds.symm).symm

/-- In every run in which the backlog has room for what it is given, all that the lane
acknowledged is where it belongs, at both ends and at every moment. -/
theorem acked_reaches_mux (left right : π) (fits : Fits left right) (back : Fits right left)
    (run : List (Duplex.Side × Duplex.Action (carrier (π := π))))
    (room : Run.Meets (Duplex.step carrier) Roomy (opened left right) run) :
    Run.Always (Duplex.step carrier) (fun ends => ends.Both Handed) (opened left right) run := by
  apply Run.always_of_invariant (Duplex.step carrier) Roomy (fun ends => ends.Both Linked)
  · exact step_linked
  · exact fun ends linked => ⟨linked.1.handed, linked.2.handed⟩
  · exact room
  · exact opened_linked left right fits back

def sampleKeys : Adp.TagProtection := ⟨5⟩

theorem sampleKeys_fit : Fits sampleKeys sampleKeys := by
  refine ⟨?_, ?_⟩
  · intro space number header plaintext body now sealed
    cases sealed
    show Adp.TagProtection.openBody _ _ _ _ _ = _
    unfold Adp.TagProtection.openBody
    dsimp only
    rw [Adp.TagProtection.take_tag, if_pos rfl]
  · intro space number header plaintext body sealed
    cases sealed
    rw [List.length_append, Adp.TagProtection.tag, List.length_replicate]
    exact Nat.le_add_left ..

/-- The left end is Connected first, and sends `count` frames on the lane; they all
reach the right end, which answers each. -/
def eagerRun (count : Nat) :
    List (Duplex.Side × Duplex.Action (carrier (π := Adp.TagProtection))) :=
  [(.right, .call .probe (by simp)), (.left, .deliver 0 0),
    (.left, .call (.establish .accepted 0) (by simp))] ++
  ((List.range count).flatMap fun turn => [
    (.left, .call (.transmit .reliable [UInt8.ofNat turn] 0) (by simp)),
    (.right, .deliver (turn + 1) 0), (.left, .deliver (turn + 1) 0)])

theorem acked_reaches_mux_sample :
    let run := eagerRun 3 ++ [(.right, .call (.establish .accepted 5) (by simp))]
    let ends := Run.exec (Duplex.step carrier) (opened sampleKeys sampleKeys) run
    ends.right.inbound = [(⟨true, 1⟩, [0]), (⟨true, 2⟩, [1]), (⟨true, 3⟩, [2])] ∧
      Run.Always (Duplex.step carrier) (fun ends => ends.Both Handed)
        (opened sampleKeys sampleKeys) run :=
  ⟨by decide +kernel, acked_reaches_mux sampleKeys sampleKeys sampleKeys_fit sampleKeys_fit _
    (by decide +kernel)⟩

section Overflow

/-- A sender whose first `count` frames are all acknowledged. -/
structure Settled (count : Nat) (link : CarrierLink Adp.TagProtection) : Prop where
  session : link.session = some sampleKeys
  speaks : link.lane.lane.peerSpeaksLane = true
  config : link.lane.lane.config = {}
  outstanding : link.lane.lane.outstanding = []
  next : link.lane.lane.nextTxSeq = count + 1
  number : link.carrierTxRel = count
  wrapped : link.lane.wrapped.length = count
  sent : link.lane.sent.length = count + 1

/-- A receiver still handshaking that has acknowledged `count` frames. -/
structure Awaiting (count : Nat) (link : CarrierLink Adp.TagProtection) : Prop where
  never : link.wasConnected = false
  phase : link.phase = .handshaking
  config : link.lane.lane.config = {}
  reached : link.lane.lane.rxCumulative = count
  clear : link.lane.lane.rxHold = []
  backlog : link.laneBacklog.length = min count kMaxLaneBacklogFrames
  sent : link.lane.sent.length = count + 1

/-- The packet that a frame is sealed in. -/
def sampleWire (number : Nat) (frame : Bytes) : Bytes :=
  let header := AmpAdpCarrier.encodeSealedHeader true number
  header ++ (frame ++ sampleKeys.tag .carrierReliable number header frame)

theorem Settled.transmit {count : Nat} {link : CarrierLink Adp.TagProtection}
    (settled : Settled count link) (few : count + 1 < 2 ^ 31) (frame : Bytes) :
    link.transmit .reliable frame 0 = { link with
      carrierTxRel := count + 1
      lane := link.lane.wrap (sampleWire (count + 1) frame) 0
      laned := link.laned ++ [(count + 1, frame)] } := by
  have room : ¬ link.lane.lane.config.window ≤ link.lane.lane.outstanding.length := by
    rw [settled.config, settled.outstanding]
    decide
  have number : link.nextNumber true = count + 1 := by
    unfold nextNumber
    rw [if_pos rfl, settled.number]
  have seals : link.sealCarrierFrame true frame =
      (link.takeNumber true, .ok (sampleWire (count + 1) frame)) := by
    unfold sealCarrierFrame
    rw [settled.session, number]
    dsimp only
    rw [if_neg (by omega)]
    rfl
  have speaks : link.carrierLaneActive = true := settled.speaks
  unfold CarrierLink.transmit
  have reliable : (QosClass.reliable == QosClass.reliable) = true := rfl
  simp only [reliable, seals, speaks, Bool.and_self, ↓reduceIte, number]
  unfold ride CarrierLane.wrap takeNumber
  simp only [↓reduceIte, room, settled.number]

theorem Settled.wrap {count : Nat} {link : CarrierLink Adp.TagProtection}
    (settled : Settled count link) (few : count + 1 < 2 ^ 31) (wire : Bytes) :
    link.lane.wrap wire 0 = { link.lane with
      lane := { link.lane.lane with
        nextTxSeq := count + 2
        outstanding := [⟨count + 1, AmpAdpCarrier.encodeLaneData (count + 1) wire, 0,
          0 + link.lane.lane.rtoMs, 1, 0⟩] }
      wrapped := link.lane.wrapped ++ [wire]
      sent := link.lane.sent ++ [AmpAdpCarrier.encodeLaneData (count + 1) wire] } := by
  have room : ¬ link.lane.lane.config.window ≤ link.lane.lane.outstanding.length := by
    rw [settled.config, settled.outstanding]
    decide
  have next : (count + 1 + 1) % 2 ^ 32 = count + 2 := by omega
  unfold LaneEnd.wrap CarrierLane.wrap
  simp only [room, ↓reduceIte]
  simp only [settled.next, settled.outstanding, next, List.nil_append]

theorem decode_frame (seq : Nat) (wire : Bytes) (positive : 0 < seq) (fits : seq < 2 ^ 32)
    (some : 0 < wire.length) :
    AmpAdpCarrier.decodeLaneData (AmpAdpCarrier.encodeLaneData seq wire) = .ok (seq, wire) := by
  have number : AmpAdpCarrier.readU32 (AmpAdpCarrier.encodeLaneData seq wire) 1 =
      .ok (seq % 2 ^ 32) := AmpAdpCarrier.readU32_at [AmpAdpPayloadKind.laneData.code] wire seq
  have long : ¬ (seq = 0 ∨ (AmpAdpCarrier.encodeLaneData seq wire).length ≤ 5) := by
    rw [AmpAdpCarrier.encodeLaneData, List.length_cons, List.length_append,
      AmpAdpCarrier.appendU32_length]
    omega
  cases read : AmpAdpCarrier.decodeLaneData (AmpAdpCarrier.encodeLaneData seq wire) with
  | ok data => rw [AmpAdpCarrier.decodeLaneData_encode seq wire fits data read]
  | error message =>
      rw [AmpAdpCarrier.decodeLaneData, number, Nat.mod_eq_of_lt fits] at read
      split_ifs at read with kind
      · exact absurd rfl kind
      · simp only [if_neg long, reduceCtorEq] at read

/-- The next frame is acknowledged, and stored if there is room. -/
theorem Awaiting.frame {count : Nat} {link : CarrierLink Adp.TagProtection}
    (awaiting : Awaiting count link) (few : count + 1 < 2 ^ 31) (wire : Bytes)
    (some : 0 < wire.length) :
    let after := link.handleCarrierFrame (AmpAdpCarrier.encodeLaneData (count + 1) wire) 0
    Awaiting (count + 1) after ∧ after.lane.sent =
      link.lane.sent ++ [AmpAdpCarrier.encodeLaneAck ⟨count + 1, 0⟩] := by
  have decoded := decode_frame (count + 1) wire (Nat.succ_pos _) (by omega) some
  have isData : (AmpAdpCarrier.encodeLaneData (count + 1) wire).head? =
      .some AmpAdpPayloadKind.laneData.code := rfl
  have notAck : (AmpAdpCarrier.encodeLaneData (count + 1) wire).head? ≠
      .some AmpAdpPayloadKind.laneAck.code := by
    rw [isData]
    decide
  have data (speaks : Bool) :
      ({ link.lane.lane with peerSpeaksLane := speaks } : CarrierLane).onData (count + 1) wire =
      ({ link.lane.lane with peerSpeaksLane := speaks, rxCumulative := count + 1, rxHold := [] },
        [wire], ⟨count + 1, 0⟩) := by
    have next : (count + 1) % 4294967296 = count + 1 := by omega
    simp [CarrierLane.onData, CarrierLane.wantsData, awaiting.reached, awaiting.clear,
      awaiting.config, CarrierLane.insertHold, CarrierLane.releaseHold, next,
      CarrierLane.currentAck, CarrierLane.selectiveBits]
  have received : link.lane.receive (AmpAdpCarrier.encodeLaneData (count + 1) wire) 0 =
      { link.lane with
        lane := { link.lane.lane with
          peerSpeaksLane := true, rxCumulative := count + 1, rxHold := [] }
        released := link.lane.released ++ [wire]
        sent := link.lane.sent ++ [AmpAdpCarrier.encodeLaneAck ⟨count + 1, 0⟩] } := by
    unfold LaneEnd.receive CarrierLane.notePeerSpeaksLane
    rw [if_neg notAck, if_pos isData, decoded]
    dsimp only
    rw [data true]
  have releases : link.released (AmpAdpCarrier.encodeLaneData (count + 1) wire) = .some [wire] := by
    unfold CarrierLink.released
    rw [if_neg (not_not.mpr isData), decoded]
    exact congrArg (fun result => Option.some result.2.1) (data link.lane.lane.peerSpeaksLane)
  have handled : link.handleCarrierFrame (AmpAdpCarrier.encodeLaneData (count + 1) wire) 0 =
      { link with
        lane := link.lane.receive (AmpAdpCarrier.encodeLaneData (count + 1) wire) 0
        laneBacklog := link.laneBacklog ++
          [wire].take (kMaxLaneBacklogFrames - link.laneBacklog.length) } := by
    have down : link.phase ≠ .connected := by
      rw [awaiting.phase]
      decide
    have kind : isLaneKind (AmpAdpCarrier.encodeLaneData (count + 1) wire) = true := rfl
    unfold handleCarrierFrame handleLaneFrame
    rw [if_pos kind, releases]
    exact if_pos (Or.inl down)
  intro after
  have shape : after = _ := handled.trans (by rw [received])
  rw [shape]
  refine ⟨⟨awaiting.never, awaiting.phase, awaiting.config, rfl, rfl, ?_, ?_⟩, rfl⟩
  · show (link.laneBacklog ++ _).length = _
    rw [List.length_append, List.length_take, List.length_singleton, awaiting.backlog]
    omega
  · show (link.lane.sent ++ _).length = _
    rw [List.length_append, List.length_singleton, awaiting.sent]

theorem handleCarrierFrame_ack (link : CarrierLink Adp.TagProtection) (ack : LaneAckFields)
    (now : Int) (edge : ack.cumulative < 2 ^ 32) (bits : ack.selective < 2 ^ 64) :
    link.handleCarrierFrame (AmpAdpCarrier.encodeLaneAck ack) now = { link with
      lane := { link.lane with lane := link.lane.lane.notePeerSpeaksLane.onAck ack now } } := by
  have isAck : (AmpAdpCarrier.encodeLaneAck ack).head? =
      some AmpAdpPayloadKind.laneAck.code := rfl
  have kind : isLaneKind (AmpAdpCarrier.encodeLaneAck ack) = true := rfl
  have notData : (AmpAdpCarrier.encodeLaneAck ack).head? ≠
      some AmpAdpPayloadKind.laneData.code := by
    rw [isAck]
    decide
  have decoded := AmpAdpCarrier.decodeLaneAck_encode ack edge bits
  unfold handleCarrierFrame handleLaneFrame CarrierLink.released LaneEnd.receive
  rw [if_pos kind, if_pos notData, if_pos isAck, decoded]

/-- The acknowledgement of the one frame in flight. -/
theorem Settled.acked {count : Nat} {link : CarrierLink Adp.TagProtection}
    (settled : Settled count link) (few : count + 1 < 2 ^ 31) (frame : Bytes) :
    Settled (count + 1) ((link.transmit .reliable frame 0).handleCarrierFrame
      (AmpAdpCarrier.encodeLaneAck ⟨count + 1, 0⟩) 0) := by
  have covers : (⟨count + 1, 0⟩ : LaneAckFields).covers (count + 1) = true := by
    simp [LaneAckFields.covers]
  have speaks (lane : CarrierLane) : (lane.onAck ⟨count + 1, 0⟩ 0).peerSpeaksLane =
      lane.peerSpeaksLane := settle_speaks ..
  have core (lane : CarrierLane) : (lane.onAck ⟨count + 1, 0⟩ 0).core = lane.core :=
    CarrierLane.settle_core ..
  rw [handleCarrierFrame_ack _ _ _ (show count + 1 < 2 ^ 32 by omega) (Nat.two_pow_pos 64),
    settled.transmit few frame, settled.wrap few]
  refine ⟨settled.session, ?_, ?_, ?_, ?_, rfl, ?_, ?_⟩
  · exact Eq.trans (speaks _) rfl
  · exact (LaneEnd.core_fields (core _)).1.trans settled.config
  · unfold CarrierLane.onAck CarrierLane.settle CarrierLane.settle
    exact congrArg Prod.snd (if_pos covers)
  · exact Eq.trans (LaneEnd.core_fields (core _)).2.1 rfl
  · show (link.lane.wrapped ++ _).length = _
    rw [List.length_append, List.length_singleton, settled.wrapped]
  · show (link.lane.sent ++ _).length = _
    rw [List.length_append, List.length_singleton, settled.sent]

theorem sent_last {link : CarrierLink Adp.TagProtection} {before : List Bytes} {payload : Bytes}
    {index : Nat} (sent : link.lane.sent = before ++ [payload]) (count : before.length = index) :
    link.sent[index]? = some payload := by
  unfold CarrierLink.sent
  rw [sent, List.append_assoc, ← count, List.getElem?_append_right (Nat.le_refl _), Nat.sub_self]
  rfl

theorem eagerTurn {count : Nat} {ends : Duplex.Ends (CarrierLink Adp.TagProtection)}
    (settled : Settled count ends.left) (awaiting : Awaiting count ends.right)
    (few : count + 1 < 2 ^ 31) (frame : Bytes) :
    let after := Run.exec (Duplex.step carrier) ends [
      (.left, .call (.transmit .reliable frame 0) (by simp)),
      (.right, .deliver (count + 1) 0), (.left, .deliver (count + 1) 0)]
    Settled (count + 1) after.left ∧ Awaiting (count + 1) after.right := by
  have long : 0 < (sampleWire (count + 1) frame).length := by
    simp [sampleWire, AmpAdpCarrier.encodeSealedHeader]
  obtain ⟨kept, answered⟩ := awaiting.frame few (sampleWire (count + 1) frame) long
  have acked := settled.acked few frame
  have first : ((ends.left.transmit .reliable frame 0).sent)[count + 1]? =
      some (AmpAdpCarrier.encodeLaneData (count + 1) (sampleWire (count + 1) frame)) := by
    apply sent_last _ settled.sent
    rw [settled.transmit few frame, settled.wrap few]
  have second := sent_last answered awaiting.sent
  simp only [Run.exec_cons, Run.exec_nil, Duplex.step, Duplex.event, Duplex.Ends.endAt,
    Duplex.Ends.put, Duplex.Side.other, CarrierLink.step, first, Option.map_some, second]
  exact ⟨acked, kept⟩

theorem eagerRun_succ (count : Nat) : eagerRun (count + 1) = eagerRun count ++ [
    (.left, .call (.transmit .reliable [UInt8.ofNat count] 0) (by simp)),
    (.right, .deliver (count + 1) 0), (.left, .deliver (count + 1) 0)] := by
  unfold eagerRun
  rw [List.range_succ, List.flatMap_append, ← List.append_assoc]
  rfl

theorem eagerRun_reaches (count : Nat) (few : count < 2 ^ 31) :
    let ends := Run.exec (Duplex.step carrier) (opened sampleKeys sampleKeys) (eagerRun count)
    Settled count ends.left ∧ Awaiting count ends.right := by
  induction count with
  | zero => exact ⟨⟨rfl, rfl, rfl, rfl, rfl, rfl, rfl, rfl⟩, ⟨rfl, rfl, rfl, rfl, rfl, rfl, rfl⟩⟩
  | succ count ih =>
      obtain ⟨settled, awaiting⟩ := ih (Nat.lt_of_succ_lt few)
      rw [eagerRun_succ, Run.exec_append]
      exact eagerTurn settled awaiting few [UInt8.ofNat count]

/-- One frame more than the backlog takes is acknowledged, let go of by its sender, and
in no place at its receiver. -/
theorem acked_and_lost :
    let ends := Run.exec (Duplex.step carrier) (opened sampleKeys sampleKeys) (eagerRun 257)
    ends.right.lane.lane.rxCumulative = 257 ∧ ends.left.lane.lane.outstanding = [] ∧
      ¬ ends.Both Handed := by
  obtain ⟨settled, awaiting⟩ := eagerRun_reaches 257 (by decide)
  refine ⟨awaiting.reached, settled.outstanding, fun both => ?_⟩
  have stored := congrArg List.length (both.1.stored awaiting.never)
  rw [awaiting.reached, List.length_take, settled.wrapped, awaiting.backlog] at stored
  exact absurd stored (by decide)

end Overflow

end CarrierLink

end Amp
