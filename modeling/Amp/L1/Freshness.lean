import Amp.Lib.Run
import Amp.L1.Ledger
import Amp.L1.Sample

set_option autoImplicit false

/- When a packet counts as fresh. Data is fresh by its replay window, a control
packet by being newer than every plain packet before it. Only a fresh packet is
delivered, moves the path or proves the peer alive, so a replay does none of it. -/
namespace Amp.Adp

/-- What freshness is decided from. -/
structure Gate where
  skewMs : Int
  rxBe : ReplayWindow
  rxRel : ReplayWindow
  maxAuthRxTs : Nat
  haveAuthRxTs : Bool

def WirePacket.isData (pkt : WirePacket) : Bool :=
  pkt.type.isBestEffortData || pkt.type.isReliableData

namespace Gate

/-- A data packet whose number was taken in its space. -/
def Known (gate : Gate) (pkt : WirePacket) : Prop :=
  if pkt.type.isBestEffortData then gate.rxBe.Accepted pkt.seq
  else pkt.type.isReliableData = true ∧ gate.rxRel.Accepted pkt.seq

/-- The windows that decide freshness never take a number twice. -/
structure Filters (gate : Gate) : Prop where
  sliding : gate.rxBe.Filters
  strict : gate.rxRel.slideOnGap = false

/-- What was taken stays taken, and nothing but the windows changed. -/
structure Grows (before after : Gate) : Prop where
  skewMs : after.skewMs = before.skewMs
  maxAuthRxTs : after.maxAuthRxTs = before.maxAuthRxTs
  haveAuthRxTs : after.haveAuthRxTs = before.haveAuthRxTs
  rxBe : ∀ seq, before.rxBe.Accepted seq → after.rxBe.Accepted seq
  rxRel : ∀ seq, before.rxRel.Accepted seq → after.rxRel.Accepted seq

theorem Grows.refl (gate : Gate) : gate.Grows gate := ⟨rfl, rfl, rfl, fun _ => id, fun _ => id⟩

theorem Grows.known {before after : Gate} (grows : before.Grows after) {pkt : WirePacket}
    (known : before.Known pkt) : after.Known pkt := by
  unfold Known at known ⊢
  split
  · rename_i bestEffort
    rw [if_pos bestEffort] at known
    exact grows.rxBe _ known
  · rename_i other
    rw [if_neg other] at known
    exact ⟨known.1, grows.rxRel _ known.2⟩

theorem Known.isData {gate : Gate} {pkt : WirePacket} (known : gate.Known pkt) :
    pkt.isData = true := by
  unfold Known at known
  unfold WirePacket.isData
  split at known
  · rename_i bestEffort
    rw [bestEffort, Bool.true_or]
  · rw [known.1, Bool.or_true]

end Gate

theorem isSealed_of_control {pkt : WirePacket} (control : pkt.isData = false) :
    pkt.type.isSealed = false := by
  unfold WirePacket.isData at control
  cases form : pkt.type <;> simp_all [PacketType.isBestEffortData, PacketType.isReliableData,
    PacketType.isSealed]

/-- What a fresh packet moves: the path, liveness and what the handlers were told. -/
structure Standing where
  peer : IpEndpoint
  lastAuthRxMs : Int
  delivered : List Message
  pathChanges : List (IpEndpoint × IpEndpoint)

namespace Connection

variable {π : Type}

def gate (c : Connection π) : Gate where
  skewMs := c.params.skewMs
  rxBe := c.rxBe
  rxRel := c.rxRel
  maxAuthRxTs := c.maxAuthRxTs
  haveAuthRxTs := c.haveAuthRxTs

def standing (c : Connection π) : Standing where
  peer := c.peer
  lastAuthRxMs := c.lastAuthRxMs
  delivered := c.delivered
  pathChanges := c.pathChanges

/-- A call that decides nothing about freshness. -/
structure Neutral (c after : Connection π) : Prop where
  gate : after.gate = c.gate
  standing : after.standing = c.standing

theorem Neutral.refl (c : Connection π) : Neutral c c := ⟨rfl, rfl⟩

theorem OnlyTalks.neutral {c after : Connection π} (only : OnlyTalks c after) :
    Neutral c after := by
  obtain ⟨_, _, _, _, _, _, _, rfl⟩ := only
  exact ⟨rfl, rfl⟩

theorem OnlyNotes.gate {c after : Connection π} (only : OnlyNotes c after) :
    after.gate = c.gate := by
  obtain ⟨_, _, _, rfl⟩ := only
  rfl

theorem OnlyHands.gate {c after : Connection π} (only : OnlyHands c after) :
    after.gate = c.gate := by
  obtain ⟨_, _, _, rfl⟩ := only
  rfl

section Neutral

variable [PacketProtection π] [Hmac]

theorem sendPacket_neutral (c : Connection π) (type : PacketType) (seq : Nat) (payload : Bytes)
    (now : Int) (key : Option PeerKey) : Neutral c (c.sendPacket type seq payload now key).1 :=
  (sendPacket_only ..).talks.neutral

theorem sendKeepalivePacket_neutral (c : Connection π) (now : Int) (intervalMs flags : Nat) :
    Neutral c (c.sendKeepalivePacket now intervalMs flags).1 :=
  (sendKeepalivePacket_only ..).talks.neutral

theorem handleKeepalive_neutral (c : Connection π) (pkt : WirePacket) (now : Int) :
    Neutral c (c.handleKeepalive pkt now) :=
  (handleKeepalive_only c pkt now).neutral

omit [PacketProtection π] [Hmac] in
theorem handleAck_neutral (c : Connection π) (pkt : WirePacket) (now : Int) :
    Neutral c (c.handleAck pkt now) :=
  (handleAck_only c pkt now).neutral

omit [PacketProtection π] [Hmac] in
theorem handleClose_neutral (c : Connection π) : Neutral c c.handleClose := by
  unfold handleClose
  split <;> exact ⟨rfl, rfl⟩

theorem sendAck_neutral (c : Connection π) (seq : Nat) (wanted : Bool) (now : Int) :
    Neutral c (c.sendAck seq wanted now) :=
  (sendAck_only ..).talks.neutral

theorem send_neutral (c : Connection π) (qos : QosClass) (payload : Bytes) :
    Neutral c (c.send qos payload).1 := by
  rcases send_cases c qos payload with same | ⟨_, _, _, type, _, same⟩ | ⟨rfl, takes⟩
  · rw [same]
    exact Neutral.refl c
  · have sent := sendPacket_neutral (c.numberBestEffort payload) type (c.txSeqBe + 1) payload
      c.endpoint.nowMs none
    rw [same]
    exact ⟨sent.gate, sent.standing⟩
  · obtain ⟨type, _, same⟩ := send_takes takes
    have sent := sendPacket_neutral (c.numberReliable payload c.endpoint.nowMs) type
      (c.txSeqRel + 1) payload c.endpoint.nowMs none
    rw [same]
    exact ⟨sent.gate, sent.standing⟩

theorem tick_neutral (c : Connection π) (now : Int) : Neutral c (c.tick now) :=
  (tick_only c now).neutral

omit [PacketProtection π] [Hmac] in
theorem setPeerEndpoint_gate (c : Connection π) (peer : IpEndpoint) :
    (c.setPeerEndpoint peer).gate = c.gate :=
  (setPeerEndpoint_only c peer).gate

theorem step_gate (c : Connection π) (event : Event π)
    (other : ∀ source bytes now, event ≠ .datagram source bytes now) :
    (c.step event).gate = c.gate := by
  cases event with
  | send qos payload => exact (send_neutral c qos payload).gate
  | tick now => exact (tick_neutral c now).gate
  | datagram source bytes now => exact absurd rfl (other source bytes now)
  | versionNegotiation versions =>
      simp only [step, handleVersionNegotiation]
      split <;> rfl
  | setPeerEndpoint peer => exact setPeerEndpoint_gate c peer
  | sendKeepalive now intervalMs =>
      have sent := sendKeepalivePacket_neutral { c with localKeepaliveIntervalMs := intervalMs } now
        intervalMs kKeepaliveFlagEchoRequest
      exact sent.gate
  | stopKeepalive now =>
      simp only [step, stopKeepalive]
      split
      · rfl
      · have sent := sendKeepalivePacket_neutral { c with localKeepaliveIntervalMs := 0 } now 0 0
        exact sent.gate
  | sendProbe now => exact (sendKeepalivePacket_neutral c now _ _).gate
  | close =>
      simp only [step, close]
      split
      · rfl
      · have sent := sendPacket_neutral c .close 0 [] c.endpoint.nowMs none
        exact sent.gate
  | abandon =>
      simp only [step, abandon]
      split <;> rfl
  | upgradeBinder _ | setProtection _ | onMessage _ | onPathChange _ | environment _ => rfl

/-- Without a datagram only the owner moves the path. -/
theorem step_standing (c : Connection π) (event : Event π)
    (other : ∀ source bytes now, event ≠ .datagram source bytes now)
    (left : ∀ peer, event ≠ .setPeerEndpoint peer) :
    (c.step event).standing = c.standing := by
  cases event with
  | send qos payload => exact (send_neutral c qos payload).standing
  | tick now => exact (tick_neutral c now).standing
  | datagram source bytes now => exact absurd rfl (other source bytes now)
  | versionNegotiation versions =>
      simp only [step, handleVersionNegotiation]
      split <;> rfl
  | setPeerEndpoint peer => exact absurd rfl (left peer)
  | sendKeepalive now intervalMs =>
      have sent := sendKeepalivePacket_neutral { c with localKeepaliveIntervalMs := intervalMs } now
        intervalMs kKeepaliveFlagEchoRequest
      exact sent.standing
  | stopKeepalive now =>
      simp only [step, stopKeepalive]
      split
      · rfl
      · have sent := sendKeepalivePacket_neutral { c with localKeepaliveIntervalMs := 0 } now 0 0
        exact sent.standing
  | sendProbe now => exact (sendKeepalivePacket_neutral c now _ _).standing
  | close =>
      simp only [step, close]
      split
      · rfl
      · have sent := sendPacket_neutral c .close 0 [] c.endpoint.nowMs none
        exact sent.standing
  | abandon =>
      simp only [step, abandon]
      split <;> rfl
  | upgradeBinder _ | setProtection _ | onMessage _ | onPathChange _ | environment _ => rfl

end Neutral

section Admission

variable [PacketProtection π] [Hmac]

/-- The packet of a datagram that `HandleAuthenticated` lets past its two refusals. -/
def admitted (c : Connection π) (datagram : Bytes) (now : Int) : Option WirePacket :=
  match c.received datagram now with
  | none => none
  | some pkt =>
      if c.timely pkt now && !(c.refusePlainAfterKeys pkt).2 then some pkt else none

theorem refusePlainAfterKeys_neutral (c : Connection π) (pkt : WirePacket) :
    Neutral c (c.refusePlainAfterKeys pkt).1 ∧
      ((c.refusePlainAfterKeys pkt).2 = false → (c.refusePlainAfterKeys pkt).1 = c) := by
  unfold refusePlainAfterKeys
  split
  · exact ⟨Neutral.refl c, fun _ => rfl⟩
  · split
    · exact ⟨Neutral.refl c, nofun⟩
    · split
      · exact ⟨sendPacket_neutral .., nofun⟩
      · exact ⟨Neutral.refl c, nofun⟩
    · exact ⟨Neutral.refl c, fun _ => rfl⟩

theorem handlePreUpgradeKeyPacket_neutral (c : Connection π) (pkt : WirePacket) (now : Int) :
    Neutral c (c.handlePreUpgradeKeyPacket pkt now) :=
  (handlePreUpgradeKeyPacket_only c pkt now).neutral

/-- A datagram is neutral unless its packet is admitted. -/
theorem handleDatagram_cases (c : Connection π) (source : IpEndpoint) (datagram : Bytes)
    (now : Int) :
    (c.admitted datagram now = none ∧ Neutral c (c.handleDatagram source datagram now)) ∨
      ∃ pkt, c.admitted datagram now = some pkt ∧ c.received datagram now = some pkt ∧
        c.timely pkt now = true ∧
        c.handleDatagram source datagram now = c.handleAdmitted pkt source now := by
  rw [handleDatagram_eq]
  cases got : c.received datagram now with
  | none =>
      refine Or.inl ⟨by rw [admitted, got], ?_⟩
      cases c.receivedPreUpgrade datagram with
      | none => exact Neutral.refl c
      | some pkt => exact handlePreUpgradeKeyPacket_neutral c pkt now
  | some pkt =>
      obtain ⟨neutral, same⟩ := refusePlainAfterKeys_neutral c pkt
      have skew : (!pkt.type.isSealed && !c.acceptSkew pkt.timestampMs now) = !c.timely pkt now := by
        rw [timely, Bool.not_or]
      have admits : c.admitted datagram now =
          if (c.timely pkt now && !(c.refusePlainAfterKeys pkt).2) = true then some pkt else none := by
        simp only [admitted, got]
      rw [admits]
      dsimp only
      unfold handleAuthenticated
      rw [skew]
      cases intime : c.timely pkt now with
      | false => exact Or.inl ⟨rfl, Neutral.refl c⟩
      | true =>
          generalize c.refusePlainAfterKeys pkt = outcome at neutral same ⊢
          obtain ⟨after, refused⟩ := outcome
          cases refused with
          | true => exact Or.inl ⟨rfl, neutral⟩
          | false =>
              have unchanged : after = c := same rfl
              subst unchanged
              exact Or.inr ⟨pkt, rfl, rfl, intime, rfl⟩

omit [PacketProtection π] [Hmac] in
theorem noteFresh_gate (c : Connection π) (fresh : Bool) (source : IpEndpoint) (now : Int) :
    (c.noteFresh fresh source now).gate = c.gate :=
  (noteFresh_only c fresh source now).gate

omit [PacketProtection π] [Hmac] in
theorem keepReliable_gate (c : Connection π) (pkt : WirePacket) (freshData : Bool) :
    (c.keepReliable pkt freshData).gate = c.gate :=
  (keepReliable_only c pkt freshData).gate

theorem dispatch_gate (c : Connection π) (pkt : WirePacket) (admission : Admission) (now : Int) :
    (c.dispatch pkt admission now).gate = c.gate := by
  unfold dispatch
  split
  · exact (handleAck_neutral c pkt now).gate
  · exact (handleClose_neutral c).gate
  · split
    · rfl
    · exact (handleKeepalive_neutral c pkt now).gate
  · unfold deliverBestEffort
    split <;> rfl
  · unfold deliverBestEffort
    split <;> rfl
  · rw [handleReliable, keepReliable_gate]
    exact (sendAck_neutral c pkt.seq admission.ackReliable now).gate
  · rw [handleReliable, keepReliable_gate]
    exact (sendAck_neutral c pkt.seq admission.ackReliable now).gate

/-- Data that is not fresh reaches no handler. -/
theorem dispatch_standing (c : Connection π) (pkt : WirePacket) (admission : Admission) (now : Int)
    (stale : admission.freshData = false) :
    (c.dispatch pkt admission now).standing = c.standing := by
  have kept (c : Connection π) : c.keepReliable pkt admission.freshData = c := by
    rw [stale]
    rfl
  unfold dispatch
  split
  · exact (handleAck_neutral c pkt now).standing
  · exact (handleClose_neutral c).standing
  · split
    · rfl
    · exact (handleKeepalive_neutral c pkt now).standing
  · rw [deliverBestEffort, stale]
    rfl
  · rw [deliverBestEffort, stale]
    rfl
  · rw [handleReliable, kept]
    exact (sendAck_neutral c pkt.seq admission.ackReliable now).standing
  · rw [handleReliable, kept]
    exact (sendAck_neutral c pkt.seq admission.ackReliable now).standing

omit [PacketProtection π] [Hmac] in
theorem admitPacket_standing (c : Connection π) (pkt : WirePacket) :
    (c.admitPacket pkt).1.standing = c.standing ∧
      ((c.admitPacket pkt).2.fresh = false → (c.admitPacket pkt).2.freshData = false) := by
  unfold admitPacket admitBestEffort admitReliable recordReliable
  split
  · exact ⟨rfl, fun stale => stale⟩
  · exact ⟨rfl, fun stale => stale⟩
  · split
    · exact ⟨rfl, fun _ => rfl⟩
    · exact ⟨rfl, fun _ => rfl⟩
    · split
      · exact ⟨rfl, fun stale => stale⟩
      · exact ⟨rfl, fun _ => rfl⟩
  · split
    · exact ⟨rfl, fun _ => rfl⟩
    · exact ⟨rfl, fun _ => rfl⟩
    · split
      · exact ⟨rfl, fun stale => stale⟩
      · exact ⟨rfl, fun _ => rfl⟩
  · exact ⟨rfl, fun _ => rfl⟩

/-- A packet that is admitted and not fresh moves nothing. -/
theorem handleAdmitted_standing (c : Connection π) (pkt : WirePacket) (source : IpEndpoint)
    (now : Int) (stale : (c.admitPacket pkt).2.fresh = false) :
    (c.handleAdmitted pkt source now).standing = c.standing := by
  obtain ⟨same, data⟩ := admitPacket_standing c pkt
  have noted (c : Connection π) : (c.noteTimestamp pkt).standing = c.standing := by
    unfold noteTimestamp
    split <;> rfl
  unfold handleAdmitted
  dsimp only
  rw [dispatch_standing _ pkt _ now (data stale), stale]
  exact (noted _).trans same

theorem handleAdmitted_gate (c : Connection π) (pkt : WirePacket) (source : IpEndpoint)
    (now : Int) : (c.handleAdmitted pkt source now).gate =
      ((c.admitPacket pkt).1.noteTimestamp pkt).gate := by
  unfold handleAdmitted
  dsimp only
  rw [dispatch_gate, noteFresh_gate]

end Admission

section Stamps

/-- The time a wire timestamp stands for: of all it may mean, the one nearest the
local clock. -/
def stampOf (now : Int) (ts : Nat) : Int := now - serialDiff (truncTs now) ts

theorem serialDiff_trunc (left right : Int) : serialDiff (truncTs left) (truncTs right) =
    if (left - right) % 2 ^ 32 < 2 ^ 31 then (left - right) % 2 ^ 32
    else (left - right) % 2 ^ 32 - 2 ^ 32 := by
  unfold serialDiff truncTs
  dsimp only
  split <;> split <;> omega

theorem truncTs_stampOf (now : Int) (ts : Nat) (fits : ts < 2 ^ 32) :
    truncTs (stampOf now ts) = ts := by
  unfold stampOf serialDiff truncTs
  dsimp only
  split <;> omega

/-- Timestamps less than half the number space apart compare as their times do. -/
theorem serialDiff_pos (left right : Int) (near : -2 ^ 31 < left - right)
    (far : left - right < 2 ^ 32) :
    0 < serialDiff (truncTs left) (truncTs right) ↔ right < left ∧ left - right < 2 ^ 31 := by
  rw [serialDiff_trunc]
  split <;> omega

theorem stamp_unique (left right : Int) (same : truncTs left = truncTs right)
    (below : -2 ^ 32 < left - right) (above : left - right < 2 ^ 32) : left = right := by
  unfold truncTs at same
  omega

theorem acceptSkew_stamp {π : Type} {c : Connection π} {ts : Nat} {now : Int}
    (passes : c.acceptSkew ts now = true) :
    now - c.params.skewMs ≤ stampOf now ts ∧ stampOf now ts ≤ now + c.params.skewMs := by
  unfold acceptSkew at passes
  have bounds := of_decide_eq_true passes
  unfold stampOf
  omega

end Stamps

section Readings

variable [PacketProtection π] [Hmac]

omit [Hmac] in
theorem openDatagram_header {c : Connection π} {datagram : Bytes} {now : Int} {pkt : WirePacket}
    (ok : c.openDatagram datagram now = .ok pkt) :
    ∃ header, WireCodec.decodeSealedHeader datagram = .ok header ∧ pkt.type = header.type ∧
      pkt.seq = header.number ∧ pkt.timestampMs = 0 := by
  unfold openDatagram at ok
  split at ok
  · cases ok
  · split at ok
    · cases ok
    · rename_i header decoded
      split at ok
      · cases ok
      · cases ok
        exact ⟨header, decoded, rfl, rfl, rfl⟩

/-- What every reading of a datagram agrees in, whatever the keys. -/
theorem received_same {c other : Connection π} {datagram : Bytes} {now later : Int}
    {pkt again : WirePacket} (got : c.received datagram now = some pkt)
    (repeated : other.received datagram later = some again) :
    again.type = pkt.type ∧ again.seq = pkt.seq ∧ again.timestampMs = pkt.timestampMs := by
  unfold received at got repeated
  cases form : WireCodec.peekType datagram with
  | error message =>
      rw [form] at got
      cases got
  | ok type =>
      rw [form] at got repeated
      dsimp only at got repeated
      split at got
      · rename_i keyed
        rw [if_pos keyed] at repeated
        obtain ⟨header, decoded, kind, number, stamp⟩ := openDatagram_header (of_toOption got)
        obtain ⟨twin, same, kind', number', stamp'⟩ := openDatagram_header (of_toOption repeated)
        rw [decoded] at same
        cases same
        exact ⟨kind'.trans kind.symm, number'.trans number.symm, stamp'.trans stamp.symm⟩
      · rename_i plain
        rw [if_neg plain] at repeated
        split at got
        · split at repeated
          · have first := of_toOption got
            have second := of_toOption repeated
            rw [first] at second
            cases second
            exact ⟨rfl, rfl, rfl⟩
          · cases repeated
        · cases got

theorem received_timestamp_lt {c : Connection π} {datagram : Bytes} {now : Int} {pkt : WirePacket}
    (got : c.received datagram now = some pkt) : pkt.timestampMs < 2 ^ 32 := by
  unfold received at got
  split at got
  · cases got
  · split at got
    · obtain ⟨_, _, _, _, stamp⟩ := openDatagram_header (of_toOption got)
      omega
    · split at got
      · have decoded := of_toOption got
        unfold WireCodec.decode at decoded
        split at decoded
        · cases decoded
        · split at decoded
          · cases decoded
          · split at decoded
            · cases decoded
            · split at decoded
              · cases decoded
              · cases decoded
                exact WireCodec.readU32Le_lt _
      · cases got

end Readings

section Windows

theorem admitReliable_gate (c : Connection π) (pkt : WirePacket) (filters : c.gate.Filters) :
    (c.admitReliable pkt).1.gate.Filters ∧ c.gate.Grows (c.admitReliable pkt).1.gate := by
  have strict := filters.strict
  unfold admitReliable recordReliable
  split
  · exact ⟨filters, Gate.Grows.refl _⟩
  · exact ⟨filters, Gate.Grows.refl _⟩
  · split
    · refine ⟨⟨filters.sliding, ?_⟩, ⟨rfl, rfl, rfl, fun _ taken => taken, ?_⟩⟩
      · exact (ReplayWindow.accept_slideOnGap c.rxRel pkt.seq).trans strict
      · exact fun seq taken => taken.accept strict pkt.seq
    · exact ⟨filters, Gate.Grows.refl _⟩

theorem admitBestEffort_gate (c : Connection π) (pkt : WirePacket) (fits : pkt.seq < 2 ^ 32)
    (filters : c.gate.Filters) :
    (c.admitBestEffort pkt).1.gate.Filters ∧ c.gate.Grows (c.admitBestEffort pkt).1.gate :=
  ⟨⟨filters.sliding.accept fits, filters.strict⟩,
    ⟨rfl, rfl, rfl, fun _ taken => filters.sliding.keeps taken pkt.seq, fun _ taken => taken⟩⟩

theorem admitPacket_gate (c : Connection π) (pkt : WirePacket) (fits : pkt.seq < 2 ^ 32)
    (filters : c.gate.Filters) :
    (c.admitPacket pkt).1.gate.Filters ∧ c.gate.Grows (c.admitPacket pkt).1.gate := by
  unfold admitPacket
  split
  · exact admitBestEffort_gate c pkt fits filters
  · exact admitBestEffort_gate c pkt fits filters
  · exact admitReliable_gate c pkt filters
  · exact admitReliable_gate c pkt filters
  · exact ⟨filters, Gate.Grows.refl _⟩

theorem admitReliable_fresh (c : Connection π) (pkt : WirePacket)
    (fresh : (c.admitReliable pkt).2.fresh = true) :
    ¬ c.rxRel.Accepted pkt.seq ∧ (c.admitReliable pkt).1.rxRel.Accepted pkt.seq := by
  unfold admitReliable recordReliable at fresh ⊢
  cases verdict : c.rxRel.classify pkt.seq with
  | duplicate => simp [verdict] at fresh
  | tooFar => simp [verdict] at fresh
  | fresh =>
      by_cases room : c.hasRoom pkt.seq = true
      · simp only [verdict, room, if_true] at fresh ⊢
        refine ⟨fun known => ?_, ReplayWindow.accept_takes _ _ fresh⟩
        rw [(ReplayWindow.classify_duplicate c.rxRel pkt.seq).mpr (Or.inr known)] at verdict
        cases verdict
      · simp [verdict, room] at fresh

/-- Data is fresh when its number is taken for the first time, a control packet
when its timestamp is newer than the newest. -/
theorem admitPacket_fresh (c : Connection π) (pkt : WirePacket) (filters : c.gate.Filters)
    (fresh : (c.admitPacket pkt).2.fresh = true) :
    (pkt.isData = true ∧ ¬ c.gate.Known pkt ∧ (c.admitPacket pkt).1.gate.Known pkt) ∨
      (pkt.isData = false ∧ c.newerTimestamp pkt = true) := by
  have bestEffort (taken : (c.rxBe.accept pkt.seq).2 = true) : ¬ c.rxBe.Accepted pkt.seq ∧
      (c.rxBe.accept pkt.seq).1.Accepted pkt.seq := by
    refine ⟨fun known => ?_, ReplayWindow.accept_takes _ _ taken⟩
    have refused : (c.rxBe.accept pkt.seq).2 = false := filters.sliding.refuses known
    rw [refused] at taken
    cases taken
  unfold admitPacket at fresh ⊢
  unfold WirePacket.isData Gate.Known
  cases form : pkt.type with
  | dataBestEffort | plainBestEffort =>
      simp only [form] at fresh ⊢
      exact Or.inl ⟨rfl, bestEffort fresh⟩
  | dataReliable | plainReliable =>
      simp only [form] at fresh ⊢
      have first := admitReliable_fresh c pkt fresh
      exact Or.inl ⟨rfl, fun known => first.1 known.2, ⟨rfl, first.2⟩⟩
  | ack | close | keepalive =>
      simp only [form] at fresh ⊢
      exact Or.inr ⟨rfl, fresh⟩

/-- A known number is not fresh. -/
theorem admitPacket_stale (c : Connection π) (pkt : WirePacket) (filters : c.gate.Filters)
    (known : c.gate.Known pkt) : (c.admitPacket pkt).2.fresh = false := by
  cases fresh : (c.admitPacket pkt).2.fresh with
  | false => rfl
  | true =>
      rcases admitPacket_fresh c pkt filters fresh with ⟨_, unknown, _⟩ | ⟨control, _⟩
      · exact absurd known unknown
      · have data := known.isData
        rw [control] at data
        cases data

end Windows

end Connection

/-- A connection with the time of its last datagram and what it has read so far:
the stamps of the plain packets it admitted, those of them that became the newest
timestamp, and the datagrams it took as fresh. -/
structure Clocked (π : Type) where
  connection : Connection π
  clock : Int
  stamps : List Int := []
  marks : List Int := []
  spent : List Bytes := []

namespace Clocked

open Connection

section Machine

variable {π : Type} [PacketProtection π] [Hmac]

def plainStamp (pkt : WirePacket) (now : Int) : List Int :=
  if pkt.type.isSealed then [] else [stampOf now pkt.timestampMs]

def marksWith (this : Clocked π) (pkt : WirePacket) (now : Int) : List Int :=
  if this.connection.newerTimestamp pkt then this.marks ++ plainStamp pkt now else this.marks

/-- An admitted packet is read. -/
def reads (this : Clocked π) (after : Connection π) (bytes : Bytes) (pkt : WirePacket) (now : Int) :
    Clocked π where
  connection := after
  clock := now
  stamps := this.stamps ++ plainStamp pkt now
  marks := this.marksWith pkt now
  spent := if (this.connection.admitPacket pkt).2.fresh then this.spent ++ [bytes] else this.spent

def arrive (this : Clocked π) (source : IpEndpoint) (bytes : Bytes) (now : Int) : Clocked π :=
  let after := this.connection.handleDatagram source bytes now
  match this.connection.admitted bytes now with
  | none => { this with connection := after, clock := now }
  | some pkt => this.reads after bytes pkt now

def step (this : Clocked π) : Event π → Clocked π
  | .datagram source bytes now => this.arrive source bytes now
  | event => { this with connection := this.connection.step event }

def opened (start : Int) (endpoint : EndpointPort) (params : OpenParams) : Clocked π where
  connection := .create endpoint params
  clock := start

/-- The clock never goes back, and the run spans less than `width`. -/
def InSpan (start width : Int) (this : Clocked π) : Event π → Prop
  | .datagram _ _ now => this.clock ≤ now ∧ now < start + width
  | _ => True

instance (start width : Int) (this : Clocked π) : ∀ event, Decidable (InSpan start width this event)
  | .datagram _ _ now => inferInstanceAs (Decidable (this.clock ≤ now ∧ now < start + width))
  | .send .. | .tick _ | .versionNegotiation _ | .upgradeBinder _ | .setProtection _
  | .setPeerEndpoint _ | .onMessage _ | .onPathChange _ | .sendKeepalive .. | .stopKeepalive _
  | .sendProbe _ | .close | .abandon | .environment _ => inferInstanceAs (Decidable True)

/-- Why a packet that was fresh once is not fresh again: its number is taken, or
its timestamp has been the newest. -/
def Spent (gate : Gate) (marks : List Int) (pkt : WirePacket) : Prop :=
  gate.Known pkt ∨ pkt.isData = false ∧ ∃ mark ∈ marks, truncTs mark = pkt.timestampMs

/-- The newest timestamp and the time it stands for. -/
structure Newest (start width : Int) (gate : Gate) (this : Clocked π) (newest : Int) : Prop where
  member : newest ∈ this.marks
  max : truncTs newest = gate.maxAuthRxTs
  latest : ∀ mark ∈ this.marks, mark ≤ newest
  all : width + 2 * gate.skewMs ≤ 2 ^ 31 → ∀ stamp ∈ this.stamps, stamp ≤ newest

/-- What every state of a run keeps. -/
structure Current (start width : Int) (this : Clocked π) : Prop where
  skew : this.connection.gate.skewMs < 2 ^ 30
  filters : this.connection.gate.Filters
  began : start ≤ this.clock
  within : ∀ mark ∈ this.marks, mark ∈ this.stamps
  seen : ∀ stamp ∈ this.stamps, start - this.connection.gate.skewMs ≤ stamp ∧
    stamp ≤ this.clock + this.connection.gate.skewMs
  unread : this.connection.gate.haveAuthRxTs = false → this.stamps = []
  newest : this.connection.gate.haveAuthRxTs = true →
    ∃ newest, Newest start width this.connection.gate this newest
  spent : ∀ bytes ∈ this.spent, ∃ (past : Connection π) (moment : Int) (pkt : WirePacket),
    past.received bytes moment = some pkt ∧ Spent this.connection.gate this.marks pkt

end Machine

section Stamps

variable {π : Type} {start width now : Int} {this : Clocked π} {pkt : WirePacket}
variable [PacketProtection π] [Hmac]

theorem Current.unmarked (current : Current start width this)
    (unread : this.connection.haveAuthRxTs = false) : this.marks = [] := by
  apply List.eq_nil_iff_forall_not_mem.mpr
  intro mark member
  have inside := current.within mark member
  rw [current.unread unread] at inside
  exact absurd inside List.not_mem_nil

/-- Where a packet stands to the newest timestamp. -/
theorem Newest.compare {newest : Int} (current : Current start width this)
    (known : Newest start width this.connection.gate this newest) (span : width ≤ 2 ^ 31)
    (later : this.clock ≤ now) (soon : now < start + width) (fits : pkt.timestampMs < 2 ^ 32)
    (passes : this.connection.acceptSkew pkt.timestampMs now = true) :
    0 < serialDiff pkt.timestampMs this.connection.maxAuthRxTs ↔
      newest < stampOf now pkt.timestampMs ∧
        stampOf now pkt.timestampMs - newest < 2 ^ 31 := by
  have skew := current.skew
  have bounds := acceptSkew_stamp passes
  have same : this.connection.gate.skewMs = this.connection.params.skewMs := rfl
  have trunc := truncTs_stampOf now pkt.timestampMs fits
  have max : truncTs newest = this.connection.maxAuthRxTs := known.max
  have range := current.seen newest (current.within newest known.member)
  have compare := serialDiff_pos (stampOf now pkt.timestampMs) newest (by omega) (by omega)
  rwa [trunc, max] at compare

/-- A packet newer than the newest timestamp is later than every mark. -/
theorem Current.newer_marks (current : Current start width this) (span : width ≤ 2 ^ 31)
    (later : this.clock ≤ now) (soon : now < start + width) (fits : pkt.timestampMs < 2 ^ 32)
    (passes : this.connection.acceptSkew pkt.timestampMs now = true)
    (newer : this.connection.newerTimestamp pkt = true) :
    ∀ mark ∈ this.marks, mark < stampOf now pkt.timestampMs := by
  unfold newerTimestamp at newer
  cases known : this.connection.haveAuthRxTs with
  | false =>
      rw [current.unmarked known]
      exact fun _ absent => absurd absent List.not_mem_nil
  | true =>
      obtain ⟨newest, stands⟩ := current.newest known
      rw [known, Bool.not_true, Bool.false_or, decide_eq_true_iff,
        stands.compare current span later soon fits passes] at newer
      intro mark member
      have latest := stands.latest mark member
      omega

/-- In a run that spans less than half the timestamps with the skew on either
side, newer is later than every packet admitted before. -/
theorem Current.newer_iff (current : Current start width this) (span : width ≤ 2 ^ 31)
    (narrow : width + 2 * this.connection.gate.skewMs ≤ 2 ^ 31)
    (later : this.clock ≤ now) (soon : now < start + width) (fits : pkt.timestampMs < 2 ^ 32)
    (passes : this.connection.acceptSkew pkt.timestampMs now = true) :
    this.connection.newerTimestamp pkt = true ↔
      ∀ stamp ∈ this.stamps, stamp < stampOf now pkt.timestampMs := by
  unfold newerTimestamp
  cases known : this.connection.haveAuthRxTs with
  | false =>
      rw [current.unread known]
      exact ⟨fun _ _ absent => absurd absent List.not_mem_nil, fun _ => rfl⟩
  | true =>
      obtain ⟨newest, stands⟩ := current.newest known
      have bounds := acceptSkew_stamp passes
      have same : this.connection.gate.skewMs = this.connection.params.skewMs := rfl
      have range := current.seen newest (current.within newest stands.member)
      rw [Bool.not_true, Bool.false_or, decide_eq_true_iff,
        stands.compare current span later soon fits passes]
      constructor
      · intro newer stamp inside
        have latest := stands.all narrow stamp inside
        omega
      · intro every
        have newer := every newest (current.within newest stands.member)
        omega

/-- A timestamp that was read before is the same time now. -/
theorem Current.stamp_read (current : Current start width this) (span : width ≤ 2 ^ 31)
    (later : this.clock ≤ now) (soon : now < start + width) (fits : pkt.timestampMs < 2 ^ 32)
    (passes : this.connection.acceptSkew pkt.timestampMs now = true) {mark : Int}
    (member : mark ∈ this.marks) (same : truncTs mark = pkt.timestampMs) :
    mark = stampOf now pkt.timestampMs := by
  have skew := current.skew
  have began := current.began
  have bounds := acceptSkew_stamp passes
  have limit : this.connection.gate.skewMs = this.connection.params.skewMs := rfl
  have range := current.seen mark (current.within mark member)
  have trunc := truncTs_stampOf now pkt.timestampMs fits
  exact stamp_unique mark _ (same.trans trunc.symm) (by omega) (by omega)

omit [PacketProtection π] [Hmac] in
theorem timely_plain {c : Connection π} (plain : pkt.type.isSealed = false)
    (timely : c.timely pkt now = true) : c.acceptSkew pkt.timestampMs now = true := by
  unfold Connection.timely at timely
  rwa [plain, Bool.false_or] at timely

/-- A packet read before is not fresh. -/
theorem Current.stale (current : Current start width this) (span : width ≤ 2 ^ 31)
    (later : this.clock ≤ now) (soon : now < start + width) (fits : pkt.timestampMs < 2 ^ 32)
    (timely : this.connection.timely pkt now = true)
    (spent : Spent this.connection.gate this.marks pkt) :
    (this.connection.admitPacket pkt).2.fresh = false := by
  rcases spent with known | ⟨control, mark, member, same⟩
  · exact admitPacket_stale _ pkt current.filters known
  · cases fresh : (this.connection.admitPacket pkt).2.fresh with
    | false => rfl
    | true =>
        rcases admitPacket_fresh _ pkt current.filters fresh with ⟨data, _⟩ | ⟨_, newer⟩
        · rw [control] at data
          cases data
        · have passes := timely_plain (isSealed_of_control control) timely
          have read := current.stamp_read span later soon fits passes member same
          have above := current.newer_marks span later soon fits passes newer mark member
          omega

end Stamps

section Steps

variable {π : Type} {start width now : Int} {this : Clocked π} {pkt : WirePacket}
variable [PacketProtection π] [Hmac]

omit [PacketProtection π] [Hmac] in
theorem Spent.grows {before after : Gate} {marks more : List Int}
    (grows : ∀ other, before.Known other → after.Known other)
    (fewer : ∀ mark ∈ marks, mark ∈ more) (spent : Spent before marks pkt) :
    Spent after more pkt := by
  rcases spent with known | ⟨control, mark, member, same⟩
  · exact Or.inl (grows pkt known)
  · exact Or.inr ⟨control, mark, fewer mark member, same⟩

/-- A call that leaves the gate alone, at a later time. -/
theorem Current.later (current : Current start width this) (c : Connection π)
    (same : c.gate = this.connection.gate) (later : this.clock ≤ now) :
    Current start width { this with connection := c, clock := now } := by
  refine ⟨?_, ?_, Int.le_trans current.began later, current.within, ?_, ?_, ?_, ?_⟩
  all_goals dsimp only; rw [same]
  · exact current.skew
  · exact current.filters
  · intro stamp member
    have range := current.seen stamp member
    omega
  · exact current.unread
  · intro read
    obtain ⟨newest, stands⟩ := current.newest read
    exact ⟨newest, stands.member, stands.max, stands.latest, stands.all⟩
  · exact current.spent

/-- The gate after an admitted packet. -/
structure Admits (before after : Gate) (pkt : WirePacket) (newer : Bool) : Prop where
  filters : after.Filters
  skewMs : after.skewMs = before.skewMs
  known : ∀ other, before.Known other → after.Known other
  noted : pkt.type.isSealed = false → newer = true →
    after.maxAuthRxTs = pkt.timestampMs ∧ after.haveAuthRxTs = true
  passed : pkt.type.isSealed = true ∨ newer = false →
    after.maxAuthRxTs = before.maxAuthRxTs ∧ after.haveAuthRxTs = before.haveAuthRxTs

theorem handleAdmitted_admits {c : Connection π} (filters : c.gate.Filters)
    (fits : pkt.seq < 2 ^ 32) (source : IpEndpoint) (now : Int) :
    Admits c.gate (c.handleAdmitted pkt source now).gate pkt (c.newerTimestamp pkt) ∧
      ((c.admitPacket pkt).1.gate.Known pkt → (c.handleAdmitted pkt source now).gate.Known pkt) := by
  obtain ⟨kept, grows⟩ := admitPacket_gate c pkt fits filters
  have same : (c.admitPacket pkt).1.newerTimestamp pkt = c.newerTimestamp pkt := by
    have max : (c.admitPacket pkt).1.maxAuthRxTs = c.maxAuthRxTs := grows.maxAuthRxTs
    have read : (c.admitPacket pkt).1.haveAuthRxTs = c.haveAuthRxTs := grows.haveAuthRxTs
    unfold newerTimestamp
    rw [max, read]
  rw [handleAdmitted_gate]
  unfold noteTimestamp
  rw [same]
  cases form : pkt.type.isSealed with
  | true =>
      exact ⟨⟨kept, grows.skewMs, fun _ known => grows.known known, fun plain => by simp [form] at plain,
        fun _ => ⟨grows.maxAuthRxTs, grows.haveAuthRxTs⟩⟩, fun known => known⟩
  | false =>
      cases newer : c.newerTimestamp pkt with
      | true =>
          refine ⟨⟨⟨kept.sliding, kept.strict⟩, grows.skewMs, fun _ known => grows.known known,
            fun _ _ => ⟨rfl, rfl⟩, ?_⟩, fun known => known⟩
          rintro (keyed | older)
          · simp [form] at keyed
          · cases older
      | false =>
          exact ⟨⟨kept, grows.skewMs, fun _ known => grows.known known, fun _ => nofun,
            fun _ => ⟨grows.maxAuthRxTs, grows.haveAuthRxTs⟩⟩, fun known => known⟩

omit [PacketProtection π] [Hmac] in
/-- A plain packet that is not newer leaves a timestamp that was there before. -/
theorem read_of_not_newer {c : Connection π} (older : c.newerTimestamp pkt = false) :
    c.haveAuthRxTs = true := by
  unfold newerTimestamp at older
  cases read : c.haveAuthRxTs with
  | true => rfl
  | false => simp [read] at older

theorem Current.admits_newest (current : Current start width this) (span : width ≤ 2 ^ 31)
    (later : this.clock ≤ now) (soon : now < start + width) {c : Connection π}
    (fits : pkt.timestampMs < 2 ^ 32) (timely : this.connection.timely pkt now = true)
    (admits : Admits this.connection.gate c.gate pkt (this.connection.newerTimestamp pkt))
    (bytes : Bytes) :
    (c.gate.haveAuthRxTs = false → this.stamps ++ plainStamp pkt now = []) ∧
      (c.gate.haveAuthRxTs = true →
        ∃ newest, Newest start width c.gate (this.reads c bytes pkt now) newest) := by
  have skew := admits.skewMs
  have limit : this.connection.gate.skewMs = this.connection.params.skewMs := rfl
  cases form : pkt.type.isSealed with
  | true =>
      have none : plainStamp pkt now = [] := by rw [plainStamp, form, if_pos rfl]
      have marks : this.marksWith pkt now = this.marks := by
        rw [marksWith, none, List.append_nil, ite_self]
      obtain ⟨max, read⟩ := admits.passed (Or.inl form)
      rw [read, none, List.append_nil]
      refine ⟨current.unread, fun known => ?_⟩
      obtain ⟨newest, stands⟩ := current.newest known
      refine ⟨newest, ?_, stands.max.trans max.symm, ?_, ?_⟩
      · show newest ∈ this.marksWith pkt now
        rw [marks]
        exact stands.member
      · show ∀ mark ∈ this.marksWith pkt now, mark ≤ newest
        rw [marks]
        exact stands.latest
      · rw [skew]
        intro narrow stamp member
        refine stands.all narrow stamp ?_
        unfold reads at member
        rwa [none, List.append_nil] at member
  | false =>
      have one : plainStamp pkt now = [stampOf now pkt.timestampMs] := by
        rw [plainStamp, form]
        rfl
      have passes := timely_plain form timely
      have bounds := acceptSkew_stamp passes
      cases newer : this.connection.newerTimestamp pkt with
      | true =>
          obtain ⟨max, read⟩ := admits.noted form newer
          have marks : this.marksWith pkt now = this.marks ++ [stampOf now pkt.timestampMs] := by
            rw [marksWith, newer, if_pos rfl, one]
          have above := current.newer_marks span later soon fits passes newer
          have known : c.gate.haveAuthRxTs ≠ false := by simp [read]
          refine ⟨fun unread => absurd unread known, fun _ => ?_⟩
          refine ⟨stampOf now pkt.timestampMs, ?_, ?_, ?_, ?_⟩
          · show _ ∈ this.marksWith pkt now
            rw [marks]
            exact List.mem_append_right _ (List.mem_singleton.mpr rfl)
          · rw [max]
            exact truncTs_stampOf now _ fits
          · show ∀ mark ∈ this.marksWith pkt now, _
            rw [marks]
            intro mark member
            rcases List.mem_append.mp member with old | new
            · exact Int.le_of_lt (above mark old)
            · exact Int.le_of_eq (List.mem_singleton.mp new)
          · show _ → ∀ stamp ∈ this.stamps ++ plainStamp pkt now, _
            rw [one, skew]
            intro narrow stamp member
            have every := (current.newer_iff span narrow later soon fits passes).mp newer
            rcases List.mem_append.mp member with old | new
            · exact Int.le_of_lt (every stamp old)
            · exact Int.le_of_eq (List.mem_singleton.mp new)
      | false =>
          have known := read_of_not_newer newer
          obtain ⟨max, read⟩ := admits.passed (Or.inr newer)
          have marks : this.marksWith pkt now = this.marks := by
            rw [marksWith, newer]
            rfl
          obtain ⟨newest, stands⟩ := current.newest known
          have range := current.seen newest (current.within newest stands.member)
          have behind : ¬ (newest < stampOf now pkt.timestampMs ∧
              stampOf now pkt.timestampMs - newest < 2 ^ 31) := by
            rw [← stands.compare current span later soon fits passes]
            intro ahead
            unfold newerTimestamp at newer
            rw [decide_eq_true ahead, Bool.or_true] at newer
            cases newer
          refine ⟨fun unread => ?_, fun _ => ⟨newest, ?_, stands.max.trans max.symm, ?_, ?_⟩⟩
          · rw [read] at unread
            exact absurd known (by rw [show this.connection.haveAuthRxTs = false from unread]; nofun)
          · show newest ∈ this.marksWith pkt now
            rw [marks]
            exact stands.member
          · show ∀ mark ∈ this.marksWith pkt now, mark ≤ newest
            rw [marks]
            exact stands.latest
          · show _ → ∀ stamp ∈ this.stamps ++ plainStamp pkt now, _
            rw [one, skew]
            intro narrow stamp member
            rcases List.mem_append.mp member with old | new
            · exact stands.all narrow stamp old
            · rw [List.mem_singleton.mp new]
              omega

/-- A packet is admitted: its stamp is read, and marked when it is the newest. -/
theorem Current.admits (current : Current start width this) (span : width ≤ 2 ^ 31)
    (later : this.clock ≤ now) (soon : now < start + width) {c : Connection π}
    (fits : pkt.timestampMs < 2 ^ 32) (timely : this.connection.timely pkt now = true)
    (admits : Admits this.connection.gate c.gate pkt (this.connection.newerTimestamp pkt))
    (bytes : Bytes) (got : this.connection.received bytes now = some pkt)
    (first : (this.connection.admitPacket pkt).2.fresh = true →
      pkt.isData = true ∧ c.gate.Known pkt ∨
        pkt.isData = false ∧ this.connection.newerTimestamp pkt = true) :
    Current start width (this.reads c bytes pkt now) := by
  have skew := admits.skewMs
  have limit : this.connection.gate.skewMs = this.connection.params.skewMs := rfl
  have marksGrow : ∀ mark ∈ this.marks, mark ∈ this.marksWith pkt now := by
    intro mark member
    unfold marksWith
    split
    · exact List.mem_append_left _ member
    · exact member
  obtain ⟨unread, newest⟩ := current.admits_newest span later soon fits timely admits bytes
  refine ⟨?_, admits.filters, Int.le_trans current.began later, ?_, ?_, unread, newest, ?_⟩
  · exact skew.trans_lt current.skew
  · intro mark member
    unfold reads marksWith at member
    show mark ∈ this.stamps ++ plainStamp pkt now
    dsimp only at member
    split at member
    · rcases List.mem_append.mp member with old | new
      · exact List.mem_append_left _ (current.within mark old)
      · exact List.mem_append_right _ new
    · exact List.mem_append_left _ (current.within mark member)
  · intro stamp member
    show start - c.gate.skewMs ≤ stamp ∧ stamp ≤ now + c.gate.skewMs
    rcases List.mem_append.mp member with old | new
    · have range := current.seen stamp old
      omega
    · unfold plainStamp at new
      split at new
      · exact absurd new List.not_mem_nil
      · rename_i plain
        have bounds := acceptSkew_stamp (timely_plain (by simpa using plain) timely)
        have began := current.began
        rw [List.mem_singleton.mp new]
        omega
  · intro known member
    have old : known ∈ this.spent → ∃ (past : Connection π) (moment : Int) (pkt' : WirePacket),
        past.received known moment = some pkt' ∧
          Spent c.gate (this.marksWith pkt now) pkt' := by
      intro inside
      obtain ⟨past, moment, packet, read, spent⟩ := current.spent known inside
      exact ⟨past, moment, packet, read, spent.grows admits.known marksGrow⟩
    unfold reads at member
    dsimp only at member
    split at member
    · rename_i fresh
      rcases List.mem_append.mp member with inside | new
      · exact old inside
      · rw [List.mem_singleton.mp new]
        refine ⟨this.connection, now, pkt, got, ?_⟩
        rcases first fresh with ⟨_, known⟩ | ⟨control, newer⟩
        · exact Or.inl known
        · refine Or.inr ⟨control, stampOf now pkt.timestampMs, ?_, truncTs_stampOf now _ fits⟩
          show _ ∈ this.marksWith pkt now
          rw [marksWith, if_pos newer, plainStamp, isSealed_of_control control]
          exact List.mem_append_right _ (List.mem_singleton.mpr rfl)
    · exact old member

theorem arrive_current (current : Current start width this) (span : width ≤ 2 ^ 31)
    (source : IpEndpoint) (bytes : Bytes) (later : this.clock ≤ now) (soon : now < start + width) :
    Current start width (this.arrive source bytes now) := by
  unfold arrive
  rcases handleDatagram_cases this.connection source bytes now with
    ⟨none, neutral⟩ | ⟨pkt, admitted, got, timely, same⟩
  · rw [none]
    exact current.later _ neutral.gate later
  · rw [admitted, same]
    obtain ⟨admits, taken⟩ :=
      handleAdmitted_admits current.filters (received_seq_lt got) source now
    apply current.admits span later soon (received_timestamp_lt got) timely admits bytes got
    intro fresh
    rcases admitPacket_fresh _ pkt current.filters fresh with ⟨data, _, known⟩ | control
    · exact Or.inl ⟨data, taken known⟩
    · exact Or.inr control

theorem step_current (span : width ≤ 2 ^ 31) (this : Clocked π) (event : Event π)
    (inside : InSpan start width this event) (current : Current start width this) :
    Current start width (this.step event) := by
  have other (event : Event π) (none : ∀ source bytes now, event ≠ .datagram source bytes now) :
      Current start width { this with connection := this.connection.step event } :=
    current.later _ (step_gate _ event none) (Int.le_refl _)
  cases event with
  | datagram source bytes now => exact arrive_current current span source bytes inside.1 inside.2
  | send | tick | versionNegotiation | upgradeBinder | setProtection | setPeerEndpoint | onMessage
  | onPathChange | sendKeepalive | stopKeepalive | sendProbe | close | abandon | environment =>
      exact other _ nofun

theorem opened_current (endpoint : EndpointPort) (params : OpenParams)
    (skew : params.skewMs < 2 ^ 30) (size : params.replayWindow + 2 ^ 32 ≤ 2 ^ 64) :
    Current start width (opened start endpoint params : Clocked π) := by
  have kept : (opened start endpoint params : Clocked π).connection.gate.skewMs = params.skewMs := by
    unfold opened Connection.create Connection.gate
    dsimp only
    split <;> rfl
  refine ⟨kept.trans_lt skew, ⟨ReplayWindow.filters_fresh _ _ size, rfl⟩, Int.le_refl _, ?_, ?_,
    fun _ => rfl, nofun, ?_⟩
  all_goals exact fun _ absent => absurd absent List.not_mem_nil

/-- A datagram that was fresh once moves nothing. -/
theorem Current.replay (current : Current start width this) (span : width ≤ 2 ^ 31)
    {bytes : Bytes} (spent : bytes ∈ this.spent) (source : IpEndpoint)
    (later : this.clock ≤ now) (soon : now < start + width) :
    (this.arrive source bytes now).connection.standing = this.connection.standing ∧
      bytes ∈ (this.arrive source bytes now).spent := by
  unfold arrive
  rcases handleDatagram_cases this.connection source bytes now with
    ⟨none, neutral⟩ | ⟨pkt, admitted, got, timely, same⟩
  · rw [none]
    exact ⟨neutral.standing, spent⟩
  · rw [admitted, same]
    obtain ⟨past, moment, packet, read, reason⟩ := current.spent bytes spent
    obtain ⟨kind, number, stamp⟩ := received_same read got
    have again : Spent this.connection.gate this.marks pkt := by
      unfold Spent Gate.Known WirePacket.isData at reason ⊢
      rwa [kind, number, stamp]
    have stale := current.stale span later soon (received_timestamp_lt got) timely again
    refine ⟨handleAdmitted_standing _ pkt source now stale, ?_⟩
    show bytes ∈ (if (this.connection.admitPacket pkt).2.fresh then this.spent ++ [bytes]
      else this.spent)
    rw [stale]
    exact spent

/-- The same datagram again, from any addresses at any later times. -/
def replays (bytes : Bytes) (arrivals : List (IpEndpoint × Int)) : List (Event π) :=
  arrivals.map fun arrival => .datagram arrival.1 bytes arrival.2

theorem Current.replays (span : width ≤ 2 ^ 31) {bytes : Bytes}
    (arrivals : List (IpEndpoint × Int)) : ∀ this : Clocked π, Current start width this →
    bytes ∈ this.spent → Run.Meets step (InSpan start width) this (replays bytes arrivals) →
    (Run.exec step this (Clocked.replays bytes arrivals)).connection.standing =
      this.connection.standing := by
  induction arrivals with
  | nil => exact fun _ _ _ _ => rfl
  | cons first rest ih =>
      intro this current spent met
      obtain ⟨inside, later⟩ := met
      obtain ⟨same, kept⟩ := current.replay span spent first.1 inside.1 inside.2
      have next := arrive_current current span first.1 bytes inside.1 inside.2
      exact (ih (this.arrive first.1 bytes first.2) next kept later).trans same

/-- What `peer_` and `last_auth_rx_ms_` change on: data whose number is taken for the
first time, or a control packet newer than the newest timestamp. Where the serial
order is total over the run, that is newer than every plain packet admitted before. -/
def Fresh (width : Int) (this : Clocked π) (pkt : WirePacket) (after : Connection π) : Prop :=
  (pkt.isData = true ∧ ¬ this.connection.gate.Known pkt ∧ after.gate.Known pkt) ∨
    (pkt.isData = false ∧ this.connection.newerTimestamp pkt = true ∧
      (width + 2 * this.connection.params.skewMs ≤ 2 ^ 31 →
        ∀ stamp ∈ this.stamps, 0 < serialDiff pkt.timestampMs (truncTs stamp)))

theorem Current.fresh (current : Current start width this) (span : width ≤ 2 ^ 31)
    (later : this.clock ≤ now) (soon : now < start + width) {bytes : Bytes}
    (got : this.connection.received bytes now = some pkt)
    (timely : this.connection.timely pkt now = true) (source : IpEndpoint)
    (fresh : (this.connection.admitPacket pkt).2.fresh = true) :
    Fresh width this pkt (this.connection.handleAdmitted pkt source now) := by
  obtain ⟨_, taken⟩ := handleAdmitted_admits current.filters (received_seq_lt got) source now
  rcases admitPacket_fresh _ pkt current.filters fresh with ⟨data, unknown, known⟩ | ⟨control, newer⟩
  · exact Or.inl ⟨data, unknown, taken known⟩
  · refine Or.inr ⟨control, newer, fun narrow stamp member => ?_⟩
    have fits := received_timestamp_lt got
    have passes := timely_plain (isSealed_of_control control) timely
    have above := (current.newer_iff span narrow later soon fits passes).mp newer stamp member
    have bounds := acceptSkew_stamp passes
    have same : this.connection.gate.skewMs = this.connection.params.skewMs := rfl
    have range := current.seen stamp member
    have serial := serialDiff_pos (stampOf now pkt.timestampMs) stamp (by omega) (by omega)
    rw [truncTs_stampOf now _ fits] at serial
    exact serial.mpr ⟨above, by omega⟩

/-- The path or the proof of life moved, other than by the owner's own call. -/
def Moves (this : Clocked π) (event : Event π) : Prop :=
  ((this.step event).connection.peer ≠ this.connection.peer ∧
      ∀ peer, event ≠ .setPeerEndpoint peer) ∨
    (this.step event).connection.lastAuthRxMs ≠ this.connection.lastAuthRxMs

theorem not_moves {event : Event π}
    (same : (this.step event).connection.standing = this.connection.standing) :
    ¬ this.Moves event := by
  rintro (⟨moved, _⟩ | alive)
  · exact moved (congrArg Standing.peer same)
  · exact alive (congrArg Standing.lastAuthRxMs same)

theorem setPeerEndpoint_not_moves (this : Clocked π) (peer : IpEndpoint) :
    ¬ this.Moves (.setPeerEndpoint peer) := by
  have alive : (this.connection.setPeerEndpoint peer).lastAuthRxMs =
      this.connection.lastAuthRxMs := by
    unfold setPeerEndpoint
    split <;> rfl
  rintro (⟨_, other⟩ | moved)
  · exact other peer rfl
  · exact moved alive

theorem Current.moves (current : Current start width this) (span : width ≤ 2 ^ 31)
    (event : Event π) (inside : InSpan start width this event) (moves : this.Moves event) :
    ∃ source bytes now pkt, event = .datagram source bytes now ∧
      this.connection.admitted bytes now = some pkt ∧
      Fresh width this pkt (this.step event).connection := by
  have other (event : Event π) (none : ∀ source bytes now, event ≠ .datagram source bytes now)
      (left : ∀ peer, event ≠ .setPeerEndpoint peer)
      (here : this.step event = { this with connection := this.connection.step event }) :
      ¬ this.Moves event := by
    apply not_moves
    rw [here]
    exact step_standing this.connection event none left
  cases event with
  | datagram source bytes now =>
      have after : (this.arrive source bytes now).connection =
          this.connection.handleDatagram source bytes now := by
        unfold arrive
        split <;> rfl
      rcases handleDatagram_cases this.connection source bytes now with
        ⟨_, neutral⟩ | ⟨pkt, admitted, got, timely, same⟩
      · refine absurd moves (not_moves ?_)
        show (this.arrive source bytes now).connection.standing = _
        rw [after]
        exact neutral.standing
      · rw [same] at after
        cases fresh : (this.connection.admitPacket pkt).2.fresh with
        | false =>
            refine absurd moves (not_moves ?_)
            show (this.arrive source bytes now).connection.standing = _
            rw [after]
            exact handleAdmitted_standing _ pkt source now fresh
        | true =>
            refine ⟨source, bytes, now, pkt, rfl, admitted, ?_⟩
            show Fresh width this pkt (this.arrive source bytes now).connection
            rw [after]
            exact current.fresh span inside.1 inside.2 got timely source fresh
  | setPeerEndpoint peer => exact absurd moves (setPeerEndpoint_not_moves this peer)
  | send | tick | versionNegotiation | upgradeBinder | setProtection | onMessage | onPathChange
  | sendKeepalive | stopKeepalive | sendProbe | close | abandon | environment =>
      exact absurd moves (other _ nofun nofun rfl)

/-- In every state of a run, replays of what was fresh once leave the path, the
proof of life and the handlers alone, and only fresh packets move either. -/
theorem replays_move_nothing (start width : Int) (endpoint : EndpointPort) (params : OpenParams)
    (skew : params.skewMs < 2 ^ 30) (size : params.replayWindow + 2 ^ 32 ≤ 2 ^ 64)
    (span : width ≤ 2 ^ 31) (events : List (Event π))
    (met : Run.Meets step (InSpan start width) (opened start endpoint params) events) :
    let this := Run.exec step (opened start endpoint params) events
    (∀ bytes ∈ this.spent, ∀ arrivals : List (IpEndpoint × Int),
      Run.Meets step (InSpan start width) this (replays bytes arrivals) →
      (Run.exec step this (replays bytes arrivals)).connection.standing =
        this.connection.standing) ∧
    ∀ event : Event π, InSpan start width this event → this.Moves event →
      ∃ source bytes now pkt, event = .datagram source bytes now ∧
        this.connection.admitted bytes now = some pkt ∧
        Fresh width this pkt (this.step event).connection := by
  intro this
  have current : Current start width this :=
    Run.invariant step (InSpan start width) (Current start width) (step_current span) events _ met
      (opened_current endpoint params skew size)
  refine ⟨fun bytes spent arrivals inside => ?_, fun event inside moves => ?_⟩
  · exact Current.replays span arrivals this current spent inside
  · exact current.moves span event inside moves

end Steps

/-- A packet under the empty key, with any timestamp. -/
def stamped (type : PacketType) (seq timestampMs : Nat) : Bytes :=
  let packet := WireCodec.encode {
    type := type, assoc := sampleParams.id, seq := seq, timestampMs := timestampMs }
  packet.toOption.elim [] (HmacBinder.bind [])

def plainFrom (port : Nat) (type : PacketType) (seq timestampMs : Nat) (now : Int) :
    Event TagProtection :=
  .datagram { port := port } (stamped type seq timestampMs) now

theorem replays_move_nothing_sample :
    let events := [plainFrom 7 .keepalive 0 1000 1000, plainFrom 7 .plainBestEffort 1 1001 1001]
    let this := Run.exec step (opened 1000 samplePort sampleParams) events
    this.spent = [stamped .keepalive 0 1000, stamped .plainBestEffort 1 1001] ∧
      (Run.exec step this (replays (stamped .keepalive 0 1000)
        [({ port := 8 }, 2000), ({ port := 9 }, 3000)])).connection.standing =
          this.connection.standing := by
  intro events this
  have spent : this.spent = [stamped .keepalive 0 1000, stamped .plainBestEffort 1 1001] := by
    decide +kernel
  have all := replays_move_nothing 1000 10000 samplePort sampleParams (by decide) (by decide)
    (by decide) events (by decide +kernel)
  refine ⟨spent, all.1 _ ?_ _ (by decide +kernel)⟩
  rw [spent]
  exact List.mem_cons_self

/-- Three runs in which an older packet counts: plain data refused after the keys
leaves no timestamp behind; over more than 2^31 ms with the skew a packet can be
newer than the newest and still serially older than an earlier one; and a replay
window near 2^64 wraps, so that a best-effort replay is delivered again. -/
theorem older_packets_prove_life :
    let refused := Run.exec step (opened 5000 samplePort sampleParams)
      [.setProtection ⟨1⟩, plainFrom 7 .plainReliable 1 5000 5000]
    let wrapped := Run.exec step (opened 0 samplePort sampleParams)
      [plainFrom 7 .keepalive 0 0 0, plainFrom 7 .keepalive 0 (2 ^ 30) (2 ^ 30)]
    let huge := Run.exec step (opened 0 samplePort
        { sampleParams with replayWindow := 2 ^ 64 - 1 })
      [.onMessage true, plainFrom 7 .plainBestEffort 5 0 0, plainFrom 7 .plainBestEffort 1 0 0]
    (refused.connection.received (stamped .plainReliable 1 5000) 5000).isSome = true ∧
      refused.Moves (plainFrom 7 .keepalive 0 4000 5000) ∧ serialDiff 4000 5000 < 0 ∧
    wrapped.Moves (plainFrom 7 .keepalive 0 (2 ^ 31 + 499) (2 ^ 31 - 1)) ∧
      0 ∈ wrapped.stamps ∧ serialDiff (2 ^ 31 + 499) 0 < 0 ∧
    stamped .plainBestEffort 5 0 ∈ huge.spent ∧ huge.connection.delivered.length = 2 ∧
      (huge.step (plainFrom 8 .plainBestEffort 5 0 1)).connection.delivered.length = 3 := by
  refine ⟨by decide +kernel, Or.inr (by decide +kernel), by decide +kernel,
    Or.inr (by decide +kernel), by decide +kernel, by decide +kernel, by decide +kernel,
    by decide +kernel, by decide +kernel⟩

end Clocked

end Amp.Adp
