import Amp.L1.Connection

set_option autoImplicit false

/- What the functions of a connection leave alone: each changes at most the fields named
here, and every view of a connection is kept that reads none of them. -/
namespace Amp.Adp.Connection

variable {π : Type}

/-- A packet went out, or failed to. -/
def OnlySends (c after : Connection π) : Prop :=
  ∃ unreachable transmitted seals, after = { c with
    peerUnreachable := unreachable, transmitted := transmitted, seals := seals }

/-- Packets went out, also again, or what the peer says of them was noted. -/
def OnlyTalks (c after : Connection π) : Prop :=
  ∃ unreachable transmitted seals outstanding interval rtoBackoff stats, after = { c with
    peerUnreachable := unreachable, transmitted := transmitted, seals := seals
    outstanding := outstanding, peerKeepaliveIntervalMs := interval
    rtoBackoff := rtoBackoff, stats := stats }

/-- A fresh packet was noted: when it came, and by which path. -/
def OnlyNotes (c after : Connection π) : Prop :=
  ∃ peer pathChanges lastAuthRxMs, after = { c with
    peer := peer, pathChanges := pathChanges, lastAuthRxMs := lastAuthRxMs }

/-- The newest timestamp moved. -/
def OnlyStamps (c after : Connection π) : Prop :=
  ∃ maxAuthRxTs haveAuthRxTs, after = { c with
    maxAuthRxTs := maxAuthRxTs, haveAuthRxTs := haveAuthRxTs }

/-- Messages were held or handed to the handler. -/
def OnlyHands (c after : Connection π) : Prop :=
  ∃ delivered hold next, after = { c with
    delivered := delivered, rxRelHold := hold, rxRelNextDeliver := next }

/-- A packet went through a replay window. -/
def OnlyAdmits (c after : Connection π) : Prop :=
  ∃ rxBe rxRel recorded, after = { c with rxBe := rxBe, rxRel := rxRel, recorded := recorded }

/-- The round trip estimate and its backoff moved. -/
def OnlySamples (c after : Connection π) : Prop :=
  ∃ rtoBackoff stats, after = { c with rtoBackoff := rtoBackoff, stats := stats }

theorem OnlySends.refl (c : Connection π) : OnlySends c c := ⟨_, _, _, rfl⟩

theorem OnlyTalks.refl (c : Connection π) : OnlyTalks c c := ⟨_, _, _, _, _, _, _, rfl⟩

theorem OnlySends.talks {c after : Connection π} (only : OnlySends c after) : OnlyTalks c after := by
  obtain ⟨_, _, _, rfl⟩ := only
  exact ⟨_, _, _, _, _, _, _, rfl⟩

theorem OnlyTalks.trans {c between after : Connection π} (one : OnlyTalks c between)
    (two : OnlyTalks between after) : OnlyTalks c after := by
  obtain ⟨_, _, _, _, _, _, _, rfl⟩ := one
  obtain ⟨_, _, _, _, _, _, _, rfl⟩ := two
  exact ⟨_, _, _, _, _, _, _, rfl⟩

theorem OnlyNotes.refl (c : Connection π) : OnlyNotes c c := ⟨_, _, _, rfl⟩

theorem OnlyHands.refl (c : Connection π) : OnlyHands c c := ⟨_, _, _, rfl⟩

theorem OnlyHands.trans {c between after : Connection π} (one : OnlyHands c between)
    (two : OnlyHands between after) : OnlyHands c after := by
  obtain ⟨_, _, _, rfl⟩ := one
  obtain ⟨_, _, _, rfl⟩ := two
  exact ⟨_, _, _, rfl⟩

theorem OnlyNotes.trans {c between after : Connection π} (one : OnlyNotes c between)
    (two : OnlyNotes between after) : OnlyNotes c after := by
  obtain ⟨_, _, _, rfl⟩ := one
  obtain ⟨_, _, _, rfl⟩ := two
  exact ⟨_, _, _, rfl⟩

section Receiving

theorem setPeerEndpoint_only (c : Connection π) (peer : IpEndpoint) :
    OnlyNotes c (c.setPeerEndpoint peer) := by
  unfold setPeerEndpoint
  split
  · exact OnlyNotes.refl c
  · exact ⟨_, _, _, rfl⟩

theorem maybeLearnPath_only (c : Connection π) (source : IpEndpoint) :
    OnlyNotes c (c.maybeLearnPath source) := by
  unfold maybeLearnPath
  split
  · exact setPeerEndpoint_only c source
  · split
    · exact setPeerEndpoint_only c source
    · exact OnlyNotes.refl c

theorem noteTimestamp_only (c : Connection π) (pkt : WirePacket) :
    OnlyStamps c (c.noteTimestamp pkt) := by
  unfold noteTimestamp
  split
  · exact ⟨_, _, rfl⟩
  · exact ⟨_, _, rfl⟩

theorem noteFresh_only (c : Connection π) (fresh : Bool) (source : IpEndpoint) (now : Int) :
    OnlyNotes c (c.noteFresh fresh source now) := by
  unfold noteFresh
  split
  · have timed : OnlyNotes c { c with lastAuthRxMs := now } := ⟨_, _, _, rfl⟩
    exact timed.trans (maybeLearnPath_only _ source)
  · exact OnlyNotes.refl c

theorem deliverHeld_only (turns : Nat) : ∀ c : Connection π, OnlyHands c (deliverHeld turns c) := by
  induction turns with
  | zero => exact OnlyHands.refl
  | succ turns ih =>
      intro c
      unfold deliverHeld
      split
      · exact OnlyHands.refl c
      · rename_i held _
        have handed : OnlyHands c (c.handOver held) := ⟨_, _, _, rfl⟩
        exact handed.trans (ih (c.handOver held))

theorem keepReliable_only (c : Connection π) (pkt : WirePacket) (freshData : Bool) :
    OnlyHands c (c.keepReliable pkt freshData) := by
  unfold keepReliable
  split
  · exact OnlyHands.refl c
  · split
    · have held : OnlyHands c (c.holdReliable pkt) := ⟨_, _, _, rfl⟩
      unfold deliverReliableInOrder
      split
      · exact held
      · exact held.trans (deliverHeld_only _ _)
    · exact OnlyHands.refl c

theorem deliverBestEffort_only (c : Connection π) (pkt : WirePacket) (freshData : Bool) :
    OnlyHands c (c.deliverBestEffort pkt freshData) := by
  unfold deliverBestEffort
  split
  · exact ⟨_, _, _, rfl⟩
  · exact OnlyHands.refl c

theorem admitPacket_only (c : Connection π) (pkt : WirePacket) :
    OnlyAdmits c (c.admitPacket pkt).1 := by
  have reliable : OnlyAdmits c (c.admitReliable pkt).1 := by
    unfold admitReliable
    split
    · exact ⟨_, _, _, rfl⟩
    · exact ⟨_, _, _, rfl⟩
    · split
      · exact ⟨_, _, _, rfl⟩
      · exact ⟨_, _, _, rfl⟩
  unfold admitPacket
  split
  · exact ⟨_, _, _, rfl⟩
  · exact ⟨_, _, _, rfl⟩
  · exact reliable
  · exact reliable
  · exact ⟨_, _, _, rfl⟩

theorem noteRttSample_only (c : Connection π) (rttMs : Int) :
    OnlySamples c (c.noteRttSample rttMs) := by
  unfold noteRttSample
  dsimp only
  split
  · exact ⟨_, _, rfl⟩
  · exact ⟨_, _, rfl⟩

theorem handleAck_only (c : Connection π) (pkt : WirePacket) (now : Int) :
    OnlyTalks c (c.handleAck pkt now) := by
  unfold handleAck
  split
  · rename_i o _
    obtain ⟨_, _, same⟩ := noteRttSample_only c (now - o.firstSentMs)
    rw [same]
    exact ⟨_, _, _, _, _, _, _, rfl⟩
  · exact ⟨_, _, _, _, _, _, _, rfl⟩

end Receiving

section Sending

variable [PacketProtection π] [Hmac]

theorem buildDatagram_only (c : Connection π) (type : PacketType) (seq : Nat) (payload : Bytes)
    (now : Int) (key : Option PeerKey) :
    OnlySends c (c.buildDatagram type seq payload now key).1 := by
  unfold buildDatagram sealDatagram
  split
  · split
    · exact OnlySends.refl c
    · dsimp only
      split
      · exact ⟨_, _, _, rfl⟩
      · exact ⟨_, _, _, rfl⟩
  · split
    · exact OnlySends.refl c
    · exact OnlySends.refl c

theorem sendPacket_only (c : Connection π) (type : PacketType) (seq : Nat) (payload : Bytes)
    (now : Int) (key : Option PeerKey) :
    OnlySends c (c.sendPacket type seq payload now key).1 := by
  have built := buildDatagram_only c type seq payload now key
  unfold sendPacket
  split
  · rename_i outcome
    rwa [outcome] at built
  · rename_i outcome
    rw [outcome] at built
    obtain ⟨_, _, _, rfl⟩ := built
    split
    · exact ⟨_, _, _, rfl⟩
    · exact ⟨_, _, _, rfl⟩
    · exact ⟨_, _, _, rfl⟩

theorem sendKeepalivePacket_only (c : Connection π) (now : Int) (intervalMs flags : Nat) :
    OnlySends c (c.sendKeepalivePacket now intervalMs flags).1 := by
  unfold sendKeepalivePacket
  split
  · exact OnlySends.refl c
  · split
    · exact OnlySends.refl c
    · exact sendPacket_only ..

theorem sendAck_only (c : Connection π) (seq : Nat) (wanted : Bool) (now : Int) :
    OnlySends c (c.sendAck seq wanted now) := by
  unfold sendAck
  split
  · exact sendPacket_only ..
  · exact OnlySends.refl c

theorem refusePlainAfterKeys_only (c : Connection π) (pkt : WirePacket) :
    OnlySends c (c.refusePlainAfterKeys pkt).1 := by
  unfold refusePlainAfterKeys
  split
  · exact OnlySends.refl c
  · split
    · exact OnlySends.refl c
    · split
      · exact sendPacket_only ..
      · exact OnlySends.refl c
    · exact OnlySends.refl c

theorem handlePreUpgradeKeyPacket_only (c : Connection π) (pkt : WirePacket) (now : Int) :
    OnlyTalks c (c.handlePreUpgradeKeyPacket pkt now) := by
  unfold handlePreUpgradeKeyPacket
  split
  · exact OnlyTalks.refl c
  · split
    · exact ⟨_, _, _, _, _, _, _, rfl⟩
    · split
      · exact (sendPacket_only ..).talks
      · exact OnlyTalks.refl c
    · exact OnlyTalks.refl c

theorem handleKeepalive_only (c : Connection π) (pkt : WirePacket) (now : Int) :
    OnlyTalks c (c.handleKeepalive pkt now) := by
  have noted (announced : Nat) : OnlyTalks c (c.notePeerKeepalive announced) :=
    ⟨_, _, _, _, _, _, _, rfl⟩
  unfold handleKeepalive
  split
  · dsimp only
    split
    · exact (noted _).trans (sendKeepalivePacket_only ..).talks
    · exact noted _
  · exact OnlyTalks.refl c

theorem resend_only (c : Connection π) (o : Outstanding) (now : Int) :
    OnlyTalks c (c.resend o now).1 := by
  unfold resend
  split
  · exact OnlyTalks.refl c
  · split
    · exact OnlyTalks.refl c
    · have noted : OnlyTalks c (c.noteRetransmit (o.baseBackoff + (o.attempts + 1))) :=
        ⟨_, _, _, _, _, _, _, rfl⟩
      exact noted.trans (sendPacket_only ..).talks

theorem resendAll_only (now : Int) (packets : List Outstanding) : ∀ c : Connection π,
    OnlyTalks c (resendAll now packets c).1 := by
  induction packets with
  | nil => exact OnlyTalks.refl
  | cons o rest ih =>
      intro c
      unfold resendAll
      exact (resend_only c o now).trans (ih _)

theorem tick_only (c : Connection π) (now : Int) : OnlyTalks c (c.tick now) := by
  unfold tick
  split
  · exact OnlyTalks.refl c
  · have dropped (after : Connection π) (outstanding : List Outstanding) :
        OnlyTalks after (after.dropExhausted outstanding now) := ⟨_, _, _, _, _, _, _, rfl⟩
    exact (resendAll_only now c.outstanding c).trans (dropped _ _)

end Sending

end Amp.Adp.Connection
