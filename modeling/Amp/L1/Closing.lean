import Amp.L1.PreAuth

set_option autoImplicit false

/- A connection that is closed stays closed. -/
namespace Amp.Adp.Connection

theorem OnlyTalks.closed {π : Type} {c after : Connection π} (only : OnlyTalks c after) :
    after.closed = c.closed := by
  obtain ⟨_, _, _, _, _, _, _, rfl⟩ := only
  rfl

theorem exposure_closed {π : Type} (c : Connection π) : c.exposure.closed = c.closed := rfl

variable {π : Type} [PacketProtection π] [Hmac]

theorem sendPacket_closed (c : Connection π) (type : PacketType) (seq : Nat) (payload : Bytes)
    (now : Int) (key : Option PeerKey) :
    (c.sendPacket type seq payload now key).1.closed = c.closed :=
  (sendPacket_only ..).talks.closed

theorem sendKeepalivePacket_closed (c : Connection π) (now : Int) (intervalMs flags : Nat) :
    (c.sendKeepalivePacket now intervalMs flags).1.closed = c.closed :=
  (sendKeepalivePacket_only ..).talks.closed

theorem stopKeepalive_closed (c : Connection π) (now : Int) :
    (c.stopKeepalive now).1.closed = c.closed := by
  unfold stopKeepalive
  split
  · rfl
  · exact sendKeepalivePacket_closed ..

theorem send_closed (c : Connection π) (qos : QosClass) (payload : Bytes)
    (closed : c.closed = true) : (c.send qos payload).1 = c := by
  unfold send
  rw [if_pos closed]

theorem tick_closed (c : Connection π) (now : Int) (closed : c.closed = true) : c.tick now = c := by
  unfold tick
  rw [if_pos closed]

theorem refusePlainAfterKeys_closed (c : Connection π) (pkt : WirePacket) :
    (c.refusePlainAfterKeys pkt).1.closed = c.closed :=
  (refusePlainAfterKeys_only c pkt).talks.closed

theorem handlePreUpgradeKeyPacket_closed (c : Connection π) (pkt : WirePacket) (now : Int) :
    (c.handlePreUpgradeKeyPacket pkt now).closed = c.closed :=
  (handlePreUpgradeKeyPacket_only c pkt now).closed

theorem handleKeepalive_closed (c : Connection π) (pkt : WirePacket) (now : Int) :
    (c.handleKeepalive pkt now).closed = c.closed :=
  (handleKeepalive_only c pkt now).closed

theorem handleReliable_closed (c : Connection π) (pkt : WirePacket) (admission : Admission)
    (now : Int) : (c.handleReliable pkt admission now).closed = c.closed := by
  have acked : (c.sendAck pkt.seq admission.ackReliable now).closed = c.closed := by
    unfold sendAck
    split
    · exact sendPacket_closed ..
    · rfl
  unfold handleReliable
  rw [← exposure_closed, keepReliable_exposure, exposure_closed]
  exact acked

/-- Only the peer's Close changes it, and that closes. -/
theorem dispatch_closed (c : Connection π) (pkt : WirePacket) (admission : Admission) (now : Int)
    (closed : c.closed = true) : (c.dispatch pkt admission now).closed = true := by
  unfold dispatch
  split
  · exact (congrArg Exposure.closed (handleAck_answers c pkt now).rest).trans closed
  · unfold handleClose
    split
    · exact closed
    · rfl
  · split
    · exact closed
    · exact (handleKeepalive_closed c pkt now).trans closed
  · unfold deliverBestEffort
    split <;> exact closed
  · unfold deliverBestEffort
    split <;> exact closed
  · exact (handleReliable_closed c pkt admission now).trans closed
  · exact (handleReliable_closed c pkt admission now).trans closed

theorem handleAdmitted_closed (c : Connection π) (pkt : WirePacket) (source : IpEndpoint) (now : Int)
    (closed : c.closed = true) : (c.handleAdmitted pkt source now).closed = true := by
  unfold handleAdmitted
  have admitted := congrArg Exposure.closed (admitPacket_exposure c pkt)
  apply dispatch_closed
  have noted := congrArg Exposure.closed (noteFresh_exposure ((c.admitPacket pkt).1.noteTimestamp pkt)
    (c.admitPacket pkt).2.fresh source now)
  have stamped := congrArg Exposure.closed (noteTimestamp_exposure (c.admitPacket pkt).1 pkt)
  exact noted.trans (stamped.trans (admitted.trans closed))

theorem handleAuthenticated_closed (c : Connection π) (pkt : WirePacket) (source : IpEndpoint)
    (now : Int) (closed : c.closed = true) :
    (c.handleAuthenticated pkt source now).closed = true := by
  unfold handleAuthenticated
  split
  · exact closed
  · have refused := (refusePlainAfterKeys_closed c pkt).trans closed
    split
    · rename_i after outcome
      rw [outcome] at refused
      exact refused
    · rename_i after outcome
      rw [outcome] at refused
      exact handleAdmitted_closed after pkt source now refused

theorem handleDatagram_closed (c : Connection π) (source : IpEndpoint) (datagram : Bytes)
    (now : Int) (closed : c.closed = true) : (c.handleDatagram source datagram now).closed = true := by
  rw [handleDatagram_eq]
  split
  · exact handleAuthenticated_closed c _ source now closed
  · exact (handlePreUpgradeKeyPacket_closed c _ now).trans closed
  · exact closed

theorem step_closed (c : Connection π) (event : Event π) (closed : c.closed = true) :
    (c.step event).closed = true := by
  cases event with
  | send qos payload =>
      show (c.send qos payload).1.closed = true
      rw [send_closed c qos payload closed]
      exact closed
  | tick now =>
      show (c.tick now).closed = true
      rw [tick_closed c now closed]
      exact closed
  | datagram source bytes now => exact handleDatagram_closed c source bytes now closed
  | versionNegotiation versions =>
      show (c.handleVersionNegotiation versions).closed = true
      unfold handleVersionNegotiation
      split
      · exact closed
      · rfl
  | upgradeBinder key => exact closed
  | setProtection protection => exact closed
  | setPeerEndpoint peer =>
      exact (congrArg Exposure.closed (setPeerEndpoint_exposure c peer)).trans closed
  | onMessage installed => exact closed
  | onPathChange installed => exact closed
  | sendKeepalive now intervalMs => exact (sendKeepalivePacket_closed ..).trans closed
  | stopKeepalive now => exact (stopKeepalive_closed c now).trans closed
  | sendProbe now => exact (sendKeepalivePacket_closed ..).trans closed
  | close =>
      show c.close.closed = true
      unfold close
      rw [if_pos closed]
      exact closed
  | abandon =>
      show c.abandon.closed = true
      unfold abandon
      rw [if_pos closed]
      exact closed
  | environment port => exact closed

end Amp.Adp.Connection
