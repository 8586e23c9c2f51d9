import Amp.L1.PreAuth

set_option autoImplicit false

/- What the calls of a connection leave it: its id always, the key of its binder until the
upgrade, and its place at the endpoint until it is closed. -/
namespace Amp.Adp.Connection

section Standings

variable {π : Type}

/-- A connection keeps its id and its key, and comes back to no endpoint that let it go. -/
structure Stays (c after : Connection π) : Prop where
  id : after.id = c.id
  binderKey : after.binderKey = c.binderKey
  registered : after.registered = true → c.registered = true

theorem Stays.refl (c : Connection π) : Stays c c := ⟨rfl, rfl, fun held => held⟩

theorem Stays.trans {c one two : Connection π} (first : Stays c one) (second : Stays one two) :
    Stays c two :=
  ⟨second.id.trans first.id, second.binderKey.trans first.binderKey,
    fun held => first.registered (second.registered held)⟩

/-- A change to anything else. -/
theorem Stays.same {c after : Connection π} (id : after.id = c.id)
    (key : after.binderKey = c.binderKey) (registered : after.registered = c.registered) :
    Stays c after :=
  ⟨id, key, fun held => registered ▸ held⟩

theorem Stays.left {c after : Connection π} (id : after.id = c.id)
    (key : after.binderKey = c.binderKey) (gone : after.registered = false) : Stays c after :=
  ⟨id, key, fun held => absurd (held.symm.trans gone) Bool.noConfusion⟩

theorem OnlyTalks.stays {c after : Connection π} (only : OnlyTalks c after) :
    Stays c after := by
  obtain ⟨_, _, _, _, _, _, _, rfl⟩ := only
  exact .same rfl rfl rfl

theorem OnlyNotes.stays {c after : Connection π} (only : OnlyNotes c after) :
    Stays c after := by
  obtain ⟨_, _, _, rfl⟩ := only
  exact .same rfl rfl rfl

theorem OnlyStamps.stays {c after : Connection π} (only : OnlyStamps c after) :
    Stays c after := by
  obtain ⟨_, _, rfl⟩ := only
  exact .same rfl rfl rfl

theorem OnlyHands.stays {c after : Connection π} (only : OnlyHands c after) :
    Stays c after := by
  obtain ⟨_, _, _, rfl⟩ := only
  exact .same rfl rfl rfl

theorem OnlyAdmits.stays {c after : Connection π} (only : OnlyAdmits c after) :
    Stays c after := by
  obtain ⟨_, _, _, rfl⟩ := only
  exact .same rfl rfl rfl

theorem setPeerEndpoint_stays (c : Connection π) (peer : IpEndpoint) :
    Stays c (c.setPeerEndpoint peer) :=
  (setPeerEndpoint_only c peer).stays

theorem noteFresh_stays (c : Connection π) (fresh : Bool) (source : IpEndpoint) (now : Int) :
    Stays c (c.noteFresh fresh source now) :=
  (noteFresh_only c fresh source now).stays

theorem noteTimestamp_stays (c : Connection π) (pkt : WirePacket) :
    Stays c (c.noteTimestamp pkt) :=
  (noteTimestamp_only c pkt).stays

theorem admitPacket_stays (c : Connection π) (pkt : WirePacket) : Stays c (c.admitPacket pkt).1 :=
  (admitPacket_only c pkt).stays

theorem keepReliable_stays (c : Connection π) (pkt : WirePacket) (freshData : Bool) :
    Stays c (c.keepReliable pkt freshData) :=
  (keepReliable_only c pkt freshData).stays

theorem deliverBestEffort_stays (c : Connection π) (pkt : WirePacket) (freshData : Bool) :
    Stays c (c.deliverBestEffort pkt freshData) :=
  (deliverBestEffort_only c pkt freshData).stays

theorem handleAck_stays (c : Connection π) (pkt : WirePacket) (now : Int) :
    Stays c (c.handleAck pkt now) :=
  (handleAck_only c pkt now).stays

theorem handleClose_stays (c : Connection π) : Stays c c.handleClose := by
  unfold handleClose
  split
  · exact .refl c
  · exact .left rfl rfl rfl

theorem handleVersionNegotiation_stays (c : Connection π) (versions : Bytes) :
    Stays c (c.handleVersionNegotiation versions) := by
  unfold handleVersionNegotiation
  split
  · exact .refl c
  · exact .left rfl rfl rfl

theorem abandon_stays (c : Connection π) : Stays c c.abandon := by
  unfold abandon
  split
  · exact .refl c
  · exact .left rfl rfl rfl

end Standings

section Calls

variable {π : Type} [PacketProtection π] [Hmac]

theorem sendPacket_stays (c : Connection π) (type : PacketType) (seq : Nat) (payload : Bytes)
    (now : Int) (key : Option PeerKey) : Stays c (c.sendPacket type seq payload now key).1 :=
  (sendPacket_only ..).talks.stays

theorem sendAck_stays (c : Connection π) (seq : Nat) (wanted : Bool) (now : Int) :
    Stays c (c.sendAck seq wanted now) :=
  (sendAck_only ..).talks.stays

theorem close_stays (c : Connection π) : Stays c c.close := by
  unfold close
  split
  · exact .refl c
  · have said := sendPacket_stays c .close 0 [] c.endpoint.nowMs none
    exact said.trans (.left rfl rfl rfl)

theorem sendKeepalivePacket_stays (c : Connection π) (now : Int) (intervalMs flags : Nat) :
    Stays c (c.sendKeepalivePacket now intervalMs flags).1 :=
  (sendKeepalivePacket_only ..).talks.stays

theorem sendKeepalive_stays (c : Connection π) (now : Int) (intervalMs : Nat) :
    Stays c (c.sendKeepalive now intervalMs).1 := by
  have paced : Stays c { c with localKeepaliveIntervalMs := intervalMs } := .same rfl rfl rfl
  exact paced.trans (sendKeepalivePacket_stays ..)

theorem stopKeepalive_stays (c : Connection π) (now : Int) : Stays c (c.stopKeepalive now).1 := by
  unfold stopKeepalive
  split
  · exact .refl c
  · have paced : Stays c { c with localKeepaliveIntervalMs := 0 } := .same rfl rfl rfl
    exact paced.trans (sendKeepalivePacket_stays ..)

theorem send_stays (c : Connection π) (qos : QosClass) (payload : Bytes) :
    Stays c (c.send qos payload).1 := by
  rcases send_cases c qos payload with same | ⟨_, _, _, type, _, same⟩ | ⟨rfl, takes⟩
  · rw [same]
    exact .refl c
  · rw [same]
    have numbered : Stays c (c.numberBestEffort payload) := .same rfl rfl rfl
    exact numbered.trans (sendPacket_stays ..)
  · obtain ⟨type, _, same⟩ := send_takes takes
    rw [same]
    have numbered : Stays c (c.numberReliable payload c.endpoint.nowMs) := .same rfl rfl rfl
    exact numbered.trans (sendPacket_stays ..)

theorem tick_stays (c : Connection π) (now : Int) : Stays c (c.tick now) :=
  (tick_only c now).stays

theorem refusePlainAfterKeys_stays (c : Connection π) (pkt : WirePacket) :
    Stays c (c.refusePlainAfterKeys pkt).1 :=
  (refusePlainAfterKeys_only c pkt).talks.stays

theorem handlePreUpgradeKeyPacket_stays (c : Connection π) (pkt : WirePacket) (now : Int) :
    Stays c (c.handlePreUpgradeKeyPacket pkt now) :=
  (handlePreUpgradeKeyPacket_only c pkt now).stays

theorem handleKeepalive_stays (c : Connection π) (pkt : WirePacket) (now : Int) :
    Stays c (c.handleKeepalive pkt now) :=
  (handleKeepalive_only c pkt now).stays

theorem dispatch_stays (c : Connection π) (pkt : WirePacket) (admission : Admission) (now : Int) :
    Stays c (c.dispatch pkt admission now) := by
  have reliable : Stays c (c.handleReliable pkt admission now) :=
    (sendAck_stays c pkt.seq admission.ackReliable now).trans (keepReliable_stays ..)
  unfold dispatch
  split
  · exact handleAck_stays c pkt now
  · exact handleClose_stays c
  · split
    · exact .refl c
    · exact handleKeepalive_stays c pkt now
  · exact deliverBestEffort_stays ..
  · exact deliverBestEffort_stays ..
  · exact reliable
  · exact reliable

theorem handleAuthenticated_stays (c : Connection π) (pkt : WirePacket) (source : IpEndpoint)
    (now : Int) : Stays c (c.handleAuthenticated pkt source now) := by
  have refused := refusePlainAfterKeys_stays c pkt
  unfold handleAuthenticated
  split
  · exact .refl c
  · split
    · rename_i after outcome
      rw [outcome] at refused
      exact refused
    · rename_i after outcome
      rw [outcome] at refused
      apply refused.trans
      unfold handleAdmitted
      have admitted := admitPacket_stays after pkt
      exact ((admitted.trans (noteTimestamp_stays _ pkt)).trans
        (noteFresh_stays _ _ source now)).trans (dispatch_stays _ pkt _ now)

theorem handleDatagram_stays (c : Connection π) (source : IpEndpoint) (datagram : Bytes) (now : Int) :
    Stays c (c.handleDatagram source datagram now) := by
  unfold handleDatagram
  split
  · exact .refl c
  · split
    · split
      · exact .refl c
      · exact handleAuthenticated_stays ..
    · split
      · split
        · split
          · split
            · exact handlePreUpgradeKeyPacket_stays ..
            · exact .refl c
          · exact .refl c
        · exact .refl c
      · split
        · exact .refl c
        · exact handleAuthenticated_stays ..

/-- Any call but the upgrade. -/
theorem step_stays (c : Connection π) {event : Event π} (plain : ∀ key, event ≠ .upgradeBinder key) :
    Stays c (c.step event) := by
  cases event with
  | send qos payload => exact send_stays c qos payload
  | tick now => exact tick_stays c now
  | datagram source bytes now => exact handleDatagram_stays c source bytes now
  | versionNegotiation versions => exact handleVersionNegotiation_stays c versions
  | upgradeBinder key => exact absurd rfl (plain key)
  | setProtection protection => exact .same rfl rfl rfl
  | setPeerEndpoint peer => exact setPeerEndpoint_stays c peer
  | onMessage installed => exact .same rfl rfl rfl
  | onPathChange installed => exact .same rfl rfl rfl
  | sendKeepalive now intervalMs => exact sendKeepalive_stays c now intervalMs
  | stopKeepalive now => exact stopKeepalive_stays c now
  | sendProbe now => exact sendKeepalivePacket_stays ..
  | close => exact close_stays c
  | abandon => exact abandon_stays c
  | environment port => exact .same rfl rfl rfl

theorem step_id (c : Connection π) (event : Event π) : (c.step event).id = c.id := by
  cases event with
  | upgradeBinder key => rfl
  | _ =>
      refine (step_stays c ?_).id
      intro key same
      cases same

/-- A connection the endpoint has let go does not come back. -/
theorem step_registered (c : Connection π) (event : Event π)
    (held : (c.step event).registered = true) : c.registered = true := by
  cases event with
  | upgradeBinder key => exact held
  | _ =>
      refine (step_stays c ?_).registered held
      intro key same
      cases same

end Calls

end Amp.Adp.Connection
