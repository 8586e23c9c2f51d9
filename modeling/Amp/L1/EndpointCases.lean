import Amp.L1.RoutingEndpoint
import Amp.L1.Standing
import Amp.Lib.Numbered

set_option autoImplicit false

/- What an endpoint makes of one datagram, case by case. -/
namespace Amp.Adp

open WireCodec

namespace ConnectionLog

variable {π : Type} [PacketProtection π] [Hmac]

theorem replay_push (log : ConnectionLog π) (event : Connection.Event π) :
    (log.push event).replay = log.replay.step event := by
  unfold replay push
  rw [Run.exec_append]
  rfl

theorem replay_id (log : ConnectionLog π) : log.replay.id = log.params.id :=
  Run.invariant_always Connection.step (fun c : Connection π => c.id = log.params.id)
    (fun c event same => (Connection.step_id c event).trans same) log.events _ rfl

/-- A log whose calls are an accept handler's has its key still. -/
theorem replay_binderKey (log : ConnectionLog π)
    (handled : ∀ event ∈ log.events, event.fromHandler = true) :
    log.replay.binderKey = log.params.key := by
  apply Run.invariant Connection.step (fun _ event => event.fromHandler = true)
    (fun c : Connection π => c.binderKey = log.params.key)
  · intro c event fromHandler same
    refine (Connection.step_stays c ?_).binderKey.trans same
    rintro key rfl
    cases fromHandler
  · exact Run.meets_of_listed handled
  · rfl

omit [PacketProtection π] [Hmac] in
theorem heard_push (log : ConnectionLog π) (event : Connection.Event π) :
    (log.push event).heard = log.heard ++ event.given.toList := by
  unfold heard push
  rw [List.filterMap_append]
  cases event <;> rfl

theorem takenUp_append (event : Connection.Event π) (events : List (Connection.Event π)) :
    ∀ c : Connection π, takenUp c (events ++ [event]) =
      takenUp c events + (takesUp (Run.exec Connection.step c events) event).toNat := by
  induction events with
  | nil =>
      intro c
      exact Nat.add_comm _ _
  | cons first rest ih =>
      intro c
      show (takesUp c first).toNat + takenUp (c.step first) (rest ++ [event]) = _
      rw [ih]
      exact (Nat.add_assoc _ _ _).symm

theorem taken_push (log : ConnectionLog π) (event : Connection.Event π) :
    (log.push event).taken = log.taken + (takesUp log.replay event).toNat :=
  takenUp_append event log.events _

end ConnectionLog

/-- A datagram that is rejected changes nothing of the connection it came to. -/
theorem Connection.handleDatagram_rejected {π : Type} [PacketProtection π] [Hmac] {c : Connection π}
    {bytes : Bytes} {now : Int} (rejected : c.rejects bytes now = true) (source : IpEndpoint) :
    c.handleDatagram source bytes now = c := by
  unfold rejects at rejected
  unfold handleDatagram
  split
  · rfl
  · rename_i type typed
    rw [typed] at rejected
    dsimp only at rejected
    split
    · rename_i form
      rw [if_pos form] at rejected
      split
      · rfl
      · rename_i pkt opened
        rw [opened] at rejected
        cases rejected
    · rename_i plain
      rw [if_neg plain] at rejected
      split
      · rename_i other
        rw [if_pos other] at rejected
        split
        · rename_i key known
          rw [known] at rejected
          dsimp only at rejected
          split
          · rename_i verified
            rw [verified] at rejected
            split
            · rename_i pkt decoded
              rw [decoded] at rejected
              cases rejected
            · rfl
          · rfl
        · rfl
      · rename_i current
        rw [if_neg current] at rejected
        split
        · rfl
        · rename_i pkt decoded
          rw [decoded] at rejected
          cases rejected

/-- A plain packet under the key of the binder. -/
theorem Connection.handleDatagram_plain {π : Type} [PacketProtection π] [Hmac] {c : Connection π}
    {bytes : Bytes} {type : PacketType} {pkt : WirePacket} (typed : peekType bytes = .ok type)
    (plain : type.isSealed = false) (verified : HmacBinder.verify c.binderKey bytes = true)
    (decoded : decode bytes = .ok pkt) (source : IpEndpoint) (now : Int) :
    c.handleDatagram source bytes now = c.handleAuthenticated pkt source now := by
  unfold handleDatagram
  rw [typed]
  dsimp only
  rw [if_neg (by simp [plain]), if_neg (by simp [verified]), decoded]

namespace RoutingEndpoint

section Lookup

variable {π : Type} {e : RoutingEndpoint π} {id : AssocId}

theorem find_some {number : Nat} (found : e.find id = some number) :
    ∃ c, e.conns[number]? = some c ∧ c.registered = true ∧ c.id = id := by
  obtain ⟨within, fits, _⟩ := List.findIdx?_eq_some_iff_getElem.mp found
  simp only [Bool.and_eq_true, beq_iff_eq] at fits
  exact ⟨_, List.getElem?_eq_getElem within, fits.1, fits.2⟩

theorem find_none (absent : e.find id = none) :
    ∀ c ∈ e.conns, c.registered = true → c.id ≠ id := by
  intro c held registered named
  have missed := List.findIdx?_eq_none_iff.mp absent c held
  simp [registered, named] at missed

end Lookup

variable {π : Type} [PacketProtection π] [Hmac]

/-- A connection is made, with the calls it takes at once. -/
def enter (e : RoutingEndpoint π) (log : ConnectionLog π) : RoutingEndpoint π :=
  { e with conns := e.conns ++ [log.replay], logs := e.logs ++ [log] }

theorem openConnection_enter {e : RoutingEndpoint π} {params : OpenParams}
    (absent : e.find params.id = none) (accepted : Bool) : e.openConnection params accepted =
      (e.enter ⟨e.port, params, accepted, []⟩, .ok e.conns.length) := by
  unfold openConnection
  rw [absent]
  rfl

/-- What the connection just made takes goes into its log. -/
theorem enter_take {e : RoutingEndpoint π} (aligned : e.conns.length = e.logs.length)
    (log : ConnectionLog π) (event : Connection.Event π) :
    (e.enter log).take e.conns.length event = e.enter (log.push event) := by
  unfold take enter
  dsimp only
  rw [Numbered.modify_concat, ConnectionLog.replay_push]
  congr 1
  rw [aligned, Numbered.modify_concat]

theorem enter_takes {e : RoutingEndpoint π} (aligned : e.conns.length = e.logs.length)
    (calls : List {event : Connection.Event π // event.fromHandler = true}) :
    ∀ log : ConnectionLog π,
      calls.foldl (fun after call => after.take e.conns.length call.val) (e.enter log) =
        e.enter { log with events := log.events ++ calls.map Subtype.val } := by
  induction calls with
  | nil =>
      intro log
      rw [List.map_nil, List.append_nil]
      rfl
  | cons call rest ih =>
      intro log
      rw [List.foldl_cons, enter_take aligned, ih]
      unfold ConnectionLog.push
      rw [List.map_cons, List.append_assoc]
      rfl

/-- The log of an association that a datagram opens. -/
def welcomed (e : RoutingEndpoint π) (arrival : Arrival π) (key : PeerKey) : ConnectionLog π where
  port := e.port
  params := e.acceptParams (peekAssoc arrival.bytes) key arrival.source
  accepted := true
  events := arrival.handling.map Subtype.val ++ [.datagram arrival.source arrival.bytes e.clockMs]

/-- A stranger's datagram that opens an association: a plain packet under the accept key, of
the time, while there is room. -/
structure Opens (e : RoutingEndpoint π) (arrival : Arrival π) (key : PeerKey) : Prop where
  known : e.acceptKey = some key
  enabled : e.acceptEnabled = true
  absent : e.find (peekAssoc arrival.bytes) = none
  room : e.size < e.maxAcceptedConns
  verified : HmacBinder.verify key arrival.bytes = true
  packet : ∃ type pkt, peekType arrival.bytes = .ok type ∧ type.isSealed = false ∧
    decode arrival.bytes = .ok pkt ∧ e.withinSkew pkt = true

/-- All that can become of a datagram. -/
inductive Handled (e : RoutingEndpoint π) (arrival : Arrival π) : RoutingEndpoint π → Prop where
  | dropped : Handled e arrival e
  | rejected : Handled e arrival e.noteRejected
  | replied (foreign : Endpoint.gate arrival.bytes = .foreignVersion) : Handled e arrival { e.noteRejected with
      toEndpoint := e.toEndpoint.replyVersionNegotiation arrival.source arrival.bytes }
  | negotiated (number : Nat) (versions : Bytes) :
      Handled e arrival (e.noteRejected.take number (.versionNegotiation versions))
  | given {number : Nat} {c : Connection π} (found : e.conns[number]? = some c)
      (registered : c.registered = true) (named : c.id = peekAssoc arrival.bytes) :
      Handled e arrival (e.take number (.datagram arrival.source arrival.bytes e.clockMs))
  | refused {number : Nat} {c : Connection π} (found : e.conns[number]? = some c)
      (named : c.id = peekAssoc arrival.bytes) (rejects : c.rejects arrival.bytes e.clockMs = true) :
      Handled e arrival (e.noteRejected.take number (.datagram arrival.source arrival.bytes e.clockMs))
  | opened {key : PeerKey} (opens : e.Opens arrival key) :
      Handled e arrival (e.enter (e.welcomed arrival key))

theorem handleForeignVersion_cases (e : RoutingEndpoint π) {arrival : Arrival π}
    (foreign : Endpoint.gate arrival.bytes = .foreignVersion) :
    Handled e arrival (e.handleForeignVersion arrival.source arrival.bytes) := by
  unfold handleForeignVersion
  dsimp only
  split
  · split
    · exact .rejected
    · split
      · exact .rejected
      · split
        · exact .rejected
        · exact .negotiated _ _
  · split
    · exact .replied foreign
    · exact .rejected

/-- The connection just opened takes the handler's calls and then the datagram. -/
theorem welcome_enter {e : RoutingEndpoint π} {arrival : Arrival π} {key : PeerKey}
    (aligned : e.conns.length = e.logs.length) {type : PacketType} {pkt : WirePacket}
    (typed : peekType arrival.bytes = .ok type) (plain : type.isSealed = false)
    (verified : HmacBinder.verify key arrival.bytes = true)
    (decoded : decode arrival.bytes = .ok pkt) :
    (e.enter { e.welcomed arrival key with events := [] }).welcome e.conns.length arrival pkt =
      e.enter (e.welcomed arrival key) := by
  let made : ConnectionLog π := { e.welcomed arrival key with
    events := arrival.handling.map Subtype.val }
  have handled : made.replay.binderKey = key := by
    apply made.replay_binderKey
    intro event listed
    obtain ⟨call, _, rfl⟩ := List.mem_map.mp listed
    exact call.property
  have calls : arrival.handling.foldl (fun after call => after.take e.conns.length call.val)
      (e.enter { e.welcomed arrival key with events := [] }) = e.enter made :=
    enter_takes aligned arrival.handling { e.welcomed arrival key with events := [] }
  unfold welcome
  dsimp only
  rw [calls]
  have same : made.replay.handleAuthenticated pkt arrival.source e.clockMs =
      (e.welcomed arrival key).replay := by
    have verified : HmacBinder.verify made.replay.binderKey arrival.bytes = true := by
      rw [handled]
      exact verified
    rw [← Connection.handleDatagram_plain typed plain verified decoded]
    exact (made.replay_push (.datagram arrival.source arrival.bytes e.clockMs)).symm
  unfold enter
  dsimp only
  rw [Numbered.modify_concat, same]
  congr 1
  rw [aligned, Numbered.modify_concat]
  rfl

theorem handleStranger_cases {e : RoutingEndpoint π} (aligned : e.conns.length = e.logs.length)
    {arrival : Arrival π} (absent : e.find (peekAssoc arrival.bytes) = none) :
    Handled e arrival (e.handleStranger arrival) := by
  unfold handleStranger
  split
  · rename_i type key typed known
    split
    · exact .rejected
    · rename_i enabled
      simp only [Bool.or_eq_true, Bool.not_eq_true', not_or, Bool.not_eq_false,
        Bool.not_eq_true] at enabled
      split
      · exact .rejected
      · rename_i verified
        rw [Bool.not_eq_true', Bool.not_eq_false] at verified
        split
        · exact .rejected
        · rename_i pkt decoded
          unfold admitStranger
          split
          · exact .dropped
          · rename_i room
            split
            · exact .dropped
            · rename_i timely
              rw [Bool.not_eq_true', Bool.not_eq_false] at timely
              have opens : e.Opens arrival key := {
                known := known
                enabled := enabled.1
                absent := absent
                room := Nat.lt_of_not_le room
                verified := verified
                packet := ⟨type, pkt, typed, enabled.2, decoded, timely⟩ }
              have made : e.acceptOrCreate (peekAssoc arrival.bytes) key arrival.source =
                  (e.enter { e.welcomed arrival key with events := [] }, .ok e.conns.length) := by
                unfold acceptOrCreate
                rw [absent]
                exact openConnection_enter absent true
              rw [made]
              dsimp only
              rw [welcome_enter aligned typed enabled.2 verified decoded]
              exact .opened opens
  · exact .rejected

theorem handleDatagram_cases {e : RoutingEndpoint π} (aligned : e.conns.length = e.logs.length)
    (arrival : Arrival π) : Handled e arrival (e.handleDatagram arrival) := by
  unfold handleDatagram
  split
  · rename_i foreign
    exact handleForeignVersion_cases e foreign
  · exact .rejected
  · split
    · rename_i number found
      obtain ⟨c, held, registered, named⟩ := find_some found
      dsimp only
      split
      · rename_i rejects
        rw [held] at rejects
        exact .refused held named rejects
      · exact .given held registered named
    · rename_i absent
      exact handleStranger_cases aligned absent

end RoutingEndpoint

end Amp.Adp
