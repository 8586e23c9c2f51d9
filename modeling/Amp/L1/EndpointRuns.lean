import Amp.L1.EndpointCases

set_option autoImplicit false

/- Endpoints through their runs: each connection is as it would be alone, each datagram goes
to one at most, and only a peer that has the accept key opens one, while there is room. -/
namespace Amp.Adp

open WireCodec

/-- The packet that opened an association: plain, under its key, and of the time. -/
structure ConnectionLog.OpenedBy {π : Type} [Hmac] (log : ConnectionLog π) (bytes : Bytes) (now : Int) :
    Prop where
  verified : HmacBinder.verify log.params.key bytes = true
  plain : ∃ type, peekType bytes = .ok type ∧ type.isSealed = false
  timely : ∃ pkt, decode bytes = .ok pkt ∧
    serialDiff (Connection.truncTs now) pkt.timestampMs ≤ log.params.skewMs ∧
    -log.params.skewMs ≤ serialDiff (Connection.truncTs now) pkt.timestampMs

/-- The first call but the accept handler's was with such a packet, and the connection holds
back until its peer is authenticated. -/
structure ConnectionLog.Proven {π : Type} [Hmac] (log : ConnectionLog π) : Prop where
  first : ∃ calls source bytes now rest, log.events = calls ++ .datagram source bytes now :: rest ∧
    (∀ event ∈ calls, event.fromHandler = true) ∧ log.OpenedBy bytes now
  reduced : log.params.reduceRtxUntilAuthenticated = true
  accepting : log.params.dialerBackoff = false

theorem ConnectionLog.Proven.push {π : Type} [Hmac] {log : ConnectionLog π} (proven : log.Proven)
    (event : Connection.Event π) : (log.push event).Proven := by
  obtain ⟨calls, source, bytes, now, rest, shape, handled, opened⟩ := proven.first
  refine ⟨⟨calls, source, bytes, now, rest ++ [event], ?_, handled, ?_⟩, proven.reduced,
    proven.accepting⟩
  · unfold ConnectionLog.push
    rw [shape, List.append_assoc, List.cons_append]
  · exact ⟨opened.verified, opened.plain, opened.timely⟩

/-- A connection that nobody has upgraded does no stranger's bidding. -/
theorem ConnectionLog.replay_unabused {π : Type} [PacketProtection π] [Hmac] {log : ConnectionLog π}
    (proven : log.Proven) (before : ∀ key, .upgradeBinder key ∉ log.events) :
    log.replay.Unabused log.params := by
  have listed : ∀ event ∈ log.events, ∀ key, event ≠ .upgradeBinder key :=
    fun event member key same => before key (same ▸ member)
  have kept := Run.invariant Connection.step (fun _ event => ∀ key, event ≠ .upgradeBinder key)
    (fun c : Connection π => c.exposure.Guarded log.params ∧ c.ledger.Sound True)
    (fun c event allowed holds => ⟨Connection.step_guarded holds.1 holds.2 event allowed,
      Connection.step_sound holds.2 event (Or.inl trivial)⟩)
    log.events (.create log.port log.params) (Run.meets_of_listed listed)
    ⟨Connection.create_guarded log.port proven.reduced proven.accepting,
      Connection.create_sound log.port log.params⟩
  exact Connection.unabused_of_guarded kept.1

namespace RoutingEndpoint

variable {π : Type}

/-- An association's id would mean either. -/
def Clash (one two : Connection π) : Prop :=
  one.registered = true ∧ two.registered = true ∧ one.id = two.id

/-- How many datagrams went to connections. -/
def heard (e : RoutingEndpoint π) : Nat := (e.logs.map fun log => log.heard.length).sum

variable [PacketProtection π] [Hmac]

/-- How many datagrams connections took up, and did not reject. -/
def taken (e : RoutingEndpoint π) : Nat := (e.logs.map ConnectionLog.taken).sum

/-- How many registered connections were opened by datagrams. -/
def acceptedConns (e : RoutingEndpoint π) : Nat :=
  e.logs.countP fun log => log.accepted && log.replay.registered

/-- What holds of an endpoint's connections at any time. -/
structure Books (most : Nat) (e : RoutingEndpoint π) : Prop where
  capacity : e.maxAcceptedConns = most
  alone : e.conns = e.logs.map ConnectionLog.replay
  named : ∀ log ∈ e.logs, ∀ bytes ∈ log.heard, peekAssoc bytes = log.params.id
  single : Numbered.Apart Clash e.conns
  room : e.acceptedConns ≤ most
  proven : ∀ log ∈ e.logs, log.accepted = true → log.Proven ∧ log.params.key ∈ e.acceptKeys
  known : ∀ key, e.acceptKey = some key → key ∈ e.acceptKeys

section Steps

variable {most : Nat} {e : RoutingEndpoint π}

theorem Books.aligned (books : e.Books most) : e.conns.length = e.logs.length := by
  rw [books.alone, List.length_map]

/-- What leaves the connections as they are. -/
theorem Books.same (books : e.Books most) {after : RoutingEndpoint π}
    (capacity : after.maxAcceptedConns = e.maxAcceptedConns) (conns : after.conns = e.conns)
    (logs : after.logs = e.logs) (keys : ∀ key ∈ e.acceptKeys, key ∈ after.acceptKeys)
    (known : ∀ key, after.acceptKey = some key → key ∈ after.acceptKeys) : after.Books most where
  capacity := capacity.trans books.capacity
  alone := by
    rw [conns, logs]
    exact books.alone
  named := by
    rw [logs]
    exact books.named
  single := by
    rw [conns]
    exact books.single
  room := by
    unfold acceptedConns
    rw [logs]
    exact books.room
  proven log listed accepted := by
    rw [logs] at listed
    obtain ⟨proven, own⟩ := books.proven log listed accepted
    exact ⟨proven, keys _ own⟩
  known := known

/-- A log after a call, or as it was. -/
theorem mem_take_logs {number : Nat} {event : Connection.Event π} {log : ConnectionLog π}
    (listed : log ∈ (e.take number event).logs) :
    log ∈ e.logs ∨ ∃ before, e.logs[number]? = some before ∧ log = before.push event := by
  obtain ⟨index, found⟩ := List.mem_iff_getElem?.mp listed
  obtain ⟨before, held, turned⟩ := Numbered.getElem?_modify_cases found
  rcases turned with ⟨rfl, rfl⟩ | ⟨_, rfl⟩
  · exact .inr ⟨before, held, rfl⟩
  · exact .inl (List.mem_of_getElem? held)

theorem Books.take (books : e.Books most) (number : Nat) {event : Connection.Event π}
    (fits : ∀ source bytes now, event = .datagram source bytes now →
      ∀ c, e.conns[number]? = some c → c.id = peekAssoc bytes) : (e.take number event).Books most where
  capacity := books.capacity
  alone := by
    show e.conns.modify number _ = (e.logs.modify number _).map _
    rw [Numbered.map_modify (fun c : Connection π => c.step event) (fun log => log.replay_push event),
      books.alone]
  named log listed bytes given := by
    rcases mem_take_logs listed with old | ⟨before, held, rfl⟩
    · exact books.named log old bytes given
    · rw [ConnectionLog.heard_push, List.mem_append] at given
      rcases given with old | new
      · exact books.named before (List.mem_of_getElem? held) bytes old
      · cases event with
        | datagram source received now =>
            have own : e.conns[number]? = some before.replay := by
              rw [books.alone, List.getElem?_map, held]
              rfl
            have new : bytes ∈ [received] := new
            rw [List.mem_singleton.mp new, ← fits source received now rfl _ own]
            exact before.replay_id
        | _ => cases new
  single := by
    apply books.single.modify number
    · rintro one two ⟨registered, other, named⟩
      exact ⟨Connection.step_registered one event registered, other,
        (Connection.step_id one event).symm.trans named⟩
    · rintro one two ⟨other, registered, named⟩
      exact ⟨other, Connection.step_registered two event registered,
        named.trans (Connection.step_id two event)⟩
  room := by
    refine Nat.le_trans (Numbered.countP_modify_le ?_ e.logs number) books.room
    intro log counts
    rw [Bool.and_eq_true, ConnectionLog.replay_push] at counts
    rw [Bool.and_eq_true]
    exact ⟨counts.1, Connection.step_registered log.replay event counts.2⟩
  proven log listed accepted := by
    rcases mem_take_logs listed with old | ⟨before, held, rfl⟩
    · exact books.proven log old accepted
    · obtain ⟨proven, own⟩ := books.proven before (List.mem_of_getElem? held) accepted
      exact ⟨proven.push event, own⟩
  known := books.known

/-- The connections that datagrams opened are among the registered. -/
theorem Books.acceptedConns_le (books : e.Books most) : e.acceptedConns ≤ e.size := by
  unfold size acceptedConns
  rw [books.alone, List.countP_map]
  apply List.countP_mono_left
  intro log _ counts
  rw [Bool.and_eq_true] at counts
  exact counts.2

theorem Books.enter (books : e.Books most) {log : ConnectionLog π}
    (absent : e.find log.params.id = none)
    (named : ∀ bytes ∈ log.heard, peekAssoc bytes = log.params.id)
    (room : log.accepted = true → e.size < most)
    (proven : log.accepted = true → log.Proven ∧ log.params.key ∈ e.acceptKeys) :
    (e.enter log).Books most where
  capacity := books.capacity
  alone := by
    show e.conns ++ [log.replay] = (e.logs ++ [log]).map _
    rw [List.map_append, ← books.alone]
    rfl
  named other listed := by
    rcases List.mem_append.mp listed with old | new
    · exact books.named other old
    · rw [List.mem_singleton.mp new]
      exact named
  single := by
    apply books.single.concat
    intro c held
    have free := find_none absent c held
    rw [← log.replay_id] at free
    exact ⟨fun clash => free clash.1 clash.2.2, fun clash => free clash.2.1 clash.2.2.symm⟩
  room := by
    show (e.logs ++ [log]).countP _ ≤ most
    rw [List.countP_append, List.countP_singleton]
    have before := books.room
    have within := books.acceptedConns_le
    unfold acceptedConns at before within
    split
    · rename_i counts
      rw [Bool.and_eq_true] at counts
      have free := room counts.1
      omega
    · omega
  proven other listed := by
    rcases List.mem_append.mp listed with old | new
    · exact books.proven other old
    · rw [List.mem_singleton.mp new]
      exact proven
  known := books.known

omit [PacketProtection π] in
/-- The log of an association that a datagram opens, at its beginning. -/
theorem Opens.proven {arrival : Arrival π} {key : PeerKey} (opens : e.Opens arrival key) :
    (e.welcomed arrival key).Proven := by
  obtain ⟨type, pkt, typed, plain, decoded, timely⟩ := opens.packet
  refine ⟨⟨arrival.handling.map Subtype.val, arrival.source, arrival.bytes, e.clockMs, [], rfl, ?_,
    opens.verified, ⟨type, typed, plain⟩, pkt, decoded, ?_⟩, rfl, rfl⟩
  · intro event listed
    obtain ⟨call, _, rfl⟩ := List.mem_map.mp listed
    exact call.property
  · exact of_decide_eq_true timely

omit [PacketProtection π] [Hmac] in
/-- The accept handler gives a connection no datagram. -/
theorem welcomed_heard (e : RoutingEndpoint π) (arrival : Arrival π) (key : PeerKey) :
    (e.welcomed arrival key).heard = [arrival.bytes] := by
  unfold ConnectionLog.heard welcomed
  dsimp only
  rw [List.filterMap_append]
  have none : (arrival.handling.map Subtype.val).filterMap Connection.Event.given = [] := by
    rw [List.filterMap_eq_nil_iff]
    intro event listed
    obtain ⟨⟨call, handled⟩, _, rfl⟩ := List.mem_map.mp listed
    cases call with
    | datagram _ _ _ => cases handled
    | _ => rfl
  rw [none]
  rfl

omit [PacketProtection π] [Hmac] in
theorem replyVersionNegotiation_conns (e : Endpoint π) (source : IpEndpoint) (datagram : Bytes) :
    (e.replyVersionNegotiation source datagram).conns = e.conns := by
  have rolled : e.rollWindow.conns = e.conns := by
    unfold Endpoint.rollWindow
    split <;> rfl
  unfold Endpoint.replyVersionNegotiation
  split
  · rfl
  · unfold Endpoint.countReply
    split
    · exact rolled
    · exact rolled

theorem Books.handled (books : e.Books most) {arrival : Arrival π} {after : RoutingEndpoint π}
    (handled : Handled e arrival after) : after.Books most := by
  cases handled with
  | dropped => exact books
  | rejected => exact books.same rfl rfl rfl (fun _ held => held) books.known
  | replied =>
      refine books.same rfl ?_ rfl (fun _ held => held) books.known
      exact replyVersionNegotiation_conns e.toEndpoint arrival.source arrival.bytes
  | negotiated number versions =>
      have rejected : e.noteRejected.Books most :=
        books.same rfl rfl rfl (fun _ held => held) books.known
      exact rejected.take number fun _ _ _ same => nomatch same
  | @given number c found registered named =>
      apply books.take number
      intro source bytes now same other held
      cases same
      rw [found] at held
      rw [← Option.some.inj held]
      exact named
  | @refused number c found named _ =>
      have rejected : e.noteRejected.Books most :=
        books.same rfl rfl rfl (fun _ held => held) books.known
      apply rejected.take number
      intro source bytes now same other held
      cases same
      have held : e.conns[number]? = some other := held
      rw [found] at held
      rw [← Option.some.inj held]
      exact named
  | @opened key opens =>
      apply books.enter
      · exact opens.absent
      · intro bytes listed
        rw [welcomed_heard] at listed
        rw [List.mem_singleton.mp listed]
        rfl
      · exact fun _ => books.capacity ▸ opens.room
      · exact fun _ => ⟨opens.proven, books.known key opens.known⟩

theorem take_heard (e : RoutingEndpoint π) (number : Nat) (event : Connection.Event π) :
    (e.take number event).heard ≤ e.heard + event.given.toList.length := by
  apply Numbered.sum_modify_le
  intro log _
  rw [ConnectionLog.heard_push, List.length_append]

/-- What a connection takes up, its call says and its state before. -/
theorem Books.take_taken (books : e.Books most) (number : Nat) (event : Connection.Event π) (extra : Nat)
    (adds : ∀ c, e.conns[number]? = some c → (ConnectionLog.takesUp c event).toNat ≤ extra) :
    (e.take number event).taken ≤ e.taken + extra := by
  apply Numbered.sum_modify_le
  intro log held
  have own : e.conns[number]? = some log.replay := by
    rw [books.alone, List.getElem?_map, held]
    rfl
  have more := adds log.replay own
  rw [ConnectionLog.taken_push]
  omega

omit [PacketProtection π] [Hmac] in
theorem given_of_plain {event : Connection.Event π} (plain : event.given = none) :
    ∀ source bytes now, event ≠ .datagram source bytes now := by
  rintro source bytes now rfl
  cases plain

theorem takesUp_plain {event : Connection.Event π} (plain : event.given = none) (c : Connection π) :
    ConnectionLog.takesUp c event = false := by
  cases event with
  | datagram source bytes now => cases plain
  | _ => rfl

/-- Every datagram off the socket came to one connection at most; and each was taken up by one,
or rejected, or neither. -/
structure Counted (e : RoutingEndpoint π) : Prop where
  heard : e.heard ≤ e.rxDatagrams
  apart : e.taken + e.rxRejected ≤ e.rxDatagrams

/-- The datagrams of an association that one opens: the handler gives it none. -/
theorem welcomed_taken (e : RoutingEndpoint π) (arrival : Arrival π) (key : PeerKey) :
    (e.welcomed arrival key).taken ≤ 1 := by
  have none (calls : List {event : Connection.Event π // event.fromHandler = true}) :
      ∀ c : Connection π, ConnectionLog.takenUp c (calls.map Subtype.val) = 0 := by
    induction calls with
    | nil => exact fun _ => rfl
    | cons call rest ih =>
        intro c
        have plain : call.val.given = none := by
          obtain ⟨event, handled⟩ := call
          cases event with
          | datagram _ _ _ => cases handled
          | _ => rfl
        show (ConnectionLog.takesUp c call.val).toNat + ConnectionLog.takenUp _ (rest.map Subtype.val) = 0
        rw [takesUp_plain plain, ih]
        rfl
  unfold ConnectionLog.taken welcomed
  dsimp only
  rw [ConnectionLog.takenUp_append, none, Nat.zero_add]
  exact Bool.toNat_le _

/-- What one datagram adds to the counts. -/
theorem Books.handled_counted (books : e.Books most) {arrival : Arrival π} {after : RoutingEndpoint π}
    (handled : Handled e arrival after) : after.heard ≤ e.heard + 1 ∧
      after.taken + after.rxRejected ≤ e.taken + e.rxRejected + 1 ∧ after.rxDatagrams = e.rxDatagrams := by
  have rejected : e.noteRejected.Books most :=
    books.same rfl rfl rfl (fun _ held => held) books.known
  have counts : e.noteRejected.heard = e.heard ∧ e.noteRejected.taken = e.taken := ⟨rfl, rfl⟩
  cases handled with
  | dropped => exact ⟨Nat.le_succ _, Nat.le_succ _, rfl⟩
  | rejected => exact ⟨Nat.le_succ _, Nat.le_refl _, rfl⟩
  | replied => exact ⟨Nat.le_succ _, Nat.le_refl _, rfl⟩
  | negotiated number versions =>
      have heard := take_heard e.noteRejected number (.versionNegotiation versions)
      have taken := rejected.take_taken number (.versionNegotiation versions) 0
        fun c _ => Nat.le_refl 0
      refine ⟨?_, ?_, rfl⟩
      · simp only [Connection.Event.given, Option.toList_none, List.length_nil] at heard
        omega
      · show _ + (e.rxRejected + 1) ≤ e.taken + e.rxRejected + 1
        omega
  | @given number c found registered named =>
      have heard := take_heard e number (.datagram arrival.source arrival.bytes e.clockMs)
      have taken := books.take_taken number
        (.datagram arrival.source arrival.bytes e.clockMs) 1 fun c _ => Bool.toNat_le _
      refine ⟨?_, ?_, rfl⟩
      · simp only [Connection.Event.given, Option.toList_some, List.length_singleton] at heard
        omega
      · show _ + e.rxRejected ≤ e.taken + e.rxRejected + 1
        omega
  | @refused number c found named rejects =>
      have heard := take_heard e.noteRejected number (.datagram arrival.source arrival.bytes e.clockMs)
      -- the connection counts what it does not take up
      have taken := rejected.take_taken number
        (.datagram arrival.source arrival.bytes e.clockMs) 0 fun other held => by
          have held : e.conns[number]? = some other := held
          rw [found] at held
          rw [← Option.some.inj held]
          show (!c.rejects arrival.bytes e.clockMs).toNat ≤ 0
          rw [rejects]
          exact Nat.le_refl 0
      refine ⟨?_, ?_, rfl⟩
      · simp only [Connection.Event.given, Option.toList_some, List.length_singleton] at heard
        omega
      · show _ + (e.rxRejected + 1) ≤ e.taken + e.rxRejected + 1
        omega
  | @opened key opens =>
      have taken := welcomed_taken e arrival key
      refine ⟨?_, ?_, rfl⟩
      · show ((e.logs ++ [_]).map _).sum ≤ (e.logs.map _).sum + 1
        rw [List.map_append, List.sum_append, List.map_singleton, welcomed_heard]
        simp
      · show ((e.logs ++ [_]).map _).sum + e.rxRejected ≤ (e.logs.map _).sum + e.rxRejected + 1
        rw [List.map_append, List.sum_append, List.map_singleton]
        simp only [List.sum_singleton]
        omega

theorem receive_books (books : e.Books most) (arrival : Arrival π) : (e.receive arrival).Books most := by
  have counts : Books most { e with
      rxDatagrams := e.rxDatagrams + 1, rxBytes := e.rxBytes + arrival.bytes.length } :=
    books.same rfl rfl rfl (fun _ held => held) books.known
  exact counts.handled (handleDatagram_cases counts.aligned arrival)

theorem receive_counted (books : e.Books most) (counted : e.Counted) (arrival : Arrival π) :
    (e.receive arrival).Counted := by
  let counts : RoutingEndpoint π := { e with
    rxDatagrams := e.rxDatagrams + 1, rxBytes := e.rxBytes + arrival.bytes.length }
  have books : counts.Books most := books.same rfl rfl rfl (fun _ held => held) books.known
  obtain ⟨heard, taken, same⟩ := books.handled_counted (handleDatagram_cases books.aligned arrival)
  have more : counts.rxDatagrams = e.rxDatagrams + 1 := rfl
  have before : counts.heard ≤ e.rxDatagrams := counted.heard
  have apart : counts.taken + counts.rxRejected ≤ e.rxDatagrams := counted.apart
  constructor
  · show (counts.handleDatagram arrival).heard ≤ (counts.handleDatagram arrival).rxDatagrams
    omega
  · show (counts.handleDatagram arrival).taken + (counts.handleDatagram arrival).rxRejected ≤
      (counts.handleDatagram arrival).rxDatagrams
    omega

theorem pump_kept (waiting : List (Arrival π)) : ∀ {e : RoutingEndpoint π},
    e.Books most ∧ e.Counted → (waiting.foldl receive e).Books most ∧ (waiting.foldl receive e).Counted := by
  induction waiting with
  | nil => exact fun kept => kept
  | cons arrival rest ih =>
      intro e kept
      exact ih ⟨receive_books kept.1 arrival, receive_counted kept.1 kept.2 arrival⟩

theorem takeAll_kept (kept : e.Books most ∧ e.Counted) (numbers : List Nat) {event : Connection.Event π}
    (plain : event.given = none) :
    (e.takeAll numbers event).Books most ∧ (e.takeAll numbers event).Counted := by
  induction numbers generalizing e with
  | nil => exact kept
  | cons number rest ih =>
      obtain ⟨books, counted⟩ := kept
      have heard := take_heard e number event
      have taken := books.take_taken number event 0 fun c _ => by
        rw [takesUp_plain plain]
        exact Nat.le_refl 0
      rw [plain] at heard
      apply ih
      refine ⟨books.take number fun source bytes now same =>
        absurd same (given_of_plain plain source bytes now), ?_, ?_⟩
      · exact Nat.le_trans heard counted.heard
      · have apart := counted.apart
        show (e.take number event).taken + e.rxRejected ≤ e.rxDatagrams
        omega

theorem refresh_kept (kept : e.Books most ∧ e.Counted) : e.refresh.Books most ∧ e.refresh.Counted :=
  takeAll_kept kept (List.range e.conns.length) (show (Connection.Event.environment e.port).given = none from rfl)

theorem step_kept (kept : e.Books most ∧ e.Counted) (event : Event π) :
    (e.step event).Books most ∧ (e.step event).Counted := by
  obtain ⟨books, counted⟩ := kept
  have same (after : RoutingEndpoint π) (capacity : after.maxAcceptedConns = e.maxAcceptedConns)
      (conns : after.conns = e.conns) (logs : after.logs = e.logs)
      (key : after.acceptKey = e.acceptKey) (keys : after.acceptKeys = e.acceptKeys) :
      after.Books most := by
    apply books.same capacity conns logs
    · rw [keys]
      exact fun _ held => held
    · rw [key, keys]
      exact books.known
  cases event with
  | elapse ms => exact refresh_kept ⟨same _ rfl rfl rfl rfl rfl, counted.heard, counted.apart⟩
  | socket sendRaw => exact refresh_kept ⟨same _ rfl rfl rfl rfl rfl, counted.heard, counted.apart⟩
  | setAcceptKey key =>
      refine ⟨books.same rfl rfl rfl ?_ ?_, counted.heard, counted.apart⟩
      · exact fun _ held => List.mem_append_left _ held
      · intro other isOther
        rw [← Option.some.inj isOther]
        exact List.mem_append_right _ (List.mem_singleton_self _)
  | setAcceptEnabled on => exact ⟨same _ rfl rfl rfl rfl rfl, counted.heard, counted.apart⟩
  | setTuning tuning => exact ⟨same _ rfl rfl rfl rfl rfl, counted.heard, counted.apart⟩
  | openConnection params =>
      show (e.openConnection params false).1.Books most ∧ (e.openConnection params false).1.Counted
      cases absent : e.find params.id with
      | some number =>
          unfold openConnection
          rw [absent]
          exact ⟨books, counted⟩
      | none =>
          rw [openConnection_enter absent]
          constructor
          · exact books.enter absent (fun _ none => absurd none List.not_mem_nil)
              (fun accepted => nomatch accepted) (fun accepted => nomatch accepted)
          · constructor
            · show ((e.logs ++ [_]).map _).sum ≤ e.rxDatagrams
              rw [List.map_append, List.sum_append]
              exact counted.heard
            · show ((e.logs ++ [_]).map _).sum + e.rxRejected ≤ e.rxDatagrams
              rw [List.map_append, List.sum_append]
              exact counted.apart
  | call number made =>
      obtain ⟨event, owned⟩ := made
      have plain : event.given = none := by
        cases event with
        | datagram _ _ _ => cases owned
        | _ => rfl
      exact takeAll_kept ⟨books, counted⟩ [number] plain
  | pump budget waiting => exact pump_kept (waiting.take budget) ⟨books, counted.heard, counted.apart⟩
  | tick => exact takeAll_kept ⟨books, counted⟩ e.snap rfl

end Steps

theorem create_kept (clockMs : Int) (sendRaw : IpEndpoint → Bytes → SendOutcome) (most : Nat) :
    (create (π := π) clockMs sendRaw most).Books most ∧ (create (π := π) clockMs sendRaw most).Counted := by
  refine ⟨⟨rfl, rfl, ?_, ?_, Nat.zero_le _, ?_, ?_⟩, Nat.le_refl _, Nat.le_refl _⟩
  · exact fun _ none => absurd none List.not_mem_nil
  · intro one two first second _ isFirst
    cases isFirst
  · exact fun _ none => absurd none List.not_mem_nil
  · intro key known
    cases known

/-- How datagrams come to connections. -/
structure Routes (e : RoutingEndpoint π) : Prop where
  /-- A connection is as it would be alone with the calls it took. -/
  alone : e.conns = e.logs.map ConnectionLog.replay
  named : ∀ log ∈ e.logs, ∀ bytes ∈ log.heard, peekAssoc bytes = log.params.id
  single : Numbered.Apart Clash e.conns
  counted : e.Counted
  /-- A datagram that a connection rejects changes nothing of it. -/
  spared : ∀ c ∈ e.conns, ∀ source bytes now, c.rejects bytes now = true →
    c.handleDatagram source bytes now = c

/-- Who may open connections, how many, and what they make of strangers. -/
structure Admits (most : Nat) (e : RoutingEndpoint π) : Prop where
  room : e.acceptedConns ≤ most
  proven : ∀ log ∈ e.logs, log.accepted = true → log.Proven ∧ log.params.key ∈ e.acceptKeys
  unabused : ∀ log ∈ e.logs, log.accepted = true → (∀ key, .upgradeBinder key ∉ log.events) →
    log.replay.Unabused log.params

section Refinement

variable {e : RoutingEndpoint π} {most : Nat}

omit [PacketProtection π] [Hmac] in
theorem atConnection_find (id : AssocId) (call : Connection π → Connection π)
    (conns : List (Connection π)) : Endpoint.atConnection id call conns =
      match conns.findIdx? fun c => c.registered && c.id == id with
      | none => conns
      | some number => conns.modify number call := by
  induction conns with
  | nil => rfl
  | cons c rest ih =>
      unfold Endpoint.atConnection
      rw [List.findIdx?_cons]
      by_cases named : c.registered = true ∧ c.id = id
      · simp [named]
      · have other : (c.registered && c.id == id) = false := by
          rw [Bool.eq_false_iff]
          simpa using named
        rw [if_neg named, other, ih]
        cases rest.findIdx? fun c => c.registered && c.id == id <;> rfl

/-- Of other versions it makes what the endpoint without its own version's traffic does. -/
theorem handleForeignVersion_refines (e : RoutingEndpoint π) (source : IpEndpoint)
    (datagram : Bytes) : (e.handleForeignVersion source datagram).toEndpoint =
      e.toEndpoint.handleForeignVersion source datagram := by
  unfold handleForeignVersion Endpoint.handleForeignVersion
  dsimp only
  by_cases negotiation : Endpoint.isNegotiation datagram = true
  · rw [if_pos negotiation, if_pos negotiation]
    cases decoded : decodeVersionNegotiation datagram with
    | error _ => rfl
    | ok read =>
        dsimp only
        unfold Endpoint.heedNegotiation
        by_cases ours : UInt8.ofNat kWireVersion ∈ read.versions
        · rw [if_pos ours, if_pos ours]
          rfl
        · rw [if_neg ours, if_neg ours]
          dsimp only
          rw [atConnection_find]
          have same : e.noteRejected.find (peekAssoc read.echo) =
            e.conns.findIdx? fun c => c.registered && c.id == peekAssoc read.echo := rfl
          rw [same]
          cases e.conns.findIdx? fun c => c.registered && c.id == peekAssoc read.echo <;> rfl
  · rw [if_neg negotiation, if_neg negotiation]
    by_cases accepts : e.acceptEnabled = true
    · have rejecting : e.noteRejected.acceptEnabled = true := accepts
      rw [if_pos accepts, if_pos rejecting]
      rfl
    · have rejecting : ¬e.noteRejected.acceptEnabled = true := accepts
      rw [if_neg accepts, if_neg rejecting]
      rfl

/-- Nothing but the connections has changed. -/
structure Quiet (before after : RoutingEndpoint π) : Prop where
  clock : after.clockMs = before.clockMs
  window : after.negotiationWindowMs = before.negotiationWindowMs
  sent : after.negotiationSentInWindow = before.negotiationSentInWindow
  replies : after.replies = before.replies

omit [PacketProtection π] [Hmac] in
theorem Quiet.refl (e : RoutingEndpoint π) : Quiet e e := ⟨rfl, rfl, rfl, rfl⟩

omit [PacketProtection π] [Hmac] in
theorem Quiet.trans {one two three : RoutingEndpoint π} (first : Quiet one two)
    (second : Quiet two three) : Quiet one three where
  clock := second.clock.trans first.clock
  window := second.window.trans first.window
  sent := second.sent.trans first.sent
  replies := second.replies.trans first.replies

theorem takeAll_quiet (numbers : List Nat) (event : Connection.Event π) :
    ∀ e : RoutingEndpoint π, Quiet e (e.takeAll numbers event) := by
  induction numbers with
  | nil => exact Quiet.refl
  | cons number rest ih =>
      intro e
      have first : Quiet e (e.take number event) := ⟨rfl, rfl, rfl, rfl⟩
      exact first.trans (ih _)

omit [PacketProtection π] [Hmac] in
theorem openConnection_quiet (e : RoutingEndpoint π) (params : OpenParams) (accepted : Bool) :
    Quiet e (e.openConnection params accepted).1 := by
  unfold openConnection
  split
  · exact .refl e
  · exact ⟨rfl, rfl, rfl, rfl⟩

theorem Handled.quiet {arrival : Arrival π} {after : RoutingEndpoint π}
    (handled : Handled e arrival after) (own : Endpoint.gate arrival.bytes ≠ .foreignVersion) :
    Quiet e after := by
  cases handled with
  | dropped => exact .refl e
  | rejected => exact ⟨rfl, rfl, rfl, rfl⟩
  | replied foreign => exact absurd foreign own
  | negotiated number versions => exact ⟨rfl, rfl, rfl, rfl⟩
  | given found registered named => exact ⟨rfl, rfl, rfl, rfl⟩
  | refused found named rejects => exact ⟨rfl, rfl, rfl, rfl⟩
  | opened opens => exact ⟨rfl, rfl, rfl, rfl⟩

/-- What a call has the socket give. -/
def arrivals : Event π → List (IpEndpoint × Bytes)
  | .pump budget waiting => (waiting.take budget).map fun arrival => (arrival.source, arrival.bytes)
  | _ => []

/-- The datagrams of a run of the endpoint without its own version's traffic. -/
def datagrams (events : List (Endpoint.Event π)) : List (IpEndpoint × Bytes) :=
  events.filterMap fun
    | .datagram source bytes => some (source, bytes)
    | _ => none

/-- The endpoint without its own version's traffic gets as far, on these datagrams. -/
def Refines (before after : RoutingEndpoint π) (heard : List (IpEndpoint × Bytes)) : Prop :=
  ∃ events, after.toEndpoint = Run.exec Endpoint.step before.toEndpoint events ∧ datagrams events = heard

omit [PacketProtection π] [Hmac] in
theorem Refines.trans {one two three : RoutingEndpoint π} {early late : List (IpEndpoint × Bytes)}
    (first : Refines one two early) (second : Refines two three late) :
    Refines one three (early ++ late) := by
  obtain ⟨before, reached, heard⟩ := first
  obtain ⟨rest, ends, more⟩ := second
  refine ⟨before ++ rest, ?_, ?_⟩
  · rw [Run.exec_append, ← reached]
    exact ends
  · rw [← heard, ← more]
    exact List.filterMap_append

omit [PacketProtection π] [Hmac] in
theorem Quiet.refines {before after : RoutingEndpoint π} (quiet : Quiet before after) :
    Refines before after [] := by
  refine ⟨[.others after.acceptEnabled after.conns], ?_, rfl⟩
  have same : after.toEndpoint = ⟨before.clockMs, after.acceptEnabled, after.conns,
      before.negotiationWindowMs, before.negotiationSentInWindow, before.replies⟩ := by
    rw [← quiet.clock, ← quiet.window, ← quiet.sent, ← quiet.replies]
  exact same

theorem receive_refines (aligned : e.conns.length = e.logs.length) (arrival : Arrival π) :
    Refines e (e.receive arrival) [(arrival.source, arrival.bytes)] := by
  let counts : RoutingEndpoint π := { e with
    rxDatagrams := e.rxDatagrams + 1, rxBytes := e.rxBytes + arrival.bytes.length }
  have hears : Refines e (e.receive arrival) ([(arrival.source, arrival.bytes)] ++ []) := by
    by_cases foreign : Endpoint.gate arrival.bytes = .foreignVersion
    · refine ⟨[.datagram arrival.source arrival.bytes], ?_, rfl⟩
      show (counts.handleDatagram arrival).toEndpoint = if Endpoint.gate arrival.bytes = .foreignVersion then
        counts.toEndpoint.handleForeignVersion arrival.source arrival.bytes else e.toEndpoint
      rw [if_pos foreign, ← handleForeignVersion_refines]
      unfold handleDatagram
      rw [foreign]
    · have ignored : Refines e counts [(arrival.source, arrival.bytes)] := by
        refine ⟨[.datagram arrival.source arrival.bytes], ?_, rfl⟩
        exact (if_neg foreign).symm
      have handled : Handled counts arrival (counts.handleDatagram arrival) :=
        handleDatagram_cases (e := counts) aligned arrival
      exact ignored.trans (handled.quiet foreign).refines
  exact hears

theorem pump_refines (waiting : List (Arrival π)) : ∀ {e : RoutingEndpoint π}, e.Books most →
    Refines e (waiting.foldl receive e)
      (waiting.map fun arrival => (arrival.source, arrival.bytes)) := by
  induction waiting with
  | nil => exact fun _ => ⟨[], rfl, rfl⟩
  | cons arrival rest ih =>
      intro e books
      exact (receive_refines books.aligned arrival).trans (ih (receive_books books arrival))

theorem step_refines (books : e.Books most) (event : Event π) :
    Refines e (e.step event) (arrivals event) := by
  cases event with
  | elapse ms =>
      let later : RoutingEndpoint π := { e with clockMs := e.clockMs + ms }
      have passes : Refines e later [] := ⟨[.elapse ms], rfl, rfl⟩
      exact passes.trans (takeAll_quiet _ _ later).refines
  | socket sendRaw =>
      let changed : RoutingEndpoint π := { e with sendRaw := sendRaw }
      have answers : Quiet e changed := ⟨rfl, rfl, rfl, rfl⟩
      exact (answers.trans (takeAll_quiet _ _ changed)).refines
  | setAcceptKey key => exact Quiet.refines ⟨rfl, rfl, rfl, rfl⟩
  | setAcceptEnabled on => exact Quiet.refines ⟨rfl, rfl, rfl, rfl⟩
  | setTuning tuning => exact Quiet.refines ⟨rfl, rfl, rfl, rfl⟩
  | openConnection params => exact (openConnection_quiet e params false).refines
  | call number made => exact Quiet.refines ⟨rfl, rfl, rfl, rfl⟩
  | pump budget waiting => exact pump_refines _ books
  | tick => exact (takeAll_quiet e.snap _ e).refines

end Refinement

section Runs

variable (clockMs : Int) (sendRaw : IpEndpoint → Bytes → SendOutcome) (most : Nat)

theorem always_kept (events : List (Event π)) :
    Run.Always step (fun e : RoutingEndpoint π => e.Books most ∧ e.Counted)
      (create clockMs sendRaw most) events := by
  apply Run.always_of_invariant step (fun _ _ => True) (fun e => e.Books most ∧ e.Counted) _
    (fun _ event _ kept => step_kept kept event) (fun _ kept => kept) events
  · exact Run.meets_of_forall step _ (fun _ _ => trivial) events _
  · exact create_kept clockMs sendRaw most

/-- However its calls and datagrams follow each other, an endpoint keeps its connections
apart: each is as it would be alone, no id means two, and a datagram goes to the one it names. -/
theorem endpoint_routes (events : List (Event π)) :
    Run.Always step Routes (create clockMs sendRaw most) events :=
  (always_kept clockMs sendRaw most events).mono fun _ kept =>
    ⟨kept.1.alone, kept.1.named, kept.1.single, kept.2, fun _ _ source _ _ rejected =>
      Connection.handleDatagram_rejected rejected source⟩

/-- Whatever comes off the socket: strangers open no more connections than there is room for,
each with a packet of the time under an accept key, and until its upgrade such a connection
only acks them. -/
theorem endpoint_admits (events : List (Event π)) :
    Run.Always step (Admits most) (create clockMs sendRaw most) events := by
  apply (always_kept clockMs sendRaw most events).mono
  rintro e ⟨books, _⟩
  refine ⟨books.room, books.proven, ?_⟩
  intro log listed accepted before
  exact ConnectionLog.replay_unabused (books.proven log listed accepted).1 before

theorem run_refines (events : List (Event π)) : ∀ {e : RoutingEndpoint π}, e.Books most ∧ e.Counted →
    Refines e (Run.exec step e events) (events.flatMap arrivals) := by
  induction events with
  | nil => exact fun _ => ⟨[], rfl, rfl⟩
  | cons event rest ih =>
      intro e kept
      exact (step_refines kept.1 event).trans (ih (step_kept kept event))

/-- With every connection's traffic, an endpoint takes of other versions what it would take
without: its replies are those that the same datagrams draw, none longer than its datagram. -/
theorem endpoint_refines (events : List (Event π)) :
    let e := Run.exec step (create clockMs sendRaw most) events
    (∃ plain, e.toEndpoint = Run.exec Endpoint.step (.fresh clockMs false []) plain ∧
      datagrams plain = events.flatMap arrivals) ∧ e.RepliesShortly := by
  obtain ⟨plain, same, heard⟩ := run_refines most events (create_kept clockMs sendRaw most)
  intro e
  refine ⟨⟨plain, same, heard⟩, ?_⟩
  show e.toEndpoint.RepliesShortly
  rw [same]
  exact Run.invariant_always Endpoint.step Endpoint.RepliesShortly
    (fun _ event shortly => Endpoint.step_shortly shortly event) plain _
    (Endpoint.fresh_shortly clockMs false [])

end Runs

end RoutingEndpoint

end Amp.Adp
