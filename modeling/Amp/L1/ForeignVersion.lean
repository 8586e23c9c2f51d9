import Amp.Lib.RateWindow
import Amp.L1.Datagrams

set_option autoImplicit false

/- Datagrams of other wire versions at an endpoint: what it replies to them, how often, and what
a reply does to a dial of its own (Endpoint.cpp). -/
namespace Amp.Adp

open WireCodec

def kVersionNegotiationPerSecond : Nat := 16

/-- A reply as it went out, and what it answers. -/
structure NegotiationReply where
  sentMs : Int
  peer : IpEndpoint
  received : Bytes
  reply : Bytes
  deriving DecidableEq

/-- An endpoint as far as other versions concern it; `conns_` holds the connections that are
still registered. -/
structure Endpoint (π : Type) where
  clockMs : Int
  acceptEnabled : Bool := false
  conns : List (Connection π) := []
  negotiationWindowMs : Int := 0
  negotiationSentInWindow : Nat := 0
  /-- Trace: the negotiation replies, in order. -/
  replies : List NegotiationReply := []

namespace Endpoint

variable {π : Type}

def isNegotiation (datagram : Bytes) : Bool :=
  datagram.head?.any fun first => first.toNat / 16 == kVersionNegotiationNibble

def kSpoken : Bytes := [UInt8.ofNat kWireVersion]

/-- The counter starts again a second after it last did. -/
def rollWindow (e : Endpoint π) : Endpoint π :=
  if 1000 ≤ e.clockMs - e.negotiationWindowMs then
    { e with negotiationWindowMs := e.clockMs, negotiationSentInWindow := 0 }
  else e

def countReply (e : Endpoint π) (source : IpEndpoint) (datagram : Bytes) : Endpoint π :=
  if kVersionNegotiationPerSecond ≤ e.negotiationSentInWindow then e
  else { e with
    negotiationSentInWindow := e.negotiationSentInWindow + 1
    replies := e.replies ++
      [⟨e.clockMs, source, datagram, encodeVersionNegotiation datagram kSpoken⟩] }

def replyVersionNegotiation (e : Endpoint π) (source : IpEndpoint) (datagram : Bytes) :
    Endpoint π :=
  if datagram.length < (encodeVersionNegotiation datagram kSpoken).length then e
  else e.rollWindow.countReply source datagram

/-- `Find`, and what the connection makes of the call. -/
def atConnection (id : AssocId) (call : Connection π → Connection π) :
    List (Connection π) → List (Connection π)
  | [] => []
  | c :: rest =>
      if c.registered = true ∧ c.id = id then call c :: rest else c :: atConnection id call rest

def heedNegotiation (e : Endpoint π) (negotiation : VersionNegotiation) : Endpoint π :=
  if UInt8.ofNat kWireVersion ∈ negotiation.versions then e
  else
    let call := fun (c : Connection π) => c.handleVersionNegotiation negotiation.versions
    { e with conns := atConnection (peekAssoc negotiation.echo) call e.conns }

def handleForeignVersion (e : Endpoint π) (source : IpEndpoint) (datagram : Bytes) : Endpoint π :=
  if isNegotiation datagram then
    match decodeVersionNegotiation datagram with
    | .error _ => e
    | .ok negotiation => e.heedNegotiation negotiation
  else if e.acceptEnabled then e.replyVersionNegotiation source datagram
  else e

inductive Event (π : Type) where
  /-- The clock goes on. -/
  | elapse (ms : Nat)
  | datagram (source : IpEndpoint) (bytes : Bytes)
  /-- Whatever the other calls, and datagrams of our own version, do to the connections. -/
  | others (acceptEnabled : Bool) (conns : List (Connection π))

def step (e : Endpoint π) : Event π → Endpoint π
  | .elapse ms => { e with clockMs := e.clockMs + ms }
  | .datagram source bytes =>
      if gate bytes = .foreignVersion then e.handleForeignVersion source bytes else e
  | .others acceptEnabled conns => { e with acceptEnabled := acceptEnabled, conns := conns }

/-- The times of the replies so far. -/
def replyTimes (e : Endpoint π) : List Int := e.replies.map NegotiationReply.sentMs

/-- Whether the endpoint has a reply to a datagram, as long as it may still send one. -/
def answers (e : Endpoint π) (datagram : Bytes) : Prop :=
  gate datagram = .foreignVersion ∧ isNegotiation datagram = false ∧ e.acceptEnabled = true ∧
    (encodeVersionNegotiation datagram kSpoken).length ≤ datagram.length

instance (e : Endpoint π) (datagram : Bytes) : Decidable (e.answers datagram) :=
  inferInstanceAs (Decidable (_ ∧ _))

/-- A datagram that starts the counter again comes a second after the last reply. -/
def OpensClear (e : Endpoint π) : Event π → Prop
  | .datagram _ bytes => e.answers bytes → 1000 ≤ e.clockMs - e.negotiationWindowMs →
      ∀ time ∈ e.replyTimes, 1000 ≤ e.clockMs - time
  | _ => True

instance (e : Endpoint π) : ∀ event, Decidable (e.OpensClear event)
  | .datagram _ _ => inferInstanceAs (Decidable (_ → _))
  | .elapse _ => inferInstanceAs (Decidable True)
  | .others _ _ => inferInstanceAs (Decidable True)

/-- Replies are no longer than what they answer, which is no reply. -/
structure RepliesShortly (e : Endpoint π) : Prop where
  shorter : ∀ sent ∈ e.replies, sent.reply.length ≤ sent.received.length
  unasked : ∀ sent ∈ e.replies, isNegotiation sent.received = false

/-- And no second sees more of them than is allowed. -/
structure RepliesSparingly (e : Endpoint π) : Prop extends RepliesShortly e where
  few : RateWindow.Limited 1000 kVersionNegotiationPerSecond e.replyTimes

/-- A negotiation without our version, and the dial its echo names. -/
structure StopsDial (e : Endpoint π) (datagram : Bytes) (negotiation : VersionNegotiation)
    (front back : List (Connection π)) (dial : Connection π) : Prop where
  own : gate datagram = .foreignVersion
  decodes : decodeVersionNegotiation datagram = .ok negotiation
  foreign : UInt8.ofNat kWireVersion ∉ negotiation.versions
  held : e.conns = front ++ dial :: back
  /-- `conns_` has one connection of an id. -/
  first : ∀ c ∈ front, ¬(c.registered = true ∧ c.id = dial.id)
  registered : dial.registered = true
  named : dial.id = peekAssoc negotiation.echo
  unauthenticated : dial.authenticated = false
  dialer : dial.params.dialerBackoff = true
  unclosed : dial.closed = false

/-- What a negotiation does: it closes the dial it stops, and else nothing. -/
structure HeedsNegotiation (before : Endpoint π) (datagram : Bytes) (after : Endpoint π) : Prop where
  stops : ∀ negotiation front back dial, before.StopsDial datagram negotiation front back dial →
    after = { before with conns := front ++ { dial with
      peerVersionMismatch := true
      peerWireVersions := negotiation.versions
      closed := true
      registered := false } :: back }
  leaves : (∀ negotiation front back dial,
    ¬before.StopsDial datagram negotiation front back dial) → after = before

section Negotiations

/-- The call goes to the first connection of the id. -/
theorem atConnection_first {id : AssocId} {front back : List (Connection π)} {c : Connection π}
    (first : ∀ other ∈ front, ¬(other.registered = true ∧ other.id = id))
    (named : c.registered = true ∧ c.id = id) (call : Connection π → Connection π) :
    atConnection id call (front ++ c :: back) = front ++ call c :: back := by
  induction front with
  | nil => exact if_pos named
  | cons other rest ih =>
      have skipped : ¬(other.registered = true ∧ other.id = id) := first other List.mem_cons_self
      rw [List.cons_append, atConnection, if_neg skipped, ih]
      · rfl
      · exact fun later listed => first later (List.mem_cons_of_mem _ listed)

theorem atConnection_cases (id : AssocId) (call : Connection π → Connection π)
    (conns : List (Connection π)) : atConnection id call conns = conns ∨
      ∃ front c back, conns = front ++ c :: back ∧
        (∀ other ∈ front, ¬(other.registered = true ∧ other.id = id)) ∧ c.registered = true ∧
        c.id = id ∧ atConnection id call conns = front ++ call c :: back := by
  induction conns with
  | nil => exact .inl rfl
  | cons c rest ih =>
      unfold atConnection
      by_cases named : c.registered = true ∧ c.id = id
      · rw [if_pos named]
        exact .inr ⟨[], c, rest, rfl, fun _ none => absurd none List.not_mem_nil, named.1, named.2, rfl⟩
      · rw [if_neg named]
        rcases ih with same | ⟨front, dial, back, held, first, registered, own, called⟩
        · rw [same]
          exact .inl rfl
        · rw [called, held]
          refine .inr ⟨c :: front, dial, back, rfl, ?_, registered, own, rfl⟩
          intro other listed
          rcases List.mem_cons.mp listed with rfl | later
          · exact named
          · exact first other later

/-- A negotiation that stops a dial closes it. -/
theorem step_stops {e : Endpoint π} {datagram : Bytes} {negotiation : VersionNegotiation}
    {front back : List (Connection π)} {dial : Connection π} (source : IpEndpoint)
    (names : isNegotiation datagram = true)
    (stops : e.StopsDial datagram negotiation front back dial) :
    e.step (.datagram source datagram) = { e with conns := front ++ { dial with
      peerVersionMismatch := true
      peerWireVersions := negotiation.versions
      closed := true
      registered := false } :: back } := by
  let call := fun (c : Connection π) => c.handleVersionNegotiation negotiation.versions
  have called : e.step (.datagram source datagram) =
      { e with conns := atConnection (peekAssoc negotiation.echo) call e.conns } := by
    show (if gate datagram = .foreignVersion then e.handleForeignVersion source datagram else e) = _
    unfold handleForeignVersion heedNegotiation
    rw [if_pos stops.own, if_pos names, stops.decodes]
    dsimp only
    rw [if_neg stops.foreign]
  have heeds : call dial = { dial with
      peerVersionMismatch := true
      peerWireVersions := negotiation.versions
      closed := true
      registered := false } := by
    show dial.handleVersionNegotiation negotiation.versions = _
    unfold Connection.handleVersionNegotiation
    rw [stops.unauthenticated, stops.dialer, stops.unclosed]
    rfl
  rw [called, stops.held, ← stops.named, atConnection_first stops.first ⟨stops.registered, rfl⟩, heeds]

/-- Of a negotiation, only a dial that waits for its peer takes note. -/
theorem step_heeds (e : Endpoint π) (source : IpEndpoint) {datagram : Bytes}
    (names : isNegotiation datagram = true) :
    e.HeedsNegotiation datagram (e.step (.datagram source datagram)) := by
  constructor
  · exact fun negotiation front back dial stops => step_stops source names stops
  · intro stopsNone
    show (if gate datagram = .foreignVersion then e.handleForeignVersion source datagram else e) = e
    by_cases foreign : gate datagram = .foreignVersion
    · rw [if_pos foreign]
      unfold handleForeignVersion
      rw [if_pos names]
      cases decoded : decodeVersionNegotiation datagram with
      | error _ => rfl
      | ok read =>
          dsimp only
          unfold heedNegotiation
          by_cases ours : UInt8.ofNat kWireVersion ∈ read.versions
          · rw [if_pos ours]
          · rw [if_neg ours]
            dsimp only
            rcases atConnection_cases (peekAssoc read.echo)
              (fun c => c.handleVersionNegotiation read.versions) e.conns with
                same | ⟨front, dial, back, held, first, registered, named, called⟩
            · rw [same]
            · rw [called]
              unfold Connection.handleVersionNegotiation
              by_cases settled : (dial.authenticated || !dial.params.dialerBackoff || dial.closed) = true
              · rw [if_pos settled, ← held]
              · rw [if_neg settled]
                simp only [Bool.or_eq_true, Bool.not_eq_true', not_or, Bool.not_eq_true,
                  Bool.not_eq_false] at settled
                exact absurd ⟨foreign, decoded, ours, held, named ▸ first, registered, named,
                  settled.1.1, settled.1.2, settled.2⟩ (stopsNone read front back dial)
    · rw [if_neg foreign]

end Negotiations

section Replies

variable {e : Endpoint π}

theorem step_answers {datagram : Bytes} (source : IpEndpoint) (answers : e.answers datagram) :
    e.step (.datagram source datagram) = e.rollWindow.countReply source datagram := by
  obtain ⟨foreign, other, accepts, small⟩ := answers
  show (if gate datagram = .foreignVersion then e.handleForeignVersion source datagram else e) = _
  rw [if_pos foreign]
  unfold handleForeignVersion replyVersionNegotiation
  rw [if_neg (Bool.eq_false_iff.mp other), if_pos accepts, if_neg (Nat.not_lt_of_le small)]

/-- Everything else leaves the counter and the replies. -/
theorem step_silent {datagram : Bytes} (source : IpEndpoint) (silent : ¬e.answers datagram) :
    ∃ conns, e.step (.datagram source datagram) = { e with conns := conns } := by
  show ∃ conns, (if gate datagram = .foreignVersion then e.handleForeignVersion source datagram
    else e) = _
  by_cases foreign : gate datagram = .foreignVersion
  · rw [if_pos foreign]
    unfold handleForeignVersion
    by_cases negotiation : isNegotiation datagram = true
    · rw [if_pos negotiation]
      split
      · exact ⟨e.conns, rfl⟩
      · unfold heedNegotiation
        split
        · exact ⟨e.conns, rfl⟩
        · exact ⟨_, rfl⟩
    · rw [if_neg negotiation]
      by_cases accepts : e.acceptEnabled = true
      · rw [if_pos accepts]
        have large : datagram.length < (encodeVersionNegotiation datagram kSpoken).length := by
          apply Nat.lt_of_not_le
          intro small
          exact silent ⟨foreign, Bool.eq_false_of_not_eq_true negotiation, accepts, small⟩
        unfold replyVersionNegotiation
        rw [if_pos large]
        exact ⟨e.conns, rfl⟩
      · rw [if_neg accepts]
        exact ⟨e.conns, rfl⟩
  · rw [if_neg foreign]
    exact ⟨e.conns, rfl⟩

theorem rollWindow_replies (e : Endpoint π) : e.rollWindow.replies = e.replies := by
  unfold rollWindow
  split
  · rfl
  · rfl

theorem countReply_shortly {datagram : Bytes} (source : IpEndpoint) (shortly : e.RepliesShortly)
    (other : isNegotiation datagram = false)
    (small : (encodeVersionNegotiation datagram kSpoken).length ≤ datagram.length) :
    (e.countReply source datagram).RepliesShortly := by
  unfold countReply
  split
  · exact shortly
  · constructor
    · intro sent listed
      rcases List.mem_append.mp listed with old | new
      · exact shortly.shorter sent old
      · cases List.mem_singleton.mp new
        exact small
    · intro sent listed
      rcases List.mem_append.mp listed with old | new
      · exact shortly.unasked sent old
      · cases List.mem_singleton.mp new
        exact other

theorem step_shortly (shortly : e.RepliesShortly) (event : Event π) :
    (e.step event).RepliesShortly := by
  cases event with
  | elapse ms => exact ⟨shortly.shorter, shortly.unasked⟩
  | others acceptEnabled conns => exact ⟨shortly.shorter, shortly.unasked⟩
  | datagram source bytes =>
      by_cases answers : e.answers bytes
      · have rolled : e.rollWindow.RepliesShortly :=
          ⟨rollWindow_replies e ▸ shortly.shorter, rollWindow_replies e ▸ shortly.unasked⟩
        rw [step_answers source answers]
        exact countReply_shortly source rolled answers.2.1 answers.2.2.2
      · obtain ⟨conns, kept⟩ := step_silent source answers
        rw [kept]
        exact ⟨shortly.shorter, shortly.unasked⟩

/-- The replies fall into those the counter no longer counts and those it does, a second apart. -/
structure Paced (e : Endpoint π) (early late : List Int) : Prop where
  times : e.replyTimes = early ++ late
  counted : late.length = e.negotiationSentInWindow
  most : e.negotiationSentInWindow ≤ kVersionNegotiationPerSecond
  limited : RateWindow.Limited 1000 kVersionNegotiationPerSecond early
  apart : ∀ one ∈ early, ∀ two ∈ late, 1000 ≤ two - one
  past : ∀ one ∈ early, 1000 ≤ e.clockMs - one

theorem Paced.few {early late : List Int} (paced : e.Paced early late) :
    RateWindow.Limited 1000 kVersionNegotiationPerSecond e.replyTimes := by
  have recent : RateWindow.Limited 1000 kVersionNegotiationPerSecond late := by
    apply RateWindow.limited_of_length
    rw [paced.counted]
    exact paced.most
  rw [paced.times]
  exact paced.limited.append recent paced.apart

theorem countReply_paced {early late : List Int} {datagram : Bytes} (source : IpEndpoint)
    (paced : e.Paced early late) :
    ∃ late, (e.countReply source datagram).Paced early late := by
  unfold countReply
  by_cases spent : kVersionNegotiationPerSecond ≤ e.negotiationSentInWindow
  · rw [if_pos spent]
    exact ⟨late, paced⟩
  · rw [if_neg spent]
    refine ⟨late ++ [e.clockMs], ?_, ?_, ?_, paced.limited, ?_, paced.past⟩
    · show (e.replies ++ _).map NegotiationReply.sentMs = _
      rw [List.map_append, ← List.append_assoc, ← paced.times]
      rfl
    · rw [List.length_append, paced.counted]
      rfl
    · show e.negotiationSentInWindow + 1 ≤ _
      omega
    · intro one before two listed
      rcases List.mem_append.mp listed with old | new
      · exact paced.apart one before two old
      · rw [List.mem_singleton.mp new]
        exact paced.past one before

theorem rollWindow_paced {early late : List Int} (paced : e.Paced early late)
    (clear : 1000 ≤ e.clockMs - e.negotiationWindowMs → ∀ time ∈ e.replyTimes, 1000 ≤ e.clockMs - time) :
    ∃ early late, e.rollWindow.Paced early late := by
  unfold rollWindow
  by_cases opens : 1000 ≤ e.clockMs - e.negotiationWindowMs
  · rw [if_pos opens]
    refine ⟨e.replyTimes, [], (List.append_nil _).symm, rfl, Nat.zero_le _, paced.few, ?_, clear opens⟩
    exact fun _ _ _ none => absurd none List.not_mem_nil
  · rw [if_neg opens]
    exact ⟨early, late, paced⟩

theorem step_paced {event : Event π} (clear : e.OpensClear event)
    (paced : ∃ early late, e.Paced early late) : ∃ early late, (e.step event).Paced early late := by
  obtain ⟨early, late, paced⟩ := paced
  cases event with
  | elapse ms =>
      have past : ∀ one ∈ early, 1000 ≤ e.clockMs + ms - one := by
        intro one listed
        have before := paced.past one listed
        omega
      exact ⟨early, late, paced.times, paced.counted, paced.most, paced.limited, paced.apart, past⟩
  | others acceptEnabled conns =>
      exact ⟨early, late, paced.times, paced.counted, paced.most, paced.limited, paced.apart,
        paced.past⟩
  | datagram source bytes =>
      by_cases answers : e.answers bytes
      · obtain ⟨early, late, rolled⟩ := rollWindow_paced paced (clear answers)
        rw [step_answers source answers]
        exact ⟨early, countReply_paced source rolled⟩
      · obtain ⟨conns, kept⟩ := step_silent source answers
        rw [kept]
        exact ⟨early, late, paced.times, paced.counted, paced.most, paced.limited, paced.apart,
          paced.past⟩

end Replies

section Bursts

variable {e : Endpoint π}

/-- Copies of a datagram within what the counter still allows are all answered at once. -/
theorem copies_answered (source : IpEndpoint) {datagram : Bytes} (copies : Nat) :
    ∀ e : Endpoint π, e.answers datagram → e.clockMs - e.negotiationWindowMs < 1000 →
      e.negotiationSentInWindow + copies ≤ kVersionNegotiationPerSecond →
      (Run.exec step e (List.replicate copies (.datagram source datagram))).replyTimes =
        e.replyTimes ++ List.replicate copies e.clockMs := by
  induction copies with
  | zero => exact fun _ _ _ _ => (List.append_nil _).symm
  | succ copies ih =>
      intro e answers open_ left
      have stays : e.rollWindow = e := if_neg (by omega)
      have unspent : ¬kVersionNegotiationPerSecond ≤ e.negotiationSentInWindow := by omega
      have next := step_answers source answers
      rw [stays, countReply, if_neg unspent] at next
      have rest := ih (e.step (.datagram source datagram))
      rw [next] at rest
      rw [List.replicate_succ, Run.exec_cons, next, rest answers open_]
      · show (e.replies ++ _).map NegotiationReply.sentMs ++ _ = _
        rw [List.map_append, List.append_assoc]
        rfl
      · show e.negotiationSentInWindow + 1 + copies ≤ _
        omega

/-- A counter that starts again less than a second after a reply lets a burst through. -/
theorem burst_of_early_opening (source : IpEndpoint) {datagram : Bytes} {time : Int}
    (answers : e.answers datagram) (opens : 1000 ≤ e.clockMs - e.negotiationWindowMs)
    (listed : time ∈ e.replyTimes) (past : time ≤ e.clockMs) (recent : e.clockMs - time < 1000) :
    ¬(Run.exec step e (List.replicate kVersionNegotiationPerSecond
      (.datagram source datagram))).RepliesSparingly := by
  have rolled : e.rollWindow = { e with
      negotiationWindowMs := e.clockMs
      negotiationSentInWindow := 0 } := if_pos opens
  have same : ∀ copies, Run.exec step e (List.replicate (copies + 1) (.datagram source datagram)) =
      Run.exec step e.rollWindow (List.replicate (copies + 1) (.datagram source datagram)) := by
    intro copies
    have again : e.rollWindow.rollWindow = e.rollWindow := by
      rw [rolled]
      exact if_neg (by dsimp only; omega)
    have rolledAnswers : e.rollWindow.answers datagram := by
      rw [rolled]
      exact answers
    rw [List.replicate_succ, Run.exec_cons, Run.exec_cons, step_answers source answers,
      step_answers source rolledAnswers, again]
  have times : (Run.exec step e (List.replicate kVersionNegotiationPerSecond
      (.datagram source datagram))).replyTimes =
      e.replyTimes ++ List.replicate kVersionNegotiationPerSecond e.clockMs := by
    rw [kVersionNegotiationPerSecond, same, rolled]
    apply copies_answered source 16 { e with
      negotiationWindowMs := e.clockMs
      negotiationSentInWindow := 0 } answers
    · dsimp only
      omega
    · exact Nat.le_of_eq (Nat.zero_add _)
  intro sparing
  have few := sparing.few
  rw [times] at few
  exact RateWindow.not_limited_of_burst listed past recent few

end Bursts

section Runs

variable (clockMs : Int) (acceptEnabled : Bool) (conns : List (Connection π))

/-- An endpoint that has answered nothing yet. -/
def fresh : Endpoint π where
  clockMs := clockMs
  acceptEnabled := acceptEnabled
  conns := conns

theorem fresh_paced : (fresh clockMs acceptEnabled conns).Paced [] [] where
  times := rfl
  counted := rfl
  most := Nat.zero_le _
  limited := RateWindow.limited_of_length (Nat.zero_le _)
  apart _ none := absurd none List.not_mem_nil
  past _ none := absurd none List.not_mem_nil

theorem fresh_shortly : (fresh clockMs acceptEnabled conns).RepliesShortly where
  shorter _ none := absurd none List.not_mem_nil
  unasked _ none := absurd none List.not_mem_nil

/-- However its datagrams come, an endpoint replies with nothing longer and to no reply. -/
theorem always_shortly (events : List (Event π)) :
    Run.Always step RepliesShortly (fresh clockMs acceptEnabled conns) events := by
  apply Run.always_of_invariant step (fun _ _ => True) RepliesShortly RepliesShortly
    (fun e event _ shortly => step_shortly shortly event) (fun _ shortly => shortly) events
  · exact Run.meets_of_forall step _ (fun _ _ => trivial) events _
  · exact fresh_shortly clockMs acceptEnabled conns

/-- An endpoint replies with nothing longer and to no reply, however its datagrams come, and a
negotiation does what it should. While the counter starts again only where the last second was
quiet, no second sees more replies than it allows; once it does not, one burst breaks that. -/
theorem negotiates_sparingly (events : List (Event π))
    (clear : Run.Meets step OpensClear (fresh clockMs acceptEnabled conns) events) :
    Run.Always step RepliesSparingly (fresh clockMs acceptEnabled conns) events ∧
      (∀ events, Run.Always step RepliesShortly (fresh clockMs acceptEnabled conns) events) ∧
      (∀ (e : Endpoint π) (source : IpEndpoint) (datagram : Bytes), isNegotiation datagram = true →
        e.HeedsNegotiation datagram (e.step (.datagram source datagram))) ∧
      ∀ (e : Endpoint π) (source : IpEndpoint) (datagram : Bytes) (time : Int), e.answers datagram →
        1000 ≤ e.clockMs - e.negotiationWindowMs → time ∈ e.replyTimes → time ≤ e.clockMs →
        e.clockMs - time < 1000 →
        ¬(Run.exec step e (List.replicate kVersionNegotiationPerSecond
          (.datagram source datagram))).RepliesSparingly := by
  refine ⟨?_, always_shortly clockMs acceptEnabled conns,
    fun e source datagram names => step_heeds e source names,
    fun e source datagram time => burst_of_early_opening source⟩
  apply Run.always_of_invariant step OpensClear
    (fun e => e.RepliesShortly ∧ ∃ early late, e.Paced early late) RepliesSparingly
  · rintro e event opens ⟨shortly, paced⟩
    exact ⟨step_shortly shortly event, step_paced opens paced⟩
  · rintro e ⟨shortly, early, late, paced⟩
    exact ⟨shortly, paced.few⟩
  · exact clear
  · exact ⟨fresh_shortly clockMs acceptEnabled conns, [], [], fresh_paced clockMs acceptEnabled conns⟩

end Runs

section Samples

/-- A packet of wire version 1, as long as a sealed one. -/
def olderPacket : Bytes := 16 :: List.replicate 28 0

def olderPackets (count : Nat) : List (Event TagProtection) :=
  List.replicate count (.datagram {} olderPacket)

theorem negotiates_sparingly_sample :
    let events := olderPackets 20 ++ .elapse 999 :: olderPackets 3 ++ .elapse 1001 :: olderPackets 20
    Run.Meets step OpensClear (fresh 5000 true []) events ∧
      Run.Always step RepliesSparingly (fresh 5000 true []) events := by
  intro events
  have clear : Run.Meets step OpensClear (fresh 5000 true []) events := by decide +kernel
  exact ⟨clear, (negotiates_sparingly 5000 true [] events clear).1⟩

/-- One reply, fifteen at the end of its second, and two more as the next one begins. -/
theorem too_many_replies : ¬RepliesSparingly (Run.exec step (fresh 5000 true [])
    (olderPackets 1 ++ .elapse 999 :: olderPackets 15 ++ .elapse 1 :: olderPackets 2)) := by
  intro sparing
  have few := sparing.few 5999
  revert few
  decide +kernel

end Samples

end Endpoint

end Amp.Adp
