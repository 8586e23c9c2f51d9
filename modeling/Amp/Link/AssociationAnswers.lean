import Amp.Link.OneSession

set_option autoImplicit false

/- What stands behind a success that `EnsureAssociation` reports. -/
namespace Amp

namespace LinkPlane

/-- The callbacks answered on the way, and what each success among them rests on. -/
def Decides (succeed : Standing → Prop) (s t : LinkPlane) : Prop :=
  ∃ decided, t.answers = s.answers ++ decided ∧
    ∀ answer ∈ decided, answer.succeeded = true → succeed answer.standing

variable {succeed : Standing → Prop} {s t u : LinkPlane}

theorem decides_same (same : t.answers = s.answers) : Decides succeed s t :=
  ⟨[], by rw [same, List.append_nil], fun _ none => absurd none List.not_mem_nil⟩

theorem Decides.trans (first : Decides succeed s t) (second : Decides succeed t u) :
    Decides succeed s u := by
  obtain ⟨early, grown, earlier⟩ := first
  obtain ⟨late, more, later⟩ := second
  refine ⟨early ++ late, ?_, ?_⟩
  · rw [more, grown, List.append_assoc]
  · intro answer held
    rcases List.mem_append.mp held with old | isNew
    · exact earlier answer old
    · exact later answer isNew

theorem succeeded_answer {key : DialKey} {result : LinkRoe} {cb : LinkCb} {answer : Answer}
    (isAnswer : s.answer key result cb = some answer) (succeeded : answer.succeeded = true) :
    result = .ok () ∧ answer.standing = s.standing key := by
  obtain ⟨call, _, rfl⟩ := Option.map_eq_some_iff.mp isAnswer
  refine ⟨?_, rfl⟩
  cases result with
  | ok value => rfl
  | error failure => cases succeeded

theorem settle_answers (s : LinkPlane) (cb : Option Establish) :
    (s.settle cb).answers = s.answers := by
  rcases cb with _ | (_ | _ | _) <;> rfl

theorem Move.decides (move : Move { succeed := succeed } s t) : Decides succeed s t := by
  cases move with
  | answer key result cb rest held permitted =>
      refine ⟨(s.answer key result cb).toList, rfl, ?_⟩
      intro answer isNew succeeded
      obtain ⟨ok, standing⟩ := succeeded_answer (Option.mem_toList.mp isNew) succeeded
      rw [standing]
      exact permitted ok
  | finish key result permitted =>
      refine ⟨_, rfl, ?_⟩
      intro answer isNew succeeded
      obtain ⟨cb, _, isAnswer⟩ := List.mem_filterMap.mp isNew
      obtain ⟨ok, standing⟩ := succeeded_answer isAnswer succeeded
      rw [standing]
      exact permitted ok
  | fail link found => exact decides_same (settle_answers _ _)
  | connect link found underway permitted => exact decides_same (settle_answers _ _)
  | present link found up =>
      apply decides_same
      unfold LinkPlane.present
      split <;> rfl
  | enter | name | report | retire | drop | bind | schedule | lose | request | pass | discharge
  | forget | join | resolve | unresolve | retry | rename => exact decides_same rfl

theorem Moves.decides (moves : Moves { succeed := succeed } s t) : Decides succeed s t := by
  induction moves with
  | refl => exact decides_same rfl
  | tail _ move ih => exact ih.trans move.decides

end LinkPlane

namespace PeerLinkManager

section Successes

/-- The key's own link is a Connected carrier. -/
def carrierHolds (m : PeerLinkManager) (key : DialKey) : Bool :=
  (m.table.findByDialKey key).any fun link => link.connected && link.isCarrierBacked

/-- What a success that a call decides rests on. An `EnsureAssociation` that finds its key held
by a Connected carrier is left out; a dial of it that ends, or whose address is known or
tried, is not. -/
def Supports (m : PeerLinkManager) : Event → Standing → Prop
  | .ensureAssociation key _, standing => m.carrierHolds key = true ∨ standing.overAdp = true
  | .handshake _ _, standing => standing.overAdp = true ∨ standing.reached = true
  | .hostResolved _ _ _, standing => standing.held = true
  | .tick, standing => standing.held = true
  | _, _ => False

variable {m : PeerLinkManager}

/-- The occupant of a key is bound to it: if it is no carrier, it is the ADP link asked for. -/
theorem supports_occupied (sound : (m.plane {}).Sound) {key : DialKey} (cb : LinkCb)
    (occupied : (m.table.findByDialKey key).any PeerLink.connected = true) :
    m.Supports (.ensureAssociation key cb) (m.standing key) := by
  obtain ⟨occupant, holds, up⟩ := (Option.any_eq_true _ _).mp occupied
  cases carrier : occupant.isCarrierBacked with
  | true =>
      left
      unfold carrierHolds
      rw [holds]
      simp [up, carrier]
  | false =>
      right
      obtain ⟨index, byId⟩ := findByDialKey_some holds
      obtain ⟨link, held, isId, isKey⟩ := sound.indexed key occupant.id index
      have stood := (findById_some byId).1
      have same : link = occupant.plain := sound.same held (mem_plane {} stood) isId
      show m.associated key = true
      unfold associated
      rw [List.any_eq_true]
      refine ⟨occupant, stood, ?_⟩
      rw [same] at isKey
      have bound : occupant.peerKey = key := isKey
      simp [up, carrier, bound]

/-- A dial that lost its election reached the peer of the link it lost to. -/
theorem reached_of_rival {key : DialKey} {dialed existing : PeerLink}
    (held : dialed ∈ m.table.links) (stood : existing ∈ m.table.links)
    (ours : dialed.outbound = true ∧ dialed.isCarrierBacked = false ∧ dialed.peerKey = key)
    (up : existing.connected = true) (transport : existing.isCarrierBacked = dialed.isCarrierBacked)
    (peer : existing.remotePeerId = dialed.remotePeerId) (known : dialed.remotePeerId ≠ "") :
    m.reached key = true := by
  unfold PeerLinkManager.reached
  rw [List.any_eq_true]
  refine ⟨dialed, held, ?_⟩
  have leads : (m.table.links.any fun link => link.connected && !link.isCarrierBacked &&
      link.remotePeerId == dialed.remotePeerId && link.remotePeerId != "") = true := by
    rw [List.any_eq_true]
    exact ⟨existing, stood, by simp [up, transport, ours.2.1, peer, known]⟩
  simp [ours, leads]

theorem rival_known {link existing : PeerLink} (against : m.rival link = some existing) :
    link.remotePeerId ≠ "" := by
  intro unknown
  unfold rival at against
  rw [if_pos unknown] at against
  cases against

variable [MultiaddrParser]

theorem establishes_decided (sound : (m.plane {}).Sound) {event : Event} {named : PeerLinkManager}
    {link : PeerLink} (arrived : m.arrival event = some (named, link)) :
    EstablishesWell { succeed := fun standing => standing.overAdp = true ∨ standing.reached = true }
      named {} link := by
  refine ⟨fun _ => .inl, fun _ => trivial, fun _ _ _ => ⟨trivial, fun _ _ => trivial⟩, ?_⟩
  intro existing against _
  refine ⟨trivial, ?_⟩
  intro key isDial
  obtain ⟨before, found, underway, same, rfl⟩ := arrival_some arrived
  obtain ⟨stood, _, up, peer, transport⟩ := rival_some against
  have mem := (findById_some found).1
  have coherent : before.Coherent := sound.coherent before.plain (mem_plane {} mem)
  have ours : link.outbound = true ∧ link.isCarrierBacked = false ∧ link.peerKey = key := by
    have cb : before.establishCb = some (.dial key) := by
      rw [same] at isDial
      exact isDial
    unfold PeerLink.Coherent at coherent
    rw [cb] at coherent
    rw [same]
    exact coherent.2
  have held : link ∈ (m.modifyLink link.id fun _ => link).table.links :=
    List.mem_map.mpr ⟨before, mem, if_pos (findById_some found).2⟩
  exact .inr (reached_of_rival (m := (m.modifyLink link.id fun _ => link).promoted key) held stood
    ours up transport peer (rival_known against))

theorem grants_decided (sound : (m.plane {}).Sound) (event : Event) :
    Grants { succeed := m.Supports event } m event := by
  cases event with
  | ensureAssociation key cb =>
      exact ⟨fun _ => .inr, supports_occupied sound cb, fun _ _ _ _ _ _ => trivial,
        fun _ _ _ _ => trivial, fun _ _ _ _ _ _ _ => trivial⟩
  | requestDropLink key => exact fun _ _ _ _ => trivial
  | closeAllLinks => exact ⟨fun _ _ => trivial, fun _ _ => trivial⟩
  | handshake id result =>
      intro identity named link isResult done
      exact establishes_decided sound (arrival_handshake isResult done)
  | hostResolved key multiaddr result => exact ⟨fun _ _ => trivial, fun _ occupied => occupied⟩
  | tick =>
      exact ⟨fun _ _ _ _ _ => trivial, Run.meets_of_forall _ _ (fun _ _ _ occupied => occupied) _ _,
        Run.meets_of_forall _ _ (fun _ _ _ _ _ _ _ _ => trivial) _ _, fun _ _ _ _ => trivial⟩
  | inboundConnection assoc => exact fun _ _ => trivial
  | linkState id state => exact fun _ _ _ _ => .inr trivial
  | _ => exact trivial

/-- After every run, whenever a call tells a callback of `EnsureAssociation` of success, a
Connected ADP link is bound to its key or leads to the peer of the key's record, or to the
one its dial has reached; or, as the next address is tried, the link that the key names is
Connected. -/
theorem success_supported (localPeerId : String) (limits : LinkLimits) (events : List Event)
    (event : Event) :
    let m := Run.exec step (create localPeerId limits) events
    ∃ decided, (m.step event).answers = m.answers ++ decided ∧
      ∀ answer ∈ decided, answer.succeeded = true → m.Supports event answer.standing := by
  intro m
  have sound : (m.plane {}).Sound := run_sound localPeerId limits events
  have moves := step_leads (grants_decided sound event) (sound_inHand sound event)
  have decides := moves.decides
  rw [plane_inHand] at decides
  exact decides

end Successes

section Samples

attribute [local instance] anyAddress

/-- Every success was decided with a Connected ADP link bound to its key or to the peer of
its record. -/
def SucceedsOverAdp (m : PeerLinkManager) : Prop :=
  ∀ answer ∈ m.answers, answer.succeeded = true → answer.standing.overAdp = true

instance (m : PeerLinkManager) : Decidable m.SucceedsOverAdp :=
  inferInstanceAs (Decidable (∀ answer ∈ m.answers, _))

/-- A carrier that holds the key answers for it when a failed dial is to go on to its next
address; and a dial whose record is gone succeeds where it loses its election to a link that
came in. -/
theorem success_over_carrier :
    ¬ SucceedsOverAdp (Run.exec step (create "alice" {})
      [meetingBob, .registerEndpoints "bob" ["x", "y"], .ensureAssociation "bob" (some 0),
        .establishNested "bob" none true none, comesUp 2, .handshake 1 (.failed "timeout"), .tick]) ∧
    ¬ SucceedsOverAdp (Run.exec step (create "alice" {})
      [meetingBob, .registerEndpoint "bob" "x", .ensureAssociation "bob" (some 0),
        .unregisterEndpoint "bob", .inboundConnection "bb", comesUp 2, comesUp 1]) := by
  decide +kernel

end Samples

end PeerLinkManager

end Amp
