import Amp.Link.ManagerCalls

set_option autoImplicit false

/- How many Connected links to one peer a manager can have of either transport. -/
namespace Amp

namespace LinkPlane

/-- Links that stand for one session: Connected, to the same known peer, over the same
transport. -/
def Rivals (one two : PeerLink) : Prop :=
  one.connected = true ∧ two.connected = true ∧ one.remotePeerId = two.remotePeerId ∧
    one.isCarrierBacked = two.isCarrierBacked ∧ one.remotePeerId ≠ ""

def OneSession (s : LinkPlane) : Prop :=
  ∀ one ∈ s.links, ∀ two ∈ s.links, Rivals one two → one.id = two.id

/-- A link may come up where no other stands for its session. -/
def single : Permits where
  connect s link := ∀ other ∈ s.links, other.id ≠ link.id → other.connected = true →
    other.remotePeerId = link.remotePeerId → other.isCarrierBacked = link.isCarrierBacked →
    other.remotePeerId = ""

variable {s t : LinkPlane}

/-- The Connected links were so before. -/
def Inherits (s t : LinkPlane) : Prop :=
  ∀ link ∈ t.links, link.connected = true → ∃ before ∈ s.links, before.id = link.id ∧
    before.connected = true ∧ before.remotePeerId = link.remotePeerId ∧
    before.isCarrierBacked = link.isCarrierBacked

theorem OneSession.inherit (holds : s.OneSession) (inherits : s.Inherits t) : t.OneSession := by
  intro one isOne two isTwo ⟨up, upToo, peer, transport, known⟩
  obtain ⟨first, isFirst, firstId, firstUp, firstPeer, firstTransport⟩ := inherits one isOne up
  obtain ⟨second, isSecond, secondId, secondUp, secondPeer, secondTransport⟩ :=
    inherits two isTwo upToo
  rw [← firstId, ← secondId]
  refine holds first isFirst second isSecond ⟨firstUp, secondUp, ?_, ?_, ?_⟩
  · rw [firstPeer, secondPeer, peer]
  · rw [firstTransport, secondTransport, transport]
  · rwa [firstPeer]

theorem inherits_same (same : t.links = s.links) : s.Inherits t := by
  intro link held up
  rw [same] at held
  exact ⟨link, held, rfl, up, rfl, rfl⟩

/-- A change to one link that brings it up no more than it was. -/
theorem inherits_modify (id : LinkId) {change : PeerLink → PeerLink}
    (changed : ∀ link ∈ s.links, link.id = id → (change link).connected = true →
      (change link).id = link.id ∧ link.connected = true ∧
        (change link).remotePeerId = link.remotePeerId ∧
        (change link).isCarrierBacked = link.isCarrierBacked) : s.Inherits (s.modify id change) := by
  apply forall_modify
  · intro link held same up
    obtain ⟨sameId, before, peer, transport⟩ := changed link held same up
    exact ⟨link, held, sameId.symm, before, peer.symm, transport.symm⟩
  · intro link held _ up
    exact ⟨link, held, rfl, up, rfl, rfl⟩

theorem inherits_filter {keep : PeerLink → Bool} (same : t.links = s.links.filter keep) :
    s.Inherits t := by
  intro link held up
  rw [same] at held
  exact ⟨link, List.mem_of_mem_filter held, rfl, up, rfl, rfl⟩

theorem settle_links (s : LinkPlane) (cb : Option Establish) : (s.settle cb).links = s.links := by
  rcases cb with _ | (_ | _ | _) <;> rfl

theorem present_links (s : LinkPlane) (link : PeerLink) : (s.present link).links = s.links := by
  unfold present
  split <;> rfl

theorem Move.oneSession (move : Move single s t) (sound : s.Sound) (holds : s.OneSession) :
    t.OneSession := by
  cases move with
  | enter link fresh coherent underway =>
      apply holds.inherit
      intro other held up
      rcases List.mem_append.mp held with old | isNew
      · exact ⟨other, old, rfl, up, rfl, rfl⟩
      · rw [List.mem_singleton.mp isNew, PeerLink.connected, underway] at up
        cases up
  | name link found underway peer =>
      apply holds.inherit
      apply inherits_modify
      intro other held same up
      rw [sound.same held found same, PeerLink.connected, underway] at up
      cases up
  | report link found closed permitted =>
      exact holds.inherit (inherits_modify link.id fun _ _ _ up => ⟨rfl, up, rfl, rfl⟩)
  | fail link found =>
      apply holds.inherit
      intro other held up
      rw [settle_links] at held
      refine inherits_modify link.id ?_ other held up
      intro _ _ _ down
      exact absurd (show false = true from down) Bool.false_ne_true
  | connect link found underway permitted =>
      intro one isOne two isTwo
      rw [settle_links] at isOne isTwo
      obtain ⟨first, isFirst, rfl⟩ := List.mem_map.mp isOne
      obtain ⟨second, isSecond, rfl⟩ := List.mem_map.mp isTwo
      rintro ⟨up, upToo, peer, transport, known⟩
      by_cases isNew : first.id = link.id <;> by_cases alsoNew : second.id = link.id
      · simp [isNew, alsoNew]
      · rw [sound.same isFirst found isNew] at peer transport known ⊢
        simp only [if_pos, alsoNew, if_false] at upToo peer transport known ⊢
        exact absurd (permitted second isSecond alsoNew upToo peer.symm transport.symm)
          (peer ▸ known)
      · rw [sound.same isSecond found alsoNew] at peer transport ⊢
        simp only [if_pos, isNew, if_false] at up peer transport known ⊢
        exact absurd (permitted first isFirst isNew up peer transport) known
      · rw [if_neg isNew] at up peer transport known ⊢
        rw [if_neg alsoNew] at upToo peer transport ⊢
        exact holds first isFirst second isSecond ⟨up, upToo, peer, transport, known⟩
  | retire link found up =>
      apply holds.inherit
      apply inherits_modify
      intro _ _ _ down
      exact absurd (show false = true from down) Bool.false_ne_true
  | drop link found reason permitted => exact holds.inherit (inherits_filter rfl)
  | bind link found settled key free =>
      exact holds.inherit (inherits_modify link.id fun _ _ _ up => ⟨rfl, up, rfl, rfl⟩)
  | present link found up => exact holds.inherit (inherits_same (present_links s link))
  | discharge link found reason rest due permitted => exact holds.inherit (inherits_filter rfl)
  | schedule | lose | request | pass | forget | join | answer | finish | resolve | unresolve
  | retry | rename => exact holds.inherit (inherits_same rfl)

theorem Moves.oneSession (moves : Moves single s t) (sound : s.Sound) (holds : s.OneSession) :
    t.OneSession := by
  induction moves with
  | refl => exact holds
  | tail before move ih => exact move.oneSession (Moves.sound before sound) ih

end LinkPlane

namespace PeerLinkManager

open LinkPlane (Rivals single)

/-- The Connected links to a peer over one transport. -/
def sessions (m : PeerLinkManager) (peer : String) (carrier : Bool) : List PeerLink :=
  m.table.links.filter fun link =>
    link.connected && link.remotePeerId == peer && link.isCarrierBacked == carrier

/-- At most one session for each known peer and transport. -/
def OneSession (m : PeerLinkManager) : Prop :=
  ∀ peer carrier, peer ≠ "" → (m.sessions peer carrier).length ≤ 1

/-- A link that comes up while its peer has a session over its transport is weighed
against that one: of the Connected links to the peer, the first the walk over the table
meets has that transport too. -/
def findsRival (m : PeerLinkManager) (event : Event) : Bool :=
  (m.arrival event).all fun arrived => arrived.2.remotePeerId == "" ||
    (m.sessions arrived.2.remotePeerId arrived.2.isCarrierBacked).isEmpty ||
    (arrived.1.rival arrived.2).isSome

variable {m : PeerLinkManager} {hand : InHand}

theorem oneSession_of_plane (sound : (m.plane hand).Sound) (holds : (m.plane hand).OneSession) :
    m.OneSession := by
  intro peer carrier known
  have member {link : PeerLink} (held : link ∈ m.sessions peer carrier) : link ∈ m.table.links ∧
      link.connected = true ∧ link.remotePeerId = peer ∧ link.isCarrierBacked = carrier := by
    obtain ⟨mem, fits⟩ := List.mem_filter.mp held
    simp only [Bool.and_eq_true, beq_iff_eq] at fits
    exact ⟨mem, fits.1.1, fits.1.2, fits.2⟩
  have distinct : ((m.sessions peer carrier).map PeerLink.id).Nodup := by
    have all : (m.table.links.map PeerLink.id).Nodup := by
      have plain := sound.unique
      rwa [plane, List.map_map] at plain
    exact all.sublist (List.filter_sublist.map _)
  rcases sessions : m.sessions peer carrier with _ | ⟨one, _ | ⟨two, rest⟩⟩
  · exact Nat.zero_le _
  · exact le_rfl
  · rw [sessions] at member distinct
    obtain ⟨isOne, up, onePeer, oneTransport⟩ := member (List.mem_cons_self : one ∈ _)
    obtain ⟨isTwo, upToo, twoPeer, twoTransport⟩ :=
      member (List.mem_cons_of_mem _ List.mem_cons_self : two ∈ _)
    have same : one.id = two.id := by
      apply holds one.plain (mem_plane hand isOne) two.plain (mem_plane hand isTwo)
      refine ⟨up, upToo, ?_, ?_, ?_⟩
      · exact onePeer.trans twoPeer.symm
      · exact oneTransport.trans twoTransport.symm
      · rw [PeerLink.plain_remotePeerId, onePeer]
        exact known
    simp [same] at distinct

/-- The links beside one that was given its name are those there were. -/
theorem mem_named {id : LinkId} {link other : PeerLink}
    (held : other ∈ (m.modifyLink id fun _ => link).table.links) (apart : other.id ≠ link.id) :
    other ∈ m.table.links := by
  obtain ⟨before, mem, rfl⟩ := List.mem_map.mp held
  by_cases this : before.id = id
  · rw [if_pos this] at apart
    exact absurd rfl apart
  · rw [if_neg this]
    exact mem

theorem demoted_down (link : PeerLink) : link.demoteForScheduledDrop.connected = false := by
  unfold PeerLink.demoteForScheduledDrop
  cases up : link.connected
  · unfold PeerLink.connected at up ⊢
    dsimp only
    split
    · rfl
    · exact up
  · rfl

/-- A link that has nothing to be weighed against finds no session of its peer and
transport, unless the walk over the table overlooks one. -/
theorem single_alone {link : PeerLink} (finds : link.remotePeerId = "" ∨
      m.sessions link.remotePeerId link.isCarrierBacked = [] ∨
      ((m.modifyLink link.id fun _ => link).rival link).isSome = true)
    (alone : (m.modifyLink link.id fun _ => link).rival link = none) :
    single.connect ((m.modifyLink link.id fun _ => link).plane {}) link.plain := by
  intro shown mem apart up peer transport
  obtain ⟨other, held, rfl⟩ := List.mem_map.mp mem
  simp only [PeerLink.plain_id, PeerLink.plain_connected, PeerLink.plain_remotePeerId,
    PeerLink.plain_isCarrierBacked] at apart up peer transport ⊢
  rcases finds with unknown | none | rival
  · rw [peer, unknown]
  · have session : other ∈ m.sessions link.remotePeerId link.isCarrierBacked :=
      List.mem_filter.mpr ⟨mem_named held apart, by simp [up, peer, transport]⟩
    rw [none] at session
    cases session
  · rw [alone] at rival
    cases rival

/-- Where there was one session at most, none is left once it stepped back. -/
theorem single_beats {link existing : PeerLink}
    (one : ∀ standing ∈ m.table.links, ∀ other ∈ m.table.links, Rivals standing.plain other.plain →
      standing.isCarrierBacked = link.isCarrierBacked → standing.id = other.id)
    (against : (m.modifyLink link.id fun _ => link).rival link = some existing) :
    single.connect (((m.modifyLink link.id fun _ => link).modifyLink existing.id
      PeerLink.demoteForScheduledDrop).plane {}) link.plain := by
  obtain ⟨stood, existingApart, existingUp, existingPeer, existingTransport⟩ := rival_some against
  intro shown mem apart up peer transport
  obtain ⟨other, held, rfl⟩ := List.mem_map.mp mem
  simp only [PeerLink.plain_id, PeerLink.plain_connected, PeerLink.plain_remotePeerId,
    PeerLink.plain_isCarrierBacked] at apart up peer transport ⊢
  obtain ⟨standing, standingHeld, rfl⟩ := List.mem_map.mp held
  by_cases demoted : standing.id = existing.id
  · rw [if_pos demoted, demoted_down] at up
    cases up
  · rw [if_neg demoted] at apart up peer transport ⊢
    by_contra known
    apply demoted
    apply one standing (mem_named standingHeld apart) existing (mem_named stood existingApart)
    · refine ⟨up, existingUp, ?_, ?_, known⟩
      · exact peer.trans existingPeer.symm
      · exact transport.trans existingTransport.symm
    · exact transport

section Runs

variable [MultiaddrParser]

theorem establishes_single {event : Event} {named : PeerLinkManager} {link : PeerLink}
    (holds : (m.plane {}).OneSession) (finds : m.findsRival event = true)
    (arrived : m.arrival event = some (named, link)) : EstablishesWell single named {} link := by
  obtain ⟨before, found, underway, _, rfl⟩ := arrival_some arrived
  unfold findsRival at finds
  rw [arrived, Option.all_some] at finds
  simp only [Bool.or_eq_true, beq_iff_eq, List.isEmpty_iff, or_assoc] at finds
  have one : ∀ standing ∈ m.table.links, ∀ other ∈ m.table.links,
      Rivals standing.plain other.plain → standing.isCarrierBacked = link.isCarrierBacked →
      standing.id = other.id := by
    intro standing held other otherHeld rivals _
    exact holds standing.plain (mem_plane {} held) other.plain (mem_plane {} otherHeld) rivals
  refine ⟨fun _ _ => trivial, single_alone finds, ?_, fun _ _ _ => ⟨trivial, fun _ _ => trivial⟩⟩
  intro existing against _
  exact ⟨single_beats one against, fun _ _ => trivial⟩

/-- Where nothing is asked but of links that come up, it is left to show of those. -/
theorem grants_connect {connects : LinkPlane → PeerLink → Prop} {event : Event}
    (establishes : ∀ named link, m.arrival event = some (named, link) →
      EstablishesWell { connect := connects } named {} link) :
    Grants { connect := connects } m event := by
  cases event with
  | ensureAssociation key cb =>
      exact ⟨fun _ _ => trivial, fun _ => trivial, fun _ _ _ _ _ _ => trivial,
        fun _ _ _ _ => trivial, fun _ _ _ _ _ _ _ => trivial⟩
  | requestDropLink key => exact fun _ _ _ _ => trivial
  | closeAllLinks => exact ⟨fun _ _ => trivial, fun _ _ => trivial⟩
  | handshake id result =>
      intro identity named link isResult done
      exact establishes named link (arrival_handshake isResult done)
  | hostResolved key multiaddr result => exact ⟨fun _ _ => trivial, fun _ _ => trivial⟩
  | tick =>
      exact ⟨fun _ _ _ _ _ => trivial, Run.meets_of_forall _ _ (fun _ _ _ _ => trivial) _ _,
        Run.meets_of_forall _ _ (fun _ _ _ _ _ _ _ _ => trivial) _ _, fun _ _ _ _ => trivial⟩
  | inboundConnection assoc => exact fun _ _ => trivial
  | linkState id state => exact fun _ _ _ _ => .inr trivial
  | _ => exact trivial

/-- Without conditions every call is some row of moves. -/
theorem grants_any (event : Event) : Grants {} m event :=
  grants_connect fun _ _ _ => ⟨fun _ _ => trivial, fun _ => trivial,
    fun _ _ _ => ⟨trivial, fun _ _ => trivial⟩, fun _ _ _ => ⟨trivial, fun _ _ => trivial⟩⟩

theorem step_sound (sound : (m.plane {}).Sound) (event : Event) : ((m.step event).plane {}).Sound :=
  (step_leads (grants_any event) (sound_inHand sound event)).sound (sound_inHand sound event)

theorem run_sound (localPeerId : String) (limits : LinkLimits) (events : List Event) :
    ((Run.exec step (create localPeerId limits) events).plane {}).Sound :=
  Run.invariant_always step (fun m : PeerLinkManager => (m.plane {}).Sound)
    (fun _ event sound => step_sound sound event) events _ (create_sound localPeerId limits)

theorem grants_single {event : Event} (holds : (m.plane {}).OneSession)
    (finds : m.findsRival event = true) : Grants single m event :=
  grants_connect fun _ _ arrived => establishes_single holds finds arrived

/-- In every run in which each link that comes up is weighed against the session its
peer has over its transport, no peer ever has two sessions over one transport. -/
theorem one_session_per_transport (localPeerId : String) (limits : LinkLimits)
    (events : List Event)
    (met : Run.Meets step (fun m event => m.findsRival event = true) (create localPeerId limits)
      events) :
    Run.Always step OneSession (create localPeerId limits) events := by
  refine Run.always_of_invariant step _ (fun m => (m.plane {}).Sound ∧ (m.plane {}).OneSession)
    OneSession ?_ ?_ events _ met ?_
  · intro m event finds ⟨sound, holds⟩
    have before := sound_inHand sound event
    have moves := step_leads (grants_single holds finds) before
    refine ⟨moves.sound before, moves.oneSession before ?_⟩
    rw [plane_inHand]
    exact holds
  · exact fun m inv => oneSession_of_plane inv.1 inv.2
  · exact ⟨create_sound localPeerId limits, fun _ none => absurd none List.not_mem_nil⟩

end Runs

section Samples

/-- Every address parses, and names no peer. -/
local instance anyAddress : MultiaddrParser := ⟨fun _ => .ok { endpoint := { port := 4000 } }⟩

/-- A manager whose peers all turn out to be bob. -/
def meetingBob : Event := .surroundings { nowMs := 1000, derivePeerId := fun _ => "bob" }

def comesUp (id : LinkId) : Event := .handshake id (.established [1] (.ok ()))

/-- The newest link first, as a hash map may well walk. -/
def newestFirst : HashOrder PeerLink := ⟨List.reverse, List.reverse_perm⟩

theorem one_session_per_transport_sample :
    let events := [meetingBob, .inboundConnection "aa", comesUp 1, .inboundConnection "bb", comesUp 2]
    Run.Meets step (fun m event => m.findsRival event = true) (create "alice" {}) events ∧
      Run.Always step OneSession (create "alice" {}) events := by
  intro events
  have met : Run.Meets step (fun m event => m.findsRival event = true) (create "alice" {}) events := by
    decide +kernel
  exact ⟨met, one_session_per_transport "alice" {} events met⟩

/-- The peer's carrier is met first, so its ADP session is not found. -/
theorem two_sessions : ¬ OneSession (Run.exec step (create "alice" {})
    [meetingBob, .inboundConnection "aa", comesUp 1, .establishNested "bob" none true none, comesUp 2,
      .rehash newestFirst .inserted, .inboundConnection "bb", comesUp 3]) := by
  intro holds
  have one := holds "bob" false (by decide)
  revert one
  decide +kernel

end Samples

end PeerLinkManager

end Amp
