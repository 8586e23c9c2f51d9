import Amp.Link.OneSession

set_option autoImplicit false

/- Whether the dial-key index names a link under a key, told by what was written into
the index since an earlier moment. -/
namespace Amp

namespace KeyEvent

/-- Whether a link still has a key after an event, given whether it had it before. A new
ADP link is never made under a key that a Connected link has. -/
def leaves (id : LinkId) (key : DialKey) (own : Bool) : KeyEvent → Bool
  | .inserted _ other carrier => own && !(carrier && other == key)
  | .rebound other target => if other = id then target == key else own

/-- Whether a link has a key after a row of events. -/
def ownAfter (id : LinkId) (key : DialKey) (own : Bool) (events : List KeyEvent) : Bool :=
  events.foldl (leaves id key) own

theorem ownAfter_append (id : LinkId) (key : DialKey) (own : Bool) (first second : List KeyEvent) :
    ownAfter id key own (first ++ second) = ownAfter id key (ownAfter id key own first) second :=
  List.foldl_append

end KeyEvent

namespace LinkPlane

/-- The index names the link under the key. -/
def Owns (s : LinkPlane) (id : LinkId) (key : DialKey) : Prop := s.byDialKey key = some id

instance (s : LinkPlane) (id : LinkId) (key : DialKey) : Decidable (s.Owns id key) :=
  inferInstanceAs (Decidable (_ = _))

/-- The link is Connected. -/
def Up (s : LinkPlane) (id : LinkId) : Prop :=
  ∃ link ∈ s.links, link.id = id ∧ link.connected = true

/-- What is written into the index from one moment to another tells which keys a link
still has. -/
def Keyed (s t : LinkPlane) (id : LinkId) : Prop :=
  ∃ events, t.keyEvents = s.keyEvents ++ events ∧
    ∀ key, KeyEvent.ownAfter id key (decide (s.Owns id key)) events = decide (t.Owns id key)

variable {P : Permits} {s t u : LinkPlane} {id : LinkId}

theorem Keyed.refl (s : LinkPlane) (id : LinkId) : s.Keyed s id :=
  ⟨[], (List.append_nil _).symm, fun _ => rfl⟩

theorem Keyed.trans (first : s.Keyed t id) (second : t.Keyed u id) : s.Keyed u id := by
  obtain ⟨before, grown, tells⟩ := first
  obtain ⟨after, grownOn, tellsOn⟩ := second
  refine ⟨before ++ after, ?_, ?_⟩
  · rw [grownOn, grown, List.append_assoc]
  · intro key
    rw [KeyEvent.ownAfter_append, tells, tellsOn]

/-- A move that leaves the index alone where the link is. -/
theorem Keyed.silent (same : t.keyEvents = s.keyEvents)
    (kept : ∀ key, t.byDialKey key = some id ↔ s.byDialKey key = some id) : s.Keyed t id := by
  refine ⟨[], ?_, ?_⟩
  · rw [same, List.append_nil]
  · intro key
    exact decide_eq_decide.mpr (kept key).symm

theorem Keyed.enter (up : s.Up id) {link : PeerLink} (fresh : id ≠ link.id)
    (vacant : link.isCarrierBacked = true ∨ s.Vacant link.peerKey) : s.Keyed (s.enter link) id := by
  refine ⟨[.inserted link.id link.peerKey link.isCarrierBacked], rfl, ?_⟩
  intro key
  obtain ⟨holder, held, rfl, connected⟩ := up
  show (decide (s.Owns holder.id key) && !(link.isCarrierBacked && link.peerKey == key)) =
    decide (Function.update s.byDialKey link.peerKey (some link.id) key = some holder.id)
  by_cases this : key = link.peerKey
  · subst this
    have gone : ¬ some link.id = some holder.id := fun same => fresh (Option.some.inj same).symm
    rw [Function.update_self, decide_eq_false gone]
    rcases vacant with carrier | vacant
    · simp [carrier]
    · have free : ¬ s.Owns holder.id link.peerKey := by
        intro own
        rw [vacant holder held own] at connected
        cases connected
      rw [decide_eq_false free, Bool.false_and]
  · have apart : (link.peerKey == key) = false := beq_false_of_ne fun same => this same.symm
    rw [Function.update_of_ne this, apart, Bool.and_false, Bool.not_false, Bool.and_true]
    rfl

/-- What another link had stays where it was. -/
theorem unindex_other {link : PeerLink} (other : link.id ≠ id) (key : DialKey) :
    s.unindex link key = some id ↔ s.byDialKey key = some id := by
  constructor
  · exact fun named => (unindex_some named).1
  · intro named
    unfold unindex
    by_cases own : s.byDialKey link.peerKey = some link.id
    · have apart : key ≠ link.peerKey := by
        intro same
        rw [same, own] at named
        exact other (Option.some.inj named)
      rw [if_pos own, Function.update_of_ne apart]
      exact named
    · rw [if_neg own]
      exact named

theorem Keyed.bind (sound : s.Sound) {link : PeerLink} (found : link ∈ s.links) (target : DialKey)
    (free : s.byDialKey target = none ∨ s.byDialKey target = some link.id) : s.Keyed (s.bind link target) id := by
  refine ⟨[.rebound link.id target], rfl, ?_⟩
  intro key
  show (if link.id = id then target == key else decide (s.Owns id key)) =
    decide (Function.update (s.unindex link) target (some link.id) key = some id)
  by_cases own : link.id = id
  · subst own
    rw [if_pos rfl]
    by_cases this : key = target
    · simp [this]
    · have left : ¬ s.unindex link key = some link.id := by
        intro named
        obtain ⟨before, apart⟩ := unindex_some named
        obtain ⟨holder, held, same, isKey⟩ := sound.indexed key link.id before
        rw [sound.same held found same] at isKey
        exact apart ⟨isKey.symm, rfl⟩
      rw [Function.update_of_ne this, decide_eq_false left]
      exact beq_false_of_ne fun same => this same.symm
  · rw [if_neg own]
    apply decide_eq_decide.mpr
    by_cases this : key = target
    · subst this
      have other : ¬ s.Owns id key := by
        intro named
        rcases free with none | same
        · rw [Owns, none] at named
          cases named
        · rw [Owns, same] at named
          exact own (Option.some.inj named)
      rw [Function.update_self]
      exact ⟨fun named => absurd named other, fun same => absurd (Option.some.inj same) own⟩
    · rw [Function.update_of_ne this]
      exact (unindex_other own key).symm

/-- A link that is past its handshake does not come up again. -/
theorem Move.up_before (move : Move P s t) (sound : s.Sound) (old : id ≤ s.lastId)
    (settled : s.Settled id) (up : t.Up id) : s.Up id := by
  have settle (s : LinkPlane) (cb : Option Establish) : (s.settle cb).Up id → s.Up id := by
    rcases cb with _ | (_ | _ | _) <;> exact fun up => up
  have changed {target : LinkId} {change : PeerLink → PeerLink}
      (keeps : ∀ link ∈ s.links, link.id = target → (change link).connected = true →
        (change link).id = link.id ∧ link.connected = true ∧
          (change link).remotePeerId = link.remotePeerId ∧
          (change link).isCarrierBacked = link.isCarrierBacked)
      (up : (s.modify target change).Up id) : s.Up id := by
    obtain ⟨after, held, rfl, connected⟩ := up
    obtain ⟨before, there, same, was, _⟩ := inherits_modify target keeps after held connected
    exact ⟨before, there, same, was⟩
  have fewer {keep : PeerLink → Bool} (same : t.links = s.links.filter keep) : s.Up id := by
    obtain ⟨link, held, own, connected⟩ := up
    rw [same] at held
    exact ⟨link, List.mem_of_mem_filter held, own, connected⟩
  cases move with
  | enter link fresh coherent underway vacant =>
      obtain ⟨other, held, own, connected⟩ := up
      rcases List.mem_append.mp held with before | isNew
      · exact ⟨other, before, own, connected⟩
      · rw [List.mem_singleton.mp isNew, fresh] at own
        exact absurd (own ▸ old) (Nat.not_succ_le_self _)
  | name link found underway peer =>
      refine changed (fun other held same down => ?_) up
      rw [sound.same held found same, PeerLink.connected, underway] at down
      cases down
  | report link found closed permitted =>
      refine changed (fun _ _ _ was => ?_) up
      exact ⟨rfl, was, rfl, rfl⟩
  | fail link found =>
      refine changed (fun _ _ _ down => ?_) (settle _ _ up)
      exact absurd (show false = true from down) Bool.false_ne_true
  | connect link found underway permitted =>
      obtain ⟨after, held, own, connected⟩ := settle _ _ up
      obtain ⟨before, there, rfl⟩ := List.mem_map.mp held
      by_cases this : before.id = link.id
      · rw [if_pos this] at own
        rw [sound.same there found this] at own
        exact absurd underway (settled link found own)
      · rw [if_neg this] at own connected
        exact ⟨before, there, own, connected⟩
  | retire link found was =>
      refine changed (fun _ _ _ down => ?_) up
      exact absurd (show false = true from down) Bool.false_ne_true
  | drop link found reason permitted => exact fewer rfl
  | bind link found settled key free =>
      have rekeyed : (s.modify link.id fun link => { link with peerKey := key }).Up id := up
      apply changed _ rekeyed
      exact fun _ _ _ was => ⟨rfl, was, rfl, rfl⟩
  | present link found was =>
      obtain ⟨other, held, rest⟩ := up
      rw [present_links] at held
      exact ⟨other, held, rest⟩
  | discharge link found reason rest due permitted => exact fewer rfl
  | schedule | lose | request | pass | forget | join | answer | finish | resolve | unresolve
  | retry | rename => exact up

/-- One move. -/
theorem Move.keyed (move : Move P s t) (sound : s.Sound) (old : id ≤ s.lastId) (up : s.Up id)
    (after : t.Up id) : s.Keyed t id := by
  have settled (s : LinkPlane) (cb : Option Establish) : (s.settle cb).keyEvents = s.keyEvents ∧
      (s.settle cb).byDialKey = s.byDialKey := by
    rcases cb with _ | (_ | _ | _) <;> exact ⟨rfl, rfl⟩
  have gone {link : PeerLink} (kept : ∃ other ∈ s.links.filter fun other => other.id != link.id,
      other.id = id ∧ other.connected = true) :
      ∀ key, s.unindex link key = some id ↔ s.byDialKey key = some id := by
    apply unindex_other
    obtain ⟨other, held, rfl, _⟩ := kept
    have apart := (List.mem_filter.mp held).2
    exact fun same => by simp [same] at apart
  cases move with
  | enter link fresh coherent underway vacant =>
      have apart : id ≠ link.id := by
        intro same
        rw [same, fresh] at old
        exact Nat.not_succ_le_self _ old
      exact Keyed.enter up apart vacant
  | fail link found =>
      obtain ⟨events, index⟩ := settled (s.modify link.id fun link =>
        { link with phase := .backoff, establishCb := none }) link.establishCb
      exact Keyed.silent events fun key => by rw [index]; rfl
  | connect link found underway permitted =>
      obtain ⟨events, index⟩ := settled (s.modify link.id fun link =>
        { link with phase := .connected, establishCb := none }) link.establishCb
      exact Keyed.silent events fun key => by rw [index]; rfl
  | drop link found reason permitted => exact Keyed.silent rfl (gone after)
  | bind link found settled key free => exact Keyed.bind sound found key free
  | present link found was =>
      unfold LinkPlane.present
      split <;> exact Keyed.silent rfl fun _ => Iff.rfl
  | discharge link found reason rest due permitted => exact Keyed.silent rfl (gone after)
  | name | report | retire | schedule | lose | request | pass | forget | join | answer | finish
  | resolve | unresolve | retry | rename => exact Keyed.silent rfl fun _ => Iff.rfl

theorem Moves.up_before (moves : Moves P s t) (sound : s.Sound) (old : id ≤ s.lastId)
    (settled : s.Settled id) (up : t.Up id) : s.Up id := by
  induction moves with
  | refl => exact up
  | tail before move ih =>
      have grown : id ≤ _ := old.trans (Moves.lastId_le before)
      exact ih (move.up_before (Moves.sound before sound) grown
        (Moves.settled before old settled) up)

/-- Any row of moves after which the link is still Connected. -/
theorem Moves.keyed (moves : Moves P s t) (sound : s.Sound) (old : id ≤ s.lastId)
    (settled : s.Settled id) (up : t.Up id) : s.Keyed t id := by
  induction moves with
  | refl => exact Keyed.refl s id
  | tail before move ih =>
      have soundBetween := Moves.sound before sound
      have grown : id ≤ _ := old.trans (Moves.lastId_le before)
      have between := move.up_before soundBetween grown (Moves.settled before old settled) up
      exact (ih between).trans (move.keyed soundBetween grown between up)

end LinkPlane

namespace PeerLinkManager

open LinkPlane (Up Settled Keyed)

variable [MultiaddrParser] {m : PeerLinkManager}

/-- Whatever a call does, a link that is Connected after it and was past its handshake
before it was Connected all along, and what the call wrote into the index tells its keys. -/
theorem step_keyed (sound : (m.plane {}).Sound) (event : Event) {id : LinkId}
    (old : id ≤ m.table.nextId) (settled : (m.plane {}).Settled id) :
    ((m.step event).plane {}).Settled id ∧ id ≤ (m.step event).table.nextId ∧
      (((m.step event).plane {}).Up id →
        (m.plane {}).Up id ∧ (m.plane {}).Keyed ((m.step event).plane {}) id) := by
  have before := sound_inHand sound event
  have moves := step_leads (grants_any event) before
  have same : (m.plane (inHand event)).Settled id := by
    rw [plane_inHand]
    exact settled
  have reached : id ≤ (m.plane (inHand event)).lastId := by
    rw [plane_inHand]
    exact old
  refine ⟨moves.settled reached same, reached.trans moves.lastId_le, fun up => ?_⟩
  have was := moves.up_before before reached same up
  have keyed := moves.keyed before reached same up
  rw [plane_inHand] at was keyed
  exact ⟨was, keyed⟩

end PeerLinkManager

end Amp
