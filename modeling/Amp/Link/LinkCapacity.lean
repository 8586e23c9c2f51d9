import Amp.Link.AimedDrops

set_option autoImplicit false

/- How many links a manager holds, and how many of them are accepted and not yet
through their handshake. -/
namespace Amp

/-- A change of each item after which one that fit does not. -/
theorem countP_map_lt {α : Type} {fits : α → Bool} {change : α → α} {item : α} {items : List α}
    (reflects : ∀ other, fits (change other) = true → fits other = true) (held : item ∈ items)
    (fit : fits item = true) (unfit : fits (change item) = false) :
    (items.map change).countP fits < items.countP fits := by
  induction items with
  | nil => cases held
  | cons first rest ih =>
      rw [List.map_cons, List.countP_cons, List.countP_cons]
      have others : (rest.map change).countP fits ≤ rest.countP fits := by
        rw [List.countP_map]
        exact List.countP_mono_left fun other _ => reflects other
      rcases List.mem_cons.mp held with rfl | later
      · rw [if_pos fit, unfit, if_neg Bool.false_ne_true]
        omega
      · have fewer := ih later
        by_cases kept : fits (change first) = true
        · rw [if_pos kept, if_pos (reflects first kept)]
          omega
        · rw [if_neg kept]
          omega

namespace LinkPlane

/-- A link is accepted where there is room for it, and what is closed stays closed. -/
def capped : Permits where
  accept s := s.slots < s.limits.maxLinks ∧ s.backlog < s.limits.maxPendingInbound
  reopen _ := False

structure WithinCapacity (limits : LinkLimits) (s : LinkPlane) : Prop where
  config : s.limits = limits
  links : s.slots ≤ limits.maxLinks
  pending : s.backlog ≤ limits.maxPendingInbound

variable {limits : LinkLimits} {s t : LinkPlane}

theorem WithinCapacity.same (within : s.WithinCapacity limits) (config : t.limits = s.limits)
    (links : t.links = s.links) : t.WithinCapacity limits := by
  obtain ⟨isConfig, slots, pending⟩ := within
  unfold LinkPlane.slots at slots
  unfold backlog at pending
  rw [← links] at slots pending
  exact ⟨config.trans isConfig, slots, pending⟩

theorem WithinCapacity.settle (within : s.WithinCapacity limits) (cb : Option Establish) :
    (s.settle cb).WithinCapacity limits := by
  apply within.same _ (settle_links s cb)
  rcases cb with _ | (_ | _ | _) <;> rfl

/-- A change to one link after which it takes no slot and no place that it did not. -/
theorem WithinCapacity.modify (within : s.WithinCapacity limits) (id : LinkId)
    {change : PeerLink → PeerLink}
    (holds : ∀ link ∈ s.links, link.id = id → (change link).holdsSlot = true → link.holdsSlot = true)
    (pending : ∀ link ∈ s.links, link.id = id → (change link).pendingInbound = true →
      link.pendingInbound = true) : (s.modify id change).WithinCapacity limits := by
  have fewer {fits : PeerLink → Bool}
      (reflects : ∀ link ∈ s.links, link.id = id → fits (change link) = true → fits link = true) :
      (s.modify id change).links.countP fits ≤ s.links.countP fits := by
    unfold LinkPlane.modify
    rw [List.countP_map]
    apply List.countP_mono_left
    intro link held fit
    by_cases this : link.id = id
    · exact reflects link held this (by simpa [this] using fit)
    · simpa [this] using fit
  exact ⟨within.config, (fewer holds).trans within.links, (fewer pending).trans within.pending⟩

/-- A change that takes one link past its handshake and leaves it its slot. -/
theorem WithinCapacity.past (within : s.WithinCapacity limits) (id : LinkId)
    {change : PeerLink → PeerLink} (slot : ∀ link, (change link).holdsSlot = link.holdsSlot)
    (settled : ∀ link, (change link).phase ≠ .handshaking) :
    (s.modify id change).WithinCapacity limits := by
  apply within.modify id
  · intro link _ _ holds
    rwa [slot] at holds
  · intro link _ _ pending
    unfold PeerLink.pendingInbound at pending
    simp [settled link] at pending

theorem WithinCapacity.erase (within : s.WithinCapacity limits) (link : PeerLink)
    (reason : LinkDropReason) : (s.erase link reason).WithinCapacity limits where
  config := within.config
  links := (List.filter_sublist.countP_le).trans within.links
  pending := (List.filter_sublist.countP_le).trans within.pending

/-- A new link takes a slot that is free, and an accepted one a place in the backlog. -/
theorem WithinCapacity.enter (within : s.WithinCapacity limits) {link : PeerLink}
    (room : capped.Admits s link) : (s.enter link).WithinCapacity limits := by
  obtain ⟨rfl, slots, pending⟩ := within
  unfold LinkPlane.slots at slots
  unfold backlog at pending
  unfold Permits.Admits at room
  refine ⟨rfl, ?_, ?_⟩
  · have free : s.links.countP PeerLink.holdsSlot < s.limits.maxLinks := by
      split at room
      · exact room
      · exact room.1
    show List.countP _ (s.links ++ [link]) ≤ s.limits.maxLinks
    rw [List.countP_append, List.countP_singleton]
    split <;> omega
  · show List.countP _ (s.links ++ [link]) ≤ s.limits.maxPendingInbound
    rw [List.countP_append, List.countP_singleton]
    split
    · rename_i accepted
      unfold PeerLink.pendingInbound at accepted
      simp only [Bool.and_eq_true, Bool.not_eq_true'] at accepted
      rw [if_neg (by simp [accepted])] at room
      exact room.2
    · exact pending

theorem Move.within (move : Move capped s t) (sound : s.Sound) (within : s.WithinCapacity limits) :
    t.WithinCapacity limits := by
  cases move with
  | enter link fresh coherent underway vacant room => exact within.enter room
  | name link found underway peer =>
      exact within.modify link.id (fun _ _ _ holds => holds) fun _ _ _ pending => pending
  | report link found closed permitted =>
      refine within.modify link.id (fun other held same holds => ?_) fun _ _ _ pending => pending
      cases wasClosed : other.association.closed with
      | false => simp [PeerLink.holdsSlot, wasClosed]
      | true =>
          rw [sound.same held found same] at holds wasClosed ⊢
          rcases permitted wasClosed with stays | never
          · have carrier : link.isCarrierBacked = true := by
              simpa [PeerLink.holdsSlot, stays] using holds
            simp [PeerLink.holdsSlot, carrier]
          · exact never.elim
  | fail link found =>
      apply WithinCapacity.settle
      exact within.past link.id (fun _ => rfl) fun _ => PeerLinkPhase.noConfusion
  | connect link found underway permitted =>
      apply WithinCapacity.settle
      exact within.past link.id (fun _ => rfl) fun _ => PeerLinkPhase.noConfusion
  | retire link found up =>
      exact within.past link.id (fun _ => rfl) fun _ => PeerLinkPhase.noConfusion
  | drop link found reason permitted => exact within.erase link reason
  | bind link found settled key free =>
      have bound : (s.modify link.id fun link => { link with peerKey := key }).WithinCapacity limits :=
        within.modify link.id (fun _ _ _ holds => holds) fun _ _ _ pending => pending
      exact bound.same rfl rfl
  | present link found up =>
      apply within.same _ (present_links s link)
      unfold LinkPlane.present
      split <;> rfl
  | discharge link found reason rest due permitted => exact (within.erase link reason).same rfl rfl
  | schedule | lose | request | pass | forget | join | answer | finish | resolve | unresolve
  | retry | rename => exact within.same rfl rfl

theorem Moves.within (moves : Moves capped s t) (sound : s.Sound)
    (within : s.WithinCapacity limits) : t.WithinCapacity limits := by
  induction moves with
  | refl => exact within
  | tail before move ih => exact move.within (Moves.sound before sound) ih

end LinkPlane

namespace PeerLinkManager

open LinkPlane (capped)

structure WithinCapacity (limits : LinkLimits) (m : PeerLinkManager) : Prop where
  config : m.limits = limits
  links : m.slots ≤ limits.maxLinks
  pending : m.backlog ≤ limits.maxPendingInbound

variable {m : PeerLinkManager} {hand : InHand} {limits : LinkLimits}

theorem within_iff : (m.plane hand).WithinCapacity limits ↔ m.WithinCapacity limits := by
  constructor
  · rintro ⟨config, links, pending⟩
    exact ⟨config, plane_slots m hand ▸ links, plane_backlog m hand ▸ pending⟩
  · rintro ⟨config, links, pending⟩
    exact ⟨config, (plane_slots m hand).symm ▸ links, (plane_backlog m hand).symm ▸ pending⟩

/-- The victim's slot is free at once. -/
theorem evictIdleInbound_slots (evicted : m.evictIdleInbound.2 = true) :
    m.evictIdleInbound.1.slots < m.slots := by
  unfold evictIdleInbound at evicted ⊢
  split at evicted
  · cases evicted
  · rename_i victim found
    obtain ⟨held, idle⟩ := idlest_mem found
    unfold idleInbound at idle
    simp only [Bool.and_eq_true, Bool.not_eq_true'] at idle
    have adp := idle.1.1.1.1.2
    have alive := idle.1.1.2
    show List.countP _ (m.table.links.map _) < _
    apply countP_map_lt _ held
    · simp [PeerLink.holdsSlot, alive]
    · simp [PeerLink.holdsSlot, adp]
    · intro link holds
      split at holds
      · unfold PeerLink.holdsSlot at holds ⊢
        simp only [Bool.not_true, Bool.or_false] at holds
        rw [holds]
        rfl
      · exact holds

theorem makeRoom_limits : m.makeRoom.1.limits = m.limits := by
  unfold makeRoom evictIdleInbound
  split
  · split <;> rfl
  · rfl

theorem makeRoom_room (within : m.WithinCapacity limits) (made : m.makeRoom.2 = true) :
    m.makeRoom.1.slots < m.makeRoom.1.limits.maxLinks := by
  rw [makeRoom_limits, within.config]
  unfold makeRoom at made ⊢
  split at made
  · rename_i full
    rw [if_pos full]
    exact Nat.lt_of_lt_of_le (evictIdleInbound_slots made) within.links
  · rename_i room
    rw [if_neg room]
    exact within.config ▸ slots_lt_of_room room

theorem backlog_le_pendingInbound : m.backlog ≤ m.pendingInbound := by
  apply List.countP_mono_left
  intro link _ pending
  unfold PeerLink.pendingInbound at pending
  simp only [Bool.and_eq_true, Bool.not_eq_true', beq_iff_eq] at pending
  simp [pending]

theorem accepts_capped (within : m.WithinCapacity limits) : AcceptsWell capped m hand := by
  intro made place
  refine ⟨?_, ?_⟩
  · rw [plane_slots]
    exact makeRoom_room within made
  · rw [plane_backlog]
    exact Nat.lt_of_le_of_lt backlog_le_pendingInbound place

variable [MultiaddrParser]

theorem grants_capped (within : m.WithinCapacity limits) {event : Event}
    (reported : ∀ id state, event = .linkState id state → ∀ link ∈ m.table.links, link.id = id →
      link.association.closed = true → state.association.closed = true) : Grants capped m event := by
  cases event with
  | ensureAssociation key cb =>
      exact ⟨fun _ _ => trivial, fun _ => trivial, fun _ _ _ _ _ _ => trivial,
        fun _ _ _ _ => trivial, fun _ _ _ _ _ _ _ => trivial⟩
  | requestDropLink key => exact fun _ _ _ _ => trivial
  | closeAllLinks => exact ⟨fun _ _ => trivial, fun _ _ => trivial⟩
  | handshake id result =>
      exact fun _ _ _ _ _ => ⟨fun _ _ => trivial, fun _ => trivial,
        fun _ _ _ => ⟨trivial, fun _ _ => trivial⟩, fun _ _ _ => ⟨trivial, fun _ _ => trivial⟩⟩
  | hostResolved key multiaddr result => exact ⟨fun _ _ => trivial, fun _ _ => trivial⟩
  | inboundConnection assoc => exact accepts_capped within
  | linkState id state =>
      exact fun link held same closed => .inl (reported id state rfl link held same closed)
  | tick =>
      exact ⟨fun _ _ _ _ _ => trivial, Run.meets_of_forall _ _ (fun _ _ _ _ => trivial) _ _,
        Run.meets_of_forall _ _ (fun _ _ _ _ _ _ _ _ => trivial) _ _, fun _ _ _ _ => trivial⟩
  | _ => exact trivial

/-- Every call but the news of a link's own state, which its association bounds. -/
theorem step_within (within : m.WithinCapacity limits) (sound : (m.plane {}).Sound) {event : Event}
    (reported : ∀ id state, event = .linkState id state → ∀ link ∈ m.table.links, link.id = id →
      link.association.closed = true → state.association.closed = true) :
    (m.step event).WithinCapacity limits := by
  have before := sound_inHand sound event
  have moves := step_leads (grants_capped within reported) before
  exact within_iff.mp (moves.within before (within_iff.mpr within))

end PeerLinkManager

end Amp
