import Amp.Link.AimedDrops
import Amp.Link.DialCursor

set_option autoImplicit false

/- What `AbortInflightDial` and `UnregisterEndpoint` leave alone: the dials, the waiters
and the endpoints of every other key. -/
namespace Amp.PeerLinkManager

/-- Nothing of what goes on under a key has changed. -/
structure Untouched (key : DialKey) (before after : PeerLinkManager) : Prop where
  endpoint : after.book.find key = before.book.find key
  waiters : after.waitersOf key = before.waitersOf key
  links : (after.table.links.filter fun link => link.peerKey == key) =
    before.table.links.filter fun link => link.peerKey == key
  pending : ∀ drop ∈ after.pendingDrops, drop ∈ before.pendingDrops ∨
    ∀ link ∈ before.table.links, link.peerKey = key → link.handle ≠ drop.1
  answers : ∀ answer ∈ after.answers, answer ∈ before.answers ∨ answer.key ≠ key
  resolving : key ∈ after.resolving ↔ key ∈ before.resolving
  retries : after.pendingCandidateRetry.filter (· == key) =
    before.pendingCandidateRetry.filter (· == key)

namespace Untouched

variable {key : DialKey} {m one two : PeerLinkManager}

theorem refl (key : DialKey) (m : PeerLinkManager) : Untouched key m m where
  endpoint := rfl
  waiters := rfl
  links := rfl
  pending _ listed := .inl listed
  answers _ listed := .inl listed
  resolving := Iff.rfl
  retries := rfl

theorem link_back (untouched : Untouched key m one) {link : PeerLink}
    (held : link ∈ m.table.links) (named : link.peerKey = key) : link ∈ one.table.links := by
  have mem : link ∈ m.table.links.filter fun link => link.peerKey == key :=
    List.mem_filter.mpr ⟨held, by simp [named]⟩
  rw [← untouched.links] at mem
  exact (List.mem_filter.mp mem).1

theorem trans (first : Untouched key m one) (second : Untouched key one two) :
    Untouched key m two where
  endpoint := second.endpoint.trans first.endpoint
  waiters := second.waiters.trans first.waiters
  links := second.links.trans first.links
  pending drop listed := by
    rcases second.pending drop listed with old | aimed
    · exact first.pending drop old
    · right
      intro link held named
      exact aimed link (first.link_back held named) named
  answers answer listed := by
    rcases second.answers answer listed with old | other
    · exact first.answers answer old
    · exact .inr other
  resolving := second.resolving.trans first.resolving
  retries := second.retries.trans first.retries

theorem rebook (same : one.book.find key = m.book.find key)
    (waiting : one.inflightAssociations = m.inflightAssociations) (table : one.table = m.table)
    (pending : one.pendingDrops = m.pendingDrops) (answers : one.answers = m.answers)
    (resolving : one.resolving = m.resolving)
    (retries : one.pendingCandidateRetry.filter (· == key) =
      m.pendingCandidateRetry.filter (· == key)) : Untouched key m one where
  endpoint := same
  waiters := by
    unfold waitersOf
    rw [waiting]
  links := by rw [table]
  pending drop listed := by
    rw [pending] at listed
    exact .inl listed
  answers answer listed := by
    rw [answers] at listed
    exact .inl listed
  resolving := by rw [resolving]
  retries := retries

theorem finishWaiters {other : DialKey} (apart : other ≠ key) (result : LinkRoe) :
    Untouched key m (m.finishWaiters other result) where
  endpoint := rfl
  waiters := by
    show ((m.inflightAssociations.filter fun waiter => waiter.1 != other).filter fun waiter =>
      waiter.1 == key).map Prod.snd = _
    rw [List.filter_filter]
    have same : (fun waiter : DialKey × LinkCb => waiter.1 == key && waiter.1 != other) =
        fun waiter => waiter.1 == key := by
      funext waiter
      by_cases named : waiter.1 = key
      · simp [named, apart.symm]
      · simp [named]
    rw [same]
    rfl
  links := rfl
  pending _ listed := .inl listed
  answers answer listed := by
    rcases List.mem_append.mp listed with old | told
    · exact .inl old
    · obtain ⟨cb, _, made⟩ := List.mem_filterMap.mp told
      obtain ⟨call, _, rfl⟩ := Option.map_eq_some_iff.mp made
      exact .inr apart
  resolving := Iff.rfl
  retries := rfl

theorem scheduleDropLink {handle : LinkHandle}
    (aimed : ∀ link ∈ m.table.links, link.peerKey = key → link.handle ≠ handle)
    (reason : LinkDropReason) : Untouched key m (m.scheduleDropLink handle reason) where
  endpoint := rfl
  waiters := rfl
  links := rfl
  pending drop listed := by
    rcases List.mem_append.mp listed with old | new
    · exact .inl old
    · rw [List.mem_singleton.mp new]
      exact .inr aimed
  answers _ listed := .inl listed
  resolving := Iff.rfl
  retries := rfl

/-- A change to a link of another key that leaves it its key. -/
theorem modifyLink {id : LinkId} {change : PeerLink → PeerLink}
    (others : ∀ link ∈ m.table.links, link.id = id → link.peerKey ≠ key)
    (keeps : ∀ link, (change link).peerKey = link.peerKey) :
    Untouched key m (m.modifyLink id change) where
  endpoint := rfl
  waiters := rfl
  links := by
    show ((m.table.links.map fun link => if link.id = id then change link else link).filter
      fun link => link.peerKey == key) = _
    generalize m.table.links = links at others
    induction links with
    | nil => rfl
    | cons link rest ih =>
        have tail := ih fun other held => others other (List.mem_cons_of_mem link held)
        rw [List.map_cons, List.filter_cons, List.filter_cons, tail]
        by_cases this : link.id = id
        · have apart := others link List.mem_cons_self this
          simp [this, keeps, apart]
        · simp [this]
  pending _ listed := .inl listed
  answers _ listed := .inl listed
  resolving := Iff.rfl
  retries := rfl

end Untouched

section Aborts

variable {m : PeerLinkManager} {key aborted : DialKey}

/-- A link found under a key has that key. -/
theorem findAdpLinkForKey_key (sound : (m.plane {}).Sound) {link : PeerLink}
    (found : m.findAdpLinkForKey key = some link) :
    link ∈ m.table.links ∧ link.peerKey = key ∧ link.isCarrierBacked = false := by
  have held := findLinkForKey_mem found
  unfold findAdpLinkForKey findLinkForKey at found
  rcases Option.or_eq_some_iff.mp found with named | ⟨_, walked⟩
  · obtain ⟨occupies, adp⟩ := Option.filter_eq_some_iff.mp named
    obtain ⟨indexed, byId⟩ := findByDialKey_some occupies
    obtain ⟨shown, mem, id, own⟩ := sound.indexed key link.id indexed
    obtain ⟨other, isOther, rfl⟩ := List.mem_map.mp mem
    have same : other = link := by
      have byOther := findById_of_mem sound isOther
      rw [PeerLink.plain_id] at id
      rw [id, byId] at byOther
      exact (Option.some.inj byOther).symm
    subst same
    exact ⟨held, own, by simpa using adp⟩
  · have matched := List.find?_some walked
    simp only [Bool.and_eq_true, beq_iff_eq] at matched
    exact ⟨held, matched.2, matched.1⟩

/-- Handles tell the links of two keys apart. -/
theorem handle_apart (sound : (m.plane {}).Sound) {link : PeerLink} (held : link ∈ m.table.links)
    (apart : link.peerKey ≠ key) :
    ∀ other ∈ m.table.links, other.peerKey = key → other.handle ≠ link.handle := by
  intro other isOther own same
  have id : other.id = link.id := congrArg LinkHandle.id same
  have byOther := findById_of_mem sound isOther
  rw [id, findById_of_mem sound held] at byOther
  rw [Option.some.inj byOther] at apart
  exact apart own

variable [MultiaddrParser]

theorem find_advance_other (book : DialBook) (apart : aborted ≠ key) (now : Int) :
    (book.advanceDialCandidate aborted now).1.find key = book.find key := by
  unfold DialBook.advanceDialCandidate
  split
  · rfl
  · split
    · exact DialBook.find_modify_other book apart _
    · rfl

theorem dialFailed_untouched (apart : aborted ≠ key) {handle : LinkHandle}
    (aimed : ∀ link ∈ m.table.links, link.peerKey = key → link.handle ≠ handle)
    (failure : ManagerFailure) (suppress : Bool) :
    Untouched key m (m.dialFailed aborted handle failure suppress) := by
  have forgets := DialBook.find_forgetResolution_other m.book apart
  have schedules (book : DialBook) (same : book.find key = m.book.find key)
      (reason : LinkDropReason) :
      Untouched key m ({ m with book := book }.scheduleDropLink handle reason) := by
    have rebooked : Untouched key m { m with book := book } := .rebook same rfl rfl rfl rfl rfl rfl
    have still : ∀ link ∈ { m with book := book }.table.links, link.peerKey = key →
        link.handle ≠ handle := aimed
    exact rebooked.trans (.scheduleDropLink still reason)
  unfold dialFailed
  dsimp only
  split
  · have advanced := (find_advance_other (m.book.forgetResolution aborted) apart
      m.around.steadyMs).trans forgets
    have queued : (m.pendingCandidateRetry ++ [aborted]).filter (· == key) =
        m.pendingCandidateRetry.filter (· == key) := by
      rw [List.filter_append, List.filter_singleton, beq_false_of_ne apart]
      exact List.append_nil _
    exact (schedules _ forgets _).trans
      (.rebook (advanced.trans forgets.symm) rfl rfl rfl rfl rfl queued)
  · have reset : ((m.book.forgetResolution aborted).resetDialIndex aborted m.around.steadyMs).find
        key = m.book.find key := (DialBook.find_modify_other _ apart _).trans forgets
    refine (schedules _ ?_ _).trans (.finishWaiters apart _)
    split
    · exact reset
    · exact reset

/-- A link of a key fails: only what goes on under that key is touched. -/
theorem failAssociation_untouched (sound : (m.plane {}).Sound) {link : PeerLink}
    (held : link ∈ m.table.links) (named : link.peerKey = aborted) (apart : aborted ≠ key)
    (dials : link.outbound = true ∧ link.underway = true ∧ link.isCarrierBacked = false)
    (failure : LinkFailure) : Untouched key m (m.failAssociation link.id failure) := by
  have byId := findById_of_mem sound held
  have own : link.peerKey ≠ key := by
    rw [named]
    exact apart
  have others : ∀ other ∈ m.table.links, other.id = link.id → other.peerKey ≠ key := by
    intro other isOther same
    have byOther := findById_of_mem sound isOther
    rw [same, byId] at byOther
    rwa [← Option.some.inj byOther]
  have aimed := handle_apart sound held own
  let fails := fun (link : PeerLink) => { link with phase := .backoff, establishCb := none }
  have down : Untouched key m (m.modifyLink link.id fails) := .modifyLink others fun _ => rfl
  have still : ∀ other ∈ (m.modifyLink link.id fails).table.links, other.peerKey = key →
      other.handle ≠ link.handle := by
    intro other isOther ownKey
    obtain ⟨before, isBefore, rfl⟩ := List.mem_map.mp isOther
    by_cases this : before.id = link.id
    · rw [if_pos this] at ownKey ⊢
      exact absurd ownKey (others before isBefore this)
    · rw [if_neg this] at ownKey ⊢
      exact aimed before isBefore ownKey
  have coherent : link.Coherent := by
    have shown := sound.coherent link.plain (mem_plane {} held)
    exact shown
  unfold failAssociation
  rw [byId]
  dsimp only
  unfold PeerLink.Coherent at coherent
  cases cb : link.establishCb with
  | none =>
      rw [cb] at coherent
      exact absurd (dials.2.1.symm.trans coherent) Bool.noConfusion
  | some establish =>
      rw [cb] at coherent
      cases establish with
      | dial dialed =>
          obtain ⟨_, _, _, same⟩ := coherent
          have ended : Untouched key (m.modifyLink link.id fails)
              ((m.modifyLink link.id fails).endDial dialed) := .rebook rfl rfl rfl rfl rfl rfl rfl
          have other : dialed ≠ key := by rwa [← same]
          have aimedStill : ∀ other ∈ ((m.modifyLink link.id fails).endDial dialed).table.links,
              other.peerKey = key → other.handle ≠ link.handle := still
          exact down.trans (ended.trans (dialFailed_untouched other aimedStill _ _))
      | inbound => exact absurd (dials.1.symm.trans coherent.2.1) Bool.noConfusion
      | nested provisional => exact absurd (dials.2.2.symm.trans coherent.2) Bool.noConfusion

theorem abortInflightDial_untouched (sound : (m.plane {}).Sound) (apart : aborted ≠ key) :
    Untouched key m (m.abortInflightDial aborted) := by
  let forgets := { m with
    book := m.book.clearBackoff aborted
    pendingCandidateRetry := m.pendingCandidateRetry.filter (· != aborted)
    suppressDialBackoff := m.suppressDialBackoff.filter (· != aborted) }
  let told := forgets.failWaiters aborted .generic "amp link: dial aborted"
  have kept : (m.pendingCandidateRetry.filter (· != aborted)).filter (· == key) =
      m.pendingCandidateRetry.filter (· == key) := by
    rw [List.filter_filter]
    apply List.filter_congr
    intro other _
    by_cases named : other = key
    · simp [named, apart.symm]
    · simp [named]
  have forgotten : Untouched key m forgets := .rebook rfl rfl rfl rfl rfl rfl kept
  have answered : Untouched key m told := forgotten.trans (.finishWaiters apart _)
  have toldSound : (told.plane {}).Sound :=
    ⟨sound.unique, sound.numbered, sound.coherent, sound.indexed, sound.known⟩
  refine answered.trans ?_
  show Untouched key told (told.abortLink aborted)
  unfold abortLink
  split
  · exact .refl key _
  · rename_i link found
    obtain ⟨held, named, adp⟩ := findAdpLinkForKey_key toldSound found
    split
    · rename_i dials
      rw [Bool.and_eq_true] at dials
      let noted := { told with suppressDialBackoff := told.suppressDialBackoff ++ [aborted] }
      have notes : Untouched key told noted := .rebook rfl rfl rfl rfl rfl rfl rfl
      have notedSound : (noted.plane {}).Sound := toldSound
      exact notes.trans (failAssociation_untouched notedSound held named apart
        ⟨dials.1, dials.2, adp⟩ _)
    · split
      · exact .refl key _
      · apply Untouched.scheduleDropLink
        apply handle_apart toldSound held
        rw [named]
        exact apart

end Aborts

end Amp.PeerLinkManager
