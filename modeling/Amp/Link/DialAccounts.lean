import Amp.Link.OneSession

set_option autoImplicit false

/- Dials, their slots and their waiters: what has to be so for every slot to be given
back and every waiter to be told. -/
namespace Amp

namespace LinkPlane

/-- The slots taken are those of the links that dial, and no waiter is left without
something that ends in its answer. -/
structure Accounted (s : LinkPlane) : Prop where
  slots : s.dials = s.links.countP PeerLink.isDialing
  served : ∀ key, s.Waits key → s.Served key ∨ key ∈ s.retries

/-- No link goes while it dials, and no waiter is left to a link that does not. -/
def dialsKept : Permits where
  drop link _ := link.isDialing = false
  discharge link _ := link.isDialing = false
  join s key := ∃ link ∈ s.links, link.dials key = true
  unresolve s key := (∃ link ∈ s.links, link.dials key = true) ∨ key ∈ s.retries

section Counts

theorem countP_modify (holds : PeerLink → Bool) (change : PeerLink → PeerLink) {links : List PeerLink}
    (unique : (links.map PeerLink.id).Nodup) {link : PeerLink} (found : link ∈ links) :
    (links.map fun other => if other.id = link.id then change other else other).countP holds +
      (holds link).toNat = links.countP holds + (holds (change link)).toNat := by
  induction links with
  | nil => cases found
  | cons first rest ih =>
      rw [List.map_cons, List.nodup_cons] at unique
      obtain ⟨apart, unique⟩ := unique
      rw [List.map_cons, List.countP_cons, List.countP_cons]
      by_cases this : first.id = link.id
      · have absent : link ∉ rest := fun held => apart (this ▸ List.mem_map_of_mem held)
        have same : first = link := (List.mem_cons.mp found).resolve_right (fun held => absent held) |>.symm
        subst same
        have others : (rest.map fun other => if other.id = first.id then change other else other) =
            rest := by
          conv_rhs => rw [← List.map_id rest]
          apply List.map_congr_left
          intro other held
          exact if_neg fun same : other.id = first.id => apart (List.mem_map.mpr ⟨other, held, same⟩)
        rw [others, if_pos rfl]
        cases holds first <;> cases holds (change first) <;> simp
      · have held : link ∈ rest := (List.mem_cons.mp found).resolve_left fun same => this (same ▸ rfl)
        have rest := ih unique held
        rw [if_neg this]
        omega

theorem countP_erase (holds : PeerLink → Bool) {links : List PeerLink}
    (unique : (links.map PeerLink.id).Nodup) {link : PeerLink} (found : link ∈ links) :
    (links.filter fun other => other.id != link.id).countP holds + (holds link).toNat =
      links.countP holds := by
  induction links with
  | nil => cases found
  | cons first rest ih =>
      rw [List.map_cons, List.nodup_cons] at unique
      obtain ⟨apart, unique⟩ := unique
      by_cases this : first.id = link.id
      · have absent : link ∉ rest := fun held => apart (this ▸ List.mem_map_of_mem held)
        have same : first = link := (List.mem_cons.mp found).resolve_right (fun held => absent held) |>.symm
        subst same
        have others : (rest.filter fun other => other.id != first.id) = rest := by
          rw [List.filter_eq_self]
          intro other held
          have differs : other.id ≠ first.id :=
            fun same => apart (List.mem_map.mpr ⟨other, held, same⟩)
          simpa using differs
        rw [List.filter_cons_of_neg (by simp), others, List.countP_cons]
        cases holds first <;> simp
      · have held : link ∈ rest := (List.mem_cons.mp found).resolve_left fun same => this (same ▸ rfl)
        have rest := ih unique held
        rw [List.filter_cons_of_pos (by simpa using this), List.countP_cons, List.countP_cons]
        omega

end Counts

variable {s t : LinkPlane}

theorem dialing_of_dials {link : PeerLink} {key : DialKey} (dials : link.dials key = true) :
    link.isDialing = true := by
  unfold PeerLink.dials at dials
  unfold PeerLink.isDialing
  rw [eq_of_beq dials]

/-- A change to a link that leaves its callback. -/
theorem Accounted.modify (holds : s.Accounted) (id : LinkId) {change : PeerLink → PeerLink}
    (keeps : ∀ link, (change link).establishCb = link.establishCb) :
    (s.modify id change).Accounted := by
  have dialing (link : PeerLink) : (change link).isDialing = link.isDialing := by
    unfold PeerLink.isDialing
    rw [keeps]
  have dials (link : PeerLink) (key : DialKey) : (change link).dials key = link.dials key := by
    unfold PeerLink.dials
    rw [keeps]
  refine ⟨?_, ?_⟩
  · show s.dials = List.countP _ (List.map _ _)
    rw [holds.slots, List.countP_map]
    apply List.countP_congr
    intro link _
    by_cases this : link.id = id <;> simp [this, dialing]
  · intro key waits
    rcases holds.served key waits with (⟨link, held, isDial⟩ | resolving) | again
    · refine .inl (.inl (exists_modify held ?_ fun _ => isDial))
      intro _
      rw [dials]
      exact isDial
    · exact .inl (.inr resolving)
    · exact .inr again

/-- A callback is taken out of its link: a slot and a key are to be settled with it. -/
theorem Accounted.settle (holds : s.Accounted) (sound : s.Sound) {link : PeerLink}
    (found : link ∈ s.links) {change : PeerLink → PeerLink}
    (taken : ∀ link, (change link).establishCb = none) :
    ((s.modify link.id change).settle link.establishCb).Accounted := by
  have quiet : (change link).isDialing = false := by
    unfold PeerLink.isDialing
    rw [taken]
  have counted := countP_modify PeerLink.isDialing change sound.unique found
  rw [quiet] at counted
  have others {key : DialKey} (waits : s.Waits key) :
      (s.modify link.id change).Served key ∨ key ∈ s.retries ∨ link.dials key = true := by
    rcases holds.served key waits with (⟨other, held, isDial⟩ | resolving) | again
    · by_cases this : other = link
      · subst this
        exact .inr (.inr isDial)
      · refine .inl (.inl (exists_modify held ?_ fun _ => isDial))
        exact fun same => absurd (sound.same held found same) this
    · exact .inl (.inr resolving)
    · exact .inr (.inl again)
  have plain (notDial : link.isDialing = false) : (s.modify link.id change).Accounted := by
    rw [notDial] at counted
    refine ⟨?_, ?_⟩
    · exact holds.slots.trans (Nat.add_right_cancel counted).symm
    · intro key waits
      rcases others waits with served | again | isDial
      · exact .inl served
      · exact .inr again
      · exact absurd (dialing_of_dials isDial) (by simp [notDial])
  rcases cb : link.establishCb with _ | (key | _ | provisional)
  · exact plain (by simp [PeerLink.isDialing, cb])
  · have isDial : link.isDialing = true := by simp [PeerLink.isDialing, cb]
    rw [isDial] at counted
    refine ⟨?_, ?_⟩
    · show s.dials - 1 = List.countP _ (s.modify link.id change).links
      have slots := holds.slots
      have count : List.countP PeerLink.isDialing (s.modify link.id change).links + 1 =
          s.links.countP PeerLink.isDialing := counted
      omega
    · intro other waits
      rcases others waits with served | again | dials
      · exact .inl served
      · exact .inr (List.mem_cons_of_mem _ again)
      · right
        unfold PeerLink.dials at dials
        rw [cb] at dials
        have same : key = other := by simpa using dials
        exact same ▸ List.mem_cons_self
  · exact plain (by simp [PeerLink.isDialing, cb])
  · exact plain (by simp [PeerLink.isDialing, cb])

theorem Accounted.erase (holds : s.Accounted) (sound : s.Sound) {link : PeerLink}
    (found : link ∈ s.links) (quiet : link.isDialing = false) (reason : LinkDropReason) :
    (s.erase link reason).Accounted := by
  have counted := countP_erase PeerLink.isDialing sound.unique found
  rw [quiet] at counted
  refine ⟨holds.slots.trans counted.symm, ?_⟩
  intro key waits
  rcases holds.served key waits with (⟨other, held, isDial⟩ | resolving) | again
  · refine .inl (.inl ⟨other, List.mem_filter.mpr ⟨held, ?_⟩, isDial⟩)
    have differs : other.id ≠ link.id := by
      intro same
      have dialing := dialing_of_dials isDial
      rw [sound.same held found same, quiet] at dialing
      cases dialing
    simpa using differs
  · exact .inl (.inr resolving)
  · exact .inr again

theorem Move.accounted (move : Move dialsKept s t) (sound : s.Sound) (holds : s.Accounted) :
    t.Accounted := by
  cases move with
  | enter link fresh coherent underway =>
      refine ⟨?_, ?_⟩
      · show (if link.isDialing then s.dials + 1 else s.dials) = List.countP _ (s.links ++ [link])
        rw [List.countP_append, List.countP_singleton, holds.slots]
        split <;> rfl
      · intro key waits
        rcases holds.served key waits with (⟨other, held, isDial⟩ | resolving) | again
        · exact .inl (.inl ⟨other, List.mem_append_left _ held, isDial⟩)
        · exact .inl (.inr resolving)
        · exact .inr again
  | name link found underway peer => exact holds.modify link.id fun _ => rfl
  | report link found closed permitted => exact holds.modify link.id fun _ => rfl
  | fail link found => exact holds.settle sound found fun _ => rfl
  | connect link found underway permitted => exact holds.settle sound found fun _ => rfl
  | retire link found up => exact holds.modify link.id fun _ => rfl
  | drop link found reason permitted => exact holds.erase sound found permitted reason
  | bind link found settled key free =>
      have kept : (s.modify link.id fun link => { link with peerKey := key }).Accounted :=
        holds.modify link.id fun _ => rfl
      exact ⟨kept.slots, kept.served⟩
  | present link found up =>
      unfold LinkPlane.present
      split
      · exact holds
      · exact ⟨holds.slots, holds.served⟩
  | schedule | lose | request | pass | forget | answer | rename => exact ⟨holds.slots, holds.served⟩
  | discharge link found reason rest due permitted =>
      obtain ⟨slots, served⟩ := holds.erase sound found permitted reason
      exact ⟨slots, served⟩
  | join key cb rest held served =>
      refine ⟨holds.slots, ?_⟩
      rintro other ⟨waiter, waits, rfl⟩
      rcases List.mem_append.mp waits with old | isNew
      · exact holds.served waiter.1 ⟨waiter, old, rfl⟩
      · rw [List.mem_singleton.mp isNew]
        rcases served with resolving | again | dialed
        · exact .inl (.inr resolving)
        · exact .inr again
        · exact .inl (.inl dialed)
  | finish key result permitted =>
      refine ⟨holds.slots, ?_⟩
      rintro other ⟨waiter, waits, rfl⟩
      exact holds.served waiter.1 ⟨waiter, List.mem_of_mem_filter waits, rfl⟩
  | resolve key =>
      refine ⟨holds.slots, ?_⟩
      intro other waits
      rcases holds.served other waits with (dialed | resolving) | again
      · exact .inl (.inl dialed)
      · refine .inl (.inr ?_)
        show other ∈ if key ∈ s.resolving then s.resolving else s.resolving ++ [key]
        split
        · exact resolving
        · exact List.mem_append_left _ resolving
      · exact .inr again
  | unresolve key served =>
      refine ⟨holds.slots, ?_⟩
      intro other waits
      by_cases this : other = key
      · subst this
        rcases served with none | again | dialed | again
        · exact absurd waits none
        · exact .inr again
        · exact .inl (.inl dialed)
        · exact .inr again
      · rcases holds.served other waits with (dialed | resolving) | again
        · exact .inl (.inl dialed)
        · exact .inl (.inr (List.mem_filter.mpr ⟨resolving, by simpa using this⟩))
        · exact .inr again
  | retry keys kept =>
      refine ⟨holds.slots, ?_⟩
      intro key waits
      rcases holds.served key waits with served | again
      · exact .inl served
      · rcases kept key again with still | none | served
        · exact .inr still
        · exact absurd waits none
        · exact .inl served

theorem Moves.accounted (moves : Moves dialsKept s t) (sound : s.Sound) (holds : s.Accounted) :
    t.Accounted := by
  induction moves with
  | refl => exact holds
  | tail before move ih => exact move.accounted (Moves.sound before sound) ih

/-- Every callback that was given, wherever it is now. -/
def given (s : LinkPlane) : List Nat :=
  s.calls ++ (s.waiting.filterMap Prod.snd ++ s.answers.map Answer.call)

theorem map_call_answers (s : LinkPlane) (key : DialKey) (result : LinkRoe) (cbs : List LinkCb) :
    (cbs.filterMap (s.answer key result)).map Answer.call = cbs.filterMap (fun cb => cb) := by
  rw [List.map_filterMap]
  congr 1
  funext cb
  cases cb <;> rfl

/-- No callback is lost and none is answered twice. -/
theorem Move.given {P : Permits} (move : Move P s t) : t.given.Perm s.given := by
  cases move with
  | fail link found => rcases link.establishCb with _ | (_ | _ | _) <;> exact List.Perm.refl _
  | connect link found underway permitted =>
      rcases link.establishCb with _ | (_ | _ | _) <;> exact List.Perm.refl _
  | present link found up =>
      unfold LinkPlane.present
      split <;> exact List.Perm.refl _
  | join key cb rest held served =>
      unfold LinkPlane.given
      dsimp only
      rw [held, List.filterMap_append]
      have one : List.filterMap Prod.snd [(key, cb)] = cb.toList := by cases cb <;> rfl
      rw [one, List.perm_iff_count]
      intro call
      simp only [List.count_append]
      omega
  | answer key result cb rest held permitted =>
      unfold LinkPlane.given
      dsimp only
      rw [held, List.map_append]
      have one : ((s.answer key result cb).toList).map Answer.call = cb.toList := by cases cb <;> rfl
      rw [one, List.perm_iff_count]
      intro call
      simp only [List.count_append]
      omega
  | finish key result permitted =>
      unfold LinkPlane.given LinkPlane.finish
      dsimp only
      have same : (fun cb : LinkCb => cb) ∘ (Prod.snd : DialKey × LinkCb → LinkCb) = Prod.snd := rfl
      rw [List.map_append, map_call_answers, List.filterMap_map, same]
      have split := (List.filter_append_perm (fun waiter : DialKey × LinkCb => waiter.1 == key)
        s.waiting).filterMap Prod.snd
      rw [List.perm_iff_count] at split ⊢
      intro call
      have counted := split call
      simp only [List.filterMap_append, List.count_append, bne] at counted ⊢
      omega
  | enter | name | report | retire | drop | bind | schedule | lose | request | pass | discharge
  | forget | resolve | unresolve | retry | rename => exact List.Perm.refl _

theorem Moves.given {P : Permits} (moves : Moves P s t) : t.given.Perm s.given := by
  induction moves with
  | refl => exact List.Perm.refl _
  | tail _ move ih => exact move.given.trans ih

end LinkPlane

namespace PeerLinkManager

open LinkPlane (dialsKept)

section Accounts

variable (m : PeerLinkManager)

/-- Nothing that dials is displaced by the link that takes a key. -/
def DisplacesNoDial (id : LinkId) (key : DialKey) : Prop :=
  m.displaces id key = true → ∀ occupant ∈ m.table.findByDialKey key, occupant.isDialing = false

/-- An alias that is adopted at a Tick takes its key from no dial. -/
def AdoptsFromNoDial (pending : String × DialKey) : Prop :=
  ∀ winner ∈ m.findAnyConnectedLinkForRemotePeerId pending.1, winner.peerKey ≠ pending.2 →
    m.DisplacesNoDial winner.id pending.2

instance (id : LinkId) (key : DialKey) : Decidable (m.DisplacesNoDial id key) :=
  inferInstanceAs (Decidable (_ → _))

instance (pending : String × DialKey) : Decidable (m.AdoptsFromNoDial pending) :=
  inferInstanceAs (Decidable (∀ winner ∈ _, _))

/-- Every dial under way has its slot and no other, and every waiter something that ends
in its answer. -/
structure Accounted : Prop where
  slots : m.book.concurrentDials = m.table.links.countP fun link =>
    link.outbound && !link.isCarrierBacked && link.establishCb.isSome
  served : ∀ key, m.waitersOf key ≠ [] →
    (∃ link ∈ m.table.links, link.outbound = true ∧ link.isCarrierBacked = false ∧
      link.dials key = true) ∨ key ∈ m.resolving ∨ key ∈ m.pendingCandidateRetry

/-- The callback of an `EnsureAssociation`. -/
def callOf : Event → Option Nat
  | .ensureAssociation _ cb => cb
  | _ => none

variable {m}

/-- A coherent link dials when it is ours, over ADP, and still has its callback. -/
theorem dialing_iff {link : PeerLink} (coherent : link.Coherent) :
    (link.outbound && !link.isCarrierBacked && link.establishCb.isSome) = link.isDialing := by
  unfold PeerLink.Coherent at coherent
  unfold PeerLink.isDialing
  rcases cb : link.establishCb with _ | (key | _ | provisional) <;> rw [cb] at coherent
  · simp
  · simp [coherent.2.1, coherent.2.2.1]
  · simp [coherent.2.1]
  · simp [coherent.2]

theorem accounted_of_plane (sound : (m.plane {}).Sound) (holds : (m.plane {}).Accounted) :
    m.Accounted := by
  have coherent (link : PeerLink) (held : link ∈ m.table.links) : link.Coherent :=
    sound.coherent link.plain (mem_plane {} held)
  refine ⟨?_, ?_⟩
  · have slots : m.book.concurrentDials - 0 =
        List.countP PeerLink.isDialing (m.table.links.map PeerLink.plain) := holds.slots
    rw [Nat.sub_zero, List.countP_map] at slots
    rw [slots]
    apply List.countP_congr
    intro link held
    rw [dialing_iff (coherent link held)]
    rfl
  · intro key waits
    rcases holds.served key ((waits_iff {} key).mpr waits) with (⟨shown, mem, isDial⟩ | resolving) | again
    · obtain ⟨link, held, rfl⟩ := List.mem_map.mp mem
      rw [PeerLink.plain_dials] at isDial
      have facts := coherent link held
      unfold PeerLink.Coherent at facts
      rw [eq_of_beq isDial] at facts
      exact .inl ⟨link, held, facts.2.1, facts.2.2.1, isDial⟩
    · exact .inr (.inl resolving)
    · exact .inr (.inr again)

theorem dials_of_any {key : DialKey} (hand : InHand)
    (dialed : m.table.links.any (PeerLink.dials · key) = true) :
    ∃ link ∈ (m.plane hand).links, link.dials key = true := by
  obtain ⟨link, held, isDial⟩ := List.any_eq_true.mp dialed
  exact ⟨link.plain, mem_plane hand held, isDial⟩

/-- A link that is not under way does not dial. -/
theorem quiet_of_settled {hand : InHand} (sound : (m.plane hand).Sound) {link : PeerLink}
    (held : link ∈ m.table.links) (settled : link.underway = false) : link.isDialing = false := by
  have coherent : link.Coherent := sound.coherent link.plain (mem_plane hand held)
  unfold PeerLink.Coherent at coherent
  unfold PeerLink.isDialing
  rcases cb : link.establishCb with _ | (key | _ | provisional)
  · rfl
  · rw [cb] at coherent
    simp [PeerLink.underway, coherent.1] at settled
  · rfl
  · rfl

theorem given_inHand (m : PeerLinkManager) (event : Event) :
    (m.plane (inHand event)).given = (callOf event).toList ++ (m.plane {}).given := by
  cases event with
  | ensureAssociation key cb => simp [inHand, callOf, InHand.calling, LinkPlane.given, plane]
  | _ => rfl

variable [MultiaddrParser]

section Conditions

/-- No link goes at this Tick whose dial has not ended. -/
def TicksOverNoDial (m : PeerLinkManager) : Prop :=
  (∀ drop ∈ m.pendingDrops, ∀ link ∈ m.table.links, link.handle = drop.1 → link.isDialing = false) ∧
  Run.Meets adopt AdoptsFromNoDial { m.dropPending.retryPending with pendingAliasAdopt := [] }
    m.dropPending.retryPending.pendingAliasAdopt ∧
  let judged := m.dropPending.retryPending.adoptPending.failHandshakes.judged
  ∀ link ∈ judged.table.links, (judged.evictReason link).isSome = true → link.isDialing = false

/-- A call drops no link whose dial has not ended, joins no dial that is none, and loses
no waiters of a key that was forgotten while its host was looked up. -/
def KeepsDials (m : PeerLinkManager) : Event → Prop
  | .ensureAssociation key _ =>
      (∀ existing ∈ m.connectedAdp key, existing.peerKey ≠ key →
        m.DisplacesNoDial existing.id key) ∧
      ((m.table.findByDialKey key).any PeerLink.connected = false → m.connectedAdp key = none →
        key ∉ m.resolving → (m.findAdpLinkForKey key).any PeerLink.underway = true →
        m.table.links.any (PeerLink.dials · key) = true)
  | .closeAllLinks => ∀ link ∈ m.table.links, link.isDialing = false
  | .hostResolved key _ _ => m.book.find key = none → m.waitersOf key ≠ [] →
      m.table.links.any (PeerLink.dials · key) = true ∨ key ∈ m.pendingCandidateRetry
  | .tick => m.TicksOverNoDial
  | _ => True

instance (m : PeerLinkManager) : Decidable m.TicksOverNoDial := inferInstanceAs (Decidable (_ ∧ _ ∧ _))

instance (m : PeerLinkManager) : (event : Event) → Decidable (m.KeepsDials event)
  | .ensureAssociation _ _ => inferInstanceAs (Decidable (_ ∧ _))
  | .closeAllLinks => inferInstanceAs (Decidable (∀ link ∈ _, _))
  | .hostResolved _ _ _ => inferInstanceAs (Decidable (_ → _))
  | .tick => inferInstanceAs (Decidable m.TicksOverNoDial)
  | .abortInflightDial _ | .requestDropLink _ | .establishNested _ _ _ _
  | .inboundCarrierChannel _ _ | .inboundConnection _ | .handshake _ _ | .carrierClosed _ _
  | .carrierFrameError _ _ | .registerEndpoint _ _ | .registerEndpoints _ _ | .unregisterEndpoint _
  | .ingestRemoteAddrs _ _ | .clearDialBackoff _ | .networkChanged | .verifyLink _ _
  | .setHostResolver _ | .enableNestedCarrierAccept _ | .linkState _ _ | .surroundings _
  | .rehash _ _ => inferInstanceAs (Decidable True)

end Conditions

theorem grants_dials (sound : (m.plane {}).Sound) {event : Event} (keeps : m.KeepsDials event) :
    Grants dialsKept m event := by
  cases event with
  | ensureAssociation key cb =>
      refine ⟨fun _ _ => trivial, fun _ => trivial, ?_, ?_, ?_⟩
      · intro existing occupant found other holds displaces
        exact keeps.1 existing found other displaces occupant holds
      · exact fun free absent settled underway =>
          dials_of_any _ (keeps.2 free absent settled underway)
      · intro _ _ _ existing found settled _
        show existing.isDialing = false
        exact quiet_of_settled sound (findLinkForKey_mem found) settled
  | requestDropLink key => exact fun _ _ _ _ => trivial
  | closeAllLinks => exact ⟨keeps, fun _ _ => trivial⟩
  | handshake id result =>
      exact fun _ _ _ _ _ => ⟨fun _ _ => trivial, fun _ => trivial, fun _ _ _ => ⟨trivial, fun _ _ => trivial⟩,
        fun _ _ _ => ⟨trivial, fun _ _ => trivial⟩⟩
  | hostResolved key multiaddr result =>
      refine ⟨?_, fun _ _ => trivial⟩
      intro unknown waits
      rcases keeps unknown waits with dialed | again
      · exact .inl (dials_of_any {} dialed)
      · exact .inr again
  | tick =>
      obtain ⟨discharges, adopts, evicts⟩ := keeps
      refine ⟨discharges, Run.meets_of_forall _ _ (fun _ _ _ _ => trivial) _ _, ?_, ?_⟩
      · refine adopts.mono ?_
        intro m pending quiet winner occupant found other holds displaces
        exact quiet winner found other displaces occupant holds
      · intro link held reason why
        exact evicts link held (by simp [why])
  | inboundConnection assoc => exact fun _ _ => trivial
  | linkState id state => exact fun _ _ _ _ => .inr trivial
  | _ => exact trivial

/-- What every call keeps that keeps dials. -/
def InOrder (m : PeerLinkManager) : Prop := (m.plane {}).Sound ∧ (m.plane {}).Accounted

theorem step_inOrder {event : Event} (keeps : m.KeepsDials event) (order : m.InOrder) :
    (m.step event).InOrder ∧
      ((m.step event).plane {}).given.Perm ((callOf event).toList ++ (m.plane {}).given) := by
  have before := sound_inHand order.1 event
  have moves := step_leads (grants_dials order.1 keeps) before
  refine ⟨⟨moves.sound before, moves.accounted before ?_⟩, ?_⟩
  · rw [plane_inHand]
    exact ⟨order.2.slots, order.2.served⟩
  · rw [← given_inHand]
    exact moves.given

theorem run_given (events : List Event) :
    ∀ m : PeerLinkManager, m.InOrder → Run.Meets step KeepsDials m events →
      ((Run.exec step m events).plane {}).given.Perm (events.filterMap callOf ++ (m.plane {}).given) := by
  induction events with
  | nil => exact fun _ _ _ => List.Perm.refl _
  | cons event rest ih =>
      intro m order met
      obtain ⟨after, given⟩ := step_inOrder met.1 order
      have later := ih (m.step event) after met.2
      have calls : (event :: rest).filterMap callOf = (callOf event).toList ++ rest.filterMap callOf := by
        cases called : callOf event <;> simp [called]
      rw [Run.exec_cons, calls]
      refine later.trans ((given.append_left _).trans ?_)
      rw [← List.append_assoc]
      exact List.perm_append_comm.append_right _

/-- In every run in which no link goes whose dial has not ended, no call joins a dial that
is none, and no key is forgotten under its waiters, the slots taken are always those of
the dials under way and every waiter has something that ends in its answer; and each
callback given is waiting or has been answered, once. -/
theorem dials_accounted (localPeerId : String) (limits : LinkLimits) (events : List Event)
    (met : Run.Meets step KeepsDials (create localPeerId limits) events) :
    Run.Always step Accounted (create localPeerId limits) events ∧
      let m := Run.exec step (create localPeerId limits) events
      (m.inflightAssociations.filterMap Prod.snd ++ m.answers.map Answer.call).Perm
        (events.filterMap callOf) := by
  have start : (create localPeerId limits).InOrder :=
    ⟨create_sound localPeerId limits, rfl, fun _ ⟨_, waits, _⟩ => absurd waits List.not_mem_nil⟩
  refine ⟨?_, ?_⟩
  · exact Run.always_of_invariant step KeepsDials InOrder Accounted
      (fun _ _ keeps order => (step_inOrder keeps order).1)
      (fun _ order => accounted_of_plane order.1 order.2) events _ met start
  · have given := run_given events _ start met
    rwa [show ((create localPeerId limits).plane {}).given = [] from rfl, List.append_nil] at given

end Accounts

section Samples

attribute [local instance] anyAddress

theorem dials_accounted_sample :
    let events := [meetingBob, .registerEndpoint "bob" "x", .ensureAssociation "bob" (some 0),
      .ensureAssociation "bob" (some 1), .tick, comesUp 1, .tick]
    Run.Meets step KeepsDials (create "alice" {}) events ∧
      Run.Always step Accounted (create "alice" {}) events := by
  intro events
  have met : Run.Meets step KeepsDials (create "alice" {}) events := by decide +kernel
  exact ⟨met, (dials_accounted "alice" {} events met).1⟩

/-- A dial under way is displaced by the link that came in from its peer: its slot stays
taken, and its waiter is left with nothing. -/
theorem dial_displaced : ¬ Accounted (Run.exec step (create "alice" {})
    [meetingBob, .registerEndpoint "bob" "x", .ensureAssociation "bob" (some 0),
      .inboundConnection "bb", comesUp 2, .ensureAssociation "bob" (some 1)]) := by
  intro holds
  have slots := holds.slots
  revert slots
  decide +kernel

end Samples

end PeerLinkManager

end Amp
