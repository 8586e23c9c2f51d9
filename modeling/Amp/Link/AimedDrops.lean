import Amp.Link.OneSession
import Mathlib.Data.List.ReduceOption

set_option autoImplicit false

/- Which links go for what a loser of an election or the product's request has set
going. -/
namespace Amp

namespace LinkPlane

variable {P : Permits} {s t : LinkPlane}

section Origins

/-- Every link was there before, over its transport, or is the newest. -/
def Descends (s t : LinkPlane) : Prop :=
  ∀ link ∈ t.links, link.id = s.lastId + 1 ∨ ∃ before ∈ s.links, before.handle = link.handle ∧
    before.isCarrierBacked = link.isCarrierBacked

theorem descends_same (same : t.links = s.links) : s.Descends t := by
  intro link held
  rw [same] at held
  exact .inr ⟨link, held, rfl, rfl⟩

theorem descends_modify (id : LinkId) {change : PeerLink → PeerLink}
    (keeps : ∀ link, (change link).handle = link.handle ∧
      (change link).isCarrierBacked = link.isCarrierBacked) : s.Descends (s.modify id change) := by
  apply forall_modify
  · exact fun link held _ => .inr ⟨link, held, (keeps link).1.symm, (keeps link).2.symm⟩
  · exact fun link held _ => .inr ⟨link, held, rfl, rfl⟩

theorem descends_filter {keep : PeerLink → Bool} (same : t.links = s.links.filter keep) :
    s.Descends t := by
  intro link held
  rw [same] at held
  exact .inr ⟨link, List.mem_of_mem_filter held, rfl, rfl⟩

theorem Descends.settle (descends : s.Descends t) (cb : Option Establish) :
    s.Descends (t.settle cb) := by
  unfold Descends
  rw [settle_links]
  exact descends

theorem Move.descends (move : Move P s t) : s.Descends t := by
  cases move with
  | enter link fresh coherent underway =>
      intro other held
      rcases List.mem_append.mp held with old | isNew
      · exact .inr ⟨other, old, rfl, rfl⟩
      · rw [List.mem_singleton.mp isNew]
        exact .inl fresh
  | name link found underway peer => exact descends_modify link.id fun _ => ⟨rfl, rfl⟩
  | report link found closed permitted => exact descends_modify link.id fun _ => ⟨rfl, rfl⟩
  | fail link found =>
      apply Descends.settle
      exact descends_modify link.id fun _ => ⟨rfl, rfl⟩
  | connect link found underway permitted =>
      apply Descends.settle
      exact descends_modify link.id fun _ => ⟨rfl, rfl⟩
  | retire link found up => exact descends_modify link.id fun _ => ⟨rfl, rfl⟩
  | drop link found reason permitted => exact descends_filter rfl
  | bind link found settled key free => exact descends_modify link.id fun _ => ⟨rfl, rfl⟩
  | present link found up => exact descends_same (present_links s link)
  | discharge link found reason rest due permitted => exact descends_filter rfl
  | schedule | lose | request | pass | forget | join | answer | finish | resolve | unresolve
  | retry | rename => exact descends_same rfl

/-- A link that is no newcomer was there when the moves began. -/
theorem Moves.descends (moves : Moves P s t) {link : PeerLink} (held : link ∈ t.links)
    (old : link.id ≤ s.lastId) : ∃ before ∈ s.links, before.handle = link.handle ∧
      before.isCarrierBacked = link.isCarrierBacked := by
  induction moves generalizing link with
  | refl => exact ⟨link, held, rfl, rfl⟩
  | tail before move ih =>
      rcases move.descends link held with isNew | ⟨middle, stood, isHandle, carrier⟩
      · rw [isNew] at old
        exact absurd (old.trans (Moves.lastId_le before)) (Nat.not_succ_le_self _)
      · have id : middle.id = link.id := congrArg LinkHandle.id isHandle
        obtain ⟨first, there, same, transport⟩ := ih stood (id ▸ old)
        exact ⟨first, there, same.trans isHandle, transport.trans carrier⟩

/-- What was dropped stays on record. -/
theorem Move.drops_subset (move : Move P s t) : s.drops ⊆ t.drops := by
  cases move with
  | fail link found => rcases link.establishCb with _ | (_ | _ | _) <;> exact List.Subset.refl _
  | connect link found underway permitted =>
      rcases link.establishCb with _ | (_ | _ | _) <;> exact List.Subset.refl _
  | present link found up =>
      unfold LinkPlane.present
      split <;> exact List.Subset.refl _
  | drop | discharge => exact List.subset_append_left _ _
  | enter | name | report | retire | bind | schedule | lose | request | pass | forget | join | answer
  | finish | resolve | unresolve | retry | rename => exact List.Subset.refl _

end Origins

section Departures

variable {handle : LinkHandle} {good : LinkDropReason → Prop}

/-- The link was dropped, for a reason that is good. -/
structure Gone (s : LinkPlane) (handle : LinkHandle) (good : LinkDropReason → Prop) : Prop where
  old : handle.id ≤ s.lastId
  absent : ∀ link ∈ s.links, link.id ≠ handle.id
  dropped : ∃ drop ∈ s.drops, drop.1.handle = handle ∧ good drop.2

/-- The link is there, and the drop that is pending for it first has a good reason. -/
structure Doomed (s : LinkPlane) (handle : LinkHandle) (good : LinkDropReason → Prop) : Prop where
  present : ∃ link ∈ s.links, link.handle = handle
  pending : ∃ reason, (s.pendingDrops.find? fun drop => drop.1 == handle) = some (handle, reason) ∧
    good reason

/-- The link goes for a good reason or for none. -/
def spared (handle : LinkHandle) (good : LinkDropReason → Prop) : Permits where
  drop link reason := link.handle = handle → good reason
  forget s := s.links = []

theorem Move.gone (move : Move P s t) (gone : s.Gone handle good) : t.Gone handle good := by
  refine ⟨gone.old.trans move.lastId_le, ?_, ?_⟩
  · intro link held same
    rcases move.descends link held with isNew | ⟨before, stood, isHandle, _⟩
    · have bound := gone.old
      rw [← same, isNew] at bound
      exact absurd bound (Nat.not_succ_le_self _)
    · exact gone.absent before stood ((congrArg LinkHandle.id isHandle).trans same)
  · obtain ⟨drop, held, facts⟩ := gone.dropped
    exact ⟨drop, move.drops_subset held, facts⟩

theorem Moves.gone (moves : Moves P s t) (gone : s.Gone handle good) : t.Gone handle good := by
  induction moves with
  | refl => exact gone
  | tail _ move ih => exact move.gone ih

/-- A link of the handle goes. -/
theorem gone_of_erase (sound : s.Sound) {link : PeerLink} (found : link ∈ s.links)
    {reason : LinkDropReason} (isGood : good reason) : (s.erase link reason).Gone link.handle good where
  old := sound.numbered link found
  absent := by
    intro other held
    show other.id ≠ link.id
    simpa using (List.mem_filter.mp held).2
  dropped := ⟨(link, reason), List.mem_append_right _ (List.mem_singleton.mpr rfl), rfl, isGood⟩

/-- A link of another handle goes. -/
theorem stays_of_erase (sound : s.Sound) {link : PeerLink} (found : link ∈ s.links)
    (reason : LinkDropReason) (apart : link.handle ≠ handle)
    (present : ∃ other ∈ s.links, other.handle = handle) :
    ∃ other ∈ (s.erase link reason).links, other.handle = handle := by
  obtain ⟨other, held, same⟩ := present
  refine ⟨other, List.mem_filter.mpr ⟨held, ?_⟩, same⟩
  have differs : other.id ≠ link.id := by
    intro isLink
    rw [sound.same held found isLink] at same
    exact apart same
  simpa using differs

theorem Doomed.modify (doomed : s.Doomed handle good) (id : LinkId) {change : PeerLink → PeerLink}
    (keeps : ∀ link, (change link).handle = link.handle) :
    (s.modify id change).Doomed handle good := by
  obtain ⟨⟨link, held, same⟩, pending⟩ := doomed
  refine ⟨exists_modify held (fun _ => ?_) (fun _ => same), pending⟩
  rw [keeps]
  exact same

theorem Doomed.settle (doomed : s.Doomed handle good) (cb : Option Establish) :
    (s.settle cb).Doomed handle good := by
  rcases cb with _ | (_ | _ | _) <;> exact ⟨doomed.present, doomed.pending⟩

/-- Drops that are pending later change nothing for the one that comes first. -/
theorem Doomed.schedule (doomed : s.Doomed handle good) (other : LinkHandle)
    (reason : LinkDropReason) : (s.schedule other reason).Doomed handle good := by
  obtain ⟨first, pending, isGood⟩ := doomed.pending
  refine ⟨doomed.present, first, ?_, isGood⟩
  show List.find? _ (s.pendingDrops ++ _) = _
  rw [List.find?_append, pending, Option.some_or]

theorem Move.doomed (move : Move (spared handle good) s t) (sound : s.Sound)
    (doomed : s.Doomed handle good) : t.Gone handle good ∨ t.Doomed handle good := by
  cases move with
  | enter link fresh coherent underway =>
      obtain ⟨⟨other, held, same⟩, pending⟩ := doomed
      exact .inr ⟨⟨other, List.mem_append_left _ held, same⟩, pending⟩
  | name link found underway peer => exact .inr (doomed.modify link.id fun _ => rfl)
  | report link found closed permitted => exact .inr (doomed.modify link.id fun _ => rfl)
  | fail link found =>
      right
      apply Doomed.settle
      exact doomed.modify link.id fun _ => rfl
  | connect link found underway permitted =>
      right
      apply Doomed.settle
      exact doomed.modify link.id fun _ => rfl
  | retire link found up => exact .inr (doomed.modify link.id fun _ => rfl)
  | drop link found reason permitted =>
      by_cases this : link.handle = handle
      · left
        rw [← this]
        exact gone_of_erase sound found (permitted this)
      · exact .inr ⟨stays_of_erase sound found reason this doomed.present, doomed.pending⟩
  | bind link found settled key free =>
      have moved : (s.modify link.id fun link => { link with peerKey := key }).Doomed handle good :=
        doomed.modify link.id fun _ => rfl
      exact .inr ⟨moved.present, moved.pending⟩
  | present link found up =>
      right
      unfold LinkPlane.present
      split <;> exact ⟨doomed.present, doomed.pending⟩
  | schedule other reason plain => exact .inr (doomed.schedule other reason)
  | lose other permitted => exact .inr (doomed.schedule other _)
  | request other permitted => exact .inr (doomed.schedule other _)
  | pass other reason rest due gone =>
      obtain ⟨⟨link, held, same⟩, first, pending, isGood⟩ := doomed
      have apart : other ≠ handle := fun this => gone link held (same.trans this.symm)
      rw [due, List.find?_cons_of_neg (by simpa using apart)] at pending
      exact .inr ⟨⟨link, held, same⟩, first, pending, isGood⟩
  | discharge link found reason rest due permitted =>
      obtain ⟨first, pending, isGood⟩ := doomed.pending
      rw [due] at pending
      by_cases this : link.handle = handle
      · left
        rw [List.find?_cons_of_pos (by simpa using this)] at pending
        cases pending
        obtain ⟨old, absent, dropped⟩ := gone_of_erase sound found isGood
        exact ⟨old, absent, dropped⟩
      · rw [List.find?_cons_of_neg (by simpa using this)] at pending
        exact .inr ⟨stays_of_erase sound found reason this doomed.present, first, pending, isGood⟩
  | forget permitted =>
      obtain ⟨link, held, _⟩ := doomed.present
      rw [show s.links = [] from permitted] at held
      cases held
  | join | answer | finish | resolve | unresolve | retry | rename =>
      exact .inr ⟨doomed.present, doomed.pending⟩

theorem Moves.goes (moves : Moves (spared handle good) s t) (sound : s.Sound)
    (goes : s.Gone handle good ∨ s.Doomed handle good) :
    t.Gone handle good ∨ t.Doomed handle good := by
  induction moves with
  | refl => exact goes
  | tail before move ih =>
      rcases ih with gone | doomed
      · exact .inl (move.gone gone)
      · exact move.doomed (Moves.sound before sound) doomed

end Departures

section Reasons

/-- Losers and what the product asked for, and no others, are dropped for being so. -/
def aimed (lost asked : List LinkHandle) : Permits where
  drop _ reason := reason ≠ .dualDialLost ∧ reason ≠ .requested
  lose handle := handle ∈ lost
  request handle := handle ∈ asked

/-- Every drop, made or pending, has who it is for. -/
structure Aimed (s : LinkPlane) (lost asked : List LinkHandle) : Prop where
  pending : ∀ drop ∈ s.pendingDrops, (drop.2 = .dualDialLost → drop.1 ∈ lost) ∧
    (drop.2 = .requested → drop.1 ∈ asked)
  dropped : ∀ drop ∈ s.drops, (drop.2 = .dualDialLost → drop.1.handle ∈ lost) ∧
    (drop.2 = .requested → drop.1.isCarrierBacked = false)
  known : ∀ handle ∈ asked, handle.id ≤ s.lastId
  adp : ∀ link ∈ s.links, link.handle ∈ asked → link.isCarrierBacked = false

variable {lost asked : List LinkHandle}

theorem aimed_schedule {handle : LinkHandle} {reason : LinkDropReason} (holds : s.Aimed lost asked)
    (why : (reason = .dualDialLost → handle ∈ lost) ∧ (reason = .requested → handle ∈ asked)) :
    ∀ drop ∈ (s.schedule handle reason).pendingDrops, (drop.2 = .dualDialLost → drop.1 ∈ lost) ∧
      (drop.2 = .requested → drop.1 ∈ asked) := by
  intro drop held
  rcases List.mem_append.mp held with old | isNew
  · exact holds.pending drop old
  · rw [List.mem_singleton.mp isNew]
    exact why

theorem Move.pendingAimed (move : Move (aimed lost asked) s t) (holds : s.Aimed lost asked) :
    ∀ drop ∈ t.pendingDrops, (drop.2 = .dualDialLost → drop.1 ∈ lost) ∧
      (drop.2 = .requested → drop.1 ∈ asked) := by
  cases move with
  | schedule handle reason plain =>
      exact aimed_schedule holds ⟨fun lost => absurd lost plain.1, fun asked => absurd asked plain.2⟩
  | lose handle permitted =>
      exact aimed_schedule holds ⟨fun _ => permitted, fun asked => LinkDropReason.noConfusion asked⟩
  | request handle permitted =>
      exact aimed_schedule holds ⟨fun lost => LinkDropReason.noConfusion lost, fun _ => permitted⟩
  | pass handle reason rest due gone =>
      exact fun drop held => holds.pending drop (due ▸ List.mem_cons_of_mem _ held)
  | discharge link found reason rest due permitted =>
      exact fun drop held => holds.pending drop (due ▸ List.mem_cons_of_mem _ held)
  | forget permitted => exact fun _ absent => absurd absent List.not_mem_nil
  | fail link found => rcases link.establishCb with _ | (_ | _ | _) <;> exact holds.pending
  | connect link found underway permitted =>
      rcases link.establishCb with _ | (_ | _ | _) <;> exact holds.pending
  | present link found up =>
      unfold LinkPlane.present
      split <;> exact holds.pending
  | enter | name | report | retire | drop | bind | join | answer | finish | resolve | unresolve
  | retry | rename => exact holds.pending

theorem Move.droppedAimed (move : Move (aimed lost asked) s t) (holds : s.Aimed lost asked) :
    ∀ drop ∈ t.drops, (drop.2 = .dualDialLost → drop.1.handle ∈ lost) ∧
      (drop.2 = .requested → drop.1.isCarrierBacked = false) := by
  cases move with
  | drop link found reason permitted =>
      intro drop held
      rcases List.mem_append.mp held with old | isNew
      · exact holds.dropped drop old
      · rw [List.mem_singleton.mp isNew]
        exact ⟨fun lost => absurd lost permitted.1, fun asked => absurd asked permitted.2⟩
  | discharge link found reason rest due permitted =>
      intro drop held
      rcases List.mem_append.mp held with old | isNew
      · exact holds.dropped drop old
      · rw [List.mem_singleton.mp isNew]
        obtain ⟨lost, asked⟩ := holds.pending (link.handle, reason) (due ▸ List.mem_cons_self)
        exact ⟨lost, fun isAsked => holds.adp link found (asked isAsked)⟩
  | fail link found => rcases link.establishCb with _ | (_ | _ | _) <;> exact holds.dropped
  | connect link found underway permitted =>
      rcases link.establishCb with _ | (_ | _ | _) <;> exact holds.dropped
  | present link found up =>
      unfold LinkPlane.present
      split <;> exact holds.dropped
  | enter | name | report | retire | bind | schedule | lose | request | pass | forget | join | answer
  | finish | resolve | unresolve | retry | rename => exact holds.dropped

theorem Move.aimed (move : Move (aimed lost asked) s t) (holds : s.Aimed lost asked) :
    t.Aimed lost asked where
  pending := move.pendingAimed holds
  dropped := move.droppedAimed holds
  known := fun handle isAsked => (holds.known handle isAsked).trans move.lastId_le
  adp := by
    intro link held isAsked
    rcases move.descends link held with isNew | ⟨before, stood, isHandle, carrier⟩
    · have bound : link.id ≤ s.lastId := holds.known link.handle isAsked
      rw [isNew] at bound
      exact absurd bound (Nat.not_succ_le_self _)
    · rw [← carrier]
      exact holds.adp before stood (isHandle ▸ isAsked)

theorem Moves.aimed (moves : Moves (aimed lost asked) s t) (holds : s.Aimed lost asked) :
    t.Aimed lost asked := by
  induction moves with
  | refl => exact holds
  | tail _ move ih => exact move.aimed ih

end Reasons

end LinkPlane

namespace PeerLinkManager

open LinkPlane (spared aimed)

section Conditions

variable (m : PeerLinkManager)

/-- The link of a peer that a call demotes as the loser of an election. -/
def demoted (event : Event) : Option PeerLink :=
  (m.arrival event).bind fun arrived => (arrived.1.rival arrived.2).filter fun existing =>
    elect existing arrived.2 arrived.1.localPeerId == .candidate

/-- The link that loses an election in a call, be it the one there was or the newcomer. -/
def losers (event : Event) : List LinkHandle :=
  ((m.arrival event).bind fun arrived => (arrived.1.rival arrived.2).map fun existing =>
    match elect existing arrived.2 arrived.1.localPeerId with
    | .existing => arrived.2.handle
    | .candidate => existing.handle).toList

/-- The links a `RequestDropLink` resolves, carriers left out. -/
def askedFor : Event → List LinkHandle
  | .requestDropLink key => (m.requestedLinks key).map PeerLink.handle
  | _ => []

end Conditions

/-- A manager with the links that its calls have demoted. -/
structure DemotionRun where
  manager : PeerLinkManager
  /-- Trace: the links that were there, were demoted as losers and were to be dropped. -/
  demoted : List LinkHandle := []

namespace DemotionRun

section Aims

variable (this : DemotionRun)

/-- The link was demoted, and waits for a Tick to be dropped as a loser. -/
def PendingLoser (link : PeerLink) : Prop :=
  link.handle ∈ this.demoted ∧ (link.handle, .dualDialLost) ∈ this.manager.pendingDrops

instance (link : PeerLink) : Decidable (this.PendingLoser link) := inferInstanceAs (Decidable (_ ∧ _))

/-- Where a drop goes through a dial key, the key names the link that is meant, with no
other drop of a loser pending before; and no demoted link goes otherwise before its Tick. -/
def AimsWell : Event → Prop
  | .ensureAssociation key _ =>
      (∀ existing ∈ this.manager.connectedAdp key, existing.peerKey ≠ key →
        this.manager.displaces existing.id key = true →
        ∀ occupant ∈ this.manager.table.findByDialKey key, ¬ this.PendingLoser occupant) ∧
      ((this.manager.table.findByDialKey key).any PeerLink.connected = false →
        this.manager.connectedAdp key = none → key ∉ this.manager.resolving →
        ∀ existing ∈ this.manager.findAdpLinkForKey key, existing.underway = false →
          existing.connected = false → ¬ this.PendingLoser existing)
  | .requestDropLink key => ∀ link ∈ this.manager.requestedLinks key,
      this.manager.table.byDialKey link.peerKey = some link.id
  | .closeAllLinks => ∀ link ∈ this.manager.table.links, ¬ this.PendingLoser link
  | .handshake id result => ∀ existing ∈ this.manager.demoted (.handshake id result),
      this.manager.table.byDialKey existing.peerKey = some existing.id ∧
      ∀ drop ∈ this.manager.pendingDrops, drop.1 ≠ existing.handle
  | _ => True

instance : (event : Event) → Decidable (this.AimsWell event)
  | .ensureAssociation _ _ => inferInstanceAs (Decidable (_ ∧ _))
  | .requestDropLink _ => inferInstanceAs (Decidable (∀ link ∈ _, _))
  | .closeAllLinks => inferInstanceAs (Decidable (∀ link ∈ _, _))
  | .handshake _ _ => inferInstanceAs (Decidable (∀ existing ∈ _, _))
  | .abortInflightDial _ | .establishNested _ _ _ _ | .inboundCarrierChannel _ _
  | .inboundConnection _ | .carrierClosed _ _ | .carrierFrameError _ _ | .hostResolved _ _ _
  | .registerEndpoint _ _ | .registerEndpoints _ _ | .unregisterEndpoint _ | .ingestRemoteAddrs _ _
  | .clearDialBackoff _ | .networkChanged | .verifyLink _ _ | .tick | .setHostResolver _
  | .enableNestedCarrierAccept _ | .linkState _ _ | .surroundings _ | .rehash _ _ =>
      inferInstanceAs (Decidable True)

end Aims

variable [MultiaddrParser]

def step (this : DemotionRun) (event : Event) : DemotionRun where
  manager := this.manager.step event
  demoted := this.demoted ++ ((this.manager.demoted event).map PeerLink.handle).toList

theorem exec_manager (events : List Event) : ∀ this : DemotionRun,
    (Run.exec step this events).manager = Run.exec PeerLinkManager.step this.manager events := by
  induction events with
  | nil => exact fun _ => rfl
  | cons event rest ih => exact fun this => ih (this.step event)

end DemotionRun

section Requests

variable {m : PeerLinkManager} {hand : InHand}

theorem findByPeerId_mem {peer : String} {link : PeerLink}
    (found : m.table.findByPeerId peer = some link) : link ∈ m.table.links := by
  have picked {id : Option LinkId} (pick : m.table.pick id = some link) : link ∈ m.table.links := by
    obtain ⟨entry, _⟩ := Option.filter_eq_some_iff.mp pick
    obtain ⟨_, _, byId⟩ := Option.bind_eq_some_iff.mp entry
    exact (findById_some byId).1
  unfold LinkTable.findByPeerId at found
  split at found
  · cases found
  · rcases Option.or_eq_some_iff.mp found with first | ⟨_, later⟩
    · exact picked first
    · rcases Option.or_eq_some_iff.mp later with second | ⟨_, walked⟩
      · exact picked second
      · exact (m.table.order.perm _).mem_iff.mp (List.mem_of_find?_eq_some walked)

theorem requestedLinks_mem {key : String} {link : PeerLink} (asked : link ∈ m.requestedLinks key) :
    link ∈ m.table.links ∧ link.isCarrierBacked = false := by
  obtain ⟨resolved, adp⟩ := List.mem_filter.mp asked
  refine ⟨?_, by simpa using adp⟩
  have either : m.findLink key = some link ∨ m.table.findByPeerId key = some link := by
    simpa [List.reduceOption_mem_iff, eq_comm] using resolved
  rcases either with found | found
  · rcases Option.or_eq_some_iff.mp found with named | ⟨_, known⟩
    · exact (findById_some (findByDialKey_some named).2).1
    · exact findByPeerId_mem known
  · exact findByPeerId_mem found

/-- A link that the index names under its own key is what the key leads to. -/
theorem findByDialKey_own (sound : (m.plane hand).Sound) {link : PeerLink}
    (held : link ∈ m.table.links) (own : m.table.byDialKey link.peerKey = some link.id) :
    m.table.findByDialKey link.peerKey = some link :=
  Option.bind_eq_some_iff.mpr ⟨link.id, own, findById_of_mem sound held⟩

theorem foldl_scheduleDropKey (keys : List DialKey) : ∀ m : PeerLinkManager,
    let after := keys.foldl (fun m key => m.scheduleDropKey key .requested) m
    after.table = m.table ∧ m.pendingDrops ⊆ after.pendingDrops ∧
      ∀ key ∈ keys, ∀ holder, m.table.findByDialKey key = some holder →
        (holder.handle, .requested) ∈ after.pendingDrops := by
  induction keys with
  | nil => exact fun _ => ⟨rfl, List.Subset.refl _, fun _ absent => absurd absent List.not_mem_nil⟩
  | cons first rest ih =>
      intro m
      have table : (m.scheduleDropKey first .requested).table = m.table := by
        unfold scheduleDropKey
        split <;> rfl
      have kept : m.pendingDrops ⊆ (m.scheduleDropKey first .requested).pendingDrops := by
        unfold scheduleDropKey
        split
        · exact List.Subset.refl _
        · exact List.subset_append_left _ _
      obtain ⟨sameTable, grows, named⟩ := ih (m.scheduleDropKey first .requested)
      refine ⟨sameTable.trans table, List.Subset.trans kept grows, ?_⟩
      intro key isKey holder holds
      rcases List.mem_cons.mp isKey with rfl | later
      · apply grows
        unfold scheduleDropKey
        rw [holds]
        exact List.mem_append_right _ (List.mem_singleton.mpr rfl)
      · exact named key later holder (by rw [table]; exact holds)

/-- What the product asks for is pending with the call. -/
theorem requestDropLink_doomed (sound : (m.plane hand).Sound) {key : String} {link : PeerLink}
    (asked : link ∈ m.requestedLinks key) (own : m.table.byDialKey link.peerKey = some link.id) :
    ((m.requestDropLink key).plane hand).Doomed link.handle fun _ => True := by
  obtain ⟨held, _⟩ := requestedLinks_mem asked
  obtain ⟨table, _, named⟩ := foldl_scheduleDropKey ((m.requestedLinks key).map PeerLink.peerKey).dedup m
  have pending : (link.handle, .requested) ∈ (m.requestDropLink key).pendingDrops :=
    named link.peerKey (List.mem_dedup.mpr (List.mem_map_of_mem asked)) link
      (findByDialKey_own sound held own)
  refine ⟨⟨link.plain, mem_plane hand ?_, rfl⟩, ?_⟩
  · rw [show (m.requestDropLink key).table = m.table from table]
    exact held
  · have some : (((m.requestDropLink key).plane hand).pendingDrops.find?
        fun drop => drop.1 == link.handle).isSome = true := by
      rw [List.find?_isSome]
      exact ⟨_, List.mem_append_right _ pending, beq_self_eq_true _⟩
    obtain ⟨drop, found⟩ := Option.isSome_iff_exists.mp some
    have isHandle : drop.1 = link.handle := by simpa using List.find?_some found
    exact ⟨drop.2, by rw [found, ← isHandle], trivial⟩

end Requests

section Elections

variable {m : PeerLinkManager} {hand : InHand}

/-- The loser that the key names is pending with its demotion. -/
theorem demote_doomed (sound : (m.plane hand).Sound) (inHand : hand.drops = [])
    {link existing : PeerLink} (against : m.rival link = some existing)
    (own : m.table.byDialKey existing.peerKey = some existing.id)
    (first : ∀ drop ∈ m.pendingDrops, drop.1 ≠ existing.handle) :
    (((m.raised link).demote existing).plane hand).Doomed existing.handle (· = .dualDialLost) := by
  obtain ⟨held, apart, _⟩ := rival_some against
  let raised := (m.raised link).modifyLink existing.id PeerLink.demoteForScheduledDrop
  have byId : raised.table.findById existing.id = some existing.demoteForScheduledDrop := by
    have before : (m.raised link).table.findById existing.id = some existing := by
      unfold PeerLinkManager.raised
      rw [findById_modifyLink apart (by intro _ _; rfl)]
      exact findById_of_mem sound held
    have put : raised.table.findById existing.id = ((m.raised link).table.findById existing.id).map
        fun link => if link.id = existing.id then link.demoteForScheduledDrop else link := by
      show List.find? _ (List.map _ _) = _
      rw [List.find?_map]
      congr 2
      funext link
      by_cases this : link.id = existing.id <;> simp [this, PeerLink.demoteForScheduledDrop]
    rw [put, before, Option.map_some, if_pos rfl]
  have named : raised.table.findByDialKey existing.peerKey = some existing.demoteForScheduledDrop :=
    Option.bind_eq_some_iff.mpr ⟨existing.id, own, byId⟩
  have pending : ((m.raised link).demote existing).pendingDrops =
      m.pendingDrops ++ [(existing.handle, .dualDialLost)] := by
    show (raised.scheduleDropKey existing.peerKey .dualDialLost).pendingDrops = _
    unfold scheduleDropKey
    rw [named]
    rfl
  refine ⟨⟨existing.demoteForScheduledDrop.plain, mem_plane hand ?_, rfl⟩, .dualDialLost, ?_, rfl⟩
  · rw [demote_links]
    exact (findById_some byId).1
  · show List.find? _ (hand.drops ++ _) = _
    rw [inHand, pending, List.nil_append, List.find?_append]
    have none : (m.pendingDrops.find? fun drop => drop.1 == existing.handle) = none := by
      rw [List.find?_eq_none]
      intro drop isDrop
      simpa using first drop isDrop
    rw [none, Option.none_or]
    simp

theorem firing_drops (cb : Option Establish) : (InHand.firing {} cb).drops = [] := by
  rcases cb with _ | (_ | _ | _) <;> rfl

theorem demoted_some {event : Event} {existing : PeerLink} (lost : m.demoted event = some existing) :
    ∃ named link, m.arrival event = some (named, link) ∧ named.rival link = some existing ∧
      elect existing link named.localPeerId = .candidate := by
  obtain ⟨⟨named, link⟩, arrived, chosen⟩ := Option.bind_eq_some_iff.mp lost
  obtain ⟨against, won⟩ := Option.filter_eq_some_iff.mp chosen
  exact ⟨named, link, arrived, against, by simpa using won⟩

/-- A link that arrives is one row of moves away from its election. -/
theorem arrival_leads {event : Event} {named : PeerLinkManager} {link : PeerLink}
    (arrived : m.arrival event = some (named, link)) :
    Leads {} m {} named {} ∧ named.table.findById link.id = some link ∧
      link.phase = .handshaking := by
  obtain ⟨before, found, underway, same, rfl⟩ := arrival_some arrived
  have id : before.id = link.id := (findById_some found).2
  rw [← id] at found ⊢
  have phase : link.phase = .handshaking := by
    rw [same]
    exact underway
  refine ⟨?_, findById_replaced found id.symm, phase⟩
  have naming : Leads {} m {} (m.modifyLink before.id fun _ =>
      { before with remotePeerId := link.remotePeerId }) {} := named_leads found underway _
  rw [← same] at naming
  exact naming

variable [MultiaddrParser]

theorem arrival_step {event : Event} {named : PeerLinkManager} {link : PeerLink}
    (arrived : m.arrival event = some (named, link)) : m.step event = named.establish link := by
  unfold arrival at arrived
  split at arrived
  · rename_i id identity
    obtain ⟨before, found, underway, rfl, rfl⟩ := authenticated_some arrived
    let expected := if before.outbound && !before.isCarrierBacked then before.remotePeerId else ""
    have fits : ¬ (expected ≠ "" ∧ m.authenticatedPeerId before identity ≠ expected) := by
      intro wrong
      have none : m.authenticated id identity = none := by
        unfold authenticated
        rw [found]
        exact (if_neg (not_not.mpr underway)).trans (if_pos wrong)
      rw [none] at arrived
      cases arrived
    show m.onHandshakeComplete id (.established identity (.ok ())) = _
    unfold onHandshakeComplete
    rw [found]
    exact (if_neg (not_not.mpr underway)).trans (if_neg fits)
  · cases arrived

/-- A loser whose key names it is on its way out when its election is over. -/
theorem demoted_doomed (sound : (m.plane {}).Sound) {event : Event} {existing : PeerLink}
    (lost : m.demoted event = some existing)
    (own : m.table.byDialKey existing.peerKey = some existing.id)
    (first : ∀ drop ∈ m.pendingDrops, drop.1 ≠ existing.handle) :
    ((m.step event).plane {}).Gone existing.handle (· = .dualDialLost) ∨
      ((m.step event).plane {}).Doomed existing.handle (· = .dualDialLost) := by
  obtain ⟨named, link, arrived, against, won⟩ := demoted_some lost
  obtain ⟨naming, found, underway⟩ := arrival_leads arrived
  obtain ⟨_, _, _, _, same⟩ := arrival_some arrived
  have steady := (naming sound).sound sound
  have shown := mem_plane {} (findById_some found).1
  have coherent : link.Coherent := steady.coherent link.plain shown
  have numbered : link.id ≤ named.table.nextId := steady.numbered link.plain shown
  have steps : Leads {} named {} ((named.raised link).demote existing)
      (InHand.firing {} link.establishCb) :=
    demote_leads found underway against trivial fun _ _ => trivial
  have doomed : (((named.raised link).demote existing).plane (InHand.firing {} link.establishCb)).Doomed
      existing.handle (· = .dualDialLost) := by
    have settled : (named.plane (InHand.firing {} link.establishCb)).Sound := by
      rw [← plane_settle]
      exact steady.settle _
    refine demote_doomed settled (firing_drops _) against ?_ ?_
    · rw [same]
      exact own
    · rw [same]
      exact first
  rw [arrival_step arrived]
  rcases establish_cases named link with ⟨none, _⟩ | ⟨other, again, beaten, _⟩ | ⟨other, again, _, ends⟩
  · rw [none] at against
    cases against
  · rw [against] at again
    cases again
    rw [won] at beaten
    cases beaten
  · rw [against] at again
    cases again
    rw [ends]
    have rest : Leads (spared existing.handle (· = .dualDialLost)) _ (InHand.firing {} link.establishCb)
        _ {} := elected_leads found (fun _ _ => trivial) coherent
      (numbered.trans (steps steady).lastId_le) (rival_some against).2.1
    exact (rest ((steps steady).sound steady)).goes ((steps steady).sound steady) (.inr doomed)

end Elections

section Steps

variable {m : PeerLinkManager} {this : DemotionRun} {handle : LinkHandle}
  {good : LinkDropReason → Prop}

/-- A link that goes has a drop pending for a good reason, as long as it is there. -/
theorem pending_of_goes
    (goes : (m.plane {}).Gone handle good ∨ (m.plane {}).Doomed handle good) {link : PeerLink}
    (held : link ∈ m.table.links) (isHandle : link.handle = handle) :
    ∃ reason, (handle, reason) ∈ m.pendingDrops ∧ good reason := by
  rcases goes with gone | doomed
  · exact absurd (congrArg LinkHandle.id isHandle) (gone.absent link.plain (mem_plane {} held))
  · obtain ⟨reason, pending, isGood⟩ := doomed.pending
    exact ⟨reason, List.mem_of_find?_eq_some pending, isGood⟩

theorem evictReason_plain {link : PeerLink} {reason : LinkDropReason}
    (why : m.evictReason link = some reason) : reason ≠ .dualDialLost ∧ reason ≠ .requested := by
  unfold evictReason at why
  dsimp only at why
  split_ifs at why <;> cases why <;> exact ⟨LinkDropReason.noConfusion, LinkDropReason.noConfusion⟩

theorem dropPending_done : m.dropPending.pendingDrops = [] :=
  dropEach_pending m.pendingDrops { m with pendingDrops := [] }

variable [MultiaddrParser]

/-- Before its Tick, a link on its way out goes for a good reason or stays. -/
theorem grants_spared {event : Event} (well : this.AimsWell event) (notTick : event ≠ .tick)
    (spares : ∀ link ∈ this.manager.table.links, link.handle = handle → ¬ this.PendingLoser link →
      ∀ reason, good reason) : Grants (spared handle good) this.manager event := by
  cases event with
  | ensureAssociation key cb =>
      refine ⟨fun _ _ => trivial, fun _ => trivial, ?_, fun _ _ _ _ => trivial, ?_⟩
      · intro existing occupant found other holds displaces isHandle
        exact spares occupant (findById_some (findByDialKey_some holds).2).1 isHandle
          (well.1 existing found other displaces occupant holds) _
      · intro free absent settled existing found quiet down isHandle
        exact spares existing (findLinkForKey_mem found) isHandle
          (well.2 free absent settled existing found quiet down) _
  | requestDropLink key => exact fun _ _ _ _ => trivial
  | closeAllLinks =>
      exact ⟨fun link held isHandle => spares link held isHandle (well link held) _, fun _ none => none⟩
  | handshake id result =>
      exact fun _ _ _ _ _ => ⟨fun _ _ => trivial, fun _ => trivial,
        fun _ _ _ => ⟨trivial, fun _ _ => trivial⟩, fun _ _ _ => ⟨trivial, fun _ _ => trivial⟩⟩
  | hostResolved key multiaddr result => exact ⟨fun _ _ => trivial, fun _ _ => trivial⟩
  | tick => exact absurd rfl notTick
  | inboundConnection assoc => exact fun _ _ => trivial
  | linkState id state => exact fun _ _ _ _ => .inr trivial
  | _ => exact trivial

theorem step_goes (sound : (this.manager.plane {}).Sound) {event : Event}
    (well : this.AimsWell event) (notTick : event ≠ .tick)
    (known : handle ∈ this.demoted ∧ good = (· = .dualDialLost) ∨ ∀ reason, good reason)
    (goes : (this.manager.plane {}).Gone handle good ∨ (this.manager.plane {}).Doomed handle good) :
    ((this.manager.step event).plane {}).Gone handle good ∨
      ((this.manager.step event).plane {}).Doomed handle good := by
  have before := sound_inHand sound event
  have spares : ∀ link ∈ this.manager.table.links, link.handle = handle → ¬ this.PendingLoser link →
      ∀ reason, good reason := by
    intro link held isHandle spared
    rcases known with ⟨demoted, rfl⟩ | any
    · obtain ⟨reason, pending, rfl⟩ := pending_of_goes goes held isHandle
      rw [← isHandle] at demoted pending
      exact absurd ⟨demoted, pending⟩ spared
    · exact any
  refine (step_leads (grants_spared well notTick spares) before).goes before ?_
  rw [plane_inHand]
  rcases goes with gone | doomed
  · exact .inl ⟨gone.old, gone.absent, gone.dropped⟩
  · exact .inr ⟨doomed.present, doomed.pending⟩

/-- A Tick makes good on every drop that is pending. -/
theorem tick_gone (sound : (m.plane {}).Sound)
    (goes : (m.plane {}).Gone handle good ∨ (m.plane {}).Doomed handle good) :
    (m.tick.plane {}).Gone handle good := by
  have drops : Leads (spared handle good) m {} m.dropPending {} :=
    dropPending_leads fun _ _ _ _ _ => trivial
  have rest : Leads {} m.dropPending {} m.tick {} :=
    (retryPending_leads (Run.meets_of_forall _ _ (fun _ _ _ _ => trivial) _ _)).trans
      ((adoptPending_leads (Run.meets_of_forall _ _ (fun _ _ _ _ _ _ _ _ => trivial) _ _)).trans
        (failHandshakes_leads.trans (evict_leads fun _ _ _ _ => trivial)))
  have gone : (m.dropPending.plane {}).Gone handle good := by
    rcases (drops sound).goes sound goes with gone | doomed
    · exact gone
    · obtain ⟨reason, pending, _⟩ := doomed.pending
      have none : (m.dropPending.plane {}).pendingDrops = [] := dropPending_done
      rw [none] at pending
      cases pending
  exact (rest ((drops sound).sound sound)).gone gone

/-- From the call that sets a link on its way out to the next Tick. -/
theorem exec_gone (between : List Event) (quiet : Event.tick ∉ between) :
    ∀ this : DemotionRun, (this.manager.plane {}).Sound →
      Run.Meets DemotionRun.step DemotionRun.AimsWell this between →
      (handle ∈ this.demoted ∧ good = (· = .dualDialLost) ∨ ∀ reason, good reason) →
      (this.manager.plane {}).Gone handle good ∨ (this.manager.plane {}).Doomed handle good →
      ((Run.exec step this.manager (between ++ [.tick])).plane {}).Gone handle good := by
  induction between with
  | nil => exact fun this sound _ _ goes => tick_gone sound goes
  | cons event rest ih =>
      intro this sound met known goes
      rw [List.mem_cons, not_or] at quiet
      refine ih quiet.2 (this.step event) (step_sound sound event) met.2 ?_
        (step_goes sound met.1 (Ne.symm quiet.1) known goes)
      rcases known with ⟨demoted, isLost⟩ | any
      · exact .inl ⟨List.mem_append_left _ demoted, isLost⟩
      · exact .inr any

end Steps

section Targets

variable {m : PeerLinkManager} {lost asked : List LinkHandle}

theorem losers_existing {event : Event} {named : PeerLinkManager} {link existing : PeerLink}
    (arrived : m.arrival event = some (named, link)) (against : named.rival link = some existing)
    (won : elect existing link named.localPeerId = .candidate) : existing.handle ∈ m.losers event := by
  simp [losers, arrived, against, won]

theorem losers_link {event : Event} {named : PeerLinkManager} {link existing : PeerLink}
    (arrived : m.arrival event = some (named, link)) (against : named.rival link = some existing)
    (won : elect existing link named.localPeerId = .existing) : link.handle ∈ m.losers event := by
  simp [losers, arrived, against, won]

/-- What a call asks for joins what was asked. -/
theorem aimed_extend (sound : (m.plane {}).Sound) (holds : (m.plane {}).Aimed lost asked)
    (event : Event) :
    (m.plane {}).Aimed (lost ++ m.losers event) (asked ++ m.askedFor event) := by
  have resolved {handle : LinkHandle} (isNew : handle ∈ m.askedFor event) :
      ∃ link ∈ m.table.links, link.isCarrierBacked = false ∧ link.handle = handle := by
    cases event with
    | requestDropLink key =>
        obtain ⟨link, isAsked, rfl⟩ := List.mem_map.mp isNew
        exact ⟨link, (requestedLinks_mem isAsked).1, (requestedLinks_mem isAsked).2, rfl⟩
    | _ => cases isNew
  refine ⟨?_, ?_, ?_, ?_⟩
  · intro drop held
    obtain ⟨isLost, isAsked⟩ := holds.pending drop held
    exact ⟨fun why => List.mem_append_left _ (isLost why), fun why => List.mem_append_left _ (isAsked why)⟩
  · intro drop held
    obtain ⟨isLost, adp⟩ := holds.dropped drop held
    exact ⟨fun why => List.mem_append_left _ (isLost why), adp⟩
  · intro handle isAsked
    rcases List.mem_append.mp isAsked with old | isNew
    · exact holds.known handle old
    · obtain ⟨link, held, _, rfl⟩ := resolved isNew
      exact sound.numbered link.plain (mem_plane {} held)
  · intro shown mem isAsked
    rcases List.mem_append.mp isAsked with old | isNew
    · exact holds.adp shown mem old
    · obtain ⟨link, held, adp, same⟩ := resolved isNew
      rw [sound.same mem (mem_plane {} held) (congrArg LinkHandle.id same).symm]
      exact adp

variable [MultiaddrParser]

theorem establishes_aimed (sound : (m.plane {}).Sound) {event : Event} {named : PeerLinkManager}
    {link : PeerLink} (arrived : m.arrival event = some (named, link))
    (own : ∀ existing ∈ m.demoted event, m.table.byDialKey existing.peerKey = some existing.id)
    (isLost : m.losers event ⊆ lost) : EstablishesWell (aimed lost asked) named {} link := by
  obtain ⟨naming, _, _⟩ := arrival_leads arrived
  obtain ⟨_, _, _, _, same⟩ := arrival_some arrived
  have steady := (naming sound).sound sound
  refine ⟨fun _ _ => trivial, fun _ => trivial, ?_, ?_⟩
  · intro existing against won
    refine ⟨trivial, ?_⟩
    intro holder holds
    obtain ⟨stood, apart, _⟩ := rival_some against
    have demotes : m.demoted event = some existing := by
      simp [demoted, arrived, against, won]
    have index : (named.raised link).table.byDialKey existing.peerKey = some existing.id := by
      rw [same]
      exact own existing demotes
    obtain ⟨isHolder, found⟩ := findByDialKey_some holds
    rw [index] at isHolder
    have id : existing.id = holder.id := Option.some.inj isHolder
    have held : holder ∈ named.table.links := by
      apply mem_named (findById_some found).1
      exact fun isLink => apart (id.trans isLink)
    have this : existing.plain = holder.plain :=
      steady.same (mem_plane {} stood) (mem_plane {} held) id
    have handle : existing.handle = holder.handle := by simpa using congrArg PeerLink.handle this
    show holder.handle ∈ lost
    rw [← handle]
    exact isLost (losers_existing arrived against won)
  · intro existing against won
    exact ⟨isLost (losers_link arrived against won), fun _ _ => trivial⟩

theorem grants_aimed {this : DemotionRun} (sound : (this.manager.plane {}).Sound) {event : Event}
    (well : this.AimsWell event) (isLost : this.manager.losers event ⊆ lost)
    (isAsked : this.manager.askedFor event ⊆ asked) :
    Grants (aimed lost asked) this.manager event := by
  have displaced : LinkDropReason.displaced ≠ .dualDialLost ∧ LinkDropReason.displaced ≠ .requested :=
    ⟨LinkDropReason.noConfusion, LinkDropReason.noConfusion⟩
  cases event with
  | ensureAssociation key cb =>
      exact ⟨fun _ _ => trivial, fun _ => trivial, fun _ _ _ _ _ _ => displaced,
        fun _ _ _ _ => trivial, fun _ _ _ _ _ _ _ => displaced⟩
  | requestDropLink key =>
      intro link asks holder holds
      have own := findByDialKey_own sound (requestedLinks_mem asks).1 (well link asks)
      rw [own] at holds
      cases holds
      exact isAsked (List.mem_map_of_mem asks)
  | closeAllLinks =>
      exact ⟨fun _ _ => ⟨LinkDropReason.noConfusion, LinkDropReason.noConfusion⟩, fun _ _ => trivial⟩
  | handshake id result =>
      intro identity named link isResult done
      exact establishes_aimed sound (arrival_handshake isResult done)
        (fun existing demotes => (well existing demotes).1) isLost
  | hostResolved key multiaddr result => exact ⟨fun _ _ => trivial, fun _ _ => trivial⟩
  | tick =>
      exact ⟨fun _ _ _ _ _ => trivial, Run.meets_of_forall _ _ (fun _ _ _ _ => trivial) _ _,
        Run.meets_of_forall _ _ (fun _ _ _ _ _ _ _ _ => displaced) _ _,
        fun _ _ _ why => evictReason_plain why⟩
  | inboundConnection assoc => exact fun _ _ => trivial
  | linkState id state => exact fun _ _ _ _ => .inr trivial
  | _ => exact trivial

theorem run_aimed (events : List Event) : ∀ (this : DemotionRun) (lost asked : List LinkHandle),
    (this.manager.plane {}).Sound → (this.manager.plane {}).Aimed lost asked →
    Run.Meets DemotionRun.step DemotionRun.AimsWell this events →
    ((Run.exec step this.manager events).plane {}).Aimed
      (lost ++ Run.collect step losers this.manager events)
      (asked ++ Run.collect step askedFor this.manager events) := by
  induction events with
  | nil =>
      intro this lost asked _ holds _
      rw [Run.collect, Run.collect, List.append_nil, List.append_nil]
      exact holds
  | cons event rest ih =>
      intro this lost asked sound holds met
      have before := sound_inHand sound event
      have moves := step_leads (grants_aimed sound met.1 (List.subset_append_right lost _)
        (List.subset_append_right asked _)) before
      have after := moves.aimed (by
        rw [plane_inHand]
        obtain ⟨pending, dropped, known, adp⟩ := aimed_extend sound holds event
        exact ⟨pending, dropped, known, adp⟩)
      have later := ih (this.step event) _ _ (moves.sound before) after met.2
      rw [List.append_assoc, List.append_assoc] at later
      exact later

end Targets

section Runs

/-- The link is not in the table, and was dropped for such a reason. -/
def Departed (m : PeerLinkManager) (handle : LinkHandle) (good : LinkDropReason → Prop) : Prop :=
  (∃ drop ∈ m.drops, drop.1.handle = handle ∧ good drop.2) ∧
    ∀ link ∈ m.table.links, link.handle ≠ handle

theorem departed_of_gone {m : PeerLinkManager} {handle : LinkHandle} {good : LinkDropReason → Prop}
    (gone : (m.plane {}).Gone handle good) : m.Departed handle good := by
  refine ⟨?_, ?_⟩
  · obtain ⟨shown, mem, facts⟩ := gone.dropped
    obtain ⟨drop, held, rfl⟩ := List.mem_map.mp mem
    exact ⟨drop, held, facts⟩
  · intro link held same
    exact gone.absent link.plain (mem_plane {} held) (congrArg LinkHandle.id same)

variable [MultiaddrParser]

/-- In a run, drops hit the links they were meant for. -/
structure DropsAimed (start : PeerLinkManager) (events : List Event) : Prop where
  /-- A link that is demoted is dropped as the loser it is at the next Tick. -/
  demoted : ∀ before event between after,
    events = before ++ event :: between ++ Event.tick :: after → Event.tick ∉ between →
    ∀ loser ∈ (Run.exec step start before).demoted event,
      (Run.exec step start (before ++ event :: between ++ [.tick])).Departed loser.handle
        (· = .dualDialLost)
  /-- No other link is dropped for one that lost. -/
  lost : ∀ drop ∈ (Run.exec step start events).drops, drop.2 = .dualDialLost →
    drop.1.handle ∈ Run.collect step losers start events
  /-- A link that the product asks for goes by the next Tick. -/
  requested : ∀ before key between after,
    events = before ++ Event.requestDropLink key :: between ++ Event.tick :: after →
    Event.tick ∉ between → ∀ link ∈ (Run.exec step start before).requestedLinks key,
      (Run.exec step start (before ++ Event.requestDropLink key :: between ++ [.tick])).Departed
        link.handle fun _ => True
  /-- The product's requests drop no carrier. -/
  adp : ∀ drop ∈ (Run.exec step start events).drops, drop.2 = .requested →
    drop.1.isCarrierBacked = false

/-- In every run in which a demoted link and each link the product asks for are named by
their own dial keys, no other drop of the loser is pending, and no demoted link is
displaced or shut down before its Tick, drops hit the links they were meant for. -/
theorem drops_aimed (localPeerId : String) (limits : LinkLimits) (events : List Event)
    (met : Run.Meets DemotionRun.step DemotionRun.AimsWell ⟨create localPeerId limits, []⟩ events) :
    DropsAimed (create localPeerId limits) events := by
  have aims := run_aimed events _ [] [] (create_sound localPeerId limits)
    ⟨fun _ absent => absurd absent List.not_mem_nil, fun _ absent => absurd absent List.not_mem_nil,
      fun _ absent => absurd absent List.not_mem_nil, fun _ absent => absurd absent List.not_mem_nil⟩ met
  rw [List.nil_append, List.nil_append] at aims
  have parts {before between after : List Event} {event : Event}
      (isRun : events = before ++ event :: between ++ Event.tick :: after) :
      ∃ this : DemotionRun, this.manager = Run.exec step (create localPeerId limits) before ∧
        this.AimsWell event ∧
        Run.Meets DemotionRun.step DemotionRun.AimsWell (this.step event) between := by
    rw [isRun, Run.meets_append, Run.meets_append] at met
    exact ⟨_, DemotionRun.exec_manager before _, met.1.2⟩
  refine ⟨?_, ?_, ?_, ?_⟩
  · intro before event between after isRun quiet loser isLoser
    have sound := run_sound localPeerId limits before
    obtain ⟨this, isManager, well, later⟩ := parts isRun
    rw [List.append_assoc, Run.exec_append]
    rw [← isManager] at sound isLoser ⊢
    apply departed_of_gone
    refine exec_gone between quiet _ (step_sound sound event) later (.inl ⟨?_, rfl⟩) ?_
    · apply List.mem_append_right
      rw [isLoser]
      exact List.mem_singleton.mpr rfl
    · cases event with
      | handshake id result =>
          obtain ⟨own, first⟩ := well loser isLoser
          exact demoted_doomed sound isLoser own first
      | _ => cases isLoser
  · intro drop held lost
    exact (aims.dropped (drop.1.plain, drop.2) (List.mem_map.mpr ⟨drop, held, rfl⟩)).1 lost
  · intro before key between after isRun quiet link isAsked
    have sound := run_sound localPeerId limits before
    obtain ⟨this, isManager, well, later⟩ := parts isRun
    rw [List.append_assoc, Run.exec_append]
    rw [← isManager] at sound isAsked ⊢
    apply departed_of_gone
    refine exec_gone between quiet _ (step_sound sound _) later (.inr fun _ => trivial) ?_
    exact .inr (requestDropLink_doomed sound isAsked (well link isAsked))
  · intro drop held asked
    exact (aims.dropped (drop.1.plain, drop.2) (List.mem_map.mpr ⟨drop, held, rfl⟩)).2 asked

end Runs

section Samples

attribute [local instance] anyAddress

theorem drops_aimed_sample :
    let events := [meetingBob, .inboundConnection "aa", comesUp 1, .inboundConnection "bb", comesUp 2,
      .tick, .requestDropLink "bob", .tick]
    Run.Meets DemotionRun.step DemotionRun.AimsWell ⟨create "alice" {}, []⟩ events ∧
      DropsAimed (create "alice" {}) events := by
  intro events
  have met : Run.Meets DemotionRun.step DemotionRun.AimsWell ⟨create "alice" {}, []⟩ events := by
    decide +kernel
  exact ⟨met, drops_aimed "alice" {} events met⟩

/-- An ADP link whose key a carrier has taken loses its election, and the carrier goes
for it; and the product asks for the ADP link, and the carrier goes. -/
theorem drops_astray :
    ¬ DropsAimed (create "alice" {})
      [meetingBob, .registerEndpoint "bob" "x", .ensureAssociation "bob" (some 0), comesUp 1,
        .establishNested "bob" none true none, .inboundConnection "bb", comesUp 3, .tick] ∧
    ¬ DropsAimed (create "alice" {})
      [meetingBob, .registerEndpoint "bob" "x", .ensureAssociation "bob" (some 0), comesUp 1,
        .establishNested "bob" none true none, .requestDropLink "bob", .tick] := by
  refine ⟨?_, ?_⟩
  · intro aimed
    have lost := aimed.lost
    revert lost
    decide +kernel
  · intro aimed
    have adp := aimed.adp
    revert adp
    decide +kernel

end Samples

end PeerLinkManager

end Amp
