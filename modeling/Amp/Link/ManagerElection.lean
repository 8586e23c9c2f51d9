import Amp.Link.ManagerMoves

set_option autoImplicit false

/- The rows of moves behind a handshake's end: an authenticated link against the others
of its peer, and what becomes of the loser. -/
namespace Amp.PeerLinkManager

open LinkPlane (Permits Move Moves Sound)

section Establishment

variable {P : Permits} {m : PeerLinkManager} {hand : InHand}

/-- The state in which an authenticated link is weighed against the others. -/
def raised (m : PeerLinkManager) (link : PeerLink) : PeerLinkManager :=
  m.modifyLink link.id fun _ => { link with phase := .connected, establishCb := none }

/-- The link of the same peer and transport that an authenticated one is weighed against. -/
def rival (m : PeerLinkManager) (link : PeerLink) : Option PeerLink :=
  if link.remotePeerId = "" then none
  else ((m.raised link).duplicateOf link).filter fun existing =>
    existing.isCarrierBacked == link.isCarrierBacked

theorem rival_some {link existing : PeerLink} (found : m.rival link = some existing) :
    existing ∈ m.table.links ∧ existing.id ≠ link.id ∧ existing.connected = true ∧
      existing.remotePeerId = link.remotePeerId ∧
      existing.isCarrierBacked = link.isCarrierBacked := by
  unfold rival at found
  split at found
  · cases found
  · obtain ⟨duplicate, transport⟩ := Option.filter_eq_some_iff.mp found
    have held : existing ∈ (m.raised link).table.links :=
      ((m.raised link).table.order.perm _).mem_iff.mp (List.mem_of_find?_eq_some duplicate)
    have fits := List.find?_some duplicate
    simp only [Bool.and_eq_true, bne_iff_ne, ne_eq, beq_iff_eq] at fits transport
    obtain ⟨before, mem, rfl⟩ := List.mem_map.mp held
    by_cases this : before.id = link.id
    · simp [this] at fits
    · rw [if_neg this] at fits transport ⊢
      exact ⟨mem, fits.1.1, fits.1.2, fits.2, transport⟩

/-- A link found by its id, put back changed. -/
theorem plane_replace (sound : (m.plane hand).Sound) {link after : PeerLink}
    (found : m.table.findById link.id = some link) {abstract : PeerLink → PeerLink}
    (agree : after.plain = abstract link.plain) :
    (m.modifyLink link.id fun _ => after).plane hand = (m.plane hand).modify link.id abstract := by
  apply plane_modifyLink
  intro other held same
  have again := findById_of_mem sound held
  rw [same, found] at again
  cases again
  exact agree

theorem raised_leads {link : PeerLink} (found : m.table.findById link.id = some link)
    (underway : link.phase = .handshaking) (connects : P.connect (m.plane hand) link.plain) :
    Leads P m hand (m.raised link) (hand.firing link.establishCb) := by
  apply Leads.move
  intro sound
  have plane : (m.raised link).plane hand = (m.plane hand).modify link.id fun link =>
      { link with phase := .connected, establishCb := none } := plane_replace sound found rfl
  rw [← plane_settle, plane]
  exact .connect link.plain (mem_plane hand (findById_some found).1) underway connects

theorem lower_raised (link : PeerLink) :
    ((m.raised link).modifyLink link.id fun link => { link with phase := .backoff }) =
      m.modifyLink link.id fun _ => { link with phase := .backoff, establishCb := none } := by
  have links : ((m.raised link).modifyLink link.id fun link =>
      { link with phase := .backoff }).table.links = (m.modifyLink link.id fun _ =>
        { link with phase := .backoff, establishCb := none }).table.links := by
    show List.map _ (List.map _ _) = List.map _ _
    rw [List.map_map]
    apply List.map_congr_left
    intro other _
    by_cases this : other.id = link.id <;> simp [this]
  unfold raised modifyLink LinkTable.modify at links ⊢
  dsimp only at links ⊢
  rw [links]

/-- A link comes up and loses its election at once. -/
theorem beaten_leads {link : PeerLink} (found : m.table.findById link.id = some link) :
    Leads P m hand (m.modifyLink link.id fun _ => { link with phase := .backoff, establishCb := none })
      (hand.firing link.establishCb) := by
  apply Leads.move
  intro sound
  have plane : (m.modifyLink link.id fun _ => { link with phase := .backoff, establishCb := none }).plane
      hand = (m.plane hand).modify link.id fun link =>
        { link with phase := .backoff, establishCb := none } := plane_replace sound found rfl
  rw [← plane_settle, plane]
  exact .fail link.plain (mem_plane hand (findById_some found).1)

theorem modifyLink_comm {one two : LinkId} (apart : one ≠ two) {first second : PeerLink → PeerLink}
    (keepsFirst : ∀ link, link.id = one → (first link).id = one)
    (keepsSecond : ∀ link, link.id = two → (second link).id = two) :
    (m.modifyLink one first).modifyLink two second =
      (m.modifyLink two second).modifyLink one first := by
  have links : ((m.modifyLink one first).modifyLink two second).table.links =
      ((m.modifyLink two second).modifyLink one first).table.links := by
    show List.map _ (List.map _ _) = List.map _ (List.map _ _)
    rw [List.map_map, List.map_map]
    apply List.map_congr_left
    intro link _
    by_cases isOne : link.id = one
    · simp [isOne, keepsFirst link isOne, apart]
    · by_cases isTwo : link.id = two
      · simp [isTwo, keepsSecond link isTwo, Ne.symm apart]
      · simp [isOne, isTwo]
  unfold modifyLink LinkTable.modify at links ⊢
  dsimp only at links ⊢
  rw [links]

theorem findById_modifyLink {id target : LinkId} (apart : id ≠ target)
    {change : PeerLink → PeerLink} (keeps : ∀ link, link.id = target → (change link).id = target) :
    (m.modifyLink target change).table.findById id = m.table.findById id := by
  show List.find? _ (List.map _ m.table.links) = List.find? _ m.table.links
  induction m.table.links with
  | nil => rfl
  | cons link rest ih =>
      rw [List.map_cons, List.find?_cons, List.find?_cons, ih]
      by_cases this : link.id = target
      · have other : (target == id) = false := beq_eq_false_iff_ne.mpr (Ne.symm apart)
        simp [this, keeps link this, other]
      · simp [this]

theorem findByDialKey_modifyLink {target : LinkId} {change : PeerLink → PeerLink}
    (keeps : ∀ link, (change link).id = link.id) {key : DialKey} {after : PeerLink}
    (found : (m.modifyLink target change).table.findByDialKey key = some after) :
    ∃ before, m.table.findByDialKey key = some before ∧
      after = if before.id = target then change before else before := by
  obtain ⟨id, named, held⟩ := Option.bind_eq_some_iff.mp found
  have mapped : (m.modifyLink target change).table.findById id =
      (m.table.findById id).map fun link => if link.id = target then change link else link := by
    show List.find? _ (List.map _ m.table.links) = _
    rw [List.find?_map]
    congr 2
    funext link
    by_cases this : link.id = target <;> simp [this, keeps]
  rw [mapped] at held
  obtain ⟨before, stood, same⟩ := Option.map_eq_some_iff.mp held
  exact ⟨before, Option.bind_eq_some_iff.mpr ⟨id, named, stood⟩, same.symm⟩

/-- The loser of an election steps back and the winner comes up. -/
theorem demoted_leads {link existing : PeerLink} (found : m.table.findById link.id = some link)
    (underway : link.phase = .handshaking) (beaten : m.rival link = some existing)
    (connects : P.connect ((m.modifyLink existing.id PeerLink.demoteForScheduledDrop).plane hand)
      link.plain) :
    Leads P m hand ((m.raised link).modifyLink existing.id PeerLink.demoteForScheduledDrop)
      (hand.firing link.establishCb) := by
  obtain ⟨held, apart, up, _⟩ := rival_some beaten
  have retired : Leads P m hand (m.modifyLink existing.id PeerLink.demoteForScheduledDrop) hand := by
    apply Leads.move
    intro sound
    have plane : (m.modifyLink existing.id PeerLink.demoteForScheduledDrop).plane hand =
        (m.plane hand).modify existing.id fun link => { link with phase := .backoff } := by
      apply plane_modifyLink
      intro other mem same
      have again := findById_of_mem sound mem
      rw [same, findById_of_mem sound held] at again
      cases again
      simp [PeerLink.demoteForScheduledDrop, PeerLink.plain, up]
    rw [plane]
    exact .retire existing.plain (mem_plane hand held) up
  have swapped : (m.raised link).modifyLink existing.id PeerLink.demoteForScheduledDrop =
      (m.modifyLink existing.id PeerLink.demoteForScheduledDrop).raised link :=
    modifyLink_comm (Ne.symm apart) (fun _ _ => rfl) fun _ same => same
  rw [swapped]
  have still : (m.modifyLink existing.id PeerLink.demoteForScheduledDrop).table.findById link.id =
      m.table.findById link.id := findById_modifyLink (Ne.symm apart) fun _ same => same
  exact retired.trans (raised_leads (still.trans found) underway connects)

theorem adoptAlias_leads {candidate : PeerLink} {elected : Bool}
    (settled : ∀ link, m.table.findById candidate.id = some link → link.phase ≠ .handshaking) :
    Leads P m hand (m.adoptAlias candidate elected) hand := by
  unfold adoptAlias
  split
  · exact Leads.refl
  · split
    · exact Leads.refl
    · rename_i key free
      apply bindDialAlias_leads settled
      intro occupant holds _
      obtain ⟨entry, chosen, rfl⟩ := Option.map_eq_some_iff.mp free
      have fits := List.find?_some chosen
      have named := (findByDialKey_some holds).1
      simp [LinkTable.containsDialKey, named] at fits

theorem scheduleDropKey_leads {key : DialKey} {reason : LinkDropReason}
    (permitted : ∀ link, m.table.findByDialKey key = some link → Schedules P link.handle reason) :
    Leads P m hand (m.scheduleDropKey key reason) hand := by
  unfold scheduleDropKey
  split
  · exact Leads.refl
  · rename_i link found
    exact scheduleDropLink_leads (permitted link found)

theorem named_leads {link : PeerLink} (found : m.table.findById link.id = some link)
    (underway : link.phase = .handshaking) (peer : String) :
    Leads P m hand (m.modifyLink link.id fun _ => { link with remotePeerId := peer }) hand := by
  apply Leads.move
  intro sound
  have plane : (m.modifyLink link.id fun _ => { link with remotePeerId := peer }).plane hand =
      (m.plane hand).modify link.id fun link => { link with remotePeerId := peer } :=
    plane_replace sound found rfl
  rw [plane]
  exact .name link.plain (mem_plane hand (findById_some found).1) underway peer

theorem findById_replaced {link other : PeerLink} (found : m.table.findById link.id = some link)
    (same : other.id = link.id) :
    (m.modifyLink link.id fun _ => other).table.findById link.id = some other := by
  show List.find? _ (List.map _ m.table.links) = _
  have held : m.table.links.find? (fun link' => link'.id == link.id) = some link := found
  rw [List.find?_map]
  have fits : ((fun link' : PeerLink => link'.id == link.id) ∘
      fun link' => if link'.id = link.id then other else link') =
      fun link' => link'.id == link.id := by
    funext link'
    by_cases this : link'.id = link.id <;> simp [this, same]
  rw [fits, held]
  simp

/-- A link past its handshake stays so. -/
theorem Leads.settled {one : PeerLinkManager} {left : InHand} {id : LinkId}
    (leads : Leads P m hand one left) (sound : (m.plane hand).Sound) (old : id ≤ m.table.nextId)
    (settled : ∀ link, m.table.findById id = some link → link.phase ≠ .handshaking) :
    ∀ link, one.table.findById id = some link → link.phase ≠ .handshaking := by
  have before : (m.plane hand).Settled id := by
    intro shown mem same
    obtain ⟨link, held, rfl⟩ := List.mem_map.mp mem
    have again := findById_of_mem sound held
    exact settled link (same ▸ again)
  have after := (leads sound).settled old before
  intro link found
  obtain ⟨held, same⟩ := findById_some found
  exact after link.plain (mem_plane left held) same

theorem raised_settled {link : PeerLink} :
    ∀ other ∈ (m.raised link).table.links, other.id = link.id → other.phase ≠ .handshaking := by
  intro other held same
  obtain ⟨before, _, rfl⟩ := List.mem_map.mp held
  by_cases this : before.id = link.id
  · rw [if_pos this]
    exact PeerLinkPhase.noConfusion
  · rw [if_neg this] at same
    exact absurd same this

theorem mem_raised {link : PeerLink} (found : m.table.findById link.id = some link) :
    { link with phase := .connected, establishCb := none } ∈ (m.raised link).table.links :=
  List.mem_map.mpr ⟨link, (findById_some found).1, if_pos rfl⟩

theorem associated_of_mem {link : PeerLink} {key : DialKey} (held : link ∈ m.table.links)
    (up : link.connected = true) (adp : link.isCarrierBacked = false) (own : link.peerKey = key) :
    m.associated key = true := by
  unfold associated
  rw [List.any_eq_true]
  exact ⟨link, held, by simp [up, adp, own]⟩

/-- What the standing of a key takes from a link. -/
def outline (link : PeerLink) : LinkId × Bool × Bool × Bool × DialKey × String :=
  (link.id, link.connected, link.isCarrierBacked, link.outbound, link.peerKey, link.remotePeerId)

/-- A change to a link that the standing of no key shows. -/
theorem standing_modifyLink {id : LinkId} {change : PeerLink → PeerLink}
    (same : ∀ link ∈ m.table.links, link.id = id → outline (change link) = outline link)
    (key : DialKey) : (m.modifyLink id change).standing key = m.standing key := by
  let after := fun (link : PeerLink) => if link.id = id then change link else link
  have each (link : PeerLink) (held : link ∈ m.table.links) : outline (after link) = outline link := by
    unfold after
    split
    · rename_i this
      exact same link held this
    · rfl
  have shown {p : PeerLink → Bool} (fits : ∀ one two, outline one = outline two → p one = p two) :
      (m.table.links.map after).any p = m.table.links.any p := by
    rw [List.any_map, Bool.eq_iff_iff, List.any_eq_true, List.any_eq_true]
    constructor
    · rintro ⟨link, held, holds⟩
      exact ⟨link, held, (fits _ _ (each link held)).symm.trans holds⟩
    · rintro ⟨link, held, holds⟩
      exact ⟨link, held, (fits _ _ (each link held)).trans holds⟩
  have found (entry : LinkId) : (((m.table.links.map after).find? fun link => link.id == entry).any
      PeerLink.connected) = ((m.table.links.find? fun link => link.id == entry).any
      PeerLink.connected) := by
    generalize m.table.links = links at each
    clear shown
    induction links with
    | nil => rfl
    | cons first rest ih =>
        have this := each first List.mem_cons_self
        simp only [outline, Prod.mk.injEq] at this
        rw [List.map_cons, List.find?_cons, List.find?_cons, this.1]
        split
        · exact this.2.1
        · exact ih fun link held => each link (List.mem_cons_of_mem _ held)
  have associated : (m.modifyLink id change).associated key = m.associated key := by
    apply shown
    intro one two alike
    simp only [outline, Prod.mk.injEq] at alike
    simp only [alike]
  have reached : (m.modifyLink id change).reached key = m.reached key := by
    have inner (dialed : PeerLink) : ((m.table.links.map after).any fun link => link.connected &&
        !link.isCarrierBacked && link.remotePeerId == dialed.remotePeerId && link.remotePeerId != "") =
        (m.table.links.any fun link => link.connected && !link.isCarrierBacked &&
          link.remotePeerId == dialed.remotePeerId && link.remotePeerId != "") := by
      apply shown
      intro one two alike
      simp only [outline, Prod.mk.injEq] at alike
      simp only [alike]
    unfold PeerLinkManager.reached
    rw [show (m.modifyLink id change).table.links = m.table.links.map after from rfl]
    simp only [inner]
    apply shown
    intro one two alike
    simp only [outline, Prod.mk.injEq] at alike
    simp only [alike]
  unfold standing
  rw [associated, reached]
  congr 1
  unfold LinkTable.findByDialKey
  cases named : m.table.byDialKey key with
  | none => simp [modifyLink, LinkTable.modify, named]
  | some entry =>
      rw [show (m.modifyLink id change).table.byDialKey key = some entry from named]
      exact found entry

theorem demote_links (existing : PeerLink) : (m.demote existing).table.links =
    (m.modifyLink existing.id PeerLink.demoteForScheduledDrop).table.links := by
  show (scheduleDropKey _ _ _).table.links = _
  unfold scheduleDropKey
  split <;> rfl

/-- The loser of an election is down and to go, and the winner is up. -/
theorem demote_leads {link existing : PeerLink} (found : m.table.findById link.id = some link)
    (underway : link.phase = .handshaking) (beaten : m.rival link = some existing)
    (connects : P.connect ((m.modifyLink existing.id PeerLink.demoteForScheduledDrop).plane hand)
      link.plain)
    (lost : ∀ holder, (m.raised link).table.findByDialKey existing.peerKey = some holder →
      P.lose holder.handle) :
    Leads P m hand ((m.raised link).demote existing) (hand.firing link.establishCb) := by
  refine (demoted_leads found underway beaten connects).trans (scheduleDropKey_leads ?_)
  intro holder holds
  have keeps (link : PeerLink) : link.demoteForScheduledDrop.id = link.id := rfl
  obtain ⟨before, named, same⟩ := findByDialKey_modifyLink keeps holds
  refine ⟨fun _ => ?_, fun asked => LinkDropReason.noConfusion asked⟩
  have handle : holder.handle = before.handle := by
    rw [same]
    split <;> rfl
  rw [handle]
  exact lost before named

variable [MultiaddrParser]

/-- What an authenticated link's arrival can come to. -/
theorem establish_cases (m : PeerLinkManager) (link : PeerLink) :
    (m.rival link = none ∧ ∃ adopts : Bool, m.establish link =
      ((if adopts then (m.raised link).adoptAlias link false else m.raised link).refreshPresence
        link.handle).runEstablishCb link.establishCb link.handle (.ok ())) ∨
    (∃ existing, m.rival link = some existing ∧ elect existing link m.localPeerId = .existing ∧
      m.establish link = (m.raised link).loseElection
        { link with phase := .connected, establishCb := none } link.establishCb) ∨
    (∃ existing, m.rival link = some existing ∧ elect existing link m.localPeerId = .candidate ∧
      m.establish link = ((((m.raised link).demote existing).adoptAlias link true).refreshPresence
        link.handle).runEstablishCb link.establishCb link.handle (.ok ())) := by
  let up := { link with phase := .connected, establishCb := none }
  let weighed := (m.raised link).onLinkEstablished up
  have opened : m.establish link =
      if weighed.2 then weighed.1.runEstablishCb link.establishCb link.handle (.ok ())
      else weighed.1.loseElection up link.establishCb := by
    unfold establish
    dsimp only
    split
    · rename_i after taken
      rw [show weighed = (after, true) from taken]
      rfl
    · rename_i after refused
      rw [show weighed = (after, false) from refused]
      rfl
  unfold rival
  rw [opened]
  unfold weighed onLinkEstablished adoptInboundOrDropDuplicate
  by_cases unknown : link.remotePeerId = ""
  · left
    refine ⟨if_pos unknown, false, ?_⟩
    have same : up.remotePeerId = "" := unknown
    rw [if_pos same]
    rfl
  · have same : up.remotePeerId ≠ "" := unknown
    rw [if_neg unknown, if_neg same]
    have duplicate : (m.raised link).duplicateOf link = (m.raised link).duplicateOf up := rfl
    rw [duplicate]
    cases found : (m.raised link).duplicateOf up with
    | none => exact .inl ⟨rfl, true, rfl⟩
    | some existing =>
        have carrier : up.isCarrierBacked = link.isCarrierBacked := rfl
        by_cases transport : existing.isCarrierBacked = link.isCarrierBacked
        · have elected : elect existing up (m.raised link).localPeerId =
              elect existing link m.localPeerId := rfl
          cases won : elect existing link m.localPeerId with
          | existing =>
              refine .inr (.inl ⟨existing, by simp [transport], won, ?_⟩)
              simp only [carrier, transport, elected, won, bne_self_eq_false, Bool.false_eq_true,
                if_false]
              rfl
          | candidate =>
              refine .inr (.inr ⟨existing, by simp [transport], won, ?_⟩)
              simp only [carrier, transport, elected, won, bne_self_eq_false, Bool.false_eq_true,
                if_false]
              rfl
        · refine .inl ⟨by simp [transport], false, ?_⟩
          simp [carrier, transport]
          rfl

theorem loseElection_leads {link : PeerLink} (found : m.table.findById link.id = some link)
    (underway : link.phase = .handshaking) (lost : P.lose link.handle)
    (told : ∀ key, link.establishCb = some (.dial key) →
      P.succeed ((m.promoted key).standing key)) :
    Leads P m hand ((m.raised link).loseElection
      { link with phase := .connected, establishCb := none } link.establishCb) hand := by
  intro sound
  unfold loseElection
  dsimp only
  rw [lower_raised]
  let lowered := m.modifyLink link.id fun _ => { link with phase := .backoff, establishCb := none }
  have down : Leads P m hand lowered (hand.firing link.establishCb) := beaten_leads found
  have settled : ∀ other, lowered.table.findById link.id = some other → other.phase ≠ .handshaking := by
    intro other again
    obtain ⟨held, same⟩ := findById_some again
    obtain ⟨before, _, rfl⟩ := List.mem_map.mp held
    by_cases this : before.id = link.id
    · rw [if_pos this]
      exact PeerLinkPhase.noConfusion
    · rw [if_neg this] at same
      exact absurd same this
  have quiet (key : DialKey) : (lowered.promoted key).standing key =
      (m.promoted key).standing key := by
    refine standing_modifyLink (m := m.promoted key) ?_ key
    intro other held same
    have again := findById_of_mem sound held
    rw [same, found] at again
    cases again
    simp [outline, PeerLink.connected, underway]
  let scheduled := lowered.scheduleDropLink link.handle .dualDialLost
  have marked : Leads P lowered (hand.firing link.establishCb) scheduled
      (hand.firing link.establishCb) :=
    scheduleDropLink_leads ⟨fun _ => lost, fun asked => LinkDropReason.noConfusion asked⟩
  refine (down.trans (marked.trans ?_)) sound
  generalize (lowered.findAnyConnectedLinkForRemotePeerId link.remotePeerId).isSome = other
  have ends (final : PeerLinkManager) (table : final.table = lowered.table)
      (books : final.promoted = fun key => { final with book := (lowered.promoted key).book }) :
      Leads P final (hand.firing link.establishCb) (final.runEstablishCb link.establishCb link.handle
        (if other then .ok () else .error ⟨.dualDialLost, "amp link: dual-dial election lost"⟩))
        hand := by
    apply runEstablishCb_leads
    · rw [table]
      exact settled
    · exact fun _ _ _ => lost
    · intro _ key isDial
      have same : (final.promoted key).standing key = (lowered.promoted key).standing key := by
        rw [books]
        apply standing_congr
        · exact congrArg LinkTable.links table
        · exact congrArg LinkTable.byDialKey table
        · rfl
      rw [same, quiet]
      exact told key isDial
  by_cases adopts : (other && link.outbound && link.peerKey != "") = true
  · rw [if_pos adopts]
    let adopted := { scheduled with
      pendingAliasAdopt := scheduled.pendingAliasAdopt ++ [(link.remotePeerId, link.peerKey)] }
    have noted : Leads P scheduled (hand.firing link.establishCb) adopted
        (hand.firing link.establishCb) := Leads.same rfl
    exact noted.trans (ends adopted rfl rfl)
  · rw [if_neg adopts]
    exact ends scheduled rfl rfl

/-- The callback of a link that came up runs with the link in its place, so that a dial
succeeds over ADP. -/
theorem welcome_leads {before after : PeerLinkManager} {link : PeerLink}
    (good : ∀ standing, standing.overAdp = true → P.succeed standing) (coherent : link.Coherent)
    (old : link.id ≤ before.table.nextId)
    (held : { link with phase := .connected, establishCb := none } ∈ before.table.links)
    (settled : ∀ other ∈ before.table.links, other.id = link.id → other.phase ≠ .handshaking)
    (adopts : (∀ other, before.table.findById link.id = some other → other.phase ≠ .handshaking) →
      Leads P before (hand.firing link.establishCb) after (hand.firing link.establishCb))
    (outward : link.outbound = true → after = before) :
    Leads P before (hand.firing link.establishCb)
      ((after.refreshPresence link.handle).runEstablishCb link.establishCb link.handle (.ok ()))
      hand := by
  intro sound
  have found (other : PeerLink) (again : before.table.findById link.id = some other) :
      other.phase ≠ .handshaking :=
    settled other (findById_some again).1 (findById_some again).2
  have rows : Leads P before (hand.firing link.establishCb) (after.refreshPresence link.handle)
      (hand.firing link.establishCb) := (adopts found).trans refreshPresence_leads
  refine rows.trans (runEstablishCb_leads ?_ (fun _ failed => nomatch failed) ?_) sound
  · exact rows.settled sound old found
  · intro _ key isDial
    unfold PeerLink.Coherent at coherent
    rw [isDial] at coherent
    obtain ⟨_, outbound, adp, own⟩ := coherent
    rw [outward outbound]
    have stands : { link with phase := .connected, establishCb := none } ∈
        ((before.refreshPresence link.handle).promoted key).table.links := by
      show _ ∈ (before.refreshPresence link.handle).table.links
      rw [refreshPresence_links]
      exact held
    exact good _ (associated_of_mem stands rfl adp own)

/-- The winner's callback runs. -/
theorem elected_leads {link existing : PeerLink} (found : m.table.findById link.id = some link)
    (good : ∀ standing, standing.overAdp = true → P.succeed standing) (coherent : link.Coherent)
    (old : link.id ≤ ((m.raised link).demote existing).table.nextId)
    (apart : existing.id ≠ link.id) :
    Leads P ((m.raised link).demote existing) (hand.firing link.establishCb)
      (((((m.raised link).demote existing).adoptAlias link true).refreshPresence
        link.handle).runEstablishCb link.establishCb link.handle (.ok ())) hand := by
  refine welcome_leads good coherent old ?_ ?_ adoptAlias_leads fun outbound => if_pos outbound
  · rw [demote_links]
    exact List.mem_map.mpr ⟨_, mem_raised found, if_neg (Ne.symm apart)⟩
  · rw [demote_links]
    intro other held same
    obtain ⟨before, old, rfl⟩ := List.mem_map.mp held
    by_cases this : before.id = existing.id
    · rw [if_pos this] at same
      exact absurd (this.symm.trans same) apart
    · rw [if_neg this] at same ⊢
      exact raised_settled before old same

theorem establish_leads {link : PeerLink} (found : m.table.findById link.id = some link)
    (underway : link.phase = .handshaking)
    (good : ∀ standing, standing.overAdp = true → P.succeed standing)
    (alone : m.rival link = none → P.connect (m.plane hand) link.plain)
    (beats : ∀ existing, m.rival link = some existing →
      elect existing link m.localPeerId = .candidate →
      P.connect ((m.modifyLink existing.id PeerLink.demoteForScheduledDrop).plane hand) link.plain ∧
      ∀ holder, (m.raised link).table.findByDialKey existing.peerKey = some holder →
        P.lose holder.handle)
    (loses : ∀ existing, m.rival link = some existing →
      elect existing link m.localPeerId = .existing →
      P.lose link.handle ∧ ∀ key, link.establishCb = some (.dial key) →
        P.succeed ((m.promoted key).standing key)) :
    Leads P m hand (m.establish link) hand := by
  intro sound
  have shown := mem_plane hand (findById_some found).1
  have coherent : link.Coherent := sound.coherent link.plain shown
  have numbered : link.id ≤ m.table.nextId := sound.numbered link.plain shown
  rcases establish_cases m link with ⟨none, adopts, same⟩ | ⟨existing, against, won, same⟩ |
    ⟨existing, against, won, same⟩
  · rw [same]
    refine (raised_leads found underway (alone none)).trans
      (welcome_leads good coherent numbered (mem_raised found) raised_settled ?_ ?_) sound
    · intro settled
      cases adopts
      · exact Leads.refl
      · exact adoptAlias_leads settled
    · intro outbound
      cases adopts
      · rfl
      · exact if_pos outbound
  · rw [same]
    obtain ⟨lost, told⟩ := loses existing against won
    exact loseElection_leads found underway lost told sound
  · rw [same]
    obtain ⟨connects, lost⟩ := beats existing against won
    have steps := demote_leads found underway against connects lost
    exact (steps.trans (elected_leads found good coherent (numbered.trans (steps sound).lastId_le)
      (rival_some against).2.1)) sound

/-- The state and the link an authenticated handshake goes on to establish. -/
def authenticated (m : PeerLinkManager) (id : LinkId) (identity : Adp.Bytes) :
    Option (PeerLinkManager × PeerLink) :=
  match m.table.findById id with
  | none => none
  | some link =>
      let expected := if link.outbound && !link.isCarrierBacked then link.remotePeerId else ""
      let named := { link with remotePeerId := m.authenticatedPeerId link identity }
      if link.phase ≠ .handshaking then none
      else if expected ≠ "" ∧ named.remotePeerId ≠ expected then none
      else some (m.modifyLink id fun _ => named, named)

theorem onHandshakeComplete_leads {id : LinkId} {result : HandshakeResult}
    (establishes : ∀ identity named link, result = .established identity (.ok ()) →
      m.authenticated id identity = some (named, link) →
      Leads P named hand (named.establish link) hand) :
    Leads P m hand (m.onHandshakeComplete id result) hand := by
  unfold onHandshakeComplete
  split
  · exact Leads.refl
  · rename_i link found
    obtain ⟨_, same⟩ := findById_some found
    subst same
    split
    · exact Leads.refl
    · rename_i underway
      have underway : link.phase = .handshaking := not_not.mp underway
      split
      · exact failAssociation_leads LinkErr.noConfusion
      · rename_i identity made
        have naming : Leads P m hand (m.modifyLink link.id fun _ =>
            { link with remotePeerId := m.authenticatedPeerId link identity }) hand :=
          named_leads found underway _
        dsimp only
        generalize targeted : (if link.outbound && !link.isCarrierBacked then link.remotePeerId else "") =
          expected
        by_cases wrong : expected ≠ "" ∧ m.authenticatedPeerId link identity ≠ expected
        · rw [if_pos wrong]
          exact naming.trans (failAssociation_leads LinkErr.noConfusion)
        · rw [if_neg wrong]
          split
          · exact naming.trans (failAssociation_leads LinkErr.noConfusion)
          · refine naming.trans (establishes identity _ _ rfl ?_)
            unfold authenticated
            rw [found]
            dsimp only
            rw [targeted, if_neg (not_not.mpr underway), if_neg wrong]

theorem onCarrierClosed_leads {id : LinkId} {reason : String} :
    Leads P m hand (m.onCarrierClosed id reason) hand := by
  unfold onCarrierClosed
  split
  · exact Leads.refl
  · rename_i link found
    obtain ⟨held, same⟩ := findById_some found
    subst same
    split
    · exact Leads.refl
    · let closed := m.modifyLink link.id fun link => { link with carrierClosed := true }
      have hidden : closed.plane hand = m.plane hand := plane_touch hand fun _ _ _ => rfl
      split
      · rename_i up
        refine (Leads.same hidden).trans (Leads.move fun _ => ?_)
        have plane : (closed.modifyLink link.id fun link => { link with phase := .backoff }).plane hand =
            (closed.plane hand).modify link.id fun link => { link with phase := .backoff } :=
          plane_modifyLink hand fun _ _ _ => rfl
        rw [plane, hidden]
        exact .retire link.plain (mem_plane hand held) up
      · exact (Leads.same hidden).trans (failAssociation_leads LinkErr.noConfusion)

end Establishment

end Amp.PeerLinkManager
