import Amp.Link.LinkPlane

set_option autoImplicit false

/- The manager's calls as rows of moves of its link plane. -/
namespace Amp.PeerLinkManager

open LinkPlane (Permits Move Moves Sound)

/-- What a call has taken out of the books and not yet dealt with. -/
structure InHand where
  /-- Keys whose waiters have lost what they waited for. -/
  due : List DialKey := []
  /-- Dials that ended with their slot not yet free. -/
  fired : Nat := 0
  drops : List (LinkHandle × LinkDropReason) := []
  calls : List Nat := []

def InHand.owing (hand : InHand) (key : DialKey) : InHand := { hand with due := key :: hand.due }

/-- A callback taken out of its link. -/
def InHand.firing (hand : InHand) : Option Establish → InHand
  | some (.dial key) => { hand.owing key with fired := hand.fired + 1 }
  | _ => hand

def plane (m : PeerLinkManager) (hand : InHand) : LinkPlane where
  limits := m.limits
  links := m.table.links.map PeerLink.plain
  lastId := m.table.nextId
  byDialKey := m.table.byDialKey
  keyEvents := m.table.keyEvents
  byPeer := m.table.byPeer
  peerOf := fun key => (m.book.find key).map EndpointRecord.peerId
  dials := m.book.concurrentDials - hand.fired
  waiting := m.inflightAssociations
  resolving := m.resolving
  retries := hand.due ++ m.pendingCandidateRetry
  pendingDrops := hand.drops ++ m.pendingDrops
  calls := hand.calls
  answers := m.answers
  drops := m.drops.map fun drop => (drop.1.plain, drop.2)

/-- The links that count against `max_links`. -/
def slots (m : PeerLinkManager) : Nat := m.table.links.countP PeerLink.holdsSlot

def backlog (m : PeerLinkManager) : Nat := m.table.links.countP PeerLink.pendingInbound

/-- A row of moves, as long as the books are sound where it starts. -/
def Leads (P : Permits) (m : PeerLinkManager) (hand : InHand) (after : PeerLinkManager)
    (left : InHand) : Prop :=
  (m.plane hand).Sound → Moves P (m.plane hand) (after.plane left)

section Rows

variable {P : Permits} {m one two : PeerLinkManager} {hand some rest : InHand}

theorem Leads.trans (first : Leads P m hand one some) (second : Leads P one some two rest) :
    Leads P m hand two rest := by
  intro sound
  have moves := first sound
  exact Relation.ReflTransGen.trans moves (second (moves.sound sound))

theorem Leads.same (equal : one.plane some = m.plane hand) : Leads P m hand one some := by
  intro _
  rw [equal]
  exact Relation.ReflTransGen.refl

theorem Leads.refl : Leads P m hand m hand := Leads.same rfl

theorem Leads.move (move : (m.plane hand).Sound → Move P (m.plane hand) (one.plane some)) :
    Leads P m hand one some :=
  fun sound => Relation.ReflTransGen.single (move sound)

end Rows

section Planes

variable (m : PeerLinkManager) (hand : InHand)

theorem plane_slots : (m.plane hand).slots = m.slots := List.countP_map

theorem plane_backlog : (m.plane hand).backlog = m.backlog := List.countP_map

theorem plane_settle (cb : Option Establish) :
    (m.plane hand).settle cb = m.plane (hand.firing cb) := by
  rcases cb with _ | (_ | _ | _)
  · rfl
  · simp only [LinkPlane.settle, plane, InHand.firing, InHand.owing, List.cons_append, Nat.sub_sub]
  · rfl
  · rfl

variable {m}

theorem mem_plane {link : PeerLink} (found : link ∈ m.table.links) :
    link.plain ∈ (m.plane hand).links :=
  List.mem_map.mpr ⟨link, found, rfl⟩

theorem plane_modifyLink {id : LinkId} {change abstract : PeerLink → PeerLink}
    (agree : ∀ link ∈ m.table.links, link.id = id → (change link).plain = abstract link.plain) :
    (m.modifyLink id change).plane hand = (m.plane hand).modify id abstract := by
  have links : (m.table.modify id change).links.map PeerLink.plain =
      ((m.plane hand).modify id abstract).links := by
    show List.map _ (List.map _ _) = List.map _ (List.map _ _)
    rw [List.map_map, List.map_map]
    apply List.map_congr_left
    intro link found
    by_cases this : link.id = id
    · simpa [this] using agree link found this
    · simp [this]
  unfold plane modifyLink
  rw [links]
  rfl

/-- A change the plane does not show. -/
theorem plane_touch {id : LinkId} {change : PeerLink → PeerLink}
    (hidden : ∀ link ∈ m.table.links, link.id = id → (change link).plain = link.plain) :
    (m.modifyLink id change).plane hand = m.plane hand := by
  have agree : (m.modifyLink id change).plane hand = (m.plane hand).modify id fun link => link :=
    plane_modifyLink hand hidden
  rw [agree]
  unfold LinkPlane.modify
  simp

/-- A link's association closes, or is said to be open. -/
theorem report_leads {P : Permits} {link : PeerLink} {change : PeerLink → PeerLink} {closed : Bool}
    (found : link ∈ m.table.links)
    (reports : ∀ link, (change link).plain = { link.plain with association := { closed := closed } })
    (permitted : link.association.closed = true → closed = true ∨ P.reopen link.plain) :
    Leads P m hand (m.modifyLink link.id change) hand := by
  apply Leads.move
  intro _
  have plane : (m.modifyLink link.id change).plane hand = (m.plane hand).modify link.id fun link =>
      { link with association := { closed := closed } } :=
    plane_modifyLink hand fun link _ _ => reports link
  rw [plane]
  exact .report link.plain (mem_plane hand found) closed permitted

theorem plane_touchAll {change : PeerLink → PeerLink}
    (hidden : ∀ link, (change link).plain = link.plain) :
    ({ m with table := { m.table with links := m.table.links.map change } } : PeerLinkManager).plane
      hand = m.plane hand := by
  have links : (m.table.links.map change).map PeerLink.plain = m.table.links.map PeerLink.plain := by
    rw [List.map_map]
    exact List.map_congr_left fun link _ => hidden link
  unfold plane
  rw [links]

end Planes

section Lookup

theorem findById_some {table : LinkTable} {id : LinkId} {link : PeerLink}
    (found : table.findById id = some link) : link ∈ table.links ∧ link.id = id := by
  refine ⟨List.mem_of_find?_eq_some found, ?_⟩
  have matched := List.find?_some found
  simpa using matched

theorem findByDialKey_some {table : LinkTable} {key : DialKey} {link : PeerLink}
    (found : table.findByDialKey key = some link) :
    table.byDialKey key = some link.id ∧ table.findById link.id = some link := by
  obtain ⟨id, named, held⟩ := Option.bind_eq_some_iff.mp found
  have same := (findById_some held).2
  subst same
  exact ⟨named, held⟩

theorem findLive_some {table : LinkTable} {handle : LinkHandle} {link : PeerLink}
    (found : table.findLive handle = some link) :
    table.findById link.id = some link ∧ link.handle = handle := by
  obtain ⟨held, generation⟩ := Option.filter_eq_some_iff.mp found
  have same := (findById_some held).2
  refine ⟨same ▸ held, ?_⟩
  obtain ⟨id, gen⟩ := handle
  simp only [beq_iff_eq] at generation
  simp only at same
  rw [PeerLink.handle, same, generation]

variable {m : PeerLinkManager} {hand : InHand}

/-- In sound books the id of a link finds that link. -/
theorem findById_of_mem (sound : (m.plane hand).Sound) {link : PeerLink}
    (held : link ∈ m.table.links) : m.table.findById link.id = some link := by
  have unique : (m.table.links.map PeerLink.id).Nodup := by
    have plain := sound.unique
    rwa [plane, List.map_map] at plain
  obtain ⟨other, found⟩ : ∃ other, m.table.findById link.id = some other := by
    apply Option.isSome_iff_exists.mp
    rw [LinkTable.findById, List.find?_isSome]
    exact ⟨link, held, by simp⟩
  have same := findById_some found
  rw [found, List.inj_on_of_nodup_map unique same.1 held same.2]

end Lookup

section Drops

variable {P : Permits} {m : PeerLinkManager} {hand : InHand}

theorem eraseById_eq {table : LinkTable} {link : PeerLink}
    (found : table.findById link.id = some link) :
    table.eraseById link.id = { table with
      links := table.links.filter fun other => other.id != link.id
      byDialKey := if table.byDialKey link.peerKey = some link.id then
        Function.update table.byDialKey link.peerKey none else table.byDialKey
      byPeer := if link.remotePeerId = "" then table.byPeer
        else (table.clearPresence link.remotePeerId link.transport link.id).byPeer } := by
  unfold LinkTable.eraseById
  rw [found]
  unfold LinkTable.unindex LinkTable.clearPresence
  by_cases named : table.byDialKey link.peerKey = some link.id <;>
    by_cases unknown : link.remotePeerId = "" <;> simp [named, unknown]

theorem plane_dropLinkNow {link : PeerLink} (found : m.table.findById link.id = some link)
    (reason : LinkDropReason) :
    (m.dropLinkNow link reason).plane hand = (m.plane hand).erase link.plain reason := by
  let orphan := fun (other : PeerLink) =>
    if other.carrierVia = some link.id then { other with carrierClosed := true } else other
  have hidden (other : PeerLink) : (orphan other).plain = other.plain := by
    by_cases rides : other.carrierVia = some link.id <;> simp [orphan, rides, PeerLink.plain]
  have keeps (other : PeerLink) : (orphan other).id = other.id := by
    simpa using congrArg PeerLink.id (hidden other)
  have held : (m.orphanCarriers link.id).table.findById (orphan link).id = some (orphan link) := by
    show List.find? _ (m.table.links.map orphan) = _
    rw [List.find?_map, keeps]
    have same : ((fun other : PeerLink => other.id == link.id) ∘ orphan) =
        fun other => other.id == link.id := by
      funext other
      simp [keeps]
    rw [same]
    exact congrArg (Option.map orphan) found
  have key : (orphan link).peerKey = link.peerKey := by
    simpa using congrArg PeerLink.peerKey (hidden link)
  have peer : (orphan link).remotePeerId = link.remotePeerId := by
    simpa using congrArg PeerLink.remotePeerId (hidden link)
  have transport : (orphan link).transport = link.transport := by
    simpa using congrArg PeerLink.transport (hidden link)
  have erased := eraseById_eq held
  rw [keeps, key, peer, transport] at erased
  have links : ((m.table.links.map orphan).filter fun other => other.id != link.id).map
      PeerLink.plain = (m.table.links.map PeerLink.plain).filter fun other => other.id != link.id := by
    rw [List.filter_map, List.filter_map, List.map_map]
    have same : ((fun other : PeerLink => other.id != link.id) ∘ orphan) =
        (fun other : PeerLink => other.id != link.id) ∘ PeerLink.plain := by
      funext other
      simp [keeps]
    rw [same]
    exact List.map_congr_left fun other _ => hidden other
  unfold dropLinkNow
  simp only [finishNestedWaiters]
  rw [erased]
  unfold plane LinkPlane.erase LinkPlane.unindex LinkPlane.absent
  simp only [List.map_append, List.map_cons, List.map_nil, PeerLink.plain_id,
    PeerLink.plain_peerKey, PeerLink.plain_remotePeerId, PeerLink.plain_transport]
  congr 1

theorem dropLinkNow_leads {link : PeerLink} (found : m.table.findById link.id = some link)
    {reason : LinkDropReason} (permitted : P.drop link.plain reason) :
    Leads P m hand (m.dropLinkNow link reason) hand := by
  apply Leads.move
  intro _
  rw [plane_dropLinkNow found]
  exact .drop link.plain (mem_plane hand (findById_some found).1) reason permitted

theorem dropLink_leads {key : DialKey} {reason : LinkDropReason}
    (permitted : ∀ link, m.table.findByDialKey key = some link → P.drop link.plain reason) :
    Leads P m hand (m.dropLink key reason) hand := by
  unfold dropLink
  split
  · exact Leads.refl
  · rename_i link found
    exact dropLinkNow_leads (findByDialKey_some found).2 (permitted link found)

theorem dropLinkByHandle_leads {handle : LinkHandle} {reason : LinkDropReason}
    (permitted : ∀ link, m.table.findLive handle = some link → P.drop link.plain reason) :
    Leads P m hand (m.dropLinkByHandle handle reason) hand := by
  unfold dropLinkByHandle
  split
  · exact Leads.refl
  · rename_i link found
    exact dropLinkNow_leads (findLive_some found).1 (permitted link found)

theorem plane_rebind (link : PeerLink) (key : DialKey) :
    ({ m with table := m.table.rebind link key } : PeerLinkManager).plane hand =
      (m.plane hand).bind link.plain key := by
  have changed : (m.modifyLink link.id fun link => { link with peerKey := key }).plane hand =
      (m.plane hand).modify link.id fun link => { link with peerKey := key } :=
    plane_modifyLink hand fun _ _ _ => rfl
  have links : (m.table.modify link.id fun link => { link with peerKey := key }).links.map
      PeerLink.plain = ((m.plane hand).bind link.plain key).links :=
    congrArg LinkPlane.links changed
  have index : (m.table.rebind link key).byDialKey = ((m.plane hand).bind link.plain key).byDialKey := by
    unfold LinkTable.rebind LinkTable.unindex LinkPlane.bind LinkPlane.unindex
    by_cases named : m.table.byDialKey link.peerKey = some link.id <;> simp [named, plane, LinkTable.modify]
  have rest : m.table.rebind link key = { m.table with
      links := (m.table.modify link.id fun link => { link with peerKey := key }).links
      byDialKey := (m.table.rebind link key).byDialKey
      keyEvents := m.table.keyEvents ++ [.rebound link.id key] } := by
    unfold LinkTable.rebind LinkTable.unindex
    split <;> rfl
  rw [rest]
  unfold plane
  dsimp only
  rw [links, index]
  rfl

/-- The links a drop leaves show as they did. -/
theorem shown_after_drop (sound : (m.plane hand).Sound) {link occupant : PeerLink}
    (found : link ∈ m.table.links) (gone : m.table.findById occupant.id = some occupant)
    (reason : LinkDropReason) :
    ∀ after ∈ (m.dropLinkNow occupant reason).table.links, after.id = link.id →
      after.plain = link.plain := by
  intro after held same
  have shown : after.plain ∈ ((m.dropLinkNow occupant reason).plane hand).links :=
    mem_plane hand held
  rw [plane_dropLinkNow gone] at shown
  exact sound.same (List.mem_of_mem_filter shown) (mem_plane hand found) same

theorem bindDialKey_leads {id : LinkId} {key : DialKey}
    (settled : ∀ link, m.table.findById id = some link → link.phase ≠ .handshaking ∧ link.peerKey ≠ key) :
    Leads P m hand (m.bindDialKey id key) hand := by
  unfold bindDialKey LinkTable.bindDialKey
  split
  · exact Leads.refl
  · rename_i link found
    obtain ⟨phase, apart⟩ := settled link found
    obtain ⟨held, same⟩ := findById_some found
    subst same
    rw [if_neg apart]
    split
    · exact Leads.refl
    · rename_i free
      apply Leads.move
      intro _
      rw [plane_rebind]
      refine .bind link.plain (mem_plane hand held) phase key ?_
      by_cases none : m.table.byDialKey key = none
      · exact .inl none
      · right
        by_contra other
        exact free ⟨none, other⟩

theorem bindDialAlias_leads {id : LinkId} {key : DialKey}
    (settled : ∀ link, m.table.findById id = some link → link.phase ≠ .handshaking)
    (permitted : ∀ occupant, m.table.findByDialKey key = some occupant → m.displaces id key = true →
      P.drop occupant.plain .displaced) :
    Leads P m hand (m.bindDialAlias id key) hand := by
  intro sound
  unfold bindDialAlias
  split
  · exact Relation.ReflTransGen.refl
  · rename_i link found
    obtain ⟨held, same⟩ := findById_some found
    split
    · exact Relation.ReflTransGen.refl
    · rename_i apart
      split
      · rename_i displaced
        refine (Leads.trans (dropLink_leads fun occupant holds => permitted occupant holds displaced)
          (bindDialKey_leads ?_)) sound
        intro after stillFound
        unfold dropLink at stillFound
        split at stillFound
        · rw [found] at stillFound
          cases stillFound
          exact ⟨settled link found, apart⟩
        · rename_i occupant holds
          obtain ⟨stillHeld, sameId⟩ := findById_some stillFound
          have shown := shown_after_drop sound held (findByDialKey_some holds).2 .displaced after
            stillHeld (sameId.trans same.symm)
          have phase := congrArg PeerLink.phase shown
          have peerKey := congrArg PeerLink.peerKey shown
          simp only [PeerLink.plain_phase, PeerLink.plain_peerKey] at phase peerKey
          rw [phase, peerKey]
          exact ⟨settled link found, apart⟩
      · refine bindDialKey_leads (fun again => ?_) sound
        intro holds
        rw [found] at holds
        cases holds
        exact ⟨settled link found, apart⟩

end Drops

section Books

variable (book : DialBook) (key : DialKey) (now : Int)

@[simp] theorem concurrentDials_forgetResolution :
    (book.forgetResolution key).concurrentDials = book.concurrentDials := by
  unfold DialBook.forgetResolution
  split
  · rfl
  · split <;> rfl

@[simp] theorem concurrentDials_eraseExpiredBackoff :
    (book.eraseExpiredBackoff key now).concurrentDials = book.concurrentDials := by
  unfold DialBook.eraseExpiredBackoff
  split
  · split <;> rfl
  · rfl

/-- The book changes what it knows of a key, not how many dials there are. -/
theorem rename_leads {P : Permits} {m : PeerLinkManager} {hand : InHand} {book : DialBook}
    (same : book.concurrentDials = m.book.concurrentDials) :
    Leads P m hand { m with book := book } hand := by
  apply Leads.move
  intro _
  have renamed : ({ m with book := book } : PeerLinkManager).plane hand =
      { m.plane hand with peerOf := fun key => (book.find key).map EndpointRecord.peerId } := by
    unfold plane
    rw [same]
  rw [renamed]
  exact .rename _

variable [MultiaddrParser]

@[simp] theorem concurrentDials_advanceDialCandidate :
    (book.advanceDialCandidate key now).1.concurrentDials = book.concurrentDials := by
  unfold DialBook.advanceDialCandidate
  split
  · rfl
  · split <;> rfl

@[simp] theorem concurrentDials_promoteDialWinner (multiaddr : String) :
    (book.promoteDialWinner key multiaddr now).concurrentDials = book.concurrentDials := by
  unfold DialBook.promoteDialWinner
  split <;> rfl

@[simp] theorem concurrentDials_registerEndpoint (multiaddr : String) :
    (book.registerEndpoint key multiaddr now).1.concurrentDials = book.concurrentDials := by
  unfold DialBook.registerEndpoint
  split
  · rfl
  · dsimp only
    split <;> rfl

@[simp] theorem concurrentDials_registerEndpoints (multiaddrs : List String) :
    (book.registerEndpoints key multiaddrs now).1.concurrentDials = book.concurrentDials := by
  unfold DialBook.registerEndpoints
  dsimp only
  split
  · rfl
  · dsimp only
    split <;> rfl

@[simp] theorem concurrentDials_ingestRemoteAddrs (peerId : String) (addrs : List String) :
    (book.ingestRemoteAddrs peerId addrs now).concurrentDials = book.concurrentDials := by
  unfold DialBook.ingestRemoteAddrs
  split
  · rfl
  · dsimp only
    split
    · rfl
    · simp

end Books

section Waiters

variable {P : Permits} {m : PeerLinkManager} {hand : InHand} {key : DialKey}

theorem plane_associated (hand : InHand) (key : DialKey) :
    (m.plane hand).associated key = m.associated key := by
  unfold LinkPlane.associated associated
  simp only [plane, List.any_map, Option.any_map]
  rfl

theorem plane_standing (hand : InHand) (key : DialKey) :
    (m.plane hand).standing key = m.standing key := by
  have reached : (m.plane hand).reached key = m.reached key := by
    unfold LinkPlane.reached PeerLinkManager.reached
    simp only [plane, List.any_map]
    rfl
  have held (id : LinkId) : ((m.plane hand).links.find? fun link => link.id == id) =
      (m.table.findById id).map PeerLink.plain := List.find?_map
  have index : (m.plane hand).byDialKey = m.table.byDialKey := rfl
  unfold LinkPlane.standing standing LinkTable.findByDialKey
  rw [plane_associated, reached, index]
  cases m.table.byDialKey key with
  | none => rfl
  | some id =>
      rw [Option.bind_some, Option.bind_some, held]
      cases m.table.findById id <;> rfl

theorem standing_congr {other : PeerLinkManager} (links : other.table.links = m.table.links)
    (index : other.table.byDialKey = m.table.byDialKey)
    (known : other.book.find key = m.book.find key) : other.standing key = m.standing key := by
  unfold standing associated reached LinkTable.findByDialKey LinkTable.findById
  rw [links, index, known]

theorem plane_finishWaiters (result : LinkRoe) :
    (m.finishWaiters key result).plane hand = (m.plane hand).finish key result := by
  unfold finishWaiters LinkPlane.finish LinkPlane.answer
  rw [plane_standing]
  rfl

theorem waits_iff (hand : InHand) (key : DialKey) :
    (m.plane hand).Waits key ↔ m.waitersOf key ≠ [] := by
  unfold LinkPlane.Waits waitersOf
  rw [ne_eq, List.map_eq_nil_iff, List.filter_eq_nil_iff]
  simp [plane]

theorem Leads.owe : Leads P m hand m (hand.owing key) := by
  apply Leads.move
  intro _
  exact .retry (key :: (m.plane hand).retries) fun _ held => .inl (List.mem_cons_of_mem _ held)

theorem Leads.acquit (served : m.waitersOf key = [] ∨ (m.plane hand).Served key ∨
    key ∈ m.pendingCandidateRetry) : Leads P m (hand.owing key) m hand := by
  apply Leads.move
  intro _
  refine .retry (m.plane hand).retries fun other held => ?_
  rcases List.mem_cons.mp held with rfl | kept
  · rcases served with none | served | again
    · exact .inr (.inl fun waits => (waits_iff hand other).mp waits none)
    · exact .inr (.inr served)
    · exact .inl (List.mem_append_right _ again)
  · exact .inl kept

theorem finishWaiters_leads {result : LinkRoe}
    (told : result = .ok () → P.succeed (m.standing key)) :
    Leads P m (hand.owing key) (m.finishWaiters key result) hand := by
  have finished : Leads P m (hand.owing key) (m.finishWaiters key result) (hand.owing key) := by
    apply Leads.move
    intro _
    rw [plane_finishWaiters]
    refine .finish key result fun ok => ?_
    rw [plane_standing]
    exact told ok
  refine finished.trans (Leads.acquit (.inl ?_))
  unfold waitersOf finishWaiters
  rw [List.map_eq_nil_iff, List.filter_eq_nil_iff]
  intro waiter left
  simpa using (List.mem_filter.mp left).2

theorem failWaiters_leads (code : ManagerErr) (message : String) :
    Leads P m (hand.owing key) (m.failWaiters key code message) hand :=
  finishWaiters_leads fun ok => nomatch ok

end Waiters

section Callbacks

variable {P : Permits} {m : PeerLinkManager} {hand : InHand}

/-- A drop may be pending for a reason. -/
def Schedules (P : Permits) (handle : LinkHandle) (reason : LinkDropReason) : Prop :=
  (reason = .dualDialLost → P.lose handle) ∧ (reason = .requested → P.request handle)

theorem scheduleDropLink_leads {handle : LinkHandle} {reason : LinkDropReason}
    (permitted : Schedules P handle reason) :
    Leads P m hand (m.scheduleDropLink handle reason) hand := by
  have plane : (m.scheduleDropLink handle reason).plane hand =
      (m.plane hand).schedule handle reason := by
    unfold scheduleDropLink LinkPlane.schedule PeerLinkManager.plane
    simp only [List.append_assoc]
  apply Leads.move
  intro _
  rw [plane]
  by_cases lost : reason = .dualDialLost
  · subst lost
    exact .lose handle (permitted.1 rfl)
  · by_cases asked : reason = .requested
    · subst asked
      exact .request handle (permitted.2 rfl)
    · exact .schedule handle reason ⟨lost, asked⟩

theorem dropReasonFor_ne_requested (failure : ManagerFailure) :
    dropReasonFor failure ≠ .requested := by
  unfold dropReasonFor
  split <;> exact LinkDropReason.noConfusion

theorem refreshPresence_leads {handle : LinkHandle} :
    Leads P m hand (m.refreshPresence handle) hand := by
  unfold refreshPresence
  split
  · exact Leads.refl
  · rename_i link found
    split
    · rename_i up
      apply Leads.move
      intro _
      have plane : ({ m with table := m.table.setPresence link.remotePeerId link.transport link.id } :
          PeerLinkManager).plane hand = (m.plane hand).present link.plain := by
        unfold LinkTable.setPresence LinkPlane.present
        by_cases unknown : link.remotePeerId = ""
        · simp [unknown]
        · simp only [unknown, if_false, PeerLink.plain_remotePeerId, PeerLink.plain_transport,
            PeerLink.plain_id]
          rfl
      rw [plane]
      exact .present link.plain (mem_plane hand (findById_some (findLive_some found).1).1) up
    · exact Leads.refl

theorem refreshPresence_links {handle : LinkHandle} :
    (m.refreshPresence handle).table.links = m.table.links := by
  unfold refreshPresence
  split
  · rfl
  · split
    · unfold LinkTable.setPresence
      split <;> rfl
    · rfl

theorem refreshPresence_standing {handle : LinkHandle} (key : DialKey) :
    (m.refreshPresence handle).standing key = m.standing key := by
  have book : (m.refreshPresence handle).book = m.book := by
    unfold refreshPresence
    split
    · rfl
    · split <;> rfl
  have index : (m.refreshPresence handle).table.byDialKey = m.table.byDialKey := by
    unfold refreshPresence LinkTable.setPresence
    split
    · rfl
    · split
      · dsimp only
        split <;> rfl
      · rfl
  exact standing_congr refreshPresence_links index (by rw [book])

theorem nameNested_leads {provisional : DialKey} {handle : LinkHandle}
    (settled : ∀ link, m.table.findById handle.id = some link → link.phase ≠ .handshaking) :
    Leads P m hand (m.nameNested provisional handle) hand := by
  unfold nameNested
  split
  · exact Leads.refl
  · rename_i link found
    obtain ⟨held, same⟩ := findLive_some found
    dsimp only
    split
    · exact Leads.refl
    · split
      · exact Leads.refl
      · rename_i free
        apply bindDialAlias_leads
        · intro other again
          rw [held] at again
          cases again
          exact settled link (same ▸ held)
        · intro occupant holds _
          have named := (findByDialKey_some holds).1
          simp [LinkTable.containsDialKey, named] at free

theorem finishNestedCarrier_leads {provisional : DialKey} {handle : LinkHandle} {result : LinkRoe}
    (settled : ∀ link, m.table.findById handle.id = some link → link.phase ≠ .handshaking)
    (lost : ∀ failure, result = .error failure → dropReasonFor failure = .dualDialLost → P.lose handle) :
    Leads P m hand (m.finishNestedCarrier provisional handle result) hand := by
  unfold finishNestedCarrier
  split
  · exact (nameNested_leads settled).trans (Leads.same rfl)
  · rename_i failure
    dsimp only
    refine Leads.trans (scheduleDropLink_leads ?_) (Leads.same rfl)
    split
    · exact ⟨fun lost => LinkDropReason.noConfusion lost, fun asked => LinkDropReason.noConfusion asked⟩
    · exact ⟨lost failure rfl, fun asked => absurd asked (dropReasonFor_ne_requested failure)⟩

theorem dropReasonFor_wrap {child : LinkFailure}
    (lost : dropReasonFor (wrapPeerLinkFailure child) = .dualDialLost) : child.code = .dualDialLost := by
  obtain ⟨code, message⟩ := child
  cases code <;> first | rfl | exact LinkDropReason.noConfusion lost

variable [MultiaddrParser]

/-- The book of a dial that succeeded. -/
def promoted (m : PeerLinkManager) (key : DialKey) : PeerLinkManager :=
  let book := m.book.clearBackoff key
  { m with book := match book.find key with
      | some record => book.promoteDialWinner key record.multiaddr m.around.steadyMs
      | none => book.resetDialIndex key m.around.steadyMs }

/-- The slot a dial held says nothing of its key. -/
theorem endDial_promoted_standing (key : DialKey) :
    ((m.endDial key).promoted key).standing key = (m.promoted key).standing key := by
  have found : ((m.endDial key).promoted key).book.find key = (m.promoted key).book.find key := by
    unfold promoted
    show DialBook.find (match m.book.find key with | some _ => _ | none => _) _ =
      DialBook.find (match m.book.find key with | some _ => _ | none => _) _
    cases m.book.find key with
    | none => rfl
    | some record =>
        show (DialBook.promoteDialWinner _ _ _ _).find key = (DialBook.promoteDialWinner _ _ _ _).find key
        unfold DialBook.promoteDialWinner
        split <;> rfl
  exact standing_congr rfl rfl found

theorem promoted_leads {key : DialKey} : Leads P m hand (m.promoted key) hand := by
  apply rename_leads
  split
  · simp [DialBook.clearBackoff]
  · rfl

theorem dialSucceeded_leads {key : DialKey} {handle : LinkHandle}
    (told : P.succeed ((m.promoted key).standing key)) :
    Leads P m (hand.owing key) (m.dialSucceeded key handle) hand := by
  have finished : Leads P ((m.promoted key).refreshPresence handle) (hand.owing key)
      (m.dialSucceeded key handle) hand := by
    apply finishWaiters_leads
    intro _
    rw [refreshPresence_standing]
    exact told
  exact promoted_leads.trans (refreshPresence_leads.trans finished)

theorem dialFailed_leads {key : DialKey} {handle : LinkHandle} {failure : ManagerFailure}
    {suppress : Bool} (lost : dropReasonFor failure = .dualDialLost → P.lose handle) :
    Leads P m (hand.owing key) (m.dialFailed key handle failure suppress) hand := by
  let reason := if suppress then .dialAborted else dropReasonFor failure
  have scheduled : Schedules P handle reason := by
    unfold reason
    cases suppress
    · exact ⟨lost, fun asked => absurd asked (dropReasonFor_ne_requested failure)⟩
    · exact ⟨fun lost => LinkDropReason.noConfusion lost, fun asked => LinkDropReason.noConfusion asked⟩
  unfold dialFailed
  dsimp only
  split
  · -- the key moves from the hand to the retries
    let advanced := (m.book.forgetResolution key).advanceDialCandidate key m.around.steadyMs
    have first : Leads P m (hand.owing key)
        ({ m with book := advanced.1 }.scheduleDropLink handle reason) (hand.owing key) :=
      (rename_leads (by simp [advanced])).trans (scheduleDropLink_leads scheduled)
    refine first.trans (Leads.move fun _ => ?_)
    refine .retry (hand.due ++ (m.pendingCandidateRetry ++ [key])) fun other held => .inl ?_
    simp only [InHand.owing, plane, scheduleDropLink, List.cons_append, List.mem_cons,
      List.mem_append, List.not_mem_nil, or_false] at held ⊢
    tauto
  · refine Leads.trans (rename_leads ?_) ((scheduleDropLink_leads scheduled).trans
      (finishWaiters_leads fun ok => nomatch ok))
    cases suppress <;> simp [DialBook.resetDialIndex, DialBook.armBackoff, DialBook.modify]

theorem finishDial_leads {key : DialKey} {handle : LinkHandle} {result : LinkRoe}
    (lost : ∀ failure, result = .error failure → dropReasonFor failure = .dualDialLost → P.lose handle)
    (told : result = .ok () → P.succeed (((m.endDial key).promoted key).standing key)) :
    Leads P m (hand.firing (some (.dial key))) (m.finishDial key handle result) hand := by
  have ended : Leads P m (hand.firing (some (.dial key))) (m.endDial key) (hand.owing key) := by
    apply Leads.same
    unfold endDial plane DialBook.decConcurrentDials
    simp only [InHand.firing, InHand.owing, Nat.sub_sub, Nat.add_comm 1]
    rfl
  refine ended.trans ?_
  unfold finishDial
  dsimp only
  split
  · rename_i failure
    exact dialFailed_leads (lost failure rfl)
  · exact dialSucceeded_leads (told rfl)

/-- A callback runs that was taken out of its link, which is past its handshake. -/
theorem runEstablishCb_leads {cb : Option Establish} {handle : LinkHandle}
    {result : Except LinkFailure Unit}
    (settled : ∀ link, m.table.findById handle.id = some link → link.phase ≠ .handshaking)
    (lost : ∀ child, result = .error child → child.code = .dualDialLost → P.lose handle)
    (told : result = .ok () → ∀ key, cb = some (.dial key) →
      P.succeed ((m.promoted key).standing key)) :
    Leads P m (hand.firing cb) (m.runEstablishCb cb handle result) hand := by
  have wrapped (failure : ManagerFailure) (failed : wrapPeerLinkResult result = .error failure)
      (reason : dropReasonFor failure = .dualDialLost) : P.lose handle := by
    cases result with
    | ok => exact absurd failed (by simp [wrapPeerLinkResult])
    | error child =>
        cases failed
        exact lost child rfl (dropReasonFor_wrap reason)
  rcases cb with _ | (key | _ | provisional)
  · exact Leads.refl
  · refine finishDial_leads wrapped fun ok => ?_
    rw [endDial_promoted_standing]
    refine told ?_ key rfl
    cases result with
    | ok => rfl
    | error child => exact absurd ok (by simp [wrapPeerLinkResult])
  · cases result with
    | ok => exact Leads.refl
    | error child =>
        apply scheduleDropLink_leads
        exact ⟨fun reason => lost child rfl (dropReasonFor_wrap reason),
          fun asked => absurd asked (dropReasonFor_ne_requested _)⟩
  · exact finishNestedCarrier_leads settled wrapped

theorem failAssociation_leads {id : LinkId} {failure : LinkFailure}
    (other : failure.code ≠ .dualDialLost) :
    Leads P m hand (m.failAssociation id failure) hand := by
  unfold failAssociation
  split
  · exact Leads.refl
  · rename_i link found
    obtain ⟨held, same⟩ := findById_some found
    subst same
    let failed := m.modifyLink link.id fun link => { link with phase := .backoff, establishCb := none }
    have ended : Leads P m hand failed (hand.firing link.establishCb) := by
      apply Leads.move
      intro _
      rw [← plane_settle]
      have plane : failed.plane hand = (m.plane hand).modify link.id fun link =>
          { link with phase := .backoff, establishCb := none } :=
        plane_modifyLink hand fun _ _ _ => rfl
      rw [plane]
      exact .fail link.plain (mem_plane hand held)
    refine ended.trans (runEstablishCb_leads ?_ ?_ ?_)
    · intro after again
      obtain ⟨stillHeld, sameId⟩ := findById_some again
      obtain ⟨before, _, rfl⟩ := List.mem_map.mp stillHeld
      by_cases this : before.id = link.id
      · rw [if_pos this]
        exact PeerLinkPhase.noConfusion
      · rw [if_neg this] at sameId
        exact absurd sameId this
    · intro child failed lost
      cases failed
      exact absurd lost other
    · exact fun ok => nomatch ok

end Callbacks

end Amp.PeerLinkManager
