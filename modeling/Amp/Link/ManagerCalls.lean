import Amp.Link.ManagerElection
import Mathlib.Data.List.Dedup

set_option autoImplicit false

/- The rows of moves behind dials, accepted links and Ticks, up to every call the manager
takes. -/
namespace Amp.PeerLinkManager

open LinkPlane (Permits Move Moves Sound)

section Dials

variable {P : Permits} {m : PeerLinkManager} {hand : InHand} {key : DialKey}

/-- The link `insertLink` puts in the table. -/
def inserted (m : PeerLinkManager) (link : PeerLink) : PeerLink :=
  { link with
    id := m.table.nextId + 1
    generation := m.table.nextGeneration + 1
    phase := .handshaking
    handshakeStartedMs := m.around.nowMs }

theorem atLinkCapacity_eq : m.atLinkCapacity = decide (m.limits.maxLinks ≤ m.slots) := by
  unfold atLinkCapacity
  have split := List.length_eq_countP_add_countP PeerLink.holdsSlot (l := m.table.links)
  have closed : m.table.links.countP (fun link => decide ¬ link.holdsSlot = true) =
      m.table.links.countP fun link => !link.isCarrierBacked && link.association.closed := by
    apply List.countP_congr
    intro link _
    simp [PeerLink.holdsSlot]
  rw [closed] at split
  dsimp only
  rw [split, Nat.add_sub_cancel]
  rfl

theorem slots_lt_of_room (room : ¬ m.atLinkCapacity = true) : m.slots < m.limits.maxLinks := by
  rw [atLinkCapacity_eq, decide_eq_true_iff] at room
  omega

/-- A link of our own making comes in where a slot is free. -/
theorem admits_own {link : PeerLink} (own : (link.outbound || link.isCarrierBacked) = true)
    (room : ¬ m.atLinkCapacity = true) : P.Admits (m.plane hand) link := by
  unfold Permits.Admits
  rw [if_pos own, plane_slots]
  exact slots_lt_of_room room

/-- A link that is no dial of ours enters the table. -/
theorem insertLink_leads {link : PeerLink} (coherent : (m.inserted link).Coherent)
    (notDial : (m.inserted link).isDialing = false)
    (vacant : link.isCarrierBacked = true ∨ m.table.byDialKey link.peerKey = none)
    (room : P.Admits (m.plane hand) (m.inserted link).plain) :
    Leads P m hand (m.insertLink link) hand := by
  apply Leads.move
  intro _
  have plane : (m.insertLink link).plane hand = (m.plane hand).enter (m.inserted link).plain := by
    unfold LinkPlane.enter
    rw [if_neg (by simp [notDial])]
    unfold insertLink LinkTable.insert PeerLinkManager.plane
    simp only [List.map_append, List.map_cons, List.map_nil]
    rfl
  rw [plane]
  refine .enter _ rfl coherent rfl (vacant.imp id fun free other _ named => ?_) room
  have none : m.table.byDialKey link.peerKey = some other.id := named
  rw [free] at none
  cases none

/-- A key whose link in the index, if it has one, is not Connected. -/
theorem vacant_of_free (sound : (m.plane hand).Sound) {key : DialKey}
    (free : ¬ (m.table.findByDialKey key).any PeerLink.connected = true) : (m.plane hand).Vacant key := by
  intro shown held named
  obtain ⟨link, listed, rfl⟩ := List.mem_map.mp held
  have there : (m.table.findById link.id).isSome := by
    rw [LinkTable.findById, List.find?_isSome]
    exact ⟨link, listed, by simp⟩
  obtain ⟨occupant, found⟩ := Option.isSome_iff_exists.mp there
  obtain ⟨mem, same⟩ := findById_some found
  have shown := congrArg PeerLink.connected (sound.same (mem_plane hand mem) (mem_plane hand listed) same)
  have indexed : m.table.findByDialKey key = some occupant := by
    have named : m.table.byDialKey key = some link.id := named
    unfold LinkTable.findByDialKey
    rw [named]
    exact found
  rw [indexed] at free
  rw [← shown]
  exact Bool.eq_false_iff.mpr free

theorem find_setResolution (book : DialBook) (multiaddr : String) (endpoint : Adp.IpEndpoint)
    (now : Int) (key : DialKey) :
    (book.setResolution multiaddr endpoint now).find key = none ↔ book.find key = none := by
  unfold DialBook.find DialBook.setResolution
  simp only [Option.map_eq_none_iff, List.find?_eq_none, List.mem_map]
  constructor
  · intro none entry held
    have again := none _ ⟨entry, held, rfl⟩
    split at again <;> exact again
  · rintro none entry ⟨before, held, rfl⟩
    have again := none before held
    split <;> exact again

variable [MultiaddrParser]

theorem startOutbound_leads {id : LinkId} : Leads P m hand (m.startOutbound id) hand := by
  unfold startOutbound
  split
  · exact Leads.refl
  · exact failAssociation_leads LinkErr.noConfusion

/-- A dial takes its slot and the key out of the hand. -/
theorem dialLink_leads {peerId : String} (idle : hand.fired = 0)
    (vacant : ¬ (m.table.findByDialKey key).any PeerLink.connected = true)
    (room : ¬ m.atLinkCapacity = true) :
    Leads P m (hand.owing key) (m.dialLink key peerId) hand := by
  let link : PeerLink := {
    id := 0
    generation := 0
    peerKey := key
    remotePeerId := peerId
    outbound := true
    isCarrierBacked := false
    establishCb := some (.dial key) }
  let dialing := { m with book := m.book.incConcurrentDials }.insertLink link
  have entered : Leads P m (hand.owing key) dialing (hand.owing key) := by
    apply Leads.move
    intro sound
    have plane : dialing.plane (hand.owing key) =
        (m.plane (hand.owing key)).enter (m.inserted link).plain := by
      have isDial : (m.inserted link).plain.isDialing = true := rfl
      unfold LinkPlane.enter
      rw [if_pos isDial]
      unfold dialing insertLink LinkTable.insert PeerLinkManager.plane DialBook.incConcurrentDials
        InHand.owing
      simp only [List.map_append, List.map_cons, List.map_nil, idle, Nat.sub_zero]
      rfl
    rw [plane]
    exact .enter _ rfl ⟨rfl, rfl, rfl, rfl⟩ rfl (.inr (vacant_of_free sound vacant))
      (admits_own rfl room)
  have acquitted : Leads P dialing (hand.owing key) dialing hand := by
    apply Leads.acquit
    refine .inr (.inl (.inl ⟨(m.inserted link).plain, ?_, ?_⟩))
    · apply mem_plane
      exact List.mem_append_right _ (List.mem_singleton.mpr rfl)
    · show (some (Establish.dial key) == some (.dial key)) = true
      exact beq_self_eq_true _
  exact entered.trans (acquitted.trans startOutbound_leads)

theorem giveUpCandidates_leads {message : String} :
    Leads P m (hand.owing key) (m.giveUpCandidates key message) hand := by
  refine Leads.trans (rename_leads ?_) (failWaiters_leads _ _)
  rfl

/-- A Connected occupant of a key that is about to be dialed answers its waiters. -/
def OccupantAnswers (P : Permits) (m : PeerLinkManager) (key : DialKey) : Prop :=
  (m.table.findByDialKey key).any PeerLink.connected = true →
    P.succeed (({ m with book := m.book.resetDialIndex key m.around.steadyMs } :
      PeerLinkManager).standing key)

theorem beginOutboundDial_leads {turns : Nat} (idle : hand.fired = 0)
    (told : OccupantAnswers P m key) :
    Leads P m (hand.owing key) (beginOutboundDial turns m key) hand := by
  induction turns using Nat.strong_induction_on generalizing m with
  | _ turns ih =>
      unfold beginOutboundDial
      by_cases occupied : (m.table.findByDialKey key).any PeerLink.connected = true
      · rw [if_pos occupied]
        refine Leads.trans (rename_leads ?_) (finishWaiters_leads fun _ => told occupied)
        rfl
      · rw [if_neg occupied]
        split
        · exact failWaiters_leads _ _
        · split
          · exact failWaiters_leads _ _
          · split
            · exact failWaiters_leads _ _
            · rename_i room
              split
              · split
                · -- the resolution under way takes the key over
                  let asked := { m with
                    resolving := if key ∈ m.resolving then m.resolving else m.resolving ++ [key] }
                  have resolves : Leads P m (hand.owing key) asked (hand.owing key) :=
                    Leads.move fun _ => .resolve key
                  refine resolves.trans (Leads.acquit (.inr (.inl (.inr ?_))))
                  show key ∈ if key ∈ m.resolving then m.resolving else m.resolving ++ [key]
                  split
                  · assumption
                  · exact List.mem_append_right _ (List.mem_singleton.mpr rfl)
                · dsimp only
                  split
                  · rename_i turns book advanced
                    have same : book.concurrentDials = m.book.concurrentDials := by
                      have kept := concurrentDials_advanceDialCandidate m.book key m.around.steadyMs
                      rwa [advanced] at kept
                    exact Leads.trans (rename_leads same)
                      (ih turns (Nat.lt_succ_self turns) fun again => absurd again occupied)
                  · exact giveUpCandidates_leads
              · split
                · exact failWaiters_leads _ _
                · exact dialLink_leads idle occupied room

/-- The state in which a host's resolution leads to a dial again. -/
def resumed (m : PeerLinkManager) (key : DialKey) (multiaddr : String)
    (result : Except String Adp.IpEndpoint) : PeerLinkManager :=
  match result with
  | .ok endpoint => { m with book := m.book.setResolution multiaddr endpoint m.around.steadyMs }
  | .error _ =>
      if (m.book.find key).any fun record => record.multiaddr == multiaddr then
        { m with book := (m.book.advanceDialCandidate key m.around.steadyMs).1 }
      else m

/-- What `onHostResolved` needs of the state it finds. -/
structure ResolvesWell (P : Permits) (m : PeerLinkManager) (hand : InHand) (key : DialKey)
    (multiaddr : String) (result : Except String Adp.IpEndpoint) : Prop where
  /-- The key is unknown now and has waiters still. -/
  unknown : m.book.find key = none → m.waitersOf key ≠ [] → P.unresolve (m.plane hand) key
  told : m.waitersOf key ≠ [] → OccupantAnswers P (m.resumed key multiaddr result) key

theorem onHostResolved_leads {multiaddr : String} {result : Except String Adp.IpEndpoint}
    (idle : hand.fired = 0) (well : ResolvesWell P m hand key multiaddr result) :
    Leads P m hand (m.onHostResolved key multiaddr result) hand := by
  let book := match result with
    | .ok endpoint => m.book.setResolution multiaddr endpoint m.around.steadyMs
    | .error _ => m.book
  have same : book.concurrentDials = m.book.concurrentDials := by
    unfold book
    split <;> rfl
  have unnamed (gone : book.find key = none) : m.book.find key = none := by
    unfold book at gone
    split at gone
    · exact (find_setResolution m.book multiaddr _ _ key).mp gone
    · exact gone
  let resolved := { m with resolving := m.resolving.filter (· != key), book := book }
  -- the key leaves the resolutions, and the book may know an address more
  have leaves {hand : InHand} (served : ¬ (m.plane hand).Waits key ∨ key ∈ (m.plane hand).retries ∨
      P.unresolve (m.plane hand) key) : Leads P m hand resolved hand := by
    have left : Leads P m hand { m with resolving := m.resolving.filter (· != key) } hand :=
      Leads.move fun _ => .unresolve key served
    exact left.trans (rename_leads same)
  unfold onHostResolved
  dsimp only
  split
  · rename_i gone
    apply leaves
    by_cases waits : m.waitersOf key = []
    · exact .inl fun held => (waits_iff hand key).mp held waits
    · exact .inr (.inr (well.unknown (unnamed gone) waits))
  · rename_i none
    exact leaves (.inl fun held => (waits_iff hand key).mp held none)
  · rename_i record first rest known waits
    have waiting : m.waitersOf key = first :: rest := waits
    have told := well.told (waiting ▸ List.cons_ne_nil first rest)
    refine (Leads.owe.trans (leaves (.inr (.inl List.mem_cons_self)))).trans ?_
    cases result with
    | ok endpoint =>
        split
        · exact beginOutboundDial_leads idle told
        · exact beginOutboundDial_leads idle told
    | error message =>
        split
        · rename_i changed
          refine beginOutboundDial_leads idle ?_
          have other : (m.book.find key).any (fun record => record.multiaddr == multiaddr) = false := by
            rw [show m.book.find key = some record from known]
            simpa using changed
          unfold resumed at told
          rw [other] at told
          exact told
        · rename_i same
          have this : (m.book.find key).any (fun record => record.multiaddr == multiaddr) = true := by
            rw [show m.book.find key = some record from known]
            simpa using same
          unfold resumed at told
          rw [this] at told
          dsimp only
          unfold failCandidate
          split
          · rename_i advanced more
            have kept := concurrentDials_advanceDialCandidate m.book key m.around.steadyMs
            have moved : (m.book.advanceDialCandidate key m.around.steadyMs).1 = advanced := by
              rw [show m.book.advanceDialCandidate key m.around.steadyMs = (advanced, true) from more]
            rw [moved] at kept
            simp only [if_true, moved] at told
            exact Leads.trans (rename_leads kept) (beginOutboundDial_leads idle told)
          · exact giveUpCandidates_leads

theorem retry_leads (hand : InHand) (idle : hand.fired = 0)
    (told : m.waitersOf key ≠ [] → OccupantAnswers P m key) :
    Leads P m (hand.owing key) (m.retry key) hand := by
  unfold retry
  split
  · rename_i none
    exact Leads.acquit (.inl none)
  · rename_i waits
    exact beginOutboundDial_leads idle (told waits)

end Dials

section Calls

variable {P : Permits} {m : PeerLinkManager} {hand : InHand} {key : DialKey} {cb : LinkCb}

def InHand.calling (hand : InHand) (cb : LinkCb) : InHand :=
  { hand with calls := cb.toList ++ hand.calls }

theorem complete_leads {result : LinkRoe} (told : result = .ok () → P.succeed (m.standing key)) :
    Leads P m (hand.calling cb) (m.complete key cb result) hand := by
  apply Leads.move
  intro _
  have plane : (m.complete key cb result).plane hand = { m.plane (hand.calling cb) with
      answers := m.answers ++ ((m.plane (hand.calling cb)).answer key result cb).toList
      calls := hand.calls } := by
    unfold LinkPlane.answer
    rw [plane_standing]
    rfl
  rw [plane]
  refine .answer key result cb hand.calls rfl fun ok => ?_
  rw [plane_standing]
  exact told ok

theorem joinWaiters_leads (served : key ∈ m.resolving ∨ key ∈ (m.plane hand).retries ∨
    P.join (m.plane (hand.calling cb)) key) :
    Leads P m (hand.calling cb) (m.joinWaiters key cb) hand :=
  Leads.move fun _ => .join key cb hand.calls rfl served

/-- A presence entry names a link of the peer. -/
theorem pick_some (sound : (m.plane hand).Sound) {peer : String} {carrier : Bool} {link : PeerLink}
    (found : m.table.pick ((m.table.byPeer peer).entry carrier) = some link) :
    link ∈ m.table.links ∧ link.remotePeerId = peer ∧ link.connected = true := by
  obtain ⟨entry, up⟩ := Option.filter_eq_some_iff.mp found
  obtain ⟨id, present, byId⟩ := Option.bind_eq_some_iff.mp entry
  obtain ⟨mem, same⟩ := findById_some byId
  obtain ⟨_, shown, shownMem, isEntry, isPeer, _⟩ := sound.known peer carrier id present
  have this : link.plain = shown :=
    sound.same (mem_plane hand mem) shownMem (same.trans isEntry.symm)
  exact ⟨mem, (congrArg PeerLink.remotePeerId this).trans isPeer, up⟩

theorem firstConnected_some {peer : String} {link : PeerLink}
    (found : m.table.firstConnected peer = some link) :
    link ∈ m.table.links ∧ link.remotePeerId = peer ∧ link.connected = true := by
  have matched := List.find?_some found
  simp only [Bool.and_eq_true, beq_iff_eq] at matched
  exact ⟨(m.table.order.perm _).mem_iff.mp (List.mem_of_find?_eq_some found), matched.2, matched.1⟩

/-- The peer index and the walk over the table lead to links of the peer asked for. -/
theorem findByPeerId_some (sound : (m.plane hand).Sound) {peer : String} {link : PeerLink}
    (found : m.table.findByPeerId peer = some link) :
    link ∈ m.table.links ∧ link.remotePeerId = peer ∧ link.connected = true := by
  unfold LinkTable.findByPeerId at found
  split at found
  · cases found
  · rcases Option.or_eq_some_iff.mp found with first | ⟨_, later⟩
    · exact pick_some sound (show m.table.pick ((m.table.byPeer peer).entry false) = some link from first)
    · rcases Option.or_eq_some_iff.mp later with second | ⟨_, walked⟩
      · exact pick_some sound (show m.table.pick ((m.table.byPeer peer).entry true) = some link from second)
      · exact firstConnected_some walked

theorem connectedAdp_some (sound : (m.plane hand).Sound) {existing : PeerLink}
    (found : m.connectedAdp key = some existing) :
    m.table.findById existing.id = some existing ∧ existing.connected = true ∧
      existing.isCarrierBacked = false ∧
      (m.book.find key).map EndpointRecord.peerId = some existing.remotePeerId := by
  unfold connectedAdp at found
  obtain ⟨byPeer, fits⟩ := Option.filter_eq_some_iff.mp found
  obtain ⟨record, known, held⟩ := Option.bind_eq_some_iff.mp byPeer
  simp only [Bool.and_eq_true, Bool.not_eq_true'] at fits
  obtain ⟨mem, named, _⟩ := findByPeerId_some sound held
  refine ⟨findById_of_mem sound mem, fits.1, fits.2, ?_⟩
  rw [known, Option.map_some, named]

/-- A link still there, under whatever key. -/
def Stays (m : PeerLinkManager) (link : PeerLink) : Prop :=
  ∃ after ∈ m.table.links, after.id = link.id ∧ after.connected = link.connected ∧
    after.isCarrierBacked = link.isCarrierBacked ∧ after.remotePeerId = link.remotePeerId

theorem dropLinkNow_stays {link occupant : PeerLink} (held : link ∈ m.table.links)
    (found : m.table.findById occupant.id = some occupant) (apart : link.id ≠ occupant.id)
    (reason : LinkDropReason) : (m.dropLinkNow occupant reason).Stays link := by
  have shown : link.plain ∈ ((m.dropLinkNow occupant reason).plane {}).links := by
    rw [plane_dropLinkNow found]
    exact List.mem_filter.mpr ⟨mem_plane {} held, by simpa using apart⟩
  obtain ⟨after, stillHeld, same⟩ := List.mem_map.mp shown
  refine ⟨after, stillHeld, ?_, ?_, ?_, ?_⟩
  · simpa using congrArg PeerLink.id same
  · simpa using congrArg PeerLink.connected same
  · simpa using congrArg PeerLink.isCarrierBacked same
  · simpa using congrArg PeerLink.remotePeerId same

theorem bindDialKey_stays {link : PeerLink} (held : link ∈ m.table.links) (id : LinkId)
    (key : DialKey) : (m.bindDialKey id key).Stays link := by
  have same : m.Stays link := ⟨link, held, rfl, rfl, rfl, rfl⟩
  unfold bindDialKey LinkTable.bindDialKey
  split
  · exact same
  · rename_i bound found
    split
    · exact same
    · split
      · exact same
      · have links : (m.table.rebind bound key).links =
            (m.table.modify bound.id fun link => { link with peerKey := key }).links := by
          unfold LinkTable.rebind LinkTable.unindex
          split <;> rfl
        unfold Stays
        dsimp only
        rw [links]
        refine ⟨_, List.mem_map.mpr ⟨link, held, rfl⟩, ?_⟩
        split <;> exact ⟨rfl, rfl, rfl, rfl⟩

/-- A Connected link is not displaced by its new key. -/
theorem bindDialAlias_stays {link : PeerLink} (held : link ∈ m.table.links)
    (up : link.connected = true) (sound : (m.plane hand).Sound) (id : LinkId) (key : DialKey) :
    (m.bindDialAlias id key).Stays link := by
  have same : m.Stays link := ⟨link, held, rfl, rfl, rfl, rfl⟩
  unfold bindDialAlias
  split
  · exact same
  · split
    · exact same
    · split
      · rename_i displaced
        unfold displaces at displaced
        unfold dropLink
        split
        · exact bindDialKey_stays held id key
        · rename_i occupant holds
          rw [holds] at displaced
          simp only [Bool.and_eq_true, Bool.not_eq_true'] at displaced
          have found := (findByDialKey_some holds).2
          have apart : link.id ≠ occupant.id := by
            intro this
            have again := findById_of_mem sound held
            rw [this, found] at again
            cases again
            exact absurd up (by simp [displaced.1])
          obtain ⟨after, stillHeld, facts⟩ := dropLinkNow_stays held found apart .displaced
          obtain ⟨last, lastHeld, id', up', adp', peer'⟩ := bindDialKey_stays stillHeld id key
          exact ⟨last, lastHeld, id'.trans facts.1, up'.trans facts.2.1, adp'.trans facts.2.2.1,
            peer'.trans facts.2.2.2⟩
      · exact bindDialKey_stays held id key

theorem bindDialAlias_book (id : LinkId) (key : DialKey) : (m.bindDialAlias id key).book = m.book := by
  unfold bindDialAlias dropLink
  split
  · rfl
  · split
    · rfl
    · split
      · split <;> rfl
      · rfl

theorem associated_of_stays {link : PeerLink} {key : DialKey} (stays : m.Stays link)
    (up : link.connected = true) (adp : link.isCarrierBacked = false)
    (known : (m.book.find key).map EndpointRecord.peerId = some link.remotePeerId) :
    m.associated key = true := by
  obtain ⟨after, held, _, isUp, isAdp, isPeer⟩ := stays
  obtain ⟨record, found, peer⟩ := Option.map_eq_some_iff.mp known
  unfold associated
  rw [List.any_eq_true]
  exact ⟨after, held, by simp [isUp, up, isAdp, adp, found, peer, isPeer]⟩

theorem findLinkForKey_mem {carrier : Bool} {link : PeerLink}
    (found : m.findLinkForKey key carrier = some link) : link ∈ m.table.links := by
  unfold findLinkForKey at found
  rcases Option.or_eq_some_iff.mp found with named | ⟨_, walked⟩
  · obtain ⟨held, _⟩ := Option.filter_eq_some_iff.mp named
    exact (findById_some (findByDialKey_some held).2).1
  · exact (m.table.order.perm _).mem_iff.mp (List.mem_of_find?_eq_some walked)

theorem dropStale_leads
    (permitted : ∀ existing, m.findAdpLinkForKey key = some existing → existing.connected = false →
      P.drop existing.plain .displaced) : Leads P m hand (m.dropStale key) hand := by
  intro sound
  unfold dropStale
  split
  · exact Relation.ReflTransGen.refl
  · rename_i existing found
    split
    · exact Relation.ReflTransGen.refl
    · rename_i down
      have held := findById_of_mem sound (findLinkForKey_mem found)
      exact dropLinkNow_leads held (permitted existing found (by simpa using down)) sound

/-- A drop does not bring a Connected link under a key. -/
theorem dropStale_occupant (sound : (m.plane hand).Sound)
    (free : (m.table.findByDialKey key).any PeerLink.connected = false) :
    ((m.dropStale key).table.findByDialKey key).any PeerLink.connected = false := by
  unfold dropStale
  split
  · exact free
  · rename_i existing found
    split
    · exact free
    · have held := findById_of_mem sound (findLinkForKey_mem found)
      by_contra occupied
      obtain ⟨occupant, holds, up⟩ := (Option.any_eq_true _ _).mp (by simpa using occupied)
      obtain ⟨named, stillHeld⟩ := findByDialKey_some holds
      have index : ((m.dropLinkNow existing .displaced).plane hand).byDialKey key = some occupant.id :=
        named
      have shown : occupant.plain ∈ ((m.dropLinkNow existing .displaced).plane hand).links :=
        mem_plane hand (findById_some stillHeld).1
      rw [plane_dropLinkNow held] at index shown
      have before : m.table.byDialKey key = some occupant.id := (LinkPlane.unindex_some index).1
      obtain ⟨link, mem, same⟩ := List.mem_map.mp (List.mem_of_mem_filter shown)
      have id : link.id = occupant.id := by simpa using congrArg PeerLink.id same
      have connected : link.connected = occupant.connected := by
        simpa using congrArg PeerLink.connected same
      have byKey : m.table.findByDialKey key = some link :=
        Option.bind_eq_some_iff.mpr ⟨occupant.id, before, id ▸ findById_of_mem sound mem⟩
      rw [byKey] at free
      simp [connected, up] at free

variable [MultiaddrParser]

theorem startAssociation_leads (idle : hand.fired = 0)
    (free : (m.table.findByDialKey key).any PeerLink.connected = false) :
    Leads P m (hand.calling cb) (m.startAssociation key cb) hand := by
  unfold startAssociation
  split
  · exact complete_leads fun ok => nomatch ok
  · split
    · exact complete_leads fun ok => nomatch ok
    · dsimp only
      refine Leads.trans (rename_leads
        (concurrentDials_eraseExpiredBackoff m.book key m.around.steadyMs)) ?_
      split
      · exact complete_leads fun ok => nomatch ok
      · split
        · exact complete_leads fun ok => nomatch ok
        · refine Leads.trans (rename_leads ?_) (Leads.owe.trans
            ((joinWaiters_leads (.inr (.inl List.mem_cons_self))).trans
              (beginOutboundDial_leads idle ?_)))
          · rfl
          · exact fun occupied => absurd occupied (by simpa [joinWaiters] using free)

/-- What `ensureAssociation` needs of the state it finds, branch by branch. -/
structure EnsuresWell (P : Permits) (m : PeerLinkManager) (hand : InHand) (key : DialKey)
    (cb : LinkCb) : Prop where
  good : ∀ standing, standing.overAdp = true → P.succeed standing
  occupied : (m.table.findByDialKey key).any PeerLink.connected = true → P.succeed (m.standing key)
  displaced : ∀ existing occupant, m.connectedAdp key = some existing → existing.peerKey ≠ key →
    m.table.findByDialKey key = some occupant → m.displaces existing.id key = true →
    P.drop occupant.plain .displaced
  joins : (m.table.findByDialKey key).any PeerLink.connected = false → m.connectedAdp key = none →
    key ∉ m.resolving → (m.findAdpLinkForKey key).any PeerLink.underway = true →
    P.join (m.plane (hand.calling cb)) key
  stale : (m.table.findByDialKey key).any PeerLink.connected = false → m.connectedAdp key = none →
    key ∉ m.resolving → ∀ existing, m.findAdpLinkForKey key = some existing →
    existing.underway = false → existing.connected = false → P.drop existing.plain .displaced

theorem ensureAssociation_leads (idle : hand.fired = 0) (well : EnsuresWell P m hand key cb) :
    Leads P m (hand.calling cb) (m.ensureAssociation key cb) hand := by
  intro sound
  unfold ensureAssociation
  by_cases occupied : (m.table.findByDialKey key).any PeerLink.connected = true
  · rw [if_pos occupied]
    exact complete_leads (fun _ => well.occupied occupied) sound
  · rw [if_neg occupied]
    have free : (m.table.findByDialKey key).any PeerLink.connected = false := by
      simpa using occupied
    split
    · rename_i existing found
      obtain ⟨held, up, adp, known⟩ := connectedAdp_some sound found
      have bound : Leads P m (hand.calling cb)
          (if existing.peerKey = key then m else m.bindDialAlias existing.id key)
          (hand.calling cb) := by
        split
        · exact Leads.refl
        · rename_i other
          apply bindDialAlias_leads
          · intro other again
            rw [held] at again
            cases again
            intro underway
            simp [PeerLink.connected, underway] at up
          · exact fun occupant holds displaces =>
              well.displaced existing occupant found other holds displaces
      refine bound.trans (complete_leads fun _ => ?_) sound
      have associated : (if existing.peerKey = key then m else
          m.bindDialAlias existing.id key).associated key = true := by
        have mem := (findById_some held).1
        split
        · exact associated_of_stays ⟨existing, mem, rfl, rfl, rfl, rfl⟩ up adp known
        · refine associated_of_stays (bindDialAlias_stays mem up sound _ _) up adp ?_
          rw [bindDialAlias_book]
          exact known
      exact well.good _ associated
    · rename_i absent
      split
      · rename_i resolving
        exact joinWaiters_leads (.inl resolving) sound
      · rename_i settled
        split
        · rename_i underway
          exact joinWaiters_leads (.inr (.inr (well.joins free absent settled underway))) sound
        · rename_i quiet
          refine (Leads.trans (dropStale_leads ?_) (startAssociation_leads idle
            (dropStale_occupant sound free))) sound
          intro existing found down
          refine well.stale free absent settled existing found ?_ down
          rw [found] at quiet
          simpa using quiet

theorem abortLink_leads : Leads P m hand (m.abortLink key) hand := by
  unfold abortLink
  split
  · exact Leads.refl
  · rename_i link _
    split
    · have noted : Leads P m hand
          { m with suppressDialBackoff := m.suppressDialBackoff ++ [key] } hand := Leads.same rfl
      exact noted.trans (failAssociation_leads LinkErr.noConfusion)
    · split
      · exact Leads.refl
      · exact scheduleDropLink_leads ⟨fun lost => LinkDropReason.noConfusion lost,
          fun asked => LinkDropReason.noConfusion asked⟩

theorem abortInflightDial_leads : Leads P m hand (m.abortInflightDial key) hand := by
  have cleared : Leads P m (hand.owing key) { m with book := m.book.clearBackoff key }
      (hand.owing key) := rename_leads rfl
  let forgets := { m with
    book := m.book.clearBackoff key
    pendingCandidateRetry := m.pendingCandidateRetry.filter (· != key)
    suppressDialBackoff := m.suppressDialBackoff.filter (· != key) }
  have forgotten : Leads P { m with book := m.book.clearBackoff key } (hand.owing key) forgets
      (hand.owing key) := by
    refine Leads.move fun _ => .retry (key :: hand.due ++ forgets.pendingCandidateRetry) ?_
    intro other held
    left
    by_cases this : other = key
    · exact this ▸ List.mem_cons_self
    · simp only [forgets, InHand.owing, plane, List.cons_append, List.mem_cons, List.mem_append,
        List.mem_filter, bne_iff_ne, ne_eq, this, not_false_eq_true, and_true, false_or] at held ⊢
      exact held
  exact Leads.owe.trans (cleared.trans (forgotten.trans ((failWaiters_leads _ _).trans abortLink_leads)))

end Calls

section Arrivals

variable {P : Permits} {m : PeerLinkManager} {hand : InHand}

theorem oldest_mem {links : List PeerLink} {link : PeerLink} (found : oldest links = some link) :
    link ∈ links := by
  induction links generalizing link with
  | nil => cases found
  | cons first rest ih =>
      unfold oldest at found
      split at found
      · cases found
        exact List.mem_cons_self
      · rename_i other later
        split at found
        · cases found
          exact List.mem_cons_of_mem first (ih later)
        · cases found
          exact List.mem_cons_self

/-- An inbound link that is evicted is idle. -/
theorem idlest_mem {victim : PeerLink}
    (found : oldest (m.table.forEach.filter m.idleInbound) = some victim) :
    victim ∈ m.table.links ∧ m.idleInbound victim = true := by
  have idle := List.mem_filter.mp (oldest_mem found)
  exact ⟨(m.table.order.perm _).mem_iff.mp idle.1, idle.2⟩

theorem makeRoom_leads : Leads P m hand m.makeRoom.1 hand := by
  unfold makeRoom evictIdleInbound
  split
  · split
    · exact Leads.refl
    · rename_i link found
      let closes := m.modifyLink link.id fun link =>
        { link with association := { link.association with closed := true } }
      have closed : Leads P m hand closes hand :=
        report_leads hand (idlest_mem found).1 (fun _ => rfl) fun _ => .inl rfl
      exact closed.trans (scheduleDropLink_leads ⟨fun lost => LinkDropReason.noConfusion lost,
        fun asked => LinkDropReason.noConfusion asked⟩)
  · exact Leads.refl

/-- A link may be accepted once there is room for it. -/
def AcceptsWell (P : Permits) (m : PeerLinkManager) (hand : InHand) : Prop :=
  m.makeRoom.2 = true → m.makeRoom.1.pendingInbound < m.makeRoom.1.limits.maxPendingInbound →
    P.accept (m.makeRoom.1.plane hand)

theorem onInboundConnection_leads {assoc : String} (well : AcceptsWell P m hand) :
    Leads P m hand (m.onInboundConnection assoc) hand := by
  have room : Leads P m hand m.makeRoom.1 hand := makeRoom_leads
  unfold onInboundConnection
  unfold AcceptsWell at well
  split
  · rename_i after made
    rwa [made] at room
  · rename_i after made
    rw [made] at room well
    dsimp only
    split
    · exact room
    · rename_i place
      split
      · exact room
      · rename_i free
        refine room.trans (insertLink_leads ?_ ?_ (.inr ?_) ?_)
        · exact ⟨rfl, rfl, rfl⟩
        · rfl
        · rw [Bool.not_eq_true, LinkTable.containsDialKey, Option.isSome_eq_false_iff,
            Option.isNone_iff_eq_none] at free
          exact free
        · exact well rfl (Nat.lt_of_not_le place)

variable [MultiaddrParser]

theorem nestLink_leads {key : DialKey} {via : Option LinkId} {initiator : Bool} {cb : LinkCb}
    (room : ¬ m.atLinkCapacity = true) : Leads P m hand (m.nestLink key via initiator cb) hand := by
  have joined : Leads P m hand (m.joinNestedWaiters (m.table.nextId + 1) cb) hand := Leads.same rfl
  have still : ¬ (m.joinNestedWaiters (m.table.nextId + 1) cb).atLinkCapacity = true := room
  unfold nestLink
  dsimp only
  refine joined.trans ?_
  split
  · refine Leads.trans (insertLink_leads ?_ ?_ ?_ ?_) startOutbound_leads
    · exact ⟨rfl, rfl⟩
    · rfl
    · exact .inl rfl
    · exact admits_own (Bool.or_true _) still
  · exact insertLink_leads ⟨rfl, rfl⟩ rfl (.inl rfl) (admits_own (Bool.or_true _) still)

theorem establishNestedOverCarrier_leads {key : DialKey} {via : Option LinkId} {initiator : Bool}
    {cb : LinkCb} : Leads P m hand (m.establishNestedOverCarrier key via initiator cb) hand := by
  have answered (result : LinkRoe) : Leads P m hand (m.answerNested cb result) hand := by
    cases cb <;> exact Leads.same rfl
  unfold establishNestedOverCarrier
  split
  · exact answered _
  · split
    · split
      · exact answered _
      · split
        · exact Leads.same rfl
        · split
          · exact answered _
          · rename_i room
            exact nestLink_leads room
    · split
      · exact answered _
      · rename_i room
        exact nestLink_leads room

theorem handleInboundCarrierChannel_leads {via : LinkId} {channelId : Nat} :
    Leads P m hand (m.handleInboundCarrierChannel via channelId) hand := by
  unfold handleInboundCarrierChannel
  split
  · exact Leads.refl
  · split
    · exact Leads.refl
    · exact establishNestedOverCarrier_leads

end Arrivals

section Ticks

variable {P : Permits} {m : PeerLinkManager} {hand : InHand}

theorem dropLinkByHandle_mem {handle : LinkHandle} {reason : LinkDropReason} {link : PeerLink}
    (held : link ∈ (m.dropLinkByHandle handle reason).table.links) :
    ∃ before ∈ m.table.links, before.plain = link.plain := by
  unfold dropLinkByHandle at held
  split at held
  · exact ⟨link, held, rfl⟩
  · rename_i gone found
    have shown : link.plain ∈ ((m.dropLinkNow gone reason).plane {}).links := mem_plane {} held
    rw [plane_dropLinkNow (findLive_some found).1] at shown
    exact List.mem_map.mp (List.mem_of_mem_filter shown)

/-- Drops at once leave those that are pending. -/
theorem dropEach_pending (drops : List (LinkHandle × LinkDropReason)) : ∀ m : PeerLinkManager,
    (Run.exec (fun m (drop : LinkHandle × LinkDropReason) => m.dropLinkByHandle drop.1 drop.2) m
      drops).pendingDrops = m.pendingDrops := by
  induction drops with
  | nil => exact fun _ => rfl
  | cons drop rest ih =>
      intro m
      have same : (m.dropLinkByHandle drop.1 drop.2).pendingDrops = m.pendingDrops := by
        unfold dropLinkByHandle
        split <;> rfl
      exact (ih _).trans same

/-- Links that go one after the other, each by its handle. -/
theorem dropEach_leads {drops : List (LinkHandle × LinkDropReason)}
    (permitted : ∀ drop ∈ drops, ∀ link ∈ m.table.links, link.handle = drop.1 →
      P.drop link.plain drop.2) :
    Leads P m hand (Run.exec (fun m (drop : LinkHandle × LinkDropReason) =>
      m.dropLinkByHandle drop.1 drop.2) m drops) hand := by
  induction drops generalizing m with
  | nil => exact Leads.refl
  | cons drop rest ih =>
      have first : Leads P m hand (m.dropLinkByHandle drop.1 drop.2) hand := by
        apply dropLinkByHandle_leads
        intro link found
        obtain ⟨held, same⟩ := findLive_some found
        exact permitted drop List.mem_cons_self link (findById_some held).1 same
      refine first.trans (ih ?_)
      intro later isLater link held same
      obtain ⟨before, mem, shown⟩ := dropLinkByHandle_mem held
      rw [← shown]
      refine permitted later (List.mem_cons_of_mem _ isLater) before mem ?_
      rw [← same, ← PeerLink.plain_handle, shown, PeerLink.plain_handle]

/-- The drops that were pending, each taken up in its turn. -/
theorem discharge_leads (hand : InHand) {drops : List (LinkHandle × LinkDropReason)}
    (permitted : ∀ drop ∈ drops, ∀ link ∈ m.table.links, link.handle = drop.1 →
      P.discharge link.plain drop.2) :
    Leads P m { hand with drops := drops ++ hand.drops } (Run.exec
      (fun m (drop : LinkHandle × LinkDropReason) => m.dropLinkByHandle drop.1 drop.2) m drops)
      hand := by
  induction drops generalizing m with
  | nil => exact Leads.refl
  | cons drop rest ih =>
      have first : Leads P m { hand with drops := (drop :: rest) ++ hand.drops }
          (m.dropLinkByHandle drop.1 drop.2) { hand with drops := rest ++ hand.drops } := by
        apply Leads.move
        intro sound
        unfold dropLinkByHandle
        split
        · rename_i gone
          refine .pass drop.1 drop.2 (rest ++ hand.drops ++ m.pendingDrops) rfl ?_
          intro shown mem same
          obtain ⟨link, held, rfl⟩ := List.mem_map.mp mem
          have found := findById_of_mem sound held
          have handle : link.handle = drop.1 := same
          rw [← handle] at gone
          simp [LinkTable.findLive, PeerLink.handle, found] at gone
        · rename_i link found
          obtain ⟨held, same⟩ := findLive_some found
          have plane : (m.dropLinkNow link drop.2).plane { hand with drops := rest ++ hand.drops } =
              (m.plane { hand with drops := rest ++ hand.drops }).erase link.plain drop.2 :=
            plane_dropLinkNow held drop.2
          rw [plane]
          refine .discharge link.plain (mem_plane _ (findById_some held).1) drop.2
            (rest ++ hand.drops ++ m.pendingDrops) ?_
            (permitted drop List.mem_cons_self link (findById_some held).1 same)
          rw [PeerLink.plain_handle, same]
          rfl
      refine first.trans (ih ?_)
      intro later isLater link held same
      obtain ⟨before, mem, shown⟩ := dropLinkByHandle_mem held
      rw [← shown]
      refine permitted later (List.mem_cons_of_mem _ isLater) before mem ?_
      rw [← same, ← PeerLink.plain_handle, shown, PeerLink.plain_handle]

theorem dropPending_leads
    (permitted : ∀ drop ∈ m.pendingDrops, ∀ link ∈ m.table.links, link.handle = drop.1 →
      P.discharge link.plain drop.2) : Leads P m {} m.dropPending {} := by
  have taken : Leads P m {} { m with pendingDrops := [] } { drops := m.pendingDrops ++ [] } := by
    apply Leads.same
    unfold plane
    simp
  have each : Leads P { m with pendingDrops := [] } { drops := m.pendingDrops ++ [] } m.dropPending {} :=
    discharge_leads {} permitted
  exact taken.trans each

theorem exec_leads {ε : Type} {act : PeerLinkManager → ε → PeerLinkManager}
    (each : ∀ m event, Leads P m hand (act m event) hand) (events : List ε) :
    Leads P m hand (Run.exec act m events) hand := by
  induction events generalizing m with
  | nil => exact Leads.refl
  | cons event rest ih => exact (each m event).trans ih

/-- The alias of a lost dial finds its new link, and no other gives way that may not. -/
def AdoptsWell (P : Permits) (m : PeerLinkManager) (pending : String × DialKey) : Prop :=
  ∀ winner occupant, m.findAnyConnectedLinkForRemotePeerId pending.1 = some winner →
    winner.peerKey ≠ pending.2 → m.table.findByDialKey pending.2 = some occupant →
    m.displaces winner.id pending.2 = true → P.drop occupant.plain .displaced

theorem adopt_leads {pending : String × DialKey} (well : AdoptsWell P m pending) :
    Leads P m hand (m.adopt pending) hand := by
  intro sound
  unfold adopt
  split
  · exact Relation.ReflTransGen.refl
  · rename_i winner found
    split
    · exact Relation.ReflTransGen.refl
    · rename_i other
      refine bindDialAlias_leads ?_ (fun occupant holds displaces =>
        well winner occupant found other holds displaces) sound
      unfold findAnyConnectedLinkForRemotePeerId at found
      split at found
      · cases found
      · have held : winner ∈ m.table.links :=
          (m.table.order.perm _).mem_iff.mp (List.mem_of_find?_eq_some found)
        have fits := List.find?_some found
        simp only [Bool.and_eq_true] at fits
        intro other again
        rw [findById_of_mem sound held] at again
        cases again
        intro underway
        simp [PeerLink.connected, underway] at fits

theorem adoptPending_leads
    (well : Run.Meets adopt (AdoptsWell P) { m with pendingAliasAdopt := [] } m.pendingAliasAdopt) :
    Leads P m hand m.adoptPending hand := by
  have taken : Leads P m hand { m with pendingAliasAdopt := [] } hand := Leads.same rfl
  refine taken.trans ?_
  unfold adoptPending
  revert well
  generalize { m with pendingAliasAdopt := [] } = start
  induction m.pendingAliasAdopt generalizing start with
  | nil => exact fun _ => Leads.refl
  | cons pending rest ih => exact fun well => (adopt_leads well.1).trans (ih _ well.2)

/-- The state in which Tick looks for links to evict. -/
def judged (m : PeerLinkManager) : PeerLinkManager :=
  { m with table := { m.table with links := m.table.links.map clearSuspect } }

theorem evict_leads
    (permitted : ∀ link ∈ m.judged.table.links, ∀ reason, m.judged.evictReason link = some reason →
      P.drop link.plain reason) : Leads P m hand m.evict hand := by
  have cleared : m.judged.plane hand = m.plane hand := by
    apply plane_touchAll
    intro link
    unfold clearSuspect
    split <;> rfl
  refine (Leads.same cleared).trans ?_
  intro sound
  refine dropEach_leads ?_ sound
  intro drop isDrop link held same
  obtain ⟨evicted, walked, chosen⟩ := List.mem_filterMap.mp isDrop
  obtain ⟨reason, why, rfl⟩ := Option.map_eq_some_iff.mp chosen
  have mem : evicted ∈ m.judged.table.links := (m.judged.table.order.perm _).mem_iff.mp walked
  have this : link = evicted := by
    have one := findById_of_mem sound held
    have two := findById_of_mem sound mem
    have id : link.id = evicted.id := congrArg LinkHandle.id same
    rw [id, two] at one
    exact (Option.some.inj one).symm
  exact permitted link held reason (this ▸ why)

variable [MultiaddrParser]

/-- A retried key finds an occupant that may answer its waiters, or none. -/
def RetriesWell (P : Permits) (m : PeerLinkManager) (key : DialKey) : Prop :=
  m.waitersOf key ≠ [] → OccupantAnswers P m key

theorem retryPending_leads
    (well : Run.Meets retry (RetriesWell P) { m with pendingCandidateRetry := [] }
      m.pendingCandidateRetry) : Leads P m {} m.retryPending {} := by
  have taken : Leads P m {} { m with pendingCandidateRetry := [] }
      { due := m.pendingCandidateRetry } := by
    apply Leads.same
    unfold plane
    simp
  refine taken.trans ?_
  unfold retryPending
  revert well
  generalize { m with pendingCandidateRetry := [] } = start
  induction m.pendingCandidateRetry generalizing start with
  | nil => exact fun _ => Leads.refl
  | cons key rest ih =>
      intro well
      have first : Leads P start { due := key :: rest } (start.retry key) { due := rest } :=
        retry_leads { due := rest } rfl well.1
      exact first.trans (ih _ well.2)

theorem failHandshakes_leads : Leads P m hand m.failHandshakes hand := by
  have live {act : PeerLinkManager → PeerLink → PeerLinkManager}
      (each : ∀ m link, Leads P m hand (act m link) hand) (m : PeerLinkManager) (link : PeerLink) :
      Leads P m hand (onLive act m link) hand := by
    unfold onLive
    split
    · exact Leads.refl
    · exact each m _
  have expires (m : PeerLinkManager) (link : PeerLink) : Leads P m hand (m.expire link) hand := by
    unfold expire
    dsimp only
    have failed : Leads P m hand (m.failHandshakeTimeout link.id) hand :=
      failAssociation_leads LinkErr.noConfusion
    split
    · exact failed
    · exact failed.trans (scheduleDropLink_leads ⟨fun lost => LinkDropReason.noConfusion lost,
        fun asked => LinkDropReason.noConfusion asked⟩)
  unfold failHandshakes
  refine Leads.trans (exec_leads (live fun _ _ => failAssociation_leads LinkErr.noConfusion) _)
    (Leads.trans (exec_leads (live fun _ _ => failAssociation_leads LinkErr.noConfusion) _)
      (exec_leads (live expires) _))

/-- What `tick` needs of the state it finds and of those it goes through. -/
structure TicksWell (P : Permits) (m : PeerLinkManager) : Prop where
  discharges : ∀ drop ∈ m.pendingDrops, ∀ link ∈ m.table.links, link.handle = drop.1 →
    P.discharge link.plain drop.2
  retries : Run.Meets retry (RetriesWell P) { m.dropPending with pendingCandidateRetry := [] }
    m.dropPending.pendingCandidateRetry
  adopts : Run.Meets adopt (AdoptsWell P) { m.dropPending.retryPending with pendingAliasAdopt := [] }
    m.dropPending.retryPending.pendingAliasAdopt
  evicts : ∀ link ∈ m.dropPending.retryPending.adoptPending.failHandshakes.judged.table.links,
    ∀ reason, m.dropPending.retryPending.adoptPending.failHandshakes.judged.evictReason link =
      some reason → P.drop link.plain reason

theorem tick_leads (well : TicksWell P m) : Leads P m {} m.tick {} :=
  (dropPending_leads well.discharges).trans ((retryPending_leads well.retries).trans
    ((adoptPending_leads well.adopts).trans (failHandshakes_leads.trans (evict_leads well.evicts))))

end Ticks

section Steps

variable {P : Permits} {m : PeerLinkManager} {hand : InHand}

theorem requestDropLink_leads {key : String}
    (permitted : ∀ link ∈ m.requestedLinks key, ∀ holder,
      m.table.findByDialKey link.peerKey = some holder → P.request holder.handle) :
    Leads P m hand (m.requestDropLink key) hand := by
  have named : ∀ asked ∈ ((m.requestedLinks key).map PeerLink.peerKey).dedup, ∀ holder,
      m.table.findByDialKey asked = some holder → P.request holder.handle := by
    intro asked isAsked holder holds
    obtain ⟨link, isLink, rfl⟩ := List.mem_map.mp (List.mem_dedup.mp isAsked)
    exact permitted link isLink holder holds
  unfold requestDropLink
  revert named
  generalize ((m.requestedLinks key).map PeerLink.peerKey).dedup = keys
  clear permitted
  induction keys generalizing m with
  | nil => exact fun _ => Leads.refl
  | cons asked rest ih =>
      intro named
      have table : (m.scheduleDropKey asked .requested).table = m.table := by
        unfold scheduleDropKey
        split <;> rfl
      refine Leads.trans (scheduleDropKey_leads ?_) (ih ?_)
      · intro holder holds
        exact ⟨fun lost => LinkDropReason.noConfusion lost,
          fun _ => named asked List.mem_cons_self holder holds⟩
      · intro later isLater holder holds
        rw [table] at holds
        exact named later (List.mem_cons_of_mem _ isLater) holder holds

/-- Nothing is left of the links that were dropped. -/
theorem dropEach_gone (drops : List (LinkHandle × LinkDropReason)) :
    ∀ m : PeerLinkManager, (m.plane hand).Sound → ∀ link ∈ (Run.exec
      (fun m (drop : LinkHandle × LinkDropReason) => m.dropLinkByHandle drop.1 drop.2) m drops).table.links,
      (∃ before ∈ m.table.links, before.plain = link.plain) ∧
        ∀ drop ∈ drops, link.handle ≠ drop.1 := by
  induction drops with
  | nil => exact fun m _ link held => ⟨⟨link, held, rfl⟩, fun _ none => absurd none List.not_mem_nil⟩
  | cons drop rest ih =>
      intro m sound link held
      have row : Leads {} m hand (m.dropLinkByHandle drop.1 drop.2) hand :=
        dropLinkByHandle_leads fun _ _ => trivial
      obtain ⟨⟨middle, stood, shown⟩, others⟩ := ih _ ((row sound).sound sound) link held
      obtain ⟨before, mem, same⟩ := dropLinkByHandle_mem stood
      refine ⟨⟨before, mem, same.trans shown⟩, ?_⟩
      intro later isLater
      rcases List.mem_cons.mp isLater with rfl | isLater
      · intro isHandle
        have found := findById_of_mem sound mem
        have handle : before.handle = later.1 := by
          rw [← isHandle, ← PeerLink.plain_handle, same.trans shown, PeerLink.plain_handle]
        have live : m.table.findLive later.1 = some before := by
          simp [LinkTable.findLive, ← handle, PeerLink.handle, found]
        unfold dropLinkByHandle at stood
        rw [live] at stood
        have still : middle.plain ∈ ((m.dropLinkNow before later.2).plane hand).links :=
          mem_plane hand stood
        rw [plane_dropLinkNow found, shown, ← same.trans shown] at still
        simpa using (List.mem_filter.mp still).2
      · exact others later isLater

theorem closeAllLinks_leads
    (permitted : ∀ link ∈ m.table.links, P.drop link.plain .localShutdown)
    (forgets : ∀ s : LinkPlane, s.links = [] → P.forget s) :
    Leads P m {} m.closeAllLinks {} := by
  let all := (m.table.forEach.filter fun link => link.isCarrierBacked) ++
    m.table.forEach.filter fun link => !link.isCarrierBacked
  let drops := all.map fun link => (link.handle, LinkDropReason.localShutdown)
  let start := { m with pendingDrops := [] }
  have every (link : PeerLink) (held : link ∈ m.table.links) : link ∈ all := by
    have walked : link ∈ m.table.forEach := (m.table.order.perm _).mem_iff.mpr held
    cases carrier : link.isCarrierBacked
    · exact List.mem_append_right _ (List.mem_filter.mpr ⟨walked, by simp [carrier]⟩)
    · exact List.mem_append_left _ (List.mem_filter.mpr ⟨walked, carrier⟩)
  have closes : m.closeAllLinks = Run.exec (fun m (drop : LinkHandle × LinkDropReason) =>
      m.dropLinkByHandle drop.1 drop.2) start drops := by
    unfold closeAllLinks Run.exec
    dsimp only
    rw [List.foldl_map]
  have taken : start.plane { drops := m.pendingDrops } = m.plane {} := by
    unfold plane
    simp [start]
  intro sound
  have each : Leads P m {} m.closeAllLinks { drops := m.pendingDrops } := by
    rw [closes]
    refine (Leads.same taken).trans (dropEach_leads ?_)
    intro drop isDrop link held _
    obtain ⟨_, _, rfl⟩ := List.mem_map.mp isDrop
    exact permitted link held
  have empty : (m.closeAllLinks.plane { drops := m.pendingDrops }).links = [] := by
    rw [closes]
    show List.map _ _ = []
    rw [List.map_eq_nil_iff, List.eq_nil_iff_forall_not_mem]
    intro link held
    obtain ⟨⟨before, mem, same⟩, gone⟩ := dropEach_gone drops start (taken ▸ sound) link held
    apply gone (before.handle, .localShutdown) (List.mem_map.mpr ⟨before, every before mem, rfl⟩)
    rw [← PeerLink.plain_handle, ← same, PeerLink.plain_handle]
  have none : m.closeAllLinks.pendingDrops = [] := by
    rw [closes]
    exact dropEach_pending drops start
  refine (each.trans (Leads.move fun _ => ?_)) sound
  have plane : m.closeAllLinks.plane {} =
      { m.closeAllLinks.plane { drops := m.pendingDrops } with pendingDrops := [] } := by
    unfold PeerLinkManager.plane
    simp [none]
  rw [plane]
  exact .forget (forgets _ empty)

theorem create_sound (localPeerId : String) (limits : LinkLimits) :
    ((create localPeerId limits).plane {}).Sound where
  unique := List.nodup_nil
  numbered := fun _ none => absurd none List.not_mem_nil
  coherent := fun _ none => absurd none List.not_mem_nil
  indexed := fun _ _ none => nomatch none
  known := fun _ carrier _ none => by cases carrier <;> exact nomatch none

theorem authenticated_some {id : LinkId} {identity : Adp.Bytes} {named : PeerLinkManager}
    {link : PeerLink} (done : m.authenticated id identity = some (named, link)) :
    ∃ before, m.table.findById id = some before ∧ before.phase = .handshaking ∧
      link = { before with remotePeerId := m.authenticatedPeerId before identity } ∧
      named = m.modifyLink id fun _ => link := by
  unfold authenticated at done
  split at done
  · cases done
  · rename_i before found
    dsimp only at done
    by_cases underway : before.phase = .handshaking
    · rw [if_neg (not_not.mpr underway)] at done
      generalize (if before.outbound && !before.isCarrierBacked then before.remotePeerId else "") =
        expected at done
      split at done
      · cases done
      · cases done
        exact ⟨before, found, underway, rfl, rfl⟩
    · rw [if_pos underway] at done
      cases done

/-- The link a call establishes, with the state it finds there. -/
def arrival (m : PeerLinkManager) : Event → Option (PeerLinkManager × PeerLink)
  | .handshake id (.established identity (.ok ())) => m.authenticated id identity
  | _ => none

/-- A link that arrives was handshaking, and its peer is what it now says. -/
theorem arrival_some {event : Event} {named : PeerLinkManager} {link : PeerLink}
    (arrived : m.arrival event = some (named, link)) :
    ∃ before, m.table.findById link.id = some before ∧ before.phase = .handshaking ∧
      link = { before with remotePeerId := link.remotePeerId } ∧
      named = m.modifyLink link.id fun _ => link := by
  unfold arrival at arrived
  split at arrived
  · obtain ⟨before, found, underway, rfl, rfl⟩ := authenticated_some arrived
    obtain ⟨_, rfl⟩ := findById_some found
    exact ⟨before, found, underway, rfl, rfl⟩
  · cases arrived

theorem arrival_handshake {id : LinkId} {result : HandshakeResult} {identity : Adp.Bytes}
    {named : PeerLinkManager} {link : PeerLink} (isResult : result = .established identity (.ok ()))
    (done : m.authenticated id identity = some (named, link)) :
    m.arrival (.handshake id result) = some (named, link) := by
  subst isResult
  exact done

/-- The callback a call comes with. -/
def inHand : Event → InHand
  | .ensureAssociation _ cb => InHand.calling {} cb
  | _ => {}

theorem plane_inHand (m : PeerLinkManager) (event : Event) :
    m.plane (inHand event) = { m.plane {} with calls := (inHand event).calls } := by
  cases event <;> rfl

theorem sound_inHand (sound : (m.plane {}).Sound) (event : Event) :
    (m.plane (inHand event)).Sound := by
  rw [plane_inHand]
  exact ⟨sound.unique, sound.numbered, sound.coherent, sound.indexed, sound.known⟩

variable [MultiaddrParser]

/-- What a link's establishment needs of the links it finds. -/
structure EstablishesWell (P : Permits) (m : PeerLinkManager) (hand : InHand) (link : PeerLink) :
    Prop where
  good : ∀ standing, standing.overAdp = true → P.succeed standing
  alone : m.rival link = none → P.connect (m.plane hand) link.plain
  beats : ∀ existing, m.rival link = some existing → elect existing link m.localPeerId = .candidate →
    P.connect ((m.modifyLink existing.id PeerLink.demoteForScheduledDrop).plane hand) link.plain ∧
    ∀ holder, (m.raised link).table.findByDialKey existing.peerKey = some holder →
      P.lose holder.handle
  loses : ∀ existing, m.rival link = some existing → elect existing link m.localPeerId = .existing →
    P.lose link.handle ∧ ∀ key, link.establishCb = some (.dial key) →
      P.succeed ((m.promoted key).standing key)

/-- A closed association is reported closed, or may be open again. -/
def ReportsWell (P : Permits) (m : PeerLinkManager) (id : LinkId) (state : LinkState) : Prop :=
  ∀ link ∈ m.table.links, link.id = id → link.association.closed = true →
    state.association.closed = true ∨ P.reopen link.plain

omit [MultiaddrParser] in
theorem linkState_leads {id : LinkId} {state : LinkState} (well : ReportsWell P m id state) :
    Leads P m hand (m.modifyLink id fun link => { link with
      association := state.association
      carrierLaneFailed := state.carrierLaneFailed
      inUse := state.inUse }) hand := by
  by_cases known : ∃ link ∈ m.table.links, link.id = id
  · obtain ⟨link, held, rfl⟩ := known
    exact report_leads hand held (fun _ => rfl) (well link held rfl)
  · exact Leads.same (plane_touch hand fun link held same => absurd ⟨link, held, same⟩ known)

/-- What a call needs of the state it finds, for its moves to be permitted. -/
def Grants (P : Permits) (m : PeerLinkManager) : Event → Prop
  | .ensureAssociation key cb => EnsuresWell P m {} key cb
  | .requestDropLink key => ∀ link ∈ m.requestedLinks key, ∀ holder,
      m.table.findByDialKey link.peerKey = some holder → P.request holder.handle
  | .closeAllLinks => (∀ link ∈ m.table.links, P.drop link.plain .localShutdown) ∧
      ∀ s : LinkPlane, s.links = [] → P.forget s
  | .handshake id result => ∀ identity named link, result = .established identity (.ok ()) →
      m.authenticated id identity = some (named, link) → EstablishesWell P named {} link
  | .hostResolved key multiaddr result => ResolvesWell P m {} key multiaddr result
  | .inboundConnection _ => AcceptsWell P m {}
  | .linkState id state => ReportsWell P m id state
  | .tick => TicksWell P m
  | _ => True

/-- Every call of the manager is a row of permitted moves. -/
theorem step_leads {event : Event} (granted : Grants P m event) :
    Leads P m (inHand event) (m.step event) {} := by
  cases event with
  | ensureAssociation key cb => exact ensureAssociation_leads rfl granted
  | abortInflightDial key => exact abortInflightDial_leads
  | requestDropLink key => exact requestDropLink_leads granted
  | closeAllLinks => exact closeAllLinks_leads granted.1 granted.2
  | establishNested key via initiator cb => exact establishNestedOverCarrier_leads
  | inboundCarrierChannel via channelId => exact handleInboundCarrierChannel_leads
  | inboundConnection assoc => exact onInboundConnection_leads granted
  | handshake id result =>
      apply onHandshakeComplete_leads
      intro identity named link isResult done
      have well := granted identity named link isResult done
      obtain ⟨before, found, underway, rfl, rfl⟩ := authenticated_some done
      obtain ⟨_, rfl⟩ := findById_some found
      exact establish_leads (findById_replaced found rfl) underway well.good well.alone well.beats
        well.loses
  | carrierClosed id reason => exact onCarrierClosed_leads
  | carrierFrameError id message => exact failAssociation_leads LinkErr.noConfusion
  | hostResolved key multiaddr result => exact onHostResolved_leads rfl granted
  | registerEndpoint key multiaddr => exact rename_leads (by simp)
  | registerEndpoints key multiaddrs => exact rename_leads (by simp)
  | unregisterEndpoint key => exact rename_leads rfl
  | ingestRemoteAddrs peerId addrs => exact rename_leads (by simp)
  | clearDialBackoff key => exact rename_leads rfl
  | networkChanged =>
      refine Leads.trans (rename_leads ?_) (Leads.same (plane_touchAll {} ?_))
      · rfl
      · intro link
        split <;> rfl
  | verifyLink key heardWithinMs =>
      show Leads P m {} (m.verifyLink key heardWithinMs) {}
      unfold verifyLink
      split
      · exact Leads.refl
      · dsimp only
        split
        · exact Leads.refl
        · split
          · exact Leads.refl
          · split
            · exact Leads.refl
            · exact Leads.same (plane_touch {} fun _ _ _ => rfl)
  | tick => exact tick_leads granted
  | setHostResolver installed => exact Leads.same rfl
  | enableNestedCarrierAccept enable => exact Leads.same rfl
  | linkState id state => exact linkState_leads granted
  | surroundings around => exact Leads.same rfl
  | rehash links endpoints => exact Leads.same rfl

end Steps

end Amp.PeerLinkManager
