import Amp.Link.LinkIndexes
import Amp.Link.PresenceIndex

set_option autoImplicit false

/- `EnsureAssociation` loses no connection: a peer that is connected when it is called
is connected afterwards. -/
namespace Amp

/-- A link that counts for `IsConnectedToPeerId`. -/
def PeerLink.connects (link : PeerLink) : Bool := link.connected && !link.isCarrierBacked

namespace PeerLinkManager

/-- The links that the presence index shows as connected are shown so still. -/
structure Keeps (m after : PeerLinkManager) : Prop where
  shown : ∀ {peer : String} {id : LinkId} {link : PeerLink},
    (m.table.byPeer peer).adp = some id → m.table.findById id = some link → link.connects = true →
    (after.table.byPeer peer).adp = some id ∧
      ∃ later, after.table.findById id = some later ∧ later.connects = true
  numbered : (∀ link ∈ m.table.links, link.id ≤ m.table.nextId) →
    ∀ link ∈ after.table.links, link.id ≤ after.table.nextId

section Keeping

variable {m one two : PeerLinkManager}

theorem Keeps.same (table : one.table = m.table) : m.Keeps one where
  shown named found up := by
    rw [table]
    exact ⟨named, _, found, up⟩
  numbered numbered := by
    rw [table]
    exact numbered

theorem Keeps.trans (first : m.Keeps one) (second : one.Keeps two) : m.Keeps two where
  shown named found up := by
    obtain ⟨still, later, held, isUp⟩ := first.shown named found up
    exact second.shown still held isUp
  numbered numbered := second.numbered (first.numbered numbered)

theorem isConnected_cases (m : PeerLinkManager) (peer : String) :
    m.isConnectedToPeerId peer = true ↔ peer ≠ "" ∧ ∃ id link,
      (m.table.byPeer peer).adp = some id ∧ m.table.findById id = some link ∧ link.connects = true := by
  unfold isConnectedToPeerId PeerLink.connects
  by_cases unknown : peer = ""
  · simp [unknown]
  · rw [if_neg unknown]
    cases named : (m.table.byPeer peer).adp with
    | none => simp
    | some id => simp [unknown, Option.any_eq_true]

theorem Keeps.connected (keeps : m.Keeps one) {peer : String}
    (said : m.isConnectedToPeerId peer = true) : one.isConnectedToPeerId peer = true := by
  obtain ⟨known, id, link, named, found, up⟩ := (isConnected_cases m peer).mp said
  obtain ⟨still, later, held, isUp⟩ := keeps.shown named found up
  exact (isConnected_cases one peer).mpr ⟨known, id, later, still, held, isUp⟩

/-- A change to one link after which it connects if it did. -/
theorem Keeps.modifyLink {id : LinkId} {change : PeerLink → PeerLink}
    (ids : ∀ link, (change link).id = link.id)
    (up : ∀ link, m.table.findById id = some link → link.connects = true →
      (change link).connects = true) : m.Keeps (m.modifyLink id change) where
  shown := by
    intro peer other link named found connects
    refine ⟨named, ?_⟩
    show ∃ later, (m.table.modify id change).findById other = some later ∧ _
    rw [LinkTable.findById_modify ids]
    by_cases same : other = id
    · rw [same] at found
      exact ⟨change link, by rw [if_pos same, found]; rfl, up link found connects⟩
    · exact ⟨link, by rw [if_neg same, found], connects⟩
  numbered numbered := by
    intro link held
    obtain ⟨before, was, rfl⟩ := List.mem_map.mp held
    split
    · rw [ids]
      exact numbered before was
    · exact numbered before was

theorem orphanCarriers_keeps (m : PeerLinkManager) (id : LinkId) : m.Keeps (m.orphanCarriers id) := by
  let orphan := fun (link : PeerLink) =>
    if link.carrierVia = some id then { link with carrierClosed := true } else link
  have ids (link : PeerLink) : (orphan link).id = link.id := by
    by_cases rides : link.carrierVia = some id <;> simp [orphan, rides]
  have still (link : PeerLink) : (orphan link).connects = link.connects := by
    by_cases rides : link.carrierVia = some id <;>
      simp [orphan, rides, PeerLink.connects, PeerLink.connected]
  constructor
  · intro peer other link named found connects
    refine ⟨named, orphan link, ?_, ?_⟩
    · show (m.table.links.map orphan).find? (fun link => link.id == other) = _
      have same : (fun link : PeerLink => link.id == other) ∘ orphan = fun link => link.id == other := by
        funext link
        simp [ids]
      rw [List.find?_map, same]
      exact congrArg (Option.map orphan) found
    · rw [still]
      exact connects
  · intro numbered link held
    obtain ⟨before, was, rfl⟩ := List.mem_map.mp held
    show (orphan before).id ≤ _
    rw [ids]
    exact numbered before was

theorem eraseById_keeps {id : LinkId} {link : PeerLink} (found : m.table.findById id = some link)
    (down : link.connects = false) : m.Keeps { m with table := m.table.eraseById id } := by
  have same := (findById_some found).2
  subst same
  rw [eraseById_eq found]
  constructor
  · intro peer other held named isHeld connects
    have apart : other ≠ link.id := by
      rintro rfl
      rw [found] at isHeld
      rw [Option.some.inj isHeld, connects] at down
      cases down
    constructor
    · dsimp only
      split
      · exact named
      · unfold LinkTable.clearPresence
        dsimp only
        by_cases own : peer = link.remotePeerId
        · subst own
          rw [Function.update_self]
          split
          · split <;> exact named
          · rw [if_neg]
            · exact named
            · rw [named]
              exact fun equal => apart (Option.some.inj equal)
        · rw [Function.update_of_ne own]
          exact named
    · refine ⟨held, ?_, connects⟩
      show (m.table.links.filter fun other => other.id != link.id).find? _ = _
      have erased := LinkTable.findById_erased m.table link.id other
      rw [if_neg apart, isHeld] at erased
      exact erased
  · intro numbered other held
    exact numbered other (List.mem_filter.mp held).1

theorem dropLinkNow_keeps {link : PeerLink} (found : m.table.findById link.id = some link)
    (down : link.connected = false) (reason : LinkDropReason) : m.Keeps (m.dropLinkNow link reason) := by
  let orphaned := m.orphanCarriers link.id
  have orphans := orphanCarriers_keeps m link.id
  have erases : orphaned.Keeps { orphaned with table := orphaned.table.eraseById link.id } := by
    cases held : orphaned.table.findById link.id with
    | none =>
        apply Keeps.same
        unfold LinkTable.eraseById
        rw [held]
    | some other =>
        apply eraseById_keeps held
        obtain ⟨before, was, isOther⟩ : ∃ before, m.table.findById link.id = some before ∧
            other.connected = before.connected := by
          let orphan := fun (other : PeerLink) =>
            if other.carrierVia = some link.id then { other with carrierClosed := true } else other
          have ids : (fun other : PeerLink => other.id == link.id) ∘ orphan =
              fun other => other.id == link.id := by
            funext other
            by_cases rides : other.carrierVia = some link.id <;> simp [orphan, rides]
          have held : (m.table.links.map orphan).find? (fun other => other.id == link.id) =
              some other := held
          rw [List.find?_map, ids] at held
          obtain ⟨before, was, rfl⟩ := Option.map_eq_some_iff.mp held
          refine ⟨before, was, ?_⟩
          by_cases rides : before.carrierVia = some link.id <;>
            simp [orphan, rides, PeerLink.connected]
        rw [found] at was
        unfold PeerLink.connects
        rw [isOther, ← Option.some.inj was, down]
        rfl
  exact (orphans.trans erases).trans (.same rfl)

theorem bindDialKey_keeps (m : PeerLinkManager) (id : LinkId) (key : DialKey) :
    m.Keeps (m.bindDialKey id key) := by
  unfold bindDialKey LinkTable.bindDialKey
  split
  · exact .same rfl
  · rename_i link found
    have rekeyed (byDialKey : DialKey → Option LinkId) (keyEvents : List KeyEvent) :
        m.Keeps { m with table := { m.table with byDialKey, keyEvents } } :=
      ⟨fun named found up => ⟨named, _, found, up⟩, fun numbered => numbered⟩
    split
    · exact rekeyed _ _
    · split
      · exact .same rfl
      · have own := (findById_some found).2
        have renames : m.Keeps (m.modifyLink link.id fun link => { link with peerKey := key }) :=
          .modifyLink (fun _ => rfl) fun _ _ up => up
        have unindexed : m.Keeps { m with table := m.table.unindex link.peerKey link.id } := by
          unfold LinkTable.unindex
          split
          · exact rekeyed _ _
          · exact .same rfl
        have rest : Keeps { m with table := m.table.unindex link.peerKey link.id }
            { m with table := m.table.rebind link key } := by
          have moved : Keeps { m with table := m.table.unindex link.peerKey link.id }
              (modifyLink { m with table := m.table.unindex link.peerKey link.id } link.id
                fun link => { link with peerKey := key }) :=
            .modifyLink (fun _ => rfl) fun _ _ up => up
          exact ⟨fun named found up => moved.shown named found up, moved.numbered⟩
        exact unindexed.trans rest

theorem dropLink_keeps {key : DialKey}
    (down : ∀ link, m.table.findByDialKey key = some link → link.connected = false)
    (reason : LinkDropReason) : m.Keeps (m.dropLink key reason) := by
  unfold dropLink
  split
  · exact .same rfl
  · rename_i link found
    exact dropLinkNow_keeps (findByDialKey_some found).2 (down link found) reason

theorem bindDialAlias_keeps (m : PeerLinkManager) (id : LinkId) (key : DialKey) :
    m.Keeps (m.bindDialAlias id key) := by
  unfold bindDialAlias
  split
  · exact .same rfl
  · split
    · exact .same rfl
    · split
      · rename_i displaces
        have drops : m.Keeps (m.dropLink key .displaced) := by
          apply dropLink_keeps
          intro occupant found
          unfold PeerLinkManager.displaces at displaces
          rw [found] at displaces
          simp only [Bool.and_eq_true, Bool.not_eq_true'] at displaces
          exact displaces.1
        exact drops.trans (bindDialKey_keeps _ id key)
      · exact bindDialKey_keeps m id key

theorem dropStale_keeps (sound : (m.plane {}).Sound) (key : DialKey) : m.Keeps (m.dropStale key) := by
  unfold dropStale
  split
  · exact .same rfl
  · rename_i link found
    split
    · exact .same rfl
    · rename_i down
      exact dropLinkNow_keeps (findById_of_mem sound (findLinkForKey_mem found)) (by simpa using down) _

theorem insertLink_keeps (m : PeerLinkManager) (link : PeerLink) : m.Keeps (m.insertLink link) := by
  constructor
  · intro peer id held named found up
    refine ⟨named, held, ?_, up⟩
    unfold insertLink
    rw [LinkTable.findById_insert]
    have still : LinkTable.findById { m.table with
        nextId := m.table.nextId + 1, nextGeneration := m.table.nextGeneration + 1 } id = some held :=
      found
    rw [still]
    rfl
  · intro numbered other held
    rcases List.mem_append.mp held with old | new
    · exact Nat.le_succ_of_le (numbered other old)
    · rw [List.mem_singleton.mp new]
      exact Nat.le_refl _

variable [MultiaddrParser]

/-- The callback of a link that failed leaves the table as it is. -/
theorem runEstablishCb_table (m : PeerLinkManager) (cb : Option Establish) (handle : LinkHandle)
    (failure : LinkFailure) : (m.runEstablishCb cb handle (.error failure)).table = m.table := by
  cases cb with
  | none => rfl
  | some establish =>
      cases establish with
      | dial key =>
          show ((m.endDial key).dialFailed key handle _ _).table = m.table
          unfold dialFailed
          dsimp only
          split
          · rfl
          · rfl
      | inbound => rfl
      | nested provisional => rfl

theorem failAssociation_keeps {id : LinkId}
    (down : ∀ link, m.table.findById id = some link → link.connects = false) (failure : LinkFailure) :
    m.Keeps (m.failAssociation id failure) := by
  unfold failAssociation
  split
  · exact .same rfl
  · have fails : m.Keeps (m.modifyLink id fun link =>
        { link with phase := .backoff, establishCb := none }) := by
      refine .modifyLink (fun _ => rfl) ?_
      intro other found up
      exact absurd (up.symm.trans (down other found)) Bool.noConfusion
    exact fails.trans (.same (runEstablishCb_table _ _ _ _))

/-- A dial that cannot start takes down nothing but its own link. -/
theorem dialLink_keeps (numbered : ∀ link ∈ m.table.links, link.id ≤ m.table.nextId) (key : DialKey)
    (peerId : String) : m.Keeps (m.dialLink key peerId) := by
  unfold dialLink
  dsimp only
  generalize begins : insertLink { m with book := m.book.incConcurrentDials } _ = begun
  have enters : m.Keeps begun := by
    have counted : m.Keeps { m with book := m.book.incConcurrentDials } := .same rfl
    exact begins ▸ counted.trans (insertLink_keeps _ _)
  have fresh : ∀ link, begun.table.findById (m.table.nextId + 1) = some link →
      link.connects = false := by
    subst begins
    unfold insertLink
    rw [LinkTable.findById_insert]
    have none : LinkTable.findById { m.table with
        nextId := m.table.nextId + 1, nextGeneration := m.table.nextGeneration + 1 }
          (m.table.nextId + 1) = none := by
      unfold LinkTable.findById
      rw [List.find?_eq_none]
      intro link held same
      have early := numbered link held
      have late : link.id = m.table.nextId + 1 := by simpa using same
      rw [late] at early
      exact Nat.not_succ_le_self _ early
    rw [none, if_pos rfl]
    intro link isNew
    rw [← Option.some.inj isNew]
    rfl
  apply enters.trans
  unfold startOutbound
  split
  · exact .same rfl
  · exact failAssociation_keeps fresh _

theorem beginOutboundDial_keeps (turns : Nat) : ∀ {m : PeerLinkManager} (key : DialKey),
    (∀ link ∈ m.table.links, link.id ≤ m.table.nextId) → m.Keeps (beginOutboundDial turns m key) := by
  induction turns using Nat.strongRecOn with
  | ind turns ih =>
      intro m key numbered
      unfold beginOutboundDial
      split
      · exact .same rfl
      · split
        · exact .same rfl
        · split
          · exact .same rfl
          · split
            · exact .same rfl
            · split
              · split
                · exact .same rfl
                · dsimp only
                  split
                  · rename_i fewer next _
                    have advanced : m.Keeps { m with book := next } := .same rfl
                    exact advanced.trans (ih fewer (Nat.lt_succ_self fewer) key numbered)
                  · exact .same rfl
              · split
                · exact .same rfl
                · exact dialLink_keeps numbered key _

theorem startAssociation_keeps (numbered : ∀ link ∈ m.table.links, link.id ≤ m.table.nextId)
    (key : DialKey) (cb : LinkCb) : m.Keeps (m.startAssociation key cb) := by
  unfold startAssociation
  split
  · exact .same rfl
  · split
    · exact .same rfl
    · dsimp only
      split
      · exact .same rfl
      · split
        · exact .same rfl
        · apply Keeps.trans (.same (by rfl)) (beginOutboundDial_keeps _ key _)
          exact numbered

theorem ensureAssociation_keeps (sound : (m.plane {}).Sound) (key : DialKey) (cb : LinkCb) :
    m.Keeps (m.ensureAssociation key cb) := by
  have numbered : ∀ link ∈ m.table.links, link.id ≤ m.table.nextId := fun link held =>
    sound.numbered link.plain (mem_plane {} held)
  unfold ensureAssociation
  split
  · exact .same rfl
  · split
    · split
      · exact .same rfl
      · exact (bindDialAlias_keeps m _ key).trans (.same rfl)
    · split
      · exact .same rfl
      · split
        · exact .same rfl
        · have drops := dropStale_keeps sound key
          exact drops.trans (startAssociation_keeps (drops.numbered numbered) key cb)

/-- An aborted dial is one of a link that is not up yet. -/
theorem abortInflightDial_keeps (sound : (m.plane {}).Sound) (key : DialKey) :
    m.Keeps (m.abortInflightDial key) := by
  unfold abortInflightDial
  dsimp only
  generalize told : failWaiters _ key _ _ = forgets
  have table : forgets.table = m.table := by
    rw [← told]
    rfl
  apply Keeps.trans (.same table)
  unfold abortLink
  split
  · exact .same rfl
  · rename_i link found
    split
    · rename_i dials
      rw [Bool.and_eq_true] at dials
      have noted : forgets.Keeps
          { forgets with suppressDialBackoff := forgets.suppressDialBackoff ++ [key] } := .same rfl
      apply noted.trans
      apply failAssociation_keeps
      intro other isOther
      have held : link ∈ m.table.links := table ▸ findLinkForKey_mem found
      have byId : forgets.table.findById link.id = some other := isOther
      rw [table, findById_of_mem sound held] at byId
      rw [← Option.some.inj byId]
      have busy := dials.2
      unfold PeerLink.underway at busy
      unfold PeerLink.connects PeerLink.connected
      cases phase : link.phase <;> simp_all
    · split
      · exact .same rfl
      · exact .same rfl

end Keeping

end PeerLinkManager

end Amp
