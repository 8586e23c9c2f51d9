import Amp.Link.LinkCapacity

set_option autoImplicit false

/- What the presence index says of a peer, against a scan of the links
(PeerLinkManager.cpp). -/
namespace Amp

namespace LinkPlane

/-- The one link that may come up in a call, where no other ADP link stands for its
session. -/
def arriving (id : Option LinkId) : Permits where
  connect s link := id = some link.id ∧ (link.isCarrierBacked = true ∨ single.connect s link)

/-- Of the ADP links that were up when a call began, each is the one of its peer and is
the one the index names. -/
structure Lit (old : LinkId → Prop) (id : Option LinkId) (s : LinkPlane) : Prop where
  single : ∀ one ∈ s.links, ∀ two ∈ s.links, Rivals one two → one.isCarrierBacked = false →
    one.id = two.id
  shown : ∀ link ∈ s.links, link.connected = true → link.isCarrierBacked = false →
    link.remotePeerId ≠ "" → old link.id → (s.byPeer link.remotePeerId).adp = some link.id
  known : ∀ link ∈ s.links, link.connected = true → old link.id ∨ id = some link.id
  begun : ∀ link ∈ s.links, link.phase = .handshaking → ¬ old link.id
  numbered : ∀ link, old link → link ≤ s.lastId

variable {old : LinkId → Prop} {id : Option LinkId} {s t : LinkPlane}

/-- No link came up, and the index still names those it named that are left. -/
theorem Lit.inherit (lit : s.Lit old id) (inherits : s.Inherits t)
    (kept : ∀ link ∈ t.links, (s.byPeer link.remotePeerId).adp = some link.id →
      (t.byPeer link.remotePeerId).adp = some link.id)
    (underway : ∀ link ∈ t.links, link.phase = .handshaking → s.lastId < link.id ∨
      ∃ before ∈ s.links, before.id = link.id ∧ before.phase = .handshaking)
    (later : s.lastId ≤ t.lastId) : t.Lit old id := by
  refine ⟨?_, ?_, ?_, ?_, fun link isOld => (lit.numbered link isOld).trans later⟩
  · intro one isOne two isTwo ⟨up, upToo, peer, transport, known⟩ adp
    obtain ⟨first, isFirst, firstId, firstUp, firstPeer, firstTransport⟩ := inherits one isOne up
    obtain ⟨second, isSecond, secondId, secondUp, secondPeer, secondTransport⟩ :=
      inherits two isTwo upToo
    rw [← firstId, ← secondId]
    apply lit.single first isFirst second isSecond ⟨firstUp, secondUp, ?_, ?_, ?_⟩
    · rw [firstTransport, adp]
    · rw [firstPeer, secondPeer, peer]
    · rw [firstTransport, secondTransport, transport]
    · rwa [firstPeer]
  · intro link held up adp known isOld
    obtain ⟨before, was, sameId, wasUp, peer, transport⟩ := inherits link held up
    apply kept link held
    rw [← sameId, ← peer]
    exact lit.shown before was wasUp (transport.trans adp) (peer ▸ known) (sameId ▸ isOld)
  · intro link held up
    obtain ⟨before, was, sameId, wasUp, _, _⟩ := inherits link held up
    rw [← sameId]
    exact lit.known before was wasUp
  · intro link held begins isOld
    rcases underway link held begins with isNew | ⟨before, was, sameId, wasBegun⟩
    · exact absurd (lit.numbered link.id isOld) (Nat.not_le.mpr isNew)
    · exact lit.begun before was wasBegun (sameId ▸ isOld)

/-- The links and the index stand as they did. -/
theorem Lit.same (lit : s.Lit old id) (links : t.links = s.links) (byPeer : t.byPeer = s.byPeer)
    (lastId : t.lastId = s.lastId) : t.Lit old id := by
  apply lit.inherit (inherits_same links)
  · intro link _ named
    rw [byPeer]
    exact named
  · intro link held begins
    exact Or.inr ⟨link, links ▸ held, rfl, begins⟩
  · exact lastId.ge

/-- A change to one link that does not bring it up, and keeps who it is. -/
theorem Lit.modify (lit : s.Lit old id) (target : LinkId) {change : PeerLink → PeerLink}
    (keepsId : ∀ link, (change link).id = link.id)
    (changed : ∀ link ∈ s.links, link.id = target → (change link).connected = true →
      link.connected = true ∧ (change link).remotePeerId = link.remotePeerId ∧
        (change link).isCarrierBacked = link.isCarrierBacked)
    (underway : ∀ link ∈ s.links, link.id = target → (change link).phase = .handshaking →
      link.phase = .handshaking) : (s.modify target change).Lit old id := by
  apply lit.inherit
  · apply inherits_modify
    intro link held same up
    exact ⟨keepsId link, changed link held same up⟩
  · exact fun _ _ named => named
  · apply forall_modify
    · intro link held same begins
      exact Or.inr ⟨link, held, (keepsId link).symm, underway link held same begins⟩
    · intro link held _ begins
      exact Or.inr ⟨link, held, rfl, begins⟩
  · exact le_rfl

theorem Lit.settle (lit : s.Lit old id) (cb : Option Establish) : (s.settle cb).Lit old id := by
  rcases cb with _ | (_ | _ | _) <;> exact lit.same rfl rfl rfl

theorem absent_adp {link other : PeerLink} (apart : other.id ≠ link.id)
    (named : (s.byPeer other.remotePeerId).adp = some other.id) :
    (s.absent link other.remotePeerId).adp = some other.id := by
  unfold absent
  split
  · exact named
  · by_cases peer : other.remotePeerId = link.remotePeerId
    · rw [← peer, Function.update_self]
      split
      · split
        · exact named
        · exact named
      · rw [if_neg]
        · exact named
        · rw [named]
          exact fun same => apart (Option.some.inj same)
    · rw [Function.update_of_ne peer]
      exact named

theorem Lit.erase (lit : s.Lit old id) (link : PeerLink) (reason : LinkDropReason) :
    (s.erase link reason).Lit old id := by
  apply lit.inherit (inherits_filter rfl)
  · intro other held named
    have apart : other.id ≠ link.id := by simpa using (List.mem_filter.mp held).2
    exact absent_adp apart named
  · intro other held begins
    exact Or.inr ⟨other, List.mem_of_mem_filter held, rfl, begins⟩
  · exact le_rfl

theorem Lit.present (lit : s.Lit old id) {link : PeerLink} (found : link ∈ s.links)
    (up : link.connected = true) : (s.present link).Lit old id := by
  have links := present_links s link
  refine ⟨?_, ?_, ?_, ?_, ?_⟩
  · rw [links]
    exact lit.single
  · intro other held otherUp adp known isOld
    rw [links] at held
    have named := lit.shown other held otherUp adp known isOld
    unfold LinkPlane.present
    split
    · exact named
    · by_cases peer : other.remotePeerId = link.remotePeerId
      · dsimp only
        rw [peer, Function.update_self]
        cases transport : link.isCarrierBacked with
        | true =>
            rw [PeerLink.transport, transport, if_pos rfl]
            exact peer ▸ named
        | false =>
            rw [PeerLink.transport, transport, if_neg Bool.false_ne_true]
            have same := lit.single other held link found
              ⟨otherUp, up, peer, adp.trans transport.symm, known⟩ adp
            exact congrArg some same.symm
      · dsimp only
        rw [Function.update_of_ne peer]
        exact named
  · rw [links]
    exact lit.known
  · rw [links]
    exact lit.begun
  · have last : (s.present link).lastId = s.lastId := by
      unfold LinkPlane.present
      split <;> rfl
    rw [last]
    exact lit.numbered

theorem Lit.connect (lit : s.Lit old id) (sound : s.Sound) {link : PeerLink} (found : link ∈ s.links)
    (underway : link.phase = .handshaking) (permitted : (arriving id).connect s link) :
    (s.modify link.id fun link =>
      { link with phase := .connected, establishCb := none }).Lit old id := by
  obtain ⟨isArriving, apart⟩ := permitted
  have isNew := lit.begun link found underway
  have alone : link.isCarrierBacked = false → LinkPlane.single.connect s link := by
    intro adp
    rcases apart with carrier | alone
    · rw [adp] at carrier
      cases carrier
    · exact alone
  refine ⟨?_, ?_, ?_, ?_, lit.numbered⟩
  · intro one isOne two isTwo ⟨up, upToo, peer, transport, known⟩ adp
    obtain ⟨first, isFirst, rfl⟩ := List.mem_map.mp isOne
    obtain ⟨second, isSecond, rfl⟩ := List.mem_map.mp isTwo
    by_cases isNew : first.id = link.id <;> by_cases alsoNew : second.id = link.id
    · simp [isNew, alsoNew]
    · rw [sound.same isFirst found isNew] at peer transport known adp ⊢
      simp only [if_pos, alsoNew, if_false] at upToo peer transport known adp ⊢
      exact absurd (alone adp second isSecond alsoNew upToo peer.symm transport.symm) (peer ▸ known)
    · rw [sound.same isSecond found alsoNew] at peer transport ⊢
      simp only [if_pos, isNew, if_false] at up peer transport known adp ⊢
      exact absurd (alone (transport ▸ adp) first isFirst isNew up peer transport) known
    · rw [if_neg isNew] at up peer transport known adp ⊢
      rw [if_neg alsoNew] at upToo peer transport ⊢
      exact lit.single first isFirst second isSecond ⟨up, upToo, peer, transport, known⟩ adp
  · apply forall_modify
    · intro other held same _ _ _ isOld
      rw [sound.same held found same] at isOld
      exact absurd isOld isNew
    · exact fun other held _ => lit.shown other held
  · apply forall_modify
    · intro other held same _
      right
      rw [isArriving, same]
    · exact fun other held _ => lit.known other held
  · apply forall_modify
    · intro other held same begins
      cases begins
    · exact fun other held _ => lit.begun other held

theorem Move.lit (move : Move (arriving id) s t) (sound : s.Sound) (lit : s.Lit old id) :
    t.Lit old id := by
  cases move with
  | enter link fresh coherent underway =>
      apply lit.inherit
      · intro other held up
        rcases List.mem_append.mp held with old | isNew
        · exact ⟨other, old, rfl, up, rfl, rfl⟩
        · rw [List.mem_singleton.mp isNew, PeerLink.connected, underway] at up
          cases up
      · exact fun _ _ named => named
      · intro other held begins
        rcases List.mem_append.mp held with old | isNew
        · exact Or.inr ⟨other, old, rfl, begins⟩
        · rw [List.mem_singleton.mp isNew, fresh]
          exact Or.inl (Nat.lt_succ_self _)
      · show s.lastId ≤ link.id
        rw [fresh]
        exact Nat.le_succ _
  | name link found underway peer =>
      apply lit.modify
      · exact fun _ => rfl
      · intro other held same up
        rw [sound.same held found same, PeerLink.connected, underway] at up
        cases up
      · exact fun _ _ _ begins => begins
  | report link found closed permitted =>
      apply lit.modify
      · exact fun _ => rfl
      · exact fun _ _ _ up => ⟨up, rfl, rfl⟩
      · exact fun _ _ _ begins => begins
  | fail link found =>
      apply Lit.settle
      apply lit.modify
      · exact fun _ => rfl
      · intro _ _ _ down
        exact absurd (show false = true from down) Bool.false_ne_true
      · intro _ _ _ begins
        cases begins
  | connect link found underway permitted =>
      exact (lit.connect sound found underway permitted).settle _
  | retire link found up =>
      apply lit.modify
      · exact fun _ => rfl
      · intro _ _ _ down
        exact absurd (show false = true from down) Bool.false_ne_true
      · intro _ _ _ begins
        cases begins
  | drop link found reason permitted => exact lit.erase link reason
  | bind link found settled key free =>
      have bound : (s.modify link.id fun link => { link with peerKey := key }).Lit old id := by
        apply lit.modify
        · exact fun _ => rfl
        · exact fun _ _ _ up => ⟨up, rfl, rfl⟩
        · exact fun _ _ _ begins => begins
      exact bound.same rfl rfl rfl
  | present link found up => exact lit.present found up
  | discharge link found reason rest due permitted => exact (lit.erase link reason).same rfl rfl rfl
  | schedule | lose | request | pass | forget | join | answer | finish | resolve | unresolve
  | retry | rename => exact lit.same rfl rfl rfl

theorem Moves.lit (moves : Moves (arriving id) s t) (sound : s.Sound) (lit : s.Lit old id) :
    t.Lit old id := by
  induction moves with
  | refl => exact lit
  | tail before move ih => exact move.lit (Moves.sound before sound) ih

/-- The index names the ADP link of each peer that has one Connected. -/
def Shown (s : LinkPlane) : Prop :=
  ∀ link ∈ s.links, link.connected = true → link.isCarrierBacked = false → link.remotePeerId ≠ "" →
    (s.byPeer link.remotePeerId).adp = some link.id

def up (s : LinkPlane) (id : LinkId) : Prop :=
  ∃ link ∈ s.links, link.id = id ∧ link.connected = true

theorem Shown.single (shown : s.Shown) {one two : PeerLink} (isOne : one ∈ s.links)
    (isTwo : two ∈ s.links) (rivals : Rivals one two) (adp : one.isCarrierBacked = false) :
    one.id = two.id := by
  obtain ⟨oneUp, twoUp, peer, transport, known⟩ := rivals
  have first := shown one isOne oneUp adp known
  have second := shown two isTwo twoUp (transport ▸ adp) (peer ▸ known)
  rw [peer, second] at first
  exact (Option.some.inj first).symm

/-- At the start of a call all the ADP links that are up are the ones the index names. -/
theorem Shown.lit (shown : s.Shown) (sound : s.Sound) (id : Option LinkId) : s.Lit s.up id := by
  refine ⟨?_, ?_, ?_, ?_, ?_⟩
  · exact fun one isOne two isTwo rivals adp => shown.single isOne isTwo rivals adp
  · exact fun link held up adp known _ => shown link held up adp known
  · exact fun link held up => Or.inl ⟨link, held, rfl, up⟩
  · rintro link held begins ⟨other, otherHeld, same, isUp⟩
    rw [sound.same otherHeld held same, PeerLink.connected, begins] at isUp
    cases isUp
  · rintro _ ⟨link, held, rfl, _⟩
    exact sound.numbered link held

/-- At the end of a call it is left to show that the index names the link that came up. -/
theorem Lit.toShown (lit : t.Lit old id)
    (last : ∀ link ∈ t.links, id = some link.id → link.connected = true →
      link.isCarrierBacked = false → link.remotePeerId ≠ "" →
      (t.byPeer link.remotePeerId).adp = some link.id) : t.Shown := by
  intro link held up adp known
  rcases lit.known link held up with isOld | isNew
  · exact lit.shown link held up adp known isOld
  · exact last link held isNew up adp known

end LinkPlane

namespace PeerLinkManager

open LinkPlane (Rivals single arriving)

/-- `IsConnectedToPeerId`: over ADP. -/
def isConnectedToPeerId (m : PeerLinkManager) (peerId : String) : Bool :=
  if peerId = "" then false
  else
    match (m.table.byPeer peerId).adp with
    | none => false
    | some id => (m.table.findById id).any fun link => link.connected && !link.isCarrierBacked

/-- `IsReachable`: over either transport. -/
def isReachable (m : PeerLinkManager) (peerId : String) : Bool :=
  if peerId = "" then false
  else
    let presence := m.table.byPeer peerId
    let live := fun (id : Option LinkId) =>
      id.any fun id => (m.table.findById id).any PeerLink.connected
    if live presence.adp || live presence.carrier then true
    else (m.table.findByPeerId peerId).any PeerLink.connected

/-- What the index says of a peer is what a scan of the table finds. -/
structure PresenceAgrees (m : PeerLinkManager) : Prop where
  connected : ∀ peerId, peerId ≠ "" → (m.isConnectedToPeerId peerId = true ↔
    ∃ link ∈ m.table.links, link.connected = true ∧ link.isCarrierBacked = false ∧
      link.remotePeerId = peerId)
  reachable : ∀ peerId, peerId ≠ "" → (m.isReachable peerId = true ↔
    ∃ link ∈ m.table.links, link.connected = true ∧ link.remotePeerId = peerId)

section Agreement

variable {m : PeerLinkManager}

/-- A live entry of the index names a Connected link of the peer and transport. -/
theorem entry_some (sound : (m.plane {}).Sound) {peer : String} {carrier : Bool} {id : LinkId}
    {link : PeerLink} (named : (m.table.byPeer peer).entry carrier = some id)
    (found : m.table.findById id = some link) :
    link ∈ m.table.links ∧ link.remotePeerId = peer ∧ link.isCarrierBacked = carrier := by
  obtain ⟨held, same⟩ := findById_some found
  obtain ⟨_, other, otherHeld, isEntry, isPeer, isCarrier, _⟩ := sound.known peer carrier id named
  have this : link.plain = other := sound.same (mem_plane {} held) otherHeld (same.trans isEntry.symm)
  subst this
  exact ⟨held, isPeer, isCarrier⟩

theorem isConnected_iff (sound : (m.plane {}).Sound) (shown : (m.plane {}).Shown) {peerId : String}
    (known : peerId ≠ "") : m.isConnectedToPeerId peerId = true ↔
      ∃ link ∈ m.table.links, link.connected = true ∧ link.isCarrierBacked = false ∧
        link.remotePeerId = peerId := by
  unfold isConnectedToPeerId
  rw [if_neg known]
  constructor
  · intro said
    cases named : (m.table.byPeer peerId).adp with
    | none =>
        rw [named] at said
        cases said
    | some id =>
        rw [named] at said
        dsimp only at said
        rw [Option.any_eq_true] at said
        obtain ⟨link, found, fits⟩ := said
        simp only [Bool.and_eq_true, Bool.not_eq_true'] at fits
        have entry : (m.table.byPeer peerId).entry false = some id := named
        obtain ⟨held, peer, adp⟩ := entry_some sound entry found
        exact ⟨link, held, fits.1, adp, peer⟩
  · rintro ⟨link, held, up, adp, rfl⟩
    have named : (m.table.byPeer link.remotePeerId).adp = some link.id :=
      shown link.plain (mem_plane {} held) up adp known
    have found := findById_of_mem sound held
    simp [named, found, up, adp]

theorem isReachable_iff (sound : (m.plane {}).Sound) {peerId : String} (known : peerId ≠ "") :
    m.isReachable peerId = true ↔
      ∃ link ∈ m.table.links, link.connected = true ∧ link.remotePeerId = peerId := by
  unfold isReachable
  rw [if_neg known]
  constructor
  · intro said
    have live (carrier : Bool) (fits : ((m.table.byPeer peerId).entry carrier).any (fun id =>
        (m.table.findById id).any PeerLink.connected) = true) :
        ∃ link ∈ m.table.links, link.connected = true ∧ link.remotePeerId = peerId := by
      rw [Option.any_eq_true] at fits
      obtain ⟨id, named, fits⟩ := fits
      rw [Option.any_eq_true] at fits
      obtain ⟨link, found, up⟩ := fits
      obtain ⟨held, peer, _⟩ := entry_some sound named found
      exact ⟨link, held, up, peer⟩
    dsimp only at said
    split at said
    · rename_i either
      rw [Bool.or_eq_true] at either
      rcases either with adp | carrier
      · exact live false adp
      · exact live true carrier
    · rw [Option.any_eq_true] at said
      obtain ⟨link, found, _⟩ := said
      obtain ⟨held, peer, up⟩ := findByPeerId_some sound found
      exact ⟨link, held, up, peer⟩
  · rintro ⟨link, held, up, peer⟩
    dsimp only
    split
    · rfl
    · -- whatever the index says, the walk over the table meets a link of the peer
      have walked : m.table.forEach.find? (fun link => link.connected && link.remotePeerId == peerId) ≠
          none := by
        intro none
        have missed := List.find?_eq_none.mp none link ((m.table.order.perm _).mem_iff.mpr held)
        simp [up, peer] at missed
      obtain ⟨first, met⟩ := Option.ne_none_iff_exists'.mp walked
      have found : (m.table.findByPeerId peerId).isSome = true := by
        unfold LinkTable.findByPeerId LinkTable.firstConnected
        simp [known, met]
      obtain ⟨one, isOne⟩ := Option.isSome_iff_exists.mp found
      rw [isOne, Option.any_some]
      exact (findByPeerId_some sound isOne).2.2

theorem presenceAgrees_of_shown (sound : (m.plane {}).Sound) (shown : (m.plane {}).Shown) :
    m.PresenceAgrees :=
  ⟨fun _ known => isConnected_iff sound shown known, fun _ known => isReachable_iff sound known⟩

end Agreement

section Arrival

variable {m : PeerLinkManager}

/-- A link that is up where the index is refreshed is the one it names then. -/
theorem refreshPresence_shown {link : PeerLink} (found : m.table.findById link.id = some link)
    (up : link.connected = true) (adp : link.isCarrierBacked = false) (known : link.remotePeerId ≠ "") :
    ((m.refreshPresence link.handle).table.byPeer link.remotePeerId).adp = some link.id := by
  have live : m.table.findLive link.handle = some link := by
    simp [LinkTable.findLive, PeerLink.handle, found]
  unfold refreshPresence LinkTable.setPresence
  simp [live, up, known, PeerLink.transport, adp]

variable [MultiaddrParser]

/-- The callback of an ADP link that came up leaves the links, and the index names the
link after it. -/
theorem welcomed_shown {cb : Option Establish} {link : PeerLink}
    (plain : cb = none ∨ cb = some .inbound ∨ ∃ key, cb = some (.dial key))
    (sound : (((m.refreshPresence link.handle).runEstablishCb cb link.handle (.ok ())).plane {}).Sound)
    (held : link ∈ ((m.refreshPresence link.handle).runEstablishCb cb link.handle (.ok ())).table.links)
    (up : link.connected = true) (adp : link.isCarrierBacked = false) (known : link.remotePeerId ≠ "") :
    (((m.refreshPresence link.handle).runEstablishCb cb link.handle (.ok ())).table.byPeer
      link.remotePeerId).adp = some link.id := by
  have found := findById_of_mem sound held
  have once {before : PeerLinkManager} (same : before.table.links = m.table.links)
      (links : ((m.refreshPresence link.handle).runEstablishCb cb link.handle (.ok ())).table.links =
        before.table.links) :
      ((before.refreshPresence link.handle).table.byPeer link.remotePeerId).adp = some link.id := by
    apply refreshPresence_shown _ up adp known
    unfold LinkTable.findById at found ⊢
    rwa [links] at found
  rcases plain with rfl | rfl | ⟨key, rfl⟩
  · exact once rfl refreshPresence_links
  · exact once rfl refreshPresence_links
  · -- a dial that succeeds refreshes the index once more
    obtain ⟨ended, same, tables⟩ : ∃ ended : PeerLinkManager,
        ended.table.links = m.table.links ∧
        ((m.refreshPresence link.handle).runEstablishCb (some (.dial key)) link.handle
          (.ok ())).table = (ended.refreshPresence link.handle).table :=
      ⟨{ (m.refreshPresence link.handle).endDial key with book := _ }, refreshPresence_links, rfl⟩
    rw [tables]
    apply once same
    rw [tables, refreshPresence_links]

/-- The link wins the election it finds itself in, if any. -/
def wins (m : PeerLinkManager) (link : PeerLink) : Bool :=
  (m.rival link).all fun existing => elect existing link m.localPeerId == .candidate

/-- What is left of an ADP link that came up is what the index names for its peer. -/
theorem establish_shown {link shown : PeerLink} (sound : (m.plane {}).Sound)
    (found : m.table.findById link.id = some link) (underway : link.phase = .handshaking) (wins : m.wins link = true)
    (soundAfter : ((m.establish link).plane {}).Sound) (held : shown ∈ (m.establish link).table.links)
    (same : shown.id = link.id) (up : shown.connected = true) (adp : shown.isCarrierBacked = false)
    (known : shown.remotePeerId ≠ "") :
    ((m.establish link).table.byPeer shown.remotePeerId).adp = some shown.id := by
  have mem := mem_plane {} (findById_some found).1
  have moves : LinkPlane.Moves {} (m.plane {}) ((m.establish link).plane {}) :=
    establish_leads found underway (fun _ _ => trivial) (fun _ => trivial)
      (fun _ _ _ => ⟨trivial, fun _ _ => trivial⟩) (fun _ _ _ => ⟨trivial, fun _ _ => trivial⟩) sound
  obtain ⟨before, there, isHandle, carrier⟩ :=
    moves.descends (mem_plane {} held) (same.trans_le (sound.numbered link.plain mem))
  have isLink : before = link.plain :=
    sound.same there mem ((congrArg LinkHandle.id isHandle).trans same)
  subst isLink
  have handle : shown.handle = link.handle := isHandle.symm
  have transport : link.isCarrierBacked = shown.isCarrierBacked := carrier
  have coherent : link.Coherent := sound.coherent link.plain mem
  have plain : link.establishCb = none ∨ link.establishCb = some .inbound ∨
      ∃ key, link.establishCb = some (.dial key) := by
    unfold PeerLink.Coherent at coherent
    rcases cb : link.establishCb with _ | (key | _ | _)
    · exact Or.inl rfl
    · exact Or.inr (Or.inr ⟨key, rfl⟩)
    · exact Or.inr (Or.inl rfl)
    · rw [cb] at coherent
      have nested : link.isCarrierBacked = true := coherent.2
      rw [transport, adp] at nested
      cases nested
  rcases establish_cases m link with ⟨_, adopts, ends⟩ | ⟨existing, against, won, _⟩ |
    ⟨existing, _, _, ends⟩
  · rw [ends, ← handle] at held soundAfter ⊢
    exact welcomed_shown plain soundAfter held up adp known
  · unfold PeerLinkManager.wins at wins
    rw [against, Option.all_some, won] at wins
    cases wins
  · rw [ends, ← handle] at held soundAfter ⊢
    exact welcomed_shown plain soundAfter held up adp known

end Arrival

section Runs

variable {m : PeerLinkManager} [MultiaddrParser]

/-- The link that comes up in a call and stays so. -/
def risen (m : PeerLinkManager) (event : Event) : Option LinkId :=
  ((m.arrival event).filter fun arrived => arrived.1.wins arrived.2).map fun arrived => arrived.2.id

/-- An ADP link that comes up while its peer has an ADP session is weighed against that
one: of the Connected links to the peer, the first the walk over the table meets is an
ADP link too. -/
def findsAdpRival (m : PeerLinkManager) (event : Event) : Bool :=
  (m.arrival event).all fun arrived => arrived.2.isCarrierBacked || (arrived.2.remotePeerId == "" ||
    (m.sessions arrived.2.remotePeerId arrived.2.isCarrierBacked).isEmpty ||
    (arrived.1.rival arrived.2).isSome)

theorem establishes_arriving {event : Event} {named : PeerLinkManager} {link : PeerLink}
    (shown : (m.plane {}).Shown) (finds : m.findsAdpRival event = true)
    (arrived : m.arrival event = some (named, link)) :
    EstablishesWell (arriving (m.risen event)) named {} link := by
  have risen (won : named.wins link = true) : m.risen event = some link.id := by
    unfold PeerLinkManager.risen
    simp [arrived, won]
  obtain ⟨before, found, underway, _, rfl⟩ := arrival_some arrived
  unfold findsAdpRival at finds
  rw [arrived, Option.all_some] at finds
  simp only [Bool.or_eq_true, beq_iff_eq, List.isEmpty_iff, or_assoc] at finds
  refine ⟨fun _ _ => trivial, ?_, ?_, fun _ _ _ => ⟨trivial, fun _ _ => trivial⟩⟩
  · intro alone
    refine ⟨risen ?_, finds.imp id fun finds => single_alone finds alone⟩
    unfold wins
    rw [alone]
    rfl
  · intro existing against won
    refine ⟨⟨risen ?_, ?_⟩, fun _ _ => trivial⟩
    · unfold wins
      rw [against, Option.all_some, won]
      rfl
    · cases transport : link.isCarrierBacked with
      | true => exact Or.inl transport
      | false =>
          right
          apply single_beats _ against
          intro standing held other otherHeld rivals adp
          have same : standing.plain.id = other.plain.id :=
            shown.single (mem_plane {} held) (mem_plane {} otherHeld) rivals (adp.trans transport)
          exact same

theorem step_shown {event : Event} (sound : (m.plane {}).Sound) (shown : (m.plane {}).Shown)
    (finds : m.findsAdpRival event = true) : ((m.step event).plane {}).Shown := by
  have granted : Grants (arriving (m.risen event)) m event :=
    grants_connect fun _ _ arrived => establishes_arriving shown finds arrived
  have before := sound_inHand sound event
  have moves := step_leads granted before
  have lit : (m.plane (inHand event)).Lit (m.plane {}).up (m.risen event) := by
    rw [plane_inHand]
    exact (shown.lit sound (m.risen event)).same rfl rfl rfl
  apply (moves.lit before lit).toShown
  intro plain mem isRisen up adp known
  obtain ⟨link, held, rfl⟩ := List.mem_map.mp mem
  obtain ⟨⟨named, arrived⟩, chosen, same⟩ := Option.map_eq_some_iff.mp isRisen
  obtain ⟨arrives, won⟩ := Option.filter_eq_some_iff.mp chosen
  obtain ⟨naming, found, underway⟩ := arrival_leads arrives
  have after := moves.sound before
  rw [arrival_step arrives] at held after ⊢
  have named := establish_shown ((naming sound).sound sound) found underway won after held same.symm
    up adp known
  exact named

/-- In every run in which each ADP link that comes up is weighed against the ADP session
its peer has, the index says of every peer what the table does. -/
theorem always_presence_agrees (localPeerId : String) (limits : LinkLimits) (events : List Event)
    (met : Run.Meets step (fun m event => m.findsAdpRival event = true) (create localPeerId limits)
      events) :
    Run.Always step PresenceAgrees (create localPeerId limits) events := by
  apply Run.always_of_invariant step _ (fun m => (m.plane {}).Sound ∧ (m.plane {}).Shown)
    PresenceAgrees _ _ events _ met
  · exact ⟨create_sound localPeerId limits, fun _ none => absurd none List.not_mem_nil⟩
  · intro m event finds inv
    exact ⟨step_sound inv.1 event, step_shown inv.1 inv.2 finds⟩
  · exact fun m inv => presenceAgrees_of_shown inv.1 inv.2

end Runs

section Samples

local instance everyAddress : MultiaddrParser := ⟨fun _ => .ok { endpoint := { port := 4000 } }⟩

theorem always_presence_agrees_sample :
    let events := [meetingBob, .inboundConnection "aa", comesUp 1, .inboundConnection "bb", comesUp 2]
    Run.Meets step (fun m event => m.findsAdpRival event = true) (create "alice" {}) events ∧
      Run.Always step PresenceAgrees (create "alice" {}) events := by
  intro events
  have met : Run.Meets step (fun m event => m.findsAdpRival event = true) (create "alice" {}) events := by
    decide +kernel
  exact ⟨met, always_presence_agrees "alice" {} events met⟩

/-- The later of two ADP sessions goes, and the index with it. -/
theorem presence_lost : ¬ PresenceAgrees (Run.exec step (create "alice" {})
    [meetingBob, .inboundConnection "aa", comesUp 1, .establishNested "bob" none true none, comesUp 2,
      .rehash newestFirst .inserted, .inboundConnection "bb", comesUp 3,
      .linkState 3 { association := { closed := true } }, .tick]) := by
  intro agrees
  have said := agrees.connected "bob" (by decide)
  revert said
  decide +kernel

end Samples

end PeerLinkManager

end Amp
