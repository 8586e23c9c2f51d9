import Amp.Link.ManagerTick
import Mathlib.Data.List.Nodup
import Mathlib.Logic.Relation

set_option autoImplicit false

/- The books a manager keeps on its links, apart from how it comes to change them:
which links there are and who is to be told of what. Every call of the manager is a
row of the moves listed here, so that what each move keeps, every call keeps. -/
namespace Amp

def PeerPresence.entry (presence : PeerPresence) (carrier : Bool) : Option LinkId :=
  if carrier then presence.carrier else presence.adp

/-- Everything but an ADP link whose association is closed. -/
def PeerLink.holdsSlot (link : PeerLink) : Bool := link.isCarrierBacked || !link.association.closed

/-- An accepted ADP link still handshaking. -/
def PeerLink.pendingInbound (link : PeerLink) : Bool :=
  !link.outbound && !link.isCarrierBacked && link.phase == .handshaking

/-- A link without what its transport tells of itself, but that it is closed. -/
def PeerLink.plain (link : PeerLink) : PeerLink where
  id := link.id
  generation := link.generation
  peerKey := link.peerKey
  remotePeerId := link.remotePeerId
  outbound := link.outbound
  isCarrierBacked := link.isCarrierBacked
  phase := link.phase
  establishCb := link.establishCb
  association := { closed := link.association.closed }

section Plain

variable (link : PeerLink)

@[simp] theorem PeerLink.plain_id : link.plain.id = link.id := rfl

@[simp] theorem PeerLink.plain_handle : link.plain.handle = link.handle := rfl

@[simp] theorem PeerLink.plain_peerKey : link.plain.peerKey = link.peerKey := rfl

@[simp] theorem PeerLink.plain_remotePeerId : link.plain.remotePeerId = link.remotePeerId := rfl

@[simp] theorem PeerLink.plain_isCarrierBacked :
    link.plain.isCarrierBacked = link.isCarrierBacked := rfl

@[simp] theorem PeerLink.plain_transport : link.plain.transport = link.transport := rfl

@[simp] theorem PeerLink.plain_phase : link.plain.phase = link.phase := rfl

@[simp] theorem PeerLink.plain_connected : link.plain.connected = link.connected := rfl

@[simp] theorem PeerLink.plain_dials (key : DialKey) : link.plain.dials key = link.dials key := rfl

@[simp] theorem PeerLink.plain_isDialing : link.plain.isDialing = link.isDialing := rfl

end Plain

/-- A link whose callback is still to come is handshaking, and the callback is the one
its making gave it. -/
def PeerLink.Coherent (link : PeerLink) : Prop :=
  match link.establishCb with
  | none => link.underway = false
  | some (.dial key) => link.phase = .handshaking ∧ link.outbound = true ∧
      link.isCarrierBacked = false ∧ link.peerKey = key
  | some .inbound => link.phase = .handshaking ∧ link.outbound = false ∧
      link.isCarrierBacked = false
  | some (.nested _) => link.phase = .handshaking ∧ link.isCarrierBacked = true

structure LinkPlane where
  limits : LinkLimits
  links : List PeerLink
  lastId : Nat
  byDialKey : DialKey → Option LinkId
  keyEvents : List KeyEvent
  byPeer : String → PeerPresence
  /-- The peer the dial book has for a key. -/
  peerOf : DialKey → Option String
  dials : Nat
  waiting : List (DialKey × LinkCb)
  resolving : List DialKey
  /-- The keys to be dialed again, those in hand first. -/
  retries : List DialKey
  pendingDrops : List (LinkHandle × LinkDropReason)
  /-- The callbacks in hand, not yet answered or waiting. -/
  calls : List Nat
  answers : List Answer
  drops : List (PeerLink × LinkDropReason)

namespace LinkPlane

def associated (s : LinkPlane) (key : DialKey) : Bool :=
  s.links.any fun link => link.connected && !link.isCarrierBacked &&
    (link.peerKey == key || (s.peerOf key).any fun peer => peer == link.remotePeerId)

def reached (s : LinkPlane) (key : DialKey) : Bool :=
  s.links.any fun dialed => dialed.outbound && !dialed.isCarrierBacked && dialed.peerKey == key &&
    s.links.any fun link => link.connected && !link.isCarrierBacked &&
      link.remotePeerId == dialed.remotePeerId && link.remotePeerId != ""

def standing (s : LinkPlane) (key : DialKey) : Standing where
  overAdp := s.associated key
  held := ((s.byDialKey key).bind fun id => s.links.find? fun link => link.id == id).any
    PeerLink.connected
  reached := s.reached key

/-- Something is under way that ends in an answer for the key's waiters. -/
def Served (s : LinkPlane) (key : DialKey) : Prop :=
  (∃ link ∈ s.links, link.dials key = true) ∨ key ∈ s.resolving

def Waits (s : LinkPlane) (key : DialKey) : Prop := ∃ waiter ∈ s.waiting, waiter.1 = key

/-- The links that count against `max_links`. -/
def slots (s : LinkPlane) : Nat := s.links.countP PeerLink.holdsSlot

def backlog (s : LinkPlane) : Nat := s.links.countP PeerLink.pendingInbound

section Operations

def enter (s : LinkPlane) (link : PeerLink) : LinkPlane :=
  { s with
    links := s.links ++ [link]
    lastId := link.id
    byDialKey := Function.update s.byDialKey link.peerKey (some link.id)
    keyEvents := s.keyEvents ++ [.inserted link.id link.peerKey link.isCarrierBacked]
    dials := if link.isDialing then s.dials + 1 else s.dials }

def modify (s : LinkPlane) (id : LinkId) (change : PeerLink → PeerLink) : LinkPlane :=
  { s with links := s.links.map fun link => if link.id = id then change link else link }

/-- A dial that ended gives its slot back; its key is in hand. -/
def settle (s : LinkPlane) : Option Establish → LinkPlane
  | some (.dial key) => { s with dials := s.dials - 1, retries := key :: s.retries }
  | _ => s

def unindex (s : LinkPlane) (link : PeerLink) : DialKey → Option LinkId :=
  if s.byDialKey link.peerKey = some link.id then Function.update s.byDialKey link.peerKey none
  else s.byDialKey

def absent (s : LinkPlane) (link : PeerLink) : String → PeerPresence :=
  let presence := s.byPeer link.remotePeerId
  if link.remotePeerId = "" then s.byPeer
  else Function.update s.byPeer link.remotePeerId <| match link.transport with
    | .carrier =>
        if presence.carrier = some link.id then { presence with carrier := none } else presence
    | .adp => if presence.adp = some link.id then { presence with adp := none } else presence

def erase (s : LinkPlane) (link : PeerLink) (reason : LinkDropReason) : LinkPlane :=
  { s with
    links := s.links.filter fun other => other.id != link.id
    byDialKey := s.unindex link
    byPeer := s.absent link
    drops := s.drops ++ [(link, reason)] }

def bind (s : LinkPlane) (link : PeerLink) (key : DialKey) : LinkPlane :=
  { s.modify link.id fun link => { link with peerKey := key } with
    byDialKey := Function.update (s.unindex link) key (some link.id)
    keyEvents := s.keyEvents ++ [.rebound link.id key] }

def present (s : LinkPlane) (link : PeerLink) : LinkPlane :=
  let presence := s.byPeer link.remotePeerId
  if link.remotePeerId = "" then s
  else { s with byPeer := Function.update s.byPeer link.remotePeerId <| match link.transport with
    | .carrier => { presence with carrier := some link.id }
    | .adp => { presence with adp := some link.id } }

def schedule (s : LinkPlane) (handle : LinkHandle) (reason : LinkDropReason) : LinkPlane :=
  { s with pendingDrops := s.pendingDrops ++ [(handle, reason)] }

def answer (s : LinkPlane) (key : DialKey) (result : LinkRoe) (cb : LinkCb) : Option Answer :=
  cb.map fun call => ⟨call, key, result, s.standing key⟩

def finish (s : LinkPlane) (key : DialKey) (result : LinkRoe) : LinkPlane :=
  { s with
    waiting := s.waiting.filter fun waiter => waiter.1 != key
    answers := s.answers ++ ((s.waiting.filter fun waiter => waiter.1 == key).map
      Prod.snd).filterMap (s.answer key result) }

end Operations

/-- No Connected link is indexed under the key. -/
def Vacant (s : LinkPlane) (key : DialKey) : Prop :=
  ∀ link ∈ s.links, s.byDialKey key = some link.id → link.connected = false

/-- What has to be shown, move by move, of the moves that not every run may make. -/
structure Permits where
  /-- An accepted link comes in. -/
  accept : LinkPlane → Prop := fun _ => True
  /-- A link's association is open that was closed. -/
  reopen : PeerLink → Prop := fun _ => True
  connect : LinkPlane → PeerLink → Prop := fun _ _ => True
  /-- A link goes at once. -/
  drop : PeerLink → LinkDropReason → Prop := fun _ _ => True
  /-- A link goes whose drop was pending. -/
  discharge : PeerLink → LinkDropReason → Prop := fun _ _ => True
  /-- A link is to go that lost an election. -/
  lose : LinkHandle → Prop := fun _ => True
  /-- A link is to go that the product named. -/
  request : LinkHandle → Prop := fun _ => True
  forget : LinkPlane → Prop := fun _ => True
  join : LinkPlane → DialKey → Prop := fun _ _ => True
  unresolve : LinkPlane → DialKey → Prop := fun _ _ => True
  /-- A waiter is told of success. -/
  succeed : Standing → Prop := fun _ => True

/-- A result that may be told: a failure, or a success that is permitted. -/
def Permits.Tells (P : Permits) (s : LinkPlane) (key : DialKey) (result : LinkRoe) : Prop :=
  result = .ok () → P.succeed (s.standing key)

/-- There is room for a link of our own making, and an accepted one may come in. -/
def Permits.Admits (P : Permits) (s : LinkPlane) (link : PeerLink) : Prop :=
  if link.outbound || link.isCarrierBacked then s.slots < s.limits.maxLinks else P.accept s

inductive Move (P : Permits) (s : LinkPlane) : LinkPlane → Prop where
  | enter (link : PeerLink) (fresh : link.id = s.lastId + 1) (coherent : link.Coherent)
      (underway : link.phase = .handshaking)
      (vacant : link.isCarrierBacked = true ∨ s.Vacant link.peerKey) (room : P.Admits s link) :
      Move P s (s.enter link)
  | name (link : PeerLink) (found : link ∈ s.links) (underway : link.phase = .handshaking)
      (peer : String) : Move P s (s.modify link.id fun link => { link with remotePeerId := peer })
  /-- The association closed, or was said to be open. -/
  | report (link : PeerLink) (found : link ∈ s.links) (closed : Bool)
      (permitted : link.association.closed = true → closed = true ∨ P.reopen link) :
      Move P s (s.modify link.id fun link => { link with association := { closed := closed } })
  | fail (link : PeerLink) (found : link ∈ s.links) : Move P s ((s.modify link.id fun link =>
      { link with phase := .backoff, establishCb := none }).settle link.establishCb)
  | connect (link : PeerLink) (found : link ∈ s.links) (underway : link.phase = .handshaking)
      (permitted : P.connect s link) : Move P s ((s.modify link.id fun link =>
      { link with phase := .connected, establishCb := none }).settle link.establishCb)
  | retire (link : PeerLink) (found : link ∈ s.links) (up : link.connected = true) :
      Move P s (s.modify link.id fun link => { link with phase := .backoff })
  | drop (link : PeerLink) (found : link ∈ s.links) (reason : LinkDropReason)
      (permitted : P.drop link reason) : Move P s (s.erase link reason)
  | bind (link : PeerLink) (found : link ∈ s.links) (settled : link.phase ≠ .handshaking)
      (key : DialKey) (free : s.byDialKey key = none ∨ s.byDialKey key = some link.id) :
      Move P s (s.bind link key)
  | present (link : PeerLink) (found : link ∈ s.links) (up : link.connected = true) :
      Move P s (s.present link)
  | schedule (handle : LinkHandle) (reason : LinkDropReason)
      (plain : reason ≠ .dualDialLost ∧ reason ≠ .requested) : Move P s (s.schedule handle reason)
  | lose (handle : LinkHandle) (permitted : P.lose handle) :
      Move P s (s.schedule handle .dualDialLost)
  | request (handle : LinkHandle) (permitted : P.request handle) :
      Move P s (s.schedule handle .requested)
  /-- A drop that is due finds its link gone. -/
  | pass (handle : LinkHandle) (reason : LinkDropReason) (rest : List (LinkHandle × LinkDropReason))
      (due : s.pendingDrops = (handle, reason) :: rest) (gone : ∀ link ∈ s.links, link.handle ≠ handle) :
      Move P s { s with pendingDrops := rest }
  | discharge (link : PeerLink) (found : link ∈ s.links) (reason : LinkDropReason)
      (rest : List (LinkHandle × LinkDropReason))
      (due : s.pendingDrops = (link.handle, reason) :: rest) (permitted : P.discharge link reason) :
      Move P s { s.erase link reason with pendingDrops := rest }
  | forget (permitted : P.forget s) : Move P s { s with pendingDrops := [] }
  | join (key : DialKey) (cb : LinkCb) (rest : List Nat) (held : s.calls = cb.toList ++ rest)
      (served : key ∈ s.resolving ∨ key ∈ s.retries ∨ P.join s key) :
      Move P s { s with waiting := s.waiting ++ [(key, cb)], calls := rest }
  | answer (key : DialKey) (result : LinkRoe) (cb : LinkCb) (rest : List Nat)
      (held : s.calls = cb.toList ++ rest) (permitted : P.Tells s key result) :
      Move P s { s with answers := s.answers ++ (s.answer key result cb).toList, calls := rest }
  | finish (key : DialKey) (result : LinkRoe) (permitted : P.Tells s key result) :
      Move P s (s.finish key result)
  | resolve (key : DialKey) : Move P s
      { s with resolving := if key ∈ s.resolving then s.resolving else s.resolving ++ [key] }
  | unresolve (key : DialKey) (served : ¬ s.Waits key ∨ key ∈ s.retries ∨ P.unresolve s key) :
      Move P s { s with resolving := s.resolving.filter (· != key) }
  | retry (keys : List DialKey)
      (kept : ∀ key ∈ s.retries, key ∈ keys ∨ ¬ s.Waits key ∨ s.Served key) :
      Move P s { s with retries := keys }
  | rename (peerOf : DialKey → Option String) : Move P s { s with peerOf := peerOf }

def Moves (P : Permits) : LinkPlane → LinkPlane → Prop := Relation.ReflTransGen (Move P)

section Soundness

/-- A presence entry names a link of its peer and transport that has come up. -/
def Presents (s : LinkPlane) (peer : String) (carrier : Bool) (id : LinkId) : Prop :=
  peer ≠ "" ∧ ∃ link ∈ s.links, link.id = id ∧ link.remotePeerId = peer ∧ link.isCarrierBacked = carrier ∧
    link.phase ≠ .handshaking

/-- Holds whatever moves are permitted. -/
structure Sound (s : LinkPlane) : Prop where
  unique : (s.links.map PeerLink.id).Nodup
  numbered : ∀ link ∈ s.links, link.id ≤ s.lastId
  coherent : ∀ link ∈ s.links, link.Coherent
  indexed : ∀ key id, s.byDialKey key = some id → ∃ link ∈ s.links, link.id = id ∧ link.peerKey = key
  known : ∀ peer carrier id, (s.byPeer peer).entry carrier = some id → s.Presents peer carrier id

variable {P : Permits} {s t : LinkPlane}

theorem Sound.same (sound : s.Sound) {one two : PeerLink} (mem : one ∈ s.links)
    (other : two ∈ s.links) (id : one.id = two.id) : one = two :=
  List.inj_on_of_nodup_map sound.unique mem other id

/-- What holds of every link after a change to one of them. -/
theorem forall_modify {id : LinkId} {change : PeerLink → PeerLink} {holds : PeerLink → Prop}
    (changed : ∀ link ∈ s.links, link.id = id → holds (change link))
    (others : ∀ link ∈ s.links, link.id ≠ id → holds link) :
    ∀ link ∈ (s.modify id change).links, holds link := by
  intro link mem
  obtain ⟨before, found, rfl⟩ := List.mem_map.mp mem
  by_cases this : before.id = id
  · rw [if_pos this]
    exact changed before found this
  · rw [if_neg this]
    exact others before found this

/-- A link that a change of one of them leaves somewhere, changed or as it was. -/
theorem exists_modify {id : LinkId} {change : PeerLink → PeerLink} {holds : PeerLink → Prop}
    {link : PeerLink} (found : link ∈ s.links) (changed : link.id = id → holds (change link))
    (kept : link.id ≠ id → holds link) : ∃ after ∈ (s.modify id change).links, holds after := by
  refine ⟨_, List.mem_map.mpr ⟨link, found, rfl⟩, ?_⟩
  by_cases this : link.id = id
  · rw [if_pos this]
    exact changed this
  · rw [if_neg this]
    exact kept this

theorem modify_ids (s : LinkPlane) (id : LinkId) {change : PeerLink → PeerLink}
    (keeps : ∀ link, (change link).id = link.id) :
    (s.modify id change).links.map PeerLink.id = s.links.map PeerLink.id := by
  unfold modify
  rw [List.map_map]
  apply List.map_congr_left
  intro link _
  by_cases this : link.id = id <;> simp [this, keeps]

/-- A change to a link that leaves who it is and how it is found, and does not start
its handshake again. -/
theorem Sound.modify (sound : s.Sound) (id : LinkId) {change : PeerLink → PeerLink}
    (keepsId : ∀ link, (change link).id = link.id)
    (keepsKey : ∀ link, (change link).peerKey = link.peerKey)
    (keepsTransport : ∀ link, (change link).isCarrierBacked = link.isCarrierBacked)
    (coherent : ∀ link ∈ s.links, link.id = id → (change link).Coherent)
    (named : ∀ link ∈ s.links, link.id = id → link.phase ≠ .handshaking →
      (change link).remotePeerId = link.remotePeerId ∧ (change link).phase ≠ .handshaking) :
    (s.modify id change).Sound := by
  have presents (peer : String) (carrier : Bool) (entry : LinkId)
      (before : s.Presents peer carrier entry) :
      (s.modify id change).Presents peer carrier entry := by
    obtain ⟨nonempty, link, found, isEntry, isPeer, isCarrier, settled⟩ := before
    refine ⟨nonempty, ?_⟩
    apply exists_modify found
    · intro this
      have same := named link found this settled
      exact ⟨(keepsId link).trans isEntry, same.1.trans isPeer,
        (keepsTransport link).trans isCarrier, same.2⟩
    · intro _
      exact ⟨isEntry, isPeer, isCarrier, settled⟩
  refine ⟨?_, ?_, ?_, ?_, ?_⟩
  · rw [modify_ids s id keepsId]
    exact sound.unique
  · apply forall_modify
    · intro link found _
      rw [keepsId]
      exact sound.numbered link found
    · intro link found _
      exact sound.numbered link found
  · exact forall_modify coherent fun link found _ => sound.coherent link found
  · intro key entry named
    obtain ⟨link, found, isEntry, isKey⟩ := sound.indexed key entry named
    apply exists_modify found
    · intro _
      exact ⟨(keepsId link).trans isEntry, (keepsKey link).trans isKey⟩
    · intro _
      exact ⟨isEntry, isKey⟩
  · exact fun peer carrier entry named => presents _ _ _ (sound.known peer carrier entry named)

theorem Sound.settle (sound : s.Sound) (cb : Option Establish) : (s.settle cb).Sound := by
  obtain ⟨unique, numbered, coherent, indexed, known⟩ := sound
  rcases cb with _ | (_ | _ | _) <;> exact ⟨unique, numbered, coherent, indexed, known⟩

theorem Sound.enter (sound : s.Sound) {link : PeerLink} (fresh : link.id = s.lastId + 1)
    (coherent : link.Coherent) : (s.enter link).Sound := by
  have mem {other : PeerLink} (found : other ∈ s.links) : other ∈ (s.enter link).links :=
    List.mem_append_left _ found
  have presents (peer : String) (carrier : Bool) (entry : LinkId)
      (before : s.Presents peer carrier entry) : (s.enter link).Presents peer carrier entry := by
    obtain ⟨nonempty, other, found, rest⟩ := before
    exact ⟨nonempty, other, mem found, rest⟩
  refine ⟨?_, ?_, ?_, ?_, ?_⟩
  · show ((s.links ++ [link]).map PeerLink.id).Nodup
    rw [List.map_append, List.nodup_append]
    refine ⟨sound.unique, List.nodup_singleton _, ?_⟩
    intro id old other isNew
    obtain ⟨before, found, rfl⟩ := List.mem_map.mp old
    have bound := sound.numbered before found
    have new : other = s.lastId + 1 := by simpa [fresh] using isNew
    exact Nat.ne_of_lt (new ▸ Nat.lt_succ_of_le bound)
  · intro other found
    show other.id ≤ link.id
    rcases List.mem_append.mp found with old | isNew
    · rw [fresh]
      exact Nat.le_succ_of_le (sound.numbered other old)
    · rw [List.mem_singleton.mp isNew]
  · intro other found
    rcases List.mem_append.mp found with old | isNew
    · exact sound.coherent other old
    · rw [List.mem_singleton.mp isNew]
      exact coherent
  · intro key entry named
    by_cases this : key = link.peerKey
    · subst this
      refine ⟨link, List.mem_append_right _ (List.mem_singleton.mpr rfl), ?_, rfl⟩
      simpa [LinkPlane.enter] using named
    · have before : s.byDialKey key = some entry := by
        simpa [LinkPlane.enter, Function.update_of_ne this] using named
      obtain ⟨other, found, rest⟩ := sound.indexed key entry before
      exact ⟨other, mem found, rest⟩
  · exact fun peer carrier entry named => presents _ _ _ (sound.known peer carrier entry named)

/-- Only the entry of the link itself goes from the index. -/
theorem unindex_some {link : PeerLink} {key : DialKey} {entry : LinkId}
    (named : s.unindex link key = some entry) :
    s.byDialKey key = some entry ∧ ¬ (key = link.peerKey ∧ entry = link.id) := by
  unfold unindex at named
  by_cases own : s.byDialKey link.peerKey = some link.id
  · rw [if_pos own] at named
    by_cases this : key = link.peerKey
    · simp [this] at named
    · rw [Function.update_of_ne this] at named
      exact ⟨named, fun both => this both.1⟩
  · rw [if_neg own] at named
    refine ⟨named, ?_⟩
    rintro ⟨rfl, rfl⟩
    exact own named

theorem absent_some {link : PeerLink} {peer : String} {carrier : Bool} {entry : LinkId}
    (named : (s.absent link peer).entry carrier = some entry) :
    (s.byPeer peer).entry carrier = some entry ∧
      ¬ (peer = link.remotePeerId ∧ peer ≠ "" ∧ link.isCarrierBacked = carrier ∧
        entry = link.id) := by
  unfold absent at named
  by_cases unknown : link.remotePeerId = ""
  · rw [if_pos unknown] at named
    exact ⟨named, fun both => both.2.1 (both.1.trans unknown)⟩
  · rw [if_neg unknown] at named
    by_cases this : peer = link.remotePeerId
    · subst this
      rw [Function.update_self] at named
      unfold PeerLink.transport at named
      cases backed : link.isCarrierBacked <;> cases carrier <;>
        simp only [backed, PeerPresence.entry] at named ⊢ <;> split_ifs at named <;> simp_all
    · rw [Function.update_of_ne this] at named
      exact ⟨named, fun both => this both.1⟩

theorem Sound.erase (sound : s.Sound) {link : PeerLink} (found : link ∈ s.links)
    (reason : LinkDropReason) : (s.erase link reason).Sound := by
  have mem {other : PeerLink} (old : other ∈ s.links) (apart : other.id ≠ link.id) :
      other ∈ (s.erase link reason).links := List.mem_filter.mpr ⟨old, by simpa using apart⟩
  refine ⟨?_, ?_, ?_, ?_, ?_⟩
  · exact sound.unique.sublist (List.filter_sublist.map _)
  · exact fun other kept => sound.numbered other (List.mem_of_mem_filter kept)
  · exact fun other kept => sound.coherent other (List.mem_of_mem_filter kept)
  · intro key entry named
    obtain ⟨before, apart⟩ := unindex_some named
    obtain ⟨other, old, isEntry, isKey⟩ := sound.indexed key entry before
    refine ⟨other, mem old ?_, isEntry, isKey⟩
    intro same
    rw [sound.same old found same] at isEntry isKey
    exact apart ⟨isKey.symm, isEntry.symm⟩
  · intro peer carrier entry named
    obtain ⟨before, apart⟩ := absent_some named
    obtain ⟨nonempty, other, old, isEntry, isPeer, isCarrier, rest⟩ :=
      sound.known peer carrier entry before
    refine ⟨nonempty, other, mem old ?_, isEntry, isPeer, isCarrier, rest⟩
    intro same
    rw [sound.same old found same] at isEntry isPeer isCarrier
    exact apart ⟨isPeer.symm, nonempty, isCarrier, isEntry.symm⟩

theorem Sound.bind (sound : s.Sound) {link : PeerLink} (found : link ∈ s.links)
    (settled : link.phase ≠ .handshaking) (key : DialKey) : (s.bind link key).Sound := by
  have presents (peer : String) (carrier : Bool) (entry : LinkId)
      (before : s.Presents peer carrier entry) : (s.bind link key).Presents peer carrier entry := by
    obtain ⟨nonempty, other, old, rest⟩ := before
    exact ⟨nonempty, exists_modify old (fun _ => rest) fun _ => rest⟩
  refine ⟨?_, ?_, ?_, ?_, ?_⟩
  · have ids : (s.bind link key).links.map PeerLink.id = s.links.map PeerLink.id :=
      modify_ids s link.id fun _ => rfl
    rw [ids]
    exact sound.unique
  · exact forall_modify (fun other old _ => sound.numbered other old)
      fun other old _ => sound.numbered other old
  · apply forall_modify
    · intro other old same
      have before := sound.coherent other old
      rw [sound.same old found same] at before ⊢
      unfold PeerLink.Coherent at before ⊢
      rcases cb : link.establishCb with _ | (_ | _ | _) <;> simp_all [PeerLink.underway]
    · exact fun other old _ => sound.coherent other old
  · intro other entry named
    by_cases this : other = key
    · subst this
      have isEntry : link.id = entry := by simpa [LinkPlane.bind] using named
      exact exists_modify found (fun _ => ⟨isEntry, rfl⟩) fun apart => absurd rfl apart
    · have before : s.unindex link other = some entry := by
        simpa [LinkPlane.bind, Function.update_of_ne this] using named
      obtain ⟨before, apart⟩ := unindex_some before
      obtain ⟨holder, old, isEntry, isKey⟩ := sound.indexed other entry before
      refine exists_modify old (fun same => ?_) fun _ => ⟨isEntry, isKey⟩
      rw [sound.same old found same] at isEntry isKey
      exact absurd ⟨isKey.symm, isEntry.symm⟩ apart
  · exact fun peer carrier entry named => presents _ _ _ (sound.known peer carrier entry named)

theorem Sound.present (sound : s.Sound) {link : PeerLink} (found : link ∈ s.links)
    (up : link.connected = true) : (s.present link).Sound := by
  unfold LinkPlane.present
  by_cases unknown : link.remotePeerId = ""
  · rw [if_pos unknown]
    exact sound
  · rw [if_neg unknown]
    refine ⟨sound.unique, sound.numbered, sound.coherent, sound.indexed, ?_⟩
    intro peer carrier entry named
    by_cases this : peer = link.remotePeerId
    · subst this
      dsimp only at named
      rw [Function.update_self] at named
      by_cases own : carrier = link.isCarrierBacked ∧ entry = link.id
      · refine ⟨unknown, link, found, own.2.symm, rfl, own.1.symm, ?_⟩
        intro underway
        simp [PeerLink.connected, underway] at up
      · have before : (s.byPeer link.remotePeerId).entry carrier = some entry := by
          unfold PeerLink.transport at named
          cases backed : link.isCarrierBacked <;> cases carrier <;>
            simp_all [PeerPresence.entry]
        exact sound.known _ carrier entry before
    · dsimp only at named
      rw [Function.update_of_ne this] at named
      exact sound.known peer carrier entry named

/-- Every move keeps the books sound. -/
theorem Move.sound (move : Move P s t) (sound : s.Sound) : t.Sound := by
  have others : s.Sound → ∀ {dials waiting resolving retries pendingDrops calls answers drops peerOf},
      ({ s with
        dials := dials, waiting := waiting, resolving := resolving, retries := retries,
        pendingDrops := pendingDrops, calls := calls, answers := answers, drops := drops,
        peerOf := peerOf } : LinkPlane).Sound := by
    intro sound _ _ _ _ _ _ _ _ _
    exact ⟨sound.unique, sound.numbered, sound.coherent, sound.indexed, sound.known⟩
  cases move with
  | enter link fresh coherent underway vacant room => exact sound.enter fresh coherent
  | name link found underway peer =>
      refine sound.modify link.id (fun _ => rfl) (fun _ => rfl) (fun _ => rfl) ?_ ?_
      · exact fun other old _ => sound.coherent other old
      · intro other old same settled
        rw [sound.same old found same] at settled
        exact absurd underway settled
  | report link found closed permitted =>
      exact sound.modify link.id (fun _ => rfl) (fun _ => rfl) (fun _ => rfl)
        (fun other old _ => sound.coherent other old) fun _ _ _ settled => ⟨rfl, settled⟩
  | fail link found =>
      apply Sound.settle
      exact sound.modify link.id (fun _ => rfl) (fun _ => rfl) (fun _ => rfl)
        (fun _ _ _ => rfl) fun _ _ _ _ => ⟨rfl, PeerLinkPhase.noConfusion⟩
  | connect link found underway permitted =>
      apply Sound.settle
      exact sound.modify link.id (fun _ => rfl) (fun _ => rfl) (fun _ => rfl)
        (fun _ _ _ => rfl) fun _ _ _ _ => ⟨rfl, PeerLinkPhase.noConfusion⟩
  | retire link found up =>
      refine sound.modify link.id (fun _ => rfl) (fun _ => rfl) (fun _ => rfl) ?_ ?_
      · intro other old same
        have before := sound.coherent other old
        rw [sound.same old found same] at before ⊢
        unfold PeerLink.Coherent at before ⊢
        rcases cb : link.establishCb with _ | (_ | _ | _) <;>
          simp_all [PeerLink.underway, PeerLink.connected]
      · exact fun _ _ _ _ => ⟨rfl, PeerLinkPhase.noConfusion⟩
  | drop link found reason permitted => exact sound.erase found reason
  | bind link found settled key free => exact sound.bind found settled key
  | present link found up => exact sound.present found up
  | discharge link found reason rest due permitted =>
      have erased := sound.erase found reason
      exact ⟨erased.unique, erased.numbered, erased.coherent, erased.indexed, erased.known⟩
  | schedule | lose | request | pass | forget | join | answer | finish | resolve | unresolve
  | retry | rename => exact others sound

theorem Moves.sound (moves : Moves P s t) (sound : s.Sound) : t.Sound := by
  induction moves with
  | refl => exact sound
  | tail _ move ih => exact move.sound ih

/-- A link past its handshake. -/
def Settled (s : LinkPlane) (id : LinkId) : Prop :=
  ∀ link ∈ s.links, link.id = id → link.phase ≠ .handshaking

theorem Settled.modify {id : LinkId} (settled : s.Settled id) (target : LinkId)
    {change : PeerLink → PeerLink} (keeps : ∀ link, (change link).id = link.id)
    (stays : ∀ link, link.phase ≠ .handshaking → (change link).phase ≠ .handshaking) :
    (s.modify target change).Settled id := by
  apply forall_modify
  · intro link found _ same
    exact stays link (settled link found ((keeps link).symm.trans same))
  · exact fun link found _ => settled link found

theorem Settled.settle {id : LinkId} (settled : s.Settled id) (cb : Option Establish) :
    (s.settle cb).Settled id := by
  rcases cb with _ | (_ | _ | _) <;> exact settled

/-- No handshake starts again. -/
theorem Move.settled (move : Move P s t) {id : LinkId} (old : id ≤ s.lastId)
    (settled : s.Settled id) : t.Settled id := by
  cases move with
  | enter link fresh coherent underway =>
      intro other found same
      rcases List.mem_append.mp found with before | isNew
      · exact settled other before same
      · have new : s.lastId + 1 = id := by
          rw [← fresh, ← List.mem_singleton.mp isNew]
          exact same
        exact absurd (new ▸ old) (Nat.not_succ_le_self _)
  | name link found underway peer => exact settled.modify _ (fun _ => rfl) fun _ stays => stays
  | report link found closed permitted => exact settled.modify _ (fun _ => rfl) fun _ stays => stays
  | fail link found =>
      apply Settled.settle
      exact settled.modify _ (fun _ => rfl) fun _ _ => PeerLinkPhase.noConfusion
  | connect link found underway permitted =>
      apply Settled.settle
      exact settled.modify _ (fun _ => rfl) fun _ _ => PeerLinkPhase.noConfusion
  | retire link found up =>
      exact settled.modify _ (fun _ => rfl) fun _ _ => PeerLinkPhase.noConfusion
  | drop link found reason permitted =>
      exact fun other kept => settled other (List.mem_of_mem_filter kept)
  | bind link found settled' key free => exact settled.modify _ (fun _ => rfl) fun _ stays => stays
  | present link found up =>
      unfold LinkPlane.present
      split <;> exact settled
  | discharge link found reason rest due permitted =>
      exact fun other kept => settled other (List.mem_of_mem_filter kept)
  | schedule | lose | request | pass | forget | join | answer | finish | resolve | unresolve
  | retry | rename => exact settled

/-- Ids only grow. -/
theorem Move.lastId_le (move : Move P s t) : s.lastId ≤ t.lastId := by
  have settle (s : LinkPlane) (cb : Option Establish) : (s.settle cb).lastId = s.lastId := by
    rcases cb with _ | (_ | _ | _) <;> rfl
  cases move with
  | enter link fresh coherent underway => exact (Nat.le_succ _).trans_eq fresh.symm
  | fail link found => rw [settle]; exact le_rfl
  | connect link found underway permitted => rw [settle]; exact le_rfl
  | present link found up =>
      unfold LinkPlane.present
      split <;> exact le_rfl
  | name | report | retire | drop | bind | discharge | schedule | lose | request | pass | forget
  | join | answer | finish | resolve | unresolve | retry | rename => exact le_rfl

theorem Moves.lastId_le (moves : Moves P s t) : s.lastId ≤ t.lastId := by
  induction moves with
  | refl => exact le_rfl
  | tail _ move ih => exact ih.trans move.lastId_le

theorem Moves.settled (moves : Moves P s t) {id : LinkId} (old : id ≤ s.lastId)
    (settled : s.Settled id) : t.Settled id := by
  induction moves with
  | refl => exact settled
  | tail before move ih => exact move.settled (old.trans (Moves.lastId_le before)) ih

end Soundness

end LinkPlane

end Amp
