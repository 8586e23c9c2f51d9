import Amp.Lib.Run
import Amp.Link.LinkTable
import Mathlib.Data.List.AList

set_option autoImplicit false

/- The three maps of a link table as the code keeps them (LinkTable.cpp), and what
holds between them: several links may carry one key while the index names only
one of them, so an operation may touch an entry only while it names its own link. -/
namespace Amp

/-- The entry of one transport. -/
def PeerPresence.slot (presence : PeerPresence) : TransportClass → Option LinkId
  | .adp => presence.adp
  | .carrier => presence.carrier

def PeerPresence.put (presence : PeerPresence) (transport : TransportClass) (id : Option LinkId) :
    PeerPresence :=
  match transport with
  | .adp => { presence with adp := id }
  | .carrier => { presence with carrier := id }

@[simp] theorem PeerPresence.slot_put (presence : PeerPresence) (transport : TransportClass)
    (id : Option LinkId) : (presence.put transport id).slot transport = id := by
  cases transport <;> rfl

theorem PeerPresence.slot_put_ne (presence : PeerPresence) {transport other : TransportClass}
    (differs : other ≠ transport) (id : Option LinkId) :
    (presence.put transport id).slot other = presence.slot other := by
  cases transport <;> cases other <;> first | rfl | exact absurd rfl differs

/-- `by_id_`, `by_dial_key_` and `by_peer_`. An id is valid when it is not 0. -/
structure LinkIndexes where
  nextId : Nat := 0
  nextGeneration : Nat := 0
  byId : AList (fun _ : LinkId => PeerLink) := ∅
  byDialKey : AList (fun _ : DialKey => LinkId) := ∅
  byPeer : AList (fun _ : String => PeerPresence) := ∅

namespace LinkIndexes

def allocId (table : LinkIndexes) : LinkIndexes × LinkId :=
  ({ table with nextId := table.nextId + 1 }, table.nextId + 1)

/-- The generation counter has 32 bits. -/
def takeGeneration (table : LinkIndexes) : LinkIndexes × Nat :=
  let generation := (table.nextGeneration + 1) % 2 ^ 32
  ({ table with nextGeneration := generation }, generation)

def findById (table : LinkIndexes) (id : LinkId) : Option PeerLink := table.byId.lookup id

def findByDialKey (table : LinkIndexes) (key : DialKey) : Option PeerLink :=
  (table.byDialKey.lookup key).bind table.findById

def findLive (table : LinkIndexes) (handle : LinkHandle) : Option PeerLink :=
  (table.findById handle.id).filter fun link => link.generation == handle.generation

def presence (table : LinkIndexes) (peerId : String) : PeerPresence :=
  (table.byPeer.lookup peerId).getD {}

/-- `SetLinkIdentity` of a link that has none yet. -/
def identify (table : LinkIndexes) (link : PeerLink) : LinkIndexes × PeerLink :=
  if link.id = 0 then
    let (table, id) := table.allocId
    let (table, generation) := table.takeGeneration
    (table, { link with id := id, generation := generation })
  else (table, link)

/-- The two writes of `Insert`. -/
def install (table : LinkIndexes) (link : PeerLink) : LinkIndexes :=
  { table with
    byId := table.byId.insert link.id link
    byDialKey := table.byDialKey.insert link.peerKey link.id }

def insert (table : LinkIndexes) (link : PeerLink) : LinkIndexes :=
  (table.identify link).1.install (table.identify link).2

def setPresence (table : LinkIndexes) (peerId : String) (transport : TransportClass)
    (id : LinkId) : LinkIndexes :=
  if peerId = "" ∨ id = 0 then table
  else { table with
    byPeer := table.byPeer.insert peerId ((table.presence peerId).put transport (some id)) }

/-- The end of `ClearPresence`: an entry with nothing left in it is erased. -/
def keepPresence (table : LinkIndexes) (peerId : String) (presence : PeerPresence) : LinkIndexes :=
  { table with
    byPeer :=
      if presence.adp = none ∧ presence.carrier = none then table.byPeer.erase peerId
      else table.byPeer.insert peerId presence }

def clearPresence (table : LinkIndexes) (peerId : String) (transport : TransportClass)
    (id : LinkId) : LinkIndexes :=
  match table.byPeer.lookup peerId with
  | none => table
  | some presence => table.keepPresence peerId <|
      if presence.slot transport = some id then presence.put transport none else presence

/-- The index entry of a key goes only while it names this link. -/
def unindex (table : LinkIndexes) (key : DialKey) (id : LinkId) : LinkIndexes :=
  if table.byDialKey.lookup key = some id then
    { table with byDialKey := table.byDialKey.erase key }
  else table

def eraseById (table : LinkIndexes) (id : LinkId) : LinkIndexes :=
  match table.findById id with
  | none => table
  | some link =>
      let table := table.unindex link.peerKey id
      let table :=
        if link.remotePeerId = "" then table
        else table.clearPresence link.remotePeerId link.transport id
      { table with byId := table.byId.erase id }

def eraseByDialKey (table : LinkIndexes) (key : DialKey) : LinkIndexes :=
  match table.byDialKey.lookup key with
  | none => table
  | some id => table.eraseById id

/-- `RebindDialKey`, and the key's entry. -/
def rebind (table : LinkIndexes) (id : LinkId) (link : PeerLink) (key : DialKey) : LinkIndexes :=
  { table with
    byId := table.byId.insert id { link with peerKey := key }
    byDialKey := table.byDialKey.insert key id }

def bindDialKey (table : LinkIndexes) (id : LinkId) (key : DialKey) : LinkIndexes × Bool :=
  match table.findById id with
  | none => (table, false)
  | some link =>
      if link.peerKey = key then
        ({ table with byDialKey := table.byDialKey.insert key id }, true)
      else if table.byDialKey.lookup key ≠ none ∧ table.byDialKey.lookup key ≠ some id then
        (table, false)
      else ((table.unindex link.peerKey id).rebind id link key, true)

def unbindDialKey (table : LinkIndexes) (key : DialKey) : LinkIndexes :=
  { table with byDialKey := table.byDialKey.erase key }

/-- Every entry of the secondary maps names a link that agrees with it, and no
presence is kept for a link without a peer. -/
structure Consistent (table : LinkIndexes) : Prop where
  ids : ∀ id link, table.byId.lookup id = some link → link.id = id
  keys : ∀ key id, table.byDialKey.lookup key = some id →
    ∃ link, table.byId.lookup id = some link ∧ link.peerKey = key
  peers : ∀ peerId transport id, (table.presence peerId).slot transport = some id →
    ∃ link, table.byId.lookup id = some link ∧ link.remotePeerId = peerId ∧
      link.transport = transport
  nameless : ∀ transport, (table.presence "").slot transport = none

/- What each operation does to a lookup. -/

variable {table : LinkIndexes}

theorem lookup_unindex (key other : DialKey) (id : LinkId) :
    (table.unindex key id).byDialKey.lookup other =
      if other = key ∧ table.byDialKey.lookup key = some id then none
      else table.byDialKey.lookup other := by
  unfold unindex
  by_cases named : table.byDialKey.lookup key = some id
  · rw [if_pos named]
    by_cases same : other = key
    · rw [if_pos ⟨same, named⟩, same]
      exact AList.lookup_erase key table.byDialKey
    · rw [if_neg fun both => same both.1]
      exact AList.lookup_erase_ne same
  · rw [if_neg named, if_neg fun both => named both.2]

@[simp] theorem unindex_byId (key : DialKey) (id : LinkId) :
    (table.unindex key id).byId = table.byId := by
  unfold unindex
  split <;> rfl

@[simp] theorem unindex_presence (key : DialKey) (id : LinkId) :
    (table.unindex key id).presence = table.presence := by
  unfold unindex
  split <;> rfl

theorem presence_of_lookup {peerId : String} {presence : PeerPresence}
    (found : table.byPeer.lookup peerId = some presence) : table.presence peerId = presence := by
  rw [LinkIndexes.presence, found, Option.getD_some]

theorem presence_insert (peerId other : String) (presence : PeerPresence) :
    ({ table with byPeer := table.byPeer.insert peerId presence } : LinkIndexes).presence other =
      if other = peerId then presence else table.presence other := by
  unfold LinkIndexes.presence
  by_cases same : other = peerId
  · rw [if_pos same, same, AList.lookup_insert, Option.getD_some]
  · rw [if_neg same, AList.lookup_insert_ne same]

/-- An emptied entry reads the same whether it is kept or erased. -/
theorem presence_keepPresence (peerId other : String) (presence : PeerPresence) :
    (table.keepPresence peerId presence).presence other =
      if other = peerId then presence else table.presence other := by
  unfold keepPresence
  by_cases empty : presence.adp = none ∧ presence.carrier = none
  · rw [if_pos empty]
    unfold LinkIndexes.presence
    by_cases same : other = peerId
    · rw [if_pos same, same, AList.lookup_erase, Option.getD_none]
      obtain ⟨adp, carrier⟩ := presence
      obtain ⟨rfl, rfl⟩ := empty
      rfl
    · rw [if_neg same, AList.lookup_erase_ne same]
  · rw [if_neg empty]
    exact presence_insert peerId other presence

theorem presence_setPresence {peerId : String} {id : LinkId} (named : peerId ≠ "") (valid : id ≠ 0)
    (transport : TransportClass) (other : String) :
    (table.setPresence peerId transport id).presence other =
      if other = peerId then (table.presence peerId).put transport (some id)
      else table.presence other := by
  unfold setPresence
  rw [if_neg (not_or.mpr ⟨named, valid⟩)]
  exact presence_insert peerId other _

theorem presence_clearPresence (peerId : String) (transport : TransportClass) (id : LinkId)
    (other : String) :
    (table.clearPresence peerId transport id).presence other =
      if other = peerId ∧ (table.presence peerId).slot transport = some id then
        (table.presence peerId).put transport none
      else table.presence other := by
  unfold clearPresence
  cases found : table.byPeer.lookup peerId with
  | none =>
      have empty : table.presence peerId = {} := by
        rw [LinkIndexes.presence, found, Option.getD_none]
      have unnamed : (table.presence peerId).slot transport ≠ some id := by
        rw [empty]
        cases transport <;> exact fun same => by cases same
      rw [if_neg fun both => unnamed both.2]
  | some presence =>
      have same := presence_of_lookup found
      dsimp only
      rw [presence_keepPresence, same]
      by_cases own : other = peerId
      · by_cases named : presence.slot transport = some id
        · rw [if_pos own, if_pos named, if_pos ⟨own, named⟩]
        · rw [if_pos own, if_neg named, if_neg fun both => named both.2, own, same]
      · rw [if_neg own, if_neg fun both => own both.1]

@[simp] theorem clearPresence_byId (peerId : String) (transport : TransportClass) (id : LinkId) :
    (table.clearPresence peerId transport id).byId = table.byId := by
  unfold clearPresence
  split <;> rfl

@[simp] theorem clearPresence_byDialKey (peerId : String) (transport : TransportClass)
    (id : LinkId) : (table.clearPresence peerId transport id).byDialKey = table.byDialKey := by
  unfold clearPresence
  split <;> rfl

/-- The maps of an erased link: its own entries go, where they still name it. -/
theorem eraseById_found {id : LinkId} {link : PeerLink} (found : table.byId.lookup id = some link) :
    (table.eraseById id).byId = table.byId.erase id ∧
      (∀ key, (table.eraseById id).byDialKey.lookup key =
        if key = link.peerKey ∧ table.byDialKey.lookup link.peerKey = some id then none
        else table.byDialKey.lookup key) ∧
      ∀ peerId, (table.eraseById id).presence peerId =
        if (peerId = link.remotePeerId ∧
            (table.presence link.remotePeerId).slot link.transport = some id) ∧
            link.remotePeerId ≠ "" then
          (table.presence link.remotePeerId).put link.transport none
        else table.presence peerId := by
  have looked : table.findById id = some link := found
  unfold eraseById
  rw [looked]
  dsimp only
  by_cases anonymous : link.remotePeerId = ""
  · rw [if_pos anonymous]
    refine ⟨by rw [unindex_byId], fun key => lookup_unindex link.peerKey key id, fun peerId => ?_⟩
    rw [if_neg fun both => both.2 anonymous]
    exact congrFun (unindex_presence link.peerKey id) peerId
  · rw [if_neg anonymous]
    refine ⟨by rw [clearPresence_byId, unindex_byId], fun key => ?_, fun peerId => ?_⟩
    · rw [clearPresence_byDialKey]
      exact lookup_unindex link.peerKey key id
    · have cleared : ((table.unindex link.peerKey id).clearPresence link.remotePeerId link.transport
          id).presence peerId = _ :=
        presence_clearPresence link.remotePeerId link.transport id peerId
      rw [unindex_presence] at cleared
      simp only [ne_eq, anonymous, not_false_eq_true, and_true]
      exact cleared

theorem eraseById_missing {id : LinkId} (missing : table.byId.lookup id = none) :
    table.eraseById id = table := by
  have looked : table.findById id = none := missing
  rw [eraseById, looked]

theorem eraseById_nextId (id : LinkId) : (table.eraseById id).nextId = table.nextId := by
  have unindexed : ∀ key, (table.unindex key id).nextId = table.nextId := by
    intro key
    unfold unindex
    split <;> rfl
  have cleared : ∀ (before : LinkIndexes) peerId transport,
      (before.clearPresence peerId transport id).nextId = before.nextId := by
    intro before peerId transport
    unfold clearPresence
    split <;> rfl
  unfold eraseById
  split
  · rfl
  · dsimp only
    split
    · exact unindexed _
    · rw [cleared, unindexed]

/-- A link under a new id, which no entry names yet. -/
theorem Consistent.install (consistent : table.Consistent) {link : PeerLink}
    (fresh : table.byId.lookup link.id = none) : (table.install link).Consistent := by
  have kept : ∀ id other, table.byId.lookup id = some other →
      (table.install link).byId.lookup id = some other := by
    intro id other found
    have apart : id ≠ link.id := by
      intro same
      rw [same, fresh] at found
      cases found
    rwa [LinkIndexes.install, AList.lookup_insert_ne apart]
  refine ⟨?_, ?_, ?_, consistent.nameless⟩
  · intro id other found
    by_cases same : id = link.id
    · rw [same, LinkIndexes.install, AList.lookup_insert] at found
      cases found
      exact same.symm
    · rw [LinkIndexes.install, AList.lookup_insert_ne same] at found
      exact consistent.ids id other found
  · intro key id named
    by_cases same : key = link.peerKey
    · rw [same, LinkIndexes.install, AList.lookup_insert] at named
      cases named
      exact ⟨link, AList.lookup_insert _, same.symm⟩
    · rw [LinkIndexes.install, AList.lookup_insert_ne same] at named
      obtain ⟨other, found, agrees⟩ := consistent.keys key id named
      exact ⟨other, kept id other found, agrees⟩
  · intro peerId transport id named
    obtain ⟨other, found, agrees⟩ := consistent.peers peerId transport id named
    exact ⟨other, kept id other found, agrees⟩

theorem Consistent.eraseById (consistent : table.Consistent) (id : LinkId) :
    (table.eraseById id).Consistent := by
  cases found : table.byId.lookup id with
  | none =>
      rw [eraseById_missing found]
      exact consistent
  | some link =>
      obtain ⟨links, keys, peers⟩ := eraseById_found found
      refine ⟨?_, ?_, ?_, ?_⟩
      · intro other rest stays
        rw [links] at stays
        by_cases same : other = id
        · rw [same, AList.lookup_erase] at stays
          cases stays
        · rw [AList.lookup_erase_ne same] at stays
          exact consistent.ids other rest stays
      · intro key other named
        rw [keys] at named
        split at named
        · cases named
        · rename_i kept
          obtain ⟨rest, stays, agrees⟩ := consistent.keys key other named
          have apart : other ≠ id := by
            intro same
            rw [same, found] at stays
            cases stays
            exact kept ⟨agrees.symm, by rw [agrees, named, same]⟩
          exact ⟨rest, by rw [links, AList.lookup_erase_ne apart, stays], agrees⟩
      · intro peerId transport other named
        rw [peers] at named
        split at named
        · rename_i cleared
          obtain ⟨⟨rfl, _⟩, _⟩ := cleared
          by_cases same : transport = link.transport
          · rw [same, PeerPresence.slot_put] at named
            cases named
          · rw [PeerPresence.slot_put_ne _ same] at named
            obtain ⟨rest, stays, agrees⟩ := consistent.peers _ transport other named
            have apart : other ≠ id := by
              intro equal
              rw [equal, found] at stays
              cases stays
              exact same agrees.2.symm
            exact ⟨rest, by rw [links, AList.lookup_erase_ne apart, stays], agrees⟩
        · rename_i kept
          obtain ⟨rest, stays, agrees⟩ := consistent.peers peerId transport other named
          have apart : other ≠ id := by
            intro same
            rw [same, found] at stays
            cases stays
            obtain ⟨rfl, rfl⟩ := agrees
            refine kept ⟨⟨rfl, by rw [named, same]⟩, fun anonymous => ?_⟩
            rw [anonymous, consistent.nameless] at named
            cases named
          exact ⟨rest, by rw [links, AList.lookup_erase_ne apart, stays], agrees⟩
      · intro transport
        rw [peers]
        split
        · rename_i cleared
          exact absurd cleared.1.1.symm cleared.2
        · exact consistent.nameless transport

/-- An entry written for a link that carries the key. -/
theorem Consistent.indexKey (consistent : table.Consistent) {id : LinkId} {link : PeerLink}
    (found : table.byId.lookup id = some link) :
    ({ table with byDialKey := table.byDialKey.insert link.peerKey id } :
      LinkIndexes).Consistent := by
  refine ⟨consistent.ids, ?_, consistent.peers, consistent.nameless⟩
  intro key other named
  by_cases same : key = link.peerKey
  · rw [same, AList.lookup_insert] at named
    cases named
    exact ⟨link, found, same.symm⟩
  · rw [AList.lookup_insert_ne same] at named
    exact consistent.keys key other named

/-- A link leaves its key for one that is free, or its own already. -/
theorem Consistent.rebind (consistent : table.Consistent) {id : LinkId} {link : PeerLink}
    (found : table.byId.lookup id = some link) (key : DialKey) :
    ((table.unindex link.peerKey id).rebind id link key).Consistent := by
  have rebound : ∀ other, ((table.unindex link.peerKey id).rebind id link key).byId.lookup other =
      if other = id then some { link with peerKey := key } else table.byId.lookup other := by
    intro other
    rw [LinkIndexes.rebind, unindex_byId]
    by_cases same : other = id
    · rw [if_pos same, same, AList.lookup_insert]
    · rw [if_neg same, AList.lookup_insert_ne same]
  have presence : ((table.unindex link.peerKey id).rebind id link key).presence =
      table.presence := unindex_presence link.peerKey id
  refine ⟨?_, ?_, ?_, ?_⟩
  · intro other rest stays
    rw [rebound] at stays
    split at stays
    · rename_i same
      cases stays
      rw [same]
      exact consistent.ids id link found
    · exact consistent.ids other rest stays
  · intro other target named
    by_cases same : other = key
    · rw [same, LinkIndexes.rebind, AList.lookup_insert] at named
      cases named
      exact ⟨{ link with peerKey := key }, by rw [rebound, if_pos rfl], same.symm⟩
    · rw [LinkIndexes.rebind, AList.lookup_insert_ne same, lookup_unindex] at named
      split at named
      · cases named
      · rename_i kept
        obtain ⟨rest, stays, agrees⟩ := consistent.keys other target named
        have apart : target ≠ id := by
          intro equal
          rw [equal, found] at stays
          cases stays
          exact kept ⟨agrees.symm, by rw [agrees, named, equal]⟩
        exact ⟨rest, by rw [rebound, if_neg apart, stays], agrees⟩
  · intro peerId transport target named
    rw [presence] at named
    obtain ⟨rest, stays, agrees⟩ := consistent.peers peerId transport target named
    by_cases same : target = id
    · rw [same, found] at stays
      cases stays
      exact ⟨{ link with peerKey := key }, by rw [rebound, if_pos same], agrees⟩
    · exact ⟨rest, by rw [rebound, if_neg same, stays], agrees⟩
  · rw [presence]
    exact consistent.nameless

theorem Consistent.bindDialKey (consistent : table.Consistent) (id : LinkId) (key : DialKey) :
    (table.bindDialKey id key).1.Consistent := by
  unfold LinkIndexes.bindDialKey
  cases found : table.findById id with
  | none => exact consistent
  | some link =>
      dsimp only
      split
      · rename_i same
        subst same
        exact consistent.indexKey found
      · split
        · exact consistent
        · exact consistent.rebind found key

theorem Consistent.unbindDialKey (consistent : table.Consistent) (key : DialKey) :
    (table.unbindDialKey key).Consistent := by
  refine ⟨consistent.ids, ?_, consistent.peers, consistent.nameless⟩
  intro other id named
  by_cases same : other = key
  · rw [same, LinkIndexes.unbindDialKey, AList.lookup_erase] at named
    cases named
  · rw [LinkIndexes.unbindDialKey, AList.lookup_erase_ne same] at named
    exact consistent.keys other id named

theorem Consistent.setPresence (consistent : table.Consistent) {id : LinkId} {link : PeerLink}
    (found : table.byId.lookup id = some link) :
    (table.setPresence link.remotePeerId link.transport id).Consistent := by
  by_cases refused : link.remotePeerId = "" ∨ id = 0
  · rw [LinkIndexes.setPresence, if_pos refused]
    exact consistent
  · obtain ⟨named, valid⟩ := not_or.mp refused
    have reads : ∀ other, (table.setPresence link.remotePeerId link.transport id).presence other =
        _ := presence_setPresence named valid link.transport
    have links : (table.setPresence link.remotePeerId link.transport id).byId = table.byId := by
      rw [LinkIndexes.setPresence, if_neg refused]
    have keys : (table.setPresence link.remotePeerId link.transport id).byDialKey =
        table.byDialKey := by
      rw [LinkIndexes.setPresence, if_neg refused]
    refine ⟨?_, ?_, ?_, ?_⟩
    · rw [links]
      exact consistent.ids
    · rw [links, keys]
      exact consistent.keys
    · intro peerId transport other entry
      rw [links]
      rw [reads] at entry
      split at entry
      · rename_i own
        by_cases same : transport = link.transport
        · rw [same, PeerPresence.slot_put] at entry
          cases entry
          exact ⟨link, found, own.symm, same.symm⟩
        · rw [PeerPresence.slot_put_ne _ same] at entry
          exact own ▸ consistent.peers link.remotePeerId transport other entry
      · exact consistent.peers peerId transport other entry
    · intro transport
      rw [reads, if_neg (Ne.symm named)]
      exact consistent.nameless transport

theorem Consistent.clearPresence (consistent : table.Consistent) (peerId : String)
    (transport : TransportClass) (id : LinkId) :
    (table.clearPresence peerId transport id).Consistent := by
  have kept : ∀ other slot target,
      ((table.clearPresence peerId transport id).presence other).slot slot = some target →
      ((table.presence other).slot slot = some target) := by
    intro other slot target entry
    rw [presence_clearPresence] at entry
    split at entry
    · rename_i own
      by_cases same : slot = transport
      · rw [same, PeerPresence.slot_put] at entry
        cases entry
      · rw [PeerPresence.slot_put_ne _ same] at entry
        rw [own.1]
        exact entry
    · exact entry
  refine ⟨?_, ?_, ?_, ?_⟩
  · rw [clearPresence_byId]
    exact consistent.ids
  · rw [clearPresence_byId, clearPresence_byDialKey]
    exact consistent.keys
  · intro other slot target entry
    rw [clearPresence_byId]
    exact consistent.peers other slot target (kept other slot target entry)
  · intro slot
    cases entry : ((table.clearPresence peerId transport id).presence "").slot slot with
    | none => rfl
    | some target =>
        have named := kept "" slot target entry
        rw [consistent.nameless] at named
        cases named

end LinkIndexes

/- The manager's table as a set of lookups. -/

namespace LinkTable

variable {abstract : LinkTable}

theorem findById_insert (link : PeerLink) (id : LinkId) :
    (abstract.insert link).findById id =
      (abstract.findById id).or (if link.id = id then some link else none) := by
  unfold findById insert
  rw [List.find?_append, List.find?_singleton]
  by_cases same : link.id = id <;> simp [same]

theorem findById_modify {id : LinkId} {change : PeerLink → PeerLink}
    (keeps : ∀ link, (change link).id = link.id) (other : LinkId) :
    (abstract.modify id change).findById other =
      if other = id then (abstract.findById id).map change else abstract.findById other := by
  unfold findById modify
  induction abstract.links with
  | nil => simp
  | cons link rest ih =>
      dsimp only at ih
      by_cases own : link.id = id
      · by_cases same : other = id
        · simp [own, same, keeps]
        · have apart : ¬ id = other := fun equal => same equal.symm
          simpa [own, same, keeps, apart] using ih
      · by_cases found : link.id = other
        · have apart : ¬ other = id := fun equal => own (found.trans equal)
          simp [found, apart]
        · simpa [own, found] using ih

theorem findById_erased (abstract : LinkTable) (id other : LinkId) :
    ({ abstract with links := abstract.links.filter fun link => link.id != id } :
      LinkTable).findById other = if other = id then none else abstract.findById other := by
  unfold findById
  dsimp only
  rw [List.find?_filter]
  by_cases same : other = id
  · rw [if_pos same, List.find?_eq_none]
    intro link _
    simp [same]
  · rw [if_neg same]
    congr 1
    funext link
    by_cases own : link.id = other
    · simp [own, same]
    · simp [own]

end LinkTable

namespace LinkIndexes

/-- The manager's table shows the same links to every lookup. -/
structure Refines (table : LinkIndexes) (abstract : LinkTable) : Prop where
  ids : ∀ id, table.findById id = abstract.findById id
  keys : ∀ key, table.byDialKey.lookup key = abstract.byDialKey key
  peers : ∀ peerId, table.presence peerId = abstract.byPeer peerId

variable {table : LinkIndexes} {abstract : LinkTable}

/-- And so to those by a handle and by a dial key. -/
structure Shows (table : LinkIndexes) (abstract : LinkTable) : Prop extends
    Refines table abstract where
  live : ∀ handle, table.findLive handle = abstract.findLive handle
  dialed : ∀ key, table.findByDialKey key = abstract.findByDialKey key

theorem Refines.shows (refines : Refines table abstract) : Shows table abstract := by
  refine ⟨refines, ?_, ?_⟩
  · intro handle
    rw [LinkIndexes.findLive, LinkTable.findLive, refines.ids]
  · intro key
    unfold LinkIndexes.findByDialKey LinkTable.findByDialKey
    rw [refines.keys]
    congr 1
    exact funext refines.ids

theorem lookup_insert_key (refines : Refines table abstract) (key : DialKey) (id : LinkId)
    (other : DialKey) : (table.byDialKey.insert key id).lookup other =
      Function.update abstract.byDialKey key (some id) other := by
  by_cases same : other = key
  · rw [same, AList.lookup_insert, Function.update_self]
  · rw [AList.lookup_insert_ne same, Function.update_of_ne same, refines.keys]

theorem Refines.install (refines : Refines table abstract) {link : PeerLink}
    (fresh : table.findById link.id = none) :
    Refines (table.install link) (abstract.insert link) := by
  refine ⟨?_, ?_, refines.peers⟩
  · intro id
    rw [LinkTable.findById_insert, ← refines.ids]
    show (table.byId.insert link.id link).lookup id = _
    by_cases same : id = link.id
    · rw [same, AList.lookup_insert, fresh, if_pos rfl, Option.none_or]
    · rw [AList.lookup_insert_ne same, if_neg (Ne.symm same), Option.or_none]
      rfl
  · exact lookup_insert_key refines link.peerKey link.id

theorem Refines.unindex (refines : Refines table abstract) (key : DialKey) (id : LinkId) :
    Refines (table.unindex key id) (abstract.unindex key id) := by
  refine ⟨?_, ?_, ?_⟩
  · intro other
    rw [LinkIndexes.findById, unindex_byId]
    exact (refines.ids other).trans (by unfold LinkTable.unindex; split <;> rfl)
  · intro other
    rw [lookup_unindex, refines.keys, refines.keys, LinkTable.unindex]
    by_cases named : abstract.byDialKey key = some id
    · by_cases same : other = key
      · rw [if_pos ⟨same, named⟩, if_pos named, same]
        show none = Function.update abstract.byDialKey key none key
        rw [Function.update_self]
      · rw [if_neg fun both => same both.1, if_pos named]
        exact (Function.update_of_ne same _ _).symm
    · rw [if_neg fun both => named both.2, if_neg named]
  · intro peerId
    rw [unindex_presence]
    exact (refines.peers peerId).trans (by unfold LinkTable.unindex; split <;> rfl)

theorem Refines.setPresence (refines : Refines table abstract) (peerId : String)
    (transport : TransportClass) {id : LinkId} (valid : id ≠ 0) :
    Refines (table.setPresence peerId transport id) (abstract.setPresence peerId transport id) := by
  by_cases unnamed : peerId = ""
  · rw [LinkIndexes.setPresence, LinkTable.setPresence, if_pos (Or.inl unnamed), if_pos unnamed]
    exact refines
  · have refused : ¬ (peerId = "" ∨ id = 0) := not_or.mpr ⟨unnamed, valid⟩
    refine ⟨?_, ?_, ?_⟩
    · rw [LinkIndexes.setPresence, LinkTable.setPresence, if_neg refused, if_neg unnamed]
      exact refines.ids
    · rw [LinkIndexes.setPresence, LinkTable.setPresence, if_neg refused, if_neg unnamed]
      exact refines.keys
    · intro other
      rw [presence_setPresence unnamed valid, LinkTable.setPresence, if_neg unnamed]
      by_cases same : other = peerId
      · rw [if_pos same, refines.peers, same]
        show _ = Function.update abstract.byPeer peerId _ peerId
        rw [Function.update_self]
        cases transport <;> rfl
      · rw [if_neg same, refines.peers]
        exact (Function.update_of_ne same _ _).symm

theorem Refines.clearPresence (refines : Refines table abstract) (peerId : String)
    (transport : TransportClass) (id : LinkId) :
    Refines (table.clearPresence peerId transport id)
      (abstract.clearPresence peerId transport id) := by
  refine ⟨?_, ?_, ?_⟩
  · intro other
    rw [LinkIndexes.findById, clearPresence_byId]
    exact refines.ids other
  · rw [clearPresence_byDialKey]
    exact refines.keys
  · intro other
    rw [presence_clearPresence, refines.peers, refines.peers]
    by_cases same : other = peerId
    · subst same
      show _ = Function.update abstract.byPeer other _ other
      rw [Function.update_self]
      cases transport with
      | adp =>
          by_cases named : (abstract.byPeer other).adp = some id
          · rw [if_pos ⟨rfl, named⟩, if_pos named]
            rfl
          · rw [if_neg fun both => named both.2, if_neg named]
      | carrier =>
          by_cases named : (abstract.byPeer other).carrier = some id
          · rw [if_pos ⟨rfl, named⟩, if_pos named]
            rfl
          · rw [if_neg fun both => named both.2, if_neg named]
    · rw [if_neg fun both => same both.1]
      exact (Function.update_of_ne same _ _).symm

theorem Refines.eraseById (refines : Refines table abstract) (id : LinkId) :
    Refines (table.eraseById id) (abstract.eraseById id) := by
  unfold LinkIndexes.eraseById LinkTable.eraseById
  rw [refines.ids]
  cases abstract.findById id with
  | none => exact refines
  | some link =>
      dsimp only
      have unindexed := refines.unindex link.peerKey id
      have cleared : Refines
          (if link.remotePeerId = "" then table.unindex link.peerKey id
            else (table.unindex link.peerKey id).clearPresence link.remotePeerId link.transport id)
          (if link.remotePeerId = "" then abstract.unindex link.peerKey id
            else (abstract.unindex link.peerKey id).clearPresence link.remotePeerId
              link.transport id) := by
        split
        · exact unindexed
        · exact unindexed.clearPresence link.remotePeerId link.transport id
      refine ⟨?_, cleared.keys, cleared.peers⟩
      intro other
      rw [LinkTable.findById_erased]
      show (AList.erase id _).lookup other = _
      by_cases same : other = id
      · rw [same, AList.lookup_erase, if_pos rfl]
      · rw [AList.lookup_erase_ne same, if_neg same]
        exact cleared.ids other

theorem Refines.eraseByDialKey (refines : Refines table abstract) (key : DialKey) :
    Refines (table.eraseByDialKey key)
      (((abstract.byDialKey key).map abstract.eraseById).getD abstract) := by
  unfold LinkIndexes.eraseByDialKey
  rw [refines.keys]
  cases abstract.byDialKey key with
  | none => exact refines
  | some id => exact refines.eraseById id

theorem Refines.unbindDialKey (refines : Refines table abstract) (key : DialKey) :
    Refines (table.unbindDialKey key) (abstract.unbindDialKey key) := by
  refine ⟨refines.ids, ?_, refines.peers⟩
  intro other
  show (table.byDialKey.erase key).lookup other = Function.update abstract.byDialKey key none other
  by_cases same : other = key
  · rw [same, AList.lookup_erase, Function.update_self]
  · rw [AList.lookup_erase_ne same, Function.update_of_ne same, refines.keys]

theorem Refines.rebind (refines : Refines table abstract) {link : PeerLink}
    (found : table.findById link.id = some link) (key : DialKey) :
    Refines ((table.unindex link.peerKey link.id).rebind link.id link key)
      (abstract.rebind link key) := by
  have unindexed := refines.unindex link.peerKey link.id
  refine ⟨?_, lookup_insert_key unindexed key link.id, unindexed.peers⟩
  intro other
  have moved : ((abstract.unindex link.peerKey link.id).modify link.id
      fun link => { link with peerKey := key }).findById other = _ :=
    LinkTable.findById_modify (fun (_ : PeerLink) => by rfl) other
  have same : (table.unindex link.peerKey link.id).findById link.id = some link := by
    rwa [LinkIndexes.findById, unindex_byId]
  rw [← unindexed.ids, ← unindexed.ids, same] at moved
  refine Eq.trans ?_ moved.symm
  show (AList.insert link.id { link with peerKey := key }
    (table.unindex link.peerKey link.id).byId).lookup other = _
  by_cases own : other = link.id
  · rw [own, AList.lookup_insert, if_pos rfl]
    rfl
  · rw [AList.lookup_insert_ne own, if_neg own]
    rfl

theorem Refines.bindDialKey (refines : Refines table abstract) (id : LinkId) (key : DialKey)
    (own : ∀ link, table.findById id = some link → link.id = id) :
    Refines (table.bindDialKey id key).1 (abstract.bindDialKey id key).1 ∧
      (table.bindDialKey id key).2 = (abstract.bindDialKey id key).2 := by
  unfold LinkIndexes.bindDialKey LinkTable.bindDialKey
  rw [refines.keys]
  cases found : table.findById id with
  | none =>
      rw [← refines.ids, found]
      exact ⟨refines, rfl⟩
  | some link =>
      rw [← refines.ids, found]
      dsimp only
      obtain rfl := own link found
      split
      · exact ⟨⟨refines.ids, lookup_insert_key refines key link.id, refines.peers⟩, rfl⟩
      · split
        · exact ⟨refines, rfl⟩
        · exact ⟨refines.rebind found key, rfl⟩

end LinkIndexes

/-- A table, the ids it has handed out that no link has yet, the links as they were
inserted, and the handles of those erased. -/
structure TableRun where
  table : LinkIndexes := {}
  issued : List LinkId := []
  inserted : List PeerLink := []
  erased : List LinkHandle := []

namespace TableRun

inductive Event where
  | allocId
  | takeGeneration
  | insert (link : PeerLink)
  | eraseById (id : LinkId)
  | eraseByDialKey (key : DialKey)
  | bindDialKey (id : LinkId) (key : DialKey)
  | unbindDialKey (key : DialKey)
  | setPresence (peerId : String) (transport : TransportClass) (id : LinkId)
  | clearPresence (peerId : String) (transport : TransportClass) (id : LinkId)

/-- The erasure of a link, if the id names one. -/
def erase (run : TableRun) (id : LinkId) : TableRun :=
  { run with
    table := run.table.eraseById id
    erased := run.erased ++ ((run.table.findById id).map PeerLink.handle).toList }

def step (run : TableRun) : Event → TableRun
  | .allocId =>
      { run with
        table := run.table.allocId.1
        issued := run.issued ++ [run.table.allocId.2] }
  | .takeGeneration => { run with table := run.table.takeGeneration.1 }
  | .insert link =>
      { run with
        table := run.table.insert link
        issued := run.issued.filter (· != link.id)
        inserted := run.inserted ++ [(run.table.identify link).2] }
  | .eraseById id => run.erase id
  | .eraseByDialKey key =>
      match run.table.byDialKey.lookup key with
      | none => run
      | some id => run.erase id
  | .bindDialKey id key => { run with table := (run.table.bindDialKey id key).1 }
  | .unbindDialKey key => { run with table := run.table.unbindDialKey key }
  | .setPresence peerId transport id =>
      { run with table := run.table.setPresence peerId transport id }
  | .clearPresence peerId transport id =>
      { run with table := run.table.clearPresence peerId transport id }

/-- A link comes in with an id handed out for it, or with none; a presence is set
for a link of the table by its own peer and transport. -/
def Allowed (run : TableRun) : Event → Prop
  | .insert link => link.id = 0 ∨ link.id ∈ run.issued
  | .setPresence peerId transport id =>
      (run.table.findById id).map (fun link => (link.remotePeerId, link.transport)) =
        some (peerId, transport)
  | _ => True

instance decidableAllowed (run : TableRun) (event : Event) : Decidable (run.Allowed event) := by
  unfold Allowed
  split <;> infer_instance

/-- `EraseByDialKey` is `EraseById` of what the key names. -/
theorem step_eraseByDialKey (run : TableRun) (key : DialKey) :
    (run.step (.eraseByDialKey key)).table = run.table.eraseByDialKey key := by
  simp only [step, LinkIndexes.eraseByDialKey]
  cases run.table.byDialKey.lookup key <;> rfl

/-- What is known of the links and ids of a run. -/
structure Accounted (run : TableRun) : Prop where
  issued : ∀ id ∈ run.issued, 0 < id ∧ id ≤ run.table.nextId
  inserted : ∀ original ∈ run.inserted,
    0 < original.id ∧ original.id ≤ run.table.nextId ∧ original.id ∉ run.issued
  distinct : (run.inserted.map PeerLink.id).Nodup
  known : ∀ id link, run.table.byId.lookup id = some link →
    ∃ original ∈ run.inserted, link = { original with peerKey := link.peerKey }
  erased : ∀ handle ∈ run.erased, run.table.byId.lookup handle.id = none ∧
    ∃ original ∈ run.inserted, original.handle = handle

def Sound (run : TableRun) : Prop := run.table.Consistent ∧ run.Accounted

/-- An operation that adds no link and hands out no id. -/
theorem Accounted.update {run : TableRun} (accounted : run.Accounted) {table : LinkIndexes}
    (counter : table.nextId = run.table.nextId)
    (links : ∀ id link, table.byId.lookup id = some link → ∃ old,
      run.table.byId.lookup id = some old ∧ link = { old with peerKey := link.peerKey }) :
    Accounted { run with table := table } := by
  refine ⟨?_, ?_, accounted.distinct, ?_, ?_⟩
  · intro id member
    show 0 < id ∧ id ≤ table.nextId
    rw [counter]
    exact accounted.issued id member
  · intro original member
    show 0 < original.id ∧ original.id ≤ table.nextId ∧ _
    rw [counter]
    exact accounted.inserted original member
  · intro id link found
    obtain ⟨old, before, same⟩ := links id link found
    obtain ⟨original, member, agrees⟩ := accounted.known id old before
    refine ⟨original, member, ?_⟩
    rw [same, agrees]
  · intro handle member
    obtain ⟨missing, given⟩ := accounted.erased handle member
    refine ⟨?_, given⟩
    cases found : table.byId.lookup handle.id with
    | none => rfl
    | some link =>
        obtain ⟨old, before, _⟩ := links handle.id link found
        rw [missing] at before
        cases before

/-- The id of a link that comes in belongs to no link of the run. -/
theorem identified_fresh {run : TableRun} (sound : run.Sound) {link : PeerLink}
    (allowed : run.Allowed (.insert link)) :
    let given := (run.table.identify link).2
    0 < given.id ∧ given.id ≤ (run.table.identify link).1.nextId ∧
      (∀ original ∈ run.inserted, original.id ≠ given.id) ∧
      given.id ∉ run.issued.filter (· != link.id) := by
  intro given
  have accounted := sound.2
  by_cases unassigned : link.id = 0
  · have id : given.id = run.table.nextId + 1 := by
      simp only [given, LinkIndexes.identify, if_pos unassigned, LinkIndexes.allocId]
    have counter : (run.table.identify link).1.nextId = run.table.nextId + 1 := by
      simp only [LinkIndexes.identify, if_pos unassigned, LinkIndexes.allocId,
        LinkIndexes.takeGeneration]
    rw [id, counter]
    refine ⟨Nat.succ_pos _, le_rfl, ?_, ?_⟩
    · intro original member same
      have below := (accounted.inserted original member).2.1
      exact Nat.not_succ_le_self _ (same ▸ below)
    · intro member
      exact Nat.not_succ_le_self _ (accounted.issued _ (List.mem_filter.mp member).1).2
  · have same : run.table.identify link = (run.table, link) := by
      rw [LinkIndexes.identify, if_neg unassigned]
    have member : link.id ∈ run.issued := allowed.resolve_left unassigned
    have id : given = link := by
      simp only [given, same]
    rw [id, same]
    refine ⟨(accounted.issued _ member).1, (accounted.issued _ member).2, ?_, ?_⟩
    · intro original inside equal
      exact (accounted.inserted original inside).2.2 (equal ▸ member)
    · intro kept
      simp at kept

theorem identify_table (table : LinkIndexes) (link : PeerLink) :
    (table.identify link).1.byId = table.byId ∧
      (table.identify link).1.byDialKey = table.byDialKey ∧
      (table.identify link).1.byPeer = table.byPeer ∧
      table.nextId ≤ (table.identify link).1.nextId := by
  unfold LinkIndexes.identify
  split
  · exact ⟨rfl, rfl, rfl, Nat.le_succ _⟩
  · exact ⟨rfl, rfl, rfl, le_rfl⟩

theorem insert_sound {run : TableRun} (sound : run.Sound) {link : PeerLink}
    (allowed : run.Allowed (.insert link)) : (run.step (.insert link)).Sound := by
  obtain ⟨consistent, accounted⟩ := sound
  obtain ⟨positive, below, apart, free⟩ := identified_fresh ⟨consistent, accounted⟩ allowed
  obtain ⟨links, keys, peers, grows⟩ := identify_table run.table link
  have same : (run.table.identify link).1.Consistent := by
    refine ⟨?_, ?_, ?_, ?_⟩
    · rw [links]
      exact consistent.ids
    · rw [links, keys]
      exact consistent.keys
    · rw [links]
      unfold LinkIndexes.presence
      rw [peers]
      exact consistent.peers
    · unfold LinkIndexes.presence
      rw [peers]
      exact consistent.nameless
  have fresh : (run.table.identify link).1.byId.lookup (run.table.identify link).2.id = none := by
    rw [links]
    cases found : run.table.byId.lookup (run.table.identify link).2.id with
    | none => rfl
    | some other =>
        obtain ⟨original, member, agrees⟩ := accounted.known _ other found
        have id : other.id = original.id := by rw [agrees]
        exact absurd (id.symm.trans (consistent.ids _ other found)) (apart original member)
  refine ⟨same.install fresh, ?_, ?_, ?_, ?_, ?_⟩
  · intro id member
    have old := accounted.issued id (List.mem_filter.mp member).1
    exact ⟨old.1, old.2.trans grows⟩
  · intro original member
    rcases List.mem_append.mp member with old | new
    · obtain ⟨low, high, kept⟩ := accounted.inserted original old
      exact ⟨low, high.trans grows, fun inside => kept (List.mem_filter.mp inside).1⟩
    · rw [List.mem_singleton.mp new]
      exact ⟨positive, below, free⟩
  · show ((run.inserted ++ [_]).map PeerLink.id).Nodup
    rw [List.map_append, List.nodup_append]
    refine ⟨accounted.distinct, List.nodup_singleton _, ?_⟩
    intro id place other last equal
    obtain ⟨original, member, rfl⟩ := List.mem_map.mp place
    exact apart original member (equal.trans (List.mem_singleton.mp last))
  · intro id other found
    have looked : ((run.table.identify link).1.byId.insert (run.table.identify link).2.id
      (run.table.identify link).2).lookup id = some other := found
    by_cases own : id = (run.table.identify link).2.id
    · rw [own, AList.lookup_insert] at looked
      cases looked
      exact ⟨_, List.mem_append_right _ (List.mem_singleton_self _), rfl⟩
    · rw [AList.lookup_insert_ne own, links] at looked
      obtain ⟨original, member, agrees⟩ := accounted.known id other looked
      exact ⟨original, List.mem_append_left _ member, agrees⟩
  · intro handle member
    obtain ⟨missing, original, inside, given⟩ := accounted.erased handle member
    have other : handle.id ≠ (run.table.identify link).2.id := by
      intro equal
      exact apart original inside ((congrArg LinkHandle.id given).trans equal)
    refine ⟨?_, original, List.mem_append_left _ inside, given⟩
    show ((run.table.identify link).1.byId.insert _ _).lookup handle.id = none
    rw [AList.lookup_insert_ne other, links, missing]

/-- An erased link leaves its handle behind, and its id is never looked up again. -/
theorem erase_sound {run : TableRun} (sound : run.Sound) (id : LinkId) :
    (run.erase id).Sound := by
  obtain ⟨consistent, accounted⟩ := sound
  refine ⟨consistent.eraseById id, ?_⟩
  unfold erase
  cases found : run.table.byId.lookup id with
  | none =>
      have looked : run.table.findById id = none := found
      rw [LinkIndexes.eraseById_missing found, looked, Option.map_none, Option.toList_none,
        List.append_nil]
      exact accounted
  | some link =>
      have looked : run.table.findById id = some link := found
      obtain ⟨links, _, _⟩ := LinkIndexes.eraseById_found found
      have kept : Accounted { run with table := run.table.eraseById id } := by
        refine accounted.update (LinkIndexes.eraseById_nextId id) ?_
        intro other rest stays
        rw [links] at stays
        by_cases same : other = id
        · rw [same, AList.lookup_erase] at stays
          cases stays
        · rw [AList.lookup_erase_ne same] at stays
          exact ⟨rest, stays, rfl⟩
      refine ⟨kept.issued, kept.inserted, kept.distinct, kept.known, ?_⟩
      intro handle member
      rw [looked] at member
      rcases List.mem_append.mp member with old | new
      · exact kept.erased handle old
      · obtain ⟨original, inside, agrees⟩ := accounted.known id link found
        have own : link.handle = original.handle := by rw [agrees]; rfl
        have given : handle = link.handle := List.mem_singleton.mp new
        refine ⟨?_, original, inside, (given.trans own).symm⟩
        have place : handle.id = id := by rw [given]; exact consistent.ids id link found
        show (run.table.eraseById id).byId.lookup handle.id = none
        rw [place, links, AList.lookup_erase]

/-- An operation that leaves the links as they are. -/
theorem Sound.update {run : TableRun} (sound : run.Sound) {table : LinkIndexes}
    (consistent : table.Consistent) (counter : table.nextId = run.table.nextId)
    (links : table.byId = run.table.byId) : Sound { run with table := table } := by
  refine ⟨consistent, sound.2.update counter ?_⟩
  intro id link found
  rw [links] at found
  exact ⟨link, found, rfl⟩

theorem allocId_sound {run : TableRun} (sound : run.Sound) : (run.step .allocId).Sound := by
  obtain ⟨consistent, accounted⟩ := sound
  refine ⟨⟨consistent.ids, consistent.keys, consistent.peers, consistent.nameless⟩, ?_, ?_,
    accounted.distinct, accounted.known, accounted.erased⟩
  · intro id member
    rcases List.mem_append.mp member with old | new
    · have known := accounted.issued id old
      exact ⟨known.1, known.2.trans (Nat.le_succ _)⟩
    · rw [List.mem_singleton.mp new]
      exact ⟨Nat.succ_pos _, le_rfl⟩
  · intro original member
    obtain ⟨low, high, kept⟩ := accounted.inserted original member
    refine ⟨low, high.trans (Nat.le_succ _), fun place => ?_⟩
    rcases List.mem_append.mp place with old | new
    · exact kept old
    · have next : original.id = run.table.nextId + 1 := List.mem_singleton.mp new
      exact Nat.not_succ_le_self _ (next ▸ high)

theorem bindDialKey_sound {run : TableRun} (sound : run.Sound) (id : LinkId) (key : DialKey) :
    (run.step (.bindDialKey id key)).Sound := by
  have consistent := sound.1.bindDialKey id key
  revert consistent
  simp only [step, LinkIndexes.bindDialKey]
  cases found : run.table.findById id with
  | none => exact fun _ => sound
  | some link =>
      dsimp only
      intro consistent
      split at consistent
      · rename_i same
        rw [if_pos same]
        exact sound.update consistent rfl rfl
      · rename_i differs
        rw [if_neg differs]
        split at consistent
        · rename_i taken
          rw [if_pos taken]
          exact sound
        · rename_i free
          rw [if_neg free]
          refine ⟨consistent, sound.2.update ?_ ?_⟩
          · unfold LinkIndexes.rebind LinkIndexes.unindex
            split <;> rfl
          · intro other rest stays
            rw [LinkIndexes.rebind, LinkIndexes.unindex_byId] at stays
            by_cases own : other = id
            · rw [own, AList.lookup_insert] at stays
              cases stays
              exact ⟨link, own ▸ found, rfl⟩
            · rw [AList.lookup_insert_ne own] at stays
              exact ⟨rest, stays, rfl⟩

theorem step_sound (run : TableRun) (event : Event) (allowed : run.Allowed event)
    (sound : run.Sound) : (run.step event).Sound := by
  cases event with
  | allocId => exact allocId_sound sound
  | takeGeneration =>
      have consistent := sound.1
      exact sound.update ⟨consistent.ids, consistent.keys, consistent.peers, consistent.nameless⟩
        rfl rfl
  | insert link => exact insert_sound sound allowed
  | eraseById id => exact erase_sound sound id
  | eraseByDialKey key =>
      simp only [step]
      split
      · exact sound
      · exact erase_sound sound _
  | bindDialKey id key => exact bindDialKey_sound sound id key
  | unbindDialKey key => exact sound.update (sound.1.unbindDialKey key) rfl rfl
  | setPresence peerId transport id =>
      obtain ⟨link, found, named⟩ := Option.map_eq_some_iff.mp allowed
      obtain ⟨rfl, rfl⟩ := Prod.mk.inj named
      refine sound.update (sound.1.setPresence found) ?_ ?_
      · unfold LinkIndexes.setPresence
        split <;> rfl
      · unfold LinkIndexes.setPresence
        split <;> rfl
  | clearPresence peerId transport id =>
      refine sound.update (sound.1.clearPresence peerId transport id) ?_ ?_
      · unfold LinkIndexes.clearPresence
        split <;> rfl
      · exact LinkIndexes.clearPresence_byId peerId transport id

theorem empty_sound : Sound {} := by
  have absent : ∀ id, ({} : LinkIndexes).byId.lookup id = none := fun _ => rfl
  have consistent : ({} : LinkIndexes).Consistent := by
    refine ⟨?_, ?_, ?_, ?_⟩
    · intro id link found
      cases found
    · intro key id named
      cases named
    · intro peerId transport id named
      cases transport <;> cases named
    · intro transport
      cases transport <;> rfl
  refine ⟨consistent, ?_, ?_, List.nodup_nil, ?_, ?_⟩
  · exact fun _ member => absurd member List.not_mem_nil
  · exact fun _ member => absurd member List.not_mem_nil
  · intro id link found
    cases found
  · exact fun _ member => absurd member List.not_mem_nil

/-- What the table promises: its indexes agree with its links, and a handle names
the one link it was given to for as long as that link is in the table. -/
structure Faithful (run : TableRun) : Prop where
  consistent : run.table.Consistent
  live : ∀ handle link, run.table.findLive handle = some link →
    ∃ original ∈ run.inserted, original.handle = handle ∧
      link = { original with peerKey := link.peerKey }
  one : (run.inserted.map PeerLink.handle).Nodup
  gone : ∀ handle ∈ run.erased, run.table.findLive handle = none

theorem Sound.faithful {run : TableRun} (sound : run.Sound) : run.Faithful := by
  obtain ⟨consistent, accounted⟩ := sound
  refine ⟨consistent, ?_, ?_, ?_⟩
  · intro handle link found
    obtain ⟨looked, generation⟩ := Option.filter_eq_some_iff.mp found
    obtain ⟨original, member, agrees⟩ := accounted.known handle.id link looked
    have id : link.id = handle.id := consistent.ids handle.id link looked
    have same : link.handle = original.handle := by rw [agrees]; rfl
    refine ⟨original, member, ?_, agrees⟩
    rw [← same, PeerLink.handle, id, beq_iff_eq.mp generation]
  · have ids : (run.inserted.map PeerLink.handle).map LinkHandle.id =
        run.inserted.map PeerLink.id := by
      rw [List.map_map]
      rfl
    exact List.Nodup.of_map LinkHandle.id (ids ▸ accounted.distinct)
  · intro handle member
    have missing : run.table.findById handle.id = none := (accounted.erased handle member).1
    rw [LinkIndexes.findLive, missing, Option.filter_none]

/-- The manager's table, to which the same is done. -/
def mirror (run : TableRun) (abstract : LinkTable) : Event → LinkTable
  | .allocId | .takeGeneration => abstract
  | .insert link => abstract.insert (run.table.identify link).2
  | .eraseById id => abstract.eraseById id
  | .eraseByDialKey key => ((abstract.byDialKey key).map abstract.eraseById).getD abstract
  | .bindDialKey id key => (abstract.bindDialKey id key).1
  | .unbindDialKey key => abstract.unbindDialKey key
  | .setPresence peerId transport id => abstract.setPresence peerId transport id
  | .clearPresence peerId transport id => abstract.clearPresence peerId transport id

def mirrored (run : TableRun) (abstract : LinkTable) : List Event → LinkTable
  | [] => abstract
  | event :: rest => mirrored (run.step event) (run.mirror abstract event) rest

theorem step_refines {run : TableRun} {abstract : LinkTable} (sound : run.Sound)
    (refines : run.table.Refines abstract) (event : Event) (allowed : run.Allowed event) :
    (run.step event).table.Refines (run.mirror abstract event) := by
  cases event with
  | allocId => exact ⟨refines.ids, refines.keys, refines.peers⟩
  | takeGeneration => exact ⟨refines.ids, refines.keys, refines.peers⟩
  | insert link =>
      have kept : (run.table.identify link).1.Refines abstract := by
        unfold LinkIndexes.identify
        split
        · exact ⟨refines.ids, refines.keys, refines.peers⟩
        · exact refines
      have links : (run.table.identify link).1.byId = run.table.byId := by
        unfold LinkIndexes.identify
        split <;> rfl
      apply kept.install
      show (run.table.identify link).1.byId.lookup _ = none
      rw [links]
      cases found : run.table.byId.lookup (run.table.identify link).2.id with
      | none => rfl
      | some other =>
          obtain ⟨original, member, agrees⟩ := sound.2.known _ other found
          have own := sound.1.ids _ other found
          rw [agrees] at own
          exact absurd own ((identified_fresh sound allowed).2.2.1 original member)
  | eraseById id => exact refines.eraseById id
  | eraseByDialKey key =>
      rw [step_eraseByDialKey]
      exact refines.eraseByDialKey key
  | bindDialKey id key => exact (refines.bindDialKey id key fun link => sound.1.ids id link).1
  | unbindDialKey key => exact refines.unbindDialKey key
  | setPresence peerId transport id =>
      apply refines.setPresence
      obtain ⟨link, found, _⟩ := Option.map_eq_some_iff.mp allowed
      obtain ⟨original, member, agrees⟩ := sound.2.known id link found
      have own := sound.1.ids id link found
      have positive := (sound.2.inserted original member).1
      rw [agrees] at own
      have same : original.id = id := own
      exact Nat.pos_iff_ne_zero.mp (same ▸ positive)
  | clearPresence peerId transport id => exact refines.clearPresence peerId transport id

theorem run_refines (events : List Event) : ∀ {run : TableRun} {abstract : LinkTable}, run.Sound →
    run.table.Refines abstract → Run.Meets step Allowed run events →
    (Run.exec step run events).table.Refines (run.mirrored abstract events) := by
  induction events with
  | nil => exact fun _ refines _ => refines
  | cons event rest ih =>
      intro run abstract sound refines met
      exact ih (step_sound run event met.1 sound) (step_refines sound refines event met.1) met.2

theorem empty_refines : LinkIndexes.Refines {} {} := by
  refine ⟨?_, ?_, ?_⟩
  · exact fun _ => rfl
  · exact fun _ => rfl
  · exact fun _ => rfl

/-- In every state of every run the table keeps its promises, and after every run each lookup
finds what the manager's table has. -/
theorem table_faithful (events : List Event) (allowed : Run.Meets step Allowed {} events) :
    Run.Always step Faithful {} events ∧
      (Run.exec step {} events).table.Shows (mirrored {} {} events) := by
  constructor
  · exact Run.always_of_invariant step Allowed Sound Faithful step_sound
      (fun _ sound => sound.faithful) events {} allowed empty_sound
  · exact (run_refines events empty_sound empty_refines allowed).shows

end TableRun

/-- A link of the table before it has an identity. -/
def sampleEntry (key : DialKey) (peerId : String) : PeerLink where
  id := 0
  generation := 0
  peerKey := key
  remotePeerId := peerId
  outbound := true
  isCarrierBacked := false

/-- Two links under one key; the first is erased, the second takes another key. -/
def sampleTableRun : List TableRun.Event :=
  [.insert (sampleEntry "a" "p"), .allocId, .insert { sampleEntry "a" "p" with id := 2 },
    .setPresence "p" .adp 1, .setPresence "p" .adp 2, .bindDialKey 1 "a", .eraseById 1,
    .bindDialKey 2 "b", .unbindDialKey "a"]

theorem TableRun.table_faithful_sample :
    let run := Run.exec TableRun.step {} sampleTableRun
    run.erased = [⟨1, 1⟩] ∧ (run.table.presence "p").adp = some 2 ∧
      run.table.byDialKey.lookup "b" = some 2 ∧
      Run.Always TableRun.step TableRun.Faithful {} sampleTableRun ∧
      run.table.Shows (TableRun.mirrored {} {} sampleTableRun) :=
  ⟨by decide +kernel, by decide +kernel, by decide +kernel,
    TableRun.table_faithful sampleTableRun (by decide +kernel)⟩

end Amp
