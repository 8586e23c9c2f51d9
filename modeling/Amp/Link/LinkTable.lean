import Amp.Link.LinkIdentity
import Mathlib.Logic.Function.Basic

set_option autoImplicit false

/- The links of a manager by id, with the dial-key and peer indexes over them
(LinkTable.cpp). -/
namespace Amp

/-- The order a hash map is walked in: any, as long as nothing is lost. -/
structure HashOrder (α : Type) where
  arrange : List α → List α
  perm : ∀ items, (arrange items).Perm items

def HashOrder.inserted {α : Type} : HashOrder α := ⟨fun items => items, fun _ => List.Perm.refl _⟩

/-- Trace: what happened to the dial keys of links. -/
inductive KeyEvent where
  | inserted (id : LinkId) (key : DialKey) (carrier : Bool)
  | rebound (id : LinkId) (key : DialKey)
  deriving DecidableEq, Repr

structure LinkTable where
  nextId : Nat := 0
  nextGeneration : Nat := 0
  /-- `by_id_`. -/
  links : List PeerLink := []
  /-- `by_dial_key_`. -/
  byDialKey : DialKey → Option LinkId := fun _ => none
  /-- `by_peer_`. -/
  byPeer : String → PeerPresence := fun _ => {}
  order : HashOrder PeerLink := .inserted
  keyEvents : List KeyEvent := []

namespace LinkTable

/-- `ForEach`: the links in the order the map is walked in. -/
def forEach (table : LinkTable) : List PeerLink := table.order.arrange table.links

def findById (table : LinkTable) (id : LinkId) : Option PeerLink :=
  table.links.find? fun link => link.id == id

def findByDialKey (table : LinkTable) (key : DialKey) : Option PeerLink :=
  (table.byDialKey key).bind table.findById

def containsDialKey (table : LinkTable) (key : DialKey) : Bool := (table.byDialKey key).isSome

def findLive (table : LinkTable) (handle : LinkHandle) : Option PeerLink :=
  (table.findById handle.id).filter fun link => link.generation == handle.generation

/-- A link of the presence index, as long as it is Connected. -/
def pick (table : LinkTable) (id : Option LinkId) : Option PeerLink :=
  (id.bind table.findById).filter PeerLink.connected

/-- The first Connected link to a peer, of either transport. -/
def firstConnected (table : LinkTable) (peerId : String) : Option PeerLink :=
  table.forEach.find? fun link => link.connected && link.remotePeerId == peerId

def findByPeerId (table : LinkTable) (peerId : String) (prefer : TransportClass := .adp) :
    Option PeerLink :=
  if peerId = "" then none
  else
    let presence := table.byPeer peerId
    let (one, two) := match prefer with
      | .carrier => (presence.carrier, presence.adp)
      | .adp => (presence.adp, presence.carrier)
    (table.pick one).or ((table.pick two).or (table.firstConnected peerId))

/-- `Insert` of a link that has its identity. -/
def insert (table : LinkTable) (link : PeerLink) : LinkTable :=
  { table with
    links := table.links ++ [link]
    byDialKey := Function.update table.byDialKey link.peerKey (some link.id)
    keyEvents := table.keyEvents ++ [.inserted link.id link.peerKey link.isCarrierBacked] }

/-- A change to a link where it stands; its id stays. -/
def modify (table : LinkTable) (id : LinkId) (change : PeerLink → PeerLink) : LinkTable :=
  { table with links := table.links.map fun link => if link.id = id then change link else link }

def setPresence (table : LinkTable) (peerId : String) (transport : TransportClass) (id : LinkId) :
    LinkTable :=
  if peerId = "" then table
  else
    let presence := table.byPeer peerId
    { table with byPeer := Function.update table.byPeer peerId <| match transport with
        | .carrier => { presence with carrier := some id }
        | .adp => { presence with adp := some id } }

def clearPresence (table : LinkTable) (peerId : String) (transport : TransportClass)
    (id : LinkId) : LinkTable :=
  let presence := table.byPeer peerId
  { table with byPeer := Function.update table.byPeer peerId <| match transport with
      | .carrier => if presence.carrier = some id then { presence with carrier := none } else presence
      | .adp => if presence.adp = some id then { presence with adp := none } else presence }

/-- The index entry goes only if it still names this link. -/
def unindex (table : LinkTable) (key : DialKey) (id : LinkId) : LinkTable :=
  if table.byDialKey key = some id then
    { table with byDialKey := Function.update table.byDialKey key none }
  else table

def eraseById (table : LinkTable) (id : LinkId) : LinkTable :=
  match table.findById id with
  | none => table
  | some link =>
      let table := table.unindex link.peerKey id
      let table :=
        if link.remotePeerId = "" then table
        else table.clearPresence link.remotePeerId link.transport id
      { table with links := table.links.filter fun link => link.id != id }

/-- The end of `BindDialKey`: the link takes the key, and its old one if it had it. -/
def rebind (table : LinkTable) (link : PeerLink) (key : DialKey) : LinkTable :=
  let table := table.unindex link.peerKey link.id
  let table := table.modify link.id fun link => { link with peerKey := key }
  { table with
    byDialKey := Function.update table.byDialKey key (some link.id)
    keyEvents := table.keyEvents ++ [.rebound link.id key] }

/-- `BindDialKey`; refused while the key names another link. -/
def bindDialKey (table : LinkTable) (id : LinkId) (key : DialKey) : LinkTable × Bool :=
  match table.findById id with
  | none => (table, false)
  | some link =>
      if link.peerKey = key then
        ({ table with
          byDialKey := Function.update table.byDialKey key (some id)
          keyEvents := table.keyEvents ++ [.rebound id key] }, true)
      else if table.byDialKey key ≠ none ∧ table.byDialKey key ≠ some id then (table, false)
      else (table.rebind link key, true)

def unbindDialKey (table : LinkTable) (key : DialKey) : LinkTable :=
  { table with byDialKey := Function.update table.byDialKey key none }

end LinkTable

end Amp
