import Amp.L3.Capability
import Amp.Link.KeyHistory

set_option autoImplicit false

/- Channel 0 of the links of a manager: under which dial key a link's handler looks its
link up again, and what it then does to the link it finds (PeerLinkManager.cpp). -/
namespace Amp

open Adp (Bytes)
open PeerLinkManager (HandshakeResult)

/-- What a channel-0 payload makes the manager call on a link. -/
inductive Ch0Call where
  | handleSessionControl (payload : Bytes)
  | applyRemoteCapability (payload : CapabilityPayload)
  | applyRemoteCapabilityExtension (extension : CapabilityExtension)
  deriving DecidableEq, Repr

/-- A payload that a link's mux delivered on channel 0, and the call it led to. -/
structure Routed where
  source : LinkId
  payload : Bytes
  applied : Option (LinkId × Ch0Call)
  deriving DecidableEq, Repr

structure CapabilityPlane where
  manager : PeerLinkManager
  /-- The links that got a mux. -/
  muxes : List LinkId := []
  /-- The dial key that the handler of a link's channel 0 holds. -/
  handlerKey : LinkId → Option DialKey := fun _ => none
  remoteCapability : LinkId → Option CapabilityPayload := fun _ => none
  /-- Traces. -/
  routed : List Routed := []
  /-- How much was written into the index when a link's handler captured its key. -/
  capturedAt : LinkId → Nat := fun _ => 0
  /-- The index named the link then. -/
  capturedOwn : LinkId → Bool := fun _ => false

/-- The bytes of a C++ string, a character each. -/
def textOf (bytes : Bytes) : String := String.ofList (bytes.map fun byte => Char.ofNat byte.toNat)

/-- The call a payload is for, whichever link it came in on. -/
def ch0Call (payload : Bytes) : Option Ch0Call :=
  if looksLikeSessionControl payload then some (.handleSessionControl payload)
  else if CapabilityCodec.isExtension payload then
    (CapabilityCodec.decodeExtension payload).toOption.map .applyRemoteCapabilityExtension
  else (CapabilityCodec.decode payload).toOption.map .applyRemoteCapability

namespace CapabilityPlane

/-- Whether a handshake that is done leaves its link a session and a mux. -/
def makesMux (m : PeerLinkManager) (id : LinkId) : HandshakeResult → Bool
  | .failed _ => false
  | .established identity made =>
      (m.table.findById id).any fun link =>
        let expected := if link.outbound && !link.isCarrierBacked then link.remotePeerId else ""
        link.phase == .handshaking && made.toBool &&
          (expected == "" || m.authenticatedPeerId link identity == expected)

/-- A Connected link has its mux, and one that steps back keeps it. -/
def hasMux (this : CapabilityPlane) (link : PeerLink) : Bool :=
  link.connected || this.muxes.contains link.id

/-- The handler captures the key its link has now. -/
def startCapabilityExchange (this : CapabilityPlane) (link : PeerLink) : CapabilityPlane :=
  { this with
    handlerKey := Function.update this.handlerKey link.id (some link.peerKey)
    capturedAt := Function.update this.capturedAt link.id this.manager.table.keyEvents.length
    capturedOwn := Function.update this.capturedOwn link.id
      (this.manager.table.byDialKey link.peerKey == some link.id) }

def note (this : CapabilityPlane) (source : LinkId) (payload : Bytes)
    (applied : Option (LinkId × Ch0Call)) : CapabilityPlane :=
  { this with routed := this.routed ++ [⟨source, payload, applied⟩] }

section Calls

variable [MultiaddrParser]

/-- The end of a handshake. The key is read when the call is over: from
`StartCapabilityExchange` to there no link changes its key. -/
def onHandshakeComplete (this : CapabilityPlane) (id : LinkId) (result : HandshakeResult) :
    CapabilityPlane :=
  let made := makesMux this.manager id result
  let this := { this with
    manager := this.manager.onHandshakeComplete id result
    muxes := if made then id :: this.muxes else this.muxes }
  match this.manager.table.findById id with
  | none => this
  | some link =>
      if made && link.connected && !link.isCarrierBacked then this.startCapabilityExchange link
      else this

/-- The first capability of a link also tells of its peer's addresses. -/
def applyRemoteCapability (this : CapabilityPlane) (link : PeerLink) (remote : CapabilityPayload) :
    CapabilityPlane :=
  let peerId := if link.remotePeerId = "" then textOf remote.localPeerId else link.remotePeerId
  let book := if (this.remoteCapability link.id).isSome then this.manager.book
    else this.manager.book.ingestRemoteAddrs peerId (remote.listenMultiaddrs.map textOf)
      this.manager.around.steadyMs
  { this with
    manager := { this.manager with book := book }
    remoteCapability := Function.update this.remoteCapability link.id (some remote) }

def onCapabilityData (this : CapabilityPlane) (source : LinkId) (key : DialKey) (payload : Bytes) :
    CapabilityPlane :=
  match (this.manager.findLink key).filter this.hasMux with
  | none => this.note source payload none
  | some link =>
      if CapabilityCodec.isExtension payload then
        match CapabilityCodec.decodeExtension payload with
        | .error _ => this.note source payload none
        | .ok extension =>
            this.note source payload (some (link.id, .applyRemoteCapabilityExtension extension))
      else
        match CapabilityCodec.decode payload with
        | .error _ => this.note source payload none
        | .ok remote =>
            (this.applyRemoteCapability link remote).note source payload
              (some (link.id, .applyRemoteCapability remote))

def onCh0Data (this : CapabilityPlane) (source : LinkId) (key : DialKey) (payload : Bytes) :
    CapabilityPlane :=
  if looksLikeSessionControl payload then
    this.note source payload ((this.manager.findLink key).map fun link =>
      (link.id, .handleSessionControl payload))
  else this.onCapabilityData source key payload

/-- The link that is Connected, and the key its handler holds. -/
def listening (this : CapabilityPlane) (id : LinkId) : Option DialKey :=
  ((this.manager.table.findById id).filter PeerLink.connected).bind fun _ => this.handlerKey id

/-- A call of the manager, or a payload that a Connected link's mux delivers. -/
inductive Event where
  | manager (event : PeerLinkManager.Event)
  | ch0 (id : LinkId) (payload : Bytes)

def step (this : CapabilityPlane) : Event → CapabilityPlane
  | .manager (.handshake id result) => this.onHandshakeComplete id result
  | .manager event => { this with manager := this.manager.step event }
  | .ch0 id payload =>
      match this.listening id with
      | none => this
      | some key => this.onCh0Data id key payload

def create (localPeerId : String) (limits : LinkLimits) : CapabilityPlane where
  manager := PeerLinkManager.create localPeerId limits

/-- Each call went to the link its payload came in on, and to no other. -/
def WellRouted (this : CapabilityPlane) : Prop :=
  ∀ routed ∈ this.routed, routed.applied =
    (ch0Call routed.payload).map fun call => (routed.source, call)

/-- Since its exchange started no nested link was made under the link's key and the link
was bound to no other one, unless it was bound to it again afterwards. -/
def owns (this : CapabilityPlane) (id : LinkId) (key : DialKey) : Bool :=
  KeyEvent.ownAfter id key (this.capturedOwn id)
    (this.manager.table.keyEvents.drop (this.capturedAt id))

/-- The slots of a peer name the link first, or they name no Connected link and it is
the first such link to the peer. -/
def StandsFor (m : PeerLinkManager) (id : LinkId) (peer : String) : Prop :=
  peer ≠ "" ∧ ((m.table.byPeer peer).adp = some id ∨
    m.table.pick (m.table.byPeer peer).adp = none ∧ ((m.table.byPeer peer).carrier = some id ∨
      m.table.pick (m.table.byPeer peer).carrier = none ∧
        (m.table.firstConnected peer).map PeerLink.id = some id))

/-- A payload that leads to a call comes in while the link has the key it was captured
under, or while no link has it and the link stands for the peer of that name. -/
def Undisturbed (this : CapabilityPlane) : Event → Prop
  | .manager _ => True
  | .ch0 id payload => (ch0Call payload).isSome = true → ∀ key, this.listening id = some key →
      this.owns id key = true ∨
        this.manager.table.byDialKey key = none ∧ StandsFor this.manager id key

end Calls

section Lookup

variable {this : CapabilityPlane}

/-- The link a payload's call goes to. -/
def target (this : CapabilityPlane) (key : DialKey) (payload : Bytes) : Option PeerLink :=
  if looksLikeSessionControl payload then this.manager.findLink key
  else (this.manager.findLink key).filter this.hasMux

/-- Of two links of one id, one found by a key or a peer's name is Connected if the
one in the table is. -/
theorem findLink_connected {m : PeerLinkManager} {key : String} {link held : PeerLink}
    (found : m.findLink key = some link) (same : m.table.findById link.id = some held)
    (up : held.connected = true) : link.connected = true := by
  rcases Option.or_eq_some_iff.mp found with byKey | ⟨_, byPeer⟩
  · obtain ⟨id, _, entry⟩ := Option.bind_eq_some_iff.mp byKey
    have own : link.id = id := by
      have matched := List.find?_some entry
      exact beq_iff_eq.mp matched
    rw [own, entry] at same
    exact Option.some.inj same ▸ up
  · have picked : ∀ id, m.table.pick id = some link → link.connected = true :=
      fun _ found => (Option.filter_eq_some_iff.mp found).2
    unfold LinkTable.findByPeerId at byPeer
    split at byPeer
    · cases byPeer
    · dsimp only at byPeer
      rcases Option.or_eq_some_iff.mp byPeer with first | ⟨_, later⟩
      · exact picked _ first
      · rcases Option.or_eq_some_iff.mp later with second | ⟨_, scanned⟩
        · exact picked _ second
        · have matched := List.find?_some scanned
          exact (Bool.and_eq_true_iff.mp matched).1

theorem target_of_resolves {key : DialKey} {id : LinkId} (payload : Bytes)
    (listening : this.listening id = some key)
    (resolves : (this.manager.findLink key).map PeerLink.id = some id) :
    (this.target key payload).map PeerLink.id = some id := by
  obtain ⟨link, found, rfl⟩ := Option.map_eq_some_iff.mp resolves
  obtain ⟨held, there, _⟩ := Option.bind_eq_some_iff.mp listening
  obtain ⟨same, up⟩ := Option.filter_eq_some_iff.mp there
  have connected := findLink_connected found same up
  unfold target
  split
  · exact resolves
  · rw [found, Option.filter_some, if_pos]
    · rfl
    · rw [hasMux, connected]
      rfl

theorem resolves_of_target {key : DialKey} {id : LinkId} {payload : Bytes}
    (aimed : (this.target key payload).map PeerLink.id = some id) :
    (this.manager.findLink key).map PeerLink.id = some id := by
  unfold target at aimed
  split at aimed
  · exact aimed
  · obtain ⟨link, found, own⟩ := Option.map_eq_some_iff.mp aimed
    rw [(Option.filter_eq_some_iff.mp found).1]
    exact congrArg some own

/-- A slot that names a link names the one it is picked by. -/
theorem pick_some {table : LinkTable} {slot : Option LinkId} {link : PeerLink}
    (picked : table.pick slot = some link) : slot = some link.id := by
  obtain ⟨named, entry, found⟩ := Option.bind_eq_some_iff.mp (Option.filter_eq_some_iff.mp picked).1
  rw [entry, (PeerLinkManager.findById_some found).2]

theorem pick_held {table : LinkTable} {slot : Option LinkId} {id : LinkId} {held : PeerLink}
    (found : table.findById id = some held) (up : held.connected = true) (named : slot = some id) :
    table.pick slot = some held := by
  rw [LinkTable.pick, named, Option.bind_some, found, Option.filter_some, if_pos up]

/-- A Connected link is the one found for a peer if and only if it stands for it. -/
theorem findByPeerId_iff {m : PeerLinkManager} {id : LinkId} {held : PeerLink}
    (found : m.table.findById id = some held) (up : held.connected = true) (peer : String) :
    (m.table.findByPeerId peer).map PeerLink.id = some id ↔ StandsFor m id peer := by
  have own : held.id = id := (PeerLinkManager.findById_some found).2
  unfold LinkTable.findByPeerId StandsFor
  by_cases unknown : peer = ""
  · simp [unknown]
  · rw [if_neg unknown]
    dsimp only
    cases first : m.table.pick (m.table.byPeer peer).adp with
    | some link =>
        have slot := pick_some first
        simp [unknown, slot]
    | none =>
        have apart : (m.table.byPeer peer).adp ≠ some id := by
          intro named
          rw [pick_held found up named] at first
          cases first
        cases second : m.table.pick (m.table.byPeer peer).carrier with
        | some link =>
            have slot := pick_some second
            simp [unknown, apart, slot]
        | none =>
            have apartToo : (m.table.byPeer peer).carrier ≠ some id := by
              intro named
              rw [pick_held found up named] at second
              cases second
            simp [unknown, apart, apartToo]

/-- The books are sound, and of a link that is Connected what was written into the index
since its exchange started tells whether it still has its captured key. -/
structure Tracks (this : CapabilityPlane) : Prop where
  sound : (this.manager.plane {}).Sound
  past : ∀ id key, this.handlerKey id = some key →
    (this.manager.plane {}).Settled id ∧ id ≤ this.manager.table.nextId
  captured : ∀ id key, this.handlerKey id = some key → (this.manager.plane {}).Up id →
    this.capturedAt id ≤ this.manager.table.keyEvents.length ∧
      (this.owns id key = true ↔ (this.manager.plane {}).Owns id key)

theorem plane_table {m n : PeerLinkManager} (same : n.table = m.table) :
    (n.plane {}).links = (m.plane {}).links ∧ (n.plane {}).lastId = (m.plane {}).lastId ∧
      (n.plane {}).byDialKey = (m.plane {}).byDialKey ∧
      (n.plane {}).byPeer = (m.plane {}).byPeer := by
  unfold PeerLinkManager.plane
  rw [same]
  exact ⟨rfl, rfl, rfl, rfl⟩

/-- What touches neither the table nor the captured keys. -/
theorem Tracks.beside (tracks : this.Tracks) {after : CapabilityPlane}
    (table : after.manager.table = this.manager.table)
    (keys : after.handlerKey = this.handlerKey) (starts : after.capturedAt = this.capturedAt)
    (owned : after.capturedOwn = this.capturedOwn) : after.Tracks := by
  obtain ⟨links, lastId, index, peers⟩ := plane_table table
  obtain ⟨unique, numbered, coherent, indexed, known⟩ := tracks.sound
  refine ⟨?_, ?_, ?_⟩
  · refine ⟨?_, ?_, ?_, ?_, ?_⟩
    · rwa [links]
    · rwa [links, lastId]
    · rwa [links]
    · rwa [links, index]
    · unfold LinkPlane.Presents
      rwa [links, peers]
  · intro id key held
    rw [keys] at held
    obtain ⟨settled, old⟩ := tracks.past id key held
    refine ⟨?_, table ▸ old⟩
    unfold LinkPlane.Settled
    rwa [links]
  · intro id key held up
    rw [keys] at held
    unfold LinkPlane.Up at up
    rw [links] at up
    have before := tracks.captured id key held up
    unfold owns LinkPlane.Owns at before ⊢
    rw [table, starts, owned]
    simpa only [index] using before

theorem Tracks.start (tracks : this.Tracks) {link : PeerLink}
    (found : this.manager.table.findById link.id = some link) (up : link.connected = true) :
    (this.startCapabilityExchange link).Tracks := by
  have held := (PeerLinkManager.findById_some found).1
  have there := PeerLinkManager.mem_plane {} held
  refine ⟨tracks.sound, ?_, ?_⟩
  · intro id key captured
    by_cases own : id = link.id
    · subst own
      refine ⟨?_, tracks.sound.numbered link.plain there⟩
      intro other isOther same
      rw [tracks.sound.same isOther there same]
      intro underway
      have connected : link.plain.connected = true := up
      rw [PeerLink.connected, underway] at connected
      cases connected
    · apply tracks.past id key
      simpa [startCapabilityExchange, Function.update_of_ne own] using captured
  · intro id key captured isUp
    by_cases own : id = link.id
    · subst own
      have isKey : link.peerKey = key := by simpa [startCapabilityExchange] using captured
      subst isKey
      unfold owns startCapabilityExchange
      simp only [Function.update_self, List.drop_length]
      exact ⟨le_rfl, beq_iff_eq⟩
    · have before := tracks.captured id key
      unfold owns startCapabilityExchange at *
      simp only [Function.update_of_ne own] at captured ⊢
      exact before captured isUp

theorem create_tracks (localPeerId : String) (limits : LinkLimits) :
    (create localPeerId limits).Tracks := by
  refine ⟨PeerLinkManager.create_sound localPeerId limits, ?_, ?_⟩
  · intro id key captured
    cases captured
  · intro id key captured
    cases captured

/-- The captured key of a Connected link finds it if and only if the link still has the
key, or none has it and the link stands for the peer of that name. -/
theorem Tracks.finds_iff (tracks : this.Tracks) {id : LinkId} {key : DialKey}
    (listening : this.listening id = some key) :
    (this.manager.findLink key).map PeerLink.id = some id ↔
      this.owns id key = true ∨
        this.manager.table.byDialKey key = none ∧ StandsFor this.manager id key := by
  obtain ⟨held, there, captured⟩ := Option.bind_eq_some_iff.mp listening
  obtain ⟨found, up⟩ := Option.filter_eq_some_iff.mp there
  obtain ⟨member, own⟩ := PeerLinkManager.findById_some found
  have isUp : (this.manager.plane {}).Up id :=
    ⟨held.plain, PeerLinkManager.mem_plane {} member, own, up⟩
  rw [(tracks.captured id key captured isUp).2]
  unfold PeerLinkManager.findLink LinkTable.findByDialKey
  cases index : this.manager.table.byDialKey key with
  | none =>
      have none : ¬ (this.manager.plane {}).Owns id key := by
        intro named
        have entry : this.manager.table.byDialKey key = some id := named
        rw [index] at entry
        cases entry
      rw [Option.bind_none, Option.none_or, findByPeerId_iff found up]
      simp [none]
  | some other =>
      obtain ⟨link, isLink, same, _⟩ := tracks.sound.indexed key other index
      obtain ⟨holder, isHolder, rfl⟩ := List.mem_map.mp isLink
      have there := PeerLinkManager.findById_of_mem tracks.sound isHolder
      have isOther : holder.id = other := same
      rw [isOther] at there
      have named : (this.manager.plane {}).Owns id key ↔ other = id := by
        show this.manager.table.byDialKey key = some id ↔ _
        rw [index]
        exact Option.some_inj
      rw [Option.bind_some, there, Option.some_or, Option.map_some, isOther, named]
      simp

end Lookup

section Runs

variable [MultiaddrParser] {this : CapabilityPlane}

theorem Tracks.advance (tracks : this.Tracks) (event : PeerLinkManager.Event)
    (muxes : List LinkId) :
    ({ this with manager := this.manager.step event, muxes := muxes } : CapabilityPlane).Tracks := by
  refine ⟨PeerLinkManager.step_sound tracks.sound event, ?_, ?_⟩
  · intro id key held
    obtain ⟨settled, old⟩ := tracks.past id key held
    obtain ⟨stays, reached, _⟩ := PeerLinkManager.step_keyed tracks.sound event old settled
    exact ⟨stays, reached⟩
  · intro id key held up
    obtain ⟨settled, old⟩ := tracks.past id key held
    obtain ⟨_, _, keyed⟩ := PeerLinkManager.step_keyed tracks.sound event old settled
    obtain ⟨was, events, grown, tells⟩ := keyed up
    obtain ⟨start, own⟩ := tracks.captured id key held was
    have longer : (this.manager.step event).table.keyEvents =
        this.manager.table.keyEvents ++ events := grown
    refine ⟨?_, ?_⟩
    · show this.capturedAt id ≤ (this.manager.step event).table.keyEvents.length
      rw [longer, List.length_append]
      omega
    · have before : this.owns id key = decide ((this.manager.plane {}).Owns id key) := by
        rw [Bool.eq_iff_iff, decide_eq_true_eq]
        exact own
      unfold owns at before ⊢
      rw [longer, List.drop_append_of_le_length start, KeyEvent.ownAfter_append, before, tells key,
        decide_eq_true_eq]

theorem Tracks.onHandshakeComplete (tracks : this.Tracks) (id : LinkId)
    (result : HandshakeResult) : (this.onHandshakeComplete id result).Tracks := by
  have moved := tracks.advance (.handshake id result)
    (if makesMux this.manager id result then id :: this.muxes else this.muxes)
  unfold CapabilityPlane.onHandshakeComplete
  dsimp only
  split
  · exact moved
  · rename_i link found
    split
    · rename_i started
      simp only [Bool.and_eq_true] at started
      apply moved.start
      · rw [(PeerLinkManager.findById_some found).2]
        exact found
      · exact started.1.2
    · exact moved

theorem Tracks.onCh0Data (tracks : this.Tracks) (source : LinkId) (key : DialKey)
    (payload : Bytes) : (this.onCh0Data source key payload).Tracks := by
  unfold CapabilityPlane.onCh0Data CapabilityPlane.onCapabilityData
  split
  · exact tracks.beside rfl rfl rfl rfl
  · split
    · exact tracks.beside rfl rfl rfl rfl
    · split
      · split <;> exact tracks.beside rfl rfl rfl rfl
      · split <;> exact tracks.beside rfl rfl rfl rfl

theorem Tracks.step (tracks : this.Tracks) (event : Event) : (this.step event).Tracks := by
  cases event with
  | manager event =>
      cases event with
      | handshake id result => exact tracks.onHandshakeComplete id result
      | _ => exact tracks.advance _ this.muxes
  | ch0 id payload =>
      unfold CapabilityPlane.step
      dsimp only
      split
      · exact tracks
      · exact tracks.onCh0Data id _ payload

/-- A payload's call, if it leads to one, goes to the target alone. -/
theorem onCh0Data_routed (source : LinkId) (key : DialKey) (payload : Bytes) :
    (this.onCh0Data source key payload).routed = this.routed ++ [⟨source, payload,
      (ch0Call payload).bind fun call => (this.target key payload).map fun link =>
        (link.id, call)⟩] := by
  unfold onCh0Data target ch0Call
  by_cases control : looksLikeSessionControl payload = true
  · rw [if_pos control, if_pos control, if_pos control]
    rfl
  · rw [if_neg control, if_neg control, if_neg control]
    unfold onCapabilityData
    cases (this.manager.findLink key).filter this.hasMux with
    | none =>
        simp only [Option.map_none, Option.bind_fun_none]
        rfl
    | some link =>
        dsimp only
        split
        · cases CapabilityCodec.decodeExtension payload with
          | error message => rfl
          | ok extension => rfl
        · cases CapabilityCodec.decode payload with
          | error message => rfl
          | ok remote => rfl

@[simp] theorem onHandshakeComplete_routed (id : LinkId) (result : HandshakeResult) :
    (this.onHandshakeComplete id result).routed = this.routed := by
  unfold onHandshakeComplete
  dsimp only
  split
  · rfl
  · split
    · rfl
    · rfl

theorem step_manager_routed (event : PeerLinkManager.Event) :
    (this.step (.manager event)).routed = this.routed := by
  cases event with
  | handshake id result => exact onHandshakeComplete_routed id result
  | _ => rfl

/-- A run goes on well routed if and only if its next payload comes in undisturbed. -/
theorem step_wellRouted (tracks : this.Tracks) (event : Event) (before : this.WellRouted) :
    (this.step event).WellRouted ↔ this.Undisturbed event := by
  cases event with
  | manager event =>
      unfold WellRouted
      rw [step_manager_routed]
      exact ⟨fun _ => trivial, fun _ => before⟩
  | ch0 id payload =>
      unfold step Undisturbed
      dsimp only
      cases listening : this.listening id with
      | none =>
          refine ⟨fun _ _ key held => ?_, fun _ => before⟩
          cases held
      | some key =>
          unfold WellRouted
          rw [onCh0Data_routed]
          constructor
          · intro after call other held
            obtain rfl := Option.some.inj held
            have last := after _ (List.mem_append_right _ (List.mem_singleton_self _))
            obtain ⟨made, isCall⟩ := Option.isSome_iff_exists.mp call
            dsimp only at last
            rw [isCall, Option.bind_some, Option.map_some] at last
            obtain ⟨link, aimed, own⟩ := Option.map_eq_some_iff.mp last
            have found : (this.target key payload).map PeerLink.id = some id := by
              rw [aimed]
              exact congrArg some (Prod.mk.inj own).1
            exact (tracks.finds_iff listening).mp (resolves_of_target found)
          · intro undisturbed routed member
            rcases List.mem_append.mp member with old | new
            · exact before routed old
            · rw [List.mem_singleton.mp new]
              dsimp only
              cases isCall : ch0Call payload with
              | none => rfl
              | some call =>
                  have found := (tracks.finds_iff listening).mpr
                    (undisturbed (by rw [isCall]; rfl) key rfl)
                  obtain ⟨link, aimed, own⟩ := Option.map_eq_some_iff.mp
                    (target_of_resolves payload listening found)
                  rw [Option.bind_some, aimed, Option.map_some, Option.map_some, own]

/-- What comes in on channel 0 is applied to its own link in exactly the runs in which
it comes in undisturbed each time. -/
theorem well_routed_iff_undisturbed (localPeerId : String) (limits : LinkLimits)
    (events : List Event) :
    Run.Always step WellRouted (create localPeerId limits) events ↔
      Run.Meets step Undisturbed (create localPeerId limits) events := by
  have tracks := create_tracks localPeerId limits
  have initially : (create localPeerId limits).WellRouted := by
    intro routed none
    cases none
  have turn := Run.always_iff_meets step Undisturbed (fun plane => plane.Tracks ∧ plane.WellRouted)
    (fun _ event holds =>
      ⟨fun after => (step_wellRouted holds.1 event holds.2).mp after.2,
        fun met => ⟨holds.1.step event, (step_wellRouted holds.1 event holds.2).mpr met⟩⟩)
    events _ ⟨tracks, initially⟩
  constructor
  · intro always
    exact turn.mp (always.with_invariant (fun _ event holds => holds.step event) tracks)
  · intro met
    exact (turn.mpr met).mono fun _ both => both.2

end Runs

section Samples

local instance : MultiaddrParser := ⟨fun _ => .ok { endpoint := { port := 4000 } }⟩

/-- A dial of bob comes up under the key "bob". A nested link of the same key, on its way
over a relay, takes the key over; then bob asks for a rekey on the dialed link. -/
def rekeyAfterTakeover : List Event :=
  [.manager (.surroundings { nowMs := 1000, derivePeerId := fun _ => "bob" }),
    .manager (.registerEndpoint "bob" "/ip4/10.0.0.2/udp/4000"),
    .manager (.ensureAssociation "bob" none),
    .manager (.handshake 1 (.established [1] (.ok ()))),
    .manager (.establishNested "bob" none true none),
    .ch0 1 [2, 1, 2, 0, 0, 0]]

theorem rekey_misrouted :
    (Run.exec step (create "alice" {}) rekeyAfterTakeover).routed =
      [⟨1, [2, 1, 2, 0, 0, 0], some (2, .handleSessionControl [2, 1, 2, 0, 0, 0])⟩] ∧
      ¬ Run.Always step WellRouted (create "alice" {}) rekeyAfterTakeover := by
  have routed : (Run.exec step (create "alice" {}) rekeyAfterTakeover).routed =
      [⟨1, [2, 1, 2, 0, 0, 0], some (2, .handleSessionControl [2, 1, 2, 0, 0, 0])⟩] := by
    decide +kernel
  refine ⟨routed, fun always => ?_⟩
  have last : (Run.exec step (create "alice" {}) rekeyAfterTakeover).WellRouted :=
    always.2.2.2.2.2.2
  unfold WellRouted at last
  rw [routed] at last
  have applied := last _ (List.mem_singleton_self _)
  revert applied
  decide +kernel

end Samples

end CapabilityPlane

end Amp
