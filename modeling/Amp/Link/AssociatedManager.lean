import Amp.L1.Closing
import Amp.Link.LinkCapacity

set_option autoImplicit false

/- A manager with the ADP associations it reads and closes, and how many links it then
ever holds. -/
namespace Amp

/-- A manager, and the ADP association of each of its links. -/
structure AssociatedManager (π : Type) where
  manager : PeerLinkManager
  connections : LinkId → Adp.Connection π

namespace AssociatedManager

open PeerLinkManager (LinkState)

variable {π : Type}

/-- What a manager reads of an association. -/
def view (c : Adp.Connection π) : AssociationView where
  closed := c.closed
  peerClosed := c.peerClosed
  peerUnreachable := c.peerUnreachable
  peerVersionMismatch := c.peerVersionMismatch
  peerWireVersions := c.peerWireVersions.map UInt8.toNat
  looksAlive := c.looksAlive c.endpoint.nowMs
  lastAuthRxMs := c.lastAuthRxMs

/-- A call of the manager, or of the association of one of its links. -/
inductive Event (π : Type) where
  | call (event : PeerLinkManager.Event)
  | connection (id : LinkId) (event : Adp.Connection.Event π)

/-- The state of a link is told as its association has it. -/
def told (this : AssociatedManager π) : PeerLinkManager.Event → PeerLinkManager.Event
  | .linkState id state => .linkState id { state with association := view (this.connections id) }
  | event => event

variable [Adp.PacketProtection π] [Adp.Hmac]

/-- The manager closed an association to make room. -/
def shut (m : PeerLinkManager) (connections : LinkId → Adp.Connection π) (id : LinkId) :
    Adp.Connection π :=
  if m.table.links.any fun link => link.id == id && link.association.closed then
    (connections id).close
  else connections id

variable [MultiaddrParser]

def call (this : AssociatedManager π) (event : PeerLinkManager.Event) : AssociatedManager π :=
  let manager := this.manager.step (this.told event)
  ⟨manager, shut manager this.connections⟩

/-- The association of a link moved on. -/
def moved (this : AssociatedManager π) (link : PeerLink) (c : Adp.Connection π) :
    AssociatedManager π where
  manager := this.manager.step (.linkState link.id ⟨view c, link.carrierLaneFailed, link.inUse⟩)
  connections := Function.update this.connections link.id c

def step (this : AssociatedManager π) : Event π → AssociatedManager π
  | .call event => this.call event
  | .connection id event =>
      match this.manager.table.findById id with
      | none => this
      | some link =>
          if link.isCarrierBacked then this
          else this.moved link ((this.connections link.id).step event)

/-- A manager without links; a link finds its association as it was opened. -/
def create (localPeerId : String) (limits : LinkLimits) (connections : LinkId → Adp.Connection π) :
    AssociatedManager π :=
  ⟨.create localPeerId limits, connections⟩

/-- What the manager takes for closed is closed. -/
def Shut (this : AssociatedManager π) : Prop :=
  ∀ link ∈ this.manager.table.links, link.association.closed = true →
    (this.connections link.id).closed = true

structure Sound (limits : LinkLimits) (this : AssociatedManager π) : Prop where
  books : (this.manager.plane {}).Sound
  within : this.manager.WithinCapacity limits
  shut : this.Shut

variable {this : AssociatedManager π} {limits : LinkLimits}

omit [MultiaddrParser] in
theorem shut_closed {m : PeerLinkManager} {connections : LinkId → Adp.Connection π} {link : PeerLink}
    (held : link ∈ m.table.links) (closed : link.association.closed = true) :
    (shut m connections link.id).closed = true := by
  unfold shut
  rw [if_pos]
  · unfold Adp.Connection.close
    split
    · assumption
    · rfl
  · rw [List.any_eq_true]
    exact ⟨link, held, by simp [closed]⟩

theorem call_sound (sound : this.Sound limits) (event : PeerLinkManager.Event) :
    (this.call event).Sound limits := by
  refine ⟨PeerLinkManager.step_sound sound.books _, ?_, fun link held => shut_closed held⟩
  apply PeerLinkManager.step_within sound.within sound.books
  intro id state isReport link held same closed
  cases event with
  | linkState other told =>
      cases isReport
      rw [← same]
      exact sound.shut link held closed
  | _ => cases isReport

theorem moved_sound (sound : this.Sound limits) (link : PeerLink)
    (event : Adp.Connection.Event π) :
    (this.moved link ((this.connections link.id).step event)).Sound limits := by
  refine ⟨PeerLinkManager.step_sound sound.books _, ?_, ?_⟩
  · show (this.manager.step (.linkState link.id
      ⟨view ((this.connections link.id).step event), link.carrierLaneFailed, link.inUse⟩)).WithinCapacity
        limits
    apply PeerLinkManager.step_within sound.within sound.books
    intro id state isReport held member same closed
    cases isReport
    apply Adp.Connection.step_closed
    rw [← same]
    exact sound.shut held member closed
  · intro after member closed
    obtain ⟨before, held, rfl⟩ := List.mem_map.mp member
    show (Function.update this.connections link.id _ _).closed = true
    by_cases own : before.id = link.id
    · rw [if_pos own] at closed ⊢
      rw [own, Function.update_self]
      exact closed
    · rw [if_neg own] at closed ⊢
      rw [Function.update_of_ne own]
      exact sound.shut before held closed

theorem step_sound (sound : this.Sound limits) (event : Event π) :
    (this.step event).Sound limits := by
  cases event with
  | call event => exact call_sound sound event
  | connection id event =>
      unfold step
      dsimp only
      split
      · exact sound
      · split
        · exact sound
        · exact moved_sound sound _ event

omit [Adp.PacketProtection π] [Adp.Hmac] [MultiaddrParser] in
theorem create_sound (localPeerId : String) (limits : LinkLimits)
    (connections : LinkId → Adp.Connection π) :
    (create localPeerId limits connections).Sound limits := by
  refine ⟨PeerLinkManager.create_sound localPeerId limits, ⟨rfl, ?_, ?_⟩, ?_⟩
  · exact Nat.zero_le _
  · exact Nat.zero_le _
  · intro link held
    cases held

/-- However dials, accepts, nested links, drops and Ticks follow each other, a manager
holds at most `max_links` links whose peer has not closed, and at most
`max_pending_inbound` accepted ones that still handshake; the associations it takes for
closed are closed. -/
theorem always_within_capacity (localPeerId : String) (limits : LinkLimits)
    (connections : LinkId → Adp.Connection π) (events : List (Event π)) :
    Run.Always step
      (fun this : AssociatedManager π => this.manager.WithinCapacity limits ∧ this.Shut)
      (create localPeerId limits connections) events := by
  apply Run.always_of_invariant step (fun _ _ => True) (Sound limits) _
    (fun _ event _ sound => step_sound sound event) (fun _ sound => ⟨sound.within, sound.shut⟩) events
  · exact Run.meets_of_forall _ _ (fun _ _ => trivial) events _
  · exact create_sound localPeerId limits connections

end AssociatedManager

end Amp
