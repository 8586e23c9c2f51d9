import Amp.Link.PeerLinkManager

set_option autoImplicit false

/- How one link ends its handshake (PeerLink.cpp): the peer id it was dialed for,
the one the identity key gives, and the check between the two. -/
namespace Amp

open Adp (Bytes)

/-- libsodium's `crypto_generichash` at its least length. -/
class GenericHash where
  digest : Bytes → Bytes

section Identity

variable [GenericHash]

def hexDigit (nibble : Nat) : Char := "0123456789abcdef".toList.getD nibble '0'

def identityPublicKeyFingerprint (identityPublicKey : Bytes) : String :=
  if identityPublicKey = [] then ""
  else "id:" ++ String.ofList ((GenericHash.digest identityPublicKey).flatMap fun byte =>
    [hexDigit (byte.toNat / 16), hexDigit (byte.toNat % 16)])

/-- `DeriveRemotePeerId`, the manager's `derive_peer_id` port. -/
def deriveRemotePeerId (peerIdFromIdentity : Option (Bytes → String))
    (identityPublicKey : Bytes) : String :=
  match peerIdFromIdentity with
  | some derive => derive identityPublicKey
  | none => identityPublicKeyFingerprint identityPublicKey

/-- What the `derive_peer_id` port says of a key; nothing where it is not set. -/
def portDerived (port : Option (Bytes → String)) (identityPublicKey : Bytes) : String :=
  port.elim "" fun derive => derive identityPublicKey

/-- `remote_peer_id_` after a handshake that authenticated this key. -/
def authenticatedId (port : Option (Bytes → String)) (remotePeerId : String)
    (identityPublicKey : Bytes) : String :=
  if identityPublicKey = [] then remotePeerId
  else match port with
    | some derive =>
        if derive identityPublicKey ≠ "" then derive identityPublicKey
        else if remotePeerId = "" then identityPublicKeyFingerprint identityPublicKey
        else remotePeerId
    | none =>
        if remotePeerId = "" then identityPublicKeyFingerprint identityPublicKey
        else remotePeerId

/-- The id of whoever holds the key: as derived, else its fingerprint. -/
def derivedId (port : Option (Bytes → String)) (identityPublicKey : Bytes) : String :=
  if portDerived port identityPublicKey ≠ "" then portDerived port identityPublicKey
  else identityPublicKeyFingerprint identityPublicKey

end Identity

/-- A link between its construction and its end. -/
structure EstablishingLink where
  outbound : Bool
  /-- `carrier_`; without it the link has its own association. -/
  carrier : Bool
  remotePeerId : String
  remoteIdentityPublicKey : Bytes := []
  phase : PeerLinkPhase := .handshaking
  handshake : Bool := true
  session : Bool := false
  mux : Bool := false
  /-- `on_established` has not answered yet. -/
  electing : Bool := false
  establishCb : Bool := true
  /-- Trace: what `establish_cb_` was called with. -/
  told : List (Except LinkFailure Unit) := []

namespace EstablishingLink

/-- Either constructor, and the handshake begun. -/
def opened (outbound carrier : Bool) (remotePeerId : String) : EstablishingLink where
  outbound := outbound
  carrier := carrier
  remotePeerId := remotePeerId

def tell (link : EstablishingLink) (result : Except LinkFailure Unit) : EstablishingLink :=
  { link with
    establishCb := false
    told := if link.establishCb then link.told ++ [result] else link.told }

def failAssociation (link : EstablishingLink) (failure : LinkFailure) : EstablishingLink :=
  { link with phase := .backoff, handshake := false, electing := false }.tell (.error failure)

/-- A handshake's outcome: the key it authenticated, and whether a session can be
made of its material and a mux fits the carrier. -/
structure Established where
  remoteIdentityPublicKey : Bytes
  session : Except String Unit := .ok ()
  budget : Except String Unit := .ok ()

section Finish

variable [GenericHash] (port : Option (Bytes → String))

/-- The id the check of `FinishEstablishment` holds the peer to. -/
def expectedPeerId (link : EstablishingLink) : String :=
  if link.outbound && !link.carrier then link.remotePeerId else ""

def authenticate (link : EstablishingLink) (established : Established) : EstablishingLink :=
  { link with
    remoteIdentityPublicKey := established.remoteIdentityPublicKey
    remotePeerId := authenticatedId port link.remotePeerId established.remoteIdentityPublicKey }

/-- `FinishEstablishment` up to `on_established`. -/
def finishEstablishment (link : EstablishingLink) (established : Established) :
    EstablishingLink :=
  let expected := link.expectedPeerId
  let link := link.authenticate port established
  if expected ≠ "" ∧ link.remotePeerId ≠ expected then
    link.failAssociation ⟨.handshakeFailed,
      "amp link: authenticated peer id does not match dial target"⟩
  else
    match established.session with
    | .error message => link.failAssociation ⟨.handshakeFailed, message⟩
    | .ok () =>
        let link := { link with session := true, mux := true }
        match (if link.carrier then established.budget else .ok ()) with
        | .error message => link.failAssociation ⟨.handshakeFailed, message⟩
        | .ok () => { link with handshake := false, phase := .connected, electing := true }

/-- The rest of it, with the answers of `on_established` and `has_other_connected`. -/
def concludeElection (link : EstablishingLink) (won otherConnected : Bool) : EstablishingLink :=
  let link := { link with electing := false }
  if won then link.tell (.ok ())
  else { link with phase := .backoff }.tell
    (if link.remotePeerId ≠ "" ∧ otherConnected then .ok ()
      else .error ⟨.dualDialLost, "amp link: dual-dial election lost"⟩)

/-- What happens to the link. -/
inductive Event where
  | handshakeFailed (message : String)
  | handshakeComplete (established : Established)
  | elected (won otherConnected : Bool)
  /-- Refused, out of time, of another version, or a carrier frame in error. -/
  | fail (failure : LinkFailure)
  | demoteForScheduledDrop
  | carrierClosed (reason : String)

def step (link : EstablishingLink) : Event → EstablishingLink
  | .handshakeFailed message =>
      if link.handshake then link.failAssociation ⟨.handshakeFailed, message⟩ else link
  | .handshakeComplete established =>
      if link.handshake then link.finishEstablishment port established else link
  | .elected won otherConnected =>
      if link.electing then link.concludeElection won otherConnected else link
  | .fail failure => link.failAssociation failure
  | .demoteForScheduledDrop =>
      if link.phase = .connected ∨ link.phase = .handshaking ∨ link.phase = .dialing then
        { link with phase := .backoff }
      else link
  | .carrierClosed reason =>
      if !link.carrier then link
      else if link.phase = .connected then { link with phase := .backoff }
      else link.failAssociation
        ⟨.carrierClosed, if reason = "" then "amp carrier closed" else reason⟩

/-- A Connected link is to the peer it names, and an outbound one over an
association of its own to the peer it was dialed for. -/
structure Genuine (target : String) (link : EstablishingLink) : Prop where
  dialed : link.phase = .connected → link.outbound = true → link.carrier = false → target ≠ "" →
    derivedId port link.remoteIdentityPublicKey = target
  named : link.phase = .connected →
    link.remotePeerId = derivedId port link.remoteIdentityPublicKey

/-- The session, and over a carrier the frame budget, of a completed handshake are good. -/
def Makes (link : EstablishingLink) (established : Established) : Prop :=
  established.session = .ok () ∧ (link.carrier = true → established.budget = .ok ())

/-- The id a link holds before its handshake completes is replaced, or is the one
the key has anyway. -/
def Vouched (link : EstablishingLink) : Event → Prop
  | .handshakeComplete established =>
      let key := established.remoteIdentityPublicKey
      link.handshake = true → link.Makes established →
        if key = [] then link.remotePeerId = portDerived port key
        else portDerived port key ≠ "" ∨ link.remotePeerId = "" ∨
          link.remotePeerId = identityPublicKeyFingerprint key
  | _ => True

/-- A finished handshake leaves the id as it was, or the one of the key. -/
theorem authenticatedId_cases (remotePeerId : String) (key : Bytes) :
    authenticatedId port remotePeerId key = remotePeerId ∨
      authenticatedId port remotePeerId key = derivedId port key := by
  unfold authenticatedId derivedId portDerived
  split
  · exact Or.inl rfl
  · cases port with
    | none =>
        by_cases unnamed : remotePeerId = ""
        · exact Or.inr (by simp [unnamed])
        · exact Or.inl (by simp [unnamed])
    | some derive =>
        by_cases gives : derive key = ""
        · by_cases unnamed : remotePeerId = ""
          · exact Or.inr (by simp [gives, unnamed])
          · exact Or.inl (by simp [gives, unnamed])
        · exact Or.inr (by simp [gives])

theorem authenticatedId_derived (remotePeerId : String) (key : Bytes) :
    authenticatedId port remotePeerId key = derivedId port key ↔
      if key = [] then remotePeerId = portDerived port key
      else portDerived port key ≠ "" ∨ remotePeerId = "" ∨
        remotePeerId = identityPublicKeyFingerprint key := by
  by_cases empty : key = []
  · have bare : identityPublicKeyFingerprint key = "" := by
      rw [identityPublicKeyFingerprint, if_pos empty]
    have same : derivedId port key = portDerived port key := by
      unfold derivedId
      rw [bare]
      split
      · rfl
      · rename_i none
        exact (not_not.mp none).symm
    unfold authenticatedId
    rw [if_pos empty, if_pos empty, same]
  · unfold authenticatedId derivedId portDerived
    rw [if_neg empty, if_neg empty]
    cases port with
    | none =>
        by_cases unnamed : remotePeerId = "" <;> simp [unnamed]
    | some derive =>
        by_cases gives : derive key = ""
        · by_cases unnamed : remotePeerId = "" <;> simp [gives, unnamed]
        · simp [gives]

/-- Until its handshake completes a link holds the id it was made with. -/
structure Awaiting (target : String) (link : EstablishingLink) : Prop where
  held : link.handshake = true → link.remotePeerId = target
  pending : link.handshake = true → link.phase ≠ .connected

omit [GenericHash] in
theorem failAssociation_awaiting (target : String) (link : EstablishingLink)
    (failure : LinkFailure) : (link.failAssociation failure).Awaiting target :=
  ⟨nofun, nofun⟩

theorem finishEstablishment_awaiting (target : String) (link : EstablishingLink)
    (established : Established) :
    (link.finishEstablishment port established).Awaiting target := by
  unfold finishEstablishment
  dsimp only
  split
  · exact failAssociation_awaiting target _ _
  · split
    · exact failAssociation_awaiting target _ _
    · split
      · exact failAssociation_awaiting target _ _
      · exact ⟨nofun, nofun⟩

theorem step_awaiting (target : String) (link : EstablishingLink) (event : Event)
    (awaiting : link.Awaiting target) : (link.step port event).Awaiting target := by
  cases event with
  | handshakeFailed message =>
      simp only [step]
      split
      · exact failAssociation_awaiting target _ _
      · exact awaiting
  | handshakeComplete established =>
      simp only [step]
      split
      · exact finishEstablishment_awaiting port target link established
      · exact awaiting
  | elected won otherConnected =>
      simp only [step]
      split
      · unfold concludeElection tell
        dsimp only
        split
        · exact ⟨awaiting.held, awaiting.pending⟩
        · exact ⟨awaiting.held, fun _ => PeerLinkPhase.noConfusion⟩
      · exact awaiting
  | fail failure => exact failAssociation_awaiting target link failure
  | demoteForScheduledDrop =>
      simp only [step]
      split
      · exact ⟨awaiting.held, fun _ => PeerLinkPhase.noConfusion⟩
      · exact awaiting
  | carrierClosed reason =>
      simp only [step]
      split
      · exact awaiting
      · split
        · exact ⟨awaiting.held, fun _ => PeerLinkPhase.noConfusion⟩
        · exact failAssociation_awaiting target _ _

omit [GenericHash] in
theorem opened_awaiting (outbound carrier : Bool) (target : String) :
    (opened outbound carrier target).Awaiting target :=
  ⟨fun _ => rfl, fun _ => PeerLinkPhase.noConfusion⟩

/-- A link that is not Connected claims nothing. -/
theorem genuine_of_down (target : String) {link : EstablishingLink}
    (down : link.phase ≠ .connected) : link.Genuine port target :=
  ⟨fun up => absurd up down, fun up => absurd up down⟩

/-- The check of `FinishEstablishment` lets the link's id through. -/
def Passes (link : EstablishingLink) (established : Established) : Prop :=
  link.expectedPeerId = "" ∨
    authenticatedId port link.remotePeerId established.remoteIdentityPublicKey =
      link.expectedPeerId

/-- A completed handshake makes the link Connected, or fails it. -/
theorem finishEstablishment_cases (link : EstablishingLink) (established : Established) :
    (link.Makes established ∧ link.Passes port established ∧
      link.finishEstablishment port established = { link.authenticate port established with
        session := true, mux := true, handshake := false, phase := .connected,
        electing := true }) ∨
    (¬ (link.Makes established ∧ link.Passes port established) ∧
      (link.finishEstablishment port established).phase = .backoff) := by
  unfold finishEstablishment
  dsimp only
  by_cases foreign : link.expectedPeerId ≠ "" ∧
      (link.authenticate port established).remotePeerId ≠ link.expectedPeerId
  · rw [if_pos foreign]
    refine Or.inr ⟨fun both => ?_, rfl⟩
    exact both.2.elim foreign.1 foreign.2
  · rw [if_neg foreign]
    have passes : link.Passes port established := by
      by_cases unchecked : link.expectedPeerId = ""
      · exact Or.inl unchecked
      · exact Or.inr (not_not.mp fun differs => foreign ⟨unchecked, differs⟩)
    cases made : established.session with
    | error message =>
        refine Or.inr ⟨fun both => ?_, rfl⟩
        rw [both.1.1] at made
        cases made
    | ok _ =>
        dsimp only
        cases overCarrier : link.carrier with
        | false =>
            have same : (link.authenticate port established).carrier = false := overCarrier
            simp only [same, Bool.false_eq_true, if_false]
            exact Or.inl ⟨⟨made, fun carried => by rw [overCarrier] at carried; cases carried⟩,
              passes, trivial⟩
        | true =>
            have same : (link.authenticate port established).carrier = true := overCarrier
            simp only [same, if_true]
            cases fits : established.budget with
            | error message =>
                refine Or.inr ⟨fun both => ?_, rfl⟩
                rw [both.1.2 overCarrier] at fits
                cases fits
            | ok _ => exact Or.inl ⟨⟨made, fun _ => fits⟩, passes, rfl⟩

theorem vouched_iff (link : EstablishingLink) (established : Established) :
    link.Vouched port (.handshakeComplete established) ↔
      (link.handshake = true → link.Makes established →
        authenticatedId port link.remotePeerId established.remoteIdentityPublicKey =
          derivedId port established.remoteIdentityPublicKey) := by
  unfold Vouched
  dsimp only
  rw [authenticatedId_derived]

/-- An id the key does not have is the one the link was made with, which passes. -/
theorem passes_of_kept {link : EstablishingLink} {established : Established}
    (differs : authenticatedId port link.remotePeerId established.remoteIdentityPublicKey ≠
      derivedId port established.remoteIdentityPublicKey) : link.Passes port established := by
  have kept := (authenticatedId_cases port link.remotePeerId
    established.remoteIdentityPublicKey).resolve_right differs
  unfold Passes
  rw [kept]
  unfold expectedPeerId
  split
  · exact Or.inr rfl
  · exact Or.inl rfl

theorem finishEstablishment_genuine {target : String} {link : EstablishingLink}
    (held : link.remotePeerId = target) (established : Established)
    (same : link.Makes established →
      authenticatedId port link.remotePeerId established.remoteIdentityPublicKey =
        derivedId port established.remoteIdentityPublicKey) :
    (link.finishEstablishment port established).Genuine port target := by
  rcases finishEstablishment_cases port link established with ⟨makes, passes, up⟩ | ⟨_, down⟩
  · rw [up]
    refine ⟨?_, fun _ => same makes⟩
    intro _ outbound direct named
    have expected : link.expectedPeerId = target := by
      have direct : link.carrier = false := direct
      have outbound : link.outbound = true := outbound
      simp only [expectedPeerId, direct, outbound, Bool.not_false, Bool.and_self, if_true, held]
    rcases passes with unchecked | checked
    · exact absurd (expected.symm.trans unchecked) named
    · exact (same makes).symm.trans (checked.trans expected)
  · apply genuine_of_down
    rw [down]
    exact PeerLinkPhase.noConfusion

/-- What a Connected link is stays with it until it is down. -/
theorem step_genuine {target : String} (link : EstablishingLink) (event : Event)
    (vouched : link.Vouched port event) (awaiting : link.Awaiting target)
    (genuine : link.Genuine port target) : (link.step port event).Genuine port target := by
  have failed : ∀ failure, (link.failAssociation failure).Genuine port target := fun failure =>
    genuine_of_down port target PeerLinkPhase.noConfusion
  cases event with
  | handshakeFailed message =>
      simp only [step]
      split
      · exact failed _
      · exact genuine
  | handshakeComplete established =>
      simp only [step]
      split
      · rename_i going
        exact finishEstablishment_genuine port (awaiting.held going) established
          ((vouched_iff port link established).mp vouched going)
      · exact genuine
  | elected won otherConnected =>
      simp only [step]
      split
      · unfold concludeElection tell
        dsimp only
        split
        · exact ⟨genuine.dialed, genuine.named⟩
        · exact genuine_of_down port target PeerLinkPhase.noConfusion
      · exact genuine
  | fail failure => exact failed failure
  | demoteForScheduledDrop =>
      simp only [step]
      split
      · exact genuine_of_down port target PeerLinkPhase.noConfusion
      · exact genuine
  | carrierClosed reason =>
      simp only [step]
      split
      · exact genuine
      · split
        · exact genuine_of_down port target PeerLinkPhase.noConfusion
        · exact failed _

/-- A link that comes up under a name its peer's key does not vouch for is not genuine. -/
theorem vouched_of_genuine {target : String} (link : EstablishingLink) (event : Event)
    (genuine : (link.step port event).Genuine port target) : link.Vouched port event := by
  cases event with
  | handshakeComplete established =>
      rw [vouched_iff]
      intro going makes
      by_contra differs
      simp only [step, going, if_true] at genuine
      rcases finishEstablishment_cases port link established with ⟨_, _, up⟩ | ⟨refused, _⟩
      · rw [up] at genuine
        exact differs (genuine.named rfl)
      · exact refused ⟨makes, passes_of_kept port differs⟩
  | handshakeFailed message => trivial
  | elected won otherConnected => trivial
  | fail failure => trivial
  | demoteForScheduledDrop => trivial
  | carrierClosed reason => trivial

/-- A link is what it was dialed for, and named by its peer's key, in every state of
a run exactly if each completed handshake finds it nameless, or with an id that the
key's derivation replaces or agrees with. -/
theorem genuine_iff_vouched (outbound carrier : Bool) (target : String) (events : List Event) :
    Run.Always (step port) (Genuine port target) (opened outbound carrier target) events ↔
      Run.Meets (step port) (Vouched port) (opened outbound carrier target) events := by
  constructor
  · exact Run.meets_of_always (step port) (Vouched port) (Awaiting target) (Genuine port target)
      (step_awaiting port target)
      (fun link event _ genuine => vouched_of_genuine port link event genuine)
      events _ (opened_awaiting outbound carrier target)
  · intro vouched
    refine Run.always_of_invariant (step port) (Vouched port)
      (fun link => link.Awaiting target ∧ link.Genuine port target) _ ?_ (fun _ holds => holds.2)
      events _ vouched ⟨opened_awaiting outbound carrier target,
        genuine_of_down port target PeerLinkPhase.noConfusion⟩
    exact fun link event allowed holds => ⟨step_awaiting port target link event holds.1,
      step_genuine port link event allowed holds.1 holds.2⟩

end Finish

instance sampleGenericHash : GenericHash := ⟨fun key => key.take 1⟩

/-- A dial of one peer answered by the holder of another key, which the configured
derivation has no id for: the link is Connected and named for the peer dialed. -/
theorem connected_to_another :
    let port := some (deriveRemotePeerId (some fun _ => ""))
    let link := (opened true false "QmBob").step port (.handshakeComplete ⟨[7], .ok (), .ok ()⟩)
    link.phase = .connected ∧ link.remotePeerId = "QmBob" ∧
      derivedId port link.remoteIdentityPublicKey = "id:07" ∧ ¬ link.Genuine port "QmBob" := by
  refine ⟨by decide, by decide, by decide, fun genuine => ?_⟩
  exact absurd (genuine.named (by decide)) (by decide)

end EstablishingLink

end Amp
