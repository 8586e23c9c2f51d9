import Amp.L1.Sample
import Amp.Link.HandshakeSides

set_option autoImplicit false

/- What two ends of a handshake that both complete it agree on. -/
namespace Amp

open Adp (Bytes Hmac)
open MshMessages

namespace MshAdpHandshake

variable {this after : MshAdpHandshake}

/-- An initiator over a carrier says one Finished, and that as its last message. -/
structure Single (this : MshAdpHandshake) : Prop where
  wire : this.chunkedWire = false
  begun : this.remoteHello.isSome = true → this.started = true
  order : this.remotePayload.isSome = true → this.remoteHello.isSome = true
  fresh : this.remotePayload = none → this.Mute
  last : ∀ body, (.finished, body) ∈ this.said →
    this.lastType = .finished ∧ this.lastBody = body

section Singles

theorem Single.mute_of_hello (single : this.Single) (none : ¬ this.remoteHello.isSome = true) :
    this.Mute :=
  single.fresh (Option.not_isSome_iff_eq_none.mp fun some => none (single.order some))

/-- A message that is no Finished, said before the other side's payload is taken. -/
theorem Mute.single {ready : MshAdpHandshake} {type : MshMessageType} {body : Bytes}
    (mute : ready.Mute) (wire : ready.chunkedWire = false) (begun : ready.started = true)
    (order : ready.remotePayload.isSome = true → ready.remoteHello.isSome = true)
    (quiet : type ≠ .finished) (send : Bytes → Except String Unit) :
    (ready.sendMessage send type body).1.Single := by
  have mute := mute.say quiet body send
  obtain ⟨_, _, _, _, _, after, _, _⟩ := ready.sendMessage_keeps send type body
  rw [after] at mute ⊢
  exact ⟨wire, fun _ => begun, order, fun _ => mute, fun other said => absurd said (mute.said other)⟩

theorem Single.fail (single : this.Single) (message : String) : (this.fail message).1.Single :=
  ⟨single.wire, single.begun, single.order,
    fun none => ⟨(single.fresh none).last, (single.fresh none).said⟩, single.last⟩

theorem Single.resend (single : this.Single) (send : Bytes → Except String Unit) :
    (this.resend send).1.Single := by
  obtain ⟨_, said, after, listed⟩ := this.resend_spec send
  rw [after]
  refine ⟨single.wire, single.begun, single.order, ?_, ?_⟩
  · intro none
    have mute := single.fresh none
    refine ⟨mute.last, ?_⟩
    intro body
    show (.finished, body) ∉ said
    rcases listed with rfl | rfl
    · exact mute.said body
    · intro isSaid
      rcases List.mem_append.mp isSaid with before | same
      · exact mute.said body before
      · exact mute.last (Prod.mk.inj (List.mem_singleton.mp same)).1.symm
  · intro body isSaid
    have isSaid : (.finished, body) ∈ said := isSaid
    rcases listed with rfl | rfl
    · exact single.last body isSaid
    · rcases List.mem_append.mp isSaid with before | same
      · exact single.last body before
      · obtain ⟨type, text⟩ := Prod.mk.inj (List.mem_singleton.mp same)
        exact ⟨type.symm, text.symm⟩

variable [MlKem] [MlDsa]

omit [MlDsa] in
theorem Single.start (single : this.Single) (send : Bytes → Except String Unit) (coins : Coins) :
    (this.start send coins).1.Single := by
  unfold MshAdpHandshake.start
  split
  · exact single
  · split
    · exact single
    · rename_i fresh
      have mute := single.mute_of_hello fun hello => fresh (single.begun hello)
      dsimp only
      split
      · exact ⟨single.wire, fun _ => rfl, single.order, fun _ => ⟨mute.last, mute.said⟩,
          single.last⟩
      · split
        · exact ⟨single.wire, fun _ => rfl, single.order, fun _ => ⟨mute.last, mute.said⟩,
            single.last⟩
        · apply Mute.single
          · exact ⟨mute.last, mute.said⟩
          · exact single.wire
          · rfl
          · exact single.order
          · exact MshMessageType.noConfusion

theorem Single.onServerHello (single : this.Single) (send : Bytes → Except String Unit)
    (coins : Coins) (body : Bytes) : (this.onServerHello send coins body).1.Single := by
  unfold MshAdpHandshake.onServerHello
  split
  · exact single
  · split
    · exact single
    · rename_i started
      rw [Bool.or_eq_true, not_or] at started
      have begun : this.started = true := by simpa using started.1
      have mute := single.mute_of_hello started.2
      split
      · exact single.fail _
      · dsimp only
        split
        · exact ⟨single.wire, fun _ => begun, fun _ => rfl, fun _ => ⟨mute.last, mute.said⟩,
            single.last⟩
        · split
          · exact ⟨single.wire, fun _ => begun, fun _ => rfl, fun _ => ⟨mute.last, mute.said⟩,
              single.last⟩
          · apply Mute.single
            · exact ⟨mute.last, mute.said⟩
            · exact single.wire
            · exact begun
            · exact fun _ => rfl
            · exact MshMessageType.noConfusion

variable [Hkdf] [Hmac] [Sha256]

omit [MlDsa] in
theorem Single.finishPayload (mute : this.Mute) (wire : this.chunkedWire = false)
    (begun : this.started = true) (hello : this.remoteHello.isSome = true)
    (payload : this.remotePayload.isSome = true) (send : Bytes → Except String Unit)
    (parsed : MshPayload) : (this.finishPayload send parsed).1.Single := by
  have taken : this.remotePayload ≠ none := Option.isSome_iff_ne_none.mp payload
  have silent : ∀ body, (.finished, body) ∈ this.said →
      this.lastType = .finished ∧ this.lastBody = body :=
    fun body said => absurd said (mute.said body)
  unfold MshAdpHandshake.finishPayload
  dsimp only
  split
  · exact ⟨wire, fun _ => begun, fun _ => hello, fun none => absurd none taken, silent⟩
  · split
    · exact ⟨wire, fun _ => begun, fun _ => hello, fun none => absurd none taken, silent⟩
    · rename_i master _
      split
      · exact ⟨wire, fun _ => begun, fun _ => hello, fun none => absurd none taken, silent⟩
      · rename_i finished _
        obtain ⟨_, lastType, lastBody, _, said, after, last, listed⟩ :=
          ((this.setMaster master).noteFinish.appendPart finished).sendMessage_keeps send .finished
            finished
        rw [after]
        refine ⟨wire, fun _ => begun, fun _ => hello, fun none => absurd none taken, ?_⟩
        intro body isSaid
        show lastType = .finished ∧ lastBody = body
        have isSaid : (.finished, body) ∈ said := isSaid
        rcases last with ⟨_, rfl, rfl⟩ | ⟨chunked, _⟩
        · rcases listed with rfl | rfl
          · exact absurd isSaid (mute.said body)
          · rcases List.mem_append.mp isSaid with before | same
            · exact absurd before (mute.said body)
            · exact ⟨rfl, (Prod.mk.inj (List.mem_singleton.mp same)).2.symm⟩
        · have chunked : this.chunkedWire = true := chunked
          rw [wire] at chunked
          cases chunked

theorem Single.onServerPayload (single : this.Single) (send : Bytes → Except String Unit)
    (body : Bytes) : (this.onServerPayload send body).1.Single := by
  unfold MshAdpHandshake.onServerPayload
  split
  · exact single
  · rename_i new
    have none : this.remotePayload = none := by
      rw [single.wire] at new
      simpa using new
    have mute := single.fresh none
    split
    · exact single
    · rename_i remoteHello hello
      have hello : this.remoteHello.isSome = true := by rw [hello]; rfl
      split
      · exact single
      · split
        · exact single.fail _
        · rename_i parsed _
          split
          · exact single.fail _
          · split
            · exact single.fail _
            · have ready : (this.takePayload parsed body).Mute := ⟨mute.last, mute.said⟩
              exact Single.finishPayload ready single.wire (single.begun hello) hello rfl send parsed

omit [MlKem] [MlDsa] in
theorem Single.onResponderFinished (single : this.Single) (body : Bytes) :
    (this.onResponderFinished body).1.Single := by
  have mute : this.remotePayload = none → this.Mute := single.fresh
  unfold MshAdpHandshake.onResponderFinished
  split
  · exact single
  · dsimp only
    split
    · exact ⟨single.wire, single.begun, single.order, fun none => ⟨(mute none).last, (mute none).said⟩,
        single.last⟩
    · unfold maybeComplete
      split
      · exact ⟨single.wire, single.begun, single.order,
          fun none => ⟨(mute none).last, (mute none).said⟩, single.last⟩
      · dsimp only
        split
        · exact ⟨single.wire, single.begun, single.order,
            fun none => ⟨(mute none).last, (mute none).said⟩, single.last⟩
        · exact ⟨single.wire, single.begun, single.order,
            fun none => ⟨(mute none).last, (mute none).said⟩, single.last⟩

theorem Single.handleMsh (single : this.Single) (initiator : this.role = .initiator)
    (send : Bytes → Except String Unit) (coins : Coins) (type : MshMessageType) (body : Bytes) :
    (this.handleMsh send coins type body).1.Single := by
  unfold MshAdpHandshake.handleMsh
  split
  · exact single
  · rw [initiator]
    dsimp only
    unfold initiate
    cases type with
    | serverHello => exact single.onServerHello send coins body
    | serverPayload => exact single.onServerPayload send body
    | finished => exact single.onResponderFinished body
    | clientHello => exact single
    | clientPayload => exact single
    | unknown byte => exact single

end Singles

end MshAdpHandshake

/-- An initiator and a responder of one handshake. -/
structure Handshaking where
  initiator : MshAdpHandshake
  responder : MshAdpHandshake

/-- What is the same at both ends of a handshake. -/
structure Agreement (initiator responder : MshIdentity) (first second : MshAdpEstablished) :
    Prop where
  masterIkm : first.masterIkm = second.masterIkm
  transcriptHash : first.transcriptHash = second.transcriptHash
  kAssoc : first.localMaterial.kAssoc = second.localMaterial.kAssoc
  there : first.localMaterial.kSend = second.localMaterial.kRecv
  back : second.localMaterial.kSend = first.localMaterial.kRecv
  sessionEpoch : first.localMaterial.sessionEpoch = 1 ∧ second.localMaterial.sessionEpoch = 1
  sides : first.localMaterial.initiator = true ∧ second.localMaterial.initiator = false
  firstRemote : first.remoteIdentityPublicKey = responder.mlDsaPublicKey
  secondRemote : second.remoteIdentityPublicKey = initiator.mlDsaPublicKey

/-- A call of one of the two, with what `send_` answers in it and what it draws. What is
delivered to one is a message the other said, however late or often. -/
inductive HandshakeEvent where
  | start (send : Bytes → Except String Unit) (coins : Coins)
  | toInitiator (type : MshMessageType) (body : Bytes) (send : Bytes → Except String Unit)
      (coins : Coins)
  | toResponder (type : MshMessageType) (body : Bytes) (send : Bytes → Except String Unit)
      (coins : Coins)
  /-- `TickCarrierHandshake` sends the initiator's last chunks again. -/
  | resend (send : Bytes → Except String Unit)

namespace Handshaking

/-- Two new ends, over a carrier or not. -/
def create (initiator responder : MshIdentity) (chunkedWire : Bool) : Handshaking where
  initiator := { role := .initiator, identity := initiator, chunkedWire }
  responder := { role := .responder, identity := responder, chunkedWire }

variable [MlKem] [MlDsa] [Hkdf] [Hmac] [Sha256]

def step (this : Handshaking) : HandshakeEvent → Handshaking
  | .start send coins => { this with initiator := (this.initiator.start send coins).1 }
  | .toInitiator type body send coins =>
      if (type, body) ∈ this.responder.said then
        { this with initiator := (this.initiator.handleMsh send coins type body).1 }
      else this
  | .toResponder type body send coins =>
      if (type, body) ∈ this.initiator.said then
        { this with responder := (this.responder.handleMsh send coins type body).1 }
      else this
  | .resend send => { this with initiator := (this.initiator.resend send).1 }

omit [MlKem] [MlDsa] in
/-- No two Finished MACs of the run collide. -/
def CollisionFree (this : Handshaking) : Prop :=
  MshAdpHandshake.Apart (this.initiator.finishes ++ this.responder.finishes)

instance (this : Handshaking) : Decidable this.CollisionFree :=
  inferInstanceAs (Decidable (MshAdpHandshake.Apart _))

/-- Both are done at most once, and if both are well they agree. -/
structure Agrees (initiator responder : MshIdentity) (this : Handshaking) : Prop where
  first : this.initiator.outcomes.length ≤ 1
  second : this.responder.outcomes.length ≤ 1
  agree : ∀ first second, .ok first ∈ this.initiator.outcomes →
    .ok second ∈ this.responder.outcomes → Agreement initiator responder first second

/-- What the two ends know, and what each heard of the other's Finished. -/
structure Sound (initiator responder : MshIdentity) (chunked : Bool) (this : Handshaking) :
    Prop where
  first : this.initiator.Sound
    ⟨.initiator, initiator.mlDsaPublicKey, responder.mlDsaPublicKey, chunked⟩
    fun body => (.finished, body) ∈ this.responder.said
  second : this.responder.Sound
    ⟨.responder, responder.mlDsaPublicKey, initiator.mlDsaPublicKey, chunked⟩
    fun body => (.finished, body) ∈ this.initiator.said
  single : chunked = false → this.initiator.Single

variable {initiator responder : MshIdentity} {chunked : Bool} {this : Handshaking}

theorem create_sound (initiator responder : MshIdentity) (chunked : Bool) :
    (create initiator responder chunked).Sound initiator responder chunked := by
  have blank : ∀ {holds : Prop}, (none : Option MshHello).isSome = true → holds :=
    fun some => absurd some Bool.false_ne_true
  have unpaid : ∀ {holds : Prop}, (none : Option MshPayload).isSome = true → holds :=
    fun some => absurd some Bool.false_ne_true
  have mute : ∀ role identity,
      ({ role, identity, chunkedWire := chunked } : MshAdpHandshake).Mute :=
    fun _ _ => ⟨MshMessageType.noConfusion, fun _ => List.not_mem_nil⟩
  have opened : ∀ role (identity : MshIdentity) peer,
      ({ role, identity, chunkedWire := chunked } : MshAdpHandshake).Underway
        ⟨role, identity.mlDsaPublicKey, peer, chunked⟩ := by
    intro role identity peer
    refine ⟨⟨rfl, rfl, rfl, rfl, rfl, ?_, ?_, blank, unpaid, ?_, ?_⟩, ?_, ?_⟩
    · exact fun _ _ said => absurd said List.not_mem_nil
    · exact MshAdpHandshake.signs_other MshMessageType.noConfusion MshMessageType.noConfusion
    · exact fun filled => absurd rfl filled
    · exact fun _ same => absurd same.symm (Option.some_ne_none _)
    · exact fun _ => blank
    · exact fun _ filled => absurd rfl filled
  constructor
  · exact Or.inl ⟨opened .initiator initiator _, fun _ => Or.inl (mute .initiator initiator)⟩
  · exact Or.inl ⟨opened .responder responder _, fun _ => Or.inl (mute .responder responder)⟩
  · exact fun whole => ⟨whole, blank, unpaid, fun _ => mute .initiator initiator,
      fun _ said => absurd said List.not_mem_nil⟩

omit [MlKem] [MlDsa] in
theorem CollisionFree.first (fresh : this.CollisionFree) :
    MshAdpHandshake.Apart this.initiator.finishes :=
  fun one first two second => fresh one (List.mem_append_left _ first) two
    (List.mem_append_left _ second)

omit [MlKem] [MlDsa] in
theorem CollisionFree.second (fresh : this.CollisionFree) :
    MshAdpHandshake.Apart this.responder.finishes :=
  fun one first two second => fresh one (List.mem_append_right _ first) two
    (List.mem_append_right _ second)

theorem Sound.step (sound : this.Sound initiator responder chunked) {event : HandshakeEvent}
    (fresh : (this.step event).CollisionFree) :
    (this.step event).Sound initiator responder chunked := by
  obtain ⟨first, second, single⟩ := sound
  cases event with
  | start send coins =>
      obtain ⟨first, grows⟩ := first.start rfl send coins
      refine ⟨first, second.mono ?_, fun whole => (single whole).start send coins⟩
      exact fun body said => grows _ said
  | toInitiator type body send coins =>
      unfold Handshaking.step at fresh ⊢
      dsimp only at fresh ⊢
      split at fresh
      · rename_i delivered
        rw [if_pos delivered]
        have side := first.side
        obtain ⟨first, grows⟩ := first.handleMsh
          (fun carries payload decoded => second.signed delivered carries decoded)
          (fun same => same ▸ delivered) (fun isResponder => Role.noConfusion isResponder) send coins
          fresh.first
        refine ⟨first, second.mono ?_, fun whole => (single whole).handleMsh side send coins type body⟩
        exact fun other said => grows _ said
      · rename_i foreign
        rw [if_neg foreign]
        exact ⟨first, second, single⟩
  | toResponder type body send coins =>
      unfold Handshaking.step at fresh ⊢
      dsimp only at fresh ⊢
      split at fresh
      · rename_i delivered
        rw [if_pos delivered]
        have only : chunked = false → ∀ one two, (MshMessageType.finished, one) ∈ this.initiator.said →
            (MshMessageType.finished, two) ∈ this.initiator.said → one = two := by
          intro whole one two saidOne saidTwo
          have lastOne := (single whole).last one saidOne
          have lastTwo := (single whole).last two saidTwo
          exact lastOne.2.symm.trans lastTwo.2
        obtain ⟨second, grows⟩ := second.handleMsh
          (fun carries payload decoded => first.signed delivered carries decoded)
          (fun same => same ▸ delivered) (fun _ => only) send coins fresh.second
        refine ⟨first.mono ?_, second, single⟩
        exact fun other said => grows _ said
      · rename_i foreign
        rw [if_neg foreign]
        exact ⟨first, second, single⟩
  | resend send =>
      refine ⟨first.resend rfl send, second.mono ?_, fun whole => (single whole).resend send⟩
      exact fun body said => MshAdpHandshake.resend_grows this.initiator send _ said

/-- Two ends that are well made their keys of one secret and one transcript. -/
theorem Sound.agrees (sound : this.Sound initiator responder chunked)
    (fresh : this.CollisionFree) : this.Agrees initiator responder where
  first := sound.first.once
  second := sound.second.once
  agree first second one two := by
    obtain ⟨firstMade, firstHands⟩ := sound.first.made one
    obtain ⟨secondMade, secondHands⟩ := sound.second.made two
    obtain ⟨body, parts, heard, ends⟩ := firstMade.hears rfl
    obtain ⟨otherParts, otherEnds⟩ := secondMade.tells rfl body heard
    have same := fresh (this.initiator.masterIkm, parts) (List.mem_append_left _ ends.listed)
      (this.responder.masterIkm, otherParts) (List.mem_append_right _ otherEnds.listed) body
      ends.built otherEnds.built
    obtain ⟨master, flat⟩ : this.initiator.masterIkm = this.responder.masterIkm ∧
      parts.flatten = otherParts.flatten := same
    have hash : SessionKeys.transcriptHash this.initiator.transcript =
        SessionKeys.transcriptHash this.responder.transcript := by
      unfold SessionKeys.transcriptHash
      rw [ends.last, otherEnds.last, List.flatten_append, List.flatten_append, flat]
    have firstMaterial := firstHands.material
    have secondMaterial := secondHands.material
    rw [master, hash] at firstMaterial
    obtain ⟨prk, extracted, firstKeys⟩ := SessionKeys.derive_ok firstMaterial
    obtain ⟨other, alike, secondKeys⟩ := SessionKeys.derive_ok secondMaterial
    rw [extracted] at alike
    obtain rfl : prk = other := Option.some.inj alike
    constructor
    · rw [firstHands.masterIkm, secondHands.masterIkm, master]
    · rw [firstHands.transcriptHash, secondHands.transcriptHash, hash]
    · have one := SessionKeys.derive_kAssoc firstMaterial extracted
      have two := SessionKeys.derive_kAssoc secondMaterial extracted
      exact Option.some.inj (one.symm.trans two)
    · exact Option.some.inj (firstKeys.send.symm.trans secondKeys.recv)
    · exact Option.some.inj (secondKeys.send.symm.trans firstKeys.recv)
    · exact ⟨firstKeys.epoch, secondKeys.epoch⟩
    · exact ⟨firstKeys.side, secondKeys.side⟩
    · exact firstHands.remoteIdentityPublicKey
    · exact secondHands.remoteIdentityPublicKey

/-- Whatever is lost, repeated, delayed or reordered, two ends that both complete the
handshake hold one session. -/
theorem handshake_agrees (initiator responder : MshIdentity) (chunked : Bool)
    (events : List HandshakeEvent)
    (fresh : Run.Always Handshaking.step CollisionFree (create initiator responder chunked)
      events) :
    Run.Always Handshaking.step (Agrees initiator responder) (create initiator responder chunked)
      events := by
  have always := Run.Always.carries (fun _ _ sound fresh => sound.step fresh)
    (create_sound initiator responder chunked) fresh
  exact always.mono fun _ both => both.1.agrees both.2

end Handshaking

/- Stand-ins for the primitives, small enough to run a handshake with. -/
namespace SmallCrypto

scoped instance kem : MlKem where
  publicKeyBytes := 1
  ciphertextBytes := 1
  sharedSecretBytes := 1
  generateKeyPair _ := .ok ([1], [1])
  encapsulate _ _ := .ok ([7], [9])
  decapsulate _ _ := .ok [9]

scoped instance dsa : MlDsa where
  publicKeyBytes := 1
  secretKeyBytes := 1
  signatureBytes := 1
  sign _ _ _ := .ok [5]
  verify _ _ _ := .ok true

scoped instance sha : Sha256 where
  sha256 input := List.replicate 32 (Adp.checksum input)

scoped instance hkdf : Hkdf where
  extract _ ikm := some ikm
  expand outLen _ prk := some ((prk ++ List.replicate outLen 0).take outLen)

def caller : MshIdentity := ⟨[10], [20]⟩
def callee : MshIdentity := ⟨[11], [21]⟩

def sends (_ : Bytes) : Except String Unit := .ok ()

def hello (type : MshMessageType) : Bytes := type.code :: 1 :: 1 :: List.replicate 32 0

def finished (mac : UInt8) : Bytes := 5 :: List.replicate 32 mac

/-- A handshake over a carrier in which the first answer is lost. -/
def handshake : List HandshakeEvent :=
  [.start sends {},
    .toResponder .clientHello (hello .clientHello) sends {},
    .resend sends,
    .toResponder .clientHello (hello .clientHello) sends {},
    .toInitiator .serverHello (hello .serverHello) sends {},
    .toResponder .clientPayload [3, 7, 20, 1, 5] sends {},
    .toInitiator .serverHello (hello .serverHello) sends {},
    .toInitiator .serverPayload [4, 7, 21, 1, 5] sends {},
    .toResponder .finished (finished 139) sends {},
    .toInitiator .finished (finished 203) sends {}]

end SmallCrypto

open SmallCrypto in
theorem Handshaking.handshake_agrees_sample :
    (Run.exec Handshaking.step (Handshaking.create caller callee false) handshake).initiator.complete
      = true ∧
    (Run.exec Handshaking.step (Handshaking.create caller callee false) handshake).responder.complete
      = true ∧
    Run.Always Handshaking.step (Handshaking.Agrees caller callee)
      (Handshaking.create caller callee false) handshake := by
  have fresh : Run.Always Handshaking.step Handshaking.CollisionFree
      (Handshaking.create caller callee false) handshake := by
    decide +kernel
  refine ⟨by decide +kernel, by decide +kernel, ?_⟩
  exact Handshaking.handshake_agrees caller callee false handshake fresh

end Amp
