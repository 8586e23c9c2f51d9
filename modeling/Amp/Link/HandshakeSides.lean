import Amp.Lib.Run
import Amp.Link.MshAdpHandshake

set_option autoImplicit false

/- What one side of a handshake knows between its calls. -/
namespace Amp

open Adp (Bytes Hmac)
open MshMessages

/-- The side that a handshake object stands for. -/
structure Party where
  role : Role
  me : Bytes
  peer : Bytes
  chunked : Bool

namespace MshAdpHandshake

variable {this after : MshAdpHandshake}

section Sending

/-- What a message sent whole leaves to be resent. -/
def noted (this : MshAdpHandshake) (type : MshMessageType) (body : Bytes) : MshAdpHandshake :=
  if this.chunkedWire then this
  else { this with
    lastWire := AmpAdpCarrier.encodeMsh type body
    lastType := type
    lastBody := body }

theorem sendAll_eq (send : Bytes → Except String Unit) (wires : List Bytes) :
    ∀ this : MshAdpHandshake, ∃ sent result,
      sendAll send wires this = ({ this with sent := sent }, result) := by
  induction wires with
  | nil => exact fun this => ⟨this.sent, .ok (), rfl⟩
  | cons wire rest ih =>
      intro this
      unfold sendAll
      split
      · exact ⟨this.sent, _, rfl⟩
      · exact ih { this with sent := this.sent ++ [wire] }

/-- A message is said or it is not; nothing else is changed but what a resend reads. -/
theorem sendMessage_spec (this : MshAdpHandshake) (send : Bytes → Except String Unit)
    (type : MshMessageType) (body : Bytes) : ∃ sent,
    this.sendMessage send type body = ({ this.noted type body with
      sent := sent
      said := this.said ++ [(type, body)] }, .ok ()) ∨
    ∃ error, this.sendMessage send type body =
      ({ this.noted type body with sent := sent }, .error error) := by
  obtain ⟨sent, result, all⟩ := sendAll_eq send (this.wiresOf type body) (this.noted type body)
  have same : (this.noted type body).said = this.said := by
    unfold noted
    split
    · rfl
    · rfl
  refine ⟨sent, ?_⟩
  unfold sendMessage
  unfold noted at all same ⊢
  dsimp only
  rw [all]
  cases result with
  | error error => exact Or.inr ⟨error, rfl⟩
  | ok done =>
      left
      dsimp only
      rw [same]

theorem noted_keeps (this : MshAdpHandshake) (type : MshMessageType) (body : Bytes) :
    ∃ lastWire lastType lastBody, this.noted type body =
      { this with lastWire := lastWire, lastType := lastType, lastBody := lastBody } ∧
    (this.chunkedWire = false ∧ lastType = type ∧ lastBody = body ∨
      this.chunkedWire = true ∧ lastType = this.lastType ∧ lastBody = this.lastBody) := by
  unfold noted
  split
  · rename_i chunked
    exact ⟨this.lastWire, this.lastType, this.lastBody, rfl, Or.inr ⟨chunked, rfl, rfl⟩⟩
  · rename_i whole
    exact ⟨_, _, _, rfl, Or.inl ⟨Bool.eq_false_iff.mpr whole, rfl, rfl⟩⟩

/-- What a message, said or not, leaves of a side. -/
theorem sendMessage_keeps (this : MshAdpHandshake) (send : Bytes → Except String Unit)
    (type : MshMessageType) (body : Bytes) : ∃ lastWire lastType lastBody sent said,
    (this.sendMessage send type body).1 = { this with
      lastWire := lastWire
      lastType := lastType
      lastBody := lastBody
      sent := sent
      said := said } ∧
    (this.chunkedWire = false ∧ lastType = type ∧ lastBody = body ∨
      this.chunkedWire = true ∧ lastType = this.lastType ∧ lastBody = this.lastBody) ∧
    (said = this.said ∨ said = this.said ++ [(type, body)]) := by
  obtain ⟨lastWire, lastType, lastBody, noted, last⟩ := this.noted_keeps type body
  obtain ⟨sent, said | ⟨error, failed⟩⟩ := this.sendMessage_spec send type body
  · rw [noted] at said
    rw [said]
    exact ⟨lastWire, lastType, lastBody, sent, _, rfl, last, Or.inr rfl⟩
  · rw [noted] at failed
    rw [failed]
    exact ⟨lastWire, lastType, lastBody, sent, _, rfl, last, Or.inl rfl⟩

/-- What was said stays said. -/
def Grows (this after : MshAdpHandshake) : Prop := ∀ message ∈ this.said, message ∈ after.said

theorem Grows.same {this after : MshAdpHandshake} (same : after.said = this.said) :
    Grows this after := fun _ said => same ▸ said

theorem Grows.trans {one two three : MshAdpHandshake} (first : Grows one two)
    (second : Grows two three) : Grows one three := fun message said => second message (first message said)

theorem Grows.listed {this after : MshAdpHandshake} {message : MshMessageType × Bytes}
    (listed : after.said = this.said ∨ after.said = this.said ++ [message]) : Grows this after := by
  intro other said
  rcases listed with same | more
  · exact same ▸ said
  · rw [more]
    exact List.mem_append_left _ said

theorem sendMessage_grows {this ready : MshAdpHandshake} (same : ready.said = this.said)
    (send : Bytes → Except String Unit) (type : MshMessageType) (body : Bytes) :
    Grows this (ready.sendMessage send type body).1 := by
  obtain ⟨_, _, _, _, _, after, _, listed⟩ := ready.sendMessage_keeps send type body
  apply Grows.trans (Grows.same same)
  rw [after]
  exact Grows.listed listed

theorem resend_spec (this : MshAdpHandshake) (send : Bytes → Except String Unit) : ∃ sent said,
    (this.resend send).1 = { this with sent := sent, said := said } ∧
      (said = this.said ∨ said = this.said ++ [(this.lastType, this.lastBody)]) := by
  unfold resend
  split
  · exact ⟨this.sent, this.said, rfl, Or.inl rfl⟩
  · rename_i chunks _
    obtain ⟨sent, result, all⟩ := sendAll_eq send chunks this
    rw [all]
    cases result with
    | error error => exact ⟨sent, this.said, rfl, Or.inl rfl⟩
    | ok done => exact ⟨sent, _, rfl, Or.inr rfl⟩

theorem resend_grows (this : MshAdpHandshake) (send : Bytes → Except String Unit) :
    Grows this (this.resend send).1 := by
  obtain ⟨_, _, after, listed⟩ := this.resend_spec send
  rw [after]
  exact Grows.listed listed

end Sending

section Past

/-- No Finished was said or waits to be resent. -/
structure Mute (this : MshAdpHandshake) : Prop where
  last : this.lastType ≠ .finished
  said : ∀ body, (.finished, body) ∉ this.said

/-- What a call that says no Finished leaves of a side's past. -/
structure Onward (this after : MshAdpHandshake) : Prop where
  finishes : after.finishes = this.finishes
  grows : this.transcript.flatten.length ≤ after.transcript.flatten.length
  mute : this.Mute → after.Mute
  said : Grows this after

theorem Onward.refl (this : MshAdpHandshake) : Onward this this :=
  ⟨rfl, Nat.le_refl _, id, .same rfl⟩

theorem Onward.trans {one two three : MshAdpHandshake} (first : Onward one two)
    (second : Onward two three) : Onward one three :=
  ⟨second.finishes.trans first.finishes, first.grows.trans second.grows,
    fun mute => second.mute (first.mute mute), first.said.trans second.said⟩

theorem appendPart_onward (this : MshAdpHandshake) (wire : Bytes) :
    Onward this (this.appendPart wire) := by
  refine ⟨rfl, ?_, fun mute => ⟨mute.last, mute.said⟩, .same rfl⟩
  show _ ≤ (this.transcript ++ [wire]).flatten.length
  rw [List.flatten_append, List.length_append]
  omega

variable {type : MshMessageType} {body : Bytes}

theorem said_append {holds : MshMessageType → Bytes → Prop}
    (old : ∀ type body, (type, body) ∈ this.said → holds type body) (new : holds type body) :
    ∀ other text, (other, text) ∈ this.said ++ [(type, body)] → holds other text := by
  intro other text said
  rcases List.mem_append.mp said with before | same
  · exact old other text before
  · obtain ⟨rfl, rfl⟩ := Prod.mk.inj (List.mem_singleton.mp same)
    exact new

theorem Mute.say (mute : this.Mute) (quiet : type ≠ .finished) (body : Bytes)
    (send : Bytes → Except String Unit) : (this.sendMessage send type body).1.Mute := by
  obtain ⟨_, lastType, lastBody, _, said, after, last, listed⟩ :=
    this.sendMessage_keeps send type body
  rw [after]
  constructor
  · show lastType ≠ .finished
    rcases last with ⟨_, rfl, _⟩ | ⟨_, rfl, _⟩
    · exact quiet
    · exact mute.last
  · intro other
    show (.finished, other) ∉ said
    rcases listed with rfl | rfl
    · exact mute.said other
    · intro isSaid
      rcases List.mem_append.mp isSaid with before | same
      · exact mute.said other before
      · exact quiet (Prod.mk.inj (List.mem_singleton.mp same)).1.symm

end Past

section Sides

variable [MlKem] [MlDsa]

/-- The payloads a side says carry its identity. -/
def Signs (this : MshAdpHandshake) (type : MshMessageType) (body : Bytes) : Prop :=
  (type = .clientPayload ∨ type = .serverPayload) → ∀ payload,
    decodePayload type body = .ok payload →
      payload.identityPublicKey = this.identity.mlDsaPublicKey

/-- A side that is not done, wherever a call of it may be. -/
structure Open (party : Party) (this : MshAdpHandshake) : Prop where
  side : this.role = party.role
  mine : this.identity.mlDsaPublicKey = party.me
  wire : this.chunkedWire = party.chunked
  complete : this.complete = false
  outcomes : this.outcomes = []
  signs : ∀ type body, (type, body) ∈ this.said → this.Signs type body
  signsLast : this.Signs this.lastType this.lastBody
  begun : this.remoteHello.isSome = true → this.started = true
  hello : this.remotePayload.isSome = true → this.remoteHello.isSome = true
  payload : this.masterIkm ≠ [] → this.remotePayload.isSome = true
  identity : ∀ payload, this.remotePayload = some payload →
    payload.identityPublicKey = party.peer

/-- A side between calls that is not done. -/
structure Underway (party : Party) (this : MshAdpHandshake) : Prop extends Open party this where
  two : party.role = .responder → this.remoteHello.isSome = true →
    this.localKem.isSome = true → 2 ≤ this.transcript.length
  four : party.role = .responder → this.masterIkm ≠ [] → 4 ≤ this.transcript.length

structure Over (party : Party) (this : MshAdpHandshake) : Prop where
  side : this.role = party.role
  mine : this.identity.mlDsaPublicKey = party.me
  complete : this.complete = true
  begun : this.started = true
  signs : ∀ type body, (type, body) ∈ this.said → this.Signs type body
  signsLast : this.Signs this.lastType this.lastBody

structure Failed (party : Party) (this : MshAdpHandshake) : Prop extends Over party this where
  failed : ∃ error, this.outcomes = [.error error]

/-- What a call that says no Finished comes to. -/
def Goes (party : Party) (this after : MshAdpHandshake) : Prop :=
  after.Underway party ∧ Onward this after ∨ after.Failed party ∧ Grows this after

theorem Goes.grows {party : Party} {after : MshAdpHandshake} (goes : Goes party this after) :
    Grows this after := by
  rcases goes with ⟨_, onward⟩ | ⟨_, grows⟩
  · exact onward.said
  · exact grows

variable {party : Party} {type : MshMessageType} {body : Bytes}

theorem signs_other (client : type ≠ .clientPayload) (server : type ≠ .serverPayload) :
    this.Signs type body :=
  fun either => either.elim (fun same => absurd same client) fun same => absurd same server

theorem signs_of_encoded {local_ : MshPayload} (encoded : encodePayload type local_ = .ok body)
    (mine : local_.identityPublicKey = this.identity.mlDsaPublicKey) : this.Signs type body := by
  intro _ payload decoded
  rw [decodePayload_encode encoded] at decoded
  cases decoded
  exact mine

theorem buildLocalPayload_mine {kem : KemState} {remoteKemPk serverSs : Bytes} {coins : Coins}
    {local_ : MshPayload}
    (built : this.buildLocalPayload kem remoteKemPk coins = .ok (local_, serverSs)) :
    local_.identityPublicKey = this.identity.mlDsaPublicKey := by
  unfold buildLocalPayload at built
  split at built
  · cases built
  · obtain ⟨encap, _, built⟩ := bind_ok built
    obtain ⟨message, _, built⟩ := bind_ok built
    obtain ⟨signature, _, built⟩ := bind_ok built
    cases built
    rfl

theorem Open.fail (state : this.Open party) (begun : this.started = true) (message : String) :
    (this.fail message).1.Failed party where
  side := state.side
  mine := state.mine
  complete := rfl
  begun := begun
  signs := state.signs
  signsLast := state.signsLast
  failed := by
    refine ⟨message, ?_⟩
    show this.outcomes ++ [_] = _
    rw [state.outcomes]
    rfl

theorem Open.say (state : this.Open party) (signs : this.Signs type body)
    (send : Bytes → Except String Unit) : (this.sendMessage send type body).1.Open party := by
  obtain ⟨_, lastType, lastBody, _, said, after, last, listed⟩ :=
    this.sendMessage_keeps send type body
  rw [after]
  have signsLast : this.Signs lastType lastBody := by
    rcases last with ⟨_, rfl, rfl⟩ | ⟨_, rfl, rfl⟩
    · exact signs
    · exact state.signsLast
  have signed : ∀ type body, (type, body) ∈ said → this.Signs type body := by
    rcases listed with rfl | rfl
    · exact state.signs
    · exact said_append state.signs signs
  exact { state with signs := signed, signsLast := signsLast }

/-- A message that is no Finished. -/
theorem Underway.say (state : this.Underway party) (signs : this.Signs type body)
    (quiet : type ≠ .finished) (send : Bytes → Except String Unit) :
    (this.sendMessage send type body).1.Underway party ∧
      Onward this (this.sendMessage send type body).1 := by
  have opened := state.toOpen.say signs send
  obtain ⟨_, _, _, _, _, after, _, listed⟩ := this.sendMessage_keeps send type body
  rw [after] at opened ⊢
  have mute := fun mute : this.Mute => mute.say quiet body send
  rw [after] at mute
  exact ⟨{ opened with two := state.two, four := state.four }, rfl, Nat.le_refl _, mute,
    .listed listed⟩

theorem Underway.appendPart (state : this.Underway party) (wire : Bytes) :
    (this.appendPart wire).Underway party := by
  have size : (this.appendPart wire).transcript.length = this.transcript.length + 1 :=
    List.length_append
  refine { state with two := ?_, four := ?_ }
  · intro responder hello key
    have least := state.two responder hello key
    omega
  · intro responder filled
    have least := state.four responder filled
    omega

theorem Underway.takePayload (state : this.Underway party)
    (hello : this.remoteHello.isSome = true) {payload : MshPayload}
    (named : payload.identityPublicKey = party.peer) (body : Bytes) :
    (this.takePayload payload body).Underway party := by
  have took := state.appendPart body
  refine { took with hello := fun _ => hello, payload := fun _ => rfl, identity := ?_ }
  intro other same
  cases same
  exact named

/-- A secret is set with the payload that it is shared with. -/
theorem Underway.setMaster (state : this.Underway party)
    (payload : this.remotePayload.isSome = true)
    (long : party.role = .responder → 4 ≤ this.transcript.length) (master : Bytes) :
    (this.setMaster master).Underway party :=
  { state with payload := fun _ => payload, four := fun responder _ => long responder }

section Responding

/-- A call of the responder that answers no Finished either goes on or fails. -/
theorem Underway.onClientHello (state : this.Underway party) (send : Bytes → Except String Unit)
    (coins : Coins) (body : Bytes) : Goes party this (this.onClientHello send coins body).1 := by
  have begun : ({ this with started := true } : MshAdpHandshake).Open party :=
    { state with begun := fun _ => rfl }
  unfold MshAdpHandshake.onClientHello
  split
  · exact Or.inl ⟨state, Onward.refl this⟩
  · dsimp only
    split
    · exact Or.inr ⟨begun.fail rfl _, .same rfl⟩
    · rename_i parsed decoded
      have took : ({ this with started := true }.takeHello parsed body).Open party :=
        { state with begun := fun _ => rfl, hello := fun _ => rfl }
      split
      · exact Or.inr ⟨took.fail rfl _, .same rfl⟩
      · rename_i kem drawn
        have keyed : (({ this with started := true }.takeHello parsed body).setKem kem).Open party :=
          { took with }
        split
        · exact Or.inr ⟨keyed.fail rfl _, .same rfl⟩
        · rename_i serverHello encoded
          left
          have ready : ((({ this with started := true }.takeHello parsed body).setKem
              kem).appendPart serverHello).Underway party := by
            refine { keyed with two := ?_, four := ?_ }
            · intro _ _ _
              show 2 ≤ ((this.transcript ++ [body]) ++ [serverHello]).length
              simp
            · intro responder filled
              have least := state.four responder filled
              show 4 ≤ ((this.transcript ++ [body]) ++ [serverHello]).length
              simp only [List.length_append]
              omega
          have plain : ((({ this with started := true }.takeHello parsed body).setKem
              kem).appendPart serverHello).Signs .serverHello serverHello :=
            signs_other MshMessageType.noConfusion MshMessageType.noConfusion
          obtain ⟨said, onward⟩ := ready.say plain MshMessageType.noConfusion send
          refine ⟨said, Onward.trans ?_ onward⟩
          have grows := ((appendPart_onward this body).trans
            (appendPart_onward (this.appendPart body) serverHello)).grows
          exact ⟨rfl, grows, fun mute => ⟨mute.last, mute.said⟩, .same rfl⟩

/-- The responder's answer to a payload it has verified. -/
theorem Underway.answerPayload (state : this.Underway party)
    (payload : this.remotePayload.isSome = true)
    (long : party.role = .responder → 3 ≤ this.transcript.length)
    (send : Bytes → Except String Unit) (coins : Coins) (kem : KemState) (remoteHello : MshHello)
    (parsed : MshPayload) :
    Goes party this (this.answerPayload send coins kem remoteHello parsed).1 := by
  have begun := state.begun (state.hello payload)
  unfold MshAdpHandshake.answerPayload
  split
  · exact Or.inr ⟨state.toOpen.fail begun _, .same rfl⟩
  · split
    · exact Or.inr ⟨state.toOpen.fail begun _, .same rfl⟩
    · rename_i local_ serverSs built
      split
      · exact Or.inr ⟨state.toOpen.fail begun _, .same rfl⟩
      · rename_i serverPayload encoded
        have signed : (this.appendPart serverPayload).Signs .serverPayload serverPayload :=
          signs_of_encoded encoded (buildLocalPayload_mine built)
        have spoken := (state.appendPart serverPayload).say signed MshMessageType.noConfusion send
        obtain ⟨_, _, _, _, _, knows, _, _⟩ := (this.appendPart serverPayload).sendMessage_keeps
          send .serverPayload serverPayload
        have onward := appendPart_onward this serverPayload
        split
        · rename_i after error unsent
          rw [unsent] at spoken
          exact Or.inl ⟨spoken.1, onward.trans spoken.2⟩
        · rename_i after done said
          rw [said] at spoken knows
          dsimp only at knows
          have shares : after.remotePayload.isSome = true := by
            rw [knows]
            exact payload
          split
          · have begun : after.started = true := by
              rw [knows]
              exact begun
            exact Or.inr ⟨spoken.1.toOpen.fail begun _, spoken.2.said⟩
          · rename_i master _
            left
            refine ⟨spoken.1.setMaster shares ?_ master, onward.trans (spoken.2.trans ?_)⟩
            · intro responder
              have least := long responder
              rw [knows]
              show 4 ≤ (this.transcript ++ [serverPayload]).length
              rw [List.length_append]
              exact Nat.succ_le_succ least
            · exact ⟨rfl, Nat.le_refl _, fun mute => ⟨mute.last, mute.said⟩, .same rfl⟩

theorem Underway.onClientPayload (state : this.Underway party)
    (named : ∀ payload, decodePayload .clientPayload body = .ok payload →
      payload.identityPublicKey = party.peer) (send : Bytes → Except String Unit) (coins : Coins) :
    Goes party this (this.onClientPayload send coins body).1 := by
  unfold MshAdpHandshake.onClientPayload
  split
  · rename_i remoteHello kem hello key
    have hello : this.remoteHello.isSome = true := by rw [hello]; rfl
    have key : this.localKem.isSome = true := by rw [key]; rfl
    have begun := state.begun hello
    split
    · exact Or.inr ⟨state.toOpen.fail begun _, .same rfl⟩
    · rename_i parsed decoded
      split
      · exact Or.inr ⟨state.toOpen.fail begun _, .same rfl⟩
      · split
        · exact Or.inr ⟨state.toOpen.fail begun _, .same rfl⟩
        · have took := state.takePayload hello (named parsed decoded) body
          have onward := (appendPart_onward this body).grows
          have long : party.role = .responder →
              3 ≤ (this.takePayload parsed body).transcript.length := by
            intro responder
            have least := state.two responder hello key
            show 3 ≤ (this.transcript ++ [body]).length
            rw [List.length_append]
            exact Nat.succ_le_succ least
          rcases took.answerPayload rfl long send coins kem remoteHello parsed with
            ⟨state, after⟩ | failed
          · left
            refine ⟨state, Onward.trans ?_ after⟩
            exact ⟨rfl, onward, fun mute => ⟨mute.last, mute.said⟩, .same rfl⟩
          · exact Or.inr failed
  · exact Or.inl ⟨state, Onward.refl this⟩

theorem Underway.noteAnswered (state : this.Underway party) (type : MshMessageType)
    (body : Bytes) : (this.noteAnswered type body).Underway party ∧
      Onward this (this.noteAnswered type body) := by
  unfold MshAdpHandshake.noteAnswered
  split
  · exact ⟨{ state with }, rfl, Nat.le_refl _, fun mute => ⟨mute.last, mute.said⟩, .same rfl⟩
  · exact ⟨state, Onward.refl this⟩

theorem Underway.resend (state : this.Underway party) (send : Bytes → Except String Unit) :
    (this.resend send).1.Underway party ∧ Onward this (this.resend send).1 := by
  obtain ⟨_, said, after, listed⟩ := this.resend_spec send
  rw [after]
  have signs : ∀ type body, (type, body) ∈ said → this.Signs type body := by
    rcases listed with rfl | rfl
    · exact state.signs
    · exact said_append state.signs state.signsLast
  refine ⟨{ state with signs := signs }, rfl, Nat.le_refl _, ?_, .listed listed⟩
  intro mute
  refine ⟨mute.last, ?_⟩
  intro other
  show (.finished, other) ∉ said
  rcases listed with rfl | rfl
  · exact mute.said other
  · intro isSaid
    rcases List.mem_append.mp isSaid with before | same
    · exact mute.said other before
    · exact mute.last (Prod.mk.inj (List.mem_singleton.mp same)).1.symm

end Responding

end Sides

section Finishing

variable [Hkdf] [Hmac] [Sha256]

/-- No two of the secrets and transcripts give the same Finished. -/
def Apart (finishes : List (Bytes × List Bytes)) : Prop :=
  ∀ one ∈ finishes, ∀ two ∈ finishes, ∀ wire,
    MshHandshake.buildFinished one.1 one.2 = .ok wire →
      MshHandshake.buildFinished two.1 two.2 = .ok wire →
        one.1 = two.1 ∧ one.2.flatten = two.2.flatten

theorem apart_iff {finishes : List (Bytes × List Bytes)} : Apart finishes ↔
    ∀ one ∈ finishes, ∀ two ∈ finishes,
      (MshHandshake.buildFinished one.1 one.2).toOption.isSome = true →
        MshHandshake.buildFinished one.1 one.2 = MshHandshake.buildFinished two.1 two.2 →
          one.1 = two.1 ∧ one.2.flatten = two.2.flatten := by
  constructor
  · intro apart one first two second builds same
    cases built : MshHandshake.buildFinished one.1 one.2 with
    | error error =>
        rw [built] at builds
        cases builds
    | ok wire => exact apart one first two second wire built (same.symm.trans built)
  · intro apart one first two second wire built other
    apply apart one first two second
    · rw [built]
      rfl
    · rw [built, other]

instance (finishes : List (Bytes × List Bytes)) : Decidable (Apart finishes) :=
  decidable_of_iff' _ apart_iff

/-- The last part of a transcript is the Finished of what is before it. -/
structure Ends (this : MshAdpHandshake) (body : Bytes) (parts : List Bytes) : Prop where
  last : this.transcript = parts ++ [body]
  listed : (this.masterIkm, parts) ∈ this.finishes
  built : MshHandshake.buildFinished this.masterIkm parts = .ok body

/-- A Finished was taken, and the transcript has grown since. -/
structure Overtaken (this : MshAdpHandshake) (body : Bytes) (master : Bytes)
    (parts : List Bytes) : Prop where
  listed : (master, parts) ∈ this.finishes
  built : MshHandshake.buildFinished master parts = .ok body
  grown : parts.flatten.length < this.transcript.flatten.length

theorem Overtaken.onward {body master : Bytes} {parts : List Bytes}
    (overtaken : this.Overtaken body master parts) (onward : Onward this after) :
    after.Overtaken body master parts where
  listed := onward.finishes ▸ overtaken.listed
  built := overtaken.built
  grown := Nat.lt_of_lt_of_le overtaken.grown onward.grows

variable [MlKem] [MlDsa]

/-- What a side hands over when it is done. -/
structure Hands (party : Party) (this : MshAdpHandshake) (established : MshAdpEstablished) :
    Prop where
  material : SessionKeys.derive this.masterIkm (SessionKeys.transcriptHash this.transcript)
    (party.role == .initiator) 1 = .ok established.localMaterial
  masterIkm : established.masterIkm = this.masterIkm
  transcriptHash : established.transcriptHash = SessionKeys.transcriptHash this.transcript
  remoteIdentityPublicKey : established.remoteIdentityPublicKey = party.peer

/-- A side that is done and well: the initiator with a Finished it heard, the responder with
the one Finished that it said. -/
structure Made (party : Party) (heard : Bytes → Prop) (this : MshAdpHandshake) : Prop extends
    Over party this where
  made : ∃ established, this.outcomes = [.ok established] ∧ this.Hands party established
  hears : party.role = .initiator → ∃ body parts, heard body ∧ this.Ends body parts
  tells : party.role = .responder → ∀ body, (.finished, body) ∈ this.said →
    ∃ parts, this.Ends body parts

/-- Over a carrier, a responder may have taken a Finished without its own being sent. -/
def Spent (party : Party) (heard : Bytes → Prop) (this : MshAdpHandshake) : Prop :=
  party.chunked = false ∧ ∃ body master parts, heard body ∧ this.Overtaken body master parts

def Sound (party : Party) (heard : Bytes → Prop) (this : MshAdpHandshake) : Prop :=
  (this.Underway party ∧ (party.role = .responder → this.Mute ∨ this.Spent party heard)) ∨
    this.Failed party ∨ this.Made party heard

variable {party : Party} {heard : Bytes → Prop} {type : MshMessageType} {body : Bytes}

theorem Sound.side (sound : this.Sound party heard) : this.role = party.role := by
  rcases sound with ⟨state, _⟩ | failed | made
  · exact state.side
  · exact failed.side
  · exact made.side

theorem Sound.signed (sound : this.Sound party heard) (said : (type, body) ∈ this.said)
    (carries : type = .clientPayload ∨ type = .serverPayload) {payload : MshPayload}
    (decoded : decodePayload type body = .ok payload) :
    payload.identityPublicKey = party.me := by
  rcases sound with ⟨state, _⟩ | failed | made
  · exact (state.signs type body said carries payload decoded).trans state.mine
  · exact (failed.signs type body said carries payload decoded).trans failed.mine
  · exact (made.signs type body said carries payload decoded).trans made.mine

theorem Sound.once (sound : this.Sound party heard) : this.outcomes.length ≤ 1 := by
  rcases sound with ⟨state, _⟩ | failed | made
  · rw [state.outcomes]
    exact Nat.zero_le 1
  · obtain ⟨error, outcomes⟩ := failed.failed
    rw [outcomes]
    exact Nat.le_refl 1
  · obtain ⟨established, outcomes, _⟩ := made.made
    rw [outcomes]
    exact Nat.le_refl 1

/-- A side that hands over a session is done and well. -/
theorem Sound.made (sound : this.Sound party heard) {established : MshAdpEstablished}
    (handed : .ok established ∈ this.outcomes) :
    this.Made party heard ∧ this.Hands party established := by
  rcases sound with ⟨state, _⟩ | failed | made
  · rw [state.outcomes] at handed
    exact absurd handed List.not_mem_nil
  · obtain ⟨error, outcomes⟩ := failed.failed
    rw [outcomes] at handed
    cases List.mem_singleton.mp handed
  · obtain ⟨other, outcomes, hands⟩ := made.made
    rw [outcomes] at handed
    cases List.mem_singleton.mp handed
    exact ⟨made, hands⟩

theorem Sound.mono (sound : this.Sound party heard) {now : Bytes → Prop}
    (more : ∀ body, heard body → now body) : this.Sound party now := by
  rcases sound with ⟨state, responder⟩ | failed | made
  · refine Or.inl ⟨state, fun isResponder => ?_⟩
    rcases responder isResponder with mute | ⟨whole, body, master, parts, hears, overtaken⟩
    · exact Or.inl mute
    · exact Or.inr ⟨whole, body, master, parts, more body hears, overtaken⟩
  · exact Or.inr (Or.inl failed)
  · refine Or.inr (Or.inr { made with hears := ?_ })
    intro initiator
    obtain ⟨body, parts, hears, ends⟩ := made.hears initiator
    exact ⟨body, parts, more body hears, ends⟩

/-- What goes on goes on as it was. -/
theorem Goes.sound (goes : Goes party this after)
    (past : party.role = .responder → this.Mute ∨ this.Spent party heard) :
    after.Sound party heard := by
  rcases goes with ⟨state, onward⟩ | ⟨failed, _⟩
  · refine Or.inl ⟨state, fun responder => ?_⟩
    rcases past responder with mute | ⟨whole, body, master, parts, hears, overtaken⟩
    · exact Or.inl (onward.mute mute)
    · exact Or.inr ⟨whole, body, master, parts, hears, overtaken.onward onward⟩
  · exact Or.inr (Or.inl failed)

omit [Hmac] in
theorem Open.maybeComplete (state : this.Open party) (filled : this.masterIkm ≠ [])
    (full : 6 ≤ this.transcript.length) : this.maybeComplete.1.Failed party ∨
    ∃ established, this.maybeComplete.1 = this.completeWith (.ok established) ∧
      this.Hands party established := by
  have payload := state.payload filled
  obtain ⟨held, remote⟩ := Option.isSome_iff_exists.mp payload
  have goesOn : ¬ (this.complete || this.masterIkm.isEmpty ||
      decide (this.transcript.length < 6)) = true := by
    rw [state.complete, Bool.false_or, Bool.or_eq_true, not_or]
    exact ⟨fun blank => filled (List.isEmpty_iff.mp blank), by simpa using full⟩
  unfold MshAdpHandshake.maybeComplete
  rw [if_neg goesOn, state.side]
  dsimp only
  cases derived : SessionKeys.derive this.masterIkm (SessionKeys.transcriptHash this.transcript)
      (party.role == .initiator) 1 with
  | error error =>
      left
      exact state.fail (state.begun (state.hello payload)) error
  | ok material =>
      right
      refine ⟨_, rfl, derived, rfl, rfl, ?_⟩
      show (this.remotePayload.map MshPayload.identityPublicKey).getD [] = party.peer
      rw [remote]
      exact state.identity held remote

theorem Open.made (state : this.Open party) (filled : this.masterIkm ≠ [])
    (full : 6 ≤ this.transcript.length)
    (hears : party.role = .initiator → ∃ body parts, heard body ∧ this.Ends body parts)
    (tells : party.role = .responder → ∀ body, (.finished, body) ∈ this.said →
      ∃ parts, this.Ends body parts) :
    this.maybeComplete.1.Failed party ∨ this.maybeComplete.1.Made party heard := by
  rcases state.maybeComplete filled full with failed | ⟨established, after, hands⟩
  · exact Or.inl failed
  · right
    rw [after]
    have made : this.outcomes ++ [.ok established] = [.ok established] := by
      rw [state.outcomes]
      rfl
    constructor
    · exact ⟨state.side, state.mine, rfl, state.begun (state.hello (state.payload filled)),
        state.signs, state.signsLast⟩
    · exact ⟨established, made, { hands with }⟩
    · intro initiator
      obtain ⟨body, parts, isHeard, ends⟩ := hears initiator
      exact ⟨body, parts, isHeard, { ends with }⟩
    · intro responder body said
      obtain ⟨parts, ends⟩ := tells responder body said
      exact ⟨parts, { ends with }⟩

omit [MlKem] [MlDsa] in
theorem buildFinished_length {master wire : Bytes} {parts : List Bytes}
    (built : MshHandshake.buildFinished master parts = .ok wire) : 0 < wire.length := by
  obtain ⟨mac, _, rfl⟩ := MshHandshake.buildFinished_ok.mp built
  exact Nat.succ_pos _

omit [MlKem] [MlDsa] [Hmac] in
theorem maybeComplete_keeps : this.maybeComplete.1.finishes = this.finishes ∧
    this.maybeComplete.1.said = this.said := by
  unfold MshAdpHandshake.maybeComplete
  split
  · exact ⟨rfl, rfl⟩
  · dsimp only
    split
    · exact ⟨rfl, rfl⟩
    · exact ⟨rfl, rfl⟩

omit [MlKem] [MlDsa] [Hmac] in
theorem answerFinished_keeps (send : Bytes → Except String Unit) (finished : Bytes) :
    (this.answerFinished send finished).1.finishes = this.finishes ∧
      Grows this (this.answerFinished send finished).1 := by
  have grows : Grows this ((this.appendPart finished).sendMessage send .finished finished).1 :=
    sendMessage_grows (by rfl) send _ _
  obtain ⟨_, _, _, _, _, after, _, _⟩ :=
    (this.appendPart finished).sendMessage_keeps send .finished finished
  unfold MshAdpHandshake.answerFinished
  split
  · rename_i unsent
    rw [unsent] at after grows
    dsimp only at after
    refine ⟨?_, grows⟩
    rw [after]
    rfl
  · rename_i sent
    rw [sent] at after grows
    dsimp only at after
    refine ⟨?_, grows.trans (.same maybeComplete_keeps.2)⟩
    rw [maybeComplete_keeps.1, after]
    rfl

omit [MlKem] [MlDsa] in
/-- A Finished that is taken was checked over the transcript of before. -/
theorem onInitiatorFinished_listed (send : Bytes → Except String Unit)
    (filled : this.masterIkm ≠ []) :
    ∀ one ∈ this.finishes ++ [(this.masterIkm, this.transcript)],
      one ∈ (this.onInitiatorFinished send body).1.finishes := by
  intro one listed
  unfold MshAdpHandshake.onInitiatorFinished
  rw [if_neg filled]
  dsimp only
  have later : one ∈ ((this.noteFinish.appendPart body).noteFinish).finishes :=
    List.mem_append_left _ listed
  split
  · exact listed
  · split
    · exact later
    · rw [(answerFinished_keeps send _).1]
      exact later

omit [MlKem] [MlDsa] in
/-- A Finished is taken once: the transcript that it is checked over has grown. -/
theorem Spent.refuses (spent : this.Spent party heard) (hears : heard body)
    (only : party.chunked = false → ∀ one two, heard one → heard two → one = two)
    (apart : Apart (this.finishes ++ [(this.masterIkm, this.transcript)])) :
    MshHandshake.buildFinished this.masterIkm this.transcript ≠ .ok body := by
  intro built
  obtain ⟨whole, other, master, parts, isHeard, overtaken⟩ := spent
  obtain rfl : other = body := only whole other body isHeard hears
  have same := apart (master, parts) (List.mem_append_left _ overtaken.listed)
    (this.masterIkm, this.transcript) (List.mem_append_right _ (List.mem_singleton_self _)) other
    overtaken.built built
  have grown := overtaken.grown
  have equal : parts.flatten = this.transcript.flatten := same.2
  rw [equal] at grown
  exact absurd grown (Nat.lt_irrefl _)

/-- The responder's Finished goes out and it is done, or it waits to be resent. -/
theorem Underway.answerFinished (state : this.Underway party)
    (responder : party.role = .responder) (mute : this.Mute) (filled : this.masterIkm ≠ [])
    (long : 5 ≤ this.transcript.length)
    (listed : (this.masterIkm, this.transcript) ∈ this.finishes) {finished : Bytes}
    (built : MshHandshake.buildFinished this.masterIkm this.transcript = .ok finished)
    {master : Bytes} {parts : List Bytes} (overtaken : this.Overtaken body master parts)
    (hears : heard body) (send : Bytes → Except String Unit) :
    (this.answerFinished send finished).1.Sound party heard := by
  have plain : (this.appendPart finished).Signs .finished finished :=
    signs_other MshMessageType.noConfusion MshMessageType.noConfusion
  have appended := state.appendPart finished
  have grows := (appendPart_onward this finished).grows
  have six : 6 ≤ (this.appendPart finished).transcript.length := by
    show 6 ≤ (this.transcript ++ [finished]).length
    rw [List.length_append]
    exact Nat.succ_le_succ long
  have opened := appended.toOpen.say plain send
  unfold MshAdpHandshake.answerFinished
  obtain ⟨lastWire, lastType, lastBody, noted, last⟩ :=
    (this.appendPart finished).noted_keeps .finished finished
  obtain ⟨sent, said | ⟨error, failed⟩⟩ :=
    (this.appendPart finished).sendMessage_spec send .finished finished
  · rw [noted] at said
    rw [said] at opened ⊢
    right
    apply opened.made filled six
    · intro initiator
      rw [responder] at initiator
      cases initiator
    · intro _ other isSaid
      rcases List.mem_append.mp isSaid with before | same
      · exact absurd before (mute.said other)
      · have same := (Prod.mk.inj (List.mem_singleton.mp same)).2
        rw [same]
        exact ⟨this.transcript, rfl, listed, built⟩
  · rw [noted] at failed
    rw [failed] at opened ⊢
    left
    refine ⟨{ opened with two := appended.two, four := appended.four }, fun _ => ?_⟩
    rcases last with ⟨whole, _⟩ | ⟨_, same, _⟩
    · right
      have grown := Nat.lt_of_lt_of_le overtaken.grown grows
      exact ⟨state.wire ▸ whole, body, master, parts, hears, overtaken.listed, overtaken.built,
        grown⟩
    · left
      refine ⟨?_, mute.said⟩
      show lastType ≠ .finished
      rw [same]
      exact mute.last

theorem Underway.onInitiatorFinished (state : this.Underway party)
    (responder : party.role = .responder) (past : this.Mute ∨ this.Spent party heard)
    (hears : heard body)
    (only : party.chunked = false → ∀ one two, heard one → heard two → one = two)
    (send : Bytes → Except String Unit)
    (apart : Apart (this.onInitiatorFinished send body).1.finishes) :
    (this.onInitiatorFinished send body).1.Sound party heard ∧
      Grows this (this.onInitiatorFinished send body).1 := by
  by_cases filled : this.masterIkm = []
  · unfold MshAdpHandshake.onInitiatorFinished
    rw [if_pos filled]
    exact ⟨Or.inl ⟨state, fun _ => past⟩, .same rfl⟩
  · have checked : Apart (this.finishes ++ [(this.masterIkm, this.transcript)]) :=
      fun one first two second => apart one (onInitiatorFinished_listed send filled one first)
        two (onInitiatorFinished_listed send filled two second)
    have begun := state.begun (state.hello (state.payload filled))
    have noted : this.noteFinish.Open party := { state.toOpen with }
    unfold MshAdpHandshake.onInitiatorFinished
    rw [if_neg filled]
    dsimp only
    split
    · exact ⟨Or.inr (Or.inl (noted.fail begun _)), .same rfl⟩
    · rename_i verified
      have taken := MshHandshake.verifyFinished_iff.mp verified
      rcases past with mute | spent
      · have took : ((this.noteFinish.appendPart body).noteFinish).Underway party :=
          { state.appendPart body with }
        split
        · exact ⟨Or.inr (Or.inl (took.toOpen.fail begun _)), .same rfl⟩
        · rename_i finished built
          have five : 5 ≤ (this.transcript ++ [body]).length := by
            have least := state.four responder filled
            rw [List.length_append]
            exact Nat.succ_le_succ least
          have overtaken : ((this.noteFinish.appendPart body).noteFinish).Overtaken body
              this.masterIkm this.transcript := by
            refine ⟨?_, taken, ?_⟩
            · exact List.mem_append_left _ (List.mem_append_right _ (List.mem_singleton_self _))
            · have filled := buildFinished_length taken
              show _ < (this.transcript ++ [body]).flatten.length
              rw [List.flatten_append, List.length_append, List.flatten_singleton]
              omega
          have grows : Grows ((this.noteFinish.appendPart body).noteFinish) _ :=
            (answerFinished_keeps send finished).2
          refine ⟨?_, grows⟩
          apply took.answerFinished responder ⟨mute.last, mute.said⟩ filled five _ built overtaken
            hears
          exact List.mem_append_right _ (List.mem_singleton_self _)
      · exact absurd taken (spent.refuses hears only checked)

theorem Underway.respond (state : this.Underway party) (responder : party.role = .responder)
    (past : this.Mute ∨ this.Spent party heard)
    (named : type = .clientPayload → ∀ payload, decodePayload type body = .ok payload →
      payload.identityPublicKey = party.peer)
    (hears : type = .finished → heard body)
    (only : party.chunked = false → ∀ one two, heard one → heard two → one = two)
    (send : Bytes → Except String Unit) (coins : Coins)
    (apart : Apart (this.respond send coins type body).1.finishes) :
    (this.respond send coins type body).1.Sound party heard ∧
      Grows this (this.respond send coins type body).1 := by
  obtain ⟨noted, onward⟩ := state.noteAnswered type body
  have kept : (this.noteAnswered type body).Sound party heard :=
    Goes.sound (Or.inl ⟨noted, onward⟩) fun _ => past
  have grows : ∀ {after : MshAdpHandshake}, Goes party (this.noteAnswered type body) after →
      Grows this after := fun goes => onward.said.trans goes.grows
  have pastNoted : (this.noteAnswered type body).Mute ∨
      (this.noteAnswered type body).Spent party heard := by
    rcases past with mute | ⟨whole, other, master, parts, isHeard, overtaken⟩
    · exact Or.inl (onward.mute mute)
    · exact Or.inr ⟨whole, other, master, parts, isHeard, overtaken.onward onward⟩
  unfold MshAdpHandshake.respond at apart ⊢
  split at apart
  · rename_i repeats
    rw [if_pos repeats]
    exact ⟨Goes.sound (Or.inl (state.resend send)) fun _ => past, resend_grows this send⟩
  · rename_i new
    rw [if_neg new]
    dsimp only at apart ⊢
    cases type with
    | clientHello =>
        have goes := noted.onClientHello send coins body
        exact ⟨goes.sound fun _ => pastNoted, grows goes⟩
    | clientPayload =>
        have goes := noted.onClientPayload (named rfl) send coins
        exact ⟨goes.sound fun _ => pastNoted, grows goes⟩
    | finished =>
        obtain ⟨sound, more⟩ := noted.onInitiatorFinished responder pastNoted (hears rfl) only send
          apart
        exact ⟨sound, onward.said.trans more⟩
    | serverHello => exact ⟨kept, onward.said⟩
    | serverPayload => exact ⟨kept, onward.said⟩
    | unknown byte => exact ⟨kept, onward.said⟩

section Initiating

/-- What a call of the initiator comes to before it is done. -/
def Runs (party : Party) (this after : MshAdpHandshake) : Prop :=
  (after.Underway party ∨ after.Failed party) ∧ Grows this after

omit [Hkdf] [Hmac] [Sha256] in
theorem Underway.onServerHello (state : this.Underway party) (initiator : party.role = .initiator)
    (send : Bytes → Except String Unit) (coins : Coins) (body : Bytes) :
    Runs party this (this.onServerHello send coins body).1 := by
  have other : party.role ≠ .responder := by
    rw [initiator]
    exact Role.noConfusion
  unfold MshAdpHandshake.onServerHello
  split
  · exact ⟨Or.inl state, .same rfl⟩
  · split
    · exact ⟨Or.inl state, .same rfl⟩
    · rename_i started
      have begun : this.started = true := by
        rw [Bool.or_eq_true, not_or] at started
        simpa using started.1
      split
      · exact ⟨Or.inr (state.toOpen.fail begun _), .same rfl⟩
      · rename_i parsed decoded
        have took : (this.takeHello parsed body).Open party :=
          { state with begun := fun _ => begun, hello := fun _ => rfl }
        dsimp only
        split
        · exact ⟨Or.inr (took.fail begun _), .same rfl⟩
        · rename_i local_ clientSs built
          have shared : ({ this.takeHello parsed body with clientSs := clientSs } :
              MshAdpHandshake).Open party := { took with }
          split
          · exact ⟨Or.inr (shared.fail begun _), .same rfl⟩
          · rename_i clientPayload encoded
            refine ⟨Or.inl ?_, sendMessage_grows (by rfl) send _ _⟩
            have ready : ({ this.takeHello parsed body with clientSs := clientSs }.appendPart
                clientPayload).Underway party :=
              { shared with
                two := fun responder => absurd responder other
                four := fun responder => absurd responder other }
            have signed : ({ this.takeHello parsed body with clientSs := clientSs }.appendPart
                clientPayload).Signs .clientPayload clientPayload :=
              signs_of_encoded encoded (buildLocalPayload_mine built)
            exact (ready.say signed MshMessageType.noConfusion send).1

theorem Underway.finishPayload (state : this.Underway party)
    (initiator : party.role = .initiator) (payload : this.remotePayload.isSome = true)
    (send : Bytes → Except String Unit) (parsed : MshPayload) :
    Runs party this (this.finishPayload send parsed).1 := by
  have begun := state.begun (state.hello payload)
  have other : party.role ≠ .responder := by
    rw [initiator]
    exact Role.noConfusion
  unfold MshAdpHandshake.finishPayload
  dsimp only
  split
  · exact ⟨Or.inr (state.toOpen.fail begun _), .same rfl⟩
  · split
    · exact ⟨Or.inr (state.toOpen.fail begun _), .same rfl⟩
    · rename_i master _
      have shared : ((this.setMaster master).noteFinish).Open party :=
        { state.setMaster payload (fun responder => absurd responder other) master with }
      split
      · exact ⟨Or.inr (shared.fail begun _), .same rfl⟩
      · rename_i finished _
        refine ⟨Or.inl ?_, sendMessage_grows (by rfl) send _ _⟩
        have ready : (((this.setMaster master).noteFinish).appendPart finished).Open party :=
          { shared with }
        have plain : (((this.setMaster master).noteFinish).appendPart finished).Signs
            .finished finished :=
          signs_other MshMessageType.noConfusion MshMessageType.noConfusion
        exact { ready.say plain send with
          two := fun responder => absurd responder other
          four := fun responder => absurd responder other }

theorem Underway.onServerPayload (state : this.Underway party)
    (initiator : party.role = .initiator)
    (named : ∀ payload, decodePayload .serverPayload body = .ok payload →
      payload.identityPublicKey = party.peer) (send : Bytes → Except String Unit) :
    Runs party this (this.onServerPayload send body).1 := by
  unfold MshAdpHandshake.onServerPayload
  split
  · exact ⟨Or.inl state, .same rfl⟩
  · split
    · exact ⟨Or.inl state, .same rfl⟩
    · rename_i remoteHello hello
      have hello : this.remoteHello.isSome = true := by rw [hello]; rfl
      have begun := state.begun hello
      split
      · exact ⟨Or.inl state, .same rfl⟩
      · split
        · exact ⟨Or.inr (state.toOpen.fail begun _), .same rfl⟩
        · rename_i parsed decoded
          split
          · exact ⟨Or.inr (state.toOpen.fail begun _), .same rfl⟩
          · split
            · exact ⟨Or.inr (state.toOpen.fail begun _), .same rfl⟩
            · have took := state.takePayload hello (named parsed decoded) body
              exact took.finishPayload initiator rfl send parsed

theorem Underway.onResponderFinished (state : this.Underway party)
    (initiator : party.role = .initiator) (hears : heard body) :
    (this.onResponderFinished body).1.Sound party heard ∧
      Grows this (this.onResponderFinished body).1 := by
  have other : party.role ≠ .responder := by
    rw [initiator]
    exact Role.noConfusion
  unfold MshAdpHandshake.onResponderFinished
  split
  · exact ⟨Or.inl ⟨state, fun responder => absurd responder other⟩, .same rfl⟩
  · rename_i filled
    have begun := state.begun (state.hello (state.payload filled))
    have noted : this.noteFinish.Underway party := { state with }
    dsimp only
    split
    · exact ⟨Or.inr (Or.inl (noted.toOpen.fail begun _)), .same rfl⟩
    · rename_i verified
      refine ⟨?_, .same maybeComplete_keeps.2⟩
      have took := noted.appendPart body
      by_cases full : 6 ≤ (this.noteFinish.appendPart body).transcript.length
      · right
        apply took.toOpen.made filled full
        · intro _
          refine ⟨body, this.transcript, hears, rfl, ?_, MshHandshake.verifyFinished_iff.mp verified⟩
          exact List.mem_append_right _ (List.mem_singleton_self _)
        · exact fun responder => absurd responder other
      · left
        refine ⟨?_, fun responder => absurd responder other⟩
        unfold MshAdpHandshake.maybeComplete
        rw [if_pos]
        · exact took
        · rw [Bool.or_eq_true]
          exact Or.inr (by simpa using full)

theorem Underway.initiate (state : this.Underway party) (initiator : party.role = .initiator)
    (named : type = .serverPayload → ∀ payload, decodePayload type body = .ok payload →
      payload.identityPublicKey = party.peer)
    (hears : type = .finished → heard body)
    (send : Bytes → Except String Unit) (coins : Coins) :
    (this.initiate send coins type body).1.Sound party heard ∧
      Grows this (this.initiate send coins type body).1 := by
  have sound : ∀ {after : MshAdpHandshake}, Runs party this after →
      after.Sound party heard ∧ Grows this after := by
    rintro after ⟨state | failed, grows⟩
    · refine ⟨Or.inl ⟨state, fun responder => ?_⟩, grows⟩
      rw [initiator] at responder
      cases responder
    · exact ⟨Or.inr (Or.inl failed), grows⟩
  unfold MshAdpHandshake.initiate
  cases type with
  | serverHello => exact sound (state.onServerHello initiator send coins body)
  | serverPayload => exact sound (state.onServerPayload initiator (named rfl) send)
  | finished => exact state.onResponderFinished initiator (hears rfl)
  | clientHello => exact sound ⟨Or.inl state, .same rfl⟩
  | clientPayload => exact sound ⟨Or.inl state, .same rfl⟩
  | unknown byte => exact sound ⟨Or.inl state, .same rfl⟩

theorem Sound.start (sound : this.Sound party heard) (initiator : party.role = .initiator)
    (send : Bytes → Except String Unit) (coins : Coins) :
    (this.start send coins).1.Sound party heard ∧ Grows this (this.start send coins).1 := by
  have other : party.role ≠ .responder := by
    rw [initiator]
    exact Role.noConfusion
  unfold MshAdpHandshake.start
  split
  · exact ⟨sound, .same rfl⟩
  · split
    · exact ⟨sound, .same rfl⟩
    · rename_i fresh
      rcases sound with ⟨state, _⟩ | failed | made
      · have begun : ({ this with started := true } : MshAdpHandshake).Open party :=
          { state with begun := fun _ => rfl }
        dsimp only
        split
        · exact ⟨Or.inr (Or.inl (begun.fail rfl _)), .same rfl⟩
        · rename_i kem drawn
          have keyed : ({ this with started := true }.setKem kem).Open party := { begun with }
          split
          · exact ⟨Or.inr (Or.inl (keyed.fail rfl _)), .same rfl⟩
          · rename_i hello encoded
            refine ⟨Or.inl ?_, sendMessage_grows (by rfl) send _ _⟩
            have ready : (({ this with started := true }.setKem kem).appendPart hello).Underway
                party :=
              { keyed with
                two := fun responder => absurd responder other
                four := fun responder => absurd responder other }
            have plain : (({ this with started := true }.setKem kem).appendPart hello).Signs
                .clientHello hello :=
              signs_other MshMessageType.noConfusion MshMessageType.noConfusion
            exact ⟨(ready.say plain MshMessageType.noConfusion send).1,
              fun responder => absurd responder other⟩
      · exact absurd failed.begun fresh
      · exact absurd made.begun fresh

theorem Sound.resend (sound : this.Sound party heard) (initiator : party.role = .initiator)
    (send : Bytes → Except String Unit) : (this.resend send).1.Sound party heard := by
  have other : party.role ≠ .responder := by
    rw [initiator]
    exact Role.noConfusion
  have signs : this.Signs this.lastType this.lastBody →
      (∀ type body, (type, body) ∈ this.said → this.Signs type body) →
      ∀ said, said = this.said ∨ said = this.said ++ [(this.lastType, this.lastBody)] →
        ∀ type body, (type, body) ∈ said → this.Signs type body := by
    rintro last all said (rfl | rfl)
    · exact all
    · exact said_append all last
  rcases sound with ⟨state, _⟩ | failed | made
  · exact Or.inl ⟨(state.resend send).1, fun responder => absurd responder other⟩
  · obtain ⟨_, said, after, listed⟩ := this.resend_spec send
    rw [after]
    exact Or.inr (Or.inl
      { failed with signs := signs failed.signsLast failed.signs said listed })
  · obtain ⟨_, said, after, listed⟩ := this.resend_spec send
    rw [after]
    right
    right
    obtain ⟨past, ⟨established, outcomes, hands⟩, hears, _⟩ := made
    refine ⟨{ past with signs := signs past.signsLast past.signs said listed },
      ⟨established, outcomes, { hands with }⟩, ?_, fun responder => absurd responder other⟩
    intro initiator
    obtain ⟨body, parts, isHeard, ends⟩ := hears initiator
    exact ⟨body, parts, isHeard, { ends with }⟩

end Initiating

theorem Sound.handleMsh (sound : this.Sound party heard)
    (named : (type = .clientPayload ∨ type = .serverPayload) → ∀ payload,
      decodePayload type body = .ok payload → payload.identityPublicKey = party.peer)
    (hears : type = .finished → heard body)
    (only : party.role = .responder → party.chunked = false →
      ∀ one two, heard one → heard two → one = two)
    (send : Bytes → Except String Unit) (coins : Coins)
    (apart : Apart (this.handleMsh send coins type body).1.finishes) :
    (this.handleMsh send coins type body).1.Sound party heard ∧
      Grows this (this.handleMsh send coins type body).1 := by
  unfold MshAdpHandshake.handleMsh at apart ⊢
  split
  · exact ⟨sound, .same rfl⟩
  · rename_i goesOn
    rw [if_neg goesOn] at apart
    rcases sound with ⟨state, past⟩ | failed | made
    · have side := state.side
      cases role : party.role with
      | responder =>
          rw [side, role] at apart ⊢
          exact state.respond role (past role) (fun same => named (Or.inl same)) hears
            (only role) send coins apart
      | initiator =>
          rw [side, role]
          exact state.initiate role (fun same => named (Or.inr same)) hears send coins
    · exact absurd failed.complete goesOn
    · exact absurd made.complete goesOn

end Finishing

end MshAdpHandshake

end Amp
