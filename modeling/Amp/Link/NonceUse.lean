import Amp.L1.Ledger
import Amp.L1.Sample
import Amp.L2.SessionEpochs
import Amp.Link.CarrierLink

set_option autoImplicit false

/- What a link seals under its session through resends and rekeys, over ADP and over a
carrier: a nonce stands for one packet. -/
namespace Amp

open Adp (Bytes Connection EndpointPort Hmac Ledger OpenParams PacketProtection PacketSpace PacketType QosClass
  SealCall spaceOf)
open SessionKeys (outDirection)

/-- The session of one end. Rekeys leave it its side. -/
structure EndSession (initiator : Bool) where
  session : Session
  side : session.material.initiator = initiator

section Sides

variable [Hkdf]

theorem Session.refresh_initiator (session : Session) :
    session.refresh.1.material.initiator = session.material.initiator := by
  unfold refresh
  split <;> rfl

theorem Session.step_initiator (session : Session) (call : Session.Call) :
    (session.step call).material.initiator = session.material.initiator := by
  cases call with
  | rekey =>
      have kept := refresh_initiator { session with
        material := { session.material with sessionEpoch := session.material.sessionEpoch + 1 } }
      show session.rekey.1.material.initiator = session.material.initiator
      unfold rekey
      dsimp only
      split
      · rename_i after error failed
        rw [failed] at kept
        exact kept
      · rename_i after done
        rw [done] at kept
        exact kept
  | applyRekey targetEpoch nowMs =>
      show (session.applyRekey targetEpoch nowMs).1.material.initiator = session.material.initiator
      unfold applyRekey
      split
      · rfl
      · exact refresh_initiator _

def EndSession.step {initiator : Bool} (this : EndSession initiator) (call : Session.Call) :
    EndSession initiator where
  session := this.session.step call
  side := (this.session.step_initiator call).trans this.side

end Sides

instance {initiator : Bool} [Aead] : PacketProtection (EndSession initiator) where
  sealPacket this := PacketProtection.sealPacket this.session
  openPacket this := PacketProtection.openPacket this.session

/-- The nonce `SessionCrypto::SealPacket` derives for a call. -/
def nonceOf {initiator : Bool} (call : SealCall (EndSession initiator)) : Bytes :=
  SessionCrypto.packetNonce (outDirection call.protection.session.material.initiator) call.space
    call.protection.session.material.sessionEpoch (UInt32.ofNat call.number)

/-- A number of a space stands for one packet. -/
structure NumbersOnce {π : Type} (calls : List (SealCall π)) : Prop where
  fits : ∀ call ∈ calls, call.number < 2 ^ 32
  once : ∀ one ∈ calls, ∀ two ∈ calls, one.space = two.space → one.number = two.number →
    one.header = two.header ∧ one.plaintext = two.plaintext

/-- Calls with one nonce seal the same header and plaintext, under whatever keys. -/
def NoncesOnce {initiator : Bool} (calls : List (SealCall (EndSession initiator))) : Prop :=
  ∀ one ∈ calls, ∀ two ∈ calls, nonceOf one = nonceOf two →
    one.header = two.header ∧ one.plaintext = two.plaintext

theorem NumbersOnce.nonces {initiator : Bool} {calls : List (SealCall (EndSession initiator))}
    (numbers : NumbersOnce calls) : NoncesOnce calls := by
  intro one first two second same
  obtain ⟨_, space, _, number⟩ := SessionCrypto.packetNonce_injective same
  apply numbers.once one first two second space
  have words := congrArg UInt32.toNat number
  rw [UInt32.toNat_ofNat_of_lt' (numbers.fits one first),
    UInt32.toNat_ofNat_of_lt' (numbers.fits two second)] at words
  exact words

/-- The two ends of a session never share a nonce. -/
theorem nonceOf_ne (one : SealCall (EndSession true)) (two : SealCall (EndSession false)) :
    nonceOf one ≠ nonceOf two := by
  intro same
  obtain ⟨towards, _⟩ := SessionCrypto.packetNonce_injective same
  rw [one.protection.side, two.protection.side] at towards
  exact absurd towards (by decide)

namespace Adp.Ledger

variable {π : Type} {ledger : Ledger π}

/-- The payloads that a sealed type's numbers stand for. -/
def payloadsOf (ledger : Ledger π) (type : PacketType) : List Bytes :=
  if type = .dataReliable then ledger.taken else ledger.takenBe

theorem spaceOf_injective {one two : PacketType} (first : one.isSealed = true)
    (second : two.isSealed = true) (same : spaceOf one = spaceOf two) : one = two := by
  cases one <;> cases two <;> first
    | rfl
    | exact absurd first (by decide)
    | exact absurd second (by decide)
    | exact absurd same (by decide)

variable [PacketProtection π] [Hmac]

/-- What a sound ledger has sealed is its own packet of that number. -/
theorem Sound.sealed (sound : ledger.Sound True) {call : SealCall π}
    (listed : call ∈ ledger.seals) : ∃ type : PacketType, type.isSealed = true ∧
      call.space = spaceOf type ∧
      call.header = WireCodec.encodeSealedHeader ⟨type, ledger.id, call.number⟩ ∧
      0 < call.number ∧ (ledger.payloadsOf type)[call.number - 1]? = some call.plaintext := by
  obtain ⟨type, seq, payload, sealing, numbered⟩ := sound.calls call listed
  have number := sealing.number
  have plaintext := sealing.plaintext
  subst number plaintext
  refine ⟨type, sealing.sealing, sealing.space, sealing.header, ?_⟩
  cases type with
  | dataReliable => exact numbered
  | dataBestEffort => exact numbered
  | _ => cases sealing.sealing

theorem Sound.numbersOnce (sound : ledger.Sound True) : NumbersOnce ledger.seals where
  fits call listed := by
    obtain ⟨type, _, _, _, positive, held⟩ := sound.sealed listed
    have within := (List.getElem?_eq_some_iff.mp held).1
    have most : (ledger.payloadsOf type).length ≤ kSeqMax := by
      unfold payloadsOf
      split
      · exact sound.count ▸ sound.limit
      · exact sound.countBe ▸ sound.limitBe
    unfold kSeqMax at most
    omega
  once one first two second space number := by
    obtain ⟨type, sealing, spaced, header, _, held⟩ := sound.sealed first
    obtain ⟨other, alike, placed, otherHeader, _, kept⟩ := sound.sealed second
    have same : type = other := by
      apply spaceOf_injective sealing alike
      rw [← spaced, ← placed, space]
    subst same
    rw [← number] at otherHeader kept
    rw [held] at kept
    exact ⟨header.trans otherHeader.symm, Option.some.inj kept⟩

end Adp.Ledger

namespace CarrierLink

variable {π : Type} [PacketProtection π]

/-- The call of `SealPacket` that a call of the link comes to. -/
def sealCalls (link : CarrierLink π) : Event → List (SealCall π)
  | .transmit qos frame _ =>
      let reliable := qos == .reliable
      match link.session with
      | none => []
      | some session =>
          if link.nextNumber reliable = 2 ^ 32 then []
          else [⟨session, carrierSpace reliable, link.nextNumber reliable,
            AmpAdpCarrier.encodeSealedHeader reliable (link.nextNumber reliable), frame⟩]
  | _ => []

/-- The last number given in a space. -/
def counter (link : CarrierLink π) (reliable : Bool) : Nat :=
  if reliable then link.carrierTxRel else link.carrierTxBe

variable {link : CarrierLink π} {calls : List (SealCall π)}

/-- Any frame that is sealed next goes out as what the recorded call makes of it. -/
def Records (link : CarrierLink π) : Prop :=
  ∀ (qos : QosClass) (frame wire : Bytes) (now : Int),
    (link.sealCarrierFrame (qos == .reliable) frame).2 = .ok wire →
    ∃ call body, link.sealCalls (.transmit qos frame now) = [call] ∧ wire = call.header ++ body ∧
      PacketProtection.sealPacket call.protection call.space call.number call.header
        call.plaintext = .ok body

theorem sealCarrierFrame_calls (link : CarrierLink π) : link.Records := by
  intro qos frame wire now sealed
  unfold sealCarrierFrame at sealed
  unfold sealCalls
  cases held : link.session with
  | none =>
      rw [held] at sealed
      cases sealed
  | some session =>
      rw [held] at sealed
      dsimp only at sealed ⊢
      by_cases spent : link.nextNumber (qos == .reliable) = 2 ^ 32
      · rw [if_pos spent] at sealed
        cases sealed
      · rw [if_neg spent] at sealed ⊢
        split at sealed
        · cases sealed
        · rename_i body done
          cases sealed
          exact ⟨_, body, rfl, rfl, done⟩

/-- Numbers in use are no higher than the counter of their space. -/
structure Counted (link : CarrierLink π) (calls : List (SealCall π)) : Prop where
  fits : ∀ reliable, link.counter reliable < 2 ^ 32
  spaced : ∀ call ∈ calls, ∃ reliable, call.space = carrierSpace reliable ∧
    call.number ≤ link.counter reliable
  once : ∀ one ∈ calls, ∀ two ∈ calls, one.space = two.space → one.number = two.number → one = two

omit [PacketProtection π] in
theorem takeNumber_counter (reliable other : Bool) : (link.takeNumber reliable).counter other =
    link.counter other + if reliable = other then 1 else 0 := by
  cases reliable <;> cases other <;> rfl

omit [PacketProtection π] in
theorem ride_counter (number : Nat) (frame wire : Bytes) (now : Int) (reliable : Bool) :
    (link.ride number frame wire now).counter reliable = link.counter reliable := by
  unfold ride
  split <;> rfl

theorem deliverSealedCarrierWire_counter (now : Int) (wire : Bytes) (reliable : Bool) :
    (link.deliverSealedCarrierWire now wire).counter reliable = link.counter reliable := by
  unfold deliverSealedCarrierWire
  split
  · rfl
  · rfl
  · split
    · rfl
    · split
      · rfl
      · unfold deliverFrame acceptNumber
        split <;> split <;> rfl

theorem flushLaneBacklog_counter (now : Int) (reliable : Bool) :
    (link.flushLaneBacklog now).counter reliable = link.counter reliable := by
  have flushed : ∀ (wires : List Bytes) (link : CarrierLink π),
      (wires.foldl (fun link wire => link.deliverSealedCarrierWire now wire) link).counter reliable =
        link.counter reliable := by
    intro wires
    induction wires with
    | nil => exact fun _ => rfl
    | cons wire rest ih =>
        intro link
        rw [List.foldl_cons, ih, deliverSealedCarrierWire_counter]
  unfold flushLaneBacklog
  split
  · rfl
  · exact flushed _ _

theorem handleCarrierFrame_counter (payload : Bytes) (now : Int) (reliable : Bool) :
    (link.handleCarrierFrame payload now).counter reliable = link.counter reliable := by
  unfold handleCarrierFrame
  split
  · unfold handleLaneFrame
    split
    · rfl
    · exact flushLaneBacklog_counter now reliable
  · split
    · exact deliverSealedCarrierWire_counter now payload reliable
    · rfl

/-- A call of the link takes the next number of one space, or none. -/
structure Takes (before after : CarrierLink π) (call : SealCall π) (reliable : Bool) :
    Prop where
  space : call.space = carrierSpace reliable
  number : call.number = before.counter reliable + 1
  fits : call.number < 2 ^ 32
  counter : ∀ other, after.counter other = before.counter other + if reliable = other then 1 else 0

theorem transmit_takes (fits : ∀ reliable, link.counter reliable < 2 ^ 32) (qos : QosClass)
    (frame : Bytes) (now : Int) :
    (link.sealCalls (.transmit qos frame now) = [] ∧
      ∀ reliable, (link.transmit qos frame now).counter reliable = link.counter reliable) ∨
    ∃ call reliable, link.sealCalls (.transmit qos frame now) = [call] ∧
      Takes link (link.transmit qos frame now) call reliable := by
  unfold sealCalls transmit sealCarrierFrame
  cases held : link.session with
  | none => exact .inl ⟨rfl, fun _ => rfl⟩
  | some session =>
      dsimp only
      by_cases spent : link.nextNumber (qos == .reliable) = 2 ^ 32
      · rw [if_pos spent, if_pos spent]
        exact .inl ⟨rfl, fun _ => rfl⟩
      · rw [if_neg spent, if_neg spent]
        have next : link.nextNumber (qos == .reliable) = link.counter (qos == .reliable) + 1 := rfl
        refine .inr ⟨_, qos == .reliable, rfl, rfl, next, ?_, ?_⟩
        · have below := fits (qos == .reliable)
          show link.nextNumber (qos == .reliable) < 2 ^ 32
          omega
        · intro other
          rw [← takeNumber_counter]
          split
          · rename_i failed
            split at failed
            · cases failed
              rfl
            · cases failed
          · rename_i done
            split at done
            · cases done
            · cases done
              split
              · exact ride_counter _ _ _ _ other
              · rfl

theorem step_takes (fits : ∀ reliable, link.counter reliable < 2 ^ 32) (event : Event) :
    (link.sealCalls event = [] ∧
      ∀ reliable, (link.step event).counter reliable = link.counter reliable) ∨
    ∃ call reliable, link.sealCalls event = [call] ∧ Takes link (link.step event) call reliable := by
  cases event with
  | transmit qos frame now => exact transmit_takes fits qos frame now
  | probe => exact .inl ⟨rfl, fun _ => rfl⟩
  | tick now =>
      refine .inl ⟨rfl, fun _ => ?_⟩
      show (link.tickCarrierLane now).counter _ = _
      unfold tickCarrierLane
      split <;> rfl
  | establish outcome now =>
      refine .inl ⟨rfl, fun reliable => ?_⟩
      show (if link.phase ≠ .handshaking then link else link.finishEstablishment outcome now).counter
        reliable = _
      split
      · rfl
      · cases outcome with
        | accepted => exact flushLaneBacklog_counter now reliable
        | noSession | noBudget | refused => rfl
  | stop => exact .inl ⟨rfl, fun _ => rfl⟩
  | receive payload now => exact .inl ⟨rfl, handleCarrierFrame_counter payload now⟩

omit [PacketProtection π] in
theorem carrierSpace_injective {one two : Bool} (same : carrierSpace one = carrierSpace two) :
    one = two := by
  cases one <;> cases two <;> first | rfl | exact absurd same (by decide)

theorem Counted.step (counted : Counted link calls) (event : Event) :
    Counted (link.step event) (calls ++ link.sealCalls event) := by
  rcases step_takes counted.fits event with ⟨none, still⟩ | ⟨call, reliable, made, takes⟩
  · rw [none, List.append_nil]
    constructor
    · intro reliable
      rw [still]
      exact counted.fits reliable
    · intro call listed
      obtain ⟨reliable, space, most⟩ := counted.spaced call listed
      exact ⟨reliable, space, still reliable ▸ most⟩
    · exact counted.once
  · -- The new number is beyond all that its space has used.
    have beyond : ∀ old ∈ calls, old.space = call.space → old.number < call.number := by
      intro old listed space
      obtain ⟨other, spaced, most⟩ := counted.spaced old listed
      have same : other = reliable := by
        apply carrierSpace_injective
        rw [← spaced, space, takes.space]
      rw [takes.number, ← same]
      exact Nat.lt_succ_of_le most
    rw [made]
    constructor
    · intro other
      have before := counted.fits other
      have number := takes.number
      have below := takes.fits
      rw [takes.counter]
      by_cases same : reliable = other
      · rw [if_pos same, ← same]
        omega
      · rw [if_neg same]
        omega
    · intro old listed
      rcases List.mem_append.mp listed with before | new
      · obtain ⟨other, space, most⟩ := counted.spaced old before
        refine ⟨other, space, ?_⟩
        rw [takes.counter]
        omega
      · rw [List.mem_singleton.mp new]
        refine ⟨reliable, takes.space, ?_⟩
        rw [takes.counter, if_pos rfl, takes.number]
    · intro one first two second space number
      rcases List.mem_append.mp first with before | new
      · rcases List.mem_append.mp second with old | latest
        · exact counted.once one before two old space number
        · rw [List.mem_singleton.mp latest] at space number
          have less := beyond one before space
          omega
      · rw [List.mem_singleton.mp new] at space number ⊢
        rcases List.mem_append.mp second with old | latest
        · have less := beyond two old space.symm
          omega
        · exact (List.mem_singleton.mp latest).symm

omit [PacketProtection π] in
theorem Counted.numbers (counted : Counted link calls) : NumbersOnce calls where
  fits call listed := by
    obtain ⟨reliable, _, most⟩ := counted.spaced call listed
    exact Nat.lt_of_le_of_lt most (counted.fits reliable)
  once one first two second space number := by
    rw [counted.once one first two second space number]
    exact ⟨rfl, rfl⟩

end CarrierLink

section Sealing

variable [Aead] [Hkdf] [Hmac] {initiator : Bool}

/-- A link and what it has sealed. -/
inductive SealingLink (initiator : Bool) where
  | adp (connection : Connection (EndSession initiator))
  /-- Over a carrier, with the trace of its calls of `SealPacket`. -/
  | carrier (link : CarrierLink (EndSession initiator)) (calls : List (SealCall (EndSession initiator)))

namespace SealingLink

inductive Event (initiator : Bool) where
  | connection (event : Connection.Event (EndSession initiator))
  | carrier (event : CarrierLink.Event)
  /-- The link's session is rekeyed, by this end or at the other's request. -/
  | rekey (call : Session.Call)

def step : SealingLink initiator → Event initiator → SealingLink initiator
  | .adp connection, .connection event => .adp (connection.step event)
  | .adp connection, .rekey call =>
      .adp { connection with protection := connection.protection.map fun session => session.step call }
  | .carrier link calls, .carrier event => .carrier (link.step event) (calls ++ link.sealCalls event)
  | .carrier link calls, .rekey call =>
      .carrier { link with session := link.session.map fun session => session.step call } calls
  | link, _ => link

def calls : SealingLink initiator → List (SealCall (EndSession initiator))
  | .adp connection => connection.seals
  | .carrier _ calls => calls

/-- The trace of a carrier is of what goes out; an ADP connection writes its own where it
seals. -/
def Records : SealingLink initiator → Prop
  | .adp _ => True
  | .carrier link _ => link.Records

/-- How a link comes about. -/
inductive Opening (initiator : Bool) where
  | adp (endpoint : EndpointPort) (params : OpenParams)
  | carrier (keys : EndSession initiator) (lane : LaneEnd)

def create : Opening initiator → SealingLink initiator
  | .adp endpoint params => .adp (.create endpoint params)
  | .carrier keys lane => .carrier { keys := keys, lane := lane } []

section Runs

/-- What carries the numbers of a link. -/
def Sound : SealingLink initiator → Prop
  | .adp connection => connection.ledger.Sound True
  | .carrier link calls => link.Counted calls

theorem step_sound {this : SealingLink initiator} (sound : this.Sound) (event : Event initiator) :
    (this.step event).Sound := by
  cases this with
  | adp connection =>
      cases event with
      | connection event => exact Connection.step_sound sound event (.inl trivial)
      | carrier event => exact sound
      | rekey call => exact sound
  | carrier link calls =>
      cases event with
      | connection event => exact sound
      | carrier event => exact CarrierLink.Counted.step sound event
      | rekey call => exact ⟨sound.fits, sound.spaced, sound.once⟩

omit [Hkdf] in
theorem create_sound (opening : Opening initiator) : (create opening).Sound := by
  cases opening with
  | adp endpoint params => exact Connection.create_sound endpoint params
  | carrier keys lane =>
      constructor
      · intro reliable
        cases reliable <;> exact Nat.two_pow_pos 32
      · exact fun _ none => absurd none List.not_mem_nil
      · exact fun _ none => absurd none List.not_mem_nil

theorem run_sound (opening : Opening initiator) (events : List (Event initiator)) :
    (Run.exec step (create opening) events).Sound :=
  Run.invariant_always step Sound (fun _ event sound => step_sound sound event) events _
    (create_sound opening)

omit [Hkdf] in
theorem Sound.numbers {this : SealingLink initiator} (sound : this.Sound) : NumbersOnce this.calls := by
  cases this with
  | adp connection => exact sound.numbersOnce
  | carrier link calls => exact CarrierLink.Counted.numbers sound

omit [Hkdf] [Hmac] in
theorem records (this : SealingLink initiator) : this.Records := by
  cases this with
  | adp connection => trivial
  | carrier link calls => exact link.sealCarrierFrame_calls

/-- Whatever two ends of a link send, resend, lose and rekey in whatever order: of each end's
seals, those with one nonce are of one packet, no nonce is used by both, and what a carrier
seals next is recorded as it goes out. -/
theorem nonces_used_once (caller : Opening true) (callee : Opening false)
    (events : List (Event true)) (others : List (Event false)) :
    let one := Run.exec step (create caller) events
    let two := Run.exec step (create callee) others
    NoncesOnce one.calls ∧ NoncesOnce two.calls ∧
      (∀ near ∈ one.calls, ∀ far ∈ two.calls, nonceOf near ≠ nonceOf far) ∧
      one.Records ∧ two.Records :=
  ⟨(run_sound caller events).numbers.nonces, (run_sound callee others).numbers.nonces,
    fun near _ far _ => nonceOf_ne near far, records _, records _⟩

end Runs

end SealingLink

end Sealing

/-- A packet that is sent, resent, and resent after a rekey: two nonces for three seals. -/
example :
    let link := Run.exec SealingLink.step (.create (.adp Adp.samplePort Adp.sampleParams))
      [.connection (.setProtection ⟨Session.sample, rfl⟩), .connection (.send .reliable [5]),
        .connection (.tick 2000), .rekey .rekey, .connection (.tick 9000)]
    link.calls.map SealCall.number = [1, 1, 1] ∧ (link.calls.map nonceOf).dedup.length = 2 := by
  decide +kernel

end Amp
