import Amp.L3.ChannelLife

set_option autoImplicit false

/- The counter of dynamic ids is moved by an open without an id only, and other than
by an open no channel comes (ChannelMux.cpp). -/
namespace Amp

open Adp (Bytes)

namespace ReentrantMux

open ChannelMux

variable {τ : Type}

theorem isSome_record (this : ReentrantMux τ) {channel : ChannelRecord} {id : UInt32}
    (other : id ≠ channel.id) : ((this.record channel).mux.channelById id).isSome =
      (this.mux.channelById id).isSome := by
  have states := channelById_record this channel id
  rw [if_neg other] at states
  have same := congrArg Option.isSome states
  rwa [Option.isSome_map, Option.isSome_map] at same

/-- The counter stands where it did, and no channel but the capability channel is new. -/
structure Keeps (before after : ReentrantMux τ) : Prop where
  counter : after.mux.nextDynamicId = before.mux.nextDynamicId
  recorded : ∀ id, id ≠ kCapabilityChannelId → (after.mux.channelById id).isSome →
    (before.mux.channelById id).isSome

namespace Keeps

variable {this middle after : ReentrantMux τ}

theorem trans (one : Keeps this middle) (two : Keeps middle after) : Keeps this after :=
  ⟨two.counter.trans one.counter,
    fun id real there => one.recorded id real (two.recorded id real there)⟩

theorem erase (id : UInt32) : Keeps this (this.erase id) := by
  constructor
  · rfl
  · intro other _ there
    have left : ((this.mux.eraseChannel id).channelById other).isSome := there
    rw [channelById_eraseChannel] at left
    by_cases same : other = id
    · rw [if_pos same] at left
      cases left
    · rwa [if_neg same] at left

theorem assign {id : UInt32} {channel next : ChannelRecord} {state : ChannelState}
    (found : this.mux.channelById id = some channel) : Keeps this (this.assign id next state) := by
  constructor
  · rfl
  · intro other _ there
    have left : ((this.mux.putChannel id { next with state := state }).channelById other).isSome :=
      there
    rw [channelById_putChannel] at left
    by_cases same : other = id
    · rw [same, found]
      rfl
    · rwa [if_neg same] at left

theorem record_capability {channel : ChannelRecord} (own : channel.id = kCapabilityChannelId) :
    Keeps this (this.record channel) := by
  constructor
  · rfl
  · intro other real there
    rwa [isSome_record this fun same => real (same.trans own)] at there

end Keeps

/-- No channel is opened but the capability channel. -/
def capabilityTerms : Terms where
  counts := False
  records id _ := id = kCapabilityChannelId
  assigns _ _ _ := True
  ends _ _ := trivial

theorem Moves.keeps {before after : ReentrantMux τ} (moves : Moves capabilityTerms before after) :
    Keeps before after := by
  induction moves with
  | quiet stack same counter => exact ⟨counter, fun id _ there => same.isSome id ▸ there⟩
  | count next may => exact may.elim
  | record free own => exact .record_capability own
  | assign next found may => exact .assign found
  | use found usable => exact ⟨rfl, fun _ _ there => there⟩
  | erase id => exact .erase id
  | trans one two first second => exact first.trans second

section Calls

variable {this : ReentrantMux τ}

/-- A frame that opens no channel, or opens the capability channel. -/
def opensNoOther (frame : ChannelFrame) : Bool :=
  match frame.body with
  | .openFrame .. => frame.channelId == kCapabilityChannelId
  | _ => true

/-- A call that opens no channel but the capability channel. -/
def plainCall : Call → Bool
  | .openOutbound _ _ fixedId => fixedId == some kCapabilityChannelId
  | .inbound wire =>
      match ChannelWire.decode wire with
      | .error _ => true
      | .ok frame => opensNoOther frame
  | _ => true

def plainEvent : Event → Bool
  | .call called => plainCall called
  | .returned _ => true

theorem opensNoOther_hears {frame : ChannelFrame} (plain : opensNoOther frame = true) :
    capabilityTerms.Hears this frame := by
  unfold opensNoOther at plain
  unfold Terms.Hears
  cases body : frame.body with
  | openFrame protocolId cls version offered =>
      rw [body] at plain
      exact fun _ _ => beq_iff_eq.mp plain
  | openAck result => exact fun _ _ _ => trivial
  | _ => trivial

theorem plainEvent_allows {event : Event} (plain : plainEvent event = true) :
    capabilityTerms.Allows this event := by
  cases event with
  | returned sent => trivial
  | call called =>
      cases called with
      | openOutbound protocolId policy fixedId =>
          have own : fixedId = some kCapabilityChannelId := beq_iff_eq.mp plain
          rw [own]
          rfl
      | sendCapabilityOffer protocolId policy encoded => rfl
      | closeChannel id => exact fun _ _ => trivial
      | inbound wire =>
          intro frame decoded
          unfold plainEvent plainCall at plain
          dsimp only at plain
          rw [decoded] at plain
          exact opensNoOther_hears plain
      | _ => trivial

theorem step_keeps (event : Event) (plain : plainEvent event = true) :
    Keeps this (this.step event) := (step_moves event (plainEvent_allows plain)).keeps

end Calls

end ReentrantMux

end Amp
