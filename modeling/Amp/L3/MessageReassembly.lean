import Amp.L3.ChannelWire
import Mathlib.Data.List.AList

set_option autoImplicit false

/- Fragments put together into messages (MessageReassembly.cpp). -/
namespace Amp

open Adp (Bytes)

structure Partial where
  fragCount : Nat := 0
  totalLen : Nat := 0
  chunks : List Bytes := []
  receivedBytes : Nat := 0
  startedMs : Int := 0
  deriving DecidableEq

structure MessageReassembly where
  maxMessageBytes : Nat := 256 * 1024
  maxPartials : Nat := 64
  lossy : Bool := false
  partials : AList (fun _ : Nat => Partial) := ∅

namespace MessageReassembly

/-- The loop of `DropOldestPartial`, over a map in the order of its keys: of two
that started together the smaller key goes. -/
def oldestPartial : List (Sigma fun _ : Nat => Partial) → Option (Sigma fun _ : Nat => Partial)
  | [] => none
  | entry :: rest =>
      match oldestPartial rest with
      | none => some entry
      | some oldest =>
          if oldest.2.startedMs < entry.2.startedMs ∨
              oldest.2.startedMs = entry.2.startedMs ∧ oldest.1 < entry.1 then some oldest
          else some entry

def dropOldestPartial (this : MessageReassembly) : MessageReassembly :=
  match oldestPartial this.partials.entries with
  | none => this
  | some oldest => { this with partials := this.partials.erase oldest.1 }

def put (this : MessageReassembly) (msgId : Nat) (part : Partial) : MessageReassembly :=
  { this with partials := this.partials.insert msgId part }

def drop (this : MessageReassembly) (msgId : Nat) : MessageReassembly :=
  { this with partials := this.partials.erase msgId }

/-- `Push` once the partial is there. -/
def fill (this : MessageReassembly) (frag : ChannelFragBody) (part : Partial) :
    MessageReassembly × Except String (Option Bytes) :=
  if part.fragCount ≠ frag.fragCount ∨ part.totalLen ≠ frag.totalLen then
    (this, .error "amp ch: frag metadata mismatch")
  else if part.chunks[frag.fragIndex]? ≠ some [] then (this, .ok none)
  else if part.totalLen < part.receivedBytes + frag.chunk.length then
    (this, .error "amp ch: frag stream exceeds declared length")
  else
    let part := { part with
      receivedBytes := part.receivedBytes + frag.chunk.length
      chunks := part.chunks.set frag.fragIndex frag.chunk }
    let this := this.put frag.msgId part
    if part.chunks.any List.isEmpty then (this, .ok none)
    else if part.chunks.flatten.length ≠ part.totalLen then
      (this, .error "amp ch: assembled length mismatch")
    else (this.drop frag.msgId, .ok (some part.chunks.flatten))

def begun (frag : ChannelFragBody) (now : Int) : Partial where
  fragCount := frag.fragCount
  totalLen := frag.totalLen
  startedMs := now
  chunks := List.replicate frag.fragCount []

def push (this : MessageReassembly) (frag : ChannelFragBody) (now : Int) :
    MessageReassembly × Except String (Option Bytes) :=
  if frag.fragCount = 0 ∨ frag.fragCount ≤ frag.fragIndex then
    (this, .error "amp ch: bad frag indices")
  else if this.maxMessageBytes < frag.totalLen then (this, .error "amp ch: message too large")
  else if frag.totalLen < frag.fragCount then
    (this, .error "amp ch: frag count exceeds message length")
  else
    match this.partials.lookup frag.msgId with
    | some part => this.fill frag part
    | none =>
        if this.maxPartials ≤ this.partials.entries.length ∧ this.lossy = false then
          (this, .error "amp ch: too many in-flight partial messages")
        else
          let this := if this.maxPartials ≤ this.partials.entries.length then
            this.dropOldestPartial else this
          (this.put frag.msgId (begun frag now)).fill frag (begun frag now)

/-- A partial the sweep takes at this time. -/
def expired (now timeoutMs : Int) (part : Partial) : Bool :=
  decide (timeoutMs < now - part.startedMs)

def sweepExpired (this : MessageReassembly) (now timeoutMs : Int) : MessageReassembly :=
  { this with partials :=
      ⟨this.partials.entries.filter fun entry => !expired now timeoutMs entry.2,
        this.partials.nodupKeys.sublist List.filter_sublist⟩ }

end MessageReassembly

end Amp
