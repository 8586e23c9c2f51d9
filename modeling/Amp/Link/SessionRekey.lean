import Amp.L2.SessionEpochs
import Amp.Lib.Duplex
import Amp.Link.ChannelZero
import Amp.Link.LinkIdentity

set_option autoImplicit false

/- Coordinated rekeys of a link's session, asked for and answered on channel 0
(PeerLink.cpp). -/
namespace Amp

open Adp (Bytes)
open Duplex (Ends)

/-- A link, as far as its rekeys go. `rekey_cb_` and the callbacks of the calls are known by
their call's number; `none` where the call brought none. -/
structure RekeyingLink where
  phase : PeerLinkPhase := .connected
  hasMux : Bool := true
  session : Session
  rekeyCb : Option Nat := none
  /-- Trace: what the callbacks were told. -/
  answers : List (Nat × Except String Unit) := []
  /-- Trace: the callbacks let go without a word. -/
  lost : List Nat := []
  /-- Trace: rekeyed at the other end's request while a callback waited. -/
  overtaken : Bool := false
  deriving DecidableEq

namespace RekeyingLink

def sessionEpoch (this : RekeyingLink) : UInt32 := this.session.material.sessionEpoch

def tell (this : RekeyingLink) (callback : Option Nat) (answer : Except String Unit) :
    RekeyingLink :=
  { this with answers := this.answers ++ callback.toList.map fun call => (call, answer) }

def usable (this : RekeyingLink) : Bool := this.phase == .connected && this.hasMux

def requestOf (this : RekeyingLink) : SessionRekeyMessage :=
  ⟨.rekeyRequest, this.sessionEpoch + 1⟩

def ackOf (this : RekeyingLink) : SessionRekeyMessage := ⟨.rekeyAck, this.sessionEpoch + 1⟩

/-- With what goes out on channel 0. `send` is what `SendData` answers. -/
def requestSessionRekey (this : RekeyingLink) (ch0Open : Bool)
    (send : Bytes → Except String Unit) (onComplete : Option Nat) : RekeyingLink × List Bytes :=
  if ¬ this.usable then (this.tell onComplete (.error "amp link: not connected"), [])
  else if this.rekeyCb.isSome then
    (this.tell onComplete (.error "amp link: rekey already in flight"), [])
  else
    let encoded := SessionControlCodec.encode this.requestOf
    -- From here on `on_complete` has been moved from: on an error nobody is told.
    if ¬ ch0Open then ({ this with lost := this.lost ++ onComplete.toList }, [])
    else
      match send encoded with
      | .error _ => ({ this with lost := this.lost ++ onComplete.toList }, [])
      | .ok _ => ({ this with rekeyCb := onComplete }, [encoded])

section Handling

variable [Hkdf]

/-- A request for the next epoch is answered, and followed whether the answer went out or not. -/
def onRekeyRequest (this : RekeyingLink) (send : Bytes → Except String Unit) (nowMs : Int)
    (targetEpoch : UInt32) : RekeyingLink × List Bytes :=
  if targetEpoch ≠ this.sessionEpoch + 1 then (this, [])
  else
    let ack := SessionControlCodec.encode ⟨.rekeyAck, targetEpoch⟩
    let said := match send ack with
      | .error _ => []
      | .ok _ => [ack]
    ({ this with
      session := (this.session.applyRekey targetEpoch nowMs).1
      overtaken := this.overtaken || this.rekeyCb.isSome }, said)

def onRekeyAck (this : RekeyingLink) (nowMs : Int) (targetEpoch : UInt32) : RekeyingLink :=
  if targetEpoch ≠ this.sessionEpoch + 1 then this
  else
    match this.session.applyRekey targetEpoch nowMs with
    | (session, answer) => { this.tell this.rekeyCb answer with session, rekeyCb := none }

def handleSessionControl (this : RekeyingLink) (send : Bytes → Except String Unit) (nowMs : Int)
    (payload : Bytes) : RekeyingLink × List Bytes :=
  if ¬ this.usable then (this, [])
  else
    match SessionControlCodec.decode payload with
    | .error _ => (this, [])
    | .ok ⟨.rekeyRequest, targetEpoch⟩ => this.onRekeyRequest send nowMs targetEpoch
    | .ok ⟨.rekeyAck, targetEpoch⟩ => (this.onRekeyAck nowMs targetEpoch, [])

end Handling

end RekeyingLink

/-- A link and what channel 0 has yet to bring it, first come first. -/
structure RekeyEnd where
  link : RekeyingLink
  inbox : List Bytes := []
  deriving DecidableEq

inductive RekeyAction where
  | request (ch0Open : Bool) (send : Bytes → Except String Unit) (onComplete : Option Nat)
  /-- The next message that channel 0 brings. -/
  | deliver (send : Bytes → Except String Unit) (nowMs : Int)

namespace RekeyEnd

def sessionEpoch (this : RekeyEnd) : UInt32 := this.link.sessionEpoch

def take (this : RekeyEnd) (said : List Bytes) : RekeyEnd :=
  { this with inbox := this.inbox ++ said }

variable [Hkdf]

/-- What one end does, with what it says to the other. -/
def act (near far : RekeyEnd) : RekeyAction → RekeyEnd × RekeyEnd
  | .request ch0Open send onComplete =>
      match near.link.requestSessionRekey ch0Open send onComplete with
      | (link, said) => ({ near with link }, far.take said)
  | .deliver send nowMs =>
      match near.inbox with
      | [] => (near, far)
      | payload :: rest =>
          match near.link.handleSessionControl send nowMs payload with
          | (link, said) => ({ link, inbox := rest }, far.take said)

/-- Two links of one session. -/
def step (ends : Ends RekeyEnd) : Duplex.Side × RekeyAction → Ends RekeyEnd
  | (.left, action) => ⟨(act ends.left ends.right action).1, (act ends.left ends.right action).2⟩
  | (.right, action) => ⟨(act ends.right ends.left action).2, (act ends.right ends.left action).1⟩

/-- Two sessions fresh from their handshake. -/
def joined (left right : Rekeyed) : Ends RekeyEnd :=
  ⟨{ link := { session := left.session } }, { link := { session := right.session } }⟩

end RekeyEnd

end Amp
