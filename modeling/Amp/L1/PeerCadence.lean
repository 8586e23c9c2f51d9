import Amp.L1.Ledger
import Amp.L1.Sample
import Amp.Lib.Run

set_option autoImplicit false

/- The cadence that a peer announces in its keepalives, and the liveness window that follows it. -/
namespace Amp.Adp

/-- What a keepalive says, and when its sender said it. -/
structure Keepalive where
  timestampMs : Nat
  intervalMs : Nat
  flags : Nat
  timeFits : timestampMs < 2 ^ 32
  intervalFits : intervalMs < 2 ^ 32
  flagsFit : flags < 256
  deriving DecidableEq, Repr

namespace Keepalive

def payload (k : Keepalive) : Bytes :=
  [UInt8.ofNat (k.intervalMs / 2 ^ 24), UInt8.ofNat (k.intervalMs / 2 ^ 16),
    UInt8.ofNat (k.intervalMs / 2 ^ 8), UInt8.ofNat k.intervalMs, UInt8.ofNat k.flags]

def packet (k : Keepalive) (id : AssocId) : WirePacket where
  type := .keepalive
  assoc := id
  timestampMs := k.timestampMs
  payload := k.payload

def datagram [Hmac] (k : Keepalive) (key : PeerKey) (id : AssocId) : Bytes :=
  HmacBinder.bind key (WireCodec.versionAndType .keepalive :: (id.bytes ++
    (WireCodec.writeU32Le 0 ++ (WireCodec.writeU32Le k.timestampMs ++ k.payload))))

theorem encode_packet (k : Keepalive) (id : AssocId) : WireCodec.encode (k.packet id) =
    .ok (WireCodec.versionAndType .keepalive :: (id.bytes ++
      (WireCodec.writeU32Le 0 ++ (WireCodec.writeU32Le k.timestampMs ++ k.payload)))) := rfl

/-- The cadence that a receiver takes from it. -/
def cadence (k : Keepalive) : Nat := min k.intervalMs kMaxPeerKeepaliveIntervalMs

def newerThan (k other : Keepalive) : Bool := decide (0 < serialDiff k.timestampMs other.timestampMs)

/-- The four bytes of an interval, read again. -/
theorem interval_bytes (k : Keepalive) :
    (UInt8.ofNat (k.intervalMs / 2 ^ 24)).toNat * 2 ^ 24 +
      (UInt8.ofNat (k.intervalMs / 2 ^ 16)).toNat * 2 ^ 16 +
      (UInt8.ofNat (k.intervalMs / 2 ^ 8)).toNat * 2 ^ 8 + (UInt8.ofNat k.intervalMs).toNat =
      k.intervalMs := by
  have fits := k.intervalFits
  simp only [UInt8.toNat_ofNat']
  omega

end Keepalive

/-- What of a connection decides how it takes a keepalive, and its two cadences. -/
structure Pace where
  id : AssocId
  binderKey : PeerKey
  params : OpenParams
  authenticated : Bool
  localMs : Nat
  peerMs : Nat

namespace Connection

variable {π : Type}

def pace (c : Connection π) : Pace where
  id := c.id
  binderKey := c.binderKey
  params := c.params
  authenticated := c.authenticated
  localMs := c.localKeepaliveIntervalMs
  peerMs := c.peerKeepaliveIntervalMs

theorem noteTimestamp_pace (c : Connection π) (pkt : WirePacket) :
    (c.noteTimestamp pkt).pace = c.pace := by
  unfold noteTimestamp
  split <;> rfl

theorem noteFresh_pace (c : Connection π) (fresh : Bool) (source : IpEndpoint) (now : Int) :
    (c.noteFresh fresh source now).pace = c.pace := by
  unfold noteFresh maybeLearnPath setPeerEndpoint
  split
  · split
    · split <;> rfl
    · split
      · split <;> rfl
      · rfl
  · rfl

variable [PacketProtection π] [Hmac]

theorem sendPacket_pace (c : Connection π) (type : PacketType) (seq : Nat) (payload : Bytes)
    (now : Int) (key : Option PeerKey) (fits : seq < 2 ^ 32) :
    (c.sendPacket type seq payload now key).1.pace = c.pace := by
  obtain ⟨_, _, _, state, _⟩ := sendPacket_spec c type seq payload now key fits
  rw [state]
  rfl

theorem sendKeepalivePacket_pace (c : Connection π) (now : Int) (intervalMs flags : Nat) :
    (c.sendKeepalivePacket now intervalMs flags).1.pace = c.pace := by
  unfold sendKeepalivePacket
  split
  · rfl
  · split
    · rfl
    · exact sendPacket_pace _ _ _ _ _ _ (by decide)

/-- A keepalive sets the peer's cadence to the interval it announces. -/
theorem handleKeepalive_pace (c : Connection π) (k : Keepalive) (id : AssocId) (now : Int) :
    (c.handleKeepalive (k.packet id) now).pace = { c.pace with peerMs := k.cadence } := by
  have noted : (c.notePeerKeepalive k.intervalMs).pace = { c.pace with peerMs := k.cadence } := rfl
  unfold handleKeepalive
  dsimp only [Keepalive.packet, Keepalive.payload]
  rw [k.interval_bytes]
  split
  · rw [sendKeepalivePacket_pace, noted]
  · exact noted

theorem dispatch_keepalive {c : Connection π} {pkt : WirePacket} (known : c.authenticated = true)
    (form : pkt.type = .keepalive) (admission : Admission) (now : Int) :
    c.dispatch pkt admission now = c.handleKeepalive pkt now := by
  unfold dispatch
  rw [form]
  dsimp only
  rw [if_neg (by rw [known]; decide)]

theorem received_keepalive (c : Connection π) (k : Keepalive) (now : Int) :
    c.received (k.datagram c.binderKey c.id) now = some (k.packet c.id) := by
  have typed := peekType_bind c.binderKey _ _ (k.encode_packet c.id)
  have decoded := decode_bind c.binderKey _ _ (k.encode_packet c.id)
    (show 0 < 2 ^ 32 by decide) k.timeFits
  unfold received Keepalive.datagram
  rw [typed, decoded, HmacBinder.verify_bind]
  rfl

/-- An authenticated connection takes every keepalive of its peer that is within the skew, be it
fresh or not, and no other. -/
theorem handleDatagram_keepalive (c : Connection π) (k : Keepalive) (source : IpEndpoint) (now : Int)
    (authenticated : c.authenticated = true) :
    (c.handleDatagram source (k.datagram c.binderKey c.id) now).pace =
      if c.acceptSkew k.timestampMs now then { c.pace with peerMs := k.cadence } else c.pace := by
  have plain : (k.packet c.id).type.isSealed = false := rfl
  rw [handleDatagram_eq, received_keepalive]
  dsimp only
  unfold handleAuthenticated
  rw [plain]
  cases skew : c.acceptSkew k.timestampMs now with
  | false =>
      rw [if_pos (by rw [show (k.packet c.id).timestampMs = k.timestampMs from rfl, skew]; rfl)]
      rfl
  | true =>
      rw [if_neg (by rw [show (k.packet c.id).timestampMs = k.timestampMs from rfl, skew]; decide)]
      have goesOn : c.refusePlainAfterKeys (k.packet c.id) = (c, false) := by
        unfold refusePlainAfterKeys
        split <;> rfl
      have ready : ((c.noteTimestamp (k.packet c.id)).noteFresh (c.newerTimestamp (k.packet c.id))
          source now).pace = c.pace := by
        rw [noteFresh_pace, noteTimestamp_pace]
      have known : ((c.noteTimestamp (k.packet c.id)).noteFresh (c.newerTimestamp (k.packet c.id))
          source now).authenticated = true := (congrArg Pace.authenticated ready).trans authenticated
      rw [goesOn, if_pos rfl]
      show (Connection.dispatch ((c.noteTimestamp (k.packet c.id)).noteFresh
        (c.newerTimestamp (k.packet c.id)) source now) (k.packet c.id)
        { fresh := c.newerTimestamp (k.packet c.id) } now).pace = _
      rw [dispatch_keepalive known rfl, handleKeepalive_pace, ready]

end Connection

/-- A connection, and the serially newest keepalive of those it took. -/
structure CadenceRun (π : Type) where
  connection : Connection π
  newest : Option Keepalive := none

namespace CadenceRun

variable {π : Type}

/-- A keepalive of the peer comes, however late or often. -/
structure Delivery where
  source : IpEndpoint
  keepalive : Keepalive
  now : Int

def takes (this : CadenceRun π) (delivery : Delivery) : Bool :=
  this.connection.acceptSkew delivery.keepalive.timestampMs delivery.now

def newer (this : CadenceRun π) (k : Keepalive) : Bool := this.newest.all fun newest => k.newerThan newest

/-- What is newest once a keepalive has come in. -/
def newestWith (this : CadenceRun π) (delivery : Delivery) : Option Keepalive :=
  if this.takes delivery && this.newer delivery.keepalive then some delivery.keepalive
  else this.newest

/-- The peer's cadence is the newest announced, and the window follows it. -/
def Follows (this : CadenceRun π) : Prop := ∀ k ∈ this.newest,
  this.connection.peerKeepaliveIntervalMs = min kMaxPeerKeepaliveIntervalMs k.intervalMs ∧
    this.connection.livenessWindowMs = max this.connection.params.aliveTimeoutMs
      (((max this.connection.localKeepaliveIntervalMs
        (min kMaxPeerKeepaliveIntervalMs k.intervalMs) : Nat) : Int) * 5 / 2)

/-- A keepalive that comes late announces what the newest one does. -/
def InTurn (this : CadenceRun π) (delivery : Delivery) : Prop :=
  this.takes delivery = true → this.newer delivery.keepalive = false →
    ∀ k ∈ this.newest, delivery.keepalive.cadence = k.cadence

instance (this : CadenceRun π) : Decidable this.Follows :=
  inferInstanceAs (Decidable (∀ k ∈ this.newest, _ ∧ _))

instance (this : CadenceRun π) (delivery : Delivery) : Decidable (this.InTurn delivery) :=
  inferInstanceAs (Decidable (_ = true → _ = false → ∀ k ∈ this.newest, _ = _))

variable [PacketProtection π] [Hmac]

def step (this : CadenceRun π) (delivery : Delivery) : CadenceRun π where
  connection := this.connection.handleDatagram delivery.source
    (delivery.keepalive.datagram this.connection.binderKey this.connection.id) delivery.now
  newest := this.newestWith delivery

omit [PacketProtection π] [Hmac] in
theorem follows_iff (this : CadenceRun π) : this.Follows ↔
    ∀ k ∈ this.newest, this.connection.pace.peerMs = k.cadence := by
  constructor
  · intro follows k newest
    rw [Keepalive.cadence, Nat.min_comm]
    exact (follows k newest).1
  · intro same k newest
    have cadence : this.connection.peerKeepaliveIntervalMs =
        min kMaxPeerKeepaliveIntervalMs k.intervalMs := by
      rw [Nat.min_comm]
      exact same k newest
    refine ⟨cadence, ?_⟩
    unfold Connection.livenessWindowMs
    rw [cadence, Nat.cast_max]
    rfl

theorem step_pace {this : CadenceRun π} (authenticated : this.connection.authenticated = true)
    (delivery : Delivery) : (this.step delivery).connection.pace =
      if this.takes delivery then
        { this.connection.pace with peerMs := delivery.keepalive.cadence }
      else this.connection.pace :=
  Connection.handleDatagram_keepalive this.connection delivery.keepalive delivery.source delivery.now
    authenticated

theorem step_authenticated {this : CadenceRun π} (authenticated : this.connection.authenticated = true)
    (delivery : Delivery) : (this.step delivery).connection.authenticated = true := by
  have pace := congrArg Pace.authenticated (step_pace authenticated delivery)
  refine pace.trans ?_
  split <;> exact authenticated

/-- A delivery keeps the cadence the newest exactly when it comes in turn. -/
theorem step_follows {this : CadenceRun π} (authenticated : this.connection.authenticated = true)
    (follows : this.Follows) (delivery : Delivery) :
    (this.step delivery).Follows ↔ this.InTurn delivery := by
  rw [follows_iff] at follows ⊢
  rw [step_pace authenticated]
  show (∀ k ∈ this.newestWith delivery, _) ↔ _
  unfold newestWith InTurn
  cases taken : this.takes delivery with
  | false =>
      constructor
      · exact fun _ other => absurd other Bool.false_ne_true
      · exact fun _ => follows
  | true =>
      cases newer : this.newer delivery.keepalive with
      | true =>
          constructor
          · exact fun _ _ other => absurd other.symm Bool.false_ne_true
          · intro _ k newest
            cases newest
            rfl
      | false =>
          constructor
          · exact fun same _ _ k newest => same k newest
          · exact fun same k newest => same rfl rfl k newest

/-- The peer's cadence is always the newest one announced, and the liveness window that of it, in
exactly the runs in which no keepalive comes after a newer one that announces another cadence. -/
theorem cadence_newest_iff (c : Connection π) (authenticated : c.authenticated = true)
    (deliveries : List Delivery) : Run.Always step Follows { connection := c } deliveries ↔
      Run.Meets step InTurn { connection := c } deliveries := by
  have turn : ∀ (this : CadenceRun π) delivery,
      (this.connection.authenticated = true ∧ this.Follows) →
      (((this.step delivery).connection.authenticated = true ∧ (this.step delivery).Follows) ↔
        this.InTurn delivery) := by
    rintro this delivery ⟨known, follows⟩
    rw [← step_follows known follows delivery]
    exact and_iff_right (step_authenticated known delivery)
  have initially : ({ connection := c } : CadenceRun π).Follows := nofun
  rw [← Run.always_iff_meets step InTurn _ turn deliveries _ ⟨authenticated, initially⟩]
  constructor
  · exact Run.Always.with_invariant (fun _ delivery known => step_authenticated known delivery)
      authenticated
  · exact Run.Always.mono fun _ both => both.2

end CadenceRun

namespace CadenceRun

/-- A keepalive of a minute, and the stop notice that its sender sends a while later. -/
def announced : Delivery := ⟨{ port := 1 }, ⟨800, 60000, 1, by decide, by decide, by decide⟩, 1000⟩

def stopped : Delivery := ⟨{ port := 1 }, ⟨900, 0, 0, by decide, by decide, by decide⟩, 1000⟩

theorem cadence_in_order : Run.Always step Follows
    { connection := (Connection.create samplePort sampleParams : Connection TagProtection) }
    [announced, stopped, stopped] :=
  (cadence_newest_iff (Connection.create samplePort sampleParams : Connection TagProtection) rfl
    [announced, stopped, stopped]).mpr (by decide)

/-- The announcement that comes after the stop notice starts the cadence again. -/
theorem late_keepalive_revives :
    (Connection.create samplePort sampleParams : Connection TagProtection).authenticated = true ∧
      ¬ Run.Always step Follows
        { connection := (Connection.create samplePort sampleParams : Connection TagProtection) }
        [stopped, announced] := by
  refine ⟨rfl, ?_⟩
  decide

end CadenceRun

end Amp.Adp
