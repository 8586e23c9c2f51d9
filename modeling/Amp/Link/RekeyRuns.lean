import Amp.Link.SessionRekey

set_option autoImplicit false

/- What the rekeys of two links of one session come to, whatever they ask for and
however channel 0 delays its messages. -/
namespace Amp

open Adp (Bytes PacketSpace)
open Duplex (Ends)

namespace SessionControlCodec

theorem encode_injective {one two : SessionRekeyMessage} (same : encode one = encode two) :
    one = two := by
  have decoded := decode_encode one
  rw [same, decode_encode] at decoded
  exact (Except.ok.inj decoded).symm

end SessionControlCodec

/-- The session stands where its rekeys have brought it. -/
def Session.Stands [Hkdf] (prk : Bytes) (initiator : Bool) (session : Session) : Prop :=
  Rekeyed.Keyed prk initiator ⟨session, session.graceUntilMs⟩

section Sessions

variable [Hkdf] {prk : Bytes} {initiator : Bool} {session : Session}

theorem Rekeyed.Keyed.stands {rekeyed : Rekeyed} (keyed : Rekeyed.Keyed prk initiator rekeyed) :
    rekeyed.session.Stands prk initiator := by
  unfold Session.Stands
  rw [keyed.grace]
  exact keyed

theorem Rekeyed.handshaken_epoch {masterIkm transcriptHash : Bytes} {sessionEpoch : UInt32}
    {rekeyed : Rekeyed}
    (done : Rekeyed.handshaken masterIkm transcriptHash initiator sessionEpoch = .ok rekeyed) :
    rekeyed.session.material.sessionEpoch = sessionEpoch := by
  unfold Rekeyed.handshaken at done
  split at done
  · cases done
  · rename_i material made
    split at done
    · cases done
    · rename_i session accepted
      cases done
      obtain ⟨_, rfl⟩ := Session.fromMaterial_ok accepted
      obtain ⟨_, _, derived⟩ := SessionKeys.derive_ok made
      exact derived.epoch

variable [LawfulHkdf]

/-- A rekey to the next epoch is made. -/
theorem Session.Stands.next (stands : session.Stands prk initiator) (nowMs : Int) :
    (session.applyRekey (session.material.sessionEpoch + 1) nowMs).2 = .ok () ∧
      (session.applyRekey (session.material.sessionEpoch + 1) nowMs).1.Stands prk initiator ∧
      (session.applyRekey (session.material.sessionEpoch + 1) nowMs).1.material.sessionEpoch =
        session.material.sessionEpoch + 1 := by
  have applied := Rekeyed.Keyed.apply stands (session.material.sessionEpoch + 1, nowMs)
  have done : (session.applyRekey (session.material.sessionEpoch + 1) nowMs).2 = .ok () := by
    rcases Session.call_fit stands.fit (.applyRekey (session.material.sessionEpoch + 1) nowMs) with
      made | unexpected
    · exact made
    · exact absurd rfl unexpected
  refine ⟨done, applied.stands, ?_⟩
  · rw [Session.applyRekey_expected rfl]
    have moved : { session with
        previousRecvKey := some session.material.kRecv
        graceUntilMs := nowMs + kSessionRekeyGraceMs
        material := { session.material with
          sessionEpoch := session.material.sessionEpoch + 1 } : Session }.Rekeyable := stands.fit
    obtain ⟨material, _, refreshed⟩ := Session.refresh_fit moved
    rw [refreshed]

end Sessions

namespace RekeyingLink

variable {this : RekeyingLink} {prk : Bytes} {initiator : Bool}

/-- A link that can rekey. -/
structure Able [Hkdf] (prk : Bytes) (initiator : Bool) (this : RekeyingLink) : Prop where
  usable : this.usable = true
  stands : this.session.Stands prk initiator

/-- The same but for the callbacks. -/
structure Alike (this after : RekeyingLink) : Prop where
  usable : after.usable = this.usable
  session : after.session = this.session
  overtaken : after.overtaken = this.overtaken

theorem Alike.able [Hkdf] {after : RekeyingLink} (alike : this.Alike after)
    (able : this.Able prk initiator) : after.Able prk initiator := by
  constructor
  · rw [alike.usable, able.usable]
  · rw [alike.session]
    exact able.stands

/-- A request goes out with its callback kept, or nothing changes but what callbacks know. -/
theorem request_cases (this : RekeyingLink) (ch0Open : Bool) (send : Bytes → Except String Unit)
    (onComplete : Option Nat) :
    ∃ after said, this.requestSessionRekey ch0Open send onComplete = (after, said) ∧
      this.Alike after ∧
      (said = [] ∧ after.rekeyCb = this.rekeyCb ∨
        said = [SessionControlCodec.encode this.requestOf] ∧ this.rekeyCb = none) := by
  unfold requestSessionRekey
  split
  · exact ⟨_, _, rfl, ⟨rfl, rfl, rfl⟩, Or.inl ⟨rfl, rfl⟩⟩
  · split
    · exact ⟨_, _, rfl, ⟨rfl, rfl, rfl⟩, Or.inl ⟨rfl, rfl⟩⟩
    · rename_i free
      dsimp only
      split
      · exact ⟨_, _, rfl, ⟨rfl, rfl, rfl⟩, Or.inl ⟨rfl, rfl⟩⟩
      · split
        · exact ⟨_, _, rfl, ⟨rfl, rfl, rfl⟩, Or.inl ⟨rfl, rfl⟩⟩
        · exact ⟨_, _, rfl, ⟨rfl, rfl, rfl⟩, Or.inr ⟨rfl, by simpa using free⟩⟩

variable [Hkdf]

theorem handle_ignores (able : this.Able prk initiator) {message : SessionRekeyMessage}
    (other : message.targetEpoch ≠ this.sessionEpoch + 1) (send : Bytes → Except String Unit)
    (nowMs : Int) :
    this.handleSessionControl send nowMs (SessionControlCodec.encode message) = (this, []) := by
  obtain ⟨kind, targetEpoch⟩ := message
  unfold handleSessionControl
  rw [SessionControlCodec.decode_encode, able.usable]
  cases kind with
  | rekeyRequest => exact if_pos other
  | rekeyAck =>
      show (this.onRekeyAck nowMs targetEpoch, []) = (this, [])
      unfold onRekeyAck
      rw [if_pos other]

/-- A request for the next epoch is acknowledged and followed. -/
theorem handle_follows (able : this.Able prk initiator) {send : Bytes → Except String Unit}
    (takes : send (SessionControlCodec.encode this.ackOf) = .ok ()) (nowMs : Int) :
    this.handleSessionControl send nowMs (SessionControlCodec.encode this.requestOf) =
      ({ this with
        session := (this.session.applyRekey (this.sessionEpoch + 1) nowMs).1
        overtaken := this.overtaken || this.rekeyCb.isSome },
        [SessionControlCodec.encode this.ackOf]) := by
  unfold handleSessionControl requestOf
  rw [SessionControlCodec.decode_encode, able.usable]
  show this.onRekeyRequest send nowMs (this.sessionEpoch + 1) = _
  unfold onRekeyRequest
  unfold ackOf at takes ⊢
  simp only [ne_eq, not_true_eq_false, ↓reduceIte, takes]

/-- An acknowledgement of the next epoch is followed, and the waiting callback told. -/
theorem handle_lands [LawfulHkdf] (able : this.Able prk initiator)
    (send : Bytes → Except String Unit) (nowMs : Int) :
    this.handleSessionControl send nowMs (SessionControlCodec.encode this.ackOf) =
      ({ this.tell this.rekeyCb (.ok ()) with
        session := (this.session.applyRekey (this.sessionEpoch + 1) nowMs).1
        rekeyCb := none }, []) := by
  have made := (able.stands.next nowMs).1
  unfold handleSessionControl ackOf
  rw [SessionControlCodec.decode_encode, able.usable]
  show (this.onRekeyAck nowMs (this.sessionEpoch + 1), []) = _
  unfold onRekeyAck
  simp only [ne_eq, not_true_eq_false, ↓reduceIte]
  have same : (this.session.applyRekey (this.sessionEpoch + 1) nowMs).2 = .ok () := made
  rw [same]

end RekeyingLink

namespace RekeyEnd

variable {near far one two : RekeyEnd} {epoch : UInt32} {inbox rest said : List Bytes}
  {message : SessionRekeyMessage}

/-- Messages for an epoch, as channel 0 carries them. -/
def Targets (epoch : UInt32) (inbox : List Bytes) : Prop :=
  ∀ wire ∈ inbox, ∃ message : SessionRekeyMessage, message.targetEpoch = epoch ∧
    wire = SessionControlCodec.encode message

/-- Requests for the epoch after one. -/
def Requests (epoch : UInt32) (inbox : List Bytes) : Prop :=
  ∀ wire ∈ inbox, wire = SessionControlCodec.encode ⟨.rekeyRequest, epoch + 1⟩

/-- What an end in an epoch may still hear from another in it: messages of the rekey to it,
then requests for the next. -/
def Calm (epoch : UInt32) (inbox : List Bytes) : Prop :=
  ∃ old new, inbox = old ++ new ∧ Targets epoch old ∧ Requests epoch new

/-- What an end may still hear from another that is an epoch ahead: at least one message
that takes it there. -/
def Led (epoch : UInt32) (inbox : List Bytes) : Prop :=
  ∃ old message later, inbox = old ++ SessionControlCodec.encode message :: later ∧
    Targets epoch old ∧ message.targetEpoch = epoch + 1 ∧ Calm (epoch + 1) later

section Messages

theorem epoch_next (epoch : UInt32) : epoch ≠ epoch + 1 := by simp

theorem epoch_twice (epoch : UInt32) : epoch ≠ epoch + 1 + 1 := by
  rw [UInt32.add_assoc]
  simp

theorem Targets.nil : Targets epoch [] := fun _ listed => absurd listed List.not_mem_nil

theorem Requests.nil : Requests epoch [] := fun _ listed => absurd listed List.not_mem_nil

theorem Targets.append (first : Targets epoch inbox) (second : Targets epoch said) :
    Targets epoch (inbox ++ said) :=
  List.forall_mem_append.mpr ⟨first, second⟩

theorem Requests.targets (requests : Requests epoch inbox) : Targets (epoch + 1) inbox :=
  fun wire listed => ⟨⟨.rekeyRequest, epoch + 1⟩, rfl, requests wire listed⟩

theorem Targets.calm (targets : Targets epoch inbox) : Calm epoch inbox :=
  ⟨inbox, [], (List.append_nil inbox).symm, targets, Requests.nil⟩

theorem Calm.nil : Calm epoch [] := Targets.nil.calm

theorem Requests.append (first : Requests epoch inbox) (second : Requests epoch said) :
    Requests epoch (inbox ++ said) :=
  List.forall_mem_append.mpr ⟨first, second⟩

theorem Calm.ask (calm : Calm epoch inbox) (asks : Requests epoch said) :
    Calm epoch (inbox ++ said) := by
  obtain ⟨old, new, rfl, targets, requests⟩ := calm
  exact ⟨old, new ++ said, List.append_assoc old new said, targets, requests.append asks⟩

theorem Led.ask (led : Led epoch inbox) (asks : Requests (epoch + 1) said) :
    Led epoch (inbox ++ said) := by
  obtain ⟨old, message, later, rfl, targets, target, calm⟩ := led
  refine ⟨old, message, later ++ said, ?_, targets, target, calm.ask asks⟩
  rw [List.append_assoc, List.cons_append]

/-- The acknowledgement that an end says when it goes ahead leads the other after it. -/
theorem Calm.acked (calm : Calm epoch inbox) :
    Led epoch (inbox ++ [SessionControlCodec.encode ⟨.rekeyAck, epoch + 1⟩]) := by
  obtain ⟨old, new, rfl, targets, requests⟩ := calm
  have ack : Targets (epoch + 1) [SessionControlCodec.encode ⟨.rekeyAck, epoch + 1⟩] := by
    intro wire listed
    exact ⟨_, rfl, List.mem_singleton.mp listed⟩
  cases new with
  | nil => exact ⟨old, ⟨.rekeyAck, epoch + 1⟩, [], by simp, targets, rfl, Calm.nil⟩
  | cons first others =>
      obtain rfl := requests first List.mem_cons_self
      refine ⟨old, ⟨.rekeyRequest, epoch + 1⟩,
        others ++ [SessionControlCodec.encode ⟨.rekeyAck, epoch + 1⟩], ?_, targets, rfl, ?_⟩
      · rw [List.append_assoc, List.cons_append]
      · have rest : Requests epoch others := fun wire listed =>
          requests wire (List.mem_cons_of_mem _ listed)
        exact (rest.targets.append ack).calm

theorem Led.ne_nil (led : Led epoch inbox) : inbox ≠ [] := by
  obtain ⟨old, message, later, rfl, _⟩ := led
  simp

/-- The first message an end hears of another in its epoch: one it ignores or, when none of
those is left, a request. -/
theorem Calm.head {wire : Bytes} (calm : Calm epoch (wire :: rest)) :
    (Calm epoch rest ∧ ∃ message : SessionRekeyMessage, message.targetEpoch = epoch ∧
      wire = SessionControlCodec.encode message) ∨
    (Requests epoch rest ∧ wire = SessionControlCodec.encode ⟨.rekeyRequest, epoch + 1⟩) := by
  obtain ⟨old, new, parts, targets, requests⟩ := calm
  cases old with
  | nil =>
      obtain rfl : wire :: rest = new := parts
      exact Or.inr ⟨fun other listed => requests other (List.mem_cons_of_mem _ listed),
        requests wire List.mem_cons_self⟩
  | cons first others =>
      obtain ⟨rfl, rfl⟩ := List.cons.inj parts
      refine Or.inl ⟨⟨others, new, rfl, ?_, requests⟩, targets wire List.mem_cons_self⟩
      exact fun other listed => targets other (List.mem_cons_of_mem _ listed)

/-- Of one that is ahead: one it ignores, or one that takes it there. -/
theorem Led.head {wire : Bytes} (led : Led epoch (wire :: rest)) :
    (Led epoch rest ∧ ∃ message : SessionRekeyMessage, message.targetEpoch = epoch ∧
      wire = SessionControlCodec.encode message) ∨
    (Calm (epoch + 1) rest ∧ ∃ message : SessionRekeyMessage, message.targetEpoch = epoch + 1 ∧
      wire = SessionControlCodec.encode message) := by
  obtain ⟨old, message, later, parts, targets, target, calm⟩ := led
  cases old with
  | nil =>
      obtain ⟨rfl, rfl⟩ := List.cons.inj parts
      exact Or.inr ⟨calm, message, target, rfl⟩
  | cons first others =>
      obtain ⟨rfl, rfl⟩ := List.cons.inj parts
      refine Or.inl ⟨⟨others, message, later, rfl, ?_, target, calm⟩,
        targets wire List.mem_cons_self⟩
      exact fun other listed => targets other (List.mem_cons_of_mem _ listed)

end Messages

section Acting

variable [Hkdf] {prk : Bytes} {initiator : Bool}

/-- What one action of an end can do to it and to the other. -/
inductive Acts (prk : Bytes) (initiator : Bool) (near far : RekeyEnd) :
    RekeyEnd → RekeyEnd → Prop
  | rests {link : RekeyingLink} (alike : near.link.Alike link)
      (waiting : link.rekeyCb = near.link.rekeyCb) : Acts prk initiator near far { near with link } far
  | asks {link : RekeyingLink} (alike : near.link.Alike link) (free : near.link.rekeyCb = none) :
      Acts prk initiator near far { near with link }
        (far.take [SessionControlCodec.encode near.link.requestOf])
  | ignores {message : SessionRekeyMessage} {rest : List Bytes}
      (heard : near.inbox = SessionControlCodec.encode message :: rest)
      (other : message.targetEpoch ≠ near.sessionEpoch + 1) :
      Acts prk initiator near far { near with inbox := rest } far
  | follows {link : RekeyingLink} {rest : List Bytes}
      (heard : near.inbox = SessionControlCodec.encode near.link.requestOf :: rest)
      (able : link.Able prk initiator) (epoch : link.sessionEpoch = near.sessionEpoch + 1)
      (waiting : link.rekeyCb = near.link.rekeyCb)
      (overtaken : link.overtaken = (near.link.overtaken || near.link.rekeyCb.isSome)) :
      Acts prk initiator near far { link, inbox := rest }
        (far.take [SessionControlCodec.encode near.link.ackOf])
  | lands {link : RekeyingLink} {rest : List Bytes}
      (heard : near.inbox = SessionControlCodec.encode near.link.ackOf :: rest)
      (able : link.Able prk initiator) (epoch : link.sessionEpoch = near.sessionEpoch + 1)
      (told : link.rekeyCb = none) (overtaken : link.overtaken = near.link.overtaken) :
      Acts prk initiator near far { link, inbox := rest } far

/-- The acknowledgement that a delivery may call for is taken. -/
def AckTaken (near : RekeyEnd) : RekeyAction → Prop
  | .request _ _ _ => True
  | .deliver send _ => send (SessionControlCodec.encode near.link.ackOf) = .ok ()

omit [Hkdf] in
theorem take_nil (this : RekeyEnd) : this.take [] = this := by
  unfold take
  rw [List.append_nil]

theorem act_cases [LawfulHkdf] (able : near.link.Able prk initiator)
    (listed : ∀ wire ∈ near.inbox, ∃ message, wire = SessionControlCodec.encode message)
    {action : RekeyAction} (taken : near.AckTaken action) :
    Acts prk initiator near far (act near far action).1 (act near far action).2 := by
  cases action with
  | request ch0Open send onComplete =>
      obtain ⟨link, said, asked, alike, outcome⟩ :=
        near.link.request_cases ch0Open send onComplete
      unfold act
      dsimp only
      rw [asked]
      rcases outcome with ⟨rfl, waiting⟩ | ⟨rfl, free⟩
      · dsimp only
        rw [take_nil]
        exact .rests alike waiting
      · exact .asks alike free
  | deliver send nowMs =>
      unfold act
      cases heard : near.inbox with
      | nil =>
          have alike : near.link.Alike near.link := ⟨rfl, rfl, rfl⟩
          exact .rests alike rfl
      | cons payload rest =>
          obtain ⟨message, rfl⟩ := listed payload (heard ▸ List.mem_cons_self)
          dsimp only
          by_cases other : message.targetEpoch = near.link.sessionEpoch + 1
          · obtain ⟨_, next, epoch⟩ := able.stands.next nowMs
            obtain ⟨kind, targetEpoch⟩ := message
            obtain rfl : targetEpoch = near.link.sessionEpoch + 1 := other
            cases kind with
            | rekeyRequest =>
                have done := RekeyingLink.handle_follows able taken nowMs
                unfold RekeyingLink.requestOf at done
                rw [done]
                exact .follows heard ⟨able.usable, next⟩ epoch rfl rfl
            | rekeyAck =>
                have done := RekeyingLink.handle_lands able send nowMs
                unfold RekeyingLink.ackOf at done
                rw [done]
                dsimp only
                rw [take_nil]
                exact .lands heard ⟨able.usable, next⟩ epoch rfl rfl
          · rw [RekeyingLink.handle_ignores able other]
            dsimp only
            rw [take_nil]
            exact .ignores heard other

end Acting

section Pairing

/-- Two ends in one epoch. -/
structure Level (near far : RekeyEnd) : Prop where
  epoch : far.sessionEpoch = near.sessionEpoch
  hears : Calm near.sessionEpoch near.inbox
  heard : Calm near.sessionEpoch far.inbox

/-- An end and another that is an epoch ahead. -/
structure Behind (near far : RekeyEnd) : Prop where
  epoch : far.sessionEpoch = near.sessionEpoch + 1
  hears : Led near.sessionEpoch near.inbox
  heard : Targets (near.sessionEpoch + 1) far.inbox

def Staged (near far : RekeyEnd) : Prop := Level near far ∨ Behind near far ∨ Behind far near

/-- What the callback of an end waits for. -/
structure Asking (near far : RekeyEnd) : Prop where
  waits : near.link.rekeyCb.isSome = true → near.link.overtaken = false →
    far.sessionEpoch = near.sessionEpoch + 1 ∨
      SessionControlCodec.encode near.link.requestOf ∈ far.inbox
  /-- Once overtaken, for nothing. -/
  stuck : near.link.overtaken = true → near.link.rekeyCb.isSome = true ∧
    far.sessionEpoch ≠ near.sessionEpoch + 1 ∧
      SessionControlCodec.encode near.link.requestOf ∉ far.inbox

/-- Two ends of one session, an epoch apart at most. -/
structure Paired [Hkdf] (prk : Bytes) (initiator : Bool) (near far : RekeyEnd) : Prop where
  able : near.link.Able prk initiator
  farAble : far.link.Able prk (!initiator)
  staged : Staged near far
  asks : Asking near far
  farAsks : Asking far near

variable {prk : Bytes} {initiator : Bool}

theorem Level.symm (level : Level near far) : Level far near := by
  obtain ⟨epoch, hears, heard⟩ := level
  refine ⟨epoch.symm, ?_, ?_⟩
  · rw [epoch]
    exact heard
  · rw [epoch]
    exact hears

theorem Staged.symm (staged : Staged near far) : Staged far near := by
  rcases staged with level | behind | ahead
  · exact Or.inl level.symm
  · exact Or.inr (Or.inr behind)
  · exact Or.inr (Or.inl ahead)

theorem Paired.symm [Hkdf] (paired : Paired prk initiator near far) :
    Paired prk (!initiator) far near where
  able := paired.farAble
  farAble := by
    rw [Bool.not_not]
    exact paired.able
  staged := paired.staged.symm
  asks := paired.farAsks
  farAsks := paired.asks

theorem Targets.listed (targets : Targets epoch inbox) :
    ∀ wire ∈ inbox, ∃ message, wire = SessionControlCodec.encode message := by
  intro wire listed
  obtain ⟨message, _, same⟩ := targets wire listed
  exact ⟨message, same⟩

theorem Calm.listed (calm : Calm epoch inbox) :
    ∀ wire ∈ inbox, ∃ message, wire = SessionControlCodec.encode message := by
  obtain ⟨old, new, rfl, targets, requests⟩ := calm
  exact fun wire listed => (List.mem_append.mp listed).elim (targets.listed wire)
    (requests.targets.listed wire)

theorem Led.listed (led : Led epoch inbox) :
    ∀ wire ∈ inbox, ∃ message, wire = SessionControlCodec.encode message := by
  obtain ⟨old, message, later, rfl, targets, _, calm⟩ := led
  intro wire listed
  rcases List.mem_append.mp listed with former | latter
  · exact targets.listed wire former
  · rcases List.mem_cons.mp latter with rfl | last
    · exact ⟨message, rfl⟩
    · exact calm.listed wire last

theorem Staged.listed (staged : Staged near far) :
    ∀ wire ∈ near.inbox, ∃ message, wire = SessionControlCodec.encode message := by
  rcases staged with level | behind | ahead
  · exact level.hears.listed
  · exact behind.hears.listed
  · exact ahead.heard.listed

/-- A request that calls for a rekey comes from an end in the same epoch, or from one ahead
whose own rekey it asked for. -/
theorem Staged.hears_request (staged : Staged near far)
    (heard : near.inbox = SessionControlCodec.encode near.link.requestOf :: rest) :
    Level near far ∧ Requests near.sessionEpoch rest ∨
      Behind near far ∧ Calm (near.sessionEpoch + 1) rest := by
  have unlike : ∀ {message : SessionRekeyMessage}, message.targetEpoch = near.sessionEpoch →
      SessionControlCodec.encode near.link.requestOf ≠ SessionControlCodec.encode message := by
    rintro message target same
    obtain rfl := SessionControlCodec.encode_injective same
    exact epoch_next near.sessionEpoch target.symm
  rcases staged with level | behind | ahead
  · left
    have hears := level.hears
    rw [heard] at hears
    rcases hears.head with ⟨_, message, target, same⟩ | ⟨requests, _⟩
    · exact absurd same (unlike target)
    · exact ⟨level, requests⟩
  · right
    have hears := behind.hears
    rw [heard] at hears
    rcases hears.head with ⟨_, message, target, same⟩ | ⟨calm, _⟩
    · exact absurd same (unlike target)
    · exact ⟨behind, calm⟩
  · obtain ⟨message, target, same⟩ := ahead.heard _ (heard ▸ List.mem_cons_self)
    rw [← ahead.epoch] at target
    exact absurd same (unlike target)

/-- An acknowledgement that calls for a rekey comes from an end that is ahead. -/
theorem Staged.hears_ack (staged : Staged near far)
    (heard : near.inbox = SessionControlCodec.encode near.link.ackOf :: rest) :
    Behind near far ∧ Calm (near.sessionEpoch + 1) rest := by
  have unlike : ∀ {message : SessionRekeyMessage}, message.targetEpoch = near.sessionEpoch →
      SessionControlCodec.encode near.link.ackOf ≠ SessionControlCodec.encode message := by
    rintro message target same
    obtain rfl := SessionControlCodec.encode_injective same
    exact epoch_next near.sessionEpoch target.symm
  rcases staged with level | behind | ahead
  · have hears := level.hears
    rw [heard] at hears
    rcases hears.head with ⟨_, message, target, same⟩ | ⟨_, same⟩
    · exact absurd same (unlike target)
    · have kinds := congrArg SessionRekeyMessage.kind (SessionControlCodec.encode_injective same)
      exact SessionControlKind.noConfusion kinds
  · have hears := behind.hears
    rw [heard] at hears
    rcases hears.head with ⟨_, message, target, same⟩ | ⟨calm, _⟩
    · exact absurd same (unlike target)
    · exact ⟨behind, calm⟩
  · obtain ⟨message, target, same⟩ := ahead.heard _ (heard ▸ List.mem_cons_self)
    rw [← ahead.epoch] at target
    exact absurd same (unlike target)

/-- Nothing on its way is for an epoch two on. -/
theorem Calm.unsaid (calm : Calm epoch inbox) (kind : SessionControlKind) :
    SessionControlCodec.encode ⟨kind, epoch + 1 + 1⟩ ∉ inbox := by
  obtain ⟨old, new, rfl, targets, requests⟩ := calm
  intro listed
  rcases List.mem_append.mp listed with former | latter
  · obtain ⟨message, target, same⟩ := targets _ former
    obtain rfl := SessionControlCodec.encode_injective same
    exact epoch_twice epoch target.symm
  · have same := SessionControlCodec.encode_injective (requests _ latter)
    exact epoch_next (epoch + 1) (congrArg SessionRekeyMessage.targetEpoch same).symm

theorem Targets.unsaid (targets : Targets epoch inbox) (kind : SessionControlKind) :
    SessionControlCodec.encode ⟨kind, epoch + 1⟩ ∉ inbox := by
  intro listed
  obtain ⟨message, target, same⟩ := targets _ listed
  obtain rfl := SessionControlCodec.encode_injective same
  exact epoch_next epoch target.symm

theorem Staged.same {link : RekeyingLink} (staged : Staged near far)
    (epoch : link.sessionEpoch = near.sessionEpoch) : Staged { near with link } far := by
  have kept : sessionEpoch { near with link } = near.sessionEpoch := epoch
  rcases staged with ⟨apart, hears, heard⟩ | ⟨apart, hears, heard⟩ | ⟨apart, hears, heard⟩
  · rw [← kept] at apart hears heard
    exact Or.inl ⟨apart, hears, heard⟩
  · rw [← kept] at apart hears heard
    exact Or.inr (Or.inl ⟨apart, hears, heard⟩)
  · rw [← kept] at apart
    exact Or.inr (Or.inr ⟨apart, hears, heard⟩)

theorem Staged.asked (staged : Staged near far) :
    Staged near (far.take [SessionControlCodec.encode near.link.requestOf]) := by
  have asks : Requests near.sessionEpoch [SessionControlCodec.encode near.link.requestOf] :=
    fun wire listed => List.mem_singleton.mp listed
  rcases staged with level | behind | ahead
  · exact Or.inl ⟨level.epoch, level.hears, level.heard.ask asks⟩
  · exact Or.inr (Or.inl ⟨behind.epoch, behind.hears, behind.heard.append asks.targets⟩)
  · refine Or.inr (Or.inr ⟨ahead.epoch, ahead.hears.ask ?_, ahead.heard⟩)
    rw [ahead.epoch] at asks
    exact asks

theorem Staged.ignored {message : SessionRekeyMessage} (staged : Staged near far)
    (heard : near.inbox = SessionControlCodec.encode message :: rest)
    (other : message.targetEpoch ≠ near.sessionEpoch + 1) :
    Staged { near with inbox := rest } far := by
  rcases staged with level | behind | ahead
  · have hears := level.hears
    rw [heard] at hears
    rcases hears.head with ⟨calm, _⟩ | ⟨_, same⟩
    · exact Or.inl ⟨level.epoch, calm, level.heard⟩
    · have request := SessionControlCodec.encode_injective same
      exact absurd (congrArg SessionRekeyMessage.targetEpoch request) other
  · have hears := behind.hears
    rw [heard] at hears
    rcases hears.head with ⟨led, _⟩ | ⟨_, next, target, same⟩
    · exact Or.inr (Or.inl ⟨behind.epoch, led, behind.heard⟩)
    · obtain rfl := SessionControlCodec.encode_injective same
      exact absurd target other
  · have targets := ahead.heard
    rw [heard] at targets
    exact Or.inr (Or.inr ⟨ahead.epoch, ahead.hears,
      fun wire listed => targets wire (List.mem_cons_of_mem _ listed)⟩)

theorem Staged.followed {link : RekeyingLink} (staged : Staged near far)
    (heard : near.inbox = SessionControlCodec.encode near.link.requestOf :: rest)
    (epoch : link.sessionEpoch = near.sessionEpoch + 1) :
    Staged { link, inbox := rest } (far.take [SessionControlCodec.encode near.link.ackOf]) := by
  have moved : sessionEpoch { link, inbox := rest } = near.sessionEpoch + 1 := epoch
  rcases staged.hears_request heard with ⟨level, requests⟩ | ⟨behind, calm⟩
  · have led := level.heard.acked
    have targets := requests.targets
    rw [← level.epoch] at moved led targets
    refine Or.inr (Or.inr ⟨moved, ?_, targets⟩)
    unfold take
    unfold RekeyingLink.ackOf
    have same : near.link.sessionEpoch = far.sessionEpoch := level.epoch.symm
    rw [same]
    exact led
  · have acks : Targets (near.sessionEpoch + 1)
        [SessionControlCodec.encode near.link.ackOf] :=
      fun wire listed => ⟨_, rfl, List.mem_singleton.mp listed⟩
    have said := (behind.heard.append acks).calm
    have apart := behind.epoch
    rw [← moved] at calm said apart
    exact Or.inl ⟨apart, calm, said⟩

theorem Staged.landed {link : RekeyingLink} (staged : Staged near far)
    (heard : near.inbox = SessionControlCodec.encode near.link.ackOf :: rest)
    (epoch : link.sessionEpoch = near.sessionEpoch + 1) :
    Staged { link, inbox := rest } far := by
  have moved : sessionEpoch { link, inbox := rest } = near.sessionEpoch + 1 := epoch
  obtain ⟨behind, calm⟩ := staged.hears_ack heard
  have said := behind.heard.calm
  have apart := behind.epoch
  rw [← moved] at calm said apart
  exact Or.inl ⟨apart, calm, said⟩

theorem Asking.same {link : RekeyingLink} (asking : Asking near far)
    (alike : near.link.Alike link) (waiting : link.rekeyCb = near.link.rekeyCb) :
    Asking { near with link } far := by
  have epoch : link.session.material.sessionEpoch = near.link.session.material.sessionEpoch := by
    rw [alike.session]
  obtain ⟨waits, stuck⟩ := asking
  unfold RekeyEnd.sessionEpoch RekeyingLink.requestOf RekeyingLink.sessionEpoch at waits stuck
  rw [← waiting, ← alike.overtaken, ← epoch] at waits stuck
  exact ⟨waits, stuck⟩

/-- An end that asks waits for its request. -/
theorem Asking.asked {link : RekeyingLink} (asking : Asking near far)
    (alike : near.link.Alike link) (free : near.link.rekeyCb = none) :
    Asking { near with link } (far.take [SessionControlCodec.encode near.link.requestOf]) := by
  have same : link.requestOf = near.link.requestOf := by
    unfold RekeyingLink.requestOf RekeyingLink.sessionEpoch
    rw [alike.session]
  constructor
  · intro _ _
    right
    show SessionControlCodec.encode link.requestOf ∈ far.inbox ++ _
    rw [same]
    exact List.mem_append_right _ List.mem_cons_self
  · intro overtaken
    have waiting := (asking.stuck (alike.overtaken.symm.trans overtaken)).1
    rw [free] at waiting
    exact absurd waiting Bool.false_ne_true

/-- The other's epoch and what is on its way to it are all that the waiting depends on. -/
theorem Asking.unmoved {other : RekeyEnd} (asking : Asking far near)
    (epoch : other.sessionEpoch = near.sessionEpoch) (inbox : other.inbox = near.inbox) :
    Asking far other := by
  constructor
  · rw [epoch, inbox]
    exact asking.waits
  · rw [epoch, inbox]
    exact asking.stuck

/-- A message that the other ignores is not the request that an end waits for. -/
theorem Asking.ignored {message : SessionRekeyMessage} (asking : Asking far near)
    (staged : Staged near far) (heard : near.inbox = SessionControlCodec.encode message :: rest)
    (other : message.targetEpoch ≠ near.sessionEpoch + 1) :
    Asking far { near with inbox := rest } := by
  constructor
  · intro waiting free
    rcases asking.waits waiting free with ahead | listed
    · exact Or.inl ahead
    · rw [heard] at listed
      rcases List.mem_cons.mp listed with same | later
      · left
        obtain rfl := SessionControlCodec.encode_injective same
        rcases staged with level | behind | ahead
        · have epoch : far.sessionEpoch + 1 = near.sessionEpoch + 1 := by rw [level.epoch]
          exact absurd epoch other
        · have hears := behind.hears
          rw [heard] at hears
          rcases hears.head with ⟨_, message, target, same⟩ | ⟨_, message, target, same⟩
          · obtain rfl := SessionControlCodec.encode_injective same
            have epoch : far.sessionEpoch + 1 = near.sessionEpoch := target
            rw [behind.epoch] at epoch
            exact absurd epoch.symm (epoch_twice near.sessionEpoch)
          · obtain rfl := SessionControlCodec.encode_injective same
            exact absurd target other
        · exact ahead.epoch
      · exact Or.inr later
  · intro overtaken
    obtain ⟨waiting, apart, absent⟩ := asking.stuck overtaken
    refine ⟨waiting, apart, fun listed => absent ?_⟩
    rw [heard]
    exact List.mem_cons_of_mem _ listed

/-- An end that is ahead waits on while the other comes after it. -/
theorem Asking.moved_up {link : RekeyingLink} {message : SessionRekeyMessage}
    (asking : Asking far near) (behind : Behind near far)
    (heard : near.inbox = SessionControlCodec.encode message :: rest)
    (epoch : link.sessionEpoch = near.sessionEpoch + 1) :
    Asking far { link, inbox := rest } := by
  have moved : sessionEpoch { link, inbox := rest } = far.sessionEpoch :=
    epoch.trans behind.epoch.symm
  have hears := behind.hears
  rw [heard] at hears
  have unlike : SessionControlCodec.encode far.link.requestOf ≠
      SessionControlCodec.encode message := by
    intro same
    obtain rfl := SessionControlCodec.encode_injective same
    have target : far.sessionEpoch + 1 = near.sessionEpoch ∨
        far.sessionEpoch + 1 = near.sessionEpoch + 1 := by
      rcases hears.head with ⟨_, other, target, same⟩ | ⟨_, other, target, same⟩
      · obtain rfl := SessionControlCodec.encode_injective same
        exact Or.inl target
      · obtain rfl := SessionControlCodec.encode_injective same
        exact Or.inr target
    rw [behind.epoch] at target
    rcases target with twice | once
    · exact epoch_twice near.sessionEpoch twice.symm
    · exact epoch_next (near.sessionEpoch + 1) once.symm
  constructor
  · intro waiting free
    rcases asking.waits waiting free with ahead | listed
    · rw [behind.epoch] at ahead
      exact absurd ahead (epoch_twice near.sessionEpoch)
    · right
      rw [heard] at listed
      rcases List.mem_cons.mp listed with same | later
      · exact absurd same unlike
      · exact later
  · intro overtaken
    obtain ⟨waiting, _, absent⟩ := asking.stuck overtaken
    refine ⟨waiting, ?_, fun listed => absent ?_⟩
    · rw [moved]
      exact epoch_next far.sessionEpoch
    · rw [heard]
      exact List.mem_cons_of_mem _ listed

/-- An end that follows a request leaves its own callback, if one waits, with nothing to
wait for. -/
theorem Asking.followed {link : RekeyingLink} (asking : Asking near far) (staged : Staged near far)
    (heard : near.inbox = SessionControlCodec.encode near.link.requestOf :: rest)
    (epoch : link.sessionEpoch = near.sessionEpoch + 1)
    (waiting : link.rekeyCb = near.link.rekeyCb)
    (overtaken : link.overtaken = (near.link.overtaken || near.link.rekeyCb.isSome)) :
    Asking { link, inbox := rest } (far.take [SessionControlCodec.encode near.link.ackOf]) := by
  constructor
  · intro waits free
    have held : link.rekeyCb.isSome = true := waits
    have never : link.overtaken = false := free
    rw [overtaken, ← waiting, held, Bool.or_true] at never
    exact absurd never.symm Bool.false_ne_true
  · intro taken
    have before : (near.link.overtaken || near.link.rekeyCb.isSome) = true :=
      overtaken.symm.trans taken
    have held : near.link.rekeyCb.isSome = true := by
      rcases Bool.or_eq_true _ _ ▸ before with already | held
      · exact (asking.stuck already).1
      · exact held
    have next : (link.requestOf : SessionRekeyMessage) =
        ⟨.rekeyRequest, near.sessionEpoch + 1 + 1⟩ := by
      unfold RekeyingLink.requestOf
      rw [epoch]
    refine ⟨waiting ▸ held, ?_, ?_⟩
    · show far.sessionEpoch ≠ link.sessionEpoch + 1
      rw [epoch]
      rcases staged.hears_request heard with ⟨level, _⟩ | ⟨behind, _⟩
      · rw [level.epoch]
        exact epoch_twice near.sessionEpoch
      · rw [behind.epoch]
        exact epoch_next (near.sessionEpoch + 1)
    · show SessionControlCodec.encode link.requestOf ∉ far.inbox ++ _
      rw [next]
      intro listed
      rcases List.mem_append.mp listed with earlier | ack
      · rcases staged.hears_request heard with ⟨level, _⟩ | ⟨behind, _⟩
        · exact level.heard.unsaid .rekeyRequest earlier
        · exact behind.heard.unsaid .rekeyRequest earlier
      · have same := SessionControlCodec.encode_injective (List.mem_singleton.mp ack)
        exact SessionControlKind.noConfusion (congrArg SessionRekeyMessage.kind same)

/-- An end whose request was followed is led. -/
theorem Asking.followed_by {link : RekeyingLink} (asking : Asking far near)
    (staged : Staged near far)
    (heard : near.inbox = SessionControlCodec.encode near.link.requestOf :: rest)
    (epoch : link.sessionEpoch = near.sessionEpoch + 1) :
    Asking far { link, inbox := rest } := by
  have moved : sessionEpoch { link, inbox := rest } = near.sessionEpoch + 1 := epoch
  rcases staged.hears_request heard with ⟨level, _⟩ | ⟨behind, _⟩
  · have own : far.link.requestOf = near.link.requestOf := by
      unfold RekeyingLink.requestOf
      have same : far.link.sessionEpoch = near.link.sessionEpoch := level.epoch
      rw [same]
    constructor
    · intro _ _
      left
      rw [moved, level.epoch]
    · intro overtaken
      have absent := (asking.stuck overtaken).2.2
      rw [own, heard] at absent
      exact absurd List.mem_cons_self absent
  · exact asking.moved_up behind heard moved

/-- An acknowledgement ends the waiting. -/
theorem Asking.landed {link : RekeyingLink} (asking : Asking near far) (behind : Behind near far)
    (told : link.rekeyCb = none) (overtaken : link.overtaken = near.link.overtaken) :
    Asking { link, inbox := rest } far := by
  constructor
  · intro waits
    have held : link.rekeyCb.isSome = true := waits
    rw [told] at held
    exact absurd held Bool.false_ne_true
  · intro taken
    have before : near.link.overtaken = true := overtaken.symm.trans taken
    exact absurd behind.epoch (asking.stuck before).2.1

end Pairing

section Running

variable [Hkdf] {prk : Bytes} {initiator : Bool}

theorem Acts.paired {near' far' : RekeyEnd} (acts : Acts prk initiator near far near' far')
    (paired : Paired prk initiator near far) : Paired prk initiator near' far' := by
  obtain ⟨able, farAble, staged, asks, farAsks⟩ := paired
  cases acts with
  | rests alike waiting =>
      have epoch := congrArg (fun session => session.material.sessionEpoch) alike.session
      exact ⟨alike.able able, farAble, staged.same epoch, asks.same alike waiting,
        farAsks.unmoved epoch rfl⟩
  | asks alike free =>
      rename_i link
      have epoch := congrArg (fun session => session.material.sessionEpoch) alike.session
      have asked : Staged { near with link } _ := staged.asked.same epoch
      refine ⟨alike.able able, farAble, asked, asks.asked alike free, ?_⟩
      have kept : Asking (far.take [SessionControlCodec.encode near.link.requestOf]) near :=
        ⟨farAsks.waits, farAsks.stuck⟩
      exact kept.unmoved epoch rfl
  | ignores heard other =>
      exact ⟨able, farAble, staged.ignored heard other, ⟨asks.waits, asks.stuck⟩,
        farAsks.ignored staged heard other⟩
  | follows heard moved epoch waiting overtaken =>
      refine ⟨moved, farAble, staged.followed heard epoch,
        asks.followed staged heard epoch waiting overtaken, ?_⟩
      have led := farAsks.followed_by staged heard epoch
      exact ⟨led.waits, led.stuck⟩
  | lands heard moved epoch told overtaken =>
      obtain ⟨behind, _⟩ := staged.hears_ack heard
      exact ⟨moved, farAble, staged.landed heard epoch, asks.landed behind told overtaken,
        farAsks.moved_up behind heard epoch⟩

/-- `SendData` takes every acknowledgement that is called for. -/
def AcksTaken (ends : Ends RekeyEnd) (event : Duplex.Side × RekeyAction) : Prop :=
  (ends.endAt event.1).AckTaken event.2

variable [LawfulHkdf]

theorem step_paired {ends : Ends RekeyEnd} {event : Duplex.Side × RekeyAction}
    (taken : AcksTaken ends event) (paired : Paired prk true ends.left ends.right) :
    Paired prk true (step ends event).left (step ends event).right := by
  obtain ⟨side, action⟩ := event
  cases side with
  | left => exact (act_cases paired.able paired.staged.listed taken).paired paired
  | right =>
      have turned := paired.symm
      exact ((act_cases turned.able turned.staged.listed taken).paired turned).symm

omit [LawfulHkdf] in
theorem joined_paired {masterIkm transcriptHash : Bytes} {sessionEpoch : UInt32}
    {left right : Rekeyed}
    (one : Rekeyed.handshaken masterIkm transcriptHash true sessionEpoch = .ok left)
    (two : Rekeyed.handshaken masterIkm transcriptHash false sessionEpoch = .ok right) :
    ∃ prk, Paired prk true (joined left right).left (joined left right).right := by
  obtain ⟨prk, extracted, first⟩ := Rekeyed.handshaken_keyed one
  obtain ⟨other, alike, second⟩ := Rekeyed.handshaken_keyed two
  obtain rfl : other = prk := Option.some.inj (alike.symm.trans extracted)
  have epochs : right.session.material.sessionEpoch = left.session.material.sessionEpoch :=
    (Rekeyed.handshaken_epoch two).trans (Rekeyed.handshaken_epoch one).symm
  have idle : ∀ near far : Rekeyed, Asking ⟨{ session := near.session }, []⟩
      ⟨{ session := far.session }, []⟩ :=
    fun near far => ⟨fun waits => absurd waits Bool.false_ne_true,
      fun taken => absurd taken Bool.false_ne_true⟩
  exact ⟨other, ⟨rfl, first.stands⟩, ⟨rfl, second.stands⟩,
    Or.inl ⟨epochs, Calm.nil, Calm.nil⟩, idle left right, idle right left⟩

section Following

variable [Aead] [LawfulAead]

/-- What one end can always rely on of another of its session. -/
structure Follows (one two : RekeyEnd) : Prop where
  apart : two.sessionEpoch = one.sessionEpoch ∨ two.sessionEpoch = one.sessionEpoch + 1 ∨
    one.sessionEpoch = two.sessionEpoch + 1
  settled : one.inbox = [] → two.inbox = [] → two.sessionEpoch = one.sessionEpoch
  /-- The other opens a packet in its own epoch or, in the grace after its rekey, in the one
  before, and none of an end that is ahead. -/
  opens : ∀ (space : PacketSpace) (number : UInt32) (header plaintext body : Bytes),
    one.link.session.sealPacket space number header plaintext = .ok body →
    ∀ (otherSpace : PacketSpace) (otherNumber : UInt32) (otherHeader : Bytes) (nowMs : Int),
      two.link.session.openPacket otherSpace otherNumber otherHeader body nowMs =
        if (otherSpace = space ∧ otherNumber = number ∧ otherHeader = header) ∧
          (two.sessionEpoch = one.sessionEpoch ∨ two.sessionEpoch = one.sessionEpoch + 1 ∧
            0 < nowMs ∧ nowMs ≤ two.link.session.graceUntilMs) then .ok plaintext
        else .error "AEAD decrypt failed"

omit [Hkdf] [LawfulHkdf] [Aead] [LawfulAead] in
theorem Staged.settled (staged : Staged near far) (still : near.inbox = [])
    (quiet : far.inbox = []) : far.sessionEpoch = near.sessionEpoch := by
  rcases staged with level | behind | ahead
  · exact level.epoch
  · exact absurd still behind.hears.ne_nil
  · exact absurd quiet ahead.hears.ne_nil

theorem Paired.follows (paired : Paired prk initiator near far) : Follows near far where
  apart := by
    rcases paired.staged with level | behind | ahead
    · exact Or.inl level.epoch
    · exact Or.inr (Or.inl behind.epoch)
    · exact Or.inr (Or.inr ahead.epoch)
  settled := paired.staged.settled
  opens _ _ _ _ _ sealed otherSpace otherNumber otherHeader nowMs :=
    Rekeyed.Keyed.opens paired.able.stands paired.farAble.stands sealed otherSpace otherNumber
      otherHeader nowMs

/-- Two ends of a session never come more than an epoch apart, meet whenever channel 0 has
nothing left to bring, and open for each other exactly what they can in between. -/
theorem rekeys_follow {masterIkm transcriptHash : Bytes} {sessionEpoch : UInt32}
    {left right : Rekeyed}
    (one : Rekeyed.handshaken masterIkm transcriptHash true sessionEpoch = .ok left)
    (two : Rekeyed.handshaken masterIkm transcriptHash false sessionEpoch = .ok right)
    (events : List (Duplex.Side × RekeyAction))
    (taken : Run.Meets step AcksTaken (joined left right) events) :
    Run.Always step (Ends.Both Follows) (joined left right) events := by
  obtain ⟨prk, paired⟩ := joined_paired one two
  apply Run.always_of_invariant step AcksTaken
    (fun ends => Paired prk true ends.left ends.right) (Ends.Both Follows)
  · exact fun _ _ taken paired => step_paired taken paired
  · exact fun _ paired => ⟨paired.follows, paired.symm.follows⟩
  · exact taken
  · exact paired

end Following

end Running

section Settling

/-- A request may be answered, an acknowledgement is not. -/
def weight (wire : Bytes) : Nat :=
  match SessionControlCodec.decode wire with
  | .ok ⟨.rekeyRequest, _⟩ => 2
  | _ => 1

def weights (wires : List Bytes) : Nat := (wires.map weight).sum

def sends (_ : Bytes) : Except String Unit := .ok ()

theorem weights_append (first second : List Bytes) :
    weights (first ++ second) = weights first + weights second := by
  unfold weights
  rw [List.map_append, List.sum_append]

variable [Hkdf]

/-- What is said in answer weighs less than what was heard. -/
theorem handle_weighs (link : RekeyingLink) (send : Bytes → Except String Unit) (nowMs : Int)
    (payload : Bytes) : weights (link.handleSessionControl send nowMs payload).2 < weight payload := by
  have positive : 0 < weight payload := by
    unfold weight
    split
    · omega
    · omega
  unfold RekeyingLink.handleSessionControl
  split
  · exact positive
  · split
    · exact positive
    · rename_i targetEpoch decoded
      have heavy : weight payload = 2 := by
        unfold weight
        rw [decoded]
      unfold RekeyingLink.onRekeyRequest
      split
      · exact positive
      · dsimp only
        split
        · exact positive
        · have light : weights [SessionControlCodec.encode ⟨.rekeyAck, targetEpoch⟩] = 1 := by
            unfold weights weight
            rw [List.map_singleton, SessionControlCodec.decode_encode]
            rfl
          rw [light, heavy]
          omega
    · exact positive

theorem deliver_weighs (far : RekeyEnd) {payload : Bytes} (heard : near.inbox = payload :: rest)
    (send : Bytes → Except String Unit) (nowMs : Int) :
    weights (act near far (.deliver send nowMs)).1.inbox +
      weights (act near far (.deliver send nowMs)).2.inbox <
        weights near.inbox + weights far.inbox := by
  have weighs := handle_weighs near.link send nowMs payload
  unfold act
  rw [heard]
  dsimp only
  show weights rest + weights (far.inbox ++ _) < weights (payload :: rest) + _
  have whole : weights (payload :: rest) = weight payload + weights rest := by
    unfold weights
    rw [List.map_cons, List.sum_cons]
  rw [weights_append, whole]
  omega

/-- Deliveries alone bring everything that is on its way. -/
theorem settles (nowMs : Int) (ends : Ends RekeyEnd) :
    ∃ later : List Duplex.Side,
      let events := later.map fun side => (side, RekeyAction.deliver sends nowMs)
      (Run.exec step ends events).left.inbox = [] ∧ (Run.exec step ends events).right.inbox = [] := by
  induction bound : weights ends.left.inbox + weights ends.right.inbox using Nat.strongRecOn
    generalizing ends with
  | ind total ih =>
      cases left : ends.left.inbox with
      | cons payload rest =>
          have less := deliver_weighs ends.right left sends nowMs
          rw [bound] at less
          obtain ⟨later, done⟩ := ih _ less (step ends (.left, .deliver sends nowMs)) rfl
          exact ⟨.left :: later, done⟩
      | nil =>
          cases right : ends.right.inbox with
          | cons payload rest =>
              have less := deliver_weighs ends.left right sends nowMs
              rw [Nat.add_comm (weights ends.right.inbox), bound] at less
              rw [Nat.add_comm] at less
              obtain ⟨later, done⟩ := ih _ less (step ends (.right, .deliver sends nowMs)) rfl
              exact ⟨.right :: later, done⟩
          | nil => exact ⟨[], left, right⟩

end Settling

section Accounting

/-- The callbacks a link was given: those it has told, those it let go of and the one that
waits. -/
def given (this : RekeyEnd) : List Nat :=
  this.link.answers.map (fun answer => answer.1) ++ this.link.lost ++ this.link.rekeyCb.toList

def callbackOf : RekeyAction → List Nat
  | .request _ _ onComplete => onComplete.toList
  | .deliver _ _ => []

/-- The callbacks that a run gives an end. -/
def callbacksOf (side : Duplex.Side) (events : List (Duplex.Side × RekeyAction)) : List Nat :=
  events.flatMap fun event => if event.1 = side then callbackOf event.2 else []

theorem told_names (callback : Option Nat) (answer : Except String Unit) :
    (callback.toList.map fun call => (call, answer)).map (fun told => told.1) =
      callback.toList := by
  cases callback with
  | none => rfl
  | some call => rfl

theorem request_given (link : RekeyingLink) (inbox : List Bytes) (ch0Open : Bool)
    (send : Bytes → Except String Unit) (onComplete : Option Nat) :
    (given ⟨(link.requestSessionRekey ch0Open send onComplete).1, inbox⟩).Perm
      (given ⟨link, inbox⟩ ++ onComplete.toList) := by
  have told : ∀ answer, (given ⟨link.tell onComplete answer, inbox⟩).Perm
      (given ⟨link, inbox⟩ ++ onComplete.toList) := by
    intro answer
    unfold given RekeyingLink.tell
    dsimp only
    rw [List.map_append, told_names]
    have swap : (onComplete.toList ++ (link.lost ++ link.rekeyCb.toList)).Perm
        (link.lost ++ link.rekeyCb.toList ++ onComplete.toList) := List.perm_append_comm
    have shift := swap.append_left (link.answers.map fun told => told.1)
    simpa only [List.append_assoc] using shift
  unfold RekeyingLink.requestSessionRekey
  split
  · exact told _
  · split
    · exact told _
    · rename_i _ free
      have none : link.rekeyCb = none := by simpa using free
      have lost : (given ⟨{ link with lost := link.lost ++ onComplete.toList }, inbox⟩).Perm
          (given ⟨link, inbox⟩ ++ onComplete.toList) := by
        unfold given
        dsimp only
        rw [none]
        simp
      dsimp only
      split
      · exact lost
      · split
        · exact lost
        · unfold given
          dsimp only
          rw [none]
          simp

variable [Hkdf]

theorem handle_given (link : RekeyingLink) (inbox later : List Bytes)
    (send : Bytes → Except String Unit) (nowMs : Int) (payload : Bytes) :
    (given ⟨(link.handleSessionControl send nowMs payload).1, later⟩).Perm
      (given ⟨link, inbox⟩) := by
  unfold RekeyingLink.handleSessionControl
  split
  · exact List.Perm.refl _
  · split
    · exact List.Perm.refl _
    · unfold RekeyingLink.onRekeyRequest
      split
      · exact List.Perm.refl _
      · exact List.Perm.refl _
    · unfold RekeyingLink.onRekeyAck
      split
      · exact List.Perm.refl _
      · unfold given RekeyingLink.tell
        dsimp only
        rw [List.map_append, told_names, List.append_assoc, List.append_assoc, List.append_assoc]
        apply List.Perm.append_left
        rw [Option.toList_none, List.append_nil]
        exact List.perm_append_comm

theorem act_given (near far : RekeyEnd) (action : RekeyAction) :
    (act near far action).1.given.Perm (near.given ++ callbackOf action) ∧
      (act near far action).2.given = far.given := by
  cases action with
  | request ch0Open send onComplete =>
      exact ⟨request_given near.link near.inbox ch0Open send onComplete, rfl⟩
  | deliver send nowMs =>
      unfold act
      dsimp only
      split
      · exact ⟨by rw [callbackOf, List.append_nil], rfl⟩
      · rename_i payload rest heard
        refine ⟨?_, rfl⟩
        rw [callbackOf, List.append_nil]
        exact handle_given near.link near.inbox rest send nowMs payload

theorem step_given (ends : Ends RekeyEnd) (event : Duplex.Side × RekeyAction)
    (side : Duplex.Side) :
    ((step ends event).endAt side).given.Perm
      ((ends.endAt side).given ++ if event.1 = side then callbackOf event.2 else []) := by
  obtain ⟨acting, action⟩ := event
  cases acting with
  | left =>
      obtain ⟨own, other⟩ := act_given ends.left ends.right action
      cases side with
      | left => exact own
      | right => exact List.Perm.of_eq (by simpa [Ends.endAt, step] using other)
  | right =>
      obtain ⟨own, other⟩ := act_given ends.right ends.left action
      cases side with
      | left => exact List.Perm.of_eq (by simpa [Ends.endAt, step] using other)
      | right => exact own

theorem run_given (side : Duplex.Side) (events : List (Duplex.Side × RekeyAction)) :
    ∀ ends : Ends RekeyEnd, ((Run.exec step ends events).endAt side).given.Perm
      ((ends.endAt side).given ++ callbacksOf side events) := by
  induction events with
  | nil =>
      intro ends
      exact List.Perm.of_eq (List.append_nil _).symm
  | cons event rest ih =>
      intro ends
      have once := (step_given ends event side).append_right (callbacksOf side rest)
      rw [List.append_assoc] at once
      exact (ih (step ends event)).trans once

end Accounting

section Answering

variable [Hkdf]

/-- With nothing left on its way, a callback waits only where an end was overtaken, and then
for good. -/
structure Answered (side : Duplex.Side) (events : List (Duplex.Side × RekeyAction))
    (ends : Ends RekeyEnd) : Prop where
  quiet : (ends.endAt side).inbox = []
  level : (ends.endAt side).sessionEpoch = (ends.endAt side.other).sessionEpoch
  once : (ends.endAt side).given.Perm (callbacksOf side events)
  waits : (ends.endAt side).link.rekeyCb.isSome = (ends.endAt side).link.overtaken
  stuck : (ends.endAt side).link.overtaken = true → ∀ more, Run.Meets step AcksTaken ends more →
    ((Run.exec step ends more).endAt side).link.rekeyCb = (ends.endAt side).link.rekeyCb

variable {prk : Bytes}

omit [Hkdf] in
theorem Asking.waits_iff (asking : Asking near far) (quiet : far.inbox = [])
    (level : far.sessionEpoch = near.sessionEpoch) :
    near.link.rekeyCb.isSome = near.link.overtaken := by
  cases overtaken : near.link.overtaken with
  | true => exact (asking.stuck overtaken).1
  | false =>
      by_contra waiting
      have held : near.link.rekeyCb.isSome = true := Bool.eq_true_of_not_eq_false waiting
      rcases asking.waits held overtaken with ahead | listed
      · rw [level] at ahead
        exact epoch_next near.sessionEpoch ahead
      · rw [quiet] at listed
        exact absurd listed List.not_mem_nil

theorem Acts.stuck {initiator : Bool} {near' far' : RekeyEnd}
    (acts : Acts prk initiator near far near' far') (paired : Paired prk initiator near far)
    (overtaken : near.link.overtaken = true) :
    near'.link.overtaken = true ∧ near'.link.rekeyCb = near.link.rekeyCb := by
  have waiting := (paired.asks.stuck overtaken).1
  cases acts with
  | rests alike same => exact ⟨alike.overtaken.trans overtaken, same⟩
  | asks alike free =>
      rw [free] at waiting
      exact absurd waiting Bool.false_ne_true
  | ignores heard other => exact ⟨overtaken, rfl⟩
  | follows heard able epoch same taken =>
      rw [overtaken, Bool.true_or] at taken
      exact ⟨taken, same⟩
  | lands heard able epoch told taken =>
      obtain ⟨behind, _⟩ := paired.staged.hears_ack heard
      exact absurd behind.epoch (paired.asks.stuck overtaken).2.1

theorem act_far (near far : RekeyEnd) (action : RekeyAction) :
    (act near far action).2.link = far.link := by
  cases action with
  | request ch0Open send onComplete => rfl
  | deliver send nowMs =>
      unfold act
      dsimp only
      split
      · rfl
      · rfl

theorem step_stuck [LawfulHkdf] {ends : Ends RekeyEnd} {event : Duplex.Side × RekeyAction}
    (taken : AcksTaken ends event) (paired : Paired prk true ends.left ends.right)
    {side : Duplex.Side} (overtaken : (ends.endAt side).link.overtaken = true) :
    ((step ends event).endAt side).link.overtaken = true ∧
      ((step ends event).endAt side).link.rekeyCb = (ends.endAt side).link.rekeyCb := by
  obtain ⟨acting, action⟩ := event
  have turned := paired.symm
  cases acting with
  | left =>
      cases side with
      | left => exact (act_cases paired.able paired.staged.listed taken).stuck paired overtaken
      | right =>
          have same : ((step ends (.left, action)).endAt .right).link = ends.right.link :=
            act_far ends.left ends.right action
          rw [same]
          exact ⟨overtaken, rfl⟩
  | right =>
      cases side with
      | left =>
          have same : ((step ends (.right, action)).endAt .left).link = ends.left.link :=
            act_far ends.right ends.left action
          rw [same]
          exact ⟨overtaken, rfl⟩
      | right => exact (act_cases turned.able turned.staged.listed taken).stuck turned overtaken

theorem run_stuck [LawfulHkdf] {ends : Ends RekeyEnd} (paired : Paired prk true ends.left ends.right)
    {side : Duplex.Side} (overtaken : (ends.endAt side).link.overtaken = true)
    (more : List (Duplex.Side × RekeyAction)) (taken : Run.Meets step AcksTaken ends more) :
    ((Run.exec step ends more).endAt side).link.rekeyCb = (ends.endAt side).link.rekeyCb := by
  have kept := Run.invariant step AcksTaken (fun reached =>
    Paired prk true reached.left reached.right ∧ (reached.endAt side).link.overtaken = true ∧
      (reached.endAt side).link.rekeyCb = (ends.endAt side).link.rekeyCb) ?_ more ends taken
      ⟨paired, overtaken, rfl⟩
  · exact kept.2.2
  · rintro reached event allowed ⟨paired, overtaken, same⟩
    obtain ⟨still, waiting⟩ := step_stuck allowed paired overtaken
    exact ⟨step_paired allowed paired, still, waiting.trans same⟩

theorem meets_deliveries (later : List Duplex.Side) (nowMs : Int) :
    ∀ ends : Ends RekeyEnd, Run.Meets step AcksTaken ends
      (later.map fun side => (side, RekeyAction.deliver sends nowMs)) := by
  induction later with
  | nil => exact fun _ => trivial
  | cons side rest ih => exact fun ends => ⟨rfl, ih _⟩

omit [Hkdf] in
theorem callbacksOf_deliveries (side : Duplex.Side) (later : List Duplex.Side) (nowMs : Int) :
    callbacksOf side (later.map fun side => (side, RekeyAction.deliver sends nowMs)) = [] := by
  unfold callbacksOf
  rw [List.flatMap_map]
  simp [callbackOf]

/-- Whatever two ends have asked of each other, bringing what is on its way leaves them in one
epoch with every callback told, let go of by its own call, or overtaken by the other's. -/
theorem rekeys_settle [LawfulHkdf] {masterIkm transcriptHash : Bytes} {sessionEpoch : UInt32}
    {left right : Rekeyed}
    (one : Rekeyed.handshaken masterIkm transcriptHash true sessionEpoch = .ok left)
    (two : Rekeyed.handshaken masterIkm transcriptHash false sessionEpoch = .ok right)
    (events : List (Duplex.Side × RekeyAction))
    (taken : Run.Meets step AcksTaken (joined left right) events) (nowMs : Int) :
    ∃ later : List Duplex.Side, ∀ side, Answered side events
      (Run.exec step (Run.exec step (joined left right) events)
        (later.map fun side => (side, RekeyAction.deliver sends nowMs))) := by
  obtain ⟨prk, paired⟩ := joined_paired one two
  have reached := Run.invariant step AcksTaken (fun ends => Paired prk true ends.left ends.right)
    (fun _ _ taken paired => step_paired taken paired) events _ taken paired
  obtain ⟨later, leftDone, rightDone⟩ := settles nowMs (Run.exec step (joined left right) events)
  have final := Run.invariant step AcksTaken (fun ends => Paired prk true ends.left ends.right)
    (fun _ _ taken paired => step_paired taken paired) _ _ (meets_deliveries later nowMs _) reached
  refine ⟨later, fun side => ?_⟩
  have level := final.staged.settled leftDone rightDone
  have given := (run_given side (later.map fun side => (side, RekeyAction.deliver sends nowMs))
    (Run.exec step (joined left right) events)).trans
      ((run_given side events (joined left right)).append_right _)
  rw [callbacksOf_deliveries, List.append_nil] at given
  cases side with
  | left => exact ⟨leftDone, level.symm, given, final.asks.waits_iff rightDone level,
      run_stuck final⟩
  | right => exact ⟨rightDone, level, given, final.farAsks.waits_iff leftDone level.symm,
      run_stuck final⟩

end Answering

/-- Both ends ask at once. -/
def crossing : List (Duplex.Side × RekeyAction) :=
  [(.left, .request true sends (some 0)), (.right, .request true sends (some 1)),
    (.right, .deliver sends 500), (.left, .deliver sends 510)]

def sampleEnds : Ends RekeyEnd := joined (Rekeyed.sampleEnd true) (Rekeyed.sampleEnd false)

theorem rekeys_follow_sample :
    (Run.exec step sampleEnds crossing).left.sessionEpoch = 2 ∧
      (Run.exec step sampleEnds crossing).right.sessionEpoch = 2 ∧
      Run.Always step (Ends.Both Follows) sampleEnds crossing :=
  ⟨by decide +kernel, by decide +kernel, rekeys_follow (Rekeyed.handshaken_sampleEnd true)
    (Rekeyed.handshaken_sampleEnd false) crossing ⟨trivial, trivial, rfl, rfl, trivial⟩⟩

/-- Both were overtaken: both callbacks wait for good. -/
theorem rekeys_settle_sample :
    (Run.exec step sampleEnds crossing).left.link.overtaken = true ∧
      (Run.exec step sampleEnds crossing).right.link.overtaken = true ∧
      ∃ later : List Duplex.Side, ∀ side, Answered side crossing
        (Run.exec step (Run.exec step sampleEnds crossing)
          (later.map fun side => (side, RekeyAction.deliver sends 520))) :=
  ⟨by decide +kernel, by decide +kernel, rekeys_settle (Rekeyed.handshaken_sampleEnd true)
    (Rekeyed.handshaken_sampleEnd false) crossing ⟨trivial, trivial, rfl, rfl, trivial⟩ 520⟩

end RekeyEnd

end Amp
