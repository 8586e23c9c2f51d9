import Amp.L2.Sample
import Amp.L2.Session
import Amp.Lib.Run

set_option autoImplicit false

/- What rekeys do to a session, and which packets two sessions of one handshake
open for each other. -/
namespace Amp

open Adp (Bytes PacketSpace)
open SessionKeys (outDirection inDirection Derived derive directionKey)

namespace Session

theorem fromMaterial_ok {material : SessionMaterial} {masterIkm transcriptHash : Bytes}
    {session : Session} (accepted : fromMaterial material masterIkm transcriptHash = .ok session) :
    masterIkm ≠ [] ∧ session = { material, masterIkm, transcriptHash } := by
  unfold fromMaterial at accepted
  split_ifs at accepted with _ empty
  cases accepted
  exact ⟨empty, rfl⟩

/-- A call that leaves everything it could change, and so every packet it would seal
or open, as it was. -/
structure Undisturbed [Aead] (before after : Session) : Prop where
  sessionEpoch : after.material.sessionEpoch = before.material.sessionEpoch
  kSend : after.material.kSend = before.material.kSend
  kRecv : after.material.kRecv = before.material.kRecv
  previousRecvKey : after.previousRecvKey = before.previousRecvKey
  graceUntilMs : after.graceUntilMs = before.graceUntilMs
  seals : after.sealPacket = before.sealPacket
  opens : after.openPacket = before.openPacket

theorem Undisturbed.refl [Aead] (session : Session) : Undisturbed session session :=
  ⟨rfl, rfl, rfl, rfl, rfl, rfl, rfl⟩

section Rekeys

variable [Hkdf]

/-- The two checks `Derive` makes of what a session keeps for its rekeys. -/
def Rekeyable (session : Session) : Prop :=
  session.masterIkm ≠ [] ∧ session.transcriptHash.length = kTranscriptHashBytes

@[simp] theorem refresh_inputs (session : Session) :
    session.refresh.1.masterIkm = session.masterIkm ∧
      session.refresh.1.transcriptHash = session.transcriptHash := by
  unfold refresh
  split <;> exact ⟨rfl, rfl⟩

theorem refresh_misfit {session : Session} (filled : session.masterIkm ≠ [])
    (misfit : session.transcriptHash.length ≠ kTranscriptHashBytes) :
    session.refresh = (session, .error "amp: bad transcript hash size") := by
  unfold refresh
  rw [SessionKeys.derive_misfit filled misfit]

theorem refresh_fit [LawfulHkdf] {session : Session} (fit : session.Rekeyable) :
    ∃ material, derive session.masterIkm session.transcriptHash session.material.initiator
        session.material.sessionEpoch = .ok material ∧
      session.refresh = ({ session with material := { session.material with
        kSend := material.kSend
        kRecv := material.kRecv } }, .ok ()) := by
  obtain ⟨material, done⟩ := SessionKeys.derive_fit fit.1 fit.2 session.material.initiator
    session.material.sessionEpoch
  refine ⟨material, done, ?_⟩
  unfold refresh
  rw [done]

theorem call_inputs (session : Session) (next : Call) :
    (session.call next).1.masterIkm = session.masterIkm ∧
      (session.call next).1.transcriptHash = session.transcriptHash := by
  cases next with
  | rekey =>
      have kept := refresh_inputs { session with material := { session.material with
        sessionEpoch := session.material.sessionEpoch + 1 } }
      simp only [call, rekey]
      split
      all_goals
        rename_i outcome
        rw [outcome] at kept
        exact kept
  | applyRekey targetEpoch nowMs =>
      simp only [call, applyRekey]
      split
      · exact ⟨rfl, rfl⟩
      · exact refresh_inputs _

theorem run_inputs (session : Session) (calls : List Call) :
    (Run.exec step session calls).masterIkm = session.masterIkm ∧
      (Run.exec step session calls).transcriptHash = session.transcriptHash := by
  apply Run.invariant_always step (fun reached => reached.masterIkm = session.masterIkm ∧
    reached.transcriptHash = session.transcriptHash)
  · intro reached next kept
    have inputs := call_inputs reached next
    exact ⟨inputs.1.trans kept.1, inputs.2.trans kept.2⟩
  · exact ⟨rfl, rfl⟩

/-- A rekey to any epoch but the next one. -/
def Call.Unexpected (session : Session) : Call → Prop
  | .rekey => False
  | .applyRekey targetEpoch _ => targetEpoch ≠ session.material.sessionEpoch + 1

theorem applyRekey_expected {session : Session} {targetEpoch : UInt32}
    (expected : targetEpoch = session.material.sessionEpoch + 1) (nowMs : Int) :
    session.applyRekey targetEpoch nowMs = refresh { session with
      previousRecvKey := some session.material.kRecv
      graceUntilMs := nowMs + kSessionRekeyGraceMs
      material := { session.material with sessionEpoch := targetEpoch } } :=
  if_neg (not_not.mpr expected)

theorem call_unexpected {session : Session} {next : Call} (unexpected : next.Unexpected session) :
    (session.call next).1 = session := by
  cases next with
  | rekey => exact absurd unexpected id
  | applyRekey targetEpoch nowMs =>
      have other : targetEpoch ≠ session.material.sessionEpoch + 1 := unexpected
      simp only [call, applyRekey, other, ne_eq, not_false_eq_true, ↓reduceIte]

/-- Where the kept inputs pass, a rekey that is expected succeeds. -/
theorem call_fit [LawfulHkdf] {session : Session} (fit : session.Rekeyable) (next : Call) :
    (session.call next).2 = .ok () ∨
      next.Unexpected session := by
  cases next with
  | rekey =>
      left
      have bumped : Rekeyable { session with material := { session.material with
        sessionEpoch := session.material.sessionEpoch + 1 } } := fit
      obtain ⟨material, _, refreshed⟩ := refresh_fit bumped
      simp only [call, rekey, refreshed]
  | applyRekey targetEpoch nowMs =>
      by_cases expected : targetEpoch = session.material.sessionEpoch + 1
      · left
        have moved : Rekeyable { session with
          previousRecvKey := some session.material.kRecv
          graceUntilMs := nowMs + kSessionRekeyGraceMs
          material := { session.material with sessionEpoch := targetEpoch } } := fit
        obtain ⟨material, _, refreshed⟩ := refresh_fit moved
        rw [call, applyRekey_expected expected, refreshed]
      · exact Or.inr expected

/-- Where they do not, it fails with the next epoch already in place. -/
theorem call_misfit {session : Session} (filled : session.masterIkm ≠ [])
    (misfit : session.transcriptHash.length ≠ kTranscriptHashBytes) {next : Call}
    (expected : ¬ next.Unexpected session) :
    (session.call next).2 = .error "amp: bad transcript hash size" ∧
      (session.call next).1.material.sessionEpoch = session.material.sessionEpoch + 1 := by
  cases next with
  | rekey =>
      have refused : refresh { session with material := { session.material with
          sessionEpoch := session.material.sessionEpoch + 1 } } = (_, .error _) :=
        refresh_misfit filled misfit
      simp only [call, rekey, refused, and_self]
  | applyRekey targetEpoch nowMs =>
      have target : targetEpoch = session.material.sessionEpoch + 1 := not_not.mp expected
      have refused : refresh { session with
          previousRecvKey := some session.material.kRecv
          graceUntilMs := nowMs + kSessionRekeyGraceMs
          material := { session.material with sessionEpoch := targetEpoch } } = (_, .error _) :=
        refresh_misfit filled misfit
      rw [call, applyRekey_expected target, refused]
      exact ⟨rfl, target⟩

/-- A rekey that fails changes nothing exactly when the transcript hash has the size
that `Derive` wants, or the rekey was refused before anything was assigned. -/
theorem undisturbed_iff [Aead] [LawfulHkdf] {material : SessionMaterial}
    {masterIkm transcriptHash : Bytes} {session : Session}
    (accepted : fromMaterial material masterIkm transcriptHash = .ok session)
    (calls : List Call) (next : Call) :
    (((Run.exec step session calls).call next).2 ≠ .ok () →
      Undisturbed (Run.exec step session calls) ((Run.exec step session calls).call next).1) ↔
    transcriptHash.length = kTranscriptHashBytes ∨
      next.Unexpected (Run.exec step session calls) := by
  obtain ⟨filled, made⟩ := fromMaterial_ok accepted
  have inputs := run_inputs session calls
  rw [made] at inputs
  dsimp only at inputs
  rw [← made] at inputs
  have kept : (Run.exec step session calls).masterIkm ≠ [] := inputs.1.symm ▸ filled
  constructor
  · intro clean
    by_contra neither
    obtain ⟨misfit, expected⟩ := not_or.mp neither
    rw [← inputs.2] at misfit
    obtain ⟨failed, moved⟩ := call_misfit kept misfit expected
    have same := (clean (by rw [failed]; exact nofun)).sessionEpoch
    rw [moved] at same
    exact absurd same (by simp)
  · rintro (fit | unexpected) failed
    · rw [← inputs.2] at fit
      rcases call_fit ⟨kept, fit⟩ next with done | unexpected
      · exact absurd done failed
      · rw [call_unexpected unexpected]
        exact Undisturbed.refl _
    · rw [call_unexpected unexpected]
      exact Undisturbed.refl _

end Rekeys


/-- An accepted session whose transcript hash has the size that `Derive` wants. -/
def sample : Session where
  material :=
    { kAssoc := List.replicate 32 1
      kSend := List.replicate 32 2
      kRecv := List.replicate 32 3
      initiator := true }
  masterIkm := [9]
  transcriptHash := List.replicate 32 7

theorem undisturbed_iff_sample :
    (((Run.exec step sample [.rekey]).call (.applyRekey 3 50)).2 ≠ .ok () →
      Undisturbed (Run.exec step sample [.rekey])
        ((Run.exec step sample [.rekey]).call (.applyRekey 3 50)).1) ↔
    sample.transcriptHash.length = kTranscriptHashBytes ∨
      Call.Unexpected (Run.exec step sample [.rekey]) (.applyRekey 3 50) := by
  have accepted : fromMaterial sample.material sample.masterIkm sample.transcriptHash =
      .ok sample := by decide
  exact undisturbed_iff accepted [.rekey] (.applyRekey 3 50)

/-- One with a transcript hash of a single byte. -/
def short : Session := { sample with transcriptHash := [7] }

/-- `FromMaterial` accepts it; a rekey fails and leaves it one epoch on with the keys
of the epoch before. -/
theorem rekey_moves_epoch :
    fromMaterial short.material short.masterIkm short.transcriptHash = .ok short ∧
      ¬ ((short.call .rekey).2 ≠ .ok () → Undisturbed short (short.call .rekey).1) := by
  have failed : (short.call .rekey).2 = .error "amp: bad transcript hash size" ∧
      (short.call .rekey).1.material.sessionEpoch = short.material.sessionEpoch + 1 :=
    call_misfit (by decide) (by decide) id
  refine ⟨by decide, ?_⟩
  intro clean
  have same := (clean (by rw [failed.1]; exact nofun)).sessionEpoch
  rw [failed.2] at same
  exact absurd same (by decide)

end Session

/-- A session and the grace end its last rekey set. -/
structure Rekeyed where
  session : Session
  graceEnd : Int := 0
  deriving DecidableEq

namespace Rekeyed

open Session (Rekeyable fromMaterial fromMaterial_ok refresh_fit)

section Epochs

variable [Hkdf]

/-- `ApplyRekey` to an epoch at a time. -/
def apply (rekeyed : Rekeyed) (call : UInt32 × Int) : Rekeyed where
  session := (rekeyed.session.applyRekey call.1 call.2).1
  graceEnd := if (rekeyed.session.applyRekey call.1 call.2).2 = .ok () then
      call.2 + kSessionRekeyGraceMs
    else rekeyed.graceEnd

/-- What `SessionKeys::Derive` gives, made a session. -/
def handshaken (masterIkm transcriptHash : Bytes) (initiator : Bool) (sessionEpoch : UInt32) :
    Except String Rekeyed :=
  match derive masterIkm transcriptHash initiator sessionEpoch with
  | .error error => .error error
  | .ok material =>
      match fromMaterial material masterIkm transcriptHash with
      | .error error => .error error
      | .ok session => .ok { session }

/-- A session that has followed its rekeys: its keys are those of its epoch, and the
key kept for the grace window that of the epoch before. -/
structure Keyed (prk : Bytes) (initiator : Bool) (rekeyed : Rekeyed) : Prop where
  fit : rekeyed.session.Rekeyable
  extracted : Hkdf.extract kAmpHkdfSalt
    (rekeyed.session.masterIkm ++ rekeyed.session.transcriptHash) = some prk
  derived : Derived prk initiator rekeyed.session.material.sessionEpoch rekeyed.session.material
  previous : ∀ key, rekeyed.session.previousRecvKey = some key → directionKey prk
    (inDirection initiator) (rekeyed.session.material.sessionEpoch - 1) = some key
  lapsed : rekeyed.session.previousRecvKey = none → rekeyed.graceEnd = 0
  grace : rekeyed.session.graceUntilMs = rekeyed.graceEnd

theorem handshaken_keyed {masterIkm transcriptHash : Bytes} {initiator : Bool}
    {sessionEpoch : UInt32} {rekeyed : Rekeyed}
    (done : handshaken masterIkm transcriptHash initiator sessionEpoch = .ok rekeyed) :
    ∃ prk, Hkdf.extract kAmpHkdfSalt (masterIkm ++ transcriptHash) = some prk ∧
      Keyed prk initiator rekeyed := by
  unfold handshaken at done
  split at done
  · cases done
  · rename_i material made
    split at done
    · cases done
    · rename_i session accepted
      cases done
      obtain ⟨filled, rfl⟩ := fromMaterial_ok accepted
      obtain ⟨prk, extracted, derived⟩ := SessionKeys.derive_ok made
      have fit := SessionKeys.derive_checks made
      have epoch := derived.epoch
      refine ⟨prk, extracted, fit, extracted, ?_, nofun, fun _ => rfl, rfl⟩
      dsimp only
      rw [epoch]
      exact derived

theorem Keyed.apply [LawfulHkdf] {prk : Bytes} {initiator : Bool} {rekeyed : Rekeyed}
    (keyed : Keyed prk initiator rekeyed) (call : UInt32 × Int) :
    Keyed prk initiator (rekeyed.apply call) := by
  by_cases expected : call.1 = rekeyed.session.material.sessionEpoch + 1
  · have moved : Rekeyable { rekeyed.session with
        previousRecvKey := some rekeyed.session.material.kRecv
        graceUntilMs := call.2 + kSessionRekeyGraceMs
        material := { rekeyed.session.material with sessionEpoch := call.1 } } := keyed.fit
    obtain ⟨material, made, refreshed⟩ := refresh_fit moved
    obtain ⟨prk', extracted, derived⟩ := SessionKeys.derive_ok made
    have same : prk' = prk := Option.some.inj (extracted.symm.trans keyed.extracted)
    subst same
    have side : rekeyed.session.material.initiator = initiator := keyed.derived.side
    have done := refreshed
    rw [← Session.applyRekey_expected expected call.2] at done
    unfold Rekeyed.apply
    rw [done]
    dsimp only at derived ⊢
    rw [side] at derived
    refine ⟨keyed.fit, keyed.extracted, ⟨rfl, side, derived.send, derived.recv⟩, ?_, nofun, rfl⟩
    intro key kept
    cases kept
    have back : rekeyed.session.material.sessionEpoch + 1 - 1 =
        rekeyed.session.material.sessionEpoch := by
      simp
    dsimp only
    rw [expected, back]
    exact keyed.derived.recv
  · have refused : rekeyed.session.applyRekey call.1 call.2 =
        (rekeyed.session, .error "amp session: unexpected rekey epoch") := if_pos expected
    unfold Rekeyed.apply
    rw [refused]
    exact keyed

theorem Keyed.run [LawfulHkdf] {prk : Bytes} {initiator : Bool} {rekeyed : Rekeyed}
    (keyed : Keyed prk initiator rekeyed) (calls : List (UInt32 × Int)) :
    Keyed prk initiator (Run.exec Rekeyed.apply rekeyed calls) :=
  Run.invariant_always Rekeyed.apply (Keyed prk initiator)
    (fun _ call kept => kept.apply call) calls rekeyed keyed

/-- The opener is in the sealer's epoch, or in the next one with the grace window open. -/
def Usable (sealer opener : Rekeyed) (nowMs : Int) : Prop :=
  opener.session.material.sessionEpoch = sealer.session.material.sessionEpoch ∨
    (opener.session.material.sessionEpoch = sealer.session.material.sessionEpoch + 1 ∧
      0 < nowMs ∧ nowMs ≤ opener.graceEnd)

instance (sealer opener : Rekeyed) (nowMs : Int) : Decidable (Usable sealer opener nowMs) :=
  inferInstanceAs (Decidable (_ ∨ _))

variable [Aead] [LawfulAead] [LawfulHkdf]

/-- Under a derived key a packet opens where direction, epoch and place agree. -/
theorem openPacket_derived {prk sendKey key header plaintext body : Bytes}
    {direction other : Direction} {sessionEpoch otherEpoch number : UInt32} {space : PacketSpace}
    (sealed : SessionCrypto.sealPacket sendKey direction sessionEpoch space number header plaintext =
      .ok body)
    (made : directionKey prk direction sessionEpoch = some sendKey)
    (held : directionKey prk other otherEpoch = some key) (otherSpace : PacketSpace)
    (otherNumber : UInt32) (otherHeader : Bytes) :
    SessionCrypto.openPacket key other otherEpoch otherSpace otherNumber otherHeader body =
      if other = direction ∧ otherEpoch = sessionEpoch ∧ otherSpace = space ∧
        otherNumber = number ∧ otherHeader = header then .ok plaintext
      else .error "AEAD decrypt failed" := by
  split
  · rename_i same
    obtain ⟨rfl, rfl, rfl, rfl, rfl⟩ := same
    have keys : key = sendKey := Option.some.inj (held.symm.trans made)
    rw [keys]
    exact SessionCrypto.openPacket_same sealed
  · rename_i differs
    apply SessionCrypto.openPacket_foreign sealed (SessionKeys.directionKey_length held)
    rintro ⟨_, towards, epochs, numbering, numbers, headers⟩
    exact differs ⟨towards, epochs, numbering, numbers, headers⟩

omit [Hkdf] [LawfulAead] [LawfulHkdf] [Aead] in
theorem epoch_pred {later earlier : UInt32} : later - 1 = earlier ↔ later = earlier + 1 := by
  constructor
  · intro same
    rw [← same, UInt32.sub_add_cancel]
  · intro next
    rw [next, UInt32.add_sub_cancel]

/-- What the other end of a handshake opens of a sealed packet, and how. -/
theorem Keyed.opens {prk header plaintext body : Bytes} {initiator : Bool}
    {sealer opener : Rekeyed} {space : PacketSpace} {number : UInt32}
    (left : Keyed prk initiator sealer) (right : Keyed prk (!initiator) opener)
    (sealed : sealer.session.sealPacket space number header plaintext = .ok body)
    (otherSpace : PacketSpace) (otherNumber : UInt32) (otherHeader : Bytes) (nowMs : Int) :
    opener.session.openPacket otherSpace otherNumber otherHeader body nowMs =
      if (otherSpace = space ∧ otherNumber = number ∧ otherHeader = header) ∧
        Usable sealer opener nowMs then .ok plaintext
      else .error "AEAD decrypt failed" := by
  have made := left.derived.send
  have held := right.derived.recv
  have towards := SessionKeys.inDirection_not initiator
  rw [towards] at held
  unfold Session.sealPacket at sealed
  rw [left.derived.side] at sealed
  unfold Session.openPacket
  rw [right.derived.side, towards]
  have first := openPacket_derived sealed made held otherSpace otherNumber otherHeader
  by_cases current : opener.session.material.sessionEpoch = sealer.session.material.sessionEpoch ∧
      otherSpace = space ∧ otherNumber = number ∧ otherHeader = header
  · rw [if_pos ⟨rfl, current⟩] at first
    rw [first, if_pos ⟨current.2, Or.inl current.1⟩]
  · rw [if_neg (fun same => current same.2)] at first
    rw [first]
    cases kept : opener.session.previousRecvKey with
    | none =>
        have spent := right.lapsed kept
        rw [if_neg]
        rintro ⟨place, now | ⟨_, positive, within⟩⟩
        · exact current ⟨now, place⟩
        · omega
    | some key =>
        have second := openPacket_derived sealed made (towards ▸ right.previous key kept)
          otherSpace otherNumber otherHeader
        have window : opener.session.hasGraceRecvKey nowMs = true ↔
            0 < nowMs ∧ nowMs ≤ opener.graceEnd := by
          simp [Session.hasGraceRecvKey, kept, right.grace]
        dsimp only
        by_cases grace : 0 < nowMs ∧ nowMs ≤ opener.graceEnd
        · rw [if_pos (window.mpr grace), second]
          apply if_congr _ rfl rfl
          rw [epoch_pred]
          constructor
          · rintro ⟨_, next, place⟩
            exact ⟨place, Or.inr ⟨next, grace⟩⟩
          · rintro ⟨place, now | ⟨next, _⟩⟩
            · exact absurd ⟨now, place⟩ current
            · exact ⟨rfl, next, place⟩
        · rw [if_neg (fun held => grace (window.mp held)), if_neg]
          rintro ⟨place, now | ⟨_, within⟩⟩
          · exact current ⟨now, place⟩
          · exact grace within

/-- No session opens what it has sealed itself, in whatever epoch. -/
theorem Keyed.reflected {prk header plaintext body : Bytes} {initiator : Bool}
    {sealer own : Rekeyed} {space : PacketSpace} {number : UInt32}
    (left : Keyed prk initiator sealer) (right : Keyed prk initiator own)
    (sealed : sealer.session.sealPacket space number header plaintext = .ok body)
    (otherSpace : PacketSpace) (otherNumber : UInt32) (otherHeader : Bytes) (nowMs : Int) :
    own.session.openPacket otherSpace otherNumber otherHeader body nowMs =
      .error "AEAD decrypt failed" := by
  have made := left.derived.send
  unfold Session.sealPacket at sealed
  rw [left.derived.side] at sealed
  have refuses : ∀ {sessionEpoch : UInt32} {key : Bytes},
      directionKey prk (inDirection initiator) sessionEpoch = some key →
      SessionCrypto.openPacket key (inDirection initiator) sessionEpoch otherSpace otherNumber
        otherHeader body = .error "AEAD decrypt failed" := by
    intro sessionEpoch key held
    rw [openPacket_derived sealed made held]
    exact if_neg fun same => SessionKeys.inDirection_ne initiator same.1
  unfold Session.openPacket
  rw [right.derived.side, refuses right.derived.recv]
  cases kept : own.session.previousRecvKey with
  | none => rfl
  | some key =>
      dsimp only
      rw [refuses (right.previous key kept), ite_self]

/-- What may come of a sealed packet: the other end opens it to what was sealed where it
is offered as it was sealed and the other end's epoch is usable, and in no other case;
the end it came from never opens it. -/
structure OpensExactly (sealer opener own : Rekeyed) (space : PacketSpace) (number : UInt32)
    (header plaintext body : Bytes) : Prop where
  other : ∀ (otherSpace : PacketSpace) (otherNumber : UInt32) (otherHeader : Bytes) (nowMs : Int),
    opener.session.openPacket otherSpace otherNumber otherHeader body nowMs =
      if (otherSpace = space ∧ otherNumber = number ∧ otherHeader = header) ∧
        Usable sealer opener nowMs then .ok plaintext
      else .error "AEAD decrypt failed"
  reflected : ∀ (otherSpace : PacketSpace) (otherNumber : UInt32) (otherHeader : Bytes)
    (nowMs : Int), own.session.openPacket otherSpace otherNumber otherHeader body nowMs =
      .error "AEAD decrypt failed"

/-- Two ends of a handshake, each after any rekeys of its own, open for each other
exactly what was sealed in an epoch they can use. -/
theorem opens_exactly {masterIkm transcriptHash header plaintext body : Bytes} {initiator : Bool}
    {sealerEpoch openerEpoch : UInt32} {sealer opener : Rekeyed}
    (sealing : handshaken masterIkm transcriptHash initiator sealerEpoch = .ok sealer)
    (opening : handshaken masterIkm transcriptHash (!initiator) openerEpoch = .ok opener)
    (sealerCalls openerCalls laterCalls : List (UInt32 × Int)) {space : PacketSpace}
    {number : UInt32} (sealed : (Run.exec apply sealer sealerCalls).session.sealPacket space number
      header plaintext = .ok body) :
    OpensExactly (Run.exec apply sealer sealerCalls) (Run.exec apply opener openerCalls)
      (Run.exec apply sealer laterCalls) space number header plaintext body := by
  obtain ⟨prk, extracted, left⟩ := handshaken_keyed sealing
  obtain ⟨prk', extracted', right⟩ := handshaken_keyed opening
  have same : prk' = prk := Option.some.inj (extracted'.symm.trans extracted)
  subst same
  have sender := left.run sealerCalls
  exact ⟨sender.opens (right.run openerCalls) sealed, sender.reflected (left.run laterCalls) sealed⟩

end Epochs

/-- An end of a handshake over the transparent primitives. -/
def sampleEnd (initiator : Bool) : Rekeyed where
  session :=
    { material :=
        { kAssoc := Transparent.stretch 32 kAmpKAssocInfo (9 :: List.replicate 32 7)
          kSend := Transparent.stretch 32 (SessionKeys.epochInfo (if initiator then kAmpKClientInfo
            else kAmpKServerInfo) 1) (9 :: List.replicate 32 7)
          kRecv := Transparent.stretch 32 (SessionKeys.epochInfo (if initiator then kAmpKServerInfo
            else kAmpKClientInfo) 1) (9 :: List.replicate 32 7)
          initiator }
      masterIkm := [9]
      transcriptHash := List.replicate 32 7 }

theorem handshaken_sampleEnd (initiator : Bool) :
    handshaken [9] (List.replicate 32 7) initiator 1 = .ok (sampleEnd initiator) := by
  have expanded : ∀ (info : String) (prk : Bytes), Hkdf.expand 32 info prk =
      some (Transparent.stretch 32 info prk) := Transparent.expand_eq (by decide)
  cases initiator <;>
    simp [handshaken, derive, SessionKeys.hkdfExtract, Hkdf.extract, SessionKeys.expandKeys,
      SessionKeys.hkdfExpand, SessionKeys.deriveLabel, expanded,
      fromMaterial, sampleEnd, kTranscriptHashBytes, kAssocKeyBytes, kSessionKeyBytes]

theorem opens_exactly_sample :
    OpensExactly (sampleEnd true) (Run.exec apply (sampleEnd false) [(2, 500)]) (sampleEnd true)
      .reliable 4 [3] [5, 6] (Transparent.cover (sampleEnd true).session.material.kSend
        (SessionCrypto.packetNonce .initiatorToResponder .reliable 1 4) [3] ++ [5, 6]) := by
  apply opens_exactly (handshaken_sampleEnd true) (handshaken_sampleEnd false) [] [(2, 500)] []
  simp [Session.sealPacket, SessionCrypto.sealPacket, SessionAead.encryptInto, Aead.encrypt,
    sampleEnd, kSessionKeyBytes, outDirection]

end Rekeyed

end Amp
