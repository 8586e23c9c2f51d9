import Amp.L1.Ledger
import Amp.L1.Sample
import Amp.Lib.Run

set_option autoImplicit false

/- An accepted association before its session authenticates. Anybody can build
packets that verify in this phase, so each handler that could be used against
the association or a third party asks for `authenticated_` first, and resends
are held to `kPreAuthMaxRtx`. -/
namespace Amp.Adp

/-- The datagram carries reliable data of this number; type and number have the
same place in both layouts. -/
def WireCodec.carriesReliable (seq : Nat) (datagram : Bytes) : Bool :=
  match WireCodec.peekType datagram with
  | .error _ => false
  | .ok type =>
      type.isReliableData && WireCodec.readU32Le (datagram.drop (1 + kAssocIdBytes)) == seq

open WireCodec

section Wire

variable {π : Type} [PacketProtection π] [Hmac]

/-- The type and the number of a built datagram can be read off its head. -/
theorem WireOf.head {type : PacketType} {number : Nat} {payload datagram : Bytes}
    (wired : WireOf π type number payload datagram) :
    peekType datagram = .ok type ∧ readU32Le (datagram.drop (1 + kAssocIdBytes)) = number := by
  obtain ⟨pkt, carries, rfl, rfl, rfl⟩ := wired
  cases carries with
  | plain key _ body encoded seqFits timeFits =>
      refine ⟨peekType_bind key pkt body encoded, ?_⟩
      rw [HmacBinder.bind, encode_append pkt body _ encoded, (plainLayout_fields pkt _).1]
      exact readU32Le_append _ _ seqFits
  | keyed protection header payload body sealing fits done =>
      refine ⟨peekType_sealed header body, ?_⟩
      rw [encodeSealedHeader, List.cons_append, List.append_assoc, Nat.add_comm,
        List.drop_succ_cons, ← header.assoc.size, List.drop_left]
      exact readU32Le_append _ _ fits

theorem WireOf.carriesReliable {type : PacketType} {number : Nat} {payload datagram : Bytes}
    (wired : WireOf π type number payload datagram) (seq : Nat) :
    carriesReliable seq datagram = (type.isReliableData && number == seq) := by
  simp only [WireCodec.carriesReliable, wired.head.1, wired.head.2]

end Wire

/-- The part of a connection the pre-session phase has to protect. -/
structure Exposure where
  closed : Bool
  peerClosed : Bool
  peerVersionMismatch : Bool
  peerKeepaliveIntervalMs : Nat
  authenticated : Bool
  params : OpenParams
  authenticatedMaxRtx : Int
  txSeqRel : Nat
  outstanding : List Outstanding
  transmitted : List Bytes

namespace Exposure

/-- How often reliable data of this number went on the wire. -/
def onWire (e : Exposure) (seq : Nat) : Nat := e.transmitted.countP (carriesReliable seq)

/-- `onWire` of a datagram list appended to what was sent before. -/
theorem onWire_append (e : Exposure) (sent : List Bytes) (seq : Nat) :
    onWire { e with transmitted := e.transmitted ++ sent } seq =
      e.onWire seq + sent.countP (carriesReliable seq) :=
  List.countP_append

/-- The phase before `UpgradeBinder` of an association opened with `params`. -/
structure Guarded (params : OpenParams) (e : Exposure) : Prop where
  awaiting : e.authenticated = false
  accepted : e.params.dialerBackoff = false
  short : e.params.maxRtx ≤ kPreAuthMaxRtx
  configured : e.authenticatedMaxRtx = params.maxRtx
  peerOpen : e.peerClosed = false
  versionKept : e.peerVersionMismatch = false
  keepaliveKept : e.peerKeepaliveIntervalMs = 0
  limit : e.txSeqRel ≤ kSeqMax
  distinct : (e.outstanding.map Outstanding.seq).Nodup
  known : ∀ o ∈ e.outstanding, o.seq ≤ e.txSeqRel
  budget : ∀ o ∈ e.outstanding, e.onWire o.seq ≤ 1 + o.attempts
  bounded : ∀ seq, (e.onWire seq : Int) ≤ 1 + kPreAuthMaxRtx
  unsent : ∀ seq, e.txSeqRel < seq → e.onWire seq = 0

/-- What datagrams, and local calls that send no reliable data, may change. -/
structure Passive (before after : Exposure) : Prop where
  rest : after = { before with
    closed := after.closed
    outstanding := after.outstanding
    transmitted := after.transmitted }
  kept : after.outstanding.Sublist before.outstanding
  unreliable : ∀ seq, after.onWire seq = before.onWire seq

theorem Guarded.passive {params : OpenParams} {before after : Exposure}
    (guarded : before.Guarded params) (passive : Passive before after) :
    after.Guarded params := by
  have rest := passive.rest
  have count : after.txSeqRel = before.txSeqRel := by rw [rest]
  refine ⟨?_, ?_, ?_, ?_, ?_, ?_, ?_, ?_, ?_, ?_, ?_, ?_, ?_⟩
  · rw [rest]; exact guarded.awaiting
  · rw [rest]; exact guarded.accepted
  · rw [rest]; exact guarded.short
  · rw [rest]; exact guarded.configured
  · rw [rest]; exact guarded.peerOpen
  · rw [rest]; exact guarded.versionKept
  · rw [rest]; exact guarded.keepaliveKept
  · rw [count]; exact guarded.limit
  · exact guarded.distinct.sublist (passive.kept.map _)
  · intro o member
    rw [count]
    exact guarded.known o (passive.kept.mem member)
  · intro o member
    rw [passive.unreliable]
    exact guarded.budget o (passive.kept.mem member)
  · intro seq
    rw [passive.unreliable]
    exact guarded.bounded seq
  · intro seq beyond
    rw [passive.unreliable]
    exact guarded.unsent seq (count ▸ beyond)

end Exposure

namespace Connection

open Exposure

section Frames

variable {π : Type}

def exposure (c : Connection π) : Exposure where
  closed := c.closed
  peerClosed := c.peerClosed
  peerVersionMismatch := c.peerVersionMismatch
  peerKeepaliveIntervalMs := c.peerKeepaliveIntervalMs
  authenticated := c.authenticated
  params := c.params
  authenticatedMaxRtx := c.authenticatedMaxRtx
  txSeqRel := c.txSeqRel
  outstanding := c.outstanding
  transmitted := c.transmitted

theorem OnlyNotes.exposure {c after : Connection π} (only : OnlyNotes c after) :
    after.exposure = c.exposure := by
  obtain ⟨_, _, _, rfl⟩ := only
  rfl

theorem OnlyStamps.exposure {c after : Connection π} (only : OnlyStamps c after) :
    after.exposure = c.exposure := by
  obtain ⟨_, _, rfl⟩ := only
  rfl

theorem OnlyHands.exposure {c after : Connection π} (only : OnlyHands c after) :
    after.exposure = c.exposure := by
  obtain ⟨_, _, _, rfl⟩ := only
  rfl

theorem OnlyAdmits.exposure {c after : Connection π} (only : OnlyAdmits c after) :
    after.exposure = c.exposure := by
  obtain ⟨_, _, _, rfl⟩ := only
  rfl

theorem OnlySamples.exposure {c after : Connection π} (only : OnlySamples c after) :
    after.exposure = c.exposure := by
  obtain ⟨_, _, rfl⟩ := only
  rfl

theorem setPeerEndpoint_exposure (c : Connection π) (peer : IpEndpoint) :
    (c.setPeerEndpoint peer).exposure = c.exposure :=
  (setPeerEndpoint_only c peer).exposure

theorem noteTimestamp_exposure (c : Connection π) (pkt : WirePacket) :
    (c.noteTimestamp pkt).exposure = c.exposure :=
  (noteTimestamp_only c pkt).exposure

theorem noteFresh_exposure (c : Connection π) (fresh : Bool) (source : IpEndpoint) (now : Int) :
    (c.noteFresh fresh source now).exposure = c.exposure :=
  (noteFresh_only c fresh source now).exposure

theorem admitPacket_exposure (c : Connection π) (pkt : WirePacket) :
    (c.admitPacket pkt).1.exposure = c.exposure :=
  (admitPacket_only c pkt).exposure

theorem keepReliable_exposure (c : Connection π) (pkt : WirePacket) (freshData : Bool) :
    (c.keepReliable pkt freshData).exposure = c.exposure :=
  (keepReliable_only c pkt freshData).exposure

theorem noteRttSample_exposure (c : Connection π) (rttMs : Int) :
    (c.noteRttSample rttMs).exposure = c.exposure :=
  (noteRttSample_only c rttMs).exposure

/-- All an unauthenticated datagram gets out of an association: acks, and its own
packets settled. -/
structure Answers (c after : Connection π) : Prop where
  rest : after.exposure = { c.exposure with
    outstanding := after.outstanding
    transmitted := after.transmitted }
  kept : after.outstanding.Sublist c.outstanding
  acks : ∃ acks, after.transmitted = c.transmitted ++ acks ∧
    ∀ ack ∈ acks, peekType ack = .ok .ack

theorem Answers.refl (c : Connection π) : Answers c c :=
  ⟨rfl, List.Sublist.refl _, [], (List.append_nil _).symm, nofun⟩

theorem Answers.of_exposure {c after : Connection π} (same : after.exposure = c.exposure) :
    Answers c after := by
  have outstanding : after.outstanding = c.outstanding := congrArg Exposure.outstanding same
  have transmitted : after.transmitted = c.transmitted := congrArg Exposure.transmitted same
  refine ⟨?_, ?_, [], ?_, nofun⟩
  · rw [same, outstanding, transmitted]
    rfl
  · rw [outstanding]
  · rw [transmitted, List.append_nil]

theorem Answers.trans {before middle after : Connection π} (one : Answers before middle)
    (two : Answers middle after) : Answers before after := by
  obtain ⟨early, sent, first⟩ := one.acks
  obtain ⟨late, more, second⟩ := two.acks
  refine ⟨?_, two.kept.trans one.kept, early ++ late, ?_, ?_⟩
  · rw [two.rest, one.rest]
  · rw [more, sent, List.append_assoc]
  · intro ack member
    exact (List.mem_append.mp member).elim (first ack) (second ack)

theorem Answers.passive {c after : Connection π} (answers : Answers c after) :
    Passive c.exposure after.exposure := by
  obtain ⟨acks, sent, types⟩ := answers.acks
  refine ⟨?_, answers.kept, ?_⟩
  · rw [answers.rest]
  · intro seq
    have none : acks.countP (carriesReliable seq) = 0 := by
      rw [List.countP_eq_zero]
      intro ack member
      simp only [carriesReliable, types ack member, PacketType.isReliableData, Bool.false_and,
        Bool.false_eq_true, not_false_eq_true]
    have grown := onWire_append c.exposure acks seq
    rw [none, Nat.add_zero] at grown
    rw [answers.rest, sent]
    exact grown

end Frames

variable {π : Type} [PacketProtection π] [Hmac]

theorem sendAck_answers (c : Connection π) (seq : Nat) (now : Int) (key : Option PeerKey)
    (fits : seq < 2 ^ 32) : Answers c (c.sendPacket .ack seq [] now key).1 := by
  obtain ⟨calls, sent, unreachable, state, _, wired⟩ :=
    sendPacket_spec c .ack seq [] now key fits
  rw [state]
  exact ⟨rfl, List.Sublist.refl _, sent, rfl, fun ack member => (wired ack member).head.1⟩

theorem refusePlainAfterKeys_answers (c : Connection π) (pkt : WirePacket)
    (fits : pkt.seq < 2 ^ 32) : Answers c (c.refusePlainAfterKeys pkt).1 := by
  unfold refusePlainAfterKeys
  split
  · exact Answers.refl c
  · split
    · exact Answers.refl c
    · split
      · exact sendAck_answers c pkt.seq _ none fits
      · exact Answers.refl c
    · exact Answers.refl c

theorem handlePreUpgradeKeyPacket_answers (c : Connection π) (pkt : WirePacket) (now : Int)
    (fits : pkt.seq < 2 ^ 32) : Answers c (c.handlePreUpgradeKeyPacket pkt now) := by
  unfold handlePreUpgradeKeyPacket
  split
  · exact Answers.refl c
  · split
    · exact ⟨rfl, List.filter_sublist, [], (List.append_nil _).symm, nofun⟩
    · split
      · exact sendAck_answers c pkt.seq now _ fits
      · exact Answers.refl c
    · exact Answers.refl c

omit [PacketProtection π] [Hmac] in
theorem handleAck_answers (c : Connection π) (pkt : WirePacket) (now : Int) :
    Answers c (c.handleAck pkt now) := by
  unfold handleAck
  split
  · rename_i o _
    have same := noteRttSample_exposure c (now - o.firstSentMs)
    refine (Answers.of_exposure same).trans ⟨rfl, List.filter_sublist, [], ?_, nofun⟩
    exact (List.append_nil _).symm
  · exact ⟨rfl, List.filter_sublist, [], (List.append_nil _).symm, nofun⟩

theorem handleReliable_answers (c : Connection π) (pkt : WirePacket) (admission : Admission)
    (now : Int) (fits : pkt.seq < 2 ^ 32) :
    Answers c (c.handleReliable pkt admission now) := by
  have acked : Answers c (c.sendAck pkt.seq admission.ackReliable now) := by
    unfold sendAck
    split
    · exact sendAck_answers c pkt.seq now none fits
    · exact Answers.refl c
  exact acked.trans (Answers.of_exposure (keepReliable_exposure _ pkt admission.freshData))

/-- Close and keepalive are refused until the peer is authenticated. -/
theorem dispatch_answers {c : Connection π} (awaiting : c.authenticated = false)
    (accepted : c.params.dialerBackoff = false) (pkt : WirePacket) (admission : Admission)
    (now : Int) (fits : pkt.seq < 2 ^ 32) : Answers c (c.dispatch pkt admission now) := by
  unfold dispatch
  split
  · exact handleAck_answers c pkt now
  · simp only [handleClose, awaiting, accepted, Bool.not_false, Bool.and_self, if_true]
    exact Answers.refl c
  · simp only [awaiting, Bool.not_false, if_true]
    exact Answers.refl c
  · unfold deliverBestEffort
    split <;> exact Answers.of_exposure rfl
  · unfold deliverBestEffort
    split <;> exact Answers.of_exposure rfl
  · exact handleReliable_answers c pkt admission now fits
  · exact handleReliable_answers c pkt admission now fits

theorem handleAdmitted_answers {c : Connection π} (awaiting : c.authenticated = false)
    (accepted : c.params.dialerBackoff = false) (pkt : WirePacket) (source : IpEndpoint)
    (now : Int) (fits : pkt.seq < 2 ^ 32) : Answers c (c.handleAdmitted pkt source now) := by
  unfold handleAdmitted
  generalize outcome : c.admitPacket pkt = admitted
  obtain ⟨after, admission⟩ := admitted
  dsimp only
  have same : ((after.noteTimestamp pkt).noteFresh admission.fresh source now).exposure =
      c.exposure := by
    rw [noteFresh_exposure, noteTimestamp_exposure, ← admitPacket_exposure c pkt, outcome]
  have stillAwaiting := (congrArg Exposure.authenticated same).trans awaiting
  have stillAccepted := (congrArg (·.params.dialerBackoff) same).trans accepted
  exact (Answers.of_exposure same).trans
    (dispatch_answers stillAwaiting stillAccepted pkt admission now fits)

theorem handleAuthenticated_answers {c : Connection π} (awaiting : c.authenticated = false)
    (accepted : c.params.dialerBackoff = false) (pkt : WirePacket) (source : IpEndpoint)
    (now : Int) (fits : pkt.seq < 2 ^ 32) :
    Answers c (c.handleAuthenticated pkt source now) := by
  unfold handleAuthenticated
  split
  · exact Answers.refl c
  · have refused := refusePlainAfterKeys_answers c pkt fits
    split
    · rename_i after outcome
      rwa [outcome] at refused
    · rename_i after outcome
      rw [outcome] at refused
      have stillAwaiting := (congrArg Exposure.authenticated refused.rest).trans awaiting
      have stillAccepted :=
        (congrArg (·.params.dialerBackoff) refused.rest).trans accepted
      exact refused.trans
        (handleAdmitted_answers stillAwaiting stillAccepted pkt source now fits)

theorem handleDatagram_answers {c : Connection π} (awaiting : c.authenticated = false)
    (accepted : c.params.dialerBackoff = false) (source : IpEndpoint) (datagram : Bytes)
    (now : Int) : Answers c (c.handleDatagram source datagram now) := by
  rw [handleDatagram_eq]
  split
  · rename_i pkt got
    exact handleAuthenticated_answers awaiting accepted pkt source now (received_seq_lt got)
  · rename_i pkt _ got
    exact handlePreUpgradeKeyPacket_answers c pkt now
      (WireCodec.decode_seq_lt datagram pkt (receivedPreUpgrade_decode got))
  · exact Answers.refl c

/-- `SendPacket` puts at most one datagram on the wire. -/
theorem sendPacket_transmitted (c : Connection π) (type : PacketType) (seq : Nat)
    (payload : Bytes) (now : Int) (key : Option PeerKey) (fits : seq < 2 ^ 32) :
    (c.sendPacket type seq payload now key).1.exposure = c.exposure ∨
      ∃ datagram, WireOf π type seq payload datagram ∧
        (c.sendPacket type seq payload now key).1.exposure =
          { c.exposure with transmitted := c.transmitted ++ [datagram] } := by
  obtain ⟨calls, state, _, built⟩ := buildDatagram_spec c type seq payload now key fits
  unfold sendPacket
  split
  · rename_i after failure outcome
    rw [outcome] at state
    dsimp only at state
    rw [state]
    exact Or.inl rfl
  · rename_i after datagram outcome
    rw [outcome] at state built
    dsimp only at state
    subst state
    split
    · exact Or.inr ⟨datagram, built datagram rfl, rfl⟩
    · exact Or.inl rfl
    · exact Or.inl rfl

/-- A packet that is no reliable data goes out without touching the counts. -/
theorem sendPacket_passive (c : Connection π) (type : PacketType) (seq : Nat) (payload : Bytes)
    (now : Int) (key : Option PeerKey) (fits : seq < 2 ^ 32)
    (form : type.isReliableData = false) :
    Passive c.exposure (c.sendPacket type seq payload now key).1.exposure := by
  rcases sendPacket_transmitted c type seq payload now key fits with same | ⟨datagram, wired, same⟩
  · rw [same]
    exact ⟨rfl, List.Sublist.refl _, fun _ => rfl⟩
  · rw [same]
    refine ⟨rfl, List.Sublist.refl _, fun number => ?_⟩
    have grown := onWire_append c.exposure [datagram] number
    rw [List.countP_singleton, wired.carriesReliable, form, Bool.false_and] at grown
    exact grown

/-- A reliable packet goes out once: only its own count moves, and by one. -/
theorem sendPacket_onWire (c : Connection π) (type : PacketType) (seq : Nat) (payload : Bytes)
    (now : Int) (key : Option PeerKey) (fits : seq < 2 ^ 32) :
    let after := (c.sendPacket type seq payload now key).1
    after.exposure = { c.exposure with transmitted := after.transmitted } ∧
      after.exposure.onWire seq ≤ c.exposure.onWire seq + 1 ∧
      ∀ other, other ≠ seq → after.exposure.onWire other = c.exposure.onWire other := by
  intro after
  rcases sendPacket_transmitted c type seq payload now key fits with same | ⟨datagram, wired, same⟩
  · have unsent : after.transmitted = c.transmitted := congrArg Exposure.transmitted same
    rw [same, unsent]
    exact ⟨rfl, Nat.le_succ _, fun _ _ => rfl⟩
  · have sent : after.transmitted = c.transmitted ++ [datagram] :=
      congrArg Exposure.transmitted same
    rw [same, sent]
    refine ⟨rfl, ?_, ?_⟩
    · refine (onWire_append c.exposure [datagram] seq).le.trans ?_
      exact Nat.add_le_add_left List.countP_le_length _
    · intro other differs
      have grown := onWire_append c.exposure [datagram] other
      have apart : (seq == other) = false := beq_false_of_ne differs.symm
      rw [List.countP_singleton, wired.carriesReliable, apart, Bool.and_false] at grown
      exact grown

/-- A turn of the retransmit loop: a packet that goes out again has an attempt
left for it, and no other packet is counted. -/
structure Resends (c : Connection π) (o : Outstanding) (after : Connection π)
    (resent : Outstanding) : Prop where
  state : after.exposure = { c.exposure with transmitted := after.transmitted }
  seq : resent.seq = o.seq
  attempts : o.attempts ≤ resent.attempts
  counted : after.exposure.onWire o.seq = c.exposure.onWire o.seq ∨
    (resent.attempts : Int) ≤ c.params.maxRtx ∧
      after.exposure.onWire o.seq + o.attempts ≤ c.exposure.onWire o.seq + resent.attempts
  others : ∀ other, other ≠ o.seq → after.exposure.onWire other = c.exposure.onWire other

theorem resend_resends (c : Connection π) (o : Outstanding) (now : Int) (fits : o.seq < 2 ^ 32) :
    Resends c o (c.resend o now).1 (c.resend o now).2 := by
  unfold resend
  split_ifs with early spent
  · exact ⟨rfl, rfl, le_rfl, Or.inl rfl, fun _ _ => rfl⟩
  · exact ⟨rfl, rfl, le_rfl, Or.inl rfl, fun _ _ => rfl⟩
  · have sent := sendPacket_onWire (c.noteRetransmit (o.baseBackoff + (o.attempts + 1))) o.type
      o.seq o.payload now (c.resendKey o) fits
    have start : (c.noteRetransmit (o.baseBackoff + (o.attempts + 1))).exposure = c.exposure := rfl
    rw [start] at sent
    refine ⟨sent.1, rfl, Nat.le_succ _, Or.inr ⟨?_, ?_⟩, sent.2.2⟩
    · push_cast
      omega
    · have once := sent.2.1
      show _ + o.attempts ≤ _ + (o.attempts + 1)
      exact (Nat.add_le_add_right once _).trans (by omega)

/-- Every packet of the list has gone out at most once more than it was resent. -/
def Budgeted (c : Connection π) (packets : List Outstanding) : Prop :=
  ∀ o ∈ packets, c.exposure.onWire o.seq ≤ 1 + o.attempts

/-- No packet went out more often than the phase allows. -/
def Bounded (c : Connection π) : Prop :=
  ∀ seq, (c.exposure.onWire seq : Int) ≤ 1 + kPreAuthMaxRtx

omit [PacketProtection π] [Hmac] in
theorem Resends.bounded {c after : Connection π} {o resent : Outstanding}
    (resends : Resends c o after resent) (short : c.params.maxRtx ≤ kPreAuthMaxRtx)
    (budget : c.exposure.onWire o.seq ≤ 1 + o.attempts) (bounded : c.Bounded) :
    after.Bounded := by
  intro seq
  by_cases same : seq = o.seq
  · subst same
    rcases resends.counted with silent | ⟨left, counted⟩
    · rw [silent]
      exact bounded o.seq
    · omega
  · rw [resends.others seq same]
    exact bounded seq

omit [PacketProtection π] [Hmac] in
theorem Resends.budget {c after : Connection π} {o resent : Outstanding}
    (resends : Resends c o after resent) (budget : c.exposure.onWire o.seq ≤ 1 + o.attempts) :
    after.exposure.onWire o.seq ≤ 1 + resent.attempts := by
  have more := resends.attempts
  rcases resends.counted with silent | ⟨_, counted⟩
  · rw [silent]
    omega
  · omega

/-- The loop over the outstanding packets, each with a number of its own. -/
theorem resendAll_budgeted (now : Int) (packets : List Outstanding) : ∀ c : Connection π,
    c.params.maxRtx ≤ kPreAuthMaxRtx → (∀ o ∈ packets, o.seq < 2 ^ 32) →
    (packets.map Outstanding.seq).Nodup → c.Budgeted packets → c.Bounded →
    (resendAll now packets c).1.exposure =
        { c.exposure with transmitted := (resendAll now packets c).1.transmitted } ∧
      (resendAll now packets c).2.map Outstanding.seq = packets.map Outstanding.seq ∧
      (resendAll now packets c).1.Budgeted (resendAll now packets c).2 ∧
      (resendAll now packets c).1.Bounded ∧
      ∀ seq, seq ∉ packets.map Outstanding.seq →
        (resendAll now packets c).1.exposure.onWire seq = c.exposure.onWire seq := by
  induction packets with
  | nil => exact fun c _ _ _ _ bounded => ⟨rfl, rfl, nofun, bounded, fun _ _ => rfl⟩
  | cons o rest ih =>
      intro c short fit distinct budget bounded
      rw [List.map_cons, List.nodup_cons] at distinct
      have head := resend_resends c o now (fit o List.mem_cons_self)
      have own := budget o List.mem_cons_self
      have params : (c.resend o now).1.params = c.params := congrArg Exposure.params head.state
      have apart : ∀ other ∈ rest, other.seq ≠ o.seq := by
        intro other member same
        exact distinct.1 (same ▸ List.mem_map_of_mem member)
      have restBudget : (c.resend o now).1.Budgeted rest := by
        intro other member
        rw [head.others other.seq (apart other member)]
        exact budget other (List.mem_cons_of_mem o member)
      obtain ⟨state, seqs, budgeted, stillBounded, others⟩ := ih (c.resend o now).1
        (params ▸ short) (fun other member => fit other (List.mem_cons_of_mem o member))
        distinct.2 restBudget (head.bounded short own bounded)
      refine ⟨?_, ?_, ?_, stillBounded, ?_⟩
      · simp only [resendAll]
        rw [state, head.state]
      · simp only [resendAll, List.map_cons, head.seq, seqs]
      · intro other member
        simp only [resendAll] at member ⊢
        rcases List.mem_cons.mp member with rfl | inside
        · rw [head.seq, others o.seq distinct.1]
          exact head.budget own
        · exact budgeted other inside
      · intro seq absent
        rw [List.map_cons, List.mem_cons, not_or] at absent
        simp only [resendAll]
        rw [others seq absent.2, head.others seq absent.1]

omit [PacketProtection π] [Hmac] in
theorem seq_lt_of_known {params : OpenParams} {c : Connection π}
    (guarded : c.exposure.Guarded params) {o : Outstanding} (member : o ∈ c.outstanding) :
    o.seq < 2 ^ 32 := by
  have known : o.seq ≤ c.txSeqRel := guarded.known o member
  have limit : c.txSeqRel ≤ kSeqMax := guarded.limit
  have room : kSeqMax < 2 ^ 32 := by decide
  omega

theorem tick_guarded {params : OpenParams} {c : Connection π}
    (guarded : c.exposure.Guarded params) (now : Int) :
    (c.tick now).exposure.Guarded params ∧ (c.tick now).closed = c.closed := by
  unfold tick
  split
  · exact ⟨guarded, rfl⟩
  · obtain ⟨state, seqs, budget, bounded, others⟩ := resendAll_budgeted now c.outstanding c
      guarded.short (fun o member => seq_lt_of_known guarded member) guarded.distinct
      guarded.budget guarded.bounded
    generalize resendAll now c.outstanding c = after at state seqs budget bounded others ⊢
    obtain ⟨after, outstanding⟩ := after
    dsimp only at state seqs budget bounded others ⊢
    have kept : (after.dropExhausted outstanding now).outstanding.Sublist outstanding :=
      List.dropWhile_sublist _
    have numbered : after.txSeqRel = c.txSeqRel := congrArg Exposure.txSeqRel state
    refine ⟨⟨?_, ?_, ?_, ?_, ?_, ?_, ?_, ?_, ?_, ?_, ?_, bounded, ?_⟩, congrArg Exposure.closed state⟩
    · exact (congrArg Exposure.authenticated state).trans guarded.awaiting
    · exact (congrArg (·.params.dialerBackoff) state).trans guarded.accepted
    · exact (congrArg (·.params.maxRtx) state).trans_le guarded.short
    · exact (congrArg Exposure.authenticatedMaxRtx state).trans guarded.configured
    · exact (congrArg Exposure.peerClosed state).trans guarded.peerOpen
    · exact (congrArg Exposure.peerVersionMismatch state).trans guarded.versionKept
    · exact (congrArg Exposure.peerKeepaliveIntervalMs state).trans guarded.keepaliveKept
    · exact numbered.trans_le guarded.limit
    · exact (seqs ▸ guarded.distinct).sublist (kept.map _)
    · intro o member
      have place : o.seq ∈ c.outstanding.map Outstanding.seq :=
        seqs ▸ List.mem_map_of_mem (kept.mem member)
      obtain ⟨old, inside, same⟩ := List.mem_map.mp place
      exact same ▸ (guarded.known old inside).trans_eq numbered.symm
    · exact fun o member => budget o (kept.mem member)
    · intro seq beyond
      have fresh : seq ∉ c.outstanding.map Outstanding.seq := by
        intro place
        obtain ⟨old, inside, rfl⟩ := List.mem_map.mp place
        exact absurd (guarded.known old inside) (Nat.not_le.mpr (numbered.symm.trans_lt beyond))
      exact (others seq fresh).trans (guarded.unsent seq (numbered.symm.trans_lt beyond))

/-- A new reliable packet has a number nothing went out under. -/
theorem numberReliable_guarded {params : OpenParams} {c : Connection π}
    (guarded : c.exposure.Guarded params) (payload : Bytes) (type : PacketType) (now : Int)
    (room : c.txSeqRel ≠ kSeqMax) :
    ((c.numberReliable payload now).sendPacket type (c.txSeqRel + 1) payload now
      none).1.exposure.Guarded params := by
  have limit : c.txSeqRel ≤ kSeqMax := guarded.limit
  have fits : c.txSeqRel + 1 < 2 ^ 32 := by
    have bound : kSeqMax < 2 ^ 32 := by decide
    omega
  obtain ⟨state, once, others⟩ := sendPacket_onWire (c.numberReliable payload now) type
    (c.txSeqRel + 1) payload now none fits
  generalize ((c.numberReliable payload now).sendPacket type (c.txSeqRel + 1) payload now
    none).1 = after at state once others ⊢
  have start : ∀ seq, (c.numberReliable payload now).exposure.onWire seq =
    c.exposure.onWire seq := fun _ => rfl
  have unsent : c.exposure.onWire (c.txSeqRel + 1) = 0 := guarded.unsent _ (Nat.lt_succ_self _)
  rw [start, unsent] at once
  have older : ∀ o ∈ c.outstanding, o.seq ≠ c.txSeqRel + 1 := by
    intro o member same
    have known : o.seq ≤ c.txSeqRel := guarded.known o member
    omega
  refine ⟨?_, ?_, ?_, ?_, ?_, ?_, ?_, ?_, ?_, ?_, ?_, ?_, ?_⟩
  · exact (congrArg Exposure.authenticated state).trans guarded.awaiting
  · exact (congrArg (·.params.dialerBackoff) state).trans guarded.accepted
  · exact (congrArg (·.params.maxRtx) state).trans_le guarded.short
  · exact (congrArg Exposure.authenticatedMaxRtx state).trans guarded.configured
  · exact (congrArg Exposure.peerClosed state).trans guarded.peerOpen
  · exact (congrArg Exposure.peerVersionMismatch state).trans guarded.versionKept
  · exact (congrArg Exposure.peerKeepaliveIntervalMs state).trans guarded.keepaliveKept
  · refine (congrArg Exposure.txSeqRel state).trans_le ?_
    show c.txSeqRel + 1 ≤ kSeqMax
    omega
  · rw [state]
    show ((c.outstanding ++ [_]).map Outstanding.seq).Nodup
    rw [List.map_append, List.map_singleton, List.nodup_append]
    refine ⟨guarded.distinct, List.nodup_singleton _, ?_⟩
    intro seq place other last same
    obtain ⟨o, member, rfl⟩ := List.mem_map.mp place
    exact older o member (same.trans (List.mem_singleton.mp last))
  · intro o member
    rw [state] at member ⊢
    show o.seq ≤ c.txSeqRel + 1
    rcases List.mem_append.mp member with old | new
    · exact (guarded.known o old).trans (Nat.le_succ _)
    · rw [List.mem_singleton.mp new]
  · intro o member
    have place : o ∈ (c.numberReliable payload now).outstanding := by
      rwa [state] at member
    rcases List.mem_append.mp place with old | new
    · rw [others o.seq (older o old)]
      exact guarded.budget o old
    · rw [List.mem_singleton.mp new]
      exact once
  · intro seq
    by_cases same : seq = c.txSeqRel + 1
    · subst same
      have phase : (0 : Int) ≤ kPreAuthMaxRtx := by decide
      omega
    · rw [others seq same]
      exact guarded.bounded seq
  · intro seq beyond
    rw [state] at beyond
    have above : c.txSeqRel + 1 < seq := beyond
    rw [others seq (by omega)]
    exact guarded.unsent seq (by
      show c.txSeqRel < seq
      omega)

theorem send_guarded {params : OpenParams} {c : Connection π}
    (guarded : c.exposure.Guarded params) (qos : QosClass) (payload : Bytes)
    (short : c.txSeqBe ≤ kSeqMax) : (c.send qos payload).1.exposure.Guarded params := by
  rcases send_cases c qos payload with same | ⟨_, _, room, type, form, same⟩ | ⟨rfl, takes⟩
  · rw [same]
    exact guarded
  · have fits : c.txSeqBe + 1 < 2 ^ 32 := by
      have bound : kSeqMax < 2 ^ 32 := by decide
      omega
    have unreliable : type.isReliableData = false := by
      revert form
      cases type <;> decide
    rw [same]
    exact guarded.passive (sendPacket_passive (c.numberBestEffort payload) type _ payload _ none
      fits unreliable)
  · obtain ⟨type, _, same⟩ := send_takes takes
    rw [same]
    exact numberReliable_guarded guarded payload type _ takes.room

theorem sendKeepalivePacket_passive (c : Connection π) (now : Int) (intervalMs flags : Nat) :
    Passive c.exposure (c.sendKeepalivePacket now intervalMs flags).1.exposure := by
  unfold sendKeepalivePacket
  split
  · exact (Answers.refl c).passive
  · split
    · exact (Answers.refl c).passive
    · exact sendPacket_passive c .keepalive 0 _ now none (by decide) rfl

theorem close_passive (c : Connection π) : Passive c.exposure c.close.exposure := by
  unfold close
  split
  · exact (Answers.refl c).passive
  · have sent := sendPacket_passive c .close 0 [] c.endpoint.nowMs none (by decide) rfl
    exact ⟨congrArg (fun e : Exposure => { e with closed := true }) sent.rest, sent.kept,
      sent.unreliable⟩

omit [PacketProtection π] [Hmac] in
theorem handleVersionNegotiation_refused {c : Connection π}
    (accepted : c.params.dialerBackoff = false) (versions : Bytes) :
    c.handleVersionNegotiation versions = c := by
  simp only [handleVersionNegotiation, accepted, Bool.not_false, Bool.or_true, Bool.true_or,
    if_true]

theorem step_guarded {params : OpenParams} {c : Connection π}
    (guarded : c.exposure.Guarded params) (sound : c.ledger.Sound True) (event : Event π)
    (before : ∀ key, event ≠ .upgradeBinder key) : (c.step event).exposure.Guarded params := by
  cases event with
  | send qos payload => exact send_guarded guarded qos payload sound.limitBe
  | tick now => exact (tick_guarded guarded now).1
  | datagram source bytes now =>
      have answers := handleDatagram_answers guarded.awaiting guarded.accepted source bytes now
      exact guarded.passive answers.passive
  | versionNegotiation versions =>
      simp only [step, handleVersionNegotiation_refused guarded.accepted]
      exact guarded
  | upgradeBinder key => exact absurd rfl (before key)
  | setPeerEndpoint peer =>
      simp only [step, setPeerEndpoint_exposure]
      exact guarded
  | sendKeepalive now intervalMs =>
      exact guarded.passive
        (sendKeepalivePacket_passive { c with localKeepaliveIntervalMs := intervalMs } now _ _)
  | stopKeepalive now =>
      simp only [step, stopKeepalive]
      split
      · exact guarded
      · exact guarded.passive
          (sendKeepalivePacket_passive { c with localKeepaliveIntervalMs := 0 } now 0 0)
  | sendProbe now => exact guarded.passive (sendKeepalivePacket_passive c now _ _)
  | close => exact guarded.passive (close_passive c)
  | abandon =>
      simp only [step, abandon]
      split
      · exact guarded
      · exact guarded.passive ⟨rfl, List.Sublist.refl _, fun _ => rfl⟩
  | setProtection protection => exact guarded
  | onMessage installed => exact guarded
  | onPathChange installed => exact guarded
  | environment port => exact guarded

omit [PacketProtection π] [Hmac] in
theorem create_guarded (endpoint : EndpointPort) {params : OpenParams}
    (reduced : params.reduceRtxUntilAuthenticated = true)
    (accepted : params.dialerBackoff = false) :
    (create (π := π) endpoint params).exposure.Guarded params := by
  have unsent : ∀ seq, (create (π := π) endpoint params).exposure.onWire seq = 0 := fun _ => rfl
  have phase : (0 : Int) ≤ kPreAuthMaxRtx := by decide
  refine ⟨?_, ?_, ?_, rfl, rfl, rfl, rfl, Nat.zero_le _, List.nodup_nil, nofun, nofun, ?_, ?_⟩
  · simp only [exposure, create, reduced, Bool.not_true]
  · simp only [exposure, create, reduced, if_true, accepted]
  · simp only [exposure, create, reduced, if_true, accepted, Bool.false_eq_true, if_false]
    exact min_le_right _ _
  · intro seq
    rw [unsent]
    omega
  · exact fun seq _ => unsent seq

/-- What holds of an association before `UpgradeBinder`, whatever came in: it is
open unless closed here, no announcement of the peer was taken, no datagram makes
it do more than ack, and its reliable packets went out three times at most. -/
structure Unabused (params : OpenParams) (c : Connection π) : Prop where
  peerOpen : c.peerClosed = false
  versionKept : c.peerVersionMismatch = false
  keepaliveKept : c.peerKeepaliveIntervalMs = 0
  datagrams : ∀ source bytes now, (c.handleDatagram source bytes now).closed = c.closed ∧
    ∃ acks, (c.handleDatagram source bytes now).transmitted = c.transmitted ++ acks ∧
      ∀ ack ∈ acks, peekType ack = .ok .ack
  negotiations : ∀ versions, c.handleVersionNegotiation versions = c
  ticks : ∀ now, (c.tick now).closed = c.closed
  resends : ∀ seq, (c.transmitted.countP (carriesReliable seq) : Int) ≤ 1 + kPreAuthMaxRtx
  restored : ∀ key, (c.upgradeBinder key).params.maxRtx = params.maxRtx

theorem unabused_of_guarded {params : OpenParams} {c : Connection π}
    (guarded : c.exposure.Guarded params) : c.Unabused params := by
  refine ⟨guarded.peerOpen, guarded.versionKept, guarded.keepaliveKept, ?_, ?_, ?_,
    guarded.bounded, fun _ => guarded.configured⟩
  · intro source bytes now
    have answers := handleDatagram_answers guarded.awaiting guarded.accepted source bytes now
    exact ⟨congrArg Exposure.closed answers.rest, answers.acks⟩
  · exact handleVersionNegotiation_refused guarded.accepted
  · exact fun now => (tick_guarded guarded now).2

/-- Nothing anybody can send abuses an accepted association before its peer is
authenticated, and the upgrade gives back the configured `max_rtx`. -/
theorem accepted_unabused (endpoint : EndpointPort) (params : OpenParams)
    (reduced : params.reduceRtxUntilAuthenticated = true)
    (accepted : params.dialerBackoff = false) (events : List (Event π))
    (before : ∀ key, Event.upgradeBinder key ∉ events) :
    Run.Always step (Unabused params) (create endpoint params) events := by
  have meets : Run.Meets step (fun _ event => ∀ key, event ≠ .upgradeBinder key)
      (create endpoint params) events := by
    generalize (create (π := π) endpoint params) = start
    induction events generalizing start with
    | nil => trivial
    | cons event rest ih =>
        refine ⟨fun key same => before key (same ▸ List.mem_cons_self), ih ?_ _⟩
        exact fun key member => before key (List.mem_cons_of_mem _ member)
  refine Run.always_of_invariant step _
    (fun c => c.exposure.Guarded params ∧ c.ledger.Sound True) _ ?_ ?_ events _ meets
    ⟨create_guarded endpoint reduced accepted, create_sound endpoint params⟩
  · exact fun c event allowed holds => ⟨step_guarded holds.1 holds.2 event allowed,
      step_sound holds.2 event (Or.inl trivial)⟩
  · exact fun c holds => unabused_of_guarded holds.1

end Connection

open Connection

/-- A packet as anybody can build it before the upgrade. -/
def unauthentic (type : PacketType) (payload : Bytes) : Bytes :=
  let packet := encode {
    type := type, assoc := sampleParams.id, timestampMs := 1000, payload := payload }
  packet.toOption.elim [] (HmacBinder.bind [])

/-- A handshake packet resent to the limit between forged closes, keepalives and
version lists. -/
def forgedRun : List (Event TagProtection) :=
  [.send .reliable [5], .datagram { port := 7 } (unauthentic .close []) 1000, .tick 1050,
    .datagram { port := 7 } (unauthentic .keepalive [0, 0, 0, 9, 1]) 1000, .tick 1100,
    .versionNegotiation [9], .tick 1150, .tick 1200]

def acceptedParams : OpenParams := { sampleParams with reduceRtxUntilAuthenticated := true }

theorem Connection.accepted_unabused_sample :
    let opened : Connection TagProtection := create samplePort acceptedParams
    (Run.exec step opened forgedRun).transmitted.countP (carriesReliable 1) = 3 ∧
      Run.Always step (Unabused acceptedParams) opened forgedRun := by
  refine ⟨by decide +kernel, accepted_unabused samplePort acceptedParams rfl rfl forgedRun ?_⟩
  intro key member
  simp only [forgedRun, List.mem_cons, List.not_mem_nil, or_false, reduceCtorEq] at member

end Amp.Adp
