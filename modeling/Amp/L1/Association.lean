import Amp.L1.Moves
import Amp.L1.Sample
import Amp.Lib.Duplex
import Amp.Lib.Run

set_option autoImplicit false

/- The two ends of one association over a network that loses, repeats, delays and
reorders: what an end may be given is anything the other ever put on the wire. -/
namespace Amp.Adp

open Duplex (Side Ends)

/-- A connection on the network: datagrams reach it from some source at some time. -/
abbrev wire (π : Type) [PacketProtection π] [Hmac] :
    Duplex.Machine (Connection π) (Connection.Event π) Bytes (IpEndpoint × Int) where
  step := Connection.step
  sent := Connection.transmitted
  arrive how bytes := .datagram how.1 bytes how.2
  arrive_item _ _ _ _ same := by
    injection same

abbrev Pair (π : Type) := Ends (Connection π)

abbrev Pair.Act (π : Type) [PacketProtection π] [Hmac] := Side × Duplex.Action (wire π)

namespace Pair

variable {π : Type} [PacketProtection π] [Hmac]

abbrev step (pair : Pair π) (act : Act π) : Pair π := Duplex.step (wire π) pair act

def Sound (pair : Pair π) : Prop := pair.Both fun sender _ => sender.ledger.Sound True

theorem sound_endAt {pair : Pair π} (sound : Sound pair) (side : Side) :
    (pair.endAt side).ledger.Sound True :=
  sound.endAt side

theorem step_sound (pair : Pair π) (act : Act π) (sound : Sound pair) : Sound (step pair act) :=
  Duplex.step_both (wire π) (fun sender _ => sender.ledger.Sound True) pair act sound
    (fun event _ _ kept => Connection.step_sound kept event (Or.inl trivial)) (fun _ _ _ kept => kept)

/-- Two ends as `Connection::Open` makes them. -/
def opened (leftPort rightPort : EndpointPort) (leftParams rightParams : OpenParams) : Pair π where
  left := .create leftPort leftParams
  right := .create rightPort rightParams

theorem opened_sound (leftPort rightPort : EndpointPort) (leftParams rightParams : OpenParams) :
    Sound (opened (π := π) leftPort rightPort leftParams rightParams) :=
  ⟨Connection.create_sound leftPort leftParams, Connection.create_sound rightPort rightParams⟩

end Pair

namespace Connection

variable {π : Type} [PacketProtection π] [Hmac]

/-- What an end reads from a datagram is the packet the datagram was built from. -/
theorem received_of_carries [LawfulProtection π] {c : Connection π} {bytes : Bytes} {now : Int}
    {pkt built : WirePacket} (got : c.received bytes now = some pkt)
    (carries : Carries π bytes built) :
    pkt.type = built.type ∧ pkt.seq = built.seq ∧ pkt.payload = built.payload := by
  cases carries with
  | plain key _ body encoded seqFits timeFits =>
      unfold received at got
      rw [peekType_bind key built body encoded] at got
      have plain := (WireCodec.encode_layout built body encoded).2.1
      simp only [plain, Bool.false_eq_true, ↓reduceIte] at got
      split at got
      · have decoded := of_toOption got
        rw [decode_bind key built body encoded seqFits timeFits] at decoded
        cases decoded
        exact ⟨rfl, rfl, rfl⟩
      · cases got
  | keyed sealer header payload body sealing fits done =>
      unfold received at got
      rw [peekType_sealed] at got
      simp only [sealing, ↓reduceIte] at got
      have outcome := of_toOption got
      unfold openDatagram at outcome
      split at outcome
      · cases outcome
      · rename_i opener _
        split at outcome
        · cases outcome
        · rename_i read decoded
          have same := decodeSealedHeader_append header body fits read decoded
          subst same
          have size := encodeSealedHeader_length read
          split at outcome
          · cases outcome
          · rename_i opened ok
            cases outcome
            rw [← size, List.take_left, List.drop_left] at ok
            exact ⟨rfl, rfl, LawfulProtection.open_seal sealer opener _ _ _ _ _ _ _ done ok⟩

/-- Any packet read from the peer's datagrams is one the peer numbered. -/
theorem received_numbered [LawfulProtection π] {c peer : Connection π}
    (sound : peer.ledger.Sound True) {bytes : Bytes} (sent : bytes ∈ peer.transmitted) {now : Int}
    {pkt : WirePacket} (got : c.received bytes now = some pkt) :
    peer.ledger.Numbered True pkt.type pkt.seq pkt.payload := by
  obtain ⟨type, seq, payload, ⟨built, carries, rfl, rfl, rfl⟩, numbered⟩ :=
    sound.wires bytes sent
  obtain ⟨type, seq, payload⟩ := received_of_carries got carries
  rw [type, seq, payload]
  exact numbered

theorem receivedPreUpgrade_numbered {c peer : Connection π} (sound : peer.ledger.Sound True)
    {bytes : Bytes} (sent : bytes ∈ peer.transmitted) {pkt : WirePacket}
    (got : c.receivedPreUpgrade bytes = some pkt) :
    peer.ledger.Numbered True pkt.type pkt.seq pkt.payload := by
  obtain ⟨type, seq, payload, ⟨built, carries, rfl, rfl, rfl⟩, numbered⟩ :=
    sound.wires bytes sent
  rw [decode_of_carries (receivedPreUpgrade_decode got) carries]
  exact numbered

end Connection

namespace Inbox

def heldPayload (inbox : Inbox) (seq : Nat) : Option Bytes :=
  (inbox.hold.lookup seq).map HeldReliable.payload

def payloads (inbox : Inbox) : List Bytes := inbox.messages.map Message.payload

/-- The inbox has released a prefix of what the peer numbered, and holds each
early packet under its own number. `next` counts in 32 bits. -/
structure Follows (log : List Bytes) (inbox : Inbox) : Prop where
  tracks : ∃ count, inbox.next = (count + 1) % 2 ^ 32 ∧
    Reorder.Tracks log count inbox.heldPayload inbox.payloads

variable {log : List Bytes}

theorem Follows.grow {inbox : Inbox} (follows : Follows log inbox) {longer : List Bytes}
    (grown : log <+: longer) : Follows longer inbox := by
  obtain ⟨count, next, tracks⟩ := follows.tracks
  exact ⟨count, next, tracks.grow grown⟩

theorem heldPayload_insert (inbox : Inbox) (pkt : WirePacket) (seq : Nat) :
    (inbox.holdPacket pkt).heldPayload seq =
      if seq = pkt.seq then some pkt.payload else inbox.heldPayload seq := by
  unfold heldPayload holdPacket
  split
  · rename_i same
    rw [same, AList.lookup_insert]
    rfl
  · rename_i differs
    rw [AList.lookup_insert_ne differs]

theorem Follows.handOver {inbox : Inbox} (follows : Follows log inbox)
    (short : log.length < 2 ^ 32) (id : AssocId) (held : HeldReliable)
    (found : inbox.hold.lookup inbox.next = some held) :
    Follows log (inbox.handOver id held) := by
  obtain ⟨count, next, tracks⟩ := follows.tracks
  have due : inbox.heldPayload inbox.next = some held.payload := by
    rw [heldPayload, found]
    rfl
  have positive := (tracks.named inbox.next held.payload due).1
  have within := tracks.within
  have place : inbox.next = count + 1 := by omega
  refine ⟨count + 1, ?_, ?_⟩
  · simp only [Inbox.handOver, place]
  · have kept : ∀ seq item, (inbox.handOver id held).heldPayload seq = some item →
        inbox.heldPayload seq = some item := by
      intro seq item found
      by_cases same : seq = inbox.next
      · rw [same, heldPayload, Inbox.handOver, AList.lookup_erase] at found
        cases found
      · rwa [heldPayload, Inbox.handOver, AList.lookup_erase_ne same] at found
    have released := tracks.release held.payload (place ▸ due) kept
    simpa only [payloads, Inbox.handOver, List.map_append, List.map_singleton] using released

theorem Follows.release {inbox : Inbox} (follows : Follows log inbox)
    (short : log.length < 2 ^ 32) (id : AssocId) (turns : Nat) :
    Follows log (inbox.release id turns) := by
  induction turns generalizing inbox with
  | zero => exact follows
  | succ turns ih =>
      unfold Inbox.release
      split
      · exact follows
      · rename_i held found
        exact ih (follows.handOver short id held found)

/-- Taking in a packet the peer numbered keeps the inbox in step with it. -/
theorem Follows.take {book : Book} (follows : Follows log book.inbox)
    (short : log.length < 2 ^ 32) (pkt : WirePacket) (positive : 0 < pkt.seq)
    (named : log[pkt.seq - 1]? = some pkt.payload) : Follows log (book.take pkt).inbox := by
  have recorded : Follows log (book.inbox.record pkt) := ⟨follows.tracks⟩
  unfold Book.take keep
  dsimp only
  split
  · refine Follows.release ?_ short _ _
    obtain ⟨count, next, tracks⟩ := recorded.tracks
    refine ⟨count, next, tracks.hold ?_⟩
    intro seq item found
    rw [heldPayload_insert] at found
    split at found
    · rename_i same
      cases found
      exact Or.inr ⟨same ▸ positive, same ▸ named⟩
    · exact Or.inl found
  · exact recorded

theorem follows_empty (log : List Bytes) (window : ReplayWindow) :
    Follows log ⟨window, 1, ∅, [], []⟩ :=
  ⟨0, rfl, Reorder.tracks_empty log⟩

end Inbox

namespace Pair

variable {π : Type} [PacketProtection π] [Hmac]

/-- Each end's inbox follows what the other end has numbered. -/
def InStep (pair : Pair π) : Prop :=
  Sound pair ∧ pair.Both fun sender receiver => receiver.inbox.Follows sender.taken

theorem step_inStep [LawfulProtection π] (pair : Pair π) (act : Act π)
    (inStep : InStep pair) : InStep (step pair act) := by
  obtain ⟨sound, follows⟩ := inStep
  refine ⟨step_sound pair act sound, Duplex.step_both (wire π) _ pair act follows ?_ ?_⟩
  · intro event _ _ kept
    exact kept.grow (Connection.step_taken (sound_endAt sound act.1) event)
  · intro event _ honest kept
    have peer := sound_endAt sound act.1.other
    rcases Connection.step_inbox (sound_endAt sound act.1) event with same |
      ⟨source, bytes, now, pkt, rfl, got, takes, same⟩
    · rwa [same]
    · have numbered := Connection.received_numbered peer (honest (source, now) bytes rfl) got
      obtain ⟨positive, named⟩ := numbered.reliable takes.reliable
      rw [same]
      exact Inbox.Follows.take kept peer.taken_short pkt positive named

/-- In every reachable state the reliable payloads handed to an end's handler are
a prefix of those the other end numbered, each once and in order. -/
theorem reliable_delivered_in_order [LawfulProtection π] (leftPort rightPort : EndpointPort)
    (leftParams rightParams : OpenParams) (run : List (Act π)) :
    (Run.exec step (opened leftPort rightPort leftParams rightParams) run).Both
      fun sender receiver =>
        receiver.reliableMessages.map Message.payload <+: sender.taken := by
  have start : InStep (opened (π := π) leftPort rightPort leftParams rightParams) :=
    ⟨opened_sound leftPort rightPort leftParams rightParams,
      Inbox.follows_empty _ _, Inbox.follows_empty _ _⟩
  have reached := Run.invariant_always step InStep step_inStep run _ start
  obtain ⟨_, toRight, toLeft⟩ := reached
  obtain ⟨_, _, right⟩ := toRight.tracks
  obtain ⟨_, _, left⟩ := toLeft.tracks
  exact ⟨right.out_isPrefix, left.out_isPrefix⟩

end Pair

theorem Pair.reliable_delivered_in_order_sample :
    let run : List (Pair.Act TagProtection) := [
      (.right, .call (.onMessage true) (by simp)),
      (.left, .call (.send .reliable [1]) (by simp)),
      (.left, .call (.send .reliable [2]) (by simp)),
      (.right, .deliver 1 ({}, 1000)), (.right, .deliver 0 ({}, 1000)), (.right, .deliver 1 ({}, 1000)),
      (.left, .call (.upgradeBinder [9]) (by simp)),
      (.left, .call (.setProtection ⟨5⟩) (by simp)),
      (.right, .call (.setProtection ⟨5⟩) (by simp)),
      (.left, .call (.send .reliable [3]) (by simp)), (.right, .deliver 2 ({}, 1000))]
    let pair := Run.exec Pair.step (Pair.opened samplePort samplePort sampleParams sampleParams) run
    pair.right.reliableMessages.map Message.payload = [[1], [2], [3]] ∧
      pair.Both fun sender receiver =>
        receiver.reliableMessages.map Message.payload <+: sender.taken :=
  ⟨by decide +kernel,
    Pair.reliable_delivered_in_order samplePort samplePort sampleParams sampleParams _⟩

end Amp.Adp
