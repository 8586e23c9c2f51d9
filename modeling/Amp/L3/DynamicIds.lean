import Amp.L3.IdCounter
import Amp.Lib.Duplex
import Mathlib.Data.List.Perm.Basic

set_option autoImplicit false

/- Where the ids of a session's channels come from (ChannelMux.cpp). Both ends draw
them from counters of their own, the one from the odd and the other from the even
numbers; an OPEN on its way reaches the peer at most once. -/
namespace Amp

open Adp (Bytes)
open Duplex ChannelMux

variable {τ : Type}

/-- What `HandleOpen` makes of an OPEN. -/
inductive OpenAnswer where
  | duplicate
  | refused (result : UInt8)
  | recorded
  deriving DecidableEq, Repr

def ChannelMux.openAnswer (mux : ChannelMux τ) (id : UInt32) (protocolId : Bytes) : OpenAnswer :=
  if (mux.channelById id).isSome then .duplicate
  else
    match mux.openRefusal id protocolId with
    | some result => .refused result
    | none => .recorded

/-- Every id an end of this parity may draw has its record. -/
def ChannelMux.Exhausted (mux : ChannelMux τ) : Prop :=
  ∀ id, id % 2 = mux.nextDynamicId % 2 → id ≠ kCapabilityChannelId → id ≠ kIllegalChannelId →
    (mux.channelById id).isSome

/-- An open without an id. -/
structure DynamicOpen where
  id : UInt32
  protocolId : Bytes
  policy : ChannelPolicy

structure IdEnd (τ : Type) where
  mux : ReentrantMux τ
  /-- Trace: the ids drawn. -/
  allocated : List UInt32 := []
  /-- The OPENs handed to the transport that have not reached the peer. -/
  flying : List DynamicOpen := []
  /-- Trace: what became of the peer's OPENs. -/
  answers : List OpenAnswer := []
  /-- Trace: the mux in which an id drawn had its record already. -/
  blocked : List (ChannelMux τ) := []

namespace IdEnd

def openDynamic (this : IdEnd τ) (protocolId : Bytes) (policy : ChannelPolicy) : IdEnd τ :=
  let id := this.mux.mux.allocateId.1
  let recorded := (this.mux.mux.channelById id).isSome
  { this with
    mux := this.mux.openOutbound protocolId policy none
    allocated := this.allocated ++ [id]
    flying := if recorded then this.flying else this.flying ++ [⟨id, protocolId, policy⟩]
    blocked := if recorded then this.blocked ++ [this.mux.mux] else this.blocked }

def call (this : IdEnd τ) (event : ReentrantMux.Event) : IdEnd τ :=
  { this with mux := this.mux.step event }

def receive (this : IdEnd τ) (request : DynamicOpen) : IdEnd τ :=
  { this with
    mux := this.mux.dispatchFrame (openFrame request.id request.protocolId request.policy)
    answers := this.answers ++ [this.mux.mux.openAnswer request.id request.protocolId] }

def land (this : IdEnd τ) (index : Nat) : IdEnd τ :=
  { this with flying := this.flying.eraseIdx index }

end IdEnd

inductive IdEvent where
  | openDynamic (protocolId : Bytes) (policy : ChannelPolicy)
  /-- An OPEN of the peer's arrives. -/
  | arrive (index : Nat)
  /-- An OPEN of this end's does not. -/
  | lose (index : Nat)
  /-- Anything else at this end: other calls, opens of the capability channel and frames
  of the peer's that are no OPEN of another channel. -/
  | other (event : ReentrantMux.Event) (plain : ReentrantMux.plainEvent event = true)

namespace DynamicIds

/-- The muxes of a session; the one on the left is the initiator's. -/
def created (left right : τ) : Ends (IdEnd τ) where
  left := { mux := .create true left }
  right := { mux := .create false right }

def step (ends : Ends (IdEnd τ)) (act : Side × IdEvent) : Ends (IdEnd τ) :=
  let this := ends.endAt act.1
  match act.2 with
  | .openDynamic protocolId policy => ends.put act.1 (this.openDynamic protocolId policy)
  | .lose index => ends.put act.1 (this.land index)
  | .other event _ => ends.put act.1 (this.call event)
  | .arrive index =>
      let peer := ends.endAt act.1.other
      match peer.flying[index]? with
      | none => ends
      | some request => (ends.put act.1.other (peer.land index)).put act.1 (this.receive request)

/-- The ids of one parity, without the reserved one. -/
def kIdsOfParity : Nat := 2 ^ 31 - 1

/-- No id drawn is reserved or drawn at both ends, no OPEN of such an id is turned away for
its id, and none is missing while another is free. -/
structure Collisionless (ends : Ends (IdEnd τ)) : Prop where
  unreserved : ∀ side, ∀ id ∈ (ends.endAt side).allocated,
    id ≠ kCapabilityChannelId ∧ id ≠ kIllegalChannelId
  disjoint : ∀ id ∈ ends.left.allocated, id ∉ ends.right.allocated
  answered : ∀ side, ∀ answer ∈ (ends.endAt side).answers,
    answer ≠ .duplicate ∧ answer ≠ .refused kOpenAckBadIdParity
  blocked : ∀ side, ∀ mux ∈ (ends.endAt side).blocked, mux.Exhausted

/-- No end has a record of the id this one would draw, and no OPEN of it is on its way. -/
def NextFree (this peer : IdEnd τ) : Prop :=
  (this.mux.mux.channelById this.mux.mux.allocateId.1).isSome = false ∧
    (peer.mux.mux.channelById this.mux.mux.allocateId.1).isSome = false ∧
    ∀ request ∈ this.flying, request.id ≠ this.mux.mux.allocateId.1

/-- An end draws no more ids than there are, or past that one that has come free. -/
def DrawsFree (ends : Ends (IdEnd τ)) (act : Side × IdEvent) : Prop :=
  match act.2 with
  | .openDynamic .. =>
      let this := ends.endAt act.1
      this.allocated.length < kIdsOfParity ∨
        this.mux.mux.nextDynamicId ≠ kCapabilityChannelId ∧
          (NextFree this (ends.endAt act.1.other) ∨ this.mux.mux.Exhausted)
  | _ => True

/-- The first id of an end. -/
def start : Side → Nat
  | .left => 1
  | .right => 2

/-- What holds of the ids one end draws, at that end and at its peer. -/
structure Drawn (start : Nat) (this peer : IdEnd τ) : Prop where
  parity : this.mux.mux.nextDynamicId.toNat % 2 = start % 2
  counted : this.allocated.length ≤ kIdsOfParity →
    this.mux.mux.nextDynamicId.toNat = (start + 2 * this.allocated.length) % 2 ^ 32
  kinds : ∀ id ∈ this.allocated,
    id.toNat % 2 = start % 2 ∧ id ≠ kCapabilityChannelId ∧ id ≠ kIllegalChannelId
  below : this.allocated.length ≤ kIdsOfParity → ∀ id ∈ this.allocated,
    id.toNat < start + 2 * this.allocated.length
  here : ∀ id, id ≠ kCapabilityChannelId → id.toNat % 2 = start % 2 →
    (this.mux.mux.channelById id).isSome → id ∈ this.allocated
  there : ∀ id, id ≠ kCapabilityChannelId → id.toNat % 2 = start % 2 →
    (peer.mux.mux.channelById id).isSome →
    id ∈ this.allocated ∧ ∀ request ∈ this.flying, request.id ≠ id
  flown : ∀ request ∈ this.flying, request.id ∈ this.allocated
  once : (this.flying.map DynamicOpen.id).Nodup

section Counter

variable (mux : ChannelMux τ)

theorem toNat_add_two (id : UInt32) : (id + 2).toNat = (id.toNat + 2) % 2 ^ 32 :=
  UInt32.toNat_add id 2

theorem allocateId_plain (legal : mux.nextDynamicId ≠ kIllegalChannelId) :
    mux.allocateId = (mux.nextDynamicId, mux.nextDynamicId + 2) := if_neg legal

theorem allocateId_skips (illegal : mux.nextDynamicId = kIllegalChannelId) :
    mux.allocateId = (1, 3) := by
  unfold allocateId
  dsimp only
  rw [if_pos illegal, illegal]
  decide

theorem allocateId_parity : mux.allocateId.1.toNat % 2 = mux.nextDynamicId.toNat % 2 ∧
    mux.allocateId.2.toNat % 2 = mux.nextDynamicId.toNat % 2 := by
  by_cases illegal : mux.nextDynamicId = kIllegalChannelId
  · rw [allocateId_skips mux illegal, illegal]
    decide
  · rw [allocateId_plain mux illegal]
    have next := toNat_add_two mux.nextDynamicId
    constructor
    · rfl
    · dsimp only
      omega

theorem allocateId_legal : mux.allocateId.1 ≠ kIllegalChannelId := by
  by_cases illegal : mux.nextDynamicId = kIllegalChannelId
  · rw [allocateId_skips mux illegal]
    decide
  · rwa [allocateId_plain mux illegal]

theorem allocateId_real (real : mux.nextDynamicId ≠ kCapabilityChannelId) :
    mux.allocateId.1 ≠ kCapabilityChannelId := by
  by_cases illegal : mux.nextDynamicId = kIllegalChannelId
  · rw [allocateId_skips mux illegal]
    decide
  · rwa [allocateId_plain mux illegal]

end Counter

section Records

variable (mux : ReentrantMux τ)

theorem openDynamic_counter (protocolId : Bytes) (policy : ChannelPolicy) :
    (mux.openOutbound protocolId policy none).mux.nextDynamicId = mux.mux.allocateId.2 := by
  unfold ReentrantMux.openOutbound
  dsimp only
  split
  · rfl
  · rfl

theorem openDynamic_records (protocolId : Bytes) (policy : ChannelPolicy) {id : UInt32}
    (there : ((mux.openOutbound protocolId policy none).mux.channelById id).isSome) :
    (mux.mux.channelById id).isSome ∨ id = mux.mux.allocateId.1 := by
  by_cases same : id = mux.mux.allocateId.1
  · exact .inr same
  · left
    unfold ReentrantMux.openOutbound at there
    dsimp only at there
    split at there
    · exact there
    · rwa [ReentrantMux.isSome_record _ same] at there

theorem openDynamic_recorded {this : IdEnd τ}
    (recorded : (this.mux.mux.channelById this.mux.mux.allocateId.1).isSome = true)
    (protocolId : Bytes) (policy : ChannelPolicy) :
    (this.openDynamic protocolId policy).flying = this.flying ∧
      (this.openDynamic protocolId policy).blocked = this.blocked ++ [this.mux.mux] :=
  ⟨if_pos recorded, if_pos recorded⟩

theorem openDynamic_unrecorded {this : IdEnd τ}
    (missing : ¬ (this.mux.mux.channelById this.mux.mux.allocateId.1).isSome = true)
    (protocolId : Bytes) (policy : ChannelPolicy) :
    (this.openDynamic protocolId policy).flying =
        this.flying ++ [⟨this.mux.mux.allocateId.1, protocolId, policy⟩] ∧
      (this.openDynamic protocolId policy).blocked = this.blocked :=
  ⟨if_neg missing, if_neg missing⟩

theorem dispatchOpen_counter (request : DynamicOpen) :
    (mux.dispatchFrame (openFrame request.id request.protocolId request.policy)).mux.nextDynamicId =
      mux.mux.nextDynamicId := by
  show (mux.handleOpen request.id request.protocolId _ _).mux.nextDynamicId = _
  unfold ReentrantMux.handleOpen
  split
  · rfl
  · split
    · rfl
    · rfl

theorem dispatchOpen_records (request : DynamicOpen) {id : UInt32}
    (there : ((mux.dispatchFrame
      (openFrame request.id request.protocolId request.policy)).mux.channelById id).isSome) :
    (mux.mux.channelById id).isSome ∨ id = request.id := by
  by_cases same : id = request.id
  · exact .inr same
  · left
    have opened : ((mux.handleOpen request.id request.protocolId request.policy.cls
        (min request.policy.maxMessageBytes 0xFFFFFFFF)).mux.channelById id).isSome := there
    unfold ReentrantMux.handleOpen at opened
    split at opened
    · exact opened
    · split at opened
      · exact opened
      · rwa [ReentrantMux.isSome_record _ same] at opened

end Records

section Flow

variable {first : Nat} {this peer : IdEnd τ}

theorem Drawn.mono (drawn : Drawn first this peer) {later heard : IdEnd τ}
    (counter : later.mux.mux.nextDynamicId = this.mux.mux.nextDynamicId)
    (allocated : later.allocated = this.allocated) (flying : later.flying.Sublist this.flying)
    (here : ∀ id, id ≠ kCapabilityChannelId → id.toNat % 2 = first % 2 →
      (later.mux.mux.channelById id).isSome → (this.mux.mux.channelById id).isSome)
    (there : ∀ id, id ≠ kCapabilityChannelId → id.toNat % 2 = first % 2 →
      (heard.mux.mux.channelById id).isSome → (peer.mux.mux.channelById id).isSome) :
    Drawn first later heard where
  parity := by rw [counter]; exact drawn.parity
  counted := by rw [counter, allocated]; exact drawn.counted
  kinds := by rw [allocated]; exact drawn.kinds
  below := by rw [allocated]; exact drawn.below
  here id real own recorded := by
    rw [allocated]
    exact drawn.here id real own (here id real own recorded)
  there id real own recorded := by
    have held := drawn.there id real own (there id real own recorded)
    rw [allocated]
    exact ⟨held.1, fun request flies => held.2 request (flying.subset flies)⟩
  flown request flies := by
    rw [allocated]
    exact drawn.flown request (flying.subset flies)
  once := (flying.map DynamicOpen.id).nodup drawn.once

theorem Drawn.called (drawn : Drawn first this peer) {event : ReentrantMux.Event}
    (plain : ReentrantMux.plainEvent event = true) : Drawn first (this.call event) peer := by
  have kept : this.mux.Keeps (this.mux.step event) := ReentrantMux.step_keeps event plain
  exact drawn.mono kept.counter rfl (List.Sublist.refl _)
    (fun id real _ recorded => kept.recorded id real recorded) (fun _ _ _ recorded => recorded)

theorem Drawn.peer_called (drawn : Drawn first this peer) {event : ReentrantMux.Event}
    (plain : ReentrantMux.plainEvent event = true) : Drawn first this (peer.call event) := by
  have kept : peer.mux.Keeps (peer.mux.step event) := ReentrantMux.step_keeps event plain
  exact drawn.mono rfl rfl (List.Sublist.refl _) (fun _ _ _ recorded => recorded)
    (fun id real _ recorded => kept.recorded id real recorded)

theorem Drawn.landed (drawn : Drawn first this peer) (index : Nat) :
    Drawn first (this.land index) peer :=
  drawn.mono rfl rfl (List.eraseIdx_sublist this.flying index) (fun _ _ _ recorded => recorded)
    (fun _ _ _ recorded => recorded)

/-- The peer's ids are of the other parity, so a record for one of them is none of these. -/
theorem Drawn.peer_draws {other : Nat} (drawn : Drawn first this peer)
    (peers : Drawn other peer this) (apart : first % 2 ≠ other % 2) (protocolId : Bytes)
    (policy : ChannelPolicy) : Drawn first this (peer.openDynamic protocolId policy) := by
  apply drawn.mono rfl rfl (List.Sublist.refl _) (fun _ _ _ recorded => recorded)
  intro id _ own recorded
  rcases openDynamic_records peer.mux protocolId policy recorded with before | drew
  · exact before
  · have parity := (allocateId_parity peer.mux.mux).1
    rw [← drew, own, peers.parity] at parity
    exact absurd parity apart

theorem Drawn.receives {other : Nat} (drawn : Drawn first this peer)
    (peers : Drawn other peer this) (apart : first % 2 ≠ other % 2) {request : DynamicOpen}
    (flies : request ∈ peer.flying) : Drawn first (this.receive request) peer := by
  have here : ∀ id, id ≠ kCapabilityChannelId → id.toNat % 2 = first % 2 →
      ((this.receive request).mux.mux.channelById id).isSome →
      (this.mux.mux.channelById id).isSome := by
    intro id _ own recorded
    rcases dispatchOpen_records this.mux request recorded with before | came
    · exact before
    · have parity := (peers.kinds request.id (peers.flown request flies)).1
      rw [← came, own] at parity
      exact absurd parity apart
  exact drawn.mono (dispatchOpen_counter this.mux request) rfl (List.Sublist.refl _) here
    (fun _ _ _ recorded => recorded)

/-- An OPEN that arrives is no longer on its way, and no other one has its id. -/
theorem Drawn.received (drawn : Drawn first this peer) {index : Nat} {request : DynamicOpen}
    (found : this.flying[index]? = some request) :
    Drawn first (this.land index) (peer.receive request) := by
  have flies : request ∈ this.flying := List.mem_of_getElem? found
  have landed := drawn.landed index
  exact { landed with
    there := by
      intro id real own recorded
      rcases dispatchOpen_records peer.mux request recorded with before | came
      · exact landed.there id real own before
      · rw [came]
        refine ⟨drawn.flown request flies, ?_⟩
        intro other left same
        have parts : (request :: this.flying.eraseIdx index).Perm this.flying := by
          obtain ⟨small, got⟩ := List.getElem?_eq_some_iff.mp found
          rw [← got]
          exact List.getElem_cons_eraseIdx_perm small
        have once := (parts.map DynamicOpen.id).nodup_iff.mpr drawn.once
        exact (List.nodup_cons.mp once).1 (List.mem_map.mpr ⟨other, left, same⟩) }

/-- Before the counter comes round the next id is a new one. -/
theorem Drawn.early (drawn : Drawn first this peer) (begins : first = 1 ∨ first = 2)
    (few : this.allocated.length < kIdsOfParity) :
    this.mux.mux.nextDynamicId.toNat = first + 2 * this.allocated.length ∧
      this.mux.mux.allocateId = (this.mux.mux.nextDynamicId, this.mux.mux.nextDynamicId + 2) ∧
      this.mux.mux.nextDynamicId ≠ kCapabilityChannelId ∧ NextFree this peer := by
  have counted := drawn.counted (Nat.le_of_lt few)
  have room : this.allocated.length < 2147483647 := few
  have stands : this.mux.mux.nextDynamicId.toNat = first + 2 * this.allocated.length := by omega
  have legal : this.mux.mux.nextDynamicId ≠ kIllegalChannelId := by
    intro same
    have top : this.mux.mux.nextDynamicId.toNat = 4294967295 := congrArg UInt32.toNat same
    omega
  have real : this.mux.mux.nextDynamicId ≠ kCapabilityChannelId := by
    intro same
    have zero : this.mux.mux.nextDynamicId.toNat = 0 := congrArg UInt32.toNat same
    omega
  have plain := allocateId_plain this.mux.mux legal
  have fresh : this.mux.mux.nextDynamicId ∉ this.allocated := by
    intro old
    have low := drawn.below (Nat.le_of_lt few) _ old
    omega
  refine ⟨stands, plain, real, ?_⟩
  unfold NextFree
  rw [plain]
  refine ⟨?_, ?_, ?_⟩
  · apply Bool.eq_false_iff.mpr
    exact fun recorded => fresh (drawn.here _ real drawn.parity recorded)
  · apply Bool.eq_false_iff.mpr
    exact fun recorded => fresh (drawn.there _ real drawn.parity recorded).1
  · intro request flies same
    have drew := drawn.flown request flies
    rw [show request.id = this.mux.mux.nextDynamicId from same] at drew
    exact fresh drew

/-- What a draw takes: an id that is not reserved, and free unless none is. -/
structure Draws (this peer : IdEnd τ) : Prop where
  real : this.mux.mux.nextDynamicId ≠ kCapabilityChannelId
  free : NextFree this peer ∨ this.mux.mux.Exhausted

theorem Drawn.draws (drawn : Drawn first this peer) (begins : first = 1 ∨ first = 2)
    (safe : this.allocated.length < kIdsOfParity ∨
      this.mux.mux.nextDynamicId ≠ kCapabilityChannelId ∧
        (NextFree this peer ∨ this.mux.mux.Exhausted)) : Draws this peer := by
  rcases safe with few | ⟨real, free⟩
  · obtain ⟨_, _, real, free⟩ := drawn.early begins few
    exact ⟨real, .inl free⟩
  · exact ⟨real, free⟩

theorem sameParity {id other : UInt32} (same : id.toNat % 2 = other.toNat % 2) :
    id % 2 = other % 2 := by
  apply UInt32.toNat.inj
  rw [UInt32.toNat_mod, UInt32.toNat_mod]
  exact same

/-- An id whose record is there already is drawn only when none is free. -/
theorem Draws.exhausted (draws : Draws this peer)
    (recorded : (this.mux.mux.channelById this.mux.mux.allocateId.1).isSome = true) :
    this.mux.mux.Exhausted := by
  rcases draws.free with free | exhausted
  · rw [free.1] at recorded
    cases recorded
  · exact exhausted

theorem Draws.nextFree (draws : Draws this peer)
    (missing : ¬ (this.mux.mux.channelById this.mux.mux.allocateId.1).isSome = true) :
    NextFree this peer := by
  rcases draws.free with free | exhausted
  · exact free
  · exact absurd (exhausted _ (sameParity (allocateId_parity _).1)
      (allocateId_real _ draws.real) (allocateId_legal _)) missing

theorem Drawn.drew (drawn : Drawn first this peer) (begins : first = 1 ∨ first = 2)
    (safe : this.allocated.length < kIdsOfParity ∨
      this.mux.mux.nextDynamicId ≠ kCapabilityChannelId ∧
        (NextFree this peer ∨ this.mux.mux.Exhausted))
    (protocolId : Bytes) (policy : ChannelPolicy) :
    Drawn first (this.openDynamic protocolId policy) peer := by
  have draws := drawn.draws begins safe
  have parity := allocateId_parity this.mux.mux
  have counter : (this.openDynamic protocolId policy).mux.mux.nextDynamicId =
      this.mux.mux.allocateId.2 := openDynamic_counter this.mux protocolId policy
  have length : (this.openDynamic protocolId policy).allocated.length =
      this.allocated.length + 1 := List.length_append
  have flights : ∀ request ∈ (this.openDynamic protocolId policy).flying,
      request ∈ this.flying ∨ NextFree this peer ∧ request.id = this.mux.mux.allocateId.1 := by
    intro request flies
    by_cases recorded : (this.mux.mux.channelById this.mux.mux.allocateId.1).isSome = true
    · left
      rwa [(openDynamic_recorded recorded protocolId policy).1] at flies
    · rw [(openDynamic_unrecorded recorded protocolId policy).1] at flies
      rcases List.mem_append.mp flies with old | new
      · exact .inl old
      · rw [List.mem_singleton.mp new]
        exact .inr ⟨draws.nextFree recorded, rfl⟩
  constructor
  · rw [counter, parity.2]
    exact drawn.parity
  · rw [length]
    intro few
    obtain ⟨stands, plain, _⟩ := drawn.early begins few
    rw [counter, plain]
    have next := toNat_add_two this.mux.mux.nextDynamicId
    dsimp only
    omega
  · intro id drew
    rcases List.mem_append.mp drew with old | new
    · exact drawn.kinds id old
    · rw [List.mem_singleton.mp new]
      exact ⟨parity.1.trans drawn.parity, allocateId_real _ draws.real, allocateId_legal _⟩
  · rw [length]
    intro few id drew
    obtain ⟨stands, plain, _⟩ := drawn.early begins few
    rcases List.mem_append.mp drew with old | new
    · have low := drawn.below (Nat.le_of_lt few) id old
      omega
    · rw [List.mem_singleton.mp new, plain, stands]
      omega
  · intro id real own recorded
    rcases openDynamic_records this.mux protocolId policy recorded with before | drew
    · exact List.mem_append_left _ (drawn.here id real own before)
    · exact List.mem_append_right _ (List.mem_singleton.mpr drew)
  · intro id real own recorded
    have held := drawn.there id real own recorded
    refine ⟨List.mem_append_left _ held.1, ?_⟩
    intro request flies
    rcases flights request flies with old | ⟨free, new⟩
    · exact held.2 request old
    · rintro rfl
      rw [new, free.2.1] at recorded
      cases recorded
  · intro request flies
    rcases flights request flies with old | ⟨_, new⟩
    · exact List.mem_append_left _ (drawn.flown request old)
    · exact List.mem_append_right _ (List.mem_singleton.mpr new)
  · by_cases recorded : (this.mux.mux.channelById this.mux.mux.allocateId.1).isSome = true
    · rw [(openDynamic_recorded recorded protocolId policy).1]
      exact drawn.once
    · rw [(openDynamic_unrecorded recorded protocolId policy).1, List.map_append, List.nodup_append]
      refine ⟨drawn.once, List.nodup_singleton _, ?_⟩
      intro old flown id new
      obtain ⟨request, flies, same⟩ := List.mem_map.mp flown
      rw [List.mem_singleton.mp new, ← same]
      exact (draws.nextFree recorded).2.2 request flies

/-- The peer's OPEN is for an id of the other parity that has no record here. -/
theorem Drawn.answer {other : Nat} (drawn : Drawn first this peer) (peers : Drawn other peer this)
    (apart : first % 2 ≠ other % 2) {request : DynamicOpen} (flies : request ∈ peer.flying) :
    this.mux.mux.openAnswer request.id request.protocolId ≠ .duplicate ∧
      this.mux.mux.openAnswer request.id request.protocolId ≠ .refused kOpenAckBadIdParity := by
  obtain ⟨parity, real, _⟩ := peers.kinds request.id (peers.flown request flies)
  have missing : ¬ (this.mux.mux.channelById request.id).isSome = true :=
    fun recorded => (peers.there request.id real parity recorded).2 request flies rfl
  have other : ¬ request.id % 2 = this.mux.mux.nextDynamicId % 2 := by
    intro same
    have sameNat := congrArg UInt32.toNat same
    rw [UInt32.toNat_mod, UInt32.toNat_mod] at sameNat
    have two : (2 : UInt32).toNat = 2 := rfl
    rw [two, parity, drawn.parity] at sameNat
    exact apart sameNat.symm
  unfold openAnswer openRefusal
  rw [if_neg missing, if_neg fun both => other both.2]
  split
  · rename_i result refusal
    refine ⟨nofun, ?_⟩
    intro same
    cases same
    split at refusal
    · cases refusal
    · split at refusal
      · cases refusal
      · cases refusal
  · exact ⟨nofun, nofun⟩

end Flow

section Steps

theorem endAt_put (ends : Ends (IdEnd τ)) (side : Side) (state : IdEnd τ) :
    (ends.put side state).endAt side = state ∧
      (ends.put side state).endAt side.other = ends.endAt side.other := by
  cases side with
  | left => exact ⟨rfl, rfl⟩
  | right => exact ⟨rfl, rfl⟩

theorem other_other (side : Side) : side.other.other = side := by
  cases side with
  | left => rfl
  | right => rfl

theorem either_side {holds : Side → Prop} (side : Side) (own : holds side)
    (others : holds side.other) : ∀ which, holds which := by
  intro which
  cases side with
  | left =>
      cases which with
      | left => exact own
      | right => exact others
  | right =>
      cases which with
      | left => exact others
      | right => exact own

theorem start_begins (side : Side) : start side = 1 ∨ start side = 2 := by
  cases side with
  | left => exact .inl rfl
  | right => exact .inr rfl

theorem start_apart (side : Side) : start side % 2 ≠ start side.other % 2 := by
  cases side with
  | left => decide
  | right => decide

/-- The traces of one end. -/
structure WellSeen (this : IdEnd τ) : Prop where
  answered : ∀ answer ∈ this.answers, answer ≠ .duplicate ∧ answer ≠ .refused kOpenAckBadIdParity
  blocked : ∀ mux ∈ this.blocked, mux.Exhausted

structure Sound (ends : Ends (IdEnd τ)) : Prop where
  drawn : ∀ side, Drawn (start side) (ends.endAt side) (ends.endAt side.other)
  seen : ∀ side, WellSeen (ends.endAt side)

theorem Sound.collisionless {ends : Ends (IdEnd τ)} (sound : Sound ends) : Collisionless ends := by
  constructor
  · intro side id drew
    exact ((sound.drawn side).kinds id drew).2
  · intro id left right
    have odd := ((sound.drawn .left).kinds id left).1
    have even := ((sound.drawn .right).kinds id right).1
    have starts : start .left = 1 ∧ start .right = 2 := ⟨rfl, rfl⟩
    omega
  · exact fun side => (sound.seen side).answered
  · exact fun side => (sound.seen side).blocked

/-- What a step at one end has to keep. -/
theorem Sound.put {ends : Ends (IdEnd τ)} {side : Side} {this : IdEnd τ}
    (sending : Drawn (start side) this (ends.endAt side.other))
    (hearing : Drawn (start side.other) (ends.endAt side.other) this)
    (seen : WellSeen this) (others : WellSeen (ends.endAt side.other)) :
    Sound (ends.put side this) := by
  obtain ⟨own, other⟩ := endAt_put ends side this
  constructor
  · refine either_side side ?_ ?_
    · rwa [own, other]
    · rwa [other_other, own, other]
  · refine either_side side ?_ ?_
    · rwa [own]
    · rwa [other]

variable {ends : Ends (IdEnd τ)} {side : Side}

/-- How the peer's ids stand, seen from one end. -/
theorem Sound.peers (sound : Sound ends) (side : Side) :
    Drawn (start side.other) (ends.endAt side.other) (ends.endAt side) := by
  have drawn := sound.drawn side.other
  rwa [other_other] at drawn

theorem Sound.openDynamic (sound : Sound ends) (protocolId : Bytes) (policy : ChannelPolicy)
    (safe : DrawsFree ends (side, .openDynamic protocolId policy)) :
    Sound (ends.put side ((ends.endAt side).openDynamic protocolId policy)) := by
  have drawn := sound.drawn side
  have draws := drawn.draws (start_begins side) safe
  apply Sound.put
  · exact drawn.drew (start_begins side) safe protocolId policy
  · exact (sound.peers side).peer_draws drawn (start_apart side).symm protocolId policy
  · constructor
    · exact (sound.seen side).answered
    · intro mux listed
      by_cases recorded : ((ends.endAt side).mux.mux.channelById
          (ends.endAt side).mux.mux.allocateId.1).isSome = true
      · rw [(openDynamic_recorded recorded protocolId policy).2] at listed
        rcases List.mem_append.mp listed with old | new
        · exact (sound.seen side).blocked mux old
        · rw [List.mem_singleton.mp new]
          exact draws.exhausted recorded
      · rw [(openDynamic_unrecorded recorded protocolId policy).2] at listed
        exact (sound.seen side).blocked mux listed
  · exact sound.seen side.other

theorem Sound.arrive (sound : Sound ends) {index : Nat} {request : DynamicOpen}
    (found : (ends.endAt side.other).flying[index]? = some request) :
    Sound ((ends.put side.other ((ends.endAt side.other).land index)).put side
      ((ends.endAt side).receive request)) := by
  have drawn := sound.drawn side
  have peers := sound.peers side
  have flies : request ∈ (ends.endAt side.other).flying := List.mem_of_getElem? found
  have landed : (ends.put side.other ((ends.endAt side.other).land index)).endAt side.other =
      (ends.endAt side.other).land index := (endAt_put ends side.other _).1
  apply Sound.put
  · rw [landed]
    have received := drawn.receives peers (start_apart side) flies
    exact received.mono rfl rfl (List.Sublist.refl _) (fun _ _ _ recorded => recorded)
      (fun _ _ _ recorded => recorded)
  · rw [landed]
    exact peers.received found
  · constructor
    · intro answer listed
      rcases List.mem_append.mp listed with old | new
      · exact (sound.seen side).answered answer old
      · rw [List.mem_singleton.mp new]
        exact drawn.answer peers (start_apart side) flies
    · exact (sound.seen side).blocked
  · rw [landed]
    exact ⟨(sound.seen side.other).answered, (sound.seen side.other).blocked⟩

theorem step_sound (sound : Sound ends) (act : Side × IdEvent) (safe : DrawsFree ends act) :
    Sound (step ends act) := by
  obtain ⟨side, event⟩ := act
  cases event with
  | openDynamic protocolId policy => exact sound.openDynamic protocolId policy safe
  | arrive index =>
      unfold step
      dsimp only
      split
      · exact sound
      · rename_i request found
        exact sound.arrive found
  | lose index =>
      apply Sound.put
      · exact (sound.drawn side).landed index
      · exact (sound.peers side).mono rfl rfl (List.Sublist.refl _)
          (fun _ _ _ recorded => recorded) (fun _ _ _ recorded => recorded)
      · exact ⟨(sound.seen side).answered, (sound.seen side).blocked⟩
      · exact sound.seen side.other
  | other event plain =>
      apply Sound.put
      · exact (sound.drawn side).called plain
      · exact (sound.peers side).peer_called plain
      · exact ⟨(sound.seen side).answered, (sound.seen side).blocked⟩
      · exact sound.seen side.other

theorem created_sound (left right : τ) : Sound (created left right) := by
  have none : ∀ side id,
      (((created left right).endAt side).mux.mux.channelById id).isSome = false := by
    intro side id
    cases side with
    | left => rfl
    | right => rfl
  have undrawn : ∀ side, ((created left right).endAt side).allocated = [] := by
    intro side
    cases side with
    | left => rfl
    | right => rfl
  have grounded : ∀ side, ((created left right).endAt side).flying = [] := by
    intro side
    cases side with
    | left => rfl
    | right => rfl
  constructor
  · intro side
    constructor
    · cases side with
      | left => rfl
      | right => rfl
    · intro _
      cases side with
      | left => rfl
      | right => rfl
    · rw [undrawn]
      exact fun id drew => absurd drew List.not_mem_nil
    · rw [undrawn]
      exact fun _ id drew => absurd drew List.not_mem_nil
    · intro id _ _ recorded
      rw [none] at recorded
      cases recorded
    · intro id _ _ recorded
      rw [none] at recorded
      cases recorded
    · rw [grounded]
      exact fun request flies => absurd flies List.not_mem_nil
    · rw [grounded]
      exact List.nodup_nil
  · intro side
    cases side with
    | left => exact ⟨nofun, nofun⟩
    | right => exact ⟨nofun, nofun⟩

end Steps

/-- As long as an end draws no more ids than there are, or past that only such as have come
free, no two channels of a session get one id and no OPEN is turned away for its id. -/
theorem ids_never_collide (left right : τ) (acts : List (Side × IdEvent))
    (safe : Run.Meets step DrawsFree (created left right) acts) :
    Run.Always step Collisionless (created left right) acts := by
  apply Run.always_of_invariant step DrawsFree Sound Collisionless
  · exact fun ends act safe sound => step_sound sound act safe
  · exact fun ends sound => sound.collisionless
  · exact safe
  · exact created_sound left right

section Wrap

theorem step_length (ends : Ends (IdEnd τ)) (act : Side × IdEvent) (side : Side) :
    ((step ends act).endAt side).allocated.length ≤ (ends.endAt side).allocated.length + 1 := by
  obtain ⟨acting, event⟩ := act
  cases event with
  | openDynamic protocolId policy =>
      have longer : ((ends.endAt acting).openDynamic protocolId policy).allocated.length =
          (ends.endAt acting).allocated.length + 1 := List.length_append
      obtain ⟨own, other⟩ :=
        endAt_put ends acting ((ends.endAt acting).openDynamic protocolId policy)
      revert side
      refine either_side acting ?_ ?_
      · show ((ends.put acting _).endAt acting).allocated.length ≤ _
        rw [own, longer]
      · show ((ends.put acting _).endAt acting.other).allocated.length ≤ _
        rw [other]
        exact Nat.le_succ _
  | arrive index =>
      unfold step
      dsimp only
      split
      · exact Nat.le_succ _
      · cases acting <;> cases side <;> exact Nat.le_succ _
  | lose index => cases acting <;> cases side <;> exact Nat.le_succ _
  | other event plain => cases acting <;> cases side <;> exact Nat.le_succ _

/-- A run with no more steps than there are ids. -/
theorem meets_of_short (acts : List (Side × IdEvent)) : ∀ ends : Ends (IdEnd τ),
    (∀ side, (ends.endAt side).allocated.length + acts.length ≤ kIdsOfParity) →
    Run.Meets step DrawsFree ends acts := by
  induction acts with
  | nil => exact fun ends _ => trivial
  | cons act rest ih =>
      intro ends short
      have room : ∀ side, (ends.endAt side).allocated.length + (rest.length + 1) ≤ kIdsOfParity :=
        short
      constructor
      · obtain ⟨side, event⟩ := act
        have few := room side
        cases event with
        | openDynamic protocolId policy =>
            left
            show (ends.endAt side).allocated.length < kIdsOfParity
            omega
        | _ => trivial
      · apply ih
        intro side
        have longer := step_length ends act side
        have few := room side
        omega

def responderOpens (count : Nat) : List (Side × IdEvent) :=
  List.replicate count (.right, .openDynamic [] {})

theorem responderOpens_length (count : Nat) : ∀ ends : Ends (IdEnd τ),
    (Run.exec step ends (responderOpens count)).right.allocated.length =
      ends.right.allocated.length + count := by
  induction count with
  | zero => exact fun ends => rfl
  | succ count ih =>
      intro ends
      have drew : (step ends (.right, .openDynamic [] {})).right.allocated.length =
          ends.right.allocated.length + 1 := List.length_append
      have rest := ih (step ends (.right, .openDynamic [] {}))
      rw [drew] at rest
      exact rest.trans (by omega)

theorem exec_responderOpens (ends : Ends (IdEnd τ)) (count : Nat) :
    Run.exec step ends (responderOpens (count + 1)) =
      step (Run.exec step ends (responderOpens count)) (.right, .openDynamic [] {}) := by
  have opens : responderOpens (count + 1) =
      responderOpens count ++ [(.right, .openDynamic [] {})] := List.replicate_succ'
  rw [opens, Run.exec_append]
  rfl

/-- The responder as it has drawn so many ids, and no more than there are. -/
theorem responderOpens_sound (left right : τ) {count : Nat} (few : count ≤ kIdsOfParity) :
    Sound (Run.exec step (created left right) (responderOpens count)) := by
  apply Run.invariant step DrawsFree Sound (fun ends act safe sound => step_sound sound act safe)
  · apply meets_of_short
    intro side
    have undrawn : ((created left right).endAt side).allocated.length = 0 := by
      cases side with
      | left => rfl
      | right => rfl
    rw [undrawn, responderOpens, List.length_replicate]
    omega
  · exact created_sound left right

/-- Once it has drawn every id of its parity, the counter is at the capability channel's. -/
theorem draws_capability {ends : Ends (IdEnd τ)} (sound : Sound ends)
    (all : ends.right.allocated.length = kIdsOfParity) :
    ends.right.mux.mux.allocateId.1 = kCapabilityChannelId := by
  have stands : ends.right.mux.mux.nextDynamicId.toNat =
      (2 + 2 * ends.right.allocated.length) % 2 ^ 32 :=
    (sound.drawn .right).counted (Nat.le_of_eq all)
  have round : (2 + 2 * kIdsOfParity) % 2 ^ 32 = 0 := by
    unfold kIdsOfParity
    omega
  have zero : ends.right.mux.mux.nextDynamicId = kCapabilityChannelId := by
    apply UInt32.toNat.inj
    rw [stands, all, round]
    rfl
  have legal : ends.right.mux.mux.nextDynamicId ≠ kIllegalChannelId := by
    rw [zero]
    decide
  rw [allocateId_plain _ legal, zero]

theorem responder_wraps (left right : τ) {count : Nat} (all : count = kIdsOfParity) :
    kCapabilityChannelId ∈
      (Run.exec step (created left right) (responderOpens (count + 1))).right.allocated := by
  have sound := responderOpens_sound left right (Nat.le_of_eq all)
  have length := (responderOpens_length count (created left right)).trans (Nat.zero_add count)
  have drew := draws_capability sound (length.trans all)
  rw [exec_responderOpens]
  apply List.mem_append_right
  exact List.mem_singleton.mpr drew.symm

theorem collides_at_last (left right : τ) {count : Nat} (all : count = kIdsOfParity) :
    ¬ Run.Always step Collisionless (created left right) (responderOpens (count + 1)) := by
  intro always
  have clean := always.last.unreserved .right
  exact (clean kCapabilityChannelId (responder_wraps left right all)).1 rfl

/-- The responder's counter comes round to the capability channel. -/
theorem responder_collides :
    ¬ Run.Always step Collisionless (created () ()) (responderOpens (kIdsOfParity + 1)) :=
  collides_at_last () () rfl

end Wrap

/-- Both ends open channels, the initiator the capability channel too, and an OPEN arrives. -/
def bothOpen : List (Side × IdEvent) :=
  [(.left, .openDynamic [112] {}), (.right, .openDynamic [113] {}), (.right, .arrive 0),
    (.left, .other (.call (.openOutbound [99] {} (some kCapabilityChannelId))) rfl),
    (.left, .arrive 0)]

theorem ids_never_collide_sample : Run.Meets step DrawsFree (created () ()) bothOpen ∧
    Run.Always step Collisionless (created () ()) bothOpen := by
  have few : Run.Meets step DrawsFree (created () ()) bothOpen := by
    apply meets_of_short
    intro side
    have room : 5 ≤ kIdsOfParity := by
      unfold kIdsOfParity
      omega
    have steps : ((created () ()).endAt side).allocated.length + bothOpen.length = 5 := by
      cases side with
      | left => rfl
      | right => rfl
    exact Nat.le_trans (Nat.le_of_eq steps) room
  exact ⟨few, ids_never_collide () () bothOpen few⟩

example : (Run.exec step (created () ()) bothOpen).left.answers = [.recorded] ∧
    (Run.exec step (created () ()) bothOpen).right.answers = [.recorded] := by decide

end DynamicIds

end Amp
