import Amp.Lib.Extend
import Amp.Link.DialRecords
import Amp.Link.MultiaddrForm

set_option autoImplicit false

/- What a record takes of the addresses a peer reports of itself. -/
namespace Amp.DialBook

open Extend
open MultiaddrParser renaming parseAdpMultiaddr → parse

variable [MultiaddrParser]

/-- What the loop of `IngestRemoteAddrs` asks of an address alone. -/
def offered (peerId multiaddr : String) : Bool :=
  match parse multiaddr with
  | .error _ => false
  | .ok parsed => (parsed.peerId == "" || parsed.peerId == peerId) && isRemotelyDialable parsed.endpoint

def accepts (multiaddr : String) : Bool := (parse multiaddr).isOk

theorem mayTake_eq (peerId : String) (merged : List String) (multiaddr : String) :
    mayTake peerId merged multiaddr = (offered peerId multiaddr && !merged.contains multiaddr) := by
  unfold mayTake offered
  cases parse multiaddr <;> rfl

theorem accepts_of_offered {peerId multiaddr : String} (taken : offered peerId multiaddr = true) :
    accepts multiaddr = true := by
  unfold offered at taken
  unfold accepts
  split at taken
  · cases taken
  · rename_i parsed read
    rw [read]
    rfl

section Loops

theorem mergeAddrs_skip {peerId multiaddr : String} {merged rest : List String}
    (skip : mayTake peerId merged multiaddr = false) :
    mergeAddrs peerId merged (multiaddr :: rest) = mergeAddrs peerId merged rest := by
  rw [mergeAddrs, skip]
  rfl

theorem mergeAddrs_take {peerId multiaddr : String} {merged rest : List String}
    (taken : mayTake peerId merged multiaddr = true) :
    mergeAddrs peerId merged (multiaddr :: rest) =
      if kMaxCandidatesPerKey ≤ merged.length + 1 then merged ++ [multiaddr]
      else mergeAddrs peerId (merged ++ [multiaddr]) rest := by
  rw [mergeAddrs, taken]
  rfl

/-- The merge loop takes what is fresh, and its early end costs nothing below the cap. -/
theorem mergeAddrs_extended (peerId : String) (addrs : List String) : ∀ merged : List String,
    (mergeAddrs peerId merged addrs).take kMaxCandidatesPerKey =
      extended kMaxCandidatesPerKey merged (addrs.filter (offered peerId)) := by
  induction addrs with
  | nil =>
      intro merged
      simp [mergeAddrs, extended, fresh]
  | cons multiaddr rest ih =>
      intro merged
      by_cases fits : offered peerId multiaddr = true
      case neg =>
        have skip : mayTake peerId merged multiaddr = false := by
          rw [mayTake_eq, Bool.eq_false_of_not_eq_true fits, Bool.false_and]
        rw [mergeAddrs_skip skip, List.filter_cons_of_neg fits]
        exact ih merged
      case pos =>
        rw [List.filter_cons_of_pos fits]
        by_cases known : multiaddr ∈ merged
        · have skip : mayTake peerId merged multiaddr = false := by
            rw [mayTake_eq]
            simp [known]
          rw [mergeAddrs_skip skip, ih merged, extended_known known]
        · have taken : mayTake peerId merged multiaddr = true := by
            rw [mayTake_eq]
            simp [known, fits]
          rw [mergeAddrs_take taken, extended_new known]
          split
          · rename_i full
            have full : kMaxCandidatesPerKey ≤ (merged ++ [multiaddr]).length := by simpa using full
            rw [extended_full full]
          · exact ih (merged ++ [multiaddr])

theorem mergeAddrs_listed (peerId : String) (addrs : List String) : ∀ merged : List String,
    merged.Nodup → (∀ held ∈ merged, accepts held = true) →
      (mergeAddrs peerId merged addrs).Nodup ∧
        ∀ held ∈ mergeAddrs peerId merged addrs, accepts held = true := by
  induction addrs with
  | nil => exact fun merged distinct accepted => ⟨distinct, accepted⟩
  | cons multiaddr rest ih =>
      intro merged distinct accepted
      cases taken : mayTake peerId merged multiaddr with
      | false =>
          rw [mergeAddrs_skip taken]
          exact ih merged distinct accepted
      | true =>
          rw [mergeAddrs_take taken]
          rw [mayTake_eq, Bool.and_eq_true] at taken
          have new : multiaddr ∉ merged := by simpa using taken.2
          have longer : (merged ++ [multiaddr]).Nodup := by
            rw [← List.concat_eq_append]
            exact List.Nodup.concat new distinct
          have all : ∀ held ∈ merged ++ [multiaddr], accepts held = true := by
            intro held among
            rcases List.mem_append.mp among with before | added
            · exact accepted held before
            · rw [List.mem_singleton.mp added]
              exact accepts_of_offered taken.1
          split
          · exact ⟨longer, all⟩
          · exact ih _ longer all

/-- The loop of `RegisterEndpoints` takes what is fresh of the addresses it can parse. -/
theorem takeCandidates_extended (key : DialKey) (multiaddrs : List String) :
    ∀ record : EndpointRecord, record.candidates.length ≤ kMaxCandidatesPerKey →
      (multiaddrs.foldl (takeCandidate key) record).candidates =
        extended kMaxCandidatesPerKey record.candidates (multiaddrs.filter accepts) := by
  induction multiaddrs with
  | nil =>
      intro record room
      simp only [List.foldl_nil, List.filter_nil, extended, fresh, List.append_nil]
      exact (List.take_of_length_le room).symm
  | cons multiaddr rest ih =>
      intro record room
      rw [List.foldl_cons]
      by_cases full : kMaxCandidatesPerKey ≤ record.candidates.length
      case pos =>
        have stays : takeCandidate key record multiaddr = record := by
          unfold takeCandidate
          rw [if_pos full]
        rw [stays, ih record room, extended_full full, extended_full full]
      case neg =>
        unfold takeCandidate
        rw [if_neg full]
        cases read : parse multiaddr with
        | error message =>
            have refused : ¬ accepts multiaddr = true := by
              unfold accepts
              rw [read]
              exact Bool.false_ne_true
            rw [List.filter_cons_of_neg refused]
            exact ih record room
        | ok parsed =>
            have accepted : accepts multiaddr = true := by
              unfold accepts
              rw [read]
              rfl
            rw [List.filter_cons_of_pos accepted]
            dsimp only
            by_cases known : multiaddr ∈ record.candidates
            · rw [if_pos known, extended_known known]
              exact ih record room
            · rw [if_neg known, extended_new known]
              apply ih
              simp only [List.length_append, List.length_cons, List.length_nil]
              omega

end Loops

section Registering

def candidatesOf (book : DialBook) (key : DialKey) : List String :=
  (book.find key).elim [] EndpointRecord.candidates

theorem sync_candidates (book : DialBook) (record : EndpointRecord) (now : Int) :
    (book.syncActiveFromIndex record now).candidates = record.candidates := by
  have kept : (clampIndex record).candidates = record.candidates := by
    unfold clampIndex
    split <;> rfl
  unfold syncActiveFromIndex
  dsimp only
  split
  · rfl
  · split
    · exact kept
    · rename_i parsed _
      have fields := applyAddress_fields book (clampIndex record)
        ((clampIndex record).candidates.getD (clampIndex record).dialIndex "") parsed now
      split
      · exact fields.1.trans kept
      · exact fields.1.trans kept

omit [MultiaddrParser] in
theorem find_put (book : DialBook) (key : DialKey) (record : EndpointRecord) :
    (book.put key record).find key = some record := by
  unfold DialBook.find put
  have absent : (book.endpoints.filter fun entry => entry.1 != key).find? (fun entry => entry.1 == key) =
      none := by
    rw [List.find?_eq_none]
    intro entry held
    simpa using (List.mem_filter.mp held).2
  rw [List.find?_append, absent]
  simp

omit [MultiaddrParser] in
theorem find_put_other (book : DialBook) {key other : DialKey} (different : other ≠ key)
    (record : EndpointRecord) : (book.put key record).find other = book.find other := by
  unfold DialBook.find put
  rw [List.find?_append, List.find?_filter]
  have agree : (fun entry : DialKey × EndpointRecord =>
      decide ((entry.1 != key) = true ∧ (entry.1 == other) = true)) = fun entry => entry.1 == other := by
    funext entry
    by_cases same : entry.1 = other
    · simp [same, different]
    · simp [same]
  rw [agree]
  simp [different.symm]

theorem registerEndpoints_find_other (book : DialBook) {key other : DialKey} (different : other ≠ key)
    (multiaddrs : List String) (now : Int) :
    (book.registerEndpoints key multiaddrs now).1.find other = book.find other := by
  unfold registerEndpoints
  dsimp only
  split
  · rfl
  · split <;> exact find_put_other book different _

/-- A list of addresses that are all fit to be taken is taken, up to the cap. -/
theorem registerEndpoints_candidates (book : DialBook) (key : DialKey) {multiaddrs : List String}
    (filled : multiaddrs ≠ []) (distinct : multiaddrs.Nodup)
    (accepted : ∀ multiaddr ∈ multiaddrs, accepts multiaddr = true) (now : Int) :
    (book.registerEndpoints key multiaddrs now).1.candidatesOf key =
      multiaddrs.take kMaxCandidatesPerKey := by
  have taken : ∀ named : String,
      (multiaddrs.foldl (takeCandidate key) { peerId := named }).candidates =
        multiaddrs.take kMaxCandidatesPerKey := by
    intro named
    rw [takeCandidates_extended key multiaddrs { peerId := named } (Nat.zero_le _)]
    rw [List.filter_eq_self.mpr accepted, extended, fresh_of_nodup (by simpa using distinct)]
    rfl
  have kept : multiaddrs.take kMaxCandidatesPerKey ≠ [] := by
    obtain ⟨first, rest, rfl⟩ := List.exists_cons_of_ne_nil filled
    exact List.cons_ne_nil _ _
  unfold registerEndpoints candidatesOf
  dsimp only
  rw [taken, if_neg kept]
  have found : ∀ book' : DialBook, ∀ record : EndpointRecord,
      ((book'.put key (book.syncActiveFromIndex record now)).find key).elim []
        EndpointRecord.candidates = record.candidates := by
    intro book' record
    rw [find_put]
    exact sync_candidates book record now
  split
  · exact found book _
  · exact found book _

end Registering

section Ingesting

/-- The key `IngestRemoteAddrs` merges into. -/
def targetKey (book : DialBook) (peerId : String) : DialKey :=
  ((book.records.find? fun entry => entry.2.peerId == peerId).map Prod.fst).getD peerId

/-- The record under this key is the peer's. -/
def HeldBy (book : DialBook) (peerId : String) (key : DialKey) : Prop :=
  ∃ record, book.find key = some record ∧ record.peerId = peerId

omit [MultiaddrParser] in
theorem targetKey_none (book : DialBook) (peerId : String)
    (absent : ∀ entry ∈ book.endpoints, entry.2.peerId ≠ peerId) : book.targetKey peerId = peerId := by
  unfold targetKey
  have missing : (book.records.find? fun entry => entry.2.peerId == peerId) = none := by
    rw [List.find?_eq_none]
    intro entry listed
    simpa using absent entry ((book.order.perm book.endpoints).mem_iff.mp listed)
  rw [missing]
  rfl

/-- Where the peer has one record, the addresses go to it. -/
theorem targetKey_held {book : DialBook} (standing : book.Standing) {peerId : String} {key : DialKey}
    (alone : ∀ other, book.HeldBy peerId other → other = key) (held : book.HeldBy peerId key) :
    book.targetKey peerId = key := by
  unfold targetKey
  cases found : book.records.find? fun entry => entry.2.peerId == peerId with
  | some entry =>
      have named : entry.2.peerId = peerId := by simpa using List.find?_some found
      have listed := (book.order.perm book.endpoints).mem_iff.mp (List.mem_of_find?_eq_some found)
      exact alone entry.1 ⟨entry.2, standing.find_of_mem listed, named⟩
  | none =>
      obtain ⟨record, here, named⟩ := held
      have listed := (book.order.perm book.endpoints).mem_iff.mpr (mem_of_find here)
      exact absurd (beq_iff_eq.mpr named) (List.find?_eq_none.mp found _ listed)

/-- What the record has after the addresses came in. -/
theorem ingest_candidates {book : DialBook} (standing : book.Standing) {peerId : String}
    (named : peerId ≠ "") {key : DialKey} (target : book.targetKey peerId = key)
    (addrs : List String) (now : Int) :
    (book.ingestRemoteAddrs peerId addrs now).candidatesOf key =
      extended kMaxCandidatesPerKey (book.candidatesOf key) (addrs.filter (offered peerId)) := by
  unfold targetKey at target
  have known : (book.candidatesOf key).Nodup ∧ ∀ held ∈ book.candidatesOf key, accepts held = true := by
    unfold candidatesOf
    cases found : book.find key with
    | none => exact ⟨List.nodup_nil, fun _ among => absurd among List.not_mem_nil⟩
    | some record =>
        have listed := (standing.find found).listed
        refine ⟨listed.distinct, fun held among => ?_⟩
        obtain ⟨parsed, read⟩ := listed.accepted held among
        unfold accepts
        rw [read]
        rfl
  have merged := mergeAddrs_extended peerId addrs (book.candidatesOf key)
  have listed := mergeAddrs_listed peerId addrs (book.candidatesOf key) known.1 known.2
  rw [← merged]
  unfold ingestRemoteAddrs
  rw [if_neg named]
  dsimp only
  rw [target]
  show DialBook.candidatesOf (if mergeAddrs peerId (book.candidatesOf key) addrs = [] then book
    else (book.registerEndpoints key (mergeAddrs peerId (book.candidatesOf key) addrs) now).1) key = _
  split
  · rename_i nothing
    rw [nothing] at merged ⊢
    simp only [extended, List.take_nil, List.nil_eq, List.take_eq_nil_iff, List.append_eq_nil_iff] at merged
    exact (merged.resolve_left (by decide)).1
  · rename_i filled
    exact registerEndpoints_candidates book key filled listed.1 listed.2 now

theorem ingest_find_other {book : DialBook} {peerId : String} {key other : DialKey}
    (target : book.targetKey peerId = key) (different : other ≠ key) (addrs : List String) (now : Int) :
    (book.ingestRemoteAddrs peerId addrs now).find other = book.find other := by
  unfold targetKey at target
  unfold ingestRemoteAddrs
  dsimp only
  rw [target]
  split
  · rfl
  · split
    · rfl
    · exact registerEndpoints_find_other book different _ now

end Ingesting

/-- The address names a host, not an address of one. -/
def namesHost (multiaddr : String) : Bool :=
  match parse multiaddr with
  | .error _ => false
  | .ok parsed => parsed.hostname != ""

/-- An address of the peer that can be reached from elsewhere: a hostname, or a literal that is
neither link-local, loopback nor unspecified. -/
def admissible (peerId multiaddr : String) : Bool :=
  match parse multiaddr with
  | .error _ => false
  | .ok parsed => parsed.peerId == peerId && (parsed.hostname != "" || isRemotelyDialable parsed.endpoint)

/-- The record under this key gains exactly the admissible addresses, as many as there is room for,
and no other record changes. -/
structure Gains (before after : DialBook) (peerId : String) (key : DialKey) (addrs : List String) :
    Prop where
  candidates : after.candidatesOf key =
    extended kMaxCandidatesPerKey (before.candidatesOf key) (addrs.filter (admissible peerId))
  others : ∀ other, other ≠ key → after.candidatesOf other = before.candidatesOf other
  named : ∀ candidate ∈ after.candidatesOf key, candidate ∉ before.candidatesOf key →
    ∃ parsed, parse candidate = .ok parsed ∧ parsed.peerId = peerId

/-- The peer's record gains the admissible addresses. A peer that has none gets one, under a key that
was free, when there is an address to take. -/
structure TakesAdmissible (before after : DialBook) (peerId : String) (addrs : List String) : Prop where
  known : ∀ key, before.HeldBy peerId key → Gains before after peerId key addrs
  unknown : (∀ key, ¬ before.HeldBy peerId key) →
    (addrs.filter (admissible peerId) = [] ∧ ∀ key, after.candidatesOf key = before.candidatesOf key) ∨
      ∃ key, before.find key = none ∧ Gains before after peerId key addrs

/-- None of the new addresses that the record has room for is a hostname. -/
def NoHostInRoom (before : DialBook) (peerId : String) (key : DialKey) (addrs : List String) : Prop :=
  ∀ multiaddr ∈ (fresh (before.candidatesOf key) (addrs.filter (admissible peerId))).take
    (kMaxCandidatesPerKey - (before.candidatesOf key).length), namesHost multiaddr = false

/-- No hostname is to be taken in, and nothing at all where another peer's record stands under the
peer's own name. -/
structure TakesNoHost (before : DialBook) (peerId : String) (addrs : List String) : Prop where
  known : ∀ key, before.HeldBy peerId key → NoHostInRoom before peerId key addrs
  unknown : (∀ key, ¬ before.HeldBy peerId key) →
    if before.contains peerId then addrs.filter (admissible peerId) = []
    else NoHostInRoom before peerId peerId addrs

end Amp.DialBook

namespace Amp.DialBook

open Extend

section Reported

variable [Inet]

/-- A hostname's endpoint is a placeholder, which passes for an unspecified address. -/
theorem offered_eq (peerId multiaddr : String) :
    offered peerId multiaddr = (!namesHost multiaddr && admissible peerId multiaddr) := by
  unfold offered namesHost admissible
  cases read : MultiaddrParser.parseAdpMultiaddr multiaddr with
  | error message => rfl
  | ok parsed =>
      obtain ⟨named, placeholder⟩ := parseAdpMultiaddr_fields read
      by_cases literal : parsed.hostname = ""
      · have someone : (parsed.peerId == "") = false := beq_eq_false_iff_ne.mpr named
        simp [literal, someone]
      · have unspecified : isRemotelyDialable parsed.endpoint = false := by
          rw [placeholder literal]
          rfl
        simp [literal, unspecified]

theorem filter_offered (peerId : String) (addrs : List String) : addrs.filter (offered peerId) =
    (addrs.filter (admissible peerId)).filter fun multiaddr => !namesHost multiaddr := by
  rw [List.filter_filter]
  apply List.filter_congr
  exact fun multiaddr _ => offered_eq peerId multiaddr

/-- The record that the addresses go to gains the admissible ones just where no hostname is among
those it has room for. -/
theorem gains_iff {book : DialBook} (standing : book.Standing) {peerId : String} (named : peerId ≠ "")
    {key : DialKey} (target : book.targetKey peerId = key) (addrs : List String) (now : Int) :
    Gains book (book.ingestRemoteAddrs peerId addrs now) peerId key addrs ↔
      NoHostInRoom book peerId key addrs := by
  have after := ingest_candidates standing named target addrs now
  rw [filter_offered] at after
  have same_iff := extended_filter_iff (fun multiaddr => !namesHost multiaddr) kMaxCandidatesPerKey
    (book.candidatesOf key) (addrs.filter (admissible peerId))
  rw [← after] at same_iff
  simp only [Bool.not_eq_true'] at same_iff
  constructor
  · exact fun takes => same_iff.mp takes.candidates
  · intro room
    refine ⟨same_iff.mpr room, ?_, ?_⟩
    · intro other different
      unfold candidatesOf
      rw [ingest_find_other target different]
    · intro candidate among new
      rw [same_iff.mpr room] at among
      rcases List.mem_append.mp (List.mem_of_mem_take among) with before | added
      · exact absurd before new
      · have fits := (List.mem_filter.mp (mem_fresh.mp added).1).2
        unfold admissible at fits
        split at fits
        · cases fits
        · rename_i parsed read
          rw [Bool.and_eq_true] at fits
          exact ⟨parsed, read, beq_iff_eq.mp fits.1⟩

/-- With nothing to take the candidates of every record stay. -/
theorem ingest_nothing {book : DialBook} (standing : book.Standing) {peerId : String}
    (named : peerId ≠ "") {addrs : List String} (nothing : addrs.filter (admissible peerId) = [])
    (now : Int) (key : DialKey) :
    (book.ingestRemoteAddrs peerId addrs now).candidatesOf key = book.candidatesOf key := by
  by_cases same : key = book.targetKey peerId
  · have after := ingest_candidates standing named same.symm addrs now
    rw [filter_offered, nothing, List.filter_nil] at after
    have room : (book.candidatesOf key).length ≤ kMaxCandidatesPerKey := by
      unfold candidatesOf
      cases found : book.find key with
      | none => exact Nat.zero_le _
      | some record => exact (standing.find found).listed.capped
    simp only [after, extended, fresh, List.append_nil]
    exact List.take_of_length_le room
  · unfold candidatesOf
    rw [ingest_find_other rfl same]

theorem unknown_takes_iff {book : DialBook} (standing : book.Standing) {peerId : String}
    (named : peerId ≠ "") (absent : ∀ key, ¬ book.HeldBy peerId key) (addrs : List String) (now : Int) :
    ((addrs.filter (admissible peerId) = [] ∧ ∀ key,
        (book.ingestRemoteAddrs peerId addrs now).candidatesOf key = book.candidatesOf key) ∨
      ∃ key, book.find key = none ∧ Gains book (book.ingestRemoteAddrs peerId addrs now) peerId key addrs) ↔
    if book.contains peerId then addrs.filter (admissible peerId) = []
    else NoHostInRoom book peerId peerId addrs := by
  have target := targetKey_none book peerId fun entry held same =>
    absent entry.1 ⟨entry.2, standing.find_of_mem held, same⟩
  -- a key that the call does not touch gains the admissible addresses only when there are none
  have elsewhere : ∀ key, key ≠ peerId → book.find key = none →
      Gains book (book.ingestRemoteAddrs peerId addrs now) peerId key addrs →
      addrs.filter (admissible peerId) = [] := by
    intro key different free gains
    have stays : (book.ingestRemoteAddrs peerId addrs now).candidatesOf key = [] := by
      unfold candidatesOf
      rw [ingest_find_other target different, free]
      rfl
    have none_held : book.candidatesOf key = [] := by
      unfold candidatesOf
      rw [free]
      rfl
    have taken := gains.candidates
    rw [stays, none_held, extended, List.nil_append] at taken
    rcases List.take_eq_nil_iff.mp taken.symm with none_fit | empty
    · exact absurd none_fit (by decide)
    · by_contra filled
      obtain ⟨first, listed⟩ := List.exists_mem_of_ne_nil _ filled
      have new := mem_fresh.mpr ⟨listed, List.not_mem_nil⟩
      rw [empty] at new
      exact absurd new List.not_mem_nil
  have nothing_in_room : addrs.filter (admissible peerId) = [] → NoHostInRoom book peerId peerId addrs := by
    intro nothing multiaddr listed
    rw [nothing] at listed
    exact absurd (List.mem_of_mem_take listed) List.not_mem_nil
  cases occupied : book.contains peerId with
  | true =>
      rw [if_pos rfl]
      constructor
      · rintro (⟨nothing, _⟩ | ⟨key, free, gains⟩)
        · exact nothing
        · apply elsewhere key _ free gains
          rintro rfl
          rw [contains, free] at occupied
          cases occupied
      · exact fun nothing => Or.inl ⟨nothing, ingest_nothing standing named nothing now⟩
  | false =>
      rw [if_neg Bool.false_ne_true]
      constructor
      · rintro (⟨nothing, _⟩ | ⟨key, free, gains⟩)
        · exact nothing_in_room nothing
        · by_cases same : key = peerId
          · subst same
            exact (gains_iff standing named target addrs now).mp gains
          · exact nothing_in_room (elsewhere key same free gains)
      · intro room
        have free : book.find peerId = none := by
          rw [contains, Option.isSome_eq_false_iff, Option.isNone_iff_eq_none] at occupied
          exact occupied
        exact Or.inr ⟨peerId, free, (gains_iff standing named target addrs now).mpr room⟩

/-- Exactly the admissible addresses are taken in exactly where no hostname is among those the
record has room for and no other peer's record stands in the way. -/
theorem ingest_takes_iff (start : DialBook) (empty : start.endpoints = [])
    (events : List (Call × Int)) (met : Run.Meets step Apt start events) (peerId : String)
    (named : peerId ≠ "")
    (alone : ∀ key other, (Run.exec step start events).HeldBy peerId key →
      (Run.exec step start events).HeldBy peerId other → other = key)
    (addrs : List String) (now : Int) :
    TakesAdmissible (Run.exec step start events)
        ((Run.exec step start events).ingestRemoteAddrs peerId addrs now) peerId addrs ↔
      TakesNoHost (Run.exec step start events) peerId addrs := by
  have standing := (always_standing start events empty met).last
  generalize Run.exec step start events = book at standing alone ⊢
  have known_iff : ∀ key, book.HeldBy peerId key →
      (Gains book (book.ingestRemoteAddrs peerId addrs now) peerId key addrs ↔
        NoHostInRoom book peerId key addrs) := fun key held =>
    gains_iff standing named
      (targetKey_held standing (fun other twin => alone key other held twin) held) addrs now
  constructor
  · intro takes
    exact ⟨fun key held => (known_iff key held).mp (takes.known key held), fun absent =>
      (unknown_takes_iff standing named absent addrs now).mp (takes.unknown absent)⟩
  · intro room
    exact ⟨fun key held => (known_iff key held).mpr (room.known key held), fun absent =>
      (unknown_takes_iff standing named absent addrs now).mpr (room.unknown absent)⟩

end Reported

section Sample

attribute [local instance] sampleInet

instance (before : DialBook) (peerId : String) (key : DialKey) (addrs : List String) :
    Decidable (NoHostInRoom before peerId key addrs) :=
  inferInstanceAs (Decidable (∀ multiaddr ∈ _, _ = _))

/-- A peer known under a name of ours. -/
def knownPeer : List (Call × Int) :=
  [(.registerEndpoint "relay" "/ip4/198.51.100.7/udp/4001/adp/2/p2p/12D3relay", 0)]

/-- The peer's loopback address, another peer's address and one that may be dialed. -/
def reportedAddrs : List String :=
  ["/ip4/127.0.0.1/udp/4001/adp/2/p2p/12D3relay", "/ip4/198.51.100.8/udp/4001/adp/2/p2p/12D3other",
    "/ip4/198.51.100.9/udp/4001/adp/2/p2p/12D3relay"]

/-- Which keys hold the peer's record, read off the book's records. -/
def heldKeys (book : DialBook) (peerId : String) : List DialKey :=
  (book.endpoints.filter fun entry => entry.2.peerId == peerId).map Prod.fst

theorem HeldBy.mem_heldKeys {book : DialBook} {peerId : String} {key : DialKey}
    (held : book.HeldBy peerId key) : key ∈ book.heldKeys peerId := by
  obtain ⟨record, found, named⟩ := held
  exact List.mem_map.mpr ⟨(key, record), List.mem_filter.mpr ⟨mem_of_find found, by simpa using named⟩, rfl⟩

theorem knownPeer_alone {key : DialKey} (held : (Run.exec step {} knownPeer).HeldBy "12D3relay" key) :
    key = "relay" := by
  have listed := held.mem_heldKeys
  rw [show (Run.exec step {} knownPeer).heldKeys "12D3relay" = ["relay"] by decide +kernel] at listed
  exact List.mem_singleton.mp listed

theorem ingest_takes_sample : TakesAdmissible (Run.exec step {} knownPeer)
    ((Run.exec step {} knownPeer).ingestRemoteAddrs "12D3relay" reportedAddrs 5) "12D3relay"
    reportedAddrs := by
  apply (ingest_takes_iff {} rfl knownPeer ⟨trivial, trivial⟩ "12D3relay" (by decide)
    (fun key other held twin => (knownPeer_alone twin).trans (knownPeer_alone held).symm)
    reportedAddrs 5).mpr
  constructor
  · intro key held
    rw [knownPeer_alone held]
    decide +kernel
  · intro absent
    have named : ((Run.exec step {} knownPeer).find "relay").map EndpointRecord.peerId =
        some "12D3relay" := by decide +kernel
    obtain ⟨record, found, same⟩ := Option.map_eq_some_iff.mp named
    exact absurd ⟨record, found, same⟩ (absent "relay")

/-- Another peer registered under the peer's id. -/
def strangerUnderName : List (Call × Int) :=
  [(.registerEndpoint "12D3relay" "/ip4/198.51.100.8/udp/4001/adp/2/p2p/12D3other", 0)]

/-- A relay that says it is reached by name is not taken at its word, and the addresses of a peer
whose id is the key of another's record go to that record. -/
theorem hostname_dropped :
    ¬ TakesAdmissible {} (ingestRemoteAddrs {} "12D3relay"
      ["/dns4/relay.example/udp/4001/adp/2/p2p/12D3relay"] 5) "12D3relay"
      ["/dns4/relay.example/udp/4001/adp/2/p2p/12D3relay"] ∧
    ¬ TakesAdmissible (Run.exec step {} strangerUnderName)
      ((Run.exec step {} strangerUnderName).ingestRemoteAddrs "12D3relay" reportedAddrs 5) "12D3relay"
      reportedAddrs := by
  constructor
  · intro takes
    have absent : ∀ key, ¬ HeldBy {} "12D3relay" key := by
      rintro key ⟨record, found, _⟩
      exact absurd (mem_of_find found) List.not_mem_nil
    rcases takes.unknown absent with ⟨nothing, _⟩ | ⟨key, _, gains⟩
    · exact absurd nothing (by decide +kernel)
    · have untouched : (ingestRemoteAddrs {} "12D3relay"
          ["/dns4/relay.example/udp/4001/adp/2/p2p/12D3relay"] 5).endpoints.length = 0 := by
        decide +kernel
      have taken := gains.candidates
      unfold candidatesOf DialBook.find at taken
      rw [List.eq_nil_of_length_eq_zero untouched] at taken
      simp only [List.find?_nil, Option.map_none, Option.elim_none] at taken
      exact absurd taken (by decide +kernel)
  · intro takes
    have absent : ∀ key, ¬ (Run.exec step {} strangerUnderName).HeldBy "12D3relay" key := by
      intro key held
      have listed := held.mem_heldKeys
      rw [show (Run.exec step {} strangerUnderName).heldKeys "12D3relay" = [] by decide +kernel] at listed
      exact absurd listed List.not_mem_nil
    rcases takes.unknown absent with ⟨nothing, _⟩ | ⟨key, free, gains⟩
    · exact absurd nothing (by decide +kernel)
    · have different : key ≠ "12D3relay" := by
        rintro rfl
        exact absurd free (by decide +kernel)
      have changed := gains.others "12D3relay" different.symm
      exact absurd changed (by decide +kernel)

end Sample

end Amp.DialBook
