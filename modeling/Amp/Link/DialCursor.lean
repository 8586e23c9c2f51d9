import Amp.Lib.Cursor
import Amp.Link.DialAttempt

set_option autoImplicit false

/- Where a key's record stands among its candidates, and what the calls of the book do to that. -/
namespace Amp.DialBook

open Adp (IpEndpoint)
open MultiaddrParser renaming parseAdpMultiaddr → parse

variable [MultiaddrParser]

/-- The record goes through its candidates with this cursor. -/
structure Reads (record : EndpointRecord) (cursor : Cursor String) : Prop where
  listed : Listed record.candidates
  items : record.candidates = cursor.items
  index : record.dialIndex = cursor.index
  current : record.multiaddr = cursor.current

/-- The key has a record, and it stands there. -/
def At (book : DialBook) (key : DialKey) (cursor : Cursor String) : Prop :=
  ∃ record, book.find key = some record ∧ Reads record cursor

section Finding

omit [MultiaddrParser]

theorem find_modify (book : DialBook) (key : DialKey) (change : EndpointRecord → EndpointRecord) :
    (book.modify key change).find key = (book.find key).map change := by
  unfold DialBook.find modify
  rw [List.find?_map]
  have same : ((fun entry : DialKey × EndpointRecord => entry.1 == key) ∘
      fun entry => if entry.1 = key then (key, change entry.2) else entry) =
        fun entry => entry.1 == key := by
    funext entry
    by_cases named : entry.1 = key
    · simp [named]
    · simp [named]
  rw [same]
  cases found : book.endpoints.find? fun entry => entry.1 == key with
  | none => rfl
  | some entry =>
      have named : entry.1 = key := by simpa using List.find?_some found
      simp [named]

theorem find_modify_other (book : DialBook) {key other : DialKey} (different : key ≠ other)
    (change : EndpointRecord → EndpointRecord) :
    (book.modify key change).find other = book.find other := by
  unfold DialBook.find modify
  rw [List.find?_map]
  have same : ((fun entry : DialKey × EndpointRecord => entry.1 == other) ∘
      fun entry => if entry.1 = key then (key, change entry.2) else entry) =
        fun entry => entry.1 == other := by
    funext entry
    by_cases named : entry.1 = key
    · simp [named]
    · simp [named]
  rw [same]
  cases found : book.endpoints.find? fun entry => entry.1 == other with
  | none => rfl
  | some entry =>
      have named : entry.1 = other := by simpa using List.find?_some found
      have apart : entry.1 ≠ key := named ▸ different.symm
      simp [apart]

theorem find_unregister_other (book : DialBook) {key other : DialKey} (different : key ≠ other) :
    (book.unregisterEndpoint key).find other = book.find other := by
  unfold DialBook.find unregisterEndpoint
  rw [List.find?_filter]
  have same : (fun entry : DialKey × EndpointRecord =>
      decide ((entry.1 != key) = true ∧ (entry.1 == other) = true)) =
        fun entry => entry.1 == other := by
    funext entry
    by_cases named : entry.1 = other
    · simp [named, different.symm]
    · simp [named]
  rw [same]

theorem find_setResolution (book : DialBook) (multiaddr : String) (endpoint : IpEndpoint) (now : Int)
    (key : DialKey) : (book.setResolution multiaddr endpoint now).find key =
      (book.find key).map fun record => if record.multiaddr = multiaddr then
        { record with endpoint := endpoint, resolved := true } else record := by
  unfold DialBook.find setResolution
  rw [List.find?_map]
  have same : ((fun entry : DialKey × EndpointRecord => entry.1 == key) ∘
      fun entry => if entry.2.multiaddr = multiaddr then
        (entry.1, { entry.2 with endpoint := endpoint, resolved := true }) else entry) =
        fun entry => entry.1 == key := by
    funext entry
    by_cases named : entry.2.multiaddr = multiaddr
    · simp [named]
    · simp [named]
  rw [same]
  cases found : book.endpoints.find? fun entry => entry.1 == key with
  | none => rfl
  | some entry =>
      by_cases named : entry.2.multiaddr = multiaddr
      · simp [named]
      · simp [named]

theorem find_forgetResolution_other (book : DialBook) {key other : DialKey} (different : key ≠ other) :
    (book.forgetResolution key).find other = book.find other := by
  unfold forgetResolution
  split
  · rfl
  · split
    · rfl
    · exact find_modify_other _ different _

end Finding

section Placing

/-- `SyncActiveFromIndex` puts the record where its index says. -/
theorem sync_reads (book : DialBook) {record : EndpointRecord} {cursor : Cursor String}
    (listed : Listed record.candidates) (items : record.candidates = cursor.items)
    (index : record.dialIndex = cursor.index) (now : Int) :
    Reads (book.syncActiveFromIndex record now) cursor := by
  have inside : record.dialIndex < record.candidates.length := by
    rw [items, index]
    exact cursor.inside
  have active : record.candidates.getD record.dialIndex "" = cursor.current := by
    rw [items, index, List.getD_eq_getElem?_getD, cursor.getElem?_index]
    rfl
  have stays : clampIndex record = record := if_pos inside
  obtain ⟨parsed, read⟩ := listed.accepted cursor.current (items ▸ cursor.current_mem)
  obtain ⟨candidates, dialIndex, address, -⟩ :=
    applyAddress_fields book record cursor.current parsed now
  unfold syncActiveFromIndex
  rw [if_neg listed.filled]
  dsimp only
  rw [stays, active, read]
  dsimp only
  have applied : Reads (book.applyAddress record cursor.current parsed now) cursor :=
    ⟨candidates ▸ listed, candidates.trans items, dialIndex.trans index, address⟩
  split
  · exact applied
  · exact ⟨applied.listed, applied.items, applied.index, applied.current⟩

omit [MultiaddrParser] in
/-- A list of candidates that is gone through from its start. -/
theorem exists_start {candidates : List String} (filled : candidates ≠ []) :
    ∃ cursor : Cursor String, cursor.items = candidates ∧ cursor.index = 0 ∧
      candidates.head? = some cursor.current := by
  obtain ⟨first, rest, rfl⟩ := List.exists_cons_of_ne_nil filled
  exact ⟨⟨first :: rest, 0, Nat.zero_lt_succ _⟩, rfl, rfl, rfl⟩

variable {book : DialBook} {key : DialKey} {cursor : Cursor String}

theorem At.candidates (here : book.At key cursor) : book.candidatesOf key = cursor.items := by
  obtain ⟨record, found, reads⟩ := here
  unfold candidatesOf
  rw [found]
  exact reads.items

theorem At.modify (here : book.At key cursor) {change : EndpointRecord → EndpointRecord}
    {after : Cursor String} (moves : ∀ record, Reads record cursor → Reads (change record) after) :
    (book.modify key change).At key after := by
  obtain ⟨record, found, reads⟩ := here
  exact ⟨change record, by rw [find_modify, found]; rfl, moves record reads⟩

theorem At.resetDialIndex (here : book.At key cursor) (now : Int) :
    (book.resetDialIndex key now).At key cursor.rewind := by
  apply here.modify
  intro record reads
  have listed : Listed { record with dialIndex := 0 }.candidates := reads.listed
  apply sync_reads book listed
  · exact reads.items
  · rfl

/-- There is a next candidate exactly where the cursor has one. -/
theorem canAdvance_iff {record : EndpointRecord} (reads : Reads record cursor) :
    canAdvance record = true ↔ cursor.next? ≠ none := by
  unfold canAdvance Cursor.next?
  rw [reads.items, reads.index, decide_eq_true_eq]
  constructor
  · rintro ⟨-, more⟩
    rw [dif_pos more]
    exact Option.some_ne_none _
  · intro some
    by_cases more : cursor.index + 1 < cursor.items.length
    · exact ⟨by omega, more⟩
    · rw [dif_neg more] at some
      exact absurd rfl some

theorem At.advance (here : book.At key cursor) {next : Cursor String}
    (more : cursor.next? = some next) (now : Int) :
    ∃ after, book.advanceDialCandidate key now = (after, true) ∧ after.At key next := by
  obtain ⟨record, found, reads⟩ := here
  have can : canAdvance record = true := (canAdvance_iff reads).mpr (by simp [more])
  obtain ⟨items, index⟩ := Cursor.next?_some more
  unfold advanceDialCandidate
  rw [found]
  dsimp only
  rw [if_pos can]
  refine ⟨_, rfl, At.modify ⟨record, found, reads⟩ ?_⟩
  intro record reads
  have listed : Listed { record with dialIndex := record.dialIndex + 1 }.candidates := reads.listed
  apply sync_reads book listed
  · exact reads.items.trans items.symm
  · show record.dialIndex + 1 = next.index
    rw [reads.index, index]

theorem At.last (here : book.At key cursor) (last : cursor.next? = none) (now : Int) :
    book.advanceDialCandidate key now = (book, false) := by
  obtain ⟨record, found, reads⟩ := here
  have cannot : ¬ canAdvance record = true := fun can => (canAdvance_iff reads).mp can last
  unfold advanceDialCandidate
  rw [found]
  dsimp only
  rw [if_neg cannot]

theorem At.setResolution (here : book.At key cursor) (multiaddr : String) (endpoint : IpEndpoint)
    (now : Int) : (book.setResolution multiaddr endpoint now).At key cursor := by
  obtain ⟨record, found, reads⟩ := here
  refine ⟨_, by rw [find_setResolution, found]; rfl, ?_⟩
  dsimp only
  split
  · exact ⟨reads.listed, reads.items, reads.index, reads.current⟩
  · exact reads

theorem At.forgetResolution (here : book.At key cursor) : (book.forgetResolution key).At key cursor := by
  unfold DialBook.forgetResolution
  obtain ⟨record, found, reads⟩ := here
  rw [found]
  dsimp only
  split
  · exact ⟨record, found, reads⟩
  · rename_i host
    have cleared : DialBook.At { book with
        resolutions := Function.update book.resolutions record.multiaddr none } key cursor :=
      ⟨record, found, reads⟩
    apply cleared.modify
    exact fun record reads => ⟨reads.listed, reads.items, reads.index, reads.current⟩

/-- Candidates to be gone through from their start. -/
theorem sync_start (book : DialBook) {record : EndpointRecord} (listed : Listed record.candidates)
    (start : record.dialIndex = 0) (now : Int) : ∃ cursor : Cursor String,
    Reads (book.syncActiveFromIndex record now) cursor ∧ cursor.index = 0 ∧
      record.candidates.head? = some cursor.current := by
  obtain ⟨cursor, items, index, head⟩ := exists_start listed.filled
  exact ⟨cursor, sync_reads book listed items.symm (start.trans index.symm) now, index, head⟩

/-- `PromoteDialWinner` of the active candidate puts it first and starts from there. -/
theorem At.promote (here : book.At key cursor) (named : cursor.current ≠ "") (now : Int) :
    ∃ after : Cursor String, (book.promoteDialWinner key cursor.current now).At key after ∧
      after.items.head? = some cursor.current := by
  obtain ⟨record, found, reads⟩ := here
  obtain ⟨parsed, read⟩ := reads.listed.accepted cursor.current (reads.items ▸ cursor.current_mem)
  have listed : Listed { record with
      candidates := insertCandidateFront record.candidates cursor.current
      dialIndex := 0 }.candidates := listed_front read reads.listed.distinct reads.listed.accepted
  obtain ⟨after, placed, -, head⟩ := sync_start book listed rfl now
  unfold promoteDialWinner
  rw [if_neg named]
  refine ⟨after, ⟨_, by rw [find_modify, found]; rfl, placed⟩, ?_⟩
  rw [← placed.items, sync_candidates]
  rfl

end Placing

section Registering

/-- The key has no record, or one that stands somewhere among its candidates. -/
def Placed (book : DialBook) (key : DialKey) : Prop :=
  book.find key = none ∨ ∃ cursor, book.At key cursor

/-- A call left the key's record as it was, or starts it again with this candidate. -/
def Recast (before after : DialBook) (key : DialKey) (first : Option String) : Prop :=
  (first = none ∧ after.find key = before.find key) ∨
    ∃ cursor, first = some cursor.current ∧ after.At key cursor ∧ cursor.index = 0

variable {book : DialBook} {key : DialKey}

/-- The record is put under its key; whether the backoff goes with the old one or not. -/
theorem at_put {kept : Prop} [Decidable kept] {record : EndpointRecord} {cursor : Cursor String}
    (reads : Reads record cursor) :
    DialBook.At (if kept then book.put key record else (book.put key record).clearBackoff key) key
      cursor := by
  split
  · exact ⟨record, find_put book key record, reads⟩
  · exact ⟨record, find_put book key record, reads⟩

theorem Placed.listed (placed : book.Placed key) : (book.candidatesOf key).Nodup ∧
    ∀ candidate ∈ book.candidatesOf key, ∃ parsed, parse candidate = .ok parsed := by
  unfold candidatesOf
  rcases placed with missing | ⟨cursor, record, found, reads⟩
  · rw [missing]
    exact ⟨List.nodup_nil, fun _ among => absurd among List.not_mem_nil⟩
  · rw [found]
    exact ⟨reads.listed.distinct, reads.listed.accepted⟩

theorem registerEndpoint_recast (placed : book.Placed key) (multiaddr : String) (now : Int) :
    Recast book (book.registerEndpoint key multiaddr now).1 key
      (if accepts multiaddr then some multiaddr else none) := by
  unfold registerEndpoint accepts
  cases read : parse multiaddr with
  | error message => exact .inl ⟨rfl, rfl⟩
  | ok parsed =>
      right
      have starts : ∀ (record : EndpointRecord) (candidates : List String) (kept : Prop)
          [Decidable kept], candidates = book.candidatesOf key →
          record.candidates = insertCandidateFront candidates multiaddr → record.dialIndex = 0 →
          ∃ cursor : Cursor String, some multiaddr = some cursor.current ∧
            DialBook.At (if kept then book.put key (book.syncActiveFromIndex record now) else
              (book.put key (book.syncActiveFromIndex record now)).clearBackoff key) key cursor ∧
            cursor.index = 0 := by
        intro record candidates kept _ known front start
        have listed : Listed record.candidates := by
          rw [front, known]
          exact listed_front read placed.listed.1 placed.listed.2
        obtain ⟨cursor, reads, index, head⟩ := sync_start book listed start now
        rw [front] at head
        exact ⟨cursor, head, at_put reads, index⟩
      have known : (book.find key).elim [] EndpointRecord.candidates = book.candidatesOf key := rfl
      cases found : book.find key with
      | none =>
          rw [found] at known
          exact starts _ _ _ known rfl rfl
      | some existing =>
          rw [found] at known
          apply starts _ _ _ known
          · dsimp only
            split <;> rfl
          · rfl

theorem registerEndpoints_recast (key : DialKey) (multiaddrs : List String) (now : Int) :
    Recast book (book.registerEndpoints key multiaddrs now).1 key (multiaddrs.find? accepts) := by
  have gathering := gathered_listed key multiaddrs
    { peerId := (((book.find key).map EndpointRecord.peerId).filter (· != "")).getD key }
    ⟨Nat.zero_le _, List.nodup_nil, fun _ among => absurd among List.not_mem_nil⟩
  have taken := takeCandidates_extended key multiaddrs
    { peerId := (((book.find key).map EndpointRecord.peerId).filter (· != "")).getD key }
    (Nat.zero_le _)
  have head : (Extend.extended kMaxCandidatesPerKey [] (multiaddrs.filter accepts)).head? =
      multiaddrs.find? accepts := by
    rw [Extend.head?_extended (by decide), List.head?_filter]
  unfold registerEndpoints
  dsimp only at taken ⊢
  generalize multiaddrs.foldl (takeCandidate key) _ = record at taken gathering ⊢
  rw [← taken] at head
  split
  · rename_i none
    rw [none] at head
    exact .inl ⟨head.symm, rfl⟩
  · rename_i filled
    right
    have listed : Listed { record with dialIndex := 0 }.candidates :=
      ⟨filled, gathering.capped, gathering.distinct, gathering.accepted⟩
    obtain ⟨cursor, reads, index, first⟩ := sync_start book listed rfl now
    exact ⟨cursor, head.symm.trans first, at_put reads, index⟩

theorem ingest_recast (placed : book.Placed key) (peerId : String) (addrs : List String) (now : Int) :
    Recast book (book.ingestRemoteAddrs peerId addrs now) key
      (if peerId ≠ "" ∧ book.targetKey peerId = key then
        (mergeAddrs peerId (book.candidatesOf key) addrs).head?
      else none) := by
  by_cases named : peerId = ""
  case pos =>
    have nothing : ¬ (peerId ≠ "" ∧ book.targetKey peerId = key) := fun both => both.1 named
    rw [if_neg nothing]
    unfold ingestRemoteAddrs
    rw [if_pos named]
    exact .inl ⟨rfl, rfl⟩
  case neg =>
    by_cases target : book.targetKey peerId = key
    case pos =>
      rw [if_pos ⟨named, target⟩]
      have accepted : ∀ held ∈ book.candidatesOf key, accepts held = true := by
        intro held among
        obtain ⟨parsed, read⟩ := placed.listed.2 held among
        unfold accepts
        rw [read]
        rfl
      have fit := (mergeAddrs_listed peerId addrs _ placed.listed.1 accepted).2
      have head : (mergeAddrs peerId (book.candidatesOf key) addrs).find? accepts =
          (mergeAddrs peerId (book.candidatesOf key) addrs).head? := by
        rw [← List.head?_filter, List.filter_eq_self.mpr fit]
      unfold targetKey at target
      unfold ingestRemoteAddrs
      rw [if_neg named]
      dsimp only
      rw [target]
      show Recast book (if mergeAddrs peerId (book.candidatesOf key) addrs = [] then book else
        (book.registerEndpoints key (mergeAddrs peerId (book.candidatesOf key) addrs) now).1) key _
      split
      · rename_i nothing
        rw [nothing]
        exact .inl ⟨rfl, rfl⟩
      · rw [← head]
        exact registerEndpoints_recast key _ now
    case neg =>
      have nothing : ¬ (peerId ≠ "" ∧ book.targetKey peerId = key) := fun both => target both.2
      rw [if_neg nothing]
      left
      constructor
      · rfl
      · unfold ingestRemoteAddrs
        rw [if_neg named]
        dsimp only
        split
        · rfl
        · exact registerEndpoints_find_other book (fun same => target same.symm) _ now

end Registering

section Elsewhere

variable {book : DialBook} {key : DialKey}

omit [MultiaddrParser] in
theorem find_putFor_other {other : DialKey} (different : other ≠ key) {kept : Prop} [Decidable kept]
    (record : EndpointRecord) :
    (if kept then book.put other record else (book.put other record).clearBackoff other).find key =
      book.find key := by
  split <;> exact find_put_other book different.symm record

theorem registerEndpoint_find_other {other : DialKey} (different : other ≠ key) (multiaddr : String)
    (now : Int) : (book.registerEndpoint other multiaddr now).1.find key = book.find key := by
  unfold registerEndpoint
  split
  · rfl
  · exact find_putFor_other different _

/-- What is done to other keys leaves a key's record where it stands. -/
theorem call_spares {call : Call} (spared : book.spares key call = true) (now : Int) :
    (book.call call now).1.find key = book.find key ∨
      ∃ multiaddr endpoint, (book.call call now).1 = book.setResolution multiaddr endpoint now := by
  cases call with
  | registerEndpoint other multiaddr =>
      exact .inl (registerEndpoint_find_other (by simpa [spares] using spared) multiaddr now)
  | registerEndpoints other multiaddrs =>
      have different : key ≠ other := fun same => by simp [spares, same] at spared
      exact .inl (registerEndpoints_find_other book different multiaddrs now)
  | unregisterEndpoint other =>
      exact .inl (find_unregister_other book (by simpa [spares] using spared))
  | advanceDialCandidate other =>
      left
      simp only [DialBook.call, advanceDialCandidate]
      split
      · rfl
      · split
        · exact find_modify_other book (by simpa [spares] using spared) _
        · rfl
  | resetDialIndex other => exact .inl (find_modify_other book (by simpa [spares] using spared) _)
  | promoteDialWinner other multiaddr =>
      left
      simp only [DialBook.call, promoteDialWinner]
      split
      · rfl
      · exact find_modify_other book (by simpa [spares] using spared) _
  | ingestRemoteAddrs peerId addrs =>
      left
      have different : key ≠ book.targetKey peerId := fun same => by simp [spares, ← same] at spared
      simp only [DialBook.call, ingestRemoteAddrs]
      split
      · rfl
      · split
        · rfl
        · exact registerEndpoints_find_other book different _ now
  | setResolution multiaddr endpoint => exact .inr ⟨multiaddr, endpoint, rfl⟩
  | forgetResolution other =>
      exact .inl (find_forgetResolution_other book (by simpa [spares] using spared))

end Elsewhere

end Amp.DialBook
