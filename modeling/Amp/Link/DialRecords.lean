import Amp.Lib.Run
import Amp.Link.AdpMultiaddr

set_option autoImplicit false

/- What stands in every record of a dial book, whatever is done to it. -/
namespace Amp

open Adp (IpEndpoint)
open MultiaddrParser renaming parseAdpMultiaddr → parse

/-- A parser that takes no address without a peer in it. -/
class NamesPeer [MultiaddrParser] : Prop where
  named : ∀ {multiaddr : String} {parsed : ParsedAdpMultiaddr},
    parse multiaddr = .ok parsed → parsed.peerId ≠ ""

instance [Inet] : NamesPeer := ⟨fun read => (parseAdpMultiaddr_fields read).1⟩

namespace DialBook

section Candidates

/-- Candidates a record may hold. -/
structure Listed [MultiaddrParser] (candidates : List String) : Prop where
  filled : candidates ≠ []
  capped : candidates.length ≤ kMaxCandidatesPerKey
  distinct : candidates.Nodup
  accepted : ∀ candidate ∈ candidates, ∃ parsed, parse candidate = .ok parsed

/-- The record and its active candidate agree. -/
structure Mirrors [MultiaddrParser] (record : EndpointRecord) (parsed : ParsedAdpMultiaddr) : Prop where
  peerId : record.peerId = parsed.peerId
  hostname : record.hostname = parsed.hostname
  hostFamily : record.hostFamily = parsed.hostFamily
  literal : parsed.hostname = "" → record.endpoint = parsed.endpoint ∧ record.resolved = true

/-- A record of a dial book. -/
structure Valid [MultiaddrParser] (record : EndpointRecord) : Prop where
  listed : Listed record.candidates
  index : record.dialIndex < record.candidates.length
  active : record.candidates[record.dialIndex]? = some record.multiaddr
  mirrors : ∀ parsed, parse record.multiaddr = .ok parsed → Mirrors record parsed

variable [MultiaddrParser]

theorem listed_front {candidates : List String} {multiaddr : String} {parsed : ParsedAdpMultiaddr}
    (read : parse multiaddr = .ok parsed) (distinct : candidates.Nodup)
    (accepted : ∀ candidate ∈ candidates, ∃ parsed, parse candidate = .ok parsed) :
    Listed (insertCandidateFront candidates multiaddr) where
  filled := by simp [insertCandidateFront, kMaxCandidatesPerKey]
  capped := List.length_take_le _ _
  distinct := by
    apply List.Nodup.sublist (List.take_sublist _ _)
    apply List.nodup_cons.mpr
    exact ⟨by simp, distinct.filter _⟩
  accepted := by
    intro candidate among
    rcases List.mem_cons.mp (List.mem_of_mem_take among) with rfl | kept
    · exact ⟨parsed, read⟩
    · exact accepted candidate (List.mem_filter.mp kept).1

/-- What `RegisterEndpoints` has gathered so far. -/
structure Gathering (candidates : List String) : Prop where
  capped : candidates.length ≤ kMaxCandidatesPerKey
  distinct : candidates.Nodup
  accepted : ∀ candidate ∈ candidates, ∃ parsed, parse candidate = .ok parsed

theorem takeCandidate_gathering (key : DialKey) (record : EndpointRecord) (multiaddr : String)
    (gathering : Gathering record.candidates) :
    Gathering (takeCandidate key record multiaddr).candidates := by
  unfold takeCandidate
  split
  · exact gathering
  · rename_i room
    split
    · exact gathering
    · rename_i parsed read
      split
      · exact gathering
      · rename_i other
        constructor
        · simp only [List.length_append, List.length_cons, List.length_nil]
          omega
        · rw [← List.concat_eq_append]
          exact List.Nodup.concat other gathering.distinct
        · intro candidate among
          rcases List.mem_append.mp among with held | added
          · exact gathering.accepted candidate held
          · rw [List.mem_singleton.mp added]
            exact ⟨parsed, read⟩

theorem gathered_listed (key : DialKey) (multiaddrs : List String) :
    ∀ record : EndpointRecord, Gathering record.candidates →
      Gathering (multiaddrs.foldl (takeCandidate key) record).candidates := by
  induction multiaddrs with
  | nil => exact fun _ gathering => gathering
  | cons multiaddr rest ih =>
      intro record gathering
      exact ih _ (takeCandidate_gathering key record multiaddr gathering)

end Candidates

section Records

variable [MultiaddrParser]

omit [MultiaddrParser] in
/-- What `ApplyAddress` leaves of the record, and what it takes over. -/
theorem applyAddress_fields (book : DialBook) (record : EndpointRecord) (multiaddr : String)
    (parsed : ParsedAdpMultiaddr) (now : Int) :
    let applied := book.applyAddress record multiaddr parsed now
    applied.candidates = record.candidates ∧ applied.dialIndex = record.dialIndex ∧
      applied.multiaddr = multiaddr ∧ applied.hostname = parsed.hostname ∧
      applied.hostFamily = parsed.hostFamily ∧
      (parsed.hostname = "" → applied.endpoint = parsed.endpoint ∧ applied.resolved = true) := by
  simp only [applyAddress]
  by_cases literal : parsed.hostname = ""
  · simp [literal]
  · rw [if_neg literal]
    split <;> simp [literal]

variable [NamesPeer]

theorem sync_valid (book : DialBook) {record : EndpointRecord} (listed : Listed record.candidates)
    (now : Int) : Valid (book.syncActiveFromIndex record now) := by
  unfold syncActiveFromIndex
  rw [if_neg listed.filled]
  dsimp only
  have kept : (clampIndex record).candidates = record.candidates := by
    unfold clampIndex
    split <;> rfl
  have index : (clampIndex record).dialIndex < (clampIndex record).candidates.length := by
    rw [kept]
    unfold clampIndex
    split
    · assumption
    · exact List.length_pos_iff.mpr listed.filled
  have listed : Listed (clampIndex record).candidates := kept.symm ▸ listed
  generalize clampIndex record = record at listed index ⊢
  have active : record.candidates[record.dialIndex]? =
      some (record.candidates.getD record.dialIndex "") := by
    rw [List.getD_eq_getElem?_getD, List.getElem?_eq_getElem index]
    rfl
  generalize record.candidates.getD record.dialIndex "" = multiaddr at active ⊢
  obtain ⟨parsed, read⟩ := listed.accepted multiaddr (List.mem_of_getElem? active)
  obtain ⟨candidates, dialIndex, address, hostname, hostFamily, literal⟩ :=
    applyAddress_fields book record multiaddr parsed now
  simp only [read, NamesPeer.named read, if_false]
  refine ⟨?_, ?_, ?_, ?_⟩
  · rw [candidates]
    exact listed
  · rw [candidates, dialIndex]
    exact index
  · rw [candidates, dialIndex, address]
    exact active
  · intro again sameRead
    rw [address, read] at sameRead
    rw [← Except.ok.inj sameRead]
    exact ⟨rfl, hostname, hostFamily, literal⟩

end Records

/-- A book with one record a key, and each of them valid. -/
structure Standing [MultiaddrParser] (book : DialBook) : Prop where
  keys : (book.endpoints.map Prod.fst).Nodup
  records : ∀ entry ∈ book.endpoints, Valid entry.2

section Books

variable [MultiaddrParser]

omit [MultiaddrParser] in
theorem mem_of_find {book : DialBook} {key : DialKey} {record : EndpointRecord}
    (found : book.find key = some record) : (key, record) ∈ book.endpoints := by
  obtain ⟨entry, held, rfl⟩ := Option.map_eq_some_iff.mp found
  have same : entry.1 = key := by simpa using List.find?_some held
  rw [← same]
  exact List.mem_of_find?_eq_some held

namespace Standing

theorem find {book : DialBook} (standing : book.Standing) {key : DialKey}
    {record : EndpointRecord} (found : book.find key = some record) : Valid record :=
  standing.records _ (mem_of_find found)

theorem find_of_mem {book : DialBook} (standing : book.Standing) {key : DialKey}
    {record : EndpointRecord} (held : (key, record) ∈ book.endpoints) :
    book.find key = some record := by
  cases found : book.find key with
  | none =>
      have missing := List.find?_eq_none.mp (Option.map_eq_none_iff.mp found) _ held
      exact absurd (beq_self_eq_true key) missing
  | some first =>
      have same := List.inj_on_of_nodup_map standing.keys (mem_of_find found) held rfl
      rw [(Prod.mk.inj same).2]

theorem put {book : DialBook} (standing : book.Standing) (key : DialKey)
    {record : EndpointRecord} (valid : Valid record) : (book.put key record).Standing where
  keys := by
    simp only [DialBook.put, List.map_append, List.map_cons, List.map_nil]
    rw [← List.concat_eq_append]
    apply List.Nodup.concat
    · simp
    · exact standing.keys.sublist (List.filter_sublist.map Prod.fst)
  records := by
    intro entry held
    rcases List.mem_append.mp held with kept | added
    · exact standing.records entry (List.mem_filter.mp kept).1
    · rw [List.mem_singleton.mp added]
      exact valid

/-- A change to the record under a key that keeps it valid. -/
theorem modify {book : DialBook} (standing : book.Standing) (key : DialKey)
    {change : EndpointRecord → EndpointRecord}
    (keeps : ∀ record, book.find key = some record → Valid (change record)) :
    (book.modify key change).Standing where
  keys := by
    have same : (book.modify key change).endpoints.map Prod.fst = book.endpoints.map Prod.fst := by
      simp only [DialBook.modify, List.map_map]
      apply List.map_congr_left
      intro entry _
      simp only [Function.comp]
      split
      · rename_i named
        exact named.symm
      · rfl
    rw [same]
    exact standing.keys
  records := by
    intro entry held
    obtain ⟨before, listed, rfl⟩ := List.mem_map.mp held
    split
    · rename_i named
      exact keeps before.2 (standing.find_of_mem (named ▸ listed))
    · exact standing.records before listed

theorem unregisterEndpoint {book : DialBook} (standing : book.Standing) (key : DialKey) :
    (book.unregisterEndpoint key).Standing where
  keys := standing.keys.sublist (List.filter_sublist.map Prod.fst)
  records := fun entry held => standing.records entry (List.mem_filter.mp held).1

theorem setResolution {book : DialBook} (standing : book.Standing) {multiaddr : String}
    {parsed : ParsedAdpMultiaddr} (read : parse multiaddr = .ok parsed) (host : parsed.hostname ≠ "")
    (endpoint : IpEndpoint) (now : Int) : (book.setResolution multiaddr endpoint now).Standing where
  keys := by
    have same : (book.setResolution multiaddr endpoint now).endpoints.map Prod.fst =
        book.endpoints.map Prod.fst := by
      simp only [DialBook.setResolution, List.map_map]
      apply List.map_congr_left
      intro entry _
      simp only [Function.comp]
      split <;> rfl
    rw [same]
    exact standing.keys
  records := by
    intro entry held
    obtain ⟨before, listed, rfl⟩ := List.mem_map.mp held
    have valid := standing.records before listed
    split
    · rename_i same
      refine ⟨valid.listed, valid.index, valid.active, ?_⟩
      intro again sameRead
      obtain ⟨peerId, hostname, hostFamily, -⟩ := valid.mirrors again sameRead
      have name : again.hostname ≠ "" := by
        have both : parse before.2.multiaddr = .ok parsed := by rw [same]; exact read
        rw [sameRead] at both
        rw [Except.ok.inj both]
        exact host
      exact ⟨peerId, hostname, hostFamily, fun literal => absurd literal name⟩
    · exact valid

theorem forgetResolution {book : DialBook} (standing : book.Standing) (key : DialKey) :
    (book.forgetResolution key).Standing := by
  unfold DialBook.forgetResolution
  split
  · exact standing
  · rename_i record found
    split
    · exact standing
    · rename_i host
      have cleared : Standing { book with
          resolutions := Function.update book.resolutions record.multiaddr none } :=
        ⟨standing.keys, standing.records⟩
      apply cleared.modify
      intro same sameFound
      have same : same = record := by
        rw [← Option.some_inj, ← sameFound]
        exact found
      subst same
      have valid := standing.find found
      refine ⟨valid.listed, valid.index, valid.active, ?_⟩
      intro parsed read
      have mirrors := valid.mirrors parsed read
      refine ⟨mirrors.peerId, mirrors.hostname, mirrors.hostFamily, fun literal => ?_⟩
      exact absurd (mirrors.hostname.trans literal) host

theorem clearBackoff {book : DialBook} (standing : book.Standing) (key : DialKey) :
    (book.clearBackoff key).Standing := ⟨standing.keys, standing.records⟩

variable [NamesPeer]

theorem registerEndpoint {book : DialBook} (standing : book.Standing) (key : DialKey)
    (multiaddr : String) (now : Int) : (book.registerEndpoint key multiaddr now).1.Standing := by
  unfold DialBook.registerEndpoint
  split
  · exact standing
  · rename_i parsed read
    have stands : ∀ (record : EndpointRecord) (candidates : List String) (previous : String),
        record.candidates = insertCandidateFront candidates multiaddr →
        candidates = [] ∨ Listed candidates →
        (if previous = multiaddr then book.put key (book.syncActiveFromIndex record now)
          else (book.put key (book.syncActiveFromIndex record now)).clearBackoff key).Standing := by
      intro record candidates previous front known
      have listed : Listed record.candidates := by
        rw [front]
        rcases known with rfl | listed
        · exact listed_front read List.nodup_nil fun _ among => absurd among List.not_mem_nil
        · exact listed_front read listed.distinct listed.accepted
      have put := standing.put key (sync_valid book listed now)
      split
      · exact put
      · exact put.clearBackoff key
    cases found : book.find key with
    | none => exact stands _ _ _ rfl (.inl rfl)
    | some existing =>
        apply stands _ _ _ rfl
        right
        have listed := (standing.find found).listed
        dsimp only
        split <;> exact listed

theorem registerEndpoints {book : DialBook} (standing : book.Standing) (key : DialKey)
    (multiaddrs : List String) (now : Int) :
    (book.registerEndpoints key multiaddrs now).1.Standing := by
  unfold DialBook.registerEndpoints
  dsimp only
  split
  · exact standing
  · rename_i filled
    have gathering := gathered_listed key multiaddrs
      { peerId := (((book.find key).map EndpointRecord.peerId).filter (· != "")).getD key }
      ⟨Nat.zero_le _, List.nodup_nil, fun _ among => absurd among List.not_mem_nil⟩
    generalize multiaddrs.foldl (takeCandidate key) _ = record at filled gathering ⊢
    have listed : Listed { record with dialIndex := 0 }.candidates :=
      ⟨filled, gathering.capped, gathering.distinct, gathering.accepted⟩
    have put := standing.put key (sync_valid book listed now)
    split
    · exact put
    · exact put.clearBackoff key

theorem ingestRemoteAddrs {book : DialBook} (standing : book.Standing) (peerId : String)
    (addrs : List String) (now : Int) : (book.ingestRemoteAddrs peerId addrs now).Standing := by
  unfold DialBook.ingestRemoteAddrs
  dsimp only
  split
  · exact standing
  · split
    · exact standing
    · exact standing.registerEndpoints _ _ now

theorem advanceDialCandidate {book : DialBook} (standing : book.Standing) (key : DialKey) (now : Int) :
    (book.advanceDialCandidate key now).1.Standing := by
  unfold DialBook.advanceDialCandidate
  split
  · exact standing
  · split
    · dsimp only
      apply standing.modify
      intro record found
      have listed : Listed { record with dialIndex := record.dialIndex + 1 }.candidates :=
        (standing.find found).listed
      exact sync_valid book listed now
    · exact standing

theorem resetDialIndex {book : DialBook} (standing : book.Standing) (key : DialKey) (now : Int) :
    (book.resetDialIndex key now).Standing := by
  apply standing.modify
  intro record found
  have listed : Listed { record with dialIndex := 0 }.candidates := (standing.find found).listed
  exact sync_valid book listed now

theorem promoteDialWinner {book : DialBook} (standing : book.Standing) (key : DialKey)
    {multiaddr : String} (held : ∀ record, book.find key = some record → multiaddr ∈ record.candidates)
    (now : Int) : (book.promoteDialWinner key multiaddr now).Standing := by
  unfold DialBook.promoteDialWinner
  split
  · exact standing
  · apply standing.modify
    intro record found
    have listed := (standing.find found).listed
    obtain ⟨parsed, read⟩ := listed.accepted multiaddr (held record found)
    have listed : Listed { record with
        candidates := insertCandidateFront record.candidates multiaddr
        dialIndex := 0 }.candidates := listed_front read listed.distinct listed.accepted
    exact sync_valid book listed now

end Standing

end Books

/-- What changes the records of a book. -/
inductive Call where
  | registerEndpoint (key : DialKey) (multiaddr : String)
  | registerEndpoints (key : DialKey) (multiaddrs : List String)
  | unregisterEndpoint (key : DialKey)
  | advanceDialCandidate (key : DialKey)
  | resetDialIndex (key : DialKey)
  | promoteDialWinner (key : DialKey) (multiaddr : String)
  | ingestRemoteAddrs (peerId : String) (addrs : List String)
  | setResolution (multiaddr : String) (endpoint : IpEndpoint)
  | forgetResolution (key : DialKey)

section Calls

variable [MultiaddrParser]

/-- A call at its time, and what it returns: an error, or that there is nothing to advance to. -/
def call (book : DialBook) (call : Call) (now : Int) : DialBook × Bool :=
  match call with
  | .registerEndpoint key multiaddr =>
      let done := book.registerEndpoint key multiaddr now
      (done.1, done.2.isOk)
  | .registerEndpoints key multiaddrs =>
      let done := book.registerEndpoints key multiaddrs now
      (done.1, done.2.isOk)
  | .unregisterEndpoint key => (book.unregisterEndpoint key, true)
  | .advanceDialCandidate key => book.advanceDialCandidate key now
  | .resetDialIndex key => (book.resetDialIndex key now, true)
  | .promoteDialWinner key multiaddr => (book.promoteDialWinner key multiaddr now, true)
  | .ingestRemoteAddrs peerId addrs => (book.ingestRemoteAddrs peerId addrs now, true)
  | .setResolution multiaddr endpoint => (book.setResolution multiaddr endpoint now, true)
  | .forgetResolution key => (book.forgetResolution key, true)

def step (book : DialBook) (event : Call × Int) : DialBook := (book.call event.1 event.2).1

/-- A winner is one of the record's own addresses, and what is resolved is a hostname. -/
def Apt (book : DialBook) (event : Call × Int) : Prop :=
  match event.1 with
  | .promoteDialWinner key multiaddr =>
      ∀ record, book.find key = some record → multiaddr ∈ record.candidates
  | .setResolution multiaddr _ => ∃ parsed, parse multiaddr = .ok parsed ∧ parsed.hostname ≠ ""
  | _ => True

theorem step_standing [NamesPeer] {book : DialBook} (standing : book.Standing) {event : Call × Int}
    (apt : book.Apt event) : (book.step event).Standing := by
  obtain ⟨call, now⟩ := event
  cases call with
  | registerEndpoint key multiaddr => exact standing.registerEndpoint key multiaddr now
  | registerEndpoints key multiaddrs => exact standing.registerEndpoints key multiaddrs now
  | unregisterEndpoint key => exact standing.unregisterEndpoint key
  | advanceDialCandidate key => exact standing.advanceDialCandidate key now
  | resetDialIndex key => exact standing.resetDialIndex key now
  | promoteDialWinner key multiaddr => exact standing.promoteDialWinner key apt now
  | ingestRemoteAddrs peerId addrs => exact standing.ingestRemoteAddrs peerId addrs now
  | setResolution multiaddr endpoint =>
      obtain ⟨parsed, read, host⟩ := apt
      exact standing.setResolution read host endpoint now
  | forgetResolution key => exact standing.forgetResolution key

theorem call_refused {book : DialBook} {asked : Call} {now : Int}
    (refused : (book.call asked now).2 = false) : (book.call asked now).1 = book := by
  cases asked with
  | registerEndpoint key multiaddr =>
      simp only [call, DialBook.registerEndpoint] at refused ⊢
      split at refused
      · simp
      · cases refused
  | registerEndpoints key multiaddrs =>
      simp only [call, DialBook.registerEndpoints] at refused ⊢
      split at refused
      · rename_i none
        rw [if_pos none]
      · cases refused
  | advanceDialCandidate key =>
      simp only [call, DialBook.advanceDialCandidate] at refused ⊢
      split at refused
      · simp
      · rename_i record found
        split at refused
        · cases refused
        · rename_i last
          simp [last]
  | _ => cases refused

end Calls

/-- Every book that calls lead to stands. -/
theorem always_standing [MultiaddrParser] [NamesPeer] (book : DialBook)
    (events : List (Call × Int)) (empty : book.endpoints = []) (met : Run.Meets step Apt book events) :
    Run.Always step Standing book events := by
  apply Run.always_of_invariant step Apt Standing Standing
    (fun _ _ apt standing => step_standing standing apt) (fun _ standing => standing) events book met
  constructor
  · rw [empty]
    exact List.nodup_nil
  · rw [empty]
    exact fun _ held => absurd held List.not_mem_nil

/-- Every book that calls lead to stands, and a call that is refused leaves the book as it is. -/
theorem dial_records [Inet] (book : DialBook) (events : List (Call × Int))
    (empty : book.endpoints = []) (met : Run.Meets step Apt book events) :
    Run.Always step Standing book events ∧
      ∀ (other : DialBook) (asked : Call) (now : Int),
        (other.call asked now).2 = false → (other.call asked now).1 = other :=
  ⟨always_standing book events empty met, fun _ _ _ refused => call_refused refused⟩

section Samples

/-- The one literal below that is read as IPv6. -/
local instance : Inet where
  inetPton literal := if literal = "::1" then some (List.replicate 15 0 ++ [1]) else none
  inetNtop addr := if addr = List.replicate 15 0 ++ [1] then some "::1" else none

/-- A hostname and a literal for bob; the hostname is resolved, then its dial fails, and the
literal wins. -/
def resolvedThenLost : List (Call × Int) :=
  [(.registerEndpoints "bob" ["/dns4/relay.example/udp/4000/adp/2/p2p/bob",
      "/ip6/::1/udp/4000/adp/2/p2p/bob"], 10),
    (.setResolution "/dns4/relay.example/udp/4000/adp/2/p2p/bob" { port := 4000 }, 20),
    (.advanceDialCandidate "bob", 30),
    (.promoteDialWinner "bob" "/ip6/::1/udp/4000/adp/2/p2p/bob", 40)]

theorem dial_records_sample : Run.Always step Standing {} resolvedThenLost ∧
    ∀ (other : DialBook) (asked : Call) (now : Int),
      (other.call asked now).2 = false → (other.call asked now).1 = other := by
  apply dial_records {} resolvedThenLost rfl
  have host : ((parse "/dns4/relay.example/udp/4000/adp/2/p2p/bob").toOption.any
      fun parsed => parsed.hostname != "") = true := by decide +kernel
  have own : ((Run.exec step {} (resolvedThenLost.take 3)).find "bob").all
      (fun record => record.candidates.contains "/ip6/::1/udp/4000/adp/2/p2p/bob") = true := by
    decide +kernel
  refine ⟨trivial, ?_, trivial, ?_, trivial⟩
  · obtain ⟨parsed, read, named⟩ := (Option.any_eq_true _ _).mp host
    refine ⟨parsed, ?_, by simpa using named⟩
    cases result : parse "/dns4/relay.example/udp/4000/adp/2/p2p/bob" with
    | error message =>
        rw [result] at read
        cases read
    | ok other =>
        rw [result] at read
        exact congrArg Except.ok (Option.some.inj read)
  · intro record found
    have among := (Option.all_eq_true _ _).mp own record found
    simpa using among

end Samples

end DialBook

end Amp
