import Amp.Link.DialCursor

set_option autoImplicit false

/- What an attempt has tried when it ends: every candidate, if no call puts one before the
candidate being dialed. -/
namespace Amp

open Adp (IpEndpoint)
open MultiaddrParser renaming parseAdpMultiaddr → parse

/-- A parser that takes no empty address. -/
class RejectsBlank [MultiaddrParser] : Prop where
  blank : ∀ {parsed : ParsedAdpMultiaddr}, parse "" ≠ .ok parsed

instance [Inet] : RejectsBlank := ⟨fun {parsed} read => by cases read⟩

namespace DialAttempt

variable [MultiaddrParser]

/-- Nothing of the key is under way. -/
structure Quiet (a : DialAttempt) : Prop where
  resolving : a.resolving = false
  lookups : a.lookups = []
  links : a.links = []
  retries : a.retries = 0

/-- Where an attempt stands: nobody waits, or the candidates before the active one have been
tried and the active one is looked up, dialed or to be dialed at the next Tick. -/
inductive Stage (key : DialKey) (a : DialAttempt) : Prop where
  | idle (waiting : a.waiting = false) (links : a.links = []) (retries : a.retries = 0)
      (lookup : a.resolving = false ∧ a.lookups = [] ∨ a.resolving = true ∧
        ∃ multiaddr cursor, a.lookups = [multiaddr] ∧ a.book.At key cursor)
  | resolving {multiaddr : String} {cursor : Cursor String} (waiting : a.waiting = true)
      (resolving : a.resolving = true) (lookups : a.lookups = [multiaddr]) (links : a.links = [])
      (retries : a.retries = 0) (place : a.book.At key cursor) (covered : cursor.Covered a.tried)
  | dialing {cursor : Cursor String} (waiting : a.waiting = true) (resolving : a.resolving = false)
      (lookups : a.lookups = []) (links : a.links = [cursor.current]) (retries : a.retries = 0)
      (place : a.book.At key cursor) (covered : cursor.Covered a.tried)
      (own : cursor.current ∈ a.tried)
  | retrying {cursor : Cursor String} (waiting : a.waiting = true) (resolving : a.resolving = false)
      (lookups : a.lookups = []) (links : a.links = []) (retries : a.retries = 1)
      (place : a.book.At key cursor) (covered : cursor.Covered a.tried)

structure Sound (key : DialKey) (a : DialAttempt) : Prop where
  placed : a.book.Placed key
  stage : Stage key a
  fair : ∀ ending ∈ a.endings, FairEnding ending

variable {key : DialKey} {a : DialAttempt} {cursor : Cursor String}

section Dialing

omit [MultiaddrParser] in
theorem Quiet.of_idle_links (quiet : a.Quiet) (book : DialBook) (tried : List String) :
    Quiet { a with book := book, tried := tried } :=
  ⟨quiet.resolving, quiet.lookups, quiet.links, quiet.retries⟩

theorem Quiet.ended (quiet : a.Quiet) {book : DialBook} (placed : book.Placed key)
    (fair : ∀ ending ∈ a.endings, FairEnding ending) :
    Sound key { a with book := book, waiting := false } where
  placed := placed
  stage := .idle rfl quiet.links quiet.retries (.inl ⟨quiet.resolving, quiet.lookups⟩)
  fair := fair

/-- With every candidate tried, the attempt may give up. -/
theorem giveUp_sound (quiet : a.Quiet) (place : a.book.At key cursor)
    (all : ∀ item ∈ cursor.items, item ∈ a.tried) (fair : ∀ ending ∈ a.endings, FairEnding ending)
    (around : DialAround) : Sound key (a.giveUpCandidates key around) := by
  have reset := place.resetDialIndex around.steadyMs
  have candidates : DialBook.candidatesOf ((a.book.resetDialIndex key around.steadyMs).armBackoff key
      around.steadyMs around.backoffMs) key = cursor.items := reset.candidates
  constructor
  · exact .inr ⟨_, reset⟩
  · exact .idle rfl quiet.links quiet.retries (.inl ⟨quiet.resolving, quiet.lookups⟩)
  · intro ending among
    rcases List.mem_append.mp among with before | new
    · exact fair ending before
    · by_cases waiting : a.waiting = true
      case neg =>
        rw [if_neg waiting] at new
        exact absurd new List.not_mem_nil
      case pos =>
        rw [if_pos waiting, candidates] at new
        rw [List.mem_singleton.mp new]
        exact all

/-- What a dial needs to start from, and that it leaves the attempt sound. -/
def Begins (key : DialKey) (around : DialAround) (turns : Nat) : Prop :=
  ∀ {a : DialAttempt} {cursor : Cursor String}, a.Quiet → a.waiting = true → a.book.At key cursor →
    cursor.Covered a.tried → (∀ ending ∈ a.endings, FairEnding ending) →
    cursor.items.length ≤ turns + cursor.index + 1 → Sound key (a.beginOutboundDial key around turns)

theorem begins_step {around : DialAround} {turns : Nat}
    (later : ∀ fewer, turns = fewer + 1 → Begins key around fewer) : Begins key around turns := by
  intro a cursor quiet waiting place covered fair enough
  have placed : a.book.Placed key := .inr ⟨cursor, place⟩
  obtain ⟨record, found, reads⟩ := place
  have place : a.book.At key cursor := ⟨record, found, reads⟩
  unfold beginOutboundDial
  by_cases occupied : around.occupied = true
  · rw [if_pos occupied]
    exact quiet.ended (.inr ⟨_, place.resetDialIndex around.steadyMs⟩) fair
  rw [if_neg occupied, found]
  dsimp only
  by_cases full : around.full = true
  · rw [if_pos full]
    exact quiet.ended placed fair
  rw [if_neg full]
  by_cases resolves : a.book.needsResolution key around.steadyMs = true
  case neg =>
    rw [if_neg resolves]
    by_cases opens : around.opens record.endpoint = true
    case neg =>
      rw [if_neg opens]
      exact quiet.ended placed fair
    case pos =>
      rw [if_pos opens, reads.current, quiet.links]
      have own : cursor.current ∈ a.tried ++ [cursor.current] := by simp
      exact ⟨placed, .dialing waiting quiet.resolving quiet.lookups rfl quiet.retries place
        (covered.mono (List.subset_append_left _ _)) own, fair⟩
  rw [if_pos resolves]
  by_cases resolver : around.hostResolver = true
  · rw [if_pos resolver, quiet.lookups]
    exact ⟨placed, .resolving waiting rfl rfl quiet.links quiet.retries place covered, fair⟩
  -- no resolver: the hostname counts as tried, and the next candidate has its turn
  rw [if_neg resolver]
  have own : cursor.current ∈ a.tried ++ [record.multiaddr] := by simp [reads.current]
  have covered := covered.mono (List.subset_append_left a.tried [record.multiaddr])
  cases more : cursor.next? with
  | none =>
      rw [place.last more]
      have gives := giveUp_sound (quiet.of_idle_links a.book (a.tried ++ [record.multiaddr])) place
        (covered.all own more) fair around
      cases turns with
      | zero => exact gives
      | succ fewer => exact gives
  | some next =>
      obtain ⟨after, advanced, there⟩ := place.advance more around.steadyMs
      obtain ⟨items, index⟩ := Cursor.next?_some more
      have inside := next.inside
      rw [items, index] at inside
      rw [advanced]
      cases turns with
      | zero => omega
      | succ fewer =>
          apply later fewer rfl
          · exact quiet.of_idle_links after (a.tried ++ [record.multiaddr])
          · exact waiting
          · exact there
          · exact covered.next own more
          · exact fair
          · rw [items, index]
            omega

theorem begins (around : DialAround) (turns : Nat) : Begins key around turns := by
  induction turns with
  | zero => exact begins_step fun fewer none => by omega
  | succ turns ih =>
      apply begins_step
      intro fewer same
      rw [← Nat.succ.inj same]
      exact ih

theorem beginDial_sound (quiet : a.Quiet) (waiting : a.waiting = true) (place : a.book.At key cursor)
    (covered : cursor.Covered a.tried) (fair : ∀ ending ∈ a.endings, FairEnding ending)
    (around : DialAround) : Sound key (a.beginDial key around) := by
  apply begins around _ quiet waiting place covered fair
  unfold dialTurns
  rw [place.candidates]
  omega

theorem failCandidate_sound (quiet : a.Quiet) (waiting : a.waiting = true)
    (place : a.book.At key cursor) (covered : cursor.Covered a.tried) (own : cursor.current ∈ a.tried)
    (fair : ∀ ending ∈ a.endings, FairEnding ending) (around : DialAround) :
    Sound key (a.failCandidate key around) := by
  unfold failCandidate
  cases more : cursor.next? with
  | none =>
      rw [place.last more]
      exact giveUp_sound quiet place (covered.all own more) fair around
  | some next =>
      obtain ⟨after, advanced, there⟩ := place.advance more around.steadyMs
      rw [advanced]
      exact beginDial_sound (quiet.of_idle_links after a.tried) waiting there (covered.next own more) fair
        around

end Dialing

section Answers

/-- A lookup came back that someone waits for. -/
theorem resolved_sound {multiaddr : String} (waiting : a.waiting = true)
    (lookups : a.lookups = [multiaddr]) (links : a.links = []) (retries : a.retries = 0)
    (place : a.book.At key cursor) (covered : cursor.Covered a.tried)
    (fair : ∀ ending ∈ a.endings, FairEnding ending) (result : Except String IpEndpoint)
    (around : DialAround) : Sound key (a.onHostResolved key around multiaddr result) := by
  have none : a.lookups.erase multiaddr = [] := by rw [lookups, List.erase_cons_head]
  -- a lookup that failed counts as tried, whatever candidate is active by now
  have took : ∃ after, a.takeResolution around multiaddr result = after ∧ after.Quiet ∧
      after.waiting = true ∧ after.book.At key cursor ∧ cursor.Covered after.tried ∧
      after.endings = a.endings ∧ (∀ message, result = .error message → multiaddr ∈ after.tried) := by
    refine ⟨_, rfl, ?_⟩
    unfold takeResolution
    cases result with
    | ok endpoint =>
        refine ⟨⟨rfl, none, links, retries⟩, waiting, ?_, covered, rfl, fun _ failed => by cases failed⟩
        exact place.setResolution multiaddr endpoint around.steadyMs
    | error message =>
        refine ⟨⟨rfl, none, links, retries⟩, waiting, place, ?_, rfl, fun _ _ => ?_⟩
        · exact covered.mono (List.subset_append_left a.tried [multiaddr])
        · exact List.mem_append_right _ List.mem_cons_self
  obtain ⟨after, taken, quiet, waiting, ⟨record, found, reads⟩, covered, same, failed⟩ := took
  rw [← same] at fair
  have begun := beginDial_sound quiet waiting ⟨record, found, reads⟩ covered fair around
  unfold onHostResolved
  dsimp only
  rw [taken, found, waiting]
  dsimp only
  by_cases active : record.multiaddr = multiaddr
  case neg =>
    rw [if_pos active]
    exact begun
  case pos =>
    rw [if_neg (fun other => other active)]
    cases result with
    | ok endpoint => exact begun
    | error message =>
        have own : cursor.current ∈ after.tried := by
          rw [← reads.current, active]
          exact failed message rfl
        exact failCandidate_sound quiet waiting ⟨record, found, reads⟩ covered own fair around

/-- A lookup came back that nobody waits for: the attempt that began it was aborted. -/
theorem unawaited_sound {multiaddr : String} (waiting : a.waiting = false)
    (lookups : a.lookups = [multiaddr]) (links : a.links = []) (retries : a.retries = 0)
    (placed : a.book.Placed key) (fair : ∀ ending ∈ a.endings, FairEnding ending)
    (result : Except String IpEndpoint) (around : DialAround) :
    Sound key (a.onHostResolved key around multiaddr result) := by
  have none : a.lookups.erase multiaddr = [] := by rw [lookups, List.erase_cons_head]
  have stays : a.onHostResolved key around multiaddr result = a.takeResolution around multiaddr result := by
    have still : (a.takeResolution around multiaddr result).waiting = false := by
      unfold takeResolution
      cases result with
      | ok endpoint => exact waiting
      | error message => exact waiting
    unfold onHostResolved
    dsimp only
    rw [still]
    split
    · rfl
    · rfl
    · rename_i impossible
      cases impossible
  rw [stays]
  unfold takeResolution
  cases result with
  | error message => exact ⟨placed, .idle waiting links retries (.inl ⟨rfl, none⟩), fair⟩
  | ok endpoint =>
      refine ⟨?_, .idle waiting links retries (.inl ⟨rfl, none⟩), fair⟩
      rcases placed with missing | ⟨cursor, place⟩
      · left
        show (a.book.setResolution multiaddr endpoint around.steadyMs).find key = _
        rw [DialBook.find_setResolution, missing]
        rfl
      · exact .inr ⟨cursor, place.setResolution multiaddr endpoint around.steadyMs⟩

theorem onHostResolved_sound (sound : Sound key a) {multiaddr : String} (asked : multiaddr ∈ a.lookups)
    (result : Except String IpEndpoint) (around : DialAround) :
    Sound key (a.onHostResolved key around multiaddr result) := by
  obtain ⟨placed, stage, fair⟩ := sound
  cases stage with
  | idle waiting links retries lookup =>
      rcases lookup with ⟨-, none⟩ | ⟨-, other, -, lookups, -⟩
      · rw [none] at asked
        exact absurd asked List.not_mem_nil
      · rw [lookups] at asked
        rw [← List.mem_singleton.mp asked] at lookups
        exact unawaited_sound waiting lookups links retries placed fair result around
  | resolving waiting _ lookups links retries place covered =>
      rw [lookups] at asked
      rw [← List.mem_singleton.mp asked] at lookups
      exact resolved_sound waiting lookups links retries place covered fair result around
  | dialing _ _ none =>
      rw [none] at asked
      exact absurd asked List.not_mem_nil
  | retrying _ _ none =>
      rw [none] at asked
      exact absurd asked List.not_mem_nil

/-- Only while a candidate is dialed is there a link, and it dials that one. -/
theorem Stage.of_link (stage : Stage key a) {multiaddr : String} (flies : multiaddr ∈ a.links) :
    ∃ cursor : Cursor String, multiaddr = cursor.current ∧ a.waiting = true ∧
      Quiet { a with links := a.links.erase multiaddr } ∧ a.book.At key cursor ∧
      cursor.Covered a.tried ∧ cursor.current ∈ a.tried := by
  have none (links : a.links = []) : False := by
    rw [links] at flies
    exact List.not_mem_nil flies
  cases stage with
  | idle _ links => exact (none links).elim
  | resolving _ _ _ links => exact (none links).elim
  | retrying _ _ _ links => exact (none links).elim
  | dialing waiting resolving lookups links retries place covered own =>
      rename_i cursor
      rw [links] at flies
      have same := List.mem_singleton.mp flies
      refine ⟨cursor, same, waiting, ⟨resolving, lookups, ?_, retries⟩, place, covered, own⟩
      show a.links.erase multiaddr = []
      rw [links, same, List.erase_cons_head]

theorem dialFailed_sound (sound : Sound key a) {multiaddr : String} (flies : multiaddr ∈ a.links)
    (around : DialAround) : Sound key (a.dialFailed key around false multiaddr) := by
  obtain ⟨cursor, rfl, waiting, quiet, place, covered, own⟩ := sound.stage.of_link flies
  have place : (a.book.decConcurrentDials.forgetResolution key).At key cursor :=
    DialBook.At.forgetResolution place
  unfold dialFailed
  dsimp only
  cases more : cursor.next? with
  | none =>
      rw [place.last more]
      have quiet : Quiet { a with
          book := a.book.decConcurrentDials.forgetResolution key
          links := a.links.erase cursor.current } :=
        ⟨quiet.resolving, quiet.lookups, quiet.links, quiet.retries⟩
      exact giveUp_sound quiet place (covered.all own more) sound.fair around
  | some next =>
      obtain ⟨after, advanced, there⟩ := place.advance more around.steadyMs
      rw [advanced]
      have once : a.retries = 0 := quiet.retries
      refine ⟨.inr ⟨next, there⟩, ?_, sound.fair⟩
      exact .retrying waiting quiet.resolving quiet.lookups quiet.links (by simp [once]) there
        (covered.next own more)

/-- The candidate that is active when a link connects is put first. -/
theorem dialSucceeded_endings [RejectsBlank] (place : a.book.At key cursor) (multiaddr : String)
    (around : DialAround) : ∃ after : Cursor String,
    (a.dialSucceeded key around multiaddr).book.At key after ∧
      (a.dialSucceeded key around multiaddr).endings =
        a.endings ++ [.connected multiaddr (some cursor.current)] := by
  have place : (a.book.decConcurrentDials.clearBackoff key).At key cursor := place
  obtain ⟨record, found, reads⟩ := place
  have named : cursor.current ≠ "" := by
    intro blank
    obtain ⟨parsed, read⟩ := reads.listed.accepted cursor.current (reads.items ▸ cursor.current_mem)
    rw [blank] at read
    exact RejectsBlank.blank read
  obtain ⟨after, there, front⟩ := DialBook.At.promote ⟨record, found, reads⟩ named around.steadyMs
  unfold dialSucceeded
  dsimp only
  rw [found]
  dsimp only
  rw [reads.current, there.candidates, front]
  exact ⟨after, there, rfl⟩

theorem dialSucceeded_rest (key : DialKey) (a : DialAttempt) (around : DialAround) (multiaddr : String) :
    (a.dialSucceeded key around multiaddr).waiting = false ∧
      (a.dialSucceeded key around multiaddr).resolving = a.resolving ∧
      (a.dialSucceeded key around multiaddr).lookups = a.lookups ∧
      (a.dialSucceeded key around multiaddr).links = a.links.erase multiaddr ∧
      (a.dialSucceeded key around multiaddr).retries = a.retries := by
  unfold dialSucceeded
  dsimp only
  split
  · exact ⟨rfl, rfl, rfl, rfl, rfl⟩
  · exact ⟨rfl, rfl, rfl, rfl, rfl⟩

theorem dialSucceeded_sound [RejectsBlank] (sound : Sound key a) {multiaddr : String}
    (flies : multiaddr ∈ a.links) (around : DialAround) :
    Sound key (a.dialSucceeded key around multiaddr) := by
  obtain ⟨cursor, rfl, -, quiet, place, -, -⟩ := sound.stage.of_link flies
  obtain ⟨after, there, endings⟩ := dialSucceeded_endings place cursor.current around
  obtain ⟨waiting, resolving, lookups, links, retries⟩ :=
    dialSucceeded_rest key a around cursor.current
  refine ⟨.inr ⟨after, there⟩, ?_, ?_⟩
  · exact .idle waiting (links.trans quiet.links) (retries.trans quiet.retries)
      (.inl ⟨resolving.trans quiet.resolving, lookups.trans quiet.lookups⟩)
  · intro ending among
    rw [endings] at among
    rcases List.mem_append.mp among with before | new
    · exact sound.fair ending before
    · rw [List.mem_singleton.mp new]
      rfl

end Answers

section Calls

/-- The book changed, but the key's record stands where it stood. -/
theorem Sound.rebook (sound : Sound key a) {after : DialBook} (placed : after.Placed key)
    (stays : ∀ cursor, a.book.At key cursor → after.At key cursor) :
    Sound key { a with book := after } := by
  refine ⟨placed, ?_, sound.fair⟩
  cases sound.stage with
  | idle waiting links retries lookup =>
      refine .idle waiting links retries ?_
      rcases lookup with none | ⟨asks, multiaddr, cursor, lookups, place⟩
      · exact .inl none
      · exact .inr ⟨asks, multiaddr, cursor, lookups, stays cursor place⟩
  | resolving waiting resolving lookups links retries place covered =>
      exact .resolving waiting resolving lookups links retries (stays _ place) covered
  | dialing waiting resolving lookups links retries place covered own =>
      exact .dialing waiting resolving lookups links retries (stays _ place) covered own
  | retrying waiting resolving lookups links retries place covered =>
      exact .retrying waiting resolving lookups links retries (stays _ place) covered

theorem Sound.refind (sound : Sound key a) {after : DialBook}
    (same : after.find key = a.book.find key) : Sound key { a with book := after } := by
  apply sound.rebook
  · rcases sound.placed with missing | ⟨cursor, record, found, reads⟩
    · exact .inl (same.trans missing)
    · exact .inr ⟨cursor, record, same.trans found, reads⟩
  · rintro cursor ⟨record, found, reads⟩
    exact ⟨record, same.trans found, reads⟩

/-- The record starts again with a candidate that is not before the one being dialed. -/
theorem Sound.recast (sound : Sound key a) {after : DialBook} {first : Option String}
    (recast : DialBook.Recast a.book after key first)
    (leads : first.all (fun first => a.links.all (· == first)) = true) :
    Sound key { a with book := after } := by
  rcases recast with ⟨-, same⟩ | ⟨cursor, rfl, place, start⟩
  · exact sound.refind same
  refine ⟨.inr ⟨cursor, place⟩, ?_, sound.fair⟩
  cases sound.stage with
  | idle waiting links retries lookup =>
      refine .idle waiting links retries ?_
      rcases lookup with none | ⟨asks, multiaddr, before, lookups, _⟩
      · exact .inl none
      · exact .inr ⟨asks, multiaddr, cursor, lookups, place⟩
  | resolving waiting resolving lookups links retries =>
      exact .resolving waiting resolving lookups links retries place (Cursor.covered_of_start start)
  | retrying waiting resolving lookups links retries =>
      exact .retrying waiting resolving lookups links retries place (Cursor.covered_of_start start)
  | @dialing dialed waiting resolving lookups links retries _ _ own =>
      have same : dialed.current = cursor.current := by simpa [links] using leads
      rw [same] at links own
      exact .dialing waiting resolving lookups links retries place (Cursor.covered_of_start start) own

theorem elsewhere_sound (sound : Sound key a) {call : DialBook.Call}
    (spared : a.book.spares key call = true) (now : Int) :
    Sound key { a with book := (a.book.call call now).1 } := by
  rcases DialBook.call_spares spared now with same | ⟨multiaddr, endpoint, same⟩
  · exact sound.refind same
  · rw [same]
    have stays (cursor : Cursor String) (place : a.book.At key cursor) :=
      place.setResolution multiaddr endpoint now
    apply sound.rebook
    · rcases sound.placed with missing | ⟨cursor, place⟩
      · left
        rw [DialBook.find_setResolution, missing]
        rfl
      · exact .inr ⟨cursor, stays cursor place⟩
    · exact stays

/-- Another waiter joins an attempt, or the first one joins a lookup that was left over. -/
theorem join_sound (sound : Sound key a) (busy : (a.resolving || !a.links.isEmpty) = true)
    (fresh : (a.waiting || (a.book.find key).all fun record => record.dialIndex == 0) = true) :
    Sound key a.joinWaiters := by
  refine ⟨sound.placed, ?_, sound.fair⟩
  have joined (waiting : a.waiting = true) : a.joinWaiters = a := by
    unfold joinWaiters
    rw [waiting]
    exact congrArg (fun waiting => { a with waiting := waiting }) waiting.symm
  cases sound.stage with
  | idle waiting links retries lookup =>
      rcases lookup with ⟨none, -⟩ | ⟨asks, multiaddr, cursor, lookups, place⟩
      · simp [none, links] at busy
      · refine .resolving rfl asks lookups links retries place ?_
        obtain ⟨record, found, reads⟩ := place
        have start : record.dialIndex = 0 := by simpa [waiting, found] using fresh
        exact Cursor.covered_of_start (reads.index.symm.trans start)
  | resolving waiting resolving lookups links retries place covered =>
      rw [joined waiting]
      exact .resolving waiting resolving lookups links retries place covered
  | dialing waiting resolving lookups links retries place covered own =>
      rw [joined waiting]
      exact .dialing waiting resolving lookups links retries place covered own
  | retrying waiting resolving lookups links retries place covered =>
      rw [joined waiting]
      exact .retrying waiting resolving lookups links retries place covered

theorem startAssociation_sound (sound : Sound key a) (around : DialAround)
    (free : (a.resolving || !a.links.isEmpty) = false)
    (alone : (a.retries == 0 || !a.mayDial key around) = true) :
    Sound key (a.startAssociation key around) := by
  have erased : (a.book.eraseExpiredBackoff key around.steadyMs).find key = a.book.find key := by
    unfold DialBook.eraseExpiredBackoff
    split
    · split
      · rfl
      · rfl
    · rfl
  unfold startAssociation
  by_cases known : a.book.contains key = true
  case neg =>
    rw [if_pos (by simpa using known)]
    exact sound
  by_cases backoff : a.book.inBackoff key around.steadyMs = true
  case pos =>
    rw [if_neg (by simpa using known), if_pos backoff]
    exact sound
  rw [if_neg (by simpa using known), if_neg backoff]
  dsimp only
  by_cases full : around.full = true
  case pos =>
    rw [if_pos full]
    exact sound.refind erased
  rw [if_neg full]
  have once : a.retries = 0 := by simpa [mayDial, known, backoff, full] using alone
  obtain ⟨resolving, links⟩ : a.resolving = false ∧ a.links = [] := by simpa using free
  have quiet : a.Quiet := by
    cases sound.stage with
    | idle _ _ _ lookup =>
        rcases lookup with ⟨-, lookups⟩ | ⟨asks, -⟩
        · exact ⟨resolving, lookups, links, once⟩
        · rw [resolving] at asks
          cases asks
    | resolving _ asks =>
        rw [resolving] at asks
        cases asks
    | dialing _ _ lookups => exact ⟨resolving, lookups, links, once⟩
    | retrying _ _ lookups => exact ⟨resolving, lookups, links, once⟩
  have placed := sound.placed
  rcases placed with missing | ⟨cursor, record, found, reads⟩
  · unfold DialBook.contains at known
    rw [missing] at known
    cases known
  · have place : (a.book.eraseExpiredBackoff key around.steadyMs).At key cursor :=
      ⟨record, erased.trans found, reads⟩
    apply beginDial_sound
    · exact ⟨quiet.resolving, quiet.lookups, quiet.links, quiet.retries⟩
    · rfl
    · exact place.resetDialIndex around.steadyMs
    · exact Cursor.covered_of_start rfl
    · exact sound.fair

theorem abort_sound (sound : Sound key a) (around : DialAround) :
    Sound key (a.abortInflightDial key around) := by
  have none (links : a.links = []) : a.abortInflightDial key around =
      { a with book := a.book.clearBackoff key, retries := 0, waiting := false } := by
    unfold abortInflightDial
    simp only [links, List.getLast?_nil]
  cases sound.stage with
  | idle waiting links retries lookup =>
      rw [none links]
      exact ⟨sound.placed, .idle rfl links rfl lookup, sound.fair⟩
  | resolving waiting resolving lookups links retries place =>
      rw [none links]
      exact ⟨sound.placed, .idle rfl links rfl (.inr ⟨resolving, _, _, lookups, place⟩), sound.fair⟩
  | retrying waiting resolving lookups links retries place =>
      rw [none links]
      exact ⟨sound.placed, .idle rfl links rfl (.inl ⟨resolving, lookups⟩), sound.fair⟩
  | @dialing cursor waiting resolving lookups links retries place =>
      have place : ((a.book.clearBackoff key).decConcurrentDials.forgetResolution key).At key cursor :=
        DialBook.At.forgetResolution place
      have reset := place.resetDialIndex around.steadyMs
      unfold abortInflightDial
      simp only [links, List.getLast?_singleton, dialFailed, Bool.not_true, Bool.false_and,
        Bool.false_eq_true, if_false, if_true, List.erase_cons_head]
      exact ⟨.inr ⟨_, reset⟩, .idle rfl rfl rfl (.inl ⟨resolving, lookups⟩), sound.fair⟩

theorem retry_sound (sound : Sound key a) (around : DialAround) (due : a.retries ≠ 0) :
    Sound key (a.retry key around) := by
  cases sound.stage with
  | idle _ _ retries => exact absurd retries due
  | resolving _ _ _ _ retries => exact absurd retries due
  | dialing _ _ _ _ retries => exact absurd retries due
  | retrying waiting resolving lookups links retries place covered =>
      unfold retry
      dsimp only
      rw [if_pos waiting]
      have done : a.retries - 1 = 0 := by omega
      apply beginDial_sound
      · exact ⟨resolving, lookups, links, done⟩
      · exact waiting
      · exact place
      · exact covered
      · exact sound.fair

end Calls

variable [RejectsBlank]

/-- Every call that disturbs nothing keeps the attempt sound. -/
theorem step_sound {event : DialEvent} (calm : a.undisturbed key event = true) (sound : Sound key a) :
    Sound key (a.step key event) := by
  cases event with
  | ensureAssociation around =>
      show Sound key (a.ensureAssociation key around)
      unfold ensureAssociation
      dsimp only [undisturbed] at calm
      by_cases associated : around.associated = true
      · rw [if_pos associated]
        exact sound
      · rw [if_neg associated]
        rw [Bool.eq_false_of_not_eq_true associated, Bool.false_or] at calm
        by_cases busy : (a.resolving || !a.links.isEmpty) = true
        · rw [if_pos busy] at calm ⊢
          exact join_sound sound busy calm
        · rw [if_neg busy] at calm ⊢
          exact startAssociation_sound sound around (Bool.eq_false_of_not_eq_true busy) calm
  | abortInflightDial around => exact abort_sound sound around
  | registerEndpoint multiaddr now =>
      exact sound.recast (DialBook.registerEndpoint_recast sound.placed multiaddr now) calm
  | registerEndpoints multiaddrs now =>
      exact sound.recast (DialBook.registerEndpoints_recast key multiaddrs now) calm
  | ingestRemoteAddrs peerId addrs now =>
      exact sound.recast (DialBook.ingest_recast sound.placed peerId addrs now) calm
  | hostResolved multiaddr result around =>
      show Sound key (if multiaddr ∈ a.lookups then _ else a)
      split
      · rename_i asked
        exact onHostResolved_sound sound asked result around
      · exact sound
  | retry around =>
      show Sound key (if a.retries = 0 then a else _)
      split
      · exact sound
      · rename_i due
        exact retry_sound sound around due
  | linkFailed multiaddr around =>
      show Sound key (if multiaddr ∈ a.links then _ else a)
      split
      · rename_i flies
        exact dialFailed_sound sound flies around
      · exact sound
  | linkConnected multiaddr around =>
      show Sound key (if multiaddr ∈ a.links then _ else a)
      split
      · rename_i flies
        exact dialSucceeded_sound sound flies around
      · exact sound
  | elsewhere call now =>
      show Sound key (if a.book.spares key call then _ else a)
      split
      · rename_i spared
        exact elsewhere_sound sound spared now
      · exact sound
  | rehash order => exact sound.refind rfl

/-- A manager that knows no key yet. -/
def created (hostResolutionTtl : Int) : DialAttempt := { book := { hostResolutionTtl } }

omit [RejectsBlank] in
theorem created_sound (hostResolutionTtl : Int) : Sound key (created hostResolutionTtl) where
  placed := .inl rfl
  stage := .idle rfl rfl rfl (.inl ⟨rfl, rfl⟩)
  fair := fun _ among => absurd among List.not_mem_nil

/-- A run in which no call disturbs an attempt. -/
abbrev CalmRun (key : DialKey) (start : DialAttempt) (events : List DialEvent) : Prop :=
  Run.Meets (step key) (fun a event => a.undisturbed key event = true) start events

/-- In a run that disturbs no attempt the attempts stay sound. -/
theorem run_sound (sound : Sound key a) (events : List DialEvent) (calm : CalmRun key a events) :
    Sound key (Run.exec (step key) a events) :=
  Run.invariant (step key) _ (Sound key) (fun _ _ => step_sound) events a calm sound

/-- Once a candidate is put before the one being dialed, the link that connects makes the wrong
one first. -/
theorem overtaken_unfair (sound : Sound key a) {dialed : String} (flies : dialed ∈ a.links)
    {event : DialEvent} {first : String} (leads : leading key a.book event = some first)
    (other : first ≠ dialed) (around : DialAround) :
    ∃ ending ∈ ((a.step key event).step key (.linkConnected dialed around)).endings,
      ¬ FairEnding ending := by
  have recast : ∃ after, a.step key event = { a with book := after } ∧
      DialBook.Recast a.book after key (some first) := by
    cases event with
    | registerEndpoint multiaddr now =>
        refine ⟨_, rfl, ?_⟩
        rw [← leads]
        exact DialBook.registerEndpoint_recast sound.placed multiaddr now
    | registerEndpoints multiaddrs now =>
        refine ⟨_, rfl, ?_⟩
        rw [← leads]
        exact DialBook.registerEndpoints_recast key multiaddrs now
    | ingestRemoteAddrs peerId addrs now =>
        refine ⟨_, rfl, ?_⟩
        rw [← leads]
        exact DialBook.ingest_recast sound.placed peerId addrs now
    | _ => cases leads
  obtain ⟨after, stepped, ⟨none, -⟩ | ⟨cursor, same, place, -⟩⟩ := recast
  · cases none
  rw [stepped]
  have place : ({ a with book := after } : DialAttempt).book.At key cursor := place
  obtain ⟨-, -, endings⟩ := dialSucceeded_endings place dialed around
  show ∃ ending ∈ DialAttempt.endings (if dialed ∈ a.links then _ else _), _
  rw [if_pos flies, endings]
  refine ⟨_, List.mem_append_right _ List.mem_cons_self, fun fair => other ?_⟩
  rw [Option.some.inj same]
  exact Option.some.inj fair

end DialAttempt

open DialAttempt in
/-- Where no call disturbs an attempt, an attempt that gives up has tried every candidate of the
key, and one that succeeds puts first the candidate that was dialed; a call that then does put
another candidate before the one being dialed leads to a success that puts the wrong one first. -/
theorem attempts_end_fairly [Inet] (key : DialKey) (hostResolutionTtl : Int) (events : List DialEvent)
    (calm : CalmRun key (created hostResolutionTtl) events) :
    let a := Run.exec (step key) (created hostResolutionTtl) events
    (∀ ending ∈ a.endings, FairEnding ending) ∧
      ∀ dialed ∈ a.links, ∀ event first, leading key a.book event = some first → first ≠ dialed →
        ∀ around, ∃ ending ∈ ((a.step key event).step key (.linkConnected dialed around)).endings,
          ¬ FairEnding ending := by
  have sound := run_sound (created_sound hostResolutionTtl) events calm
  refine ⟨sound.fair, ?_⟩
  intro dialed flies event first leads other around
  exact overtaken_unfair sound flies leads other around

section Sample

open DialAttempt

attribute [local instance] sampleInet

def sampleLan : String := "/ip4/198.51.100.7/udp/4001/adp/2/p2p/12D3relay"
def sampleWan : String := "/ip4/198.51.100.9/udp/4001/adp/2/p2p/12D3relay"

/-- The first address fails, and the second connects. -/
def secondConnects : List DialEvent :=
  [.registerEndpoints [sampleLan, sampleWan] 0, .ensureAssociation {}, .linkFailed sampleLan {},
    .retry {}, .linkConnected sampleWan {}]

theorem attempts_end_fairly_sample : CalmRun "relay" (created 60000) secondConnects ∧
    ∀ ending ∈ (Run.exec (step "relay") (created 60000) secondConnects).endings, FairEnding ending := by
  have calm : CalmRun "relay" (created 60000) secondConnects := by decide +kernel
  exact ⟨calm, (attempts_end_fairly "relay" 60000 secondConnects calm).1⟩

/-- While the only address known is dialed, another one takes its place. -/
def replacedWhileDialing : List DialEvent :=
  [.registerEndpoint sampleLan 0, .ensureAssociation {}, .registerEndpoints [sampleWan] 1]

/-- The address registered last is never dialed, and yet the attempt gives up when the link fails
and puts it first when the link connects. -/
theorem replaced_untried :
    (Run.exec (step "relay") (created 60000) (replacedWhileDialing ++
      [.linkFailed sampleLan {}])).endings = [.exhausted [sampleWan] [sampleLan]] ∧
    (Run.exec (step "relay") (created 60000) (replacedWhileDialing ++
      [.linkConnected sampleLan {}])).endings = [.connected sampleLan (some sampleWan)] ∧
    ¬ FairEnding (.exhausted [sampleWan] [sampleLan]) ∧
    ¬ FairEnding (.connected sampleLan (some sampleWan)) := by
  refine ⟨by decide +kernel, by decide +kernel, ?_, ?_⟩
  · intro tried
    exact absurd (tried List.mem_cons_self) (by decide)
  · intro same
    exact absurd (Option.some.inj same) (by decide)

end Sample

end Amp
