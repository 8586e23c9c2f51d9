import Amp.Link.LinkVerifier
import Amp.Link.LinkCapacity

set_option autoImplicit false

/- Every question of `VerifyLink` is answered once, and on good ground. -/
namespace Amp

/-- What the answer to a question says is so. A later answer is about the link that the question
was about. -/
def VerifyAnswer.Founded (m : PeerLinkManager) (question : VerifyQuestion) (answer : VerifyAnswer) : Prop :=
  match answer.ground with
  | .asked =>
      match question.link with
      | none => answer.alive = false
      | some link => answer.alive = true ∧
          (link.isCarrierBacked = true ∨ 0 < link.association.lastAuthRxMs ∧
            question.nowMs - link.association.lastAuthRxMs ≤ question.heardWithinMs)
  | .probed link => answer.alive = true ∧ question.link.map PeerLink.id = some link.id ∧
      link.suspectSinceMs ≠ 0 ∧ link.suspectSinceMs < link.association.lastAuthRxMs
  | .dropped id => answer.alive = false ∧ question.link.map PeerLink.id = some id ∧
      ∃ drop ∈ m.drops, drop.1.id = id

theorem VerifyAnswer.Founded.later {m now : PeerLinkManager} {question : VerifyQuestion}
    {answer : VerifyAnswer} (founded : answer.Founded m question)
    (more : ∀ drop ∈ m.drops, drop ∈ now.drops) : answer.Founded now question := by
  obtain ⟨call, alive, ground⟩ := answer
  cases ground with
  | asked => exact founded
  | probed link => exact founded
  | dropped id =>
      obtain ⟨dead, about, drop, listed, same⟩ := founded
      exact ⟨dead, about, drop, more drop listed, same⟩

namespace LinkVerifier

open PeerLinkManager (answered clearSuspect)

/-- A suspect link was heard, or has been silent for the grace. -/
def Decided (m : PeerLinkManager) (link : PeerLink) : Prop :=
  link.suspectSinceMs < link.association.lastAuthRxMs ∨
    m.limits.networkChangeGraceMs ≤ m.around.nowMs - link.suspectSinceMs

/-- The call of this number was about this link. -/
def About (this : LinkVerifier) (call : Nat) (id : LinkId) : Prop :=
  ∃ question, this.questions[call]? = some question ∧ question.link.map PeerLink.id = some id

/-- No question is answered twice; one that is not waits for the link that it is about, which is
suspect, and no longer than until a Tick finds that link decided; every answer is founded; and the
manager goes through its own calls. -/
structure AnswersOnce (this : LinkVerifier) : Prop where
  once : (this.answers.map VerifyAnswer.call).Nodup
  pending : ∀ call < this.asked, call ∉ this.answers.map VerifyAnswer.call →
    ∃ id link, (id, call) ∈ this.verifyWaiters ∧ this.About call id ∧
      this.manager.table.findById id = some link ∧ link.suspectSinceMs ≠ 0
  ticked : ∀ id call link, (id, call) ∈ this.verifyWaiters →
    this.manager.table.findById id = some link → link.connected = true →
    Decided this.manager link → call ∈ this.tick.answers.map VerifyAnswer.call
  founded : ∀ answer ∈ this.answers, ∃ question,
    this.questions[answer.call]? = some question ∧ answer.Founded this.manager question
  asks : ∀ key heardWithinMs, (this.verifyLink key heardWithinMs).questions = this.questions ++
    [⟨this.manager.resolveConnectedLink key, this.manager.around.nowMs, heardWithinMs⟩]
  verifies : ∀ key heardWithinMs,
    (this.verifyLink key heardWithinMs).manager = this.manager.verifyLink key heardWithinMs
  drops : ∀ handle reason,
    (this.dropLinkByHandle handle reason).manager = this.manager.dropLinkByHandle handle reason
  closes : this.closeAllLinks.manager = this.manager.closeAllLinks
  walks : this.tick.manager = this.manager.evict

/-- The clock stands past zero. -/
def Clocked (_ : LinkVerifier) : VerifyEvent → Prop
  | .surroundings around => 0 < around.nowMs
  | _ => True

structure Sound (this : LinkVerifier) : Prop where
  clock : 0 < this.manager.around.nowMs
  unique : (this.manager.table.links.map PeerLink.id).Nodup
  old : ∀ link ∈ this.manager.table.links, link.id ≤ this.manager.table.nextId
  waits : ∀ waiter ∈ this.verifyWaiters, ∃ link ∈ this.manager.table.links,
    link.id = waiter.1 ∧ link.isCarrierBacked = false ∧ link.suspectSinceMs ≠ 0
  about : ∀ waiter ∈ this.verifyWaiters, this.About waiter.2 waiter.1
  accounts : (this.verifyWaiters.map Prod.snd ++ this.answers.map VerifyAnswer.call).Perm
    (List.range this.asked)
  founded : ∀ answer ∈ this.answers, ∃ question,
    this.questions[answer.call]? = some question ∧ answer.Founded this.manager question

section Manager

variable {m : PeerLinkManager}

/-- `orphanCarriers` of one link. -/
def orphaned (id : LinkId) (link : PeerLink) : PeerLink :=
  if link.carrierVia = some id then { link with carrierClosed := true } else link

theorem orphaned_keeps (id : LinkId) (link : PeerLink) : (orphaned id link).handle = link.handle ∧
    (orphaned id link).isCarrierBacked = link.isCarrierBacked ∧
    (orphaned id link).suspectSinceMs = link.suspectSinceMs := by
  unfold orphaned
  split
  · exact ⟨rfl, rfl, rfl⟩
  · exact ⟨rfl, rfl, rfl⟩

theorem orphaned_id (id : LinkId) (link : PeerLink) : (orphaned id link).id = link.id :=
  congrArg LinkHandle.id (orphaned_keeps id link).1

theorem unindex_keeps (table : LinkTable) (key : DialKey) (id : LinkId) :
    (table.unindex key id).links = table.links ∧
      (table.unindex key id).nextId = table.nextId := by
  unfold LinkTable.unindex
  split
  · exact ⟨rfl, rfl⟩
  · exact ⟨rfl, rfl⟩

theorem eraseById_links {table : LinkTable} {id : LinkId} {link : PeerLink}
    (found : table.findById id = some link) :
    (table.eraseById id).links = table.links.filter fun other => other.id != id := by
  unfold LinkTable.eraseById
  rw [found]
  dsimp only
  split
  · rw [(unindex_keeps table link.peerKey id).1]
  · show List.filter _ (table.unindex link.peerKey id).links = _
    rw [(unindex_keeps table link.peerKey id).1]

theorem eraseById_nextId (table : LinkTable) (id : LinkId) :
    (table.eraseById id).nextId = table.nextId := by
  unfold LinkTable.eraseById
  split
  · rfl
  · rename_i link found
    dsimp only
    split
    · exact (unindex_keeps table link.peerKey id).2
    · exact (unindex_keeps table link.peerKey id).2

theorem dropLinkNow_links {link : PeerLink} (found : m.table.findById link.id = some link)
    (reason : LinkDropReason) : (m.dropLinkNow link reason).table.links =
      (m.table.links.map (orphaned link.id)).filter fun other => other.id != link.id := by
  have held : (m.orphanCarriers link.id).table.findById link.id =
      some (orphaned link.id link) := by
    show List.find? _ (m.table.links.map (orphaned link.id)) = _
    have same : ((fun other : PeerLink => other.id == link.id) ∘ orphaned link.id) =
        fun other => other.id == link.id := by
      funext other
      show ((orphaned link.id other).id == link.id) = _
      rw [orphaned_id]
    rw [List.find?_map, same]
    exact congrArg (Option.map (orphaned link.id)) found
  exact eraseById_links held

theorem mem_dropLinkNow {link after : PeerLink} (found : m.table.findById link.id = some link)
    (reason : LinkDropReason) : after ∈ (m.dropLinkNow link reason).table.links ↔
      ∃ before ∈ m.table.links, before.id ≠ link.id ∧ orphaned link.id before = after := by
  rw [dropLinkNow_links found, List.mem_filter, List.mem_map]
  constructor
  · rintro ⟨⟨before, held, rfl⟩, other⟩
    rw [orphaned_id, bne_iff_ne] at other
    exact ⟨before, held, other, rfl⟩
  · rintro ⟨before, held, other, rfl⟩
    apply And.intro ⟨before, held, rfl⟩
    rw [orphaned_id, bne_iff_ne]
    exact other

theorem findById_of_unique (unique : (m.table.links.map PeerLink.id).Nodup) {link : PeerLink}
    (held : link ∈ m.table.links) : m.table.findById link.id = some link := by
  have there : (m.table.findById link.id).isSome := by
    rw [LinkTable.findById, List.find?_isSome]
    exact ⟨link, held, by simp⟩
  obtain ⟨other, found⟩ := Option.isSome_iff_exists.mp there
  obtain ⟨mem, same⟩ := PeerLinkManager.findById_some found
  rw [found, List.inj_on_of_nodup_map unique mem held same]

theorem mem_forEach {link : PeerLink} : link ∈ m.table.forEach ↔ link ∈ m.table.links :=
  (m.table.order.perm m.table.links).mem_iff

theorem resolveConnectedLink_some {key : DialKey} {link : PeerLink}
    (found : m.resolveConnectedLink key = some link) : link ∈ m.table.links := by
  have toPeer : ∀ fits : PeerLink → Bool, m.table.forEach.find? fits = some link →
      link ∈ m.table.links :=
    fun fits named => mem_forEach.mp (List.mem_of_find?_eq_some named)
  unfold PeerLinkManager.resolveConnectedLink at found
  split at found
  · cases found
  · rcases Option.or_eq_some_iff.mp found with direct | ⟨_, other⟩
    · obtain ⟨named, _⟩ := Option.filter_eq_some_iff.mp direct
      exact (PeerLinkManager.findById_some (PeerLinkManager.findByDialKey_some named).2).1
    · rcases Option.or_eq_some_iff.mp other with adp | ⟨_, carrier⟩
      · exact toPeer _ adp
      · exact toPeer _ carrier

end Manager

section Steps

variable {this : LinkVerifier} {m now : PeerLinkManager}

/-- What a call of the manager leaves to the questions about the links it spares. -/
structure Spares (m now : PeerLinkManager) (spared : LinkId → Prop) : Prop where
  clock : 0 < now.around.nowMs
  unique : (now.table.links.map PeerLink.id).Nodup
  old : ∀ link ∈ now.table.links, link.id ≤ now.table.nextId
  suspect : ∀ link ∈ m.table.links, link.isCarrierBacked = false → link.suspectSinceMs ≠ 0 →
    spared link.id → ∃ after ∈ now.table.links, after.id = link.id ∧
      after.isCarrierBacked = false ∧ after.suspectSinceMs ≠ 0
  drops : ∀ drop ∈ m.drops, drop ∈ now.drops

theorem Sound.spared (sound : this.Sound) {spared : LinkId → Prop}
    (spares : Spares this.manager now spared)
    (all : ∀ waiter ∈ this.verifyWaiters, spared waiter.1) :
    { this with manager := now }.Sound where
  clock := spares.clock
  unique := spares.unique
  old := spares.old
  waits waiter waiting := by
    obtain ⟨link, held, same, adp, suspect⟩ := sound.waits waiter waiting
    obtain ⟨after, there, sameId, kept⟩ := spares.suspect link held adp suspect
      (same ▸ all waiter waiting)
    exact ⟨after, there, sameId.trans same, kept⟩
  about := sound.about
  accounts := sound.accounts
  founded answer listed := by
    obtain ⟨question, found, founded⟩ := sound.founded answer listed
    exact ⟨question, found, founded.later spares.drops⟩

theorem answered_accounts (this : LinkVerifier) (id : LinkId) (alive : Bool)
    (ground : VerifyGround) :
    ((this.answerVerifyWaiters id alive ground).verifyWaiters.map Prod.snd ++
      (this.answerVerifyWaiters id alive ground).answers.map VerifyAnswer.call).Perm
    (this.verifyWaiters.map Prod.snd ++ this.answers.map VerifyAnswer.call) := by
  have parts := List.filter_append_perm (fun waiter : LinkId × Nat => waiter.1 != id)
    this.verifyWaiters
  simp only [bne, Bool.not_not] at parts
  have calls := parts.map Prod.snd
  rw [List.map_append] at calls
  have posted : (this.answerVerifyWaiters id alive ground).answers.map VerifyAnswer.call =
      this.answers.map VerifyAnswer.call ++
        (this.verifyWaiters.filter fun waiter => waiter.1 == id).map Prod.snd := by
    show List.map _ (this.answers ++ List.map _ _) = _
    rw [List.map_append, List.map_map]
    rfl
  rw [posted]
  apply (List.perm_append_comm.append_left _).trans
  rw [← List.append_assoc]
  exact calls.append_right _

theorem Sound.kept (sound : this.Sound) (spares : Spares this.manager now fun _ => True) :
    { this with manager := now }.Sound :=
  sound.spared spares fun _ _ => trivial

/-- The links and drops stay, whatever else of the manager changes. -/
theorem Sound.same (sound : this.Sound) (links : now.table.links = this.manager.table.links)
    (nextId : now.table.nextId = this.manager.table.nextId)
    (drops : now.drops = this.manager.drops) (clock : 0 < now.around.nowMs) :
    { this with manager := now }.Sound := by
  apply sound.kept
  constructor
  · exact clock
  · rw [links]
    exact sound.unique
  · rw [links, nextId]
    exact sound.old
  · rw [links]
    exact fun link held adp suspect _ => ⟨link, held, rfl, adp, suspect⟩
  · rw [drops]
    exact fun _ listed => listed

/-- `AnswerVerifyWaiters` with the change of the manager that it comes with. -/
theorem Sound.answered (sound : this.Sound) {id : LinkId} {alive : Bool} {ground : VerifyGround}
    (spares : Spares this.manager now (· ≠ id))
    (founded : ∀ call question, question.link.map PeerLink.id = some id →
      (VerifyAnswer.mk call alive ground).Founded now question) :
    { this.answerVerifyWaiters id alive ground with manager := now }.Sound where
  clock := spares.clock
  unique := spares.unique
  old := spares.old
  waits waiter waiting := by
    obtain ⟨before, other⟩ := List.mem_filter.mp waiting
    rw [bne_iff_ne] at other
    obtain ⟨link, held, same, adp, suspect⟩ := sound.waits waiter before
    obtain ⟨after, there, sameId, kept⟩ := spares.suspect link held adp suspect (same ▸ other)
    exact ⟨after, there, sameId.trans same, kept⟩
  about waiter waiting := sound.about waiter (List.mem_filter.mp waiting).1
  accounts := (answered_accounts this id alive ground).trans sound.accounts
  founded answer listed := by
    rcases List.mem_append.mp listed with before | new
    · obtain ⟨question, found, founded⟩ := sound.founded answer before
      exact ⟨question, found, founded.later spares.drops⟩
    · obtain ⟨waiter, waiting, rfl⟩ := List.mem_map.mp new
      obtain ⟨waits, same⟩ := List.mem_filter.mp waiting
      obtain ⟨question, found, about⟩ := sound.about waiter waits
      rw [beq_iff_eq.mp same] at about
      exact ⟨question, found, founded waiter.2 question about⟩

theorem Sound.stays (sound : this.Sound) (spared : LinkId → Prop) :
    Spares this.manager this.manager spared where
  clock := sound.clock
  unique := sound.unique
  old := sound.old
  suspect link held adp suspect _ := ⟨link, held, rfl, adp, suspect⟩
  drops _ listed := listed

/-- A change to every link that keeps who it is. -/
theorem Sound.mapped (sound : this.Sound) (change : PeerLink → PeerLink) {spared : LinkId → Prop}
    (links : now.table.links = this.manager.table.links.map change)
    (id : ∀ link, (change link).id = link.id)
    (suspect : ∀ link ∈ this.manager.table.links, link.isCarrierBacked = false →
      link.suspectSinceMs ≠ 0 → spared link.id →
      (change link).isCarrierBacked = false ∧ (change link).suspectSinceMs ≠ 0)
    (clock : 0 < now.around.nowMs) (nextId : now.table.nextId = this.manager.table.nextId)
    (drops : now.drops = this.manager.drops) : Spares this.manager now spared where
  clock := clock
  unique := by
    have ids : now.table.links.map PeerLink.id = this.manager.table.links.map PeerLink.id := by
      rw [links, List.map_map]
      exact List.map_congr_left fun link _ => id link
    rw [ids]
    exact sound.unique
  old link held := by
    rw [links] at held
    obtain ⟨before, listed, rfl⟩ := List.mem_map.mp held
    rw [id before, nextId]
    exact sound.old before listed
  suspect link held adp isSuspect isSpared := by
    refine ⟨change link, ?_, id link, suspect link held adp isSuspect isSpared⟩
    rw [links]
    exact List.mem_map_of_mem held
  drops drop listed := drops ▸ listed

/-- One link is changed where it stands. -/
theorem Sound.modified (sound : this.Sound) {id : LinkId} {change : PeerLink → PeerLink}
    (same : ∀ link, (change link).id = link.id)
    (suspect : ∀ link, link.isCarrierBacked = false → link.suspectSinceMs ≠ 0 →
      (change link).isCarrierBacked = false ∧ (change link).suspectSinceMs ≠ 0)
    (spared : LinkId → Prop) :
    Spares this.manager (this.manager.modifyLink id change) spared := by
  apply sound.mapped (fun link => if link.id = id then change link else link) rfl
  · intro link
    split
    · exact same link
    · rfl
  · intro link _ adp isSuspect _
    split
    · exact suspect link adp isSuspect
    · exact ⟨adp, isSuspect⟩
  · exact sound.clock
  · rfl
  · rfl

theorem Sound.dropped (sound : this.Sound) {link : PeerLink}
    (found : this.manager.table.findById link.id = some link) (reason : LinkDropReason) :
    Spares this.manager (this.manager.dropLinkNow link reason) (· ≠ link.id) where
  clock := sound.clock
  unique := by
    rw [dropLinkNow_links found]
    apply List.Nodup.sublist (List.filter_sublist.map PeerLink.id)
    rw [List.map_map]
    have ids : PeerLink.id ∘ orphaned link.id = PeerLink.id := funext (orphaned_id link.id)
    rw [ids]
    exact sound.unique
  old after held := by
    obtain ⟨before, listed, _, rfl⟩ := (mem_dropLinkNow found reason).mp held
    rw [orphaned_id]
    have kept : (this.manager.dropLinkNow link reason).table.nextId =
        this.manager.table.nextId := eraseById_nextId _ link.id
    rw [kept]
    exact sound.old before listed
  suspect other held adp isSuspect isSpared := by
    obtain ⟨_, transport, suspect⟩ := orphaned_keeps link.id other
    refine ⟨orphaned link.id other, (mem_dropLinkNow found reason).mpr
      ⟨other, held, isSpared, rfl⟩, orphaned_id link.id other, ?_, ?_⟩
    · rw [transport, adp]
    · rwa [suspect]
  drops drop listed := List.mem_append_left _ listed

theorem Sound.dropLinkByHandle (sound : this.Sound) (handle : LinkHandle)
    (reason : LinkDropReason) : (this.dropLinkByHandle handle reason).Sound := by
  unfold LinkVerifier.dropLinkByHandle
  split
  · exact sound
  · rename_i link found
    have held := (PeerLinkManager.findLive_some found).1
    apply sound.answered (sound.dropped held reason)
    intro call question about
    exact ⟨rfl, about, (link, reason), List.mem_append_right _ (List.mem_singleton_self _), rfl⟩

theorem Sound.dropAll (sound : this.Sound) (drops : List (LinkHandle × LinkDropReason)) :
    (this.dropAll drops).Sound := by
  induction drops generalizing this with
  | nil => exact sound
  | cons drop rest ih => exact ih (sound.dropLinkByHandle drop.1 drop.2)

/-- The links a drop leaves, each the same link as before. -/
theorem dropLinkByHandle_leaves (sound : this.Sound) (handle : LinkHandle)
    (reason : LinkDropReason) {after : PeerLink}
    (held : after ∈ (this.dropLinkByHandle handle reason).manager.table.links) :
    after.handle ≠ handle ∧ ∃ before ∈ this.manager.table.links, before.handle = after.handle := by
  unfold LinkVerifier.dropLinkByHandle at held
  split at held
  · rename_i missing
    refine ⟨?_, after, held, rfl⟩
    rintro rfl
    have found := findById_of_unique sound.unique held
    have live : this.manager.table.findLive after.handle = some after := by
      apply Option.filter_eq_some_iff.mpr
      exact ⟨found, beq_self_eq_true _⟩
    rw [missing] at live
    cases live
  · rename_i link found
    obtain ⟨byId, same⟩ := PeerLinkManager.findLive_some found
    obtain ⟨before, listed, other, rfl⟩ := (mem_dropLinkNow byId reason).mp held
    have kept := (orphaned_keeps link.id before).1
    refine ⟨?_, before, listed, kept.symm⟩
    intro equal
    apply other
    rw [kept, ← same] at equal
    exact congrArg LinkHandle.id equal

theorem dropAll_leaves (sound : this.Sound) (drops : List (LinkHandle × LinkDropReason))
    {after : PeerLink} (held : after ∈ (this.dropAll drops).manager.table.links) :
    (∀ drop ∈ drops, after.handle ≠ drop.1) ∧
      ∃ before ∈ this.manager.table.links, before.handle = after.handle := by
  induction drops generalizing this with
  | nil => exact ⟨fun drop none => absurd none List.not_mem_nil, after, held, rfl⟩
  | cons drop rest ih =>
      obtain ⟨gone, mid, listed, same⟩ := ih (sound.dropLinkByHandle drop.1 drop.2) held
      obtain ⟨first, before, earlier, sameBefore⟩ :=
        dropLinkByHandle_leaves sound drop.1 drop.2 listed
      refine ⟨?_, before, earlier, sameBefore.trans same⟩
      intro other isDrop
      rcases List.mem_cons.mp isDrop with rfl | later
      · rwa [← same]
      · exact gone other later

theorem dropLinkByHandle_waiters (handle : LinkHandle) (reason : LinkDropReason)
    {waiter : LinkId × Nat} (waiting : waiter ∈ (this.dropLinkByHandle handle reason).verifyWaiters) :
    waiter ∈ this.verifyWaiters := by
  unfold LinkVerifier.dropLinkByHandle at waiting
  split at waiting
  · exact waiting
  · exact (List.mem_filter.mp waiting).1

theorem dropAll_waiters (drops : List (LinkHandle × LinkDropReason)) {waiter : LinkId × Nat}
    (waiting : waiter ∈ (this.dropAll drops).verifyWaiters) : waiter ∈ this.verifyWaiters := by
  induction drops generalizing this with
  | nil => exact waiting
  | cons drop rest ih => exact dropLinkByHandle_waiters drop.1 drop.2 (ih waiting)

theorem dropLinkByHandle_asked (handle : LinkHandle) (reason : LinkDropReason) :
    (this.dropLinkByHandle handle reason).asked = this.asked := by
  unfold LinkVerifier.dropLinkByHandle
  split
  · rfl
  · rfl

theorem dropAll_asked (drops : List (LinkHandle × LinkDropReason)) :
    (this.dropAll drops).asked = this.asked := by
  induction drops generalizing this with
  | nil => rfl
  | cons drop rest ih => exact ih.trans (dropLinkByHandle_asked drop.1 drop.2)

/-- The walk that answers, link after link. -/
def answerEach (this : LinkVerifier) (links : List PeerLink) : LinkVerifier :=
  Run.exec (fun this (link : PeerLink) => this.answerVerifyWaiters link.id true (.probed link)) this
    links

theorem answerEach_keeps (links : List PeerLink) :
    (this.answerEach links).manager = this.manager ∧
      (this.answerEach links).asked = this.asked := by
  induction links generalizing this with
  | nil => exact ⟨rfl, rfl⟩
  | cons link rest ih =>
      have later : ((this.answerVerifyWaiters link.id true (.probed link)).answerEach
          rest).manager = this.manager ∧ _ := ih
      exact later

theorem answerEach_waiters (links : List PeerLink) {waiter : LinkId × Nat}
    (waiting : waiter ∈ (this.answerEach links).verifyWaiters) :
    waiter ∈ this.verifyWaiters ∧ ∀ link ∈ links, waiter.1 ≠ link.id := by
  induction links generalizing this with
  | nil => exact ⟨waiting, fun link none => absurd none List.not_mem_nil⟩
  | cons link rest ih =>
      obtain ⟨before, others⟩ := ih waiting
      obtain ⟨earlier, other⟩ := List.mem_filter.mp before
      refine ⟨earlier, ?_⟩
      intro later isLink
      rcases List.mem_cons.mp isLink with rfl | isLater
      · exact bne_iff_ne.mp other
      · exact others later isLater

theorem answered_iff {link : PeerLink} : answered link = true ↔ link.isCarrierBacked = false ∧
    link.connected = true ∧ link.suspectSinceMs ≠ 0 ∧ link.association.closed = false ∧
    link.suspectSinceMs < link.association.lastAuthRxMs := by
  simp [PeerLinkManager.answered, and_assoc]

theorem Sound.answerEach (sound : this.Sound) {links : List PeerLink}
    (heard : ∀ link ∈ links, PeerLinkManager.answered link = true) :
    (this.answerEach links).Sound := by
  induction links generalizing this with
  | nil => exact sound
  | cons link rest ih =>
      obtain ⟨_, _, suspect, _, rx⟩ := answered_iff.mp (heard link List.mem_cons_self)
      apply ih
      · exact sound.answered (sound.stays _) fun _ _ about => ⟨rfl, about, suspect, rx⟩
      · exact fun other later => heard other (List.mem_cons_of_mem link later)

theorem clearAnswered_eq : this.clearAnswered =
    (this.answerEach (this.manager.table.forEach.filter answered)).onManager fun m =>
      { m with table := { m.table with links := m.table.links.map clearSuspect } } := rfl

/-- The manager that the walk of `Tick` evicts from. -/
theorem clearAnswered_manager : this.clearAnswered.manager =
    { this.manager with table := { this.manager.table with
        links := this.manager.table.links.map clearSuspect } } := by
  rw [clearAnswered_eq]
  unfold onManager
  rw [(answerEach_keeps _).1]

theorem clearSuspect_keeps (link : PeerLink) : (clearSuspect link).handle = link.handle ∧
    (clearSuspect link).isCarrierBacked = link.isCarrierBacked := by
  unfold PeerLinkManager.clearSuspect
  split
  · exact ⟨rfl, rfl⟩
  · exact ⟨rfl, rfl⟩

theorem clearSuspect_id (link : PeerLink) : (clearSuspect link).id = link.id :=
  congrArg LinkHandle.id (clearSuspect_keeps link).1

theorem Sound.clearAnswered (sound : this.Sound) : this.clearAnswered.Sound := by
  rw [clearAnswered_eq]
  let links := this.manager.table.forEach.filter PeerLinkManager.answered
  have each : (this.answerEach links).Sound :=
    sound.answerEach fun link held => (List.mem_filter.mp held).2
  have same : (this.answerEach links).manager = this.manager := (answerEach_keeps links).1
  have spares : Spares (this.answerEach links).manager
      { (this.answerEach links).manager with table := { (this.answerEach links).manager.table with
          links := (this.answerEach links).manager.table.links.map clearSuspect } }
      fun id => ∀ link ∈ links, id ≠ link.id := by
    apply each.mapped clearSuspect rfl clearSuspect_id
    · intro link held adp suspect spared
      refine ⟨(clearSuspect_keeps link).2.trans adp, ?_⟩
      unfold PeerLinkManager.clearSuspect
      split
      · rename_i isAnswered
        rw [same] at held
        have listed : link ∈ links :=
          List.mem_filter.mpr ⟨mem_forEach.mpr held, isAnswered⟩
        exact absurd rfl (spared link listed)
      · exact suspect
    · exact each.clock
    · rfl
    · rfl
  exact each.spared spares fun waiter waiting => (answerEach_waiters links waiting).2

theorem Sound.tick (sound : this.Sound) : this.tick.Sound :=
  sound.clearAnswered.dropAll _

theorem tick_asked : this.tick.asked = this.asked :=
  (dropAll_asked _).trans (answerEach_keeps _).2

/-- The number of a question that waits. -/
theorem Sound.waiting_lt (sound : this.Sound) {waiter : LinkId × Nat}
    (waiting : waiter ∈ this.verifyWaiters) : waiter.2 < this.asked := by
  apply List.mem_range.mp
  apply sound.accounts.mem_iff.mp
  exact List.mem_append_left _ (List.mem_map_of_mem waiting)

/-- A question waits once. -/
theorem Sound.waits_once (sound : this.Sound) {first second : LinkId × Nat}
    (one : first ∈ this.verifyWaiters) (two : second ∈ this.verifyWaiters)
    (same : first.2 = second.2) : first = second := by
  have distinct : (this.verifyWaiters.map Prod.snd ++ this.answers.map VerifyAnswer.call).Nodup :=
    sound.accounts.nodup_iff.mpr List.nodup_range
  exact List.inj_on_of_nodup_map (List.nodup_append.mp distinct).1 one two same

/-- A question either waits or is answered. -/
theorem Sound.waits_or_answered (sound : this.Sound) {call : Nat} (asked : call < this.asked) :
    (∃ id, (id, call) ∈ this.verifyWaiters) ∨ call ∈ this.answers.map VerifyAnswer.call := by
  have listed := sound.accounts.mem_iff.mpr (List.mem_range.mpr asked)
  rcases List.mem_append.mp listed with waits | posted
  · obtain ⟨waiter, waiting, rfl⟩ := List.mem_map.mp waits
    exact .inl ⟨waiter.1, waiting⟩
  · exact .inr posted

/-- The walk of `Tick` evicts a decided suspect that it does not clear. -/
theorem evicted_of_decided {link : PeerLink} (adp : link.isCarrierBacked = false)
    (suspect : link.suspectSinceMs ≠ 0) (connected : link.connected = true)
    (decided : Decided m link) (silent : ¬ answered link = true) :
    ∃ reason, m.evictReason link = some reason := by
  have cases : link.association.closed = true ∨ link.association.closed = false ∧
      m.limits.networkChangeGraceMs ≤ m.around.nowMs - link.suspectSinceMs := by
    cases closed : link.association.closed with
    | true => exact .inl rfl
    | false =>
        rcases decided with heard | grace
        · exact absurd (answered_iff.mpr ⟨adp, connected, suspect, closed, heard⟩) silent
        · exact .inr ⟨rfl, grace⟩
  rcases cases with closed | ⟨closed, grace⟩
  · exact ⟨.connectionClosed, by simp [PeerLinkManager.evictReason, adp, connected, closed]⟩
  · refine ⟨if link.suspectFromVerify then .unresponsive else .networkChanged, ?_⟩
    simp [PeerLinkManager.evictReason, adp, connected, suspect, closed, grace]

theorem Sound.ticked (sound : this.Sound) {id : LinkId} {call : Nat} {link : PeerLink}
    (waiting : (id, call) ∈ this.verifyWaiters)
    (found : this.manager.table.findById id = some link) (connected : link.connected = true)
    (decided : Decided this.manager link) : call ∈ this.tick.answers.map VerifyAnswer.call := by
  obtain ⟨held, same⟩ := PeerLinkManager.findById_some found
  obtain ⟨other, listed, sameId, adp, suspect⟩ := sound.waits (id, call) waiting
  obtain rfl : other = link :=
    List.inj_on_of_nodup_map sound.unique listed held (sameId.trans same.symm)
  have asked : call < this.tick.asked := by
    rw [tick_asked]
    exact sound.waiting_lt waiting
  rcases sound.tick.waits_or_answered asked with ⟨later, waits⟩ | posted
  · exfalso
    -- The waiter is the one of before, so its link is still there after the walk.
    have after := dropAll_waiters _ waits
    obtain ⟨before, unheard⟩ := answerEach_waiters _ after
    cases sound.waits_once waiting before rfl
    obtain ⟨left, leftIn, leftId, _⟩ := sound.tick.waits (id, call) waits
    obtain ⟨kept, mid, midIn, midSame⟩ := dropAll_leaves sound.clearAnswered _ leftIn
    have midId : mid.id = id := (congrArg LinkHandle.id midSame).trans leftId
    rw [clearAnswered_manager] at midIn
    obtain ⟨origin, originIn, rfl⟩ := List.mem_map.mp midIn
    rw [clearSuspect_id] at midId
    obtain rfl : origin = other :=
      List.inj_on_of_nodup_map sound.unique originIn held (midId.trans same.symm)
    have silent : ¬ PeerLinkManager.answered origin = true := by
      intro isAnswered
      apply unheard origin _ midId.symm
      exact List.mem_filter.mpr ⟨mem_forEach.mpr originIn, isAnswered⟩
    have uncleared : clearSuspect origin = origin := if_neg silent
    obtain ⟨reason, evicted⟩ := evicted_of_decided adp suspect connected decided silent
    apply kept (origin.handle, reason)
    · rw [clearAnswered_manager]
      apply List.mem_filterMap.mpr
      refine ⟨origin, mem_forEach.mpr (List.mem_map.mpr ⟨origin, originIn, uncleared⟩), ?_⟩
      show (this.manager.evictReason origin).map _ = _
      rw [evicted]
      rfl
    · rw [← midSame, uncleared]
  · exact posted

theorem dropLinkByHandle_manager (handle : LinkHandle) (reason : LinkDropReason) :
    (this.dropLinkByHandle handle reason).manager =
      this.manager.dropLinkByHandle handle reason := by
  cases found : this.manager.table.findLive handle with
  | none => simp only [LinkVerifier.dropLinkByHandle, PeerLinkManager.dropLinkByHandle, found]
  | some link =>
      simp only [LinkVerifier.dropLinkByHandle, PeerLinkManager.dropLinkByHandle, found]
      rfl

theorem dropAll_manager (drops : List (LinkHandle × LinkDropReason)) :
    (this.dropAll drops).manager =
      Run.exec (fun m (drop : LinkHandle × LinkDropReason) => m.dropLinkByHandle drop.1 drop.2)
        this.manager drops := by
  induction drops generalizing this with
  | nil => rfl
  | cons drop rest ih =>
      show ((this.dropLinkByHandle drop.1 drop.2).dropAll rest).manager = _
      rw [ih, dropLinkByHandle_manager]
      rfl

/-- The walk is the end of the manager's `tick`. -/
theorem tick_manager : this.tick.manager = this.manager.evict := by
  unfold LinkVerifier.tick
  rw [dropAll_manager, clearAnswered_manager]
  rfl

theorem closeAllLinks_manager : this.closeAllLinks.manager = this.manager.closeAllLinks := by
  unfold LinkVerifier.closeAllLinks PeerLinkManager.closeAllLinks
  rw [dropAll_manager]
  exact List.foldl_map

theorem verifyLink_questions (key : DialKey) (heardWithinMs : Int) :
    (this.verifyLink key heardWithinMs).questions =
      this.questions ++ [this.question key heardWithinMs] := by
  unfold LinkVerifier.verifyLink
  dsimp only
  split
  · rfl
  · split
    · rfl
    · split
      · rfl
      · rfl

theorem verifyLink_manager (key : DialKey) (heardWithinMs : Int) :
    (this.verifyLink key heardWithinMs).manager = this.manager.verifyLink key heardWithinMs := by
  unfold LinkVerifier.verifyLink
  split
  · rename_i missing
    unfold PeerLinkManager.verifyLink
    rw [missing]
    rfl
  · rename_i link found
    dsimp only
    split
    · rename_i carrier
      unfold PeerLinkManager.verifyLink
      rw [found]
      exact (if_pos carrier).symm
    · rename_i adp
      split
      · rename_i heard
        unfold PeerLinkManager.verifyLink
        rw [found]
        exact ((if_neg adp).trans (if_pos heard)).symm
      · rfl

theorem Sound.closeAllLinks (sound : this.Sound) : this.closeAllLinks.Sound := by
  apply Sound.dropAll
  exact sound.same rfl rfl rfl sound.clock

/-- The calls before stay what they were. -/
theorem questions_append {questions : List VerifyQuestion} {call : Nat} {question : VerifyQuestion}
    (found : questions[call]? = some question) (next : VerifyQuestion) :
    (questions ++ [next])[call]? = some question := by
  have inside := (List.getElem?_eq_some_iff.mp found).1
  rw [List.getElem?_append_left inside, found]

theorem question_next (questions : List VerifyQuestion) (next : VerifyQuestion) :
    (questions ++ [next])[questions.length]? = some next := List.getElem?_concat_length

theorem asked_next (this : LinkVerifier) (next : VerifyQuestion) :
    (this.questions ++ [next]).length = this.asked + 1 := by
  rw [List.length_append]
  rfl

theorem Sound.answerNow (sound : this.Sound) {alive : Bool} {question : VerifyQuestion}
    (founded : (VerifyAnswer.mk this.asked alive .asked).Founded this.manager question) :
    (this.answerNow alive question).Sound where
  clock := sound.clock
  unique := sound.unique
  old := sound.old
  waits := sound.waits
  about waiter waiting := by
    obtain ⟨earlier, found, about⟩ := sound.about waiter waiting
    exact ⟨earlier, questions_append found question, about⟩
  accounts := by
    show (this.verifyWaiters.map Prod.snd ++
      (this.answers ++ [_]).map VerifyAnswer.call).Perm (List.range (this.questions ++ [question]).length)
    rw [asked_next, List.map_append, ← List.append_assoc, List.range_succ]
    exact sound.accounts.append_right _
  founded answer listed := by
    rcases List.mem_append.mp listed with before | new
    · obtain ⟨earlier, found, founded⟩ := sound.founded answer before
      exact ⟨earlier, questions_append found question, founded⟩
    · rw [List.mem_singleton.mp new]
      exact ⟨question, question_next this.questions question, founded⟩

theorem Sound.joinVerifyWaiters (sound : this.Sound) {link : PeerLink}
    (held : link ∈ this.manager.table.links) (adp : link.isCarrierBacked = false)
    (suspect : link.suspectSinceMs ≠ 0) {question : VerifyQuestion}
    (about : question.link.map PeerLink.id = some link.id) :
    (this.joinVerifyWaiters link.id question).Sound where
  clock := sound.clock
  unique := sound.unique
  old := sound.old
  waits waiter waiting := by
    rcases List.mem_append.mp waiting with before | new
    · exact sound.waits waiter before
    · rw [List.mem_singleton.mp new]
      exact ⟨link, held, rfl, adp, suspect⟩
  about waiter waiting := by
    rcases List.mem_append.mp waiting with before | new
    · obtain ⟨earlier, found, same⟩ := sound.about waiter before
      exact ⟨earlier, questions_append found question, same⟩
    · rw [List.mem_singleton.mp new]
      exact ⟨question, question_next this.questions question, about⟩
  accounts := by
    show ((this.verifyWaiters ++ [_]).map Prod.snd ++
      this.answers.map VerifyAnswer.call).Perm (List.range (this.questions ++ [question]).length)
    rw [asked_next, List.map_append, List.append_assoc, List.range_succ]
    apply (List.perm_append_comm.append_left _).trans
    rw [← List.append_assoc]
    exact sound.accounts.append_right _
  founded answer listed := by
    obtain ⟨earlier, found, founded⟩ := sound.founded answer listed
    exact ⟨earlier, questions_append found question, founded⟩

/-- `MarkVerifying`. -/
def markVerifying (now : Int) (link : PeerLink) : PeerLink :=
  { link with suspectSinceMs := now, suspectFromVerify := true }

theorem marked_spares (sound : this.Sound) (id : LinkId) :
    Spares this.manager (this.manager.modifyLink id (markVerifying this.manager.around.nowMs))
      fun _ => True := by
  have clock := sound.clock
  apply sound.modified
  · exact fun _ => rfl
  · intro link adp _
    refine ⟨adp, ?_⟩
    show this.manager.around.nowMs ≠ 0
    omega

theorem Sound.verifyLink (sound : this.Sound) (key : DialKey) (heardWithinMs : Int) :
    (this.verifyLink key heardWithinMs).Sound := by
  -- the question is about the link that the key leads to
  have led : (this.question key heardWithinMs).link = this.manager.resolveConnectedLink key := rfl
  unfold LinkVerifier.verifyLink
  dsimp only
  split
  · rename_i missing
    apply sound.answerNow
    simp only [VerifyAnswer.Founded, led, missing]
  · rename_i link found
    split
    · rename_i carrier
      apply sound.answerNow
      simp only [VerifyAnswer.Founded, led, found]
      exact ⟨trivial, .inl carrier⟩
    · rename_i adp
      split
      · rename_i heard
        apply sound.answerNow
        simp only [VerifyAnswer.Founded, led, found]
        exact ⟨trivial, .inr heard⟩
      · rename_i silent
        have about : (this.question key heardWithinMs).link.map PeerLink.id = some link.id := by
          rw [led, found]
          rfl
        have held := resolveConnectedLink_some found
        have isAdp : link.isCarrierBacked = false := Bool.eq_false_iff.mpr adp
        have after : this.manager.verifyLink key heardWithinMs =
            if link.suspectSinceMs ≠ 0 then this.manager
            else this.manager.modifyLink link.id
              (markVerifying this.manager.around.nowMs) := by
          unfold PeerLinkManager.verifyLink
          rw [found]
          exact (if_neg adp).trans (if_neg silent)
        show ({ this with manager := this.manager.verifyLink key heardWithinMs } :
          LinkVerifier).joinVerifyWaiters link.id (this.question key heardWithinMs) |>.Sound
        rw [after]
        split
        · rename_i suspect
          exact sound.joinVerifyWaiters held isAdp suspect about
        · have marked := sound.kept (marked_spares sound link.id)
          have listed : markVerifying this.manager.around.nowMs link ∈
              (this.manager.modifyLink link.id
                (markVerifying this.manager.around.nowMs)).table.links :=
            List.mem_map.mpr ⟨link, held, if_pos rfl⟩
          apply marked.joinVerifyWaiters listed isAdp _ about
          have clock := sound.clock
          show this.manager.around.nowMs ≠ 0
          omega

theorem Sound.networkChanged (sound : this.Sound) :
    (this.onManager PeerLinkManager.onNetworkChanged).Sound := by
  have clock := sound.clock
  let change := fun (link : PeerLink) =>
    if link.connected && !link.isCarrierBacked then
      { link with suspectSinceMs := this.manager.around.nowMs, suspectFromVerify := false }
    else link
  apply sound.kept
  apply sound.mapped change rfl
  · intro link
    dsimp only [change]
    split
    · rfl
    · rfl
  · intro link _ adp suspect _
    dsimp only [change]
    split
    · refine ⟨adp, ?_⟩
      show this.manager.around.nowMs ≠ 0
      omega
    · exact ⟨adp, suspect⟩
  · exact clock
  · rfl
  · rfl

theorem Sound.insertLink (sound : this.Sound) (link : PeerLink) :
    (this.onManager fun m => m.insertLink link).Sound := by
  apply sound.kept
  constructor
  · exact sound.clock
  · show ((this.manager.table.links ++ [_]).map PeerLink.id).Nodup
    rw [List.map_append]
    apply List.Nodup.append sound.unique (List.nodup_singleton _)
    apply List.disjoint_singleton.mpr
    intro listed
    obtain ⟨other, held, same⟩ := List.mem_map.mp listed
    have old : other.id ≤ this.manager.table.nextId := sound.old other held
    rw [same] at old
    exact Nat.not_succ_le_self _ old
  · intro other held
    show other.id ≤ this.manager.table.nextId + 1
    rcases List.mem_append.mp held with before | new
    · exact Nat.le_succ_of_le (sound.old other before)
    · rw [List.mem_singleton.mp new]
  · intro other held adp suspect _
    exact ⟨other, List.mem_append_left _ held, rfl, adp, suspect⟩
  · exact fun _ listed => listed

theorem Sound.changeLink (sound : this.Sound) (id : LinkId) (now : PeerLink) :
    (this.onManager fun m => m.modifyLink id fun link => link.becomes now).Sound := by
  apply sound.kept
  apply sound.modified
  · exact fun _ => rfl
  · exact fun _ adp suspect => ⟨adp, suspect⟩

theorem Sound.step (sound : this.Sound) {event : VerifyEvent} (clocked : Clocked this event) :
    (this.step event).Sound := by
  cases event with
  | verifyLink key heardWithinMs => exact sound.verifyLink key heardWithinMs
  | networkChanged => exact sound.networkChanged
  | dropLink handle reason => exact sound.dropLinkByHandle handle reason
  | closeAllLinks => exact sound.closeAllLinks
  | tick => exact sound.tick
  | insertLink link => exact sound.insertLink link.unsuspected
  | changeLink id now => exact sound.changeLink id now
  | other now => exact sound.same rfl rfl rfl sound.clock
  | surroundings around => exact sound.same rfl rfl rfl clocked

theorem Sound.answersOnce (sound : this.Sound) : this.AnswersOnce where
  once := by
    have distinct : (this.verifyWaiters.map Prod.snd ++ this.answers.map VerifyAnswer.call).Nodup :=
      sound.accounts.nodup_iff.mpr List.nodup_range
    exact (List.nodup_append.mp distinct).2.1
  pending call asked unanswered := by
    rcases sound.waits_or_answered asked with ⟨id, waiting⟩ | posted
    · obtain ⟨link, held, same, _, suspect⟩ := sound.waits (id, call) waiting
      have found := findById_of_unique sound.unique held
      rw [same] at found
      exact ⟨id, link, waiting, sound.about (id, call) waiting, found, suspect⟩
    · exact absurd posted unanswered
  ticked id call link waiting found connected decided :=
    sound.ticked waiting found connected decided
  founded := sound.founded
  asks := verifyLink_questions
  verifies := verifyLink_manager
  drops := dropLinkByHandle_manager
  closes := closeAllLinks_manager
  walks := tick_manager

end Steps

/-- The manager at the start of a run, at some time. -/
def create (localPeerId : String) (limits : LinkLimits) (around : Surroundings) : LinkVerifier where
  manager := { PeerLinkManager.create localPeerId limits with around := around }

theorem create_sound (localPeerId : String) (limits : LinkLimits) {around : Surroundings}
    (clock : 0 < around.nowMs) : (create localPeerId limits around).Sound where
  clock := clock
  unique := List.nodup_nil
  old _ none := absurd none List.not_mem_nil
  waits _ none := absurd none List.not_mem_nil
  about _ none := absurd none List.not_mem_nil
  accounts := List.Perm.refl _
  founded _ none := absurd none List.not_mem_nil

/-- Whatever the calls and packets and in whatever order, each question is answered once. -/
theorem every_question_answered (localPeerId : String) (limits : LinkLimits)
    (around : Surroundings) (events : List VerifyEvent) (clock : 0 < around.nowMs)
    (clocked : Run.Meets LinkVerifier.step Clocked (create localPeerId limits around) events) :
    Run.Always LinkVerifier.step AnswersOnce (create localPeerId limits around) events := by
  apply Run.always_of_invariant LinkVerifier.step Clocked Sound AnswersOnce
  · exact fun _ _ clocked sound => sound.step clocked
  · exact fun _ sound => sound.answersOnce
  · exact clocked
  · exact create_sound localPeerId limits clock

/-- A link that is asked about, heard and then asked about again, and shut down. -/
def askedTwice : List VerifyEvent :=
  let link : PeerLink := ⟨0, 0, "b", "b", true, false, .handshaking, none, 0, {}, none, false, false,
    false, 0, false⟩
  let heard : PeerLink := { link with
    phase := .connected
    association := { lastAuthRxMs := 150 } }
  [.insertLink link, .changeLink 1 { link with phase := .connected }, .verifyLink "b" 10,
    .changeLink 1 heard, .surroundings { nowMs := 200 }, .tick, .networkChanged,
    .verifyLink "b" 10, .closeAllLinks]

theorem every_question_answered_sample :
    (Run.exec LinkVerifier.step (create "a" {} { nowMs := 100 }) askedTwice).answers.map
      (fun answer => (answer.call, answer.alive)) = [(0, true), (1, false)] ∧
    Run.Always LinkVerifier.step AnswersOnce (create "a" {} { nowMs := 100 }) askedTwice := by
  constructor
  · decide
  · have later : (0 : Int) < 200 := by decide
    exact every_question_answered "a" {} { nowMs := 100 } askedTwice (by decide)
      ⟨trivial, trivial, trivial, trivial, later, trivial, trivial, trivial, trivial, trivial⟩

end LinkVerifier

end Amp
