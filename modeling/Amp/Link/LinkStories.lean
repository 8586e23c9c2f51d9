import Amp.Link.LinkEvents
import Amp.Link.VerifyAnswers

set_option autoImplicit false

/- The events of a link tell its story: it connects once if ever, its path changes while it is
connected, and its drop is the end. -/
namespace Amp

open LinkVerifier (dropLinkNow_links mem_dropLinkNow findById_of_unique eraseById_nextId)

/-- What may be told of one link, which was connected before or not. -/
def Tale : Bool → List LinkEvent → Prop
  | _, [] => True
  | connected, event :: rest =>
      match event.kind with
      | .connected => connected = false ∧ Tale true rest
      | .pathChanged => connected = true ∧ Tale true rest
      | .dialFailed => Tale connected rest
      | .dropped => event.wasConnected = connected ∧ rest = []

instance decidableTale : ∀ connected events, Decidable (Tale connected events)
  | _, [] => inferInstanceAs (Decidable True)
  | connected, event :: rest =>
      haveI := decidableTale true rest
      haveI := decidableTale connected rest
      match kind : event.kind with
      | .connected => decidable_of_iff (connected = false ∧ Tale true rest) (by rw [Tale, kind])
      | .pathChanged => decidable_of_iff (connected = true ∧ Tale true rest) (by rw [Tale, kind])
      | .dialFailed => decidable_of_iff (Tale connected rest) (by rw [Tale, kind])
      | .dropped =>
          decidable_of_iff (event.wasConnected = connected ∧ rest = []) (by rw [Tale, kind])

section Tales

variable {connected : Bool} {story : List LinkEvent} {event : LinkEvent}

def Connects (story : List LinkEvent) : Prop := ∃ event ∈ story, event.kind = .connected

instance (story : List LinkEvent) : Decidable (Connects story) :=
  inferInstanceAs (Decidable (∃ _ ∈ _, _))

def Unended (story : List LinkEvent) : Prop := ∀ event ∈ story, event.kind ≠ .dropped

/-- A tale goes on after what was told. -/
theorem Tale.append (tale : Tale connected story) (unended : Unended story)
    (more : Tale (connected || decide (Connects story)) [event]) :
    Tale connected (story ++ [event]) := by
  induction story generalizing connected with
  | nil =>
      have none : decide (Connects []) = false := by decide
      rw [none, Bool.or_false] at more
      exact more
  | cons first rest ih =>
      have later : Unended rest := fun other told => unended other (List.mem_cons_of_mem _ told)
      have never := unended first List.mem_cons_self
      rw [List.cons_append]
      unfold Tale at tale ⊢
      cases kind : first.kind with
      | connected =>
          rw [kind] at tale
          refine ⟨tale.1, ih tale.2 later ?_⟩
          have yes : Connects (first :: rest) := ⟨first, List.mem_cons_self, kind⟩
          rw [decide_eq_true yes, Bool.or_true] at more
          rw [Bool.true_or]
          exact more
      | pathChanged =>
          rw [kind] at tale
          refine ⟨tale.1, ih tale.2 later ?_⟩
          rw [tale.1, Bool.true_or] at more
          rw [Bool.true_or]
          exact more
      | dialFailed =>
          rw [kind] at tale
          refine ih tale later ?_
          have same : Connects (first :: rest) ↔ Connects rest := by
            unfold Connects
            simp [kind]
          rw [decide_eq_decide.mpr same] at more
          exact more
      | dropped => exact absurd kind never

end Tales

namespace LinkReporter

/-- What was told of a link. -/
def told (this : LinkReporter) (handle : LinkHandle) : List LinkEvent :=
  this.events.filter fun event => event.handle = handle

/-- The events tell of each link what happened to it. -/
structure TellsStories (this : LinkReporter) : Prop where
  tale : ∀ handle, Tale false (this.told handle)
  /-- A link is told connected when its handshake is over and it was adopted, and not before. -/
  connects : ∀ link ∈ this.manager.table.links, Connects (this.told link.handle) ↔
    link.id ∉ this.handshaking ∧ link.id ∉ this.adopting ∧ link.id ∉ this.refused
  gone : ∀ event ∈ this.events, event.kind = .dropped →
    this.manager.table.findLive event.handle = none
  /-- No link is forgotten: it is there, being dropped, or told dropped. -/
  whole : ∀ id, 0 < id → id ≤ this.manager.table.nextId →
    (∃ link ∈ this.manager.table.links, link.id = id) ∨
    (∃ event ∈ this.dropping, event.handle.id = id) ∨
    ∃ event ∈ this.events, event.kind = .dropped ∧ event.handle.id = id

/-- The links that are there. -/
def live (this : LinkReporter) : List LinkHandle := this.manager.table.links.map PeerLink.handle

def lastId (this : LinkReporter) : LinkId := this.manager.table.nextId

/-- What is known of a link that is there. -/
structure Tracked (this : LinkReporter) (handle : LinkHandle) : Prop where
  old : handle.id ≤ this.lastId
  unended : Unended (this.told handle)
  connected : handle.id ∈ this.connectedLinkIds ↔ Connects (this.told handle)
  handshaking : handle.id ∈ this.handshaking →
    handle.id ∉ this.adopting ∧ handle.id ∉ this.connectedLinkIds
  adopting : handle.id ∈ this.adopting → handle.id ∉ this.connectedLinkIds
  watched : handle ∈ this.watched → handle.id ∈ this.connectedLinkIds

/-- What is known of the event of a drop under way. -/
structure Awaited (this : LinkReporter) (event : LinkEvent) : Prop where
  kind : event.kind = .dropped
  old : event.handle.id ≤ this.lastId
  gone : ∀ handle ∈ this.live, handle.id ≠ event.handle.id
  unended : Unended (this.told event.handle)
  wasConnected : event.wasConnected = decide (Connects (this.told event.handle))

structure Sound (this : LinkReporter) : Prop where
  unique : (this.live.map LinkHandle.id).Nodup
  tracked : ∀ handle ∈ this.live, this.Tracked handle
  apart : (this.dropping.map fun event => event.handle.id).Nodup
  awaited : ∀ event ∈ this.dropping, this.Awaited event
  listed : ∀ id ∈ this.handshaking ++ this.adopting ++ this.connectedLinkIds, id ≤ this.lastId
  spotted : ∀ handle ∈ this.watched, handle.id ≤ this.lastId
  old : ∀ event ∈ this.events, event.handle.id ≤ this.lastId
  tale : ∀ handle, Tale false (this.told handle)
  gone : ∀ event ∈ this.events, event.kind = .dropped →
    ∀ handle ∈ this.live, handle.id ≠ event.handle.id
  whole : ∀ id, 0 < id → id ≤ this.lastId → (∃ handle ∈ this.live, handle.id = id) ∨
    (∃ event ∈ this.dropping, event.handle.id = id) ∨
    ∃ event ∈ this.events, event.kind = .dropped ∧ event.handle.id = id

/-- Each link that is there is somewhere on its way to be connected or refused. -/
structure Staged (this : LinkReporter) : Prop where
  somewhere : ∀ handle ∈ this.live, handle.id ∈ this.handshaking ∨ handle.id ∈ this.adopting ∨
    handle.id ∈ this.refused ∨ handle.id ∈ this.connectedLinkIds
  refused : ∀ id ∈ this.refused, id ≤ this.lastId ∧
    id ∉ this.handshaking ∧ id ∉ this.adopting ∧ id ∉ this.connectedLinkIds

section Places

variable {this : LinkReporter} {m : PeerLinkManager}

theorem findLive_live {handle : LinkHandle} {link : PeerLink}
    (found : this.manager.table.findLive handle = some link) :
    link ∈ this.manager.table.links ∧ link.handle = handle ∧ handle ∈ this.live := by
  obtain ⟨held, same⟩ := PeerLinkManager.findLive_some found
  have there := (PeerLinkManager.findById_some held).1
  refine ⟨there, same, ?_⟩
  rw [← same]
  exact List.mem_map_of_mem there

theorem Sound.alone (sound : this.Sound) {one two : LinkHandle} (first : one ∈ this.live)
    (second : two ∈ this.live) (same : one.id = two.id) : one = two :=
  List.inj_on_of_nodup_map sound.unique first second same

theorem Sound.tells (sound : this.Sound) (staged : this.Staged) : this.TellsStories where
  tale := sound.tale
  connects link held := by
    have there : link.handle ∈ this.live := List.mem_map_of_mem held
    have tracked := sound.tracked link.handle there
    rw [← tracked.connected]
    constructor
    · intro connected
      refine ⟨fun shaking => (tracked.handshaking shaking).2 connected,
        fun adopting => tracked.adopting adopting connected, ?_⟩
      intro refused
      obtain ⟨_, _, _, unconnected⟩ := staged.refused link.id refused
      exact unconnected connected
    · rintro ⟨shaken, adopted, granted⟩
      rcases staged.somewhere link.handle there with shaking | adopting | refused | connected
      · exact absurd shaking shaken
      · exact absurd adopting adopted
      · exact absurd refused granted
      · exact connected
  gone event told dropped := by
    cases found : this.manager.table.findLive event.handle with
    | none => rfl
    | some link =>
        obtain ⟨_, _, there⟩ := findLive_live found
        exact absurd rfl (sound.gone event told dropped event.handle there)
  whole id positive old := by
    rcases sound.whole id positive old with ⟨handle, there, same⟩ | rest
    · obtain ⟨link, held, rfl⟩ := List.mem_map.mp there
      exact Or.inl ⟨link, held, same⟩
    · exact Or.inr rest

/-- Only the handles of the links and the last id count. -/
theorem Sound.moved (sound : this.Sound) {now : PeerLinkManager}
    (same : now.table.links.map PeerLink.handle = this.live) (last : now.table.nextId = this.lastId) :
    { this with manager := now }.Sound := by
  have alike : live { this with manager := now } = this.live := same
  have ids : lastId { this with manager := now } = this.lastId := last
  refine ⟨?_, ?_, sound.apart, ?_, ?_, ?_, ?_, sound.tale, ?_, ?_⟩
  · rw [alike]
    exact sound.unique
  · rw [alike]
    intro handle there
    have tracked := sound.tracked handle there
    refine { tracked with old := ?_ }
    rw [ids]
    exact tracked.old
  · intro event under
    have awaited := sound.awaited event under
    refine { awaited with old := ?_, gone := ?_ }
    · rw [ids]
      exact awaited.old
    · rw [alike]
      exact awaited.gone
  · rw [ids]
    exact sound.listed
  · rw [ids]
    exact sound.spotted
  · rw [ids]
    exact sound.old
  · rw [alike]
    exact sound.gone
  · rw [alike, ids]
    exact sound.whole

theorem modifyLink_handles (m : PeerLinkManager) (id : LinkId) {change : PeerLink → PeerLink}
    (keeps : ∀ link, (change link).handle = link.handle) :
    (m.modifyLink id change).table.links.map PeerLink.handle =
      m.table.links.map PeerLink.handle := by
  show (m.table.links.map _).map PeerLink.handle = _
  rw [List.map_map]
  apply List.map_congr_left
  intro link _
  show PeerLink.handle (if link.id = id then change link else link) = link.handle
  split
  · exact keeps link
  · rfl

theorem dropLinkNow_handles {link : PeerLink} (found : m.table.findById link.id = some link)
    (reason : LinkDropReason) : (m.dropLinkNow link reason).table.links.map PeerLink.handle =
      (m.table.links.map PeerLink.handle).filter fun handle => handle.id != link.id := by
  have handles : PeerLink.handle ∘ LinkVerifier.orphaned link.id = PeerLink.handle := by
    funext other
    exact (LinkVerifier.orphaned_keeps link.id other).1
  rw [dropLinkNow_links found]
  calc (List.filter (fun other => other.id != link.id)
          (m.table.links.map (LinkVerifier.orphaned link.id))).map PeerLink.handle
      = ((m.table.links.map (LinkVerifier.orphaned link.id)).map PeerLink.handle).filter
          (fun handle => handle.id != link.id) := by
        rw [List.filter_map (f := PeerLink.handle)]
        rfl
    _ = _ := by rw [List.map_map, handles]

theorem dropLinkNow_lastId (m : PeerLinkManager) (link : PeerLink) (reason : LinkDropReason) :
    (m.dropLinkNow link reason).table.nextId = m.table.nextId :=
  eraseById_nextId (m.orphanCarriers link.id).table link.id

theorem refreshPresence_lastId {handle : LinkHandle} :
    (m.refreshPresence handle).table.nextId = m.table.nextId := by
  unfold PeerLinkManager.refreshPresence
  split
  · rfl
  · split
    · unfold LinkTable.setPresence
      split
      · rfl
      · rfl
    · rfl

end Places

section Telling

variable {this : LinkReporter} {event : LinkEvent} {handle : LinkHandle}

theorem told_emit (this : LinkReporter) (event : LinkEvent) (handle : LinkHandle) :
    (this.emitLinkEvent event).told handle =
      this.told handle ++ if event.handle = handle then [event] else [] := by
  unfold told emitLinkEvent
  rw [List.filter_append]
  apply congrArg
  split
  · rename_i same
    simp [same]
  · rename_i other
    simp [other]

theorem told_other (other : event.handle ≠ handle) :
    (this.emitLinkEvent event).told handle = this.told handle := by
  rw [told_emit, if_neg other, List.append_nil]

theorem told_same (same : event.handle = handle) :
    (this.emitLinkEvent event).told handle = this.told handle ++ [event] := by
  rw [told_emit, if_pos same]

theorem connects_append (story : List LinkEvent) (event : LinkEvent) :
    Connects (story ++ [event]) ↔ Connects story ∨ event.kind = .connected := by
  unfold Connects
  simp [List.mem_append, or_and_right, exists_or]

theorem unended_append {story : List LinkEvent} (unended : Unended story)
    (goes : event.kind ≠ .dropped) : Unended (story ++ [event]) := by
  intro other told
  rcases List.mem_append.mp told with before | now
  · exact unended other before
  · rw [List.mem_singleton.mp now]
    exact goes

/-- What happens to a link that is there, but its connecting, is told when it may be. -/
theorem Sound.emitted (sound : this.Sound) (there : event.handle ∈ this.live)
    (kind : event.kind = .pathChanged ∧ event.handle.id ∈ this.connectedLinkIds ∨
      event.kind = .dialFailed) : (this.emitLinkEvent event).Sound := by
  have goes : event.kind ≠ .dropped := by
    rcases kind with ⟨changed, _⟩ | failed
    · rw [changed]
      exact LinkEventKind.noConfusion
    · rw [failed]
      exact LinkEventKind.noConfusion
  have unlike : event.kind ≠ .connected := by
    rcases kind with ⟨changed, _⟩ | failed
    · rw [changed]
      exact LinkEventKind.noConfusion
    · rw [failed]
      exact LinkEventKind.noConfusion
  have tracked := sound.tracked event.handle there
  refine ⟨sound.unique, ?_, sound.apart, ?_, sound.listed, sound.spotted, ?_, ?_, ?_, ?_⟩
  · intro handle here
    have before := sound.tracked handle here
    by_cases same : event.handle = handle
    · refine { before with unended := ?_, connected := ?_ }
      · rw [told_same same]
        exact unended_append before.unended goes
      · rw [told_same same, connects_append]
        exact before.connected.trans (or_iff_left unlike).symm
    · refine { before with unended := ?_, connected := ?_ }
      · rw [told_other same]
        exact before.unended
      · rw [told_other same]
        exact before.connected
  · intro other under
    have before := sound.awaited other under
    have differs : event.handle ≠ other.handle :=
      fun same => before.gone event.handle there (congrArg LinkHandle.id same)
    refine { before with unended := ?_, wasConnected := ?_ }
    · rw [told_other differs]
      exact before.unended
    · rw [told_other differs]
      exact before.wasConnected
  · intro other told
    rcases List.mem_append.mp told with before | now
    · exact sound.old other before
    · rw [List.mem_singleton.mp now]
      exact tracked.old
  · intro handle
    by_cases same : event.handle = handle
    · rw [told_same same]
      subst same
      apply (sound.tale event.handle).append tracked.unended
      rcases kind with ⟨changed, connected⟩ | failed
      · have yes := tracked.connected.mp connected
        simp [Tale, changed, yes]
      · simp [Tale, failed]
    · rw [told_other same]
      exact sound.tale handle
  · intro other told dropped
    rcases List.mem_append.mp told with before | now
    · exact sound.gone other before dropped
    · rw [List.mem_singleton.mp now] at dropped
      exact absurd dropped goes
  · intro id positive old
    rcases sound.whole id positive old with here | under | ⟨other, told, dropped⟩
    · exact Or.inl here
    · exact Or.inr (Or.inl under)
    · exact Or.inr (Or.inr ⟨other, List.mem_append_left _ told, dropped⟩)

end Telling

section Steps

variable {this : LinkReporter}

theorem Sound.insertLink (sound : this.Sound) (link : PeerLink) : (this.insertLink link).Sound := by
  have last : (this.insertLink link).lastId = this.lastId + 1 := rfl
  have here : (this.insertLink link).live =
      this.live ++ [⟨this.lastId + 1, this.manager.table.nextGeneration + 1⟩] := by
    show List.map _ (this.manager.table.links ++ [_]) = _
    rw [List.map_append]
    rfl
  have known : ∀ handle ∈ (this.insertLink link).live, handle ∈ this.live ∨
      handle = ⟨this.lastId + 1, this.manager.table.nextGeneration + 1⟩ := by
    intro handle there
    rw [here] at there
    rcases List.mem_append.mp there with before | now
    · exact Or.inl before
    · exact Or.inr (List.mem_singleton.mp now)
  have fresh : ∀ id, id ∈ this.handshaking ++ this.adopting ++ this.connectedLinkIds →
      id ≠ this.lastId + 1 :=
    fun id listed => Nat.ne_of_lt (Nat.lt_succ_of_le (sound.listed id listed))
  have unlisted : ∀ id, id ∈ this.handshaking ++ this.adopting ++ this.connectedLinkIds →
      id ≤ this.lastId + 1 := fun id listed => Nat.le_succ_of_le (sound.listed id listed)
  refine ⟨?_, ?_, sound.apart, ?_, ?_, ?_, ?_, sound.tale, ?_, ?_⟩
  · rw [here, List.map_append, List.nodup_append]
    refine ⟨sound.unique, List.nodup_singleton _, ?_⟩
    intro id listed other single
    obtain ⟨handle, there, rfl⟩ := List.mem_map.mp listed
    rw [List.mem_singleton.mp single]
    exact Nat.ne_of_lt (Nat.lt_succ_of_le (sound.tracked handle there).old)
  · intro handle there
    rcases known handle there with before | rfl
    · have tracked := sound.tracked handle before
      have differs : handle.id ≠ this.lastId + 1 := Nat.ne_of_lt (Nat.lt_succ_of_le tracked.old)
      refine { tracked with old := Nat.le_succ_of_le tracked.old, handshaking := ?_ }
      · intro listed
        rcases List.mem_cons.mp listed with same | earlier
        · exact absurd same differs
        · exact tracked.handshaking earlier
    · have untold : (this.insertLink link).told
          ⟨this.lastId + 1, this.manager.table.nextGeneration + 1⟩ = [] := by
        apply List.filter_eq_nil_iff.mpr
        intro event told same
        have old := sound.old event told
        have clash : event.handle = ⟨this.lastId + 1, this.manager.table.nextGeneration + 1⟩ :=
          of_decide_eq_true same
        rw [clash] at old
        exact absurd old (Nat.not_succ_le_self _)
      have unconnected : this.lastId + 1 ∉ this.connectedLinkIds :=
        fun listed => fresh _ (List.mem_append_right _ listed) rfl
      have unadopted : this.lastId + 1 ∉ this.adopting :=
        fun listed => fresh _ (List.mem_append_left _ (List.mem_append_right _ listed)) rfl
      refine ⟨Nat.le_refl _, ?_, ?_, ?_, ?_, ?_⟩
      · rw [untold]
        exact fun event told => absurd told List.not_mem_nil
      · rw [untold]
        constructor
        · exact fun listed => absurd listed unconnected
        · rintro ⟨event, told, _⟩
          exact absurd told List.not_mem_nil
      · exact fun _ => ⟨unadopted, unconnected⟩
      · exact fun _ => unconnected
      · intro listed
        have old := sound.spotted _ listed
        exact absurd old (Nat.not_succ_le_self _)
  · intro event under
    have awaited := sound.awaited event under
    refine { awaited with old := Nat.le_succ_of_le awaited.old, gone := ?_ }
    intro handle there
    rcases known handle there with before | rfl
    · exact awaited.gone handle before
    · exact (Nat.ne_of_lt (Nat.lt_succ_of_le awaited.old)).symm
  · intro id listed
    rcases List.mem_append.mp listed with either | connected
    · rcases List.mem_append.mp either with shaking | adopting
      · rcases List.mem_cons.mp shaking with same | earlier
        · rw [same]
          exact Nat.le_refl _
        · exact unlisted id (List.mem_append_left _ (List.mem_append_left _ earlier))
      · exact unlisted id (List.mem_append_left _ (List.mem_append_right _ adopting))
    · exact unlisted id (List.mem_append_right _ connected)
  · exact fun handle listed => Nat.le_succ_of_le (sound.spotted handle listed)
  · exact fun event told => Nat.le_succ_of_le (sound.old event told)
  · intro event told dropped handle there
    rcases known handle there with before | rfl
    · exact sound.gone event told dropped handle before
    · exact (Nat.ne_of_lt (Nat.lt_succ_of_le (sound.old event told))).symm
  · intro id positive old
    rw [last] at old
    by_cases fresh : id = this.lastId + 1
    · left
      refine ⟨⟨this.lastId + 1, this.manager.table.nextGeneration + 1⟩, ?_, fresh.symm⟩
      rw [here]
      exact List.mem_append_right _ List.mem_cons_self
    · have before : id ≤ this.lastId := Nat.le_of_lt_succ (Nat.lt_of_le_of_ne old fresh)
      rcases sound.whole id positive before with ⟨handle, there, same⟩ | rest
      · left
        refine ⟨handle, ?_, same⟩
        rw [here]
        exact List.mem_append_left _ there
      · exact Or.inr rest

/-- No link comes into its handshake or its adoption from elsewhere, nor is in both. -/
theorem Sound.relisted (sound : this.Sound) (handshaking adopting punched : List LinkId)
    (fewer : ∀ id ∈ handshaking ++ adopting, id ∈ this.handshaking ++ this.adopting)
    (disjoint : ∀ handle ∈ this.live, handle.id ∈ handshaking → handle.id ∉ adopting) :
    { this with handshaking, adopting, punched }.Sound := by
  have unconnected : ∀ handle ∈ this.live, handle.id ∈ handshaking ++ adopting →
      handle.id ∉ this.connectedLinkIds := by
    intro handle there listed
    have tracked := sound.tracked handle there
    rcases List.mem_append.mp (fewer _ listed) with shaking | already
    · exact (tracked.handshaking shaking).2
    · exact tracked.adopting already
  refine ⟨sound.unique, ?_, sound.apart, ?_, ?_, sound.spotted, sound.old, sound.tale, sound.gone,
    sound.whole⟩
  · intro handle there
    have tracked := sound.tracked handle there
    exact { tracked with
      handshaking := fun listed => ⟨disjoint handle there listed,
        unconnected handle there (List.mem_append_left _ listed)⟩
      adopting := fun listed => unconnected handle there (List.mem_append_right _ listed) }
  · exact fun event under => { sound.awaited event under with }
  · intro id listed
    rcases List.mem_append.mp listed with either | connected
    · exact sound.listed id (List.mem_append_left _ (fewer id either))
    · exact sound.listed id (List.mem_append_right _ connected)

/-- A link that is connected is told so, once. -/
theorem Sound.connects (sound : this.Sound) {link : PeerLink} {event : LinkEvent}
    (own : event.handle = link.handle) (there : link.handle ∈ this.live)
    (kind : event.kind = .connected) (unconnected : link.id ∉ this.connectedLinkIds)
    (settled : link.id ∉ this.handshaking ∧ link.id ∉ this.adopting)
    (watched : List LinkHandle)
    (watches : ∀ handle ∈ watched, handle ∈ this.watched ∨ handle = link.handle) :
    ({ this with
      connectedLinkIds := link.id :: this.connectedLinkIds
      watched }.emitLinkEvent event).Sound := by
  have id : link.id = event.handle.id := (congrArg LinkHandle.id own).symm
  rw [← own] at there watches
  rw [id] at unconnected settled ⊢
  have goes : event.kind ≠ .dropped := by
    rw [kind]
    exact LinkEventKind.noConfusion
  have tracked := sound.tracked event.handle there
  have apart : ∀ handle ∈ this.live, event.handle ≠ handle → handle.id ≠ event.handle.id :=
    fun handle here other same => other (sound.alone there here same.symm)
  refine ⟨sound.unique, ?_, sound.apart, ?_, ?_, ?_, ?_, ?_, ?_, ?_⟩
  · intro handle here
    have before := sound.tracked handle here
    by_cases same : event.handle = handle
    · subst same
      refine ⟨before.old, ?_, ?_, ?_, ?_, ?_⟩
      · rw [told_same rfl]
        exact unended_append before.unended goes
      · rw [told_same rfl, connects_append]
        exact ⟨fun _ => Or.inr kind, fun _ => List.mem_cons_self⟩
      · exact fun listed => absurd listed settled.1
      · exact fun listed => absurd listed settled.2
      · exact fun _ => List.mem_cons_self
    · have differs := apart handle here same
      have listed : handle.id ∈ event.handle.id :: this.connectedLinkIds ↔
          handle.id ∈ this.connectedLinkIds := by
        rw [List.mem_cons]
        exact or_iff_right differs
      refine ⟨before.old, ?_, ?_, ?_, ?_, ?_⟩
      · rw [told_other same]
        exact before.unended
      · rw [told_other same]
        exact listed.trans before.connected
      · intro shaking
        obtain ⟨unadopted, still⟩ := before.handshaking shaking
        exact ⟨unadopted, fun now => still (listed.mp now)⟩
      · exact fun adopting now => before.adopting adopting (listed.mp now)
      · intro watching
        rcases watches handle watching with already | now
        · exact listed.mpr (before.watched already)
        · exact absurd now.symm same
  · intro other under
    have before := sound.awaited other under
    have differs : event.handle ≠ other.handle :=
      fun same => before.gone event.handle there (congrArg LinkHandle.id same)
    refine { before with unended := ?_, wasConnected := ?_ }
    · rw [told_other differs]
      exact before.unended
    · rw [told_other differs]
      exact before.wasConnected
  · intro id listed
    rcases List.mem_append.mp listed with either | connected
    · exact sound.listed id (List.mem_append_left _ either)
    · rcases List.mem_cons.mp connected with rfl | already
      · exact tracked.old
      · exact sound.listed id (List.mem_append_right _ already)
  · intro handle watching
    rcases watches handle watching with already | rfl
    · exact sound.spotted handle already
    · exact tracked.old
  · intro other told
    rcases List.mem_append.mp told with before | now
    · exact sound.old other before
    · rw [List.mem_singleton.mp now]
      exact tracked.old
  · intro handle
    by_cases same : event.handle = handle
    · rw [told_same same]
      subst same
      apply (sound.tale event.handle).append tracked.unended
      have never : ¬ Connects (this.told event.handle) :=
        fun connects => unconnected (tracked.connected.mpr connects)
      simp [Tale, kind, never]
    · rw [told_other same]
      exact sound.tale handle
  · intro other told dropped
    rcases List.mem_append.mp told with before | now
    · exact sound.gone other before dropped
    · rw [List.mem_singleton.mp now] at dropped
      exact absurd dropped goes
  · intro id positive old
    rcases sound.whole id positive old with here | under | ⟨other, told, dropped⟩
    · exact Or.inl here
    · exact Or.inr (Or.inl under)
    · exact Or.inr (Or.inr ⟨other, List.mem_append_left _ told, dropped⟩)

/-- The link goes, and its event waits for its story's end. -/
theorem Sound.dropped (sound : this.Sound) {link : PeerLink} {event : LinkEvent}
    (there : link.handle ∈ this.live) (kind : event.kind = .dropped)
    (own : event.handle = link.handle)
    (was : event.wasConnected = decide (Connects (this.told link.handle)))
    {now : PeerLinkManager} (lives : now.table.links.map PeerLink.handle =
      this.live.filter fun handle => handle.id != link.id)
    (last : now.table.nextId = this.lastId) {watched : List LinkHandle}
    (fewer : ∀ handle ∈ watched, handle ∈ this.watched) :
    { this with
      manager := now
      connectedLinkIds := this.connectedLinkIds.filter (· != link.id)
      watched := watched
      handshaking := this.handshaking.filter (· != link.id)
      adopting := this.adopting.filter (· != link.id)
      dropping := event :: this.dropping }.Sound := by
  have tracked := sound.tracked link.handle there
  have left : ∀ handle ∈ now.table.links.map PeerLink.handle,
      handle ∈ this.live ∧ handle.id ≠ link.id := by
    intro handle here
    rw [lives] at here
    obtain ⟨before, other⟩ := List.mem_filter.mp here
    exact ⟨before, by simpa using other⟩
  have kept : ∀ {id} {ids : List LinkId}, id ≠ link.id →
      (id ∈ ids.filter (· != link.id) ↔ id ∈ ids) := by
    intro id ids other
    simp [List.mem_filter, other]
  have reach : ∀ {id : LinkId}, id ≤ this.lastId → id ≤ now.table.nextId :=
    fun old => Nat.le_trans old (Nat.le_of_eq last.symm)
  refine ⟨?_, ?_, ?_, ?_, ?_, ?_, ?_, sound.tale, ?_, ?_⟩
  · show ((now.table.links.map PeerLink.handle).map LinkHandle.id).Nodup
    rw [lives]
    exact sound.unique.sublist (List.filter_sublist.map LinkHandle.id)
  · intro handle here
    obtain ⟨before, other⟩ := left handle here
    have known := sound.tracked handle before
    refine ⟨reach known.old, known.unended, ?_, ?_, ?_, ?_⟩
    · exact (kept other).trans known.connected
    · intro shaking
      obtain ⟨unadopted, unconnected⟩ := known.handshaking ((kept other).mp shaking)
      exact ⟨fun listed => unadopted ((kept other).mp listed),
        fun listed => unconnected ((kept other).mp listed)⟩
    · exact fun adopting listed => known.adopting ((kept other).mp adopting) ((kept other).mp listed)
    · exact fun watching => (kept other).mpr (known.watched (fewer handle watching))
  · show (event.handle.id :: this.dropping.map fun event => event.handle.id).Nodup
    refine List.nodup_cons.mpr ⟨fun listed => ?_, sound.apart⟩
    obtain ⟨other, under, same⟩ := List.mem_map.mp listed
    rw [own] at same
    exact (sound.awaited other under).gone link.handle there same.symm
  · intro other under
    rcases List.mem_cons.mp under with rfl | already
    · refine ⟨kind, reach (own ▸ tracked.old), ?_, ?_, ?_⟩
      · intro handle here
        rw [own]
        exact (left handle here).2
      · rw [own]
        exact tracked.unended
      · rw [own]
        exact was
    · have known := sound.awaited other already
      exact ⟨known.kind, reach known.old, fun handle here => known.gone handle (left handle here).1,
        known.unended, known.wasConnected⟩
  · intro id listed
    have before : id ∈ this.handshaking ++ this.adopting ++ this.connectedLinkIds := by
      have fewer := listed
      simp only [List.mem_append, List.mem_filter] at fewer ⊢
      tauto
    exact reach (sound.listed id before)
  · exact fun handle watching => reach (sound.spotted handle (fewer handle watching))
  · exact fun other told => reach (sound.old other told)
  · exact fun other told dropped handle here => sound.gone other told dropped handle (left handle here).1
  · intro id positive old
    by_cases same : id = link.id
    · exact Or.inr (Or.inl ⟨event, List.mem_cons_self, own ▸ same.symm⟩)
    · rcases sound.whole id positive (Nat.le_trans old (Nat.le_of_eq last)) with ⟨handle, here, rfl⟩ | ⟨other, under, own⟩ | told
      · left
        refine ⟨handle, ?_, rfl⟩
        show handle ∈ now.table.links.map PeerLink.handle
        rw [lives]
        exact List.mem_filter.mpr ⟨here, by simpa using same⟩
      · exact Or.inr (Or.inl ⟨other, List.mem_cons_of_mem _ under, own⟩)
      · exact Or.inr (Or.inr told)

/-- The event of a drop is told last of its link. -/
theorem Sound.ended (sound : this.Sound) {event : LinkEvent} {rest : List LinkEvent}
    (under : this.dropping = event :: rest) :
    ({ this with dropping := rest }.emitLinkEvent event).Sound := by
  have awaited := sound.awaited event (under ▸ List.mem_cons_self)
  have apart := sound.apart
  rw [under] at apart
  obtain ⟨alone, others⟩ := List.nodup_cons.mp apart
  refine ⟨sound.unique, ?_, others, ?_, sound.listed, sound.spotted, ?_, ?_, ?_, ?_⟩
  · intro handle here
    have known := sound.tracked handle here
    have differs : event.handle ≠ handle :=
      fun same => awaited.gone handle here (congrArg LinkHandle.id same).symm
    refine { known with unended := ?_, connected := ?_ }
    · rw [told_other differs]
      exact known.unended
    · rw [told_other differs]
      exact known.connected
  · intro other waiting
    have known := sound.awaited other (under ▸ List.mem_cons_of_mem _ waiting)
    have differs : event.handle ≠ other.handle :=
      fun same => alone (List.mem_map.mpr ⟨other, waiting, (congrArg LinkHandle.id same).symm⟩)
    refine { known with unended := ?_, wasConnected := ?_ }
    · rw [told_other differs]
      exact known.unended
    · rw [told_other differs]
      exact known.wasConnected
  · intro other told
    rcases List.mem_append.mp told with before | now
    · exact sound.old other before
    · rw [List.mem_singleton.mp now]
      exact awaited.old
  · intro handle
    by_cases same : event.handle = handle
    · rw [told_same same]
      subst same
      apply (sound.tale event.handle).append awaited.unended
      rw [Bool.false_or]
      unfold Tale
      rw [awaited.kind]
      exact ⟨awaited.wasConnected, rfl⟩
    · rw [told_other same]
      exact sound.tale handle
  · intro other told dropped handle here
    rcases List.mem_append.mp told with before | now
    · exact sound.gone other before dropped handle here
    · rw [List.mem_singleton.mp now]
      exact awaited.gone handle here
  · intro id positive old
    rcases sound.whole id positive old with here | ⟨other, waiting, same⟩ | ⟨other, told, dropped⟩
    · exact Or.inl here
    · rw [under] at waiting
      rcases List.mem_cons.mp waiting with rfl | later
      · exact Or.inr (Or.inr ⟨other, List.mem_append_right _ List.mem_cons_self, awaited.kind, same⟩)
      · exact Or.inr (Or.inl ⟨other, later, same⟩)
    · exact Or.inr (Or.inr ⟨other, List.mem_append_left _ told, dropped⟩)

theorem Sound.handshaken (sound : this.Sound) (handle : LinkHandle) :
    (this.handshaken handle).Sound := by
  unfold LinkReporter.handshaken
  split
  · exact sound
  · rename_i link found
    split
    · rename_i shaking
      have keeps : ∀ link : PeerLink,
          PeerLink.handle { link with phase := .connected } = link.handle := fun _ => rfl
      have moved := sound.moved (modifyLink_handles this.manager link.id keeps) rfl
      apply moved.relisted
      · intro id listed
        rcases List.mem_append.mp listed with left | adopting
        · exact List.mem_append_left _ (List.mem_filter.mp left).1
        · rcases List.mem_cons.mp adopting with rfl | already
          · exact List.mem_append_left _ shaking
          · exact List.mem_append_right _ already
      · intro other there left adopting
        obtain ⟨before, differs⟩ := List.mem_filter.mp left
        rcases List.mem_cons.mp adopting with same | already
        · rw [same] at differs
          simp at differs
        · exact ((moved.tracked other there).handshaking before).1 already
    · exact sound

theorem Sound.adopted (sound : this.Sound) (handle : LinkHandle) (granted : Bool) :
    (this.adopted handle granted).Sound := by
  unfold LinkReporter.adopted
  split
  · exact sound
  · rename_i link found
    split
    · rename_i adopting
      obtain ⟨_, same, there⟩ := findLive_live found
      subst same
      have tracked := sound.tracked link.handle there
      have relisted := sound.relisted this.handshaking (this.adopting.filter (· != link.id))
        this.punched ?_ ?_
      · dsimp only
        split
        · have same : (this.manager.refreshPresence link.handle).table.links.map PeerLink.handle =
              this.live := congrArg (List.map PeerLink.handle) PeerLinkManager.refreshPresence_links
          have last : (this.manager.refreshPresence link.handle).table.nextId = this.lastId :=
            refreshPresence_lastId
          have moved := relisted.moved same last
          have here : link.handle ∈
              (this.manager.refreshPresence link.handle).table.links.map PeerLink.handle :=
            same ▸ there
          have unconnected := tracked.adopting adopting
          have settled : link.id ∉ this.handshaking ∧
              link.id ∉ this.adopting.filter (· != link.id) :=
            ⟨fun shaking => (tracked.handshaking shaking).1 adopting, by simp⟩
          unfold watchPathChanges
          split
          · apply moved.connects rfl here rfl unconnected settled (link.handle :: this.watched)
            intro other watching
            rcases List.mem_cons.mp watching with now | already
            · exact Or.inr now
            · exact Or.inl already
          · apply moved.connects rfl here rfl unconnected settled this.watched
            exact fun other watching => Or.inl watching
        · have keeps : ∀ link : PeerLink,
              PeerLink.handle { link with phase := .backoff } = link.handle := fun _ => rfl
          have moved := relisted.moved (modifyLink_handles this.manager link.id keeps) rfl
          exact { moved with
            tracked := fun handle here => { moved.tracked handle here with }
            awaited := fun event under => { moved.awaited event under with } }
      · intro id listed
        rcases List.mem_append.mp listed with shaking | left
        · exact List.mem_append_left _ shaking
        · exact List.mem_append_right _ (List.mem_filter.mp left).1
      · intro other here shaking left
        exact ((sound.tracked other here).handshaking shaking).1 (List.mem_filter.mp left).1
    · exact sound

theorem Sound.pathChange (sound : this.Sound) (handle : LinkHandle)
    (previous now : Adp.IpEndpoint) : (this.pathChange handle previous now).Sound := by
  unfold LinkReporter.pathChange
  split
  · rename_i watched
    split
    · exact sound
    · rename_i link found
      obtain ⟨_, rfl, there⟩ := findLive_live found
      exact sound.emitted there (Or.inl ⟨rfl, (sound.tracked _ there).watched watched⟩)
  · exact sound

theorem Sound.dialFailed (sound : this.Sound) (handle : LinkHandle) (key : DialKey)
    (reason : LinkDropReason) : (this.dialFailed handle key reason).Sound := by
  unfold LinkReporter.dialFailed
  split
  · exact sound
  · rename_i link found
    obtain ⟨_, rfl, there⟩ := findLive_live found
    exact sound.emitted there (Or.inr rfl)

/-- A drop takes the link and keeps its event. -/
theorem Sound.beginDrop (sound : this.Sound) (handle : LinkHandle) (reason : LinkDropReason) :
    (this.beginDrop handle reason).Sound := by
  cases found : this.manager.table.findLive handle with
  | none =>
      unfold LinkReporter.beginDrop
      rw [found]
      exact sound
  | some link =>
      obtain ⟨_, rfl, there⟩ := findLive_live found
      have byId := (PeerLinkManager.findLive_some found).1
      have tracked := sound.tracked link.handle there
      have dropped : (this.droppedEvent link reason).kind = .dropped ∧
          (this.droppedEvent link reason).handle = link.handle ∧
          (this.droppedEvent link reason).wasConnected =
            decide (link.id ∈ this.connectedLinkIds) := by
        unfold droppedEvent
        dsimp only
        split
        · exact ⟨rfl, rfl, rfl⟩
        · exact ⟨rfl, rfl, rfl⟩
      obtain ⟨kind, own, was⟩ := dropped
      generalize ended : this.droppedEvent link reason = event at kind own was
      have after : ∃ watched, this.beginDrop link.handle reason =
          { this with
            manager := this.manager.dropLinkNow link reason
            connectedLinkIds := this.connectedLinkIds.filter (· != link.id)
            watched := watched
            handshaking := this.handshaking.filter (· != link.id)
            adopting := this.adopting.filter (· != link.id)
            dropping := event :: this.dropping } ∧ ∀ other ∈ watched, other ∈ this.watched := by
        unfold LinkReporter.beginDrop
        rw [found]
        dsimp only
        rw [ended]
        refine ⟨_, rfl, ?_⟩
        split
        · exact fun other left => (List.mem_filter.mp left).1
        · exact fun other left => left
      obtain ⟨watched, same, fewer⟩ := after
      rw [same]
      have lives := dropLinkNow_handles byId reason
      have last := dropLinkNow_lastId this.manager link reason
      apply sound.dropped there kind own
      · rw [was]
        exact decide_eq_decide.mpr tracked.connected
      · exact lives
      · exact last
      · exact fewer

theorem Sound.endDrop (sound : this.Sound) : this.endDrop.Sound := by
  cases under : this.dropping with
  | nil =>
      unfold LinkReporter.endDrop
      rw [under]
      exact sound
  | cons event rest =>
      have after : this.endDrop = { this with dropping := rest }.emitLinkEvent event := by
        unfold LinkReporter.endDrop
        rw [under]
      rw [after]
      exact sound.ended under

theorem Sound.changed (sound : this.Sound) (id : LinkId) (now : PeerLink) :
    (this.step (.changeLink id now)).Sound := by
  have keeps : ∀ link : PeerLink, PeerLink.handle { now with
      id := link.id
      generation := link.generation
      isCarrierBacked := link.isCarrierBacked } = link.handle := fun _ => rfl
  exact sound.moved (modifyLink_handles this.manager id keeps) rfl

theorem Sound.step (sound : this.Sound) (happening : LinkHappening) :
    (this.step happening).Sound := by
  cases happening with
  | insertLink link => exact sound.insertLink link
  | handshaken handle => exact sound.handshaken handle
  | adopted handle granted => exact sound.adopted handle granted
  | pathChange handle previous now => exact sound.pathChange handle previous now
  | beginDrop handle reason => exact sound.beginDrop handle reason
  | endDrop => exact sound.endDrop
  | dialFailed handle key reason => exact sound.dialFailed handle key reason
  | changeLink id now => exact sound.changed id now
  | other now => exact sound.moved rfl rfl
  | surroundings around connectionOf =>
      have moved : { this with manager := { this.manager with around } }.Sound :=
        sound.moved rfl rfl
      exact { moved with
        tracked := fun handle here => { moved.tracked handle here with }
        awaited := fun event under => { moved.awaited event under with } }

section Stages

/-- The links and what is known of their way stay as they are. -/
theorem Staged.kept (staged : this.Staged) {after : LinkReporter} (same : after.live = this.live)
    (last : after.lastId = this.lastId) (handshaking : after.handshaking = this.handshaking)
    (adopting : after.adopting = this.adopting) (refused : after.refused = this.refused)
    (connected : after.connectedLinkIds = this.connectedLinkIds) : after.Staged := by
  constructor
  · rw [same, handshaking, adopting, refused, connected]
    exact staged.somewhere
  · rw [last, handshaking, adopting, refused, connected]
    exact staged.refused

theorem Staged.insertLink (staged : this.Staged) (link : PeerLink) :
    (this.insertLink link).Staged := by
  have here : (this.insertLink link).live =
      this.live ++ [⟨this.lastId + 1, this.manager.table.nextGeneration + 1⟩] := by
    show List.map _ (this.manager.table.links ++ [_]) = _
    rw [List.map_append]
    rfl
  constructor
  · intro handle there
    rw [here] at there
    rcases List.mem_append.mp there with before | now
    · rcases staged.somewhere handle before with shaking | rest
      · exact Or.inl (List.mem_cons_of_mem _ shaking)
      · exact Or.inr rest
    · rw [List.mem_singleton.mp now]
      exact Or.inl List.mem_cons_self
  · intro id refused
    obtain ⟨old, shaken, rest⟩ := staged.refused id refused
    refine ⟨Nat.le_succ_of_le old, ?_, rest⟩
    intro shaking
    rcases List.mem_cons.mp shaking with same | earlier
    · rw [same] at old
      exact Nat.not_succ_le_self _ old
    · exact shaken earlier

theorem Staged.handshaken (staged : this.Staged) (handle : LinkHandle) :
    (this.handshaken handle).Staged := by
  unfold LinkReporter.handshaken
  split
  · exact staged
  · rename_i link found
    split
    · rename_i shaking
      have keeps : ∀ link : PeerLink,
          PeerLink.handle { link with phase := .connected } = link.handle := fun _ => rfl
      have same := modifyLink_handles this.manager link.id keeps
      constructor
      · intro other there
        have before : other ∈ this.live := by
          rw [live, ← same]
          exact there
        by_cases own : other.id = link.id
        · right
          left
          rw [own]
          exact List.mem_cons_self
        · rcases staged.somewhere other before with earlier | adopting | rest
          · exact Or.inl (List.mem_filter.mpr ⟨earlier, by simpa using own⟩)
          · exact Or.inr (Or.inl (List.mem_cons_of_mem _ adopting))
          · exact Or.inr (Or.inr rest)
      · intro id refused
        obtain ⟨old, shaken, unadopted, unconnected⟩ := staged.refused id refused
        refine ⟨old, fun left => shaken (List.mem_filter.mp left).1, ?_, unconnected⟩
        intro adopting
        rcases List.mem_cons.mp adopting with own | earlier
        · exact shaken (own ▸ shaking)
        · exact unadopted earlier
    · exact staged

theorem Staged.adopted (staged : this.Staged) (sound : this.Sound) (handle : LinkHandle)
    (granted : Bool) : (this.adopted handle granted).Staged := by
  unfold LinkReporter.adopted
  split
  · exact staged
  · rename_i link found
    split
    case isFalse => exact staged
    rename_i adopting
    obtain ⟨_, rfl, there⟩ := findLive_live found
    have tracked := sound.tracked link.handle there
    have shaken : link.id ∉ this.handshaking := fun shaking => (tracked.handshaking shaking).1 adopting
    have left {id : LinkId} (other : id ≠ link.id) (still : id ∈ this.adopting) :
        id ∈ this.adopting.filter (· != link.id) := List.mem_filter.mpr ⟨still, by simpa using other⟩
    have gone : link.id ∉ this.adopting.filter (· != link.id) := by simp
    dsimp only
    split
    · -- it is connected from now on
      have here : (this.manager.refreshPresence link.handle).table.links.map PeerLink.handle =
          this.live := congrArg (List.map PeerLink.handle) PeerLinkManager.refreshPresence_links
      have last : (this.manager.refreshPresence link.handle).table.nextId = this.lastId :=
        refreshPresence_lastId
      let now : LinkReporter := { this with
        manager := this.manager.refreshPresence link.handle
        adopting := this.adopting.filter (· != link.id)
        connectedLinkIds := link.id :: this.connectedLinkIds }
      have staged : now.Staged := by
        constructor
        · intro other present
          have before : other ∈ this.live := here ▸ present
          by_cases own : other.id = link.id
          · right; right; right
            rw [own]
            exact List.mem_cons_self
          · rcases staged.somewhere other before with shaking | still | refused | connected
            · exact Or.inl shaking
            · exact Or.inr (Or.inl (left own still))
            · exact Or.inr (Or.inr (Or.inl refused))
            · exact Or.inr (Or.inr (Or.inr (List.mem_cons_of_mem _ connected)))
        · intro id refused
          obtain ⟨old, unshaken, unadopted, unconnected⟩ := staged.refused id refused
          refine ⟨Nat.le_trans old (Nat.le_of_eq last.symm), unshaken,
            fun still => unadopted (List.mem_filter.mp still).1, ?_⟩
          intro connected
          rcases List.mem_cons.mp connected with own | earlier
          · exact unadopted (own ▸ adopting)
          · exact unconnected earlier
      unfold watchPathChanges
      split
      · exact staged.kept rfl rfl rfl rfl rfl rfl
      · exact staged.kept rfl rfl rfl rfl rfl rfl
    · -- it is refused, and stays so
      have keeps : ∀ link : PeerLink,
          PeerLink.handle { link with phase := .backoff } = link.handle := fun _ => rfl
      have same := modifyLink_handles this.manager link.id keeps
      constructor
      · intro other present
        have before : other ∈ this.live := by
          rw [live, ← same]
          exact present
        by_cases own : other.id = link.id
        · right; right; left
          rw [own]
          exact List.mem_cons_self
        · rcases staged.somewhere other before with shaking | still | refused | connected
          · exact Or.inl shaking
          · exact Or.inr (Or.inl (left own still))
          · exact Or.inr (Or.inr (Or.inl (List.mem_cons_of_mem _ refused)))
          · exact Or.inr (Or.inr (Or.inr connected))
      · intro id refused
        rcases List.mem_cons.mp refused with rfl | earlier
        · exact ⟨tracked.old, shaken, gone, tracked.adopting adopting⟩
        · obtain ⟨old, unshaken, unadopted, unconnected⟩ := staged.refused id earlier
          exact ⟨old, unshaken, fun still => unadopted (List.mem_filter.mp still).1, unconnected⟩

theorem Staged.beginDrop (staged : this.Staged) (handle : LinkHandle) (reason : LinkDropReason) :
    (this.beginDrop handle reason).Staged := by
  unfold LinkReporter.beginDrop
  split
  · exact staged
  · rename_i link found
    have lives := dropLinkNow_handles (PeerLinkManager.findLive_some found).1 reason
    constructor
    · intro other there
      have there : other ∈ (this.manager.dropLinkNow link reason).table.links.map PeerLink.handle := there
      rw [lives] at there
      obtain ⟨before, different⟩ := List.mem_filter.mp there
      have left {ids : List LinkId} (listed : other.id ∈ ids) : other.id ∈ ids.filter (· != link.id) :=
        List.mem_filter.mpr ⟨listed, different⟩
      rcases staged.somewhere other before with shaking | adopting | refused | connected
      · exact Or.inl (left shaking)
      · exact Or.inr (Or.inl (left adopting))
      · exact Or.inr (Or.inr (Or.inl refused))
      · exact Or.inr (Or.inr (Or.inr (left connected)))
    · intro id refused
      obtain ⟨old, unshaken, unadopted, unconnected⟩ := staged.refused id refused
      exact ⟨Nat.le_trans old (Nat.le_of_eq (dropLinkNow_lastId this.manager link reason).symm),
        fun listed => unshaken (List.mem_filter.mp listed).1,
        fun listed => unadopted (List.mem_filter.mp listed).1,
        fun listed => unconnected (List.mem_filter.mp listed).1⟩

theorem Staged.step (staged : this.Staged) (sound : this.Sound) (happening : LinkHappening) :
    (this.step happening).Staged := by
  cases happening with
  | insertLink link => exact Staged.insertLink staged link
  | handshaken handle => exact staged.handshaken handle
  | adopted handle granted => exact staged.adopted sound handle granted
  | beginDrop handle reason => exact staged.beginDrop handle reason
  | pathChange handle previous now =>
      show (this.pathChange handle previous now).Staged
      unfold LinkReporter.pathChange
      split
      · split
        · exact staged
        · exact staged.kept rfl rfl rfl rfl rfl rfl
      · exact staged
  | endDrop =>
      show this.endDrop.Staged
      unfold LinkReporter.endDrop
      split
      · exact staged
      · exact staged.kept rfl rfl rfl rfl rfl rfl
  | dialFailed handle key reason =>
      show (this.dialFailed handle key reason).Staged
      unfold LinkReporter.dialFailed
      split
      · exact staged
      · exact staged.kept rfl rfl rfl rfl rfl rfl
  | changeLink id now =>
      have keeps : ∀ link : PeerLink, PeerLink.handle { now with
          id := link.id
          generation := link.generation
          isCarrierBacked := link.isCarrierBacked } = link.handle := fun _ => rfl
      exact staged.kept (modifyLink_handles this.manager id keeps) rfl rfl rfl rfl rfl
  | other now => exact staged.kept rfl rfl rfl rfl rfl rfl
  | surroundings around connectionOf => exact staged.kept rfl rfl rfl rfl rfl rfl

end Stages

end Steps

theorem create_sound (localPeerId : String) (limits : LinkLimits) :
    (create localPeerId limits).Sound := by
  have nobody : ∀ {id : LinkId}, 0 < id → ¬ id ≤ (create localPeerId limits).lastId :=
    fun positive old => Nat.not_lt_zero _ (Nat.lt_of_lt_of_le positive old)
  refine ⟨List.nodup_nil, ?_, List.nodup_nil, ?_, ?_, ?_, ?_, fun _ => trivial, ?_, ?_⟩
  · exact fun handle here => absurd here List.not_mem_nil
  · exact fun event under => absurd under List.not_mem_nil
  · exact fun id listed => absurd listed List.not_mem_nil
  · exact fun handle watching => absurd watching List.not_mem_nil
  · exact fun event told => absurd told List.not_mem_nil
  · exact fun event told => absurd told List.not_mem_nil
  · exact fun id positive old => absurd old (nobody positive)

/-- Whatever happens to the links and in whatever order, in the middle of drops too, their
events tell the story of each. -/
theorem events_tell_stories (localPeerId : String) (limits : LinkLimits)
    (happenings : List LinkHappening) :
    Run.Always step TellsStories (create localPeerId limits) happenings := by
  apply Run.always_of_invariant step (fun _ _ => True) (fun this => this.Sound ∧ this.Staged) TellsStories
  · exact fun _ happening _ known => ⟨known.1.step happening, known.2.step known.1 happening⟩
  · exact fun _ known => known.1.tells known.2
  · exact Run.meets_of_forall step _ (fun _ _ => trivial) happenings _
  · refine ⟨create_sound localPeerId limits, ?_, ?_⟩
    · exact fun handle here => absurd here List.not_mem_nil
    · exact fun id listed => absurd listed List.not_mem_nil

end LinkReporter

end Amp
