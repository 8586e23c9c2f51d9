import Amp.Link.LinkCapacity

set_option autoImplicit false

/- What becomes of a link that gives way to an accepted one. -/
namespace Amp.PeerLinkManager

/-- The key of an accepted link until its peer is known. -/
def inboundKey (assoc : String) : DialKey := "inbound:" ++ assoc

/-- The newcomer is the table's last link, its handshake about to start. -/
def LetIn (before after : PeerLinkManager) (assoc : String) : Prop :=
  ∃ earlier newcomer, after.table.links = earlier ++ [newcomer] ∧
    earlier.length = before.table.links.length ∧ newcomer.peerKey = inboundKey assoc ∧
    newcomer.outbound = false ∧ newcomer.phase = .handshaking

/-- An idle link heard from no later than any other idle one. -/
structure LongestIdle (m : PeerLinkManager) (link : PeerLink) : Prop where
  held : link ∈ m.table.links
  inbound : link.outbound = false
  adp : link.isCarrierBacked = false
  connected : link.phase = .connected
  unclosed : link.association.closed = false
  unused : link.inUse = false
  silent : kMinIdleForEvictionMs ≤ m.around.nowMs - link.association.lastAuthRxMs
  longest : ∀ other ∈ m.table.links, m.idleInbound other = true →
    link.association.lastAuthRxMs ≤ other.association.lastAuthRxMs

/-- The link is closed where it stands, and dropped at the next Tick. -/
def closeLink (m : PeerLinkManager) (id : LinkId) : List PeerLink :=
  m.table.links.map fun link =>
    if link.id = id then { link with association := { link.association with closed := true } }
    else link

/-- What the call did to the links it found: nothing, or it closed one that was the longest idle
and scheduled its drop. -/
def TookAtMost (before after : PeerLinkManager) : Prop :=
  (after.table.links.take before.table.links.length = before.table.links ∧
    after.pendingDrops = before.pendingDrops) ∨
  ∃ victim, before.LongestIdle victim ∧
    after.table.links.take before.table.links.length = before.closeLink victim.id ∧
    after.pendingDrops = before.pendingDrops ++ [(victim.handle, .idleEvicted)]

/-- A link gives way only to a newcomer that gets in, and only the longest idle one does. -/
structure EvictsFairly (before after : PeerLinkManager) (assoc : String) : Prop where
  forNewcomer : before.LetIn after assoc ∨
    after.table = before.table ∧ after.pendingDrops = before.pendingDrops
  idleOnly : before.TookAtMost after

section Eviction

variable {m : PeerLinkManager}

theorem oldest_le {links : List PeerLink} {link : PeerLink} (found : oldest links = some link) :
    ∀ other ∈ links, link.association.lastAuthRxMs ≤ other.association.lastAuthRxMs := by
  induction links generalizing link with
  | nil => cases found
  | cons first rest ih =>
      unfold oldest at found
      cases later : oldest rest with
      | none =>
          rw [later] at found
          cases found
          have empty : rest = [] := by
            cases rest with
            | nil => rfl
            | cons second more =>
                unfold oldest at later
                split at later
                · cases later
                · split at later
                  · cases later
                  · cases later
          intro other among
          rw [empty] at among
          rw [List.mem_singleton.mp among]
      | some best =>
          rw [later] at found
          have below := ih later
          dsimp only at found
          intro other among
          split at found
          · rename_i earlier
            cases found
            rcases List.mem_cons.mp among with rfl | more
            · exact Int.le_of_lt earlier
            · exact below other more
          · rename_i notEarlier
            cases found
            rcases List.mem_cons.mp among with rfl | more
            · exact Int.le_refl _
            · have least := below other more
              omega

theorem oldest_none {links : List PeerLink} (none : oldest links = none) : links = [] := by
  cases links with
  | nil => rfl
  | cons first rest =>
      unfold oldest at none
      split at none
      · cases none
      · split at none
        · cases none
        · cases none

/-- `EvictIdleInboundLocked` of the link it chose. -/
def evictFor (m : PeerLinkManager) (victim : PeerLink) : PeerLinkManager :=
  (m.modifyLink victim.id fun link =>
    { link with association := { link.association with closed := true } }).scheduleDropLink
      victim.handle .idleEvicted

/-- What a call does with a newcomer there is a slot for. -/
def takeIn (m : PeerLinkManager) (assoc : String) : PeerLinkManager :=
  if m.limits.maxPendingInbound ≤ m.pendingInbound then m
  else if m.table.containsDialKey (inboundKey assoc) then m
  else m.insertLink {
    id := 0
    generation := 0
    peerKey := inboundKey assoc
    remotePeerId := ""
    outbound := false
    isCarrierBacked := false
    establishCb := some .inbound }

/-- The two refusals a newcomer can still meet once there is a slot for it. -/
def Welcomes (m : PeerLinkManager) (assoc : String) : Prop :=
  m.pendingInbound < m.limits.maxPendingInbound ∧ m.table.containsDialKey (inboundKey assoc) = false

theorem evictFor_pendingInbound (victim : PeerLink) :
    (m.evictFor victim).pendingInbound = m.pendingInbound := by
  show List.countP _ (m.closeLink victim.id) = _
  unfold closeLink
  rw [List.countP_map]
  apply List.countP_congr
  intro link _
  dsimp only [Function.comp_apply]
  split
  · exact Iff.rfl
  · exact Iff.rfl

theorem evictFor_welcomes (victim : PeerLink) (assoc : String) :
    (m.evictFor victim).Welcomes assoc ↔ m.Welcomes assoc := by
  unfold Welcomes
  rw [evictFor_pendingInbound]
  exact Iff.rfl

theorem closeLink_length (id : LinkId) : (m.closeLink id).length = m.table.links.length :=
  List.length_map _

theorem takeIn_welcome {assoc : String} (welcome : m.Welcomes assoc) :
    ∃ newcomer, (m.takeIn assoc).table.links = m.table.links ++ [newcomer] ∧
      newcomer.peerKey = inboundKey assoc ∧ newcomer.outbound = false ∧
      newcomer.phase = .handshaking ∧ (m.takeIn assoc).pendingDrops = m.pendingDrops := by
  have place : ¬m.limits.maxPendingInbound ≤ m.pendingInbound := Nat.not_le_of_lt welcome.1
  have fresh : ¬m.table.containsDialKey (inboundKey assoc) = true := by
    rw [welcome.2]
    exact Bool.false_ne_true
  unfold takeIn
  rw [if_neg place, if_neg fresh]
  exact ⟨_, rfl, rfl, rfl, rfl, rfl⟩

theorem takeIn_unwelcome {assoc : String} (unwelcome : ¬m.Welcomes assoc) :
    m.takeIn assoc = m := by
  unfold takeIn
  by_cases full : m.limits.maxPendingInbound ≤ m.pendingInbound
  · exact if_pos full
  · rw [if_neg full]
    apply if_pos
    by_contra fresh
    exact unwelcome ⟨Nat.lt_of_not_le full, Bool.eq_false_of_not_eq_true fresh⟩

theorem longestIdle_of_oldest {victim : PeerLink}
    (found : oldest (m.table.forEach.filter m.idleInbound) = some victim) :
    m.LongestIdle victim := by
  have walked : ∀ link, link ∈ m.table.forEach ↔ link ∈ m.table.links :=
    fun link => (m.table.order.perm m.table.links).mem_iff
  have chosen := List.mem_filter.mp (oldest_mem found)
  have idle := chosen.2
  unfold idleInbound at idle
  simp only [Bool.and_eq_true, Bool.not_eq_true', decide_eq_true_eq] at idle
  obtain ⟨⟨⟨⟨⟨inbound, adp⟩, connected⟩, unclosed⟩, unused⟩, silent⟩ := idle
  have longest : ∀ other ∈ m.table.links, m.idleInbound other = true →
      victim.association.lastAuthRxMs ≤ other.association.lastAuthRxMs := by
    intro other held idle
    exact oldest_le found other (List.mem_filter.mpr ⟨(walked other).mpr held, idle⟩)
  exact ⟨(walked victim).mp chosen.1, inbound, adp, beq_iff_eq.mp connected, unclosed, unused,
    silent, longest⟩

theorem LongestIdle.idle {victim : PeerLink} (longest : m.LongestIdle victim) :
    m.idleInbound victim = true := by
  have connected : victim.connected = true := beq_iff_eq.mpr longest.connected
  have silent := longest.silent
  unfold idleInbound
  rw [longest.inbound, longest.adp, connected, longest.unclosed, longest.unused]
  exact decide_eq_true silent

/-- Nothing is idle where nothing was chosen. -/
theorem none_idle (none : oldest (m.table.forEach.filter m.idleInbound) = none) :
    ¬∃ link ∈ m.table.links, m.idleInbound link = true := by
  rintro ⟨link, held, idle⟩
  have walked := (m.table.order.perm m.table.links).mem_iff.mpr held
  have listed := List.mem_filter.mpr ⟨walked, idle⟩
  have empty := oldest_none none
  unfold LinkTable.forEach at empty
  rw [empty] at listed
  cases listed

section Calls

variable {assoc : String}

theorem onInboundConnection_roomy (room : m.atLinkCapacity = false) :
    m.onInboundConnection assoc = m.takeIn assoc := by
  unfold onInboundConnection makeRoom
  rw [room]
  rfl

theorem onInboundConnection_evicting {victim : PeerLink} (full : m.atLinkCapacity = true)
    (found : oldest (m.table.forEach.filter m.idleInbound) = some victim) :
    m.onInboundConnection assoc = (m.evictFor victim).takeIn assoc := by
  unfold onInboundConnection makeRoom evictIdleInbound
  rw [full, found]
  rfl

theorem onInboundConnection_refusing (full : m.atLinkCapacity = true)
    (found : oldest (m.table.forEach.filter m.idleInbound) = none) :
    m.onInboundConnection assoc = m := by
  unfold onInboundConnection makeRoom evictIdleInbound
  rw [full, found]
  rfl

theorem TookAtMost.refl (m : PeerLinkManager) : m.TookAtMost m :=
  .inl ⟨List.take_length, rfl⟩

/-- Taking a newcomer in after `before` became `m`, which has as many links. -/
theorem takeIn_tookAtMost {before : PeerLinkManager}
    (same : before.table.links.length = m.table.links.length) (took : before.TookAtMost m) :
    before.TookAtMost (m.takeIn assoc) := by
  by_cases welcome : m.Welcomes assoc
  · obtain ⟨newcomer, links, _, _, _, drops⟩ := takeIn_welcome welcome
    unfold TookAtMost at took ⊢
    rw [links, drops, List.take_append_of_le_length (Nat.le_of_eq same)]
    exact took
  · rw [takeIn_unwelcome welcome]
    exact took

theorem takeIn_letIn {before : PeerLinkManager}
    (same : m.table.links.length = before.table.links.length) (welcome : m.Welcomes assoc) :
    before.LetIn (m.takeIn assoc) assoc := by
  obtain ⟨newcomer, links, key, inbound, begun, _⟩ := takeIn_welcome welcome
  exact ⟨m.table.links, newcomer, links, same, key, inbound, begun⟩

theorem roomy_fair : m.EvictsFairly (m.takeIn assoc) assoc := by
  have took : m.TookAtMost (m.takeIn assoc) := takeIn_tookAtMost rfl (TookAtMost.refl m)
  by_cases welcome : m.Welcomes assoc
  · exact ⟨.inl (takeIn_letIn rfl welcome), took⟩
  · rw [takeIn_unwelcome welcome] at took ⊢
    exact ⟨.inr ⟨rfl, rfl⟩, took⟩

/-- A drop scheduled, and the table no longer than it was. -/
theorem unfair_of_nobody {before after : PeerLinkManager}
    (nobody : after.table.links.length = before.table.links.length)
    (dropped : after.pendingDrops ≠ before.pendingDrops) : ¬before.EvictsFairly after assoc := by
  intro fair
  rcases fair.forNewcomer with ⟨earlier, newcomer, links, count, _⟩ | ⟨_, unmoved⟩
  · have longer := congrArg List.length links
    rw [List.length_append, count, List.length_singleton] at longer
    omega
  · exact dropped unmoved

theorem evicting_fair_iff {victim : PeerLink} (longest : m.LongestIdle victim) :
    m.EvictsFairly ((m.evictFor victim).takeIn assoc) assoc ↔ m.Welcomes assoc := by
  have same : (m.evictFor victim).table.links.length = m.table.links.length :=
    closeLink_length victim.id
  have drops : (m.evictFor victim).pendingDrops =
      m.pendingDrops ++ [(victim.handle, .idleEvicted)] := rfl
  have took : m.TookAtMost (m.evictFor victim) := by
    have whole : (m.evictFor victim).table.links.take m.table.links.length =
        m.closeLink victim.id := by
      rw [← same]
      exact List.take_length
    exact .inr ⟨victim, longest, whole, drops⟩
  constructor
  · intro fair
    by_contra unwelcome
    have kept : (m.evictFor victim).takeIn assoc = m.evictFor victim :=
      takeIn_unwelcome fun welcome => unwelcome ((evictFor_welcomes victim assoc).mp welcome)
    rw [kept] at fair
    apply unfair_of_nobody same _ fair
    rw [drops]
    simp
  · intro welcome
    exact ⟨.inl (takeIn_letIn same ((evictFor_welcomes victim assoc).mpr welcome)),
      takeIn_tookAtMost same.symm took⟩

/-- The backlog of handshakes and the key are looked at after the eviction, so it is for a
newcomer only where both let that one pass. -/
theorem onInboundConnection_evicts_fairly (m : PeerLinkManager) (assoc : String) :
    m.EvictsFairly (m.onInboundConnection assoc) assoc ↔
      (m.atLinkCapacity = true → (∃ link ∈ m.table.links, m.idleInbound link = true) →
        m.Welcomes assoc) := by
  cases full : m.atLinkCapacity with
  | false =>
      rw [onInboundConnection_roomy full]
      constructor
      · intro _ overfull
        cases overfull
      · intro _
        exact roomy_fair
  | true =>
      cases found : oldest (m.table.forEach.filter m.idleInbound) with
      | none =>
          rw [onInboundConnection_refusing full found]
          constructor
          · intro _ _ idle
            exact absurd idle (none_idle found)
          · intro _
            exact ⟨.inr ⟨rfl, rfl⟩, .refl m⟩
      | some victim =>
          have longest := longestIdle_of_oldest found
          rw [onInboundConnection_evicting full found, evicting_fair_iff longest]
          constructor
          · intro welcome _ _
            exact welcome
          · intro welcome
            exact welcome rfl ⟨victim, longest.held, longest.idle⟩

end Calls

end Eviction

section Samples

attribute [local instance] anyAddress

/-- Two slots, an idle link and a handshake under way: the handshake fills its backlog. -/
def idleAndHandshaking : PeerLinkManager :=
  Run.exec step (create "alice" { maxLinks := 2, maxPendingInbound := 1 })
    [meetingBob, .inboundConnection "aa", comesUp 1, .inboundConnection "bb"]

theorem idle_link_closed_for_nobody :
    ¬idleAndHandshaking.EvictsFairly (idleAndHandshaking.onInboundConnection "cc") "cc" := by
  apply unfair_of_nobody
  · decide +kernel
  · decide +kernel

end Samples

end Amp.PeerLinkManager
