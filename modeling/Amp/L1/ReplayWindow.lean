import Amp.L1.Types
import Mathlib.Data.Finset.Card

set_option autoImplicit false

namespace Amp.Adp

/-- Sequence numbers already taken: everything up to `lastContiguous`, and the
`pending` ones past the first gap. -/
structure ReplayWindow where
  windowSize : Nat
  slideOnGap : Bool
  lastContiguous : Nat := 0
  pending : Finset Nat := ∅
  deriving DecidableEq

inductive Verdict where
  | fresh
  | duplicate
  | tooFar
  deriving DecidableEq, Repr

namespace ReplayWindow

/-- The window's far edge, `last_contiguous_ + window_size_` in 64-bit arithmetic. -/
def edge (window : ReplayWindow) : Nat :=
  (window.lastContiguous + window.windowSize) % 2 ^ 64

def classify (window : ReplayWindow) (seq : Nat) : Verdict :=
  if seq = 0 ∨ seq ≤ window.lastContiguous ∨ seq ∈ window.pending then .duplicate
  else if window.edge < seq ∧ window.slideOnGap = false then .tooFar
  else .fresh

/-- `while (pending_.erase(last_contiguous_ + 1) > 0) ++last_contiguous_`; each
turn takes one pending number, so their count is enough turns. -/
def absorb : Nat → ReplayWindow → ReplayWindow
  | 0, window => window
  | turns + 1, window =>
      if window.lastContiguous + 1 ∈ window.pending then
        absorb turns { window with
          lastContiguous := window.lastContiguous + 1
          pending := window.pending.erase (window.lastContiguous + 1) }
      else window

def accept (window : ReplayWindow) (seq : Nat) : ReplayWindow × Bool :=
  if seq = 0 then (window, false)
  else if seq ≤ window.lastContiguous then (window, false)
  else if seq = window.lastContiguous + 1 then
    (absorb window.pending.card { window with lastContiguous := seq }, true)
  else if window.edge < seq then
    if window.slideOnGap then
      ({ window with lastContiguous := seq, pending := ∅ }, true)
    else (window, false)
  else if seq ∈ window.pending then (window, false)
  else ({ window with pending := insert seq window.pending }, true)

/-- A number the window has taken. -/
def Accepted (window : ReplayWindow) (seq : Nat) : Prop :=
  seq ≤ window.lastContiguous ∨ seq ∈ window.pending

instance (window : ReplayWindow) (seq : Nat) : Decidable (window.Accepted seq) :=
  inferInstanceAs (Decidable (_ ∨ _))

theorem absorb_accepted (turns : Nat) (window : ReplayWindow) (seq : Nat) :
    (absorb turns window).Accepted seq ↔ window.Accepted seq := by
  induction turns generalizing window with
  | zero => exact Iff.rfl
  | succ turns ih =>
      simp only [absorb]
      split
      · rename_i next
        rw [ih]
        simp only [Accepted, Finset.mem_erase]
        constructor
        · rintro (low | ⟨_, held⟩)
          · rcases Nat.lt_or_eq_of_le low with below | equal
            · exact Or.inl (by omega)
            · exact Or.inr (equal ▸ next)
          · exact Or.inr held
        · rintro (low | held)
          · exact Or.inl (by omega)
          · by_cases equal : seq = window.lastContiguous + 1
            · exact Or.inl (by omega)
            · exact Or.inr ⟨equal, held⟩
      · exact Iff.rfl

theorem absorb_window (turns : Nat) (window : ReplayWindow) :
    (absorb turns window).windowSize = window.windowSize ∧
      (absorb turns window).slideOnGap = window.slideOnGap := by
  induction turns generalizing window with
  | zero => exact ⟨rfl, rfl⟩
  | succ turns ih =>
      simp only [absorb]
      split
      · exact ih _
      · exact ⟨rfl, rfl⟩

theorem absorb_lastContiguous_le (turns : Nat) (window : ReplayWindow) :
    window.lastContiguous ≤ (absorb turns window).lastContiguous := by
  induction turns generalizing window with
  | zero => exact Nat.le_refl _
  | succ turns ih =>
      simp only [absorb]
      split
      · have step := ih { window with
          lastContiguous := window.lastContiguous + 1
          pending := window.pending.erase (window.lastContiguous + 1) }
        exact Nat.le_trans (Nat.le_succ _) step
      · exact Nat.le_refl _

theorem classify_duplicate (window : ReplayWindow) (seq : Nat) :
    window.classify seq = .duplicate ↔ seq = 0 ∨ window.Accepted seq := by
  simp only [classify, Accepted]
  split
  · rename_i taken
    exact ⟨fun _ => taken, fun _ => rfl⟩
  · rename_i free
    refine ⟨?_, fun taken => absurd taken free⟩
    split <;> intro absurdity <;> cases absurdity

theorem classify_tooFar (window : ReplayWindow) (seq : Nat)
    (unknown : ¬ (seq = 0 ∨ window.Accepted seq)) (far : window.edge < seq)
    (strict : window.slideOnGap = false) : window.classify seq = .tooFar := by
  unfold classify
  rw [if_neg (by exact unknown), if_pos ⟨far, strict⟩]

@[simp] theorem accept_windowSize (window : ReplayWindow) (seq : Nat) :
    (window.accept seq).1.windowSize = window.windowSize := by
  simp only [accept]
  split_ifs <;> first | rfl | exact (absorb_window _ _).1

@[simp] theorem accept_slideOnGap (window : ReplayWindow) (seq : Nat) :
    (window.accept seq).1.slideOnGap = window.slideOnGap := by
  simp only [accept]
  split_ifs <;> first | rfl | exact (absorb_window _ _).2

theorem accept_lastContiguous_le (window : ReplayWindow) (seq : Nat) :
    window.lastContiguous ≤ (window.accept seq).1.lastContiguous := by
  simp only [accept]
  split_ifs
  all_goals first
    | exact Nat.le_refl _
    | (refine Nat.le_trans ?_ (absorb_lastContiguous_le _ _); dsimp only; omega)
    | (dsimp only; omega)

theorem accept_refused (window : ReplayWindow) (seq : Nat)
    (refused : (window.accept seq).2 = false) : (window.accept seq).1 = window := by
  simp only [accept] at refused ⊢
  split_ifs at refused ⊢ <;> rfl

theorem accept_pos (window : ReplayWindow) (seq : Nat) (taken : (window.accept seq).2 = true) :
    0 < seq := by
  rcases Nat.eq_zero_or_pos seq with none | positive
  · simp [accept, none] at taken
  · exact positive

/-- `Accept` takes exactly what `Classify` calls fresh. -/
theorem accept_of_fresh (window : ReplayWindow) (seq : Nat)
    (fresh : window.classify seq = .fresh) : (window.accept seq).2 = true := by
  simp only [classify] at fresh
  split_ifs at fresh with taken far
  simp only [not_or] at taken
  obtain ⟨positive, above, absent⟩ := taken
  simp only [accept, positive, above, absent, ↓reduceIte]
  by_cases beyond : window.edge < seq
  · have slides : window.slideOnGap = true := by
      simpa [beyond] using far
    split_ifs <;> rfl
  · split_ifs <;> rfl

/-- A sliding window calls every number fresh that it has not taken. -/
theorem fresh_of_slides {window : ReplayWindow} (slides : window.slideOnGap = true) {seq : Nat}
    (positive : 0 < seq) (unknown : ¬ window.Accepted seq) : window.classify seq = .fresh := by
  have free : ¬ (seq = 0 ∨ seq ≤ window.lastContiguous ∨ seq ∈ window.pending) := by
    rintro (zero | taken)
    · omega
    · exact unknown taken
  unfold classify
  rw [if_neg free, slides, if_neg (by simp)]

/-- Sliding or not, taking a number takes none above it. -/
theorem accepted_of_accept (window : ReplayWindow) (seq other : Nat)
    (taken : (window.accept seq).1.Accepted other) : window.Accepted other ∨ other ≤ seq := by
  simp only [accept] at taken
  split_ifs at taken
  · exact Or.inl taken
  · exact Or.inl taken
  · rw [absorb_accepted] at taken
    rcases taken with low | held
    · exact Or.inr low
    · exact Or.inl (Or.inr held)
  · rcases taken with low | held
    · exact Or.inr low
    · exact absurd held (Finset.notMem_empty _)
  · exact Or.inl taken
  · exact Or.inl taken
  · rcases taken with low | held
    · exact Or.inl (Or.inl low)
    · rcases Finset.mem_insert.mp held with same | old
      · exact Or.inr (Nat.le_of_eq same)
      · exact Or.inl (Or.inr old)

/-- In strict mode a taken number joins the accepted ones and none leaves. -/
theorem accept_accepted (window : ReplayWindow) (seq other : Nat)
    (strict : window.slideOnGap = false) (taken : (window.accept seq).2 = true) :
    (window.accept seq).1.Accepted other ↔ other = seq ∨ window.Accepted other := by
  simp only [accept, strict, Bool.false_eq_true, ↓reduceIte] at taken ⊢
  split_ifs at taken ⊢ with zero low next far held
  · have reach : other ≤ seq ↔ other = seq ∨ other ≤ window.lastContiguous := by omega
    rw [absorb_accepted]
    simp only [Accepted, reach, or_assoc]
  · simp only [Accepted, Finset.mem_insert]
    tauto

theorem Accepted.accept {window : ReplayWindow} {other : Nat} (taken : window.Accepted other)
    (strict : window.slideOnGap = false) (seq : Nat) :
    (window.accept seq).1.Accepted other := by
  cases outcome : (window.accept seq).2 with
  | false => rwa [accept_refused window seq outcome]
  | true => exact (accept_accepted window seq other strict outcome).mpr (Or.inr taken)

/-- Nothing next in line is left pending. -/
def Tight (window : ReplayWindow) : Prop := window.lastContiguous + 1 ∉ window.pending

theorem absorb_tight (turns : Nat) : ∀ window : ReplayWindow, window.pending.card ≤ turns →
    (absorb turns window).Tight := by
  induction turns with
  | zero =>
      intro window none
      have empty : window.pending = ∅ := Finset.card_eq_zero.mp (Nat.le_zero.mp none)
      simp [absorb, Tight, empty]
  | succ turns ih =>
      intro window size
      simp only [absorb]
      split
      · rename_i next
        refine ih _ ?_
        have shrinks := Finset.card_erase_add_one next
        dsimp only
        omega
      · assumption

theorem Tight.accept {window : ReplayWindow} (tight : window.Tight) (seq : Nat) :
    (window.accept seq).1.Tight := by
  simp only [ReplayWindow.accept]
  split_ifs with _ _ next
  · exact tight
  · exact tight
  · exact absorb_tight _ _ (Nat.le_refl _)
  · simp [Tight]
  · exact tight
  · exact tight
  · simp only [Tight, Finset.mem_insert, not_or]
    exact ⟨fun same => next same.symm, tight⟩

/-- With nothing next in line pending, the first number not taken is the next one. -/
theorem Tight.reach {window : ReplayWindow} (tight : window.Tight) (bound : Nat)
    (taken : ∀ seq, 0 < seq → seq ≤ bound → window.Accepted seq) :
    bound ≤ window.lastContiguous := by
  by_contra short
  rcases taken (window.lastContiguous + 1) (Nat.succ_pos _) (by omega) with low | held
  · omega
  · exact tight held

/-- A window, sliding or not, that never takes a number twice: what is pending is
within reach and not next in line, and for no number to come does the far edge wrap. -/
structure Sieves (window : ReplayWindow) : Prop where
  tight : window.Tight
  within : ∀ seq ∈ window.pending, seq ≤ window.lastContiguous + window.windowSize
  small : ∀ seq, window.Accepted seq → seq < 2 ^ 32
  size : window.windowSize + 2 ^ 32 ≤ 2 ^ 64 + if window.slideOnGap then 2 else 1

/-- Ahead of the next number the far edge is where it should be. -/
theorem Sieves.edge_eq {window : ReplayWindow} (sieves : window.Sieves) {seq : Nat}
    (ahead : window.lastContiguous + 1 < seq) (fits : seq < 2 ^ 32) :
    window.edge = window.lastContiguous + window.windowSize := by
  have size := sieves.size
  apply Nat.mod_eq_of_lt
  split at size <;> omega

theorem absorb_pending (turns : Nat) (window : ReplayWindow) (seq : Nat) :
    seq ∈ (absorb turns window).pending → seq ∈ window.pending := by
  induction turns generalizing window with
  | zero => exact fun held => held
  | succ turns ih =>
      simp only [absorb]
      split
      · intro held
        exact Finset.mem_of_mem_erase (ih _ held)
      · exact fun held => held

/-- A pending number is past the next one. -/
theorem Sieves.ahead {window : ReplayWindow} (sieves : window.Sieves) {seq : Nat}
    (held : seq ∈ window.pending) (past : ¬ seq ≤ window.lastContiguous) :
    window.lastContiguous + 1 < seq := by
  have apart : seq ≠ window.lastContiguous + 1 := fun next => sieves.tight (next ▸ held)
  omega

/-- A number the window knows is refused. -/
theorem Sieves.refuses {window : ReplayWindow} (sieves : window.Sieves) {seq : Nat}
    (known : window.Accepted seq) : (window.accept seq).2 = false := by
  simp only [ReplayWindow.accept]
  rcases known with low | held
  · split_ifs <;> rfl
  · have reach := sieves.within seq held
    split_ifs with _ past next far
    · rfl
    · rfl
    · rw [next] at held
      exact absurd held sieves.tight
    · rw [sieves.edge_eq (sieves.ahead held past) (sieves.small seq (Or.inr held))] at far
      omega
    · rfl
    · rfl

/-- What was taken stays taken, also when the window slides. -/
theorem Sieves.keeps {window : ReplayWindow} (sieves : window.Sieves) {other : Nat}
    (taken : window.Accepted other) (seq : Nat) : (window.accept seq).1.Accepted other := by
  simp only [ReplayWindow.accept]
  split_ifs with _ past next far
  · exact taken
  · exact taken
  · rw [absorb_accepted]
    rcases taken with low | held
    · exact Or.inl (by dsimp only; omega)
    · exact Or.inr held
  · have small := sieves.small other taken
    rcases taken with low | held
    · exact Or.inl (by dsimp only; omega)
    · have reach := sieves.within other held
      left
      dsimp only
      by_cases fits : seq < 2 ^ 32
      · rw [sieves.edge_eq (by omega) fits] at far
        omega
      · omega
  · exact taken
  · exact taken
  · rcases taken with low | held
    · exact Or.inl low
    · exact Or.inr (Finset.mem_insert_of_mem held)

theorem accept_takes (window : ReplayWindow) (seq : Nat) (taken : (window.accept seq).2 = true) :
    (window.accept seq).1.Accepted seq := by
  simp only [accept] at taken ⊢
  split_ifs at taken ⊢
  · rw [absorb_accepted]
    exact Or.inl (Nat.le_refl _)
  · exact Or.inl (Nat.le_refl _)
  · exact Or.inr (Finset.mem_insert_self _ _)

theorem Sieves.accept {window : ReplayWindow} (sieves : window.Sieves) {seq : Nat}
    (fits : seq < 2 ^ 32) : (window.accept seq).1.Sieves := by
  have small := sieves.small
  have within := sieves.within
  refine ⟨sieves.tight.accept seq, ?_, ?_, ?_⟩
  · intro other
    have grows := accept_lastContiguous_le window seq
    rw [accept_windowSize]
    revert grows
    simp only [ReplayWindow.accept]
    split_ifs with _ _ next far slides
    · exact fun _ held => within other held
    · exact fun _ held => within other held
    · intro grows held
      have old : other ∈ window.pending :=
        absorb_pending _ { window with lastContiguous := seq } _ held
      have reach := within other old
      omega
    · exact fun _ held => absurd held (Finset.notMem_empty _)
    · exact fun _ held => within other held
    · exact fun _ held => within other held
    · intro _ held
      rcases Finset.mem_insert.mp held with same | old
      · have edge := sieves.edge_eq (by omega) fits
        dsimp only
        omega
      · exact within other old
  · intro other
    simp only [ReplayWindow.accept]
    split_ifs with _ _ next
    · exact small other
    · exact small other
    · rw [absorb_accepted]
      rintro (low | held)
      · dsimp only at low
        omega
      · exact small other (Or.inr held)
    · rintro (low | held)
      · dsimp only at low
        omega
      · exact absurd held (Finset.notMem_empty _)
    · exact small other
    · exact small other
    · rintro (low | held)
      · exact small other (Or.inl low)
      · rcases Finset.mem_insert.mp held with same | old
        · omega
        · exact small other (Or.inr old)
  · rw [accept_windowSize, accept_slideOnGap]
    exact sieves.size

/-- A window that is small enough for its far edge never to wrap. -/
structure Filters (window : ReplayWindow) : Prop where
  tight : window.Tight
  within : ∀ seq ∈ window.pending, seq ≤ window.lastContiguous + window.windowSize
  small : ∀ seq, window.Accepted seq → seq < 2 ^ 32
  size : window.windowSize + 2 ^ 32 ≤ 2 ^ 64

theorem Filters.sieves {window : ReplayWindow} (filters : window.Filters) : window.Sieves :=
  ⟨filters.tight, filters.within, filters.small, Nat.le_add_right_of_le filters.size⟩

theorem filters_fresh (windowSize : Nat) (slideOnGap : Bool)
    (size : windowSize + 2 ^ 32 ≤ 2 ^ 64) : Filters ⟨windowSize, slideOnGap, 0, ∅⟩ := by
  refine ⟨Finset.notMem_empty _, fun seq held => absurd held (Finset.notMem_empty _), ?_, size⟩
  intro seq taken
  rcases taken with low | held
  · dsimp only at low
    omega
  · exact absurd held (Finset.notMem_empty _)

/-- A number the window knows is refused. -/
theorem Filters.refuses {window : ReplayWindow} (filters : window.Filters) {seq : Nat}
    (known : window.Accepted seq) : (window.accept seq).2 = false :=
  filters.sieves.refuses known

/-- What was taken stays taken, also when the window slides. -/
theorem Filters.keeps {window : ReplayWindow} (filters : window.Filters) {other : Nat}
    (taken : window.Accepted other) (seq : Nat) : (window.accept seq).1.Accepted other :=
  filters.sieves.keeps taken seq

theorem Filters.accept {window : ReplayWindow} (filters : window.Filters) {seq : Nat}
    (fits : seq < 2 ^ 32) : (window.accept seq).1.Filters := by
  have sieves := filters.sieves.accept fits
  refine ⟨sieves.tight, sieves.within, sieves.small, ?_⟩
  rw [accept_windowSize]
  exact filters.size

end ReplayWindow

end Amp.Adp
