import Amp.L1.ReplayWindow
import Amp.Lib.Run
import Mathlib.Data.List.Range

set_option autoImplicit false

namespace Amp.Adp

open Run

namespace ReplayWindow

/-- What is pending is past the last number of the unbroken run. -/
def Beyond (window : ReplayWindow) : Prop :=
  ∀ seq ∈ window.pending, window.lastContiguous < seq

theorem absorb_beyond (turns : Nat) : ∀ window : ReplayWindow, window.Beyond →
    (absorb turns window).Beyond := by
  induction turns with
  | zero => exact fun window beyond => beyond
  | succ turns ih =>
      intro window beyond
      simp only [absorb]
      split
      · apply ih
        intro seq held
        have apart : seq ≠ window.lastContiguous + 1 := Finset.ne_of_mem_erase held
        have past := beyond seq (Finset.mem_of_mem_erase held)
        dsimp only
        omega
      · exact beyond

theorem Beyond.accept {window : ReplayWindow} (beyond : window.Beyond) (tight : window.Tight)
    (seq : Nat) : (window.accept seq).1.Beyond := by
  simp only [ReplayWindow.accept]
  split_ifs with _ past next
  · exact beyond
  · exact beyond
  · apply absorb_beyond
    intro other held
    have apart : other ≠ window.lastContiguous + 1 := fun same => tight (same ▸ held)
    have ahead := beyond other held
    dsimp only
    omega
  · exact fun _ held => absurd held (Finset.notMem_empty _)
  · exact beyond
  · exact beyond
  · intro other held
    rcases Finset.mem_insert.mp held with same | old
    · dsimp only
      omega
    · exact beyond other old

/-- What `Accept` takes it had not taken before. -/
theorem Sieves.unknown {window : ReplayWindow} (sieves : window.Sieves) {seq : Nat}
    (taken : (window.accept seq).2 = true) : ¬ window.Accepted seq := by
  intro known
  rw [sieves.refuses known] at taken
  cases taken

/-- `Classify` and `Accept` agree as long as the far edge is where it should be. -/
theorem Sieves.fresh_iff {window : ReplayWindow} (sieves : window.Sieves)
    (wide : 1 ≤ window.windowSize) {seq : Nat} (fits : seq < 2 ^ 32) :
    window.classify seq = .fresh ↔ (window.accept seq).2 = true := by
  constructor
  · exact accept_of_fresh window seq
  · intro taken
    have positive := accept_pos window seq taken
    have unknown := sieves.unknown taken
    by_cases slides : window.slideOnGap = true
    · exact fresh_of_slides slides positive unknown
    · have strict : window.slideOnGap = false := Bool.eq_false_iff.mpr slides
      have free : ¬ (seq = 0 ∨ seq ≤ window.lastContiguous ∨ seq ∈ window.pending) := by
        rintro (zero | known)
        · omega
        · exact unknown known
      have near : ¬ window.edge < seq := by
        intro far
        have size := sieves.size
        rw [strict] at size
        have edge : window.edge = window.lastContiguous + window.windowSize := by
          apply Nat.mod_eq_of_lt
          simp only [Bool.false_eq_true, ↓reduceIte] at size
          omega
        have next : seq ≠ window.lastContiguous + 1 := by omega
        simp only [ReplayWindow.accept, strict, Bool.false_eq_true, ↓reduceIte] at taken
        split_ifs at taken
      unfold classify
      rw [if_neg free, if_neg (fun both => near both.1)]

/-- A strict window takes every number within reach that it does not know. -/
theorem Sieves.takes {window : ReplayWindow} (sieves : window.Sieves) {seq : Nat}
    (fits : seq < 2 ^ 32) (unknown : ¬ window.Accepted seq)
    (reach : seq ≤ window.lastContiguous + window.windowSize) (positive : 1 ≤ seq) :
    (window.accept seq).2 = true := by
  have past : ¬ seq ≤ window.lastContiguous := fun low => unknown (Or.inl low)
  have absent : seq ∉ window.pending := fun held => unknown (Or.inr held)
  simp only [ReplayWindow.accept]
  split_ifs with zero next far
  · omega
  · rfl
  · rfl
  · rw [sieves.edge_eq (by omega) fits] at far
    omega
  · rfl

end ReplayWindow

/-- A replay window and the numbers it has let through, the latest first. -/
structure ReplayFilter where
  window : ReplayWindow
  taken : List Nat := []

namespace ReplayFilter

def offer (filter : ReplayFilter) (seq : Nat) : ReplayFilter :=
  { window := (filter.window.accept seq).1
    taken := if (filter.window.accept seq).2 then seq :: filter.taken else filter.taken }

def fresh (windowSize : Nat) (slideOnGap : Bool) : ReplayFilter :=
  { window := ⟨windowSize, slideOnGap, 0, ∅⟩ }

/-- A strict window loses nothing: what it has passed over it took, and what is
within reach it takes. -/
structure Lossless (filter : ReplayFilter) : Prop where
  passed : ∀ seq, 1 ≤ seq → seq ≤ filter.window.lastContiguous → seq ∈ filter.taken
  reached : ∀ seq, seq < 2 ^ 32 → seq ∉ filter.taken → filter.window.lastContiguous < seq →
    seq ≤ filter.window.lastContiguous + filter.window.windowSize →
    (filter.window.accept seq).2 = true
  exact : ∀ seq, seq ∈ filter.taken ↔
    (1 ≤ seq ∧ seq ≤ filter.window.lastContiguous) ∨ seq ∈ filter.window.pending

/-- What a replay filter owes in every state. -/
structure Correct (filter : ReplayFilter) : Prop where
  once : filter.taken.Nodup
  forward : ∀ seq, seq < 2 ^ 32 →
    filter.window.lastContiguous ≤ (filter.window.accept seq).1.lastContiguous
  within : ∀ seq ∈ filter.window.pending, filter.window.lastContiguous + 1 < seq ∧
    seq ≤ filter.window.lastContiguous + filter.window.windowSize
  agree : ∀ seq, seq < 2 ^ 32 →
    (filter.window.classify seq = .fresh ↔ (filter.window.accept seq).2 = true)
  lossless : filter.window.slideOnGap = false → filter.Lossless

/-- The invariant behind it. -/
structure Sound (filter : ReplayFilter) : Prop where
  sieves : filter.window.Sieves
  wide : 1 ≤ filter.window.windowSize
  beyond : filter.window.Beyond
  once : filter.taken.Nodup
  known : ∀ seq ∈ filter.taken, filter.window.Accepted seq
  strict : filter.window.slideOnGap = false →
    ∀ seq, seq ∈ filter.taken ↔ 1 ≤ seq ∧ filter.window.Accepted seq

theorem sound_fresh (windowSize : Nat) (slideOnGap : Bool) (wide : 1 ≤ windowSize)
    (size : windowSize + 2 ^ 32 ≤ 2 ^ 64 + if slideOnGap then 2 else 1) :
    (fresh windowSize slideOnGap).Sound := by
  have accepted : ∀ seq, (fresh windowSize slideOnGap).window.Accepted seq → seq = 0 := by
    rintro seq (low | held)
    · exact Nat.le_zero.mp low
    · exact absurd held (Finset.notMem_empty _)
  refine ⟨⟨Finset.notMem_empty _, ?_, ?_, size⟩, wide, ?_, List.nodup_nil, ?_, ?_⟩
  · exact fun seq held => absurd held (Finset.notMem_empty _)
  · intro seq taken
    have zero := accepted seq taken
    omega
  · exact fun seq held => absurd held (Finset.notMem_empty _)
  · exact fun seq absent => absurd absent List.not_mem_nil
  · intro _ seq
    constructor
    · exact fun absent => absurd absent List.not_mem_nil
    · rintro ⟨positive, taken⟩
      have zero := accepted seq taken
      omega

theorem Sound.offer {filter : ReplayFilter} (sound : filter.Sound) {seq : Nat}
    (fits : seq < 2 ^ 32) : (filter.offer seq).Sound := by
  have keeps : ∀ other ∈ filter.taken, (filter.window.accept seq).1.Accepted other :=
    fun other held => sound.sieves.keeps (sound.known other held) seq
  have wide : 1 ≤ (filter.window.accept seq).1.windowSize := by
    rw [ReplayWindow.accept_windowSize]
    exact sound.wide
  have beyond := sound.beyond.accept sound.sieves.tight seq
  cases outcome : (filter.window.accept seq).2 with
  | false =>
      have same := ReplayWindow.accept_refused filter.window seq outcome
      simp only [ReplayFilter.offer, outcome, same]
      exact sound
  | true =>
      have unknown := sound.sieves.unknown outcome
      simp only [ReplayFilter.offer, outcome, ↓reduceIte]
      refine ⟨sound.sieves.accept fits, wide, beyond, ?_, ?_, ?_⟩
      · apply List.nodup_cons.mpr
        exact ⟨fun held => unknown (sound.known seq held), sound.once⟩
      · intro other held
        rcases List.mem_cons.mp held with same | old
        · rw [same]
          exact ReplayWindow.accept_takes filter.window seq outcome
        · exact keeps other old
      · intro strict other
        dsimp only at strict ⊢
        rw [ReplayWindow.accept_slideOnGap] at strict
        rw [ReplayWindow.accept_accepted filter.window seq other strict outcome,
          List.mem_cons, sound.strict strict other]
        have positive := ReplayWindow.accept_pos filter.window seq outcome
        constructor
        · rintro (same | ⟨low, held⟩)
          · exact ⟨by omega, Or.inl same⟩
          · exact ⟨low, Or.inr held⟩
        · rintro ⟨low, same | held⟩
          · exact Or.inl same
          · exact Or.inr ⟨low, held⟩

theorem Sound.lossless {filter : ReplayFilter} (sound : filter.Sound)
    (strict : filter.window.slideOnGap = false) : filter.Lossless := by
  have listed := sound.strict strict
  refine ⟨?_, ?_, ?_⟩
  · intro seq positive low
    exact (listed seq).mpr ⟨positive, Or.inl low⟩
  · intro seq fits absent past reach
    have unknown : ¬ filter.window.Accepted seq :=
      fun known => absent ((listed seq).mpr ⟨by omega, known⟩)
    exact sound.sieves.takes fits unknown reach (by omega)
  · intro seq
    rw [listed seq]
    constructor
    · rintro ⟨positive, low | held⟩
      · exact Or.inl ⟨positive, low⟩
      · exact Or.inr held
    · rintro (⟨positive, low⟩ | held)
      · exact ⟨positive, Or.inl low⟩
      · have past := sound.beyond seq held
        exact ⟨by omega, Or.inr held⟩

theorem Sound.correct {filter : ReplayFilter} (sound : filter.Sound) : filter.Correct := by
  refine ⟨sound.once, ?_, ?_, ?_, sound.lossless⟩
  · exact fun seq _ => ReplayWindow.accept_lastContiguous_le filter.window seq
  · intro seq held
    have past := sound.beyond seq held
    exact ⟨sound.sieves.ahead held (by omega), sound.sieves.within seq held⟩
  · exact fun seq fits => sound.sieves.fresh_iff sound.wide fits

/-- The numbers 1 to `last` in their order reach every window state without a gap. -/
theorem climb (windowSize : Nat) (slideOnGap : Bool) (last : Nat) :
    (exec offer (fresh windowSize slideOnGap) (List.range' 1 last)).window =
      ⟨windowSize, slideOnGap, last, ∅⟩ := by
  induction last with
  | zero => rfl
  | succ last ih =>
      rw [List.range'_concat, exec_append, exec_cons, exec_nil]
      simp only [offer, ih, Nat.one_mul, Nat.add_comm 1 last]
      simp [ReplayWindow.accept, ReplayWindow.absorb]

theorem fits_climb {last : Nat} (fits : last < 2 ^ 32) :
    ∀ seq ∈ List.range' 1 last, seq < 2 ^ 32 := by
  intro seq listed
  have bound := (List.mem_range'_1.mp listed).2
  omega

/-- Where `last_contiguous_ + window_size_` is zero in 64 bits, `Accept` takes the
next number and `Classify` calls it too far. -/
theorem not_correct_strict {filter : ReplayFilter} {windowSize last : Nat}
    (state : filter.window = ⟨windowSize, false, last, ∅⟩) (fits : last + 1 < 2 ^ 32)
    (wraps : last + windowSize = 2 ^ 64) : ¬ filter.Correct := by
  intro correct
  have agree := correct.agree (last + 1) fits
  have edge : (ReplayWindow.mk windowSize false last ∅).edge = 0 := by
    show (last + windowSize) % 2 ^ 64 = 0
    rw [wraps, Nat.mod_self]
  have far : (ReplayWindow.mk windowSize false last ∅).classify (last + 1) = .tooFar := by
    apply ReplayWindow.classify_tooFar
    · simp [ReplayWindow.Accepted]
    · omega
    · rfl
  have taken : ((ReplayWindow.mk windowSize false last ∅).accept (last + 1)).2 = true := by
    simp [ReplayWindow.accept]
  rw [state, far, taken] at agree
  simp at agree

/-- Where it is zero a sliding window takes a pending number for one past its edge. -/
theorem not_correct_slide {windowSize last : Nat} (fits : last + 3 < 2 ^ 32)
    (wraps : last + 1 + windowSize = 2 ^ 64) : ¬ Correct (exec offer (fresh windowSize true)
      (List.range' 1 last ++ [last + 3, last + 1, last + 3])) := by
  have near : (ReplayWindow.mk windowSize true last ∅).edge = last + windowSize :=
    Nat.mod_eq_of_lt (by dsimp only; omega)
  have wrapped : (ReplayWindow.mk windowSize true (last + 1) {last + 3}).edge = 0 := by
    show (last + 1 + windowSize) % 2 ^ 64 = 0
    rw [wraps, Nat.mod_self]
  have reach : ¬ last + windowSize < last + 3 := by omega
  have held : (ReplayWindow.mk windowSize true last ∅).accept (last + 3) =
      (⟨windowSize, true, last, {last + 3}⟩, true) := by
    simp [ReplayWindow.accept, near, reach]
  have passed : (ReplayWindow.mk windowSize true last {last + 3}).accept (last + 1) =
      (⟨windowSize, true, last + 1, {last + 3}⟩, true) := by
    simp [ReplayWindow.accept, ReplayWindow.absorb]
  have again : (ReplayWindow.mk windowSize true (last + 1) {last + 3}).accept (last + 3) =
      (⟨windowSize, true, last + 3, ∅⟩, true) := by
    simp [ReplayWindow.accept, wrapped]
  intro correct
  have once := correct.once
  simp only [exec_append, exec_cons, exec_nil, offer, climb, held, passed, again, ↓reduceIte] at once
  simp at once

/-- `ReplayWindow` filters every sequence of numbers right, in either mode, up to
the sizes at which its far edge wraps for a number still to come. -/
theorem correct_iff (windowSize : Nat) (slideOnGap : Bool) (wide : 1 ≤ windowSize)
    (word : windowSize < 2 ^ 64) :
    (∀ seqs : List Nat, (∀ seq ∈ seqs, seq < 2 ^ 32) →
      Always offer Correct (fresh windowSize slideOnGap) seqs) ↔
    windowSize + 2 ^ 32 ≤ 2 ^ 64 + if slideOnGap then 2 else 1 := by
  constructor
  · intro always
    by_contra large
    cases slideOnGap with
    | false =>
        simp only [Bool.false_eq_true, ↓reduceIte] at large
        have fits : 2 ^ 64 - windowSize + 1 < 2 ^ 32 := by omega
        apply not_correct_strict (climb windowSize false (2 ^ 64 - windowSize)) fits (by omega)
        exact (always _ (fits_climb (by omega))).last
    | true =>
        simp only [↓reduceIte] at large
        have fits : 2 ^ 64 - windowSize - 1 + 3 < 2 ^ 32 := by omega
        apply not_correct_slide fits (by omega : 2 ^ 64 - windowSize - 1 + 1 + windowSize = 2 ^ 64)
        apply (always _ _).last
        intro seq listed
        rcases List.mem_append.mp listed with low | late
        · exact fits_climb (by omega) seq low
        · simp only [List.mem_cons, List.not_mem_nil, or_false] at late
          omega
  · intro size seqs fit
    apply always_of_invariant offer (fun _ seq => seq < 2 ^ 32) Sound Correct
    · exact fun _ _ fits sound => sound.offer fits
    · exact fun _ sound => sound.correct
    · exact meets_of_listed fit
    · exact sound_fresh windowSize slideOnGap wide size

theorem correct_iff_window : (∀ seqs : List Nat, (∀ seq ∈ seqs, seq < 2 ^ 32) →
      Always offer Correct (fresh 32 false) seqs) ↔ 32 + 2 ^ 32 ≤ 2 ^ 64 + 1 :=
  correct_iff 32 false (by decide) (by decide)

/-- A sliding window of size 2^64 - 1 takes 3 twice. -/
theorem repeats_wrapped : ¬ Always offer Correct (fresh (2 ^ 64 - 1) true) [3, 1, 3] := by
  intro always
  have fits : 0 + 3 < 2 ^ 32 := by decide
  have wraps : 0 + 1 + (2 ^ 64 - 1) = 2 ^ 64 := by decide
  exact not_correct_slide fits wraps always.last

end ReplayFilter

end Amp.Adp
