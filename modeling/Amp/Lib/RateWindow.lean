import Mathlib.Data.List.Basic

set_option autoImplicit false

/- How many of a list of times fall into any window of a given span. -/
namespace RateWindow

variable {span : Int} {limit : Nat}

/-- The times from `start` on, for `span`. -/
def within (span start : Int) (times : List Int) : Nat :=
  times.countP fun time => decide (start ≤ time) && decide (time < start + span)

/-- No window of the span holds more than `limit` of the times. -/
def Limited (span : Int) (limit : Nat) (times : List Int) : Prop :=
  ∀ start, within span start times ≤ limit

theorem within_append (start : Int) (early late : List Int) :
    within span start (early ++ late) = within span start early + within span start late :=
  List.countP_append

theorem within_le (start : Int) (times : List Int) : within span start times ≤ times.length :=
  List.countP_le_length

theorem within_none {start : Int} {times : List Int}
    (outside : ∀ time ∈ times, ¬(start ≤ time ∧ time < start + span)) :
    within span start times = 0 := by
  apply List.countP_eq_zero.mpr
  intro time listed counted
  simp only [Bool.and_eq_true, decide_eq_true_eq] at counted
  exact outside time listed counted

theorem within_all {start : Int} {times : List Int}
    (inside : ∀ time ∈ times, start ≤ time ∧ time < start + span) :
    within span start times = times.length := by
  apply List.countP_eq_length.mpr
  intro time listed
  simp only [Bool.and_eq_true, decide_eq_true_eq]
  exact inside time listed

theorem limited_of_length {times : List Int} (few : times.length ≤ limit) :
    Limited span limit times :=
  fun start => Nat.le_trans (within_le start times) few

/-- Of two groups a whole span apart, a window meets one at most. -/
theorem Limited.append {early late : List Int} (before : Limited span limit early)
    (after : Limited span limit late) (apart : ∀ one ∈ early, ∀ two ∈ late, span ≤ two - one) :
    Limited span limit (early ++ late) := by
  intro start
  rw [within_append]
  by_cases meets : ∃ one ∈ early, start ≤ one ∧ one < start + span
  · obtain ⟨one, listed, begun, ended⟩ := meets
    have none : within span start late = 0 := by
      apply within_none
      intro two other inside
      have far := apart one listed two other
      omega
    rw [none]
    exact before start
  · have none : within span start early = 0 := by
      apply within_none
      intro one listed inside
      exact meets ⟨one, listed, inside⟩
    rw [none, Nat.zero_add]
    exact after start

/-- A time and `limit` more at one later time, all in less than a span. -/
theorem not_limited_of_burst {times : List Int} {one two : Int} (listed : one ∈ times)
    (later : one ≤ two) (close : two - one < span) :
    ¬Limited span limit (times ++ List.replicate limit two) := by
  intro limited
  have most := limited one
  have burst : within span one (List.replicate limit two) = limit := by
    rw [within_all]
    · exact List.length_replicate
    · intro time repeated
      rw [List.eq_of_mem_replicate repeated]
      omega
  have first : 0 < within span one times := by
    apply List.countP_pos_iff.mpr
    refine ⟨one, listed, ?_⟩
    simp only [Bool.and_eq_true, decide_eq_true_eq]
    omega
  rw [within_append, burst] at most
  omega

end RateWindow
