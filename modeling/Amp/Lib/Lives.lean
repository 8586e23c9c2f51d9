import Mathlib.Data.List.Pairwise
import Mathlib.Tactic.NormNum

set_option autoImplicit false

/- Things that are made, go through stages of a given rank and are used, as a trace
of what became of each; and when every one of them only goes forward. -/
namespace Lives

inductive Mark (σ : Type) where
  | became (life : Nat) (stage : σ)
  | used (life : Nat)
  deriving DecidableEq, Repr

variable {σ : Type}

def Mark.stageOf (life : Nat) : Mark σ → Option σ
  | .became other stage => if other = life then some stage else none
  | .used _ => none

/-- The stages a life went through, in their order. -/
def stagesOf (life : Nat) (trace : List (Mark σ)) : List σ := trace.filterMap (Mark.stageOf life)

theorem stagesOf_append (life : Nat) (first second : List (Mark σ)) :
    stagesOf life (first ++ second) = stagesOf life first ++ stagesOf life second :=
  List.filterMap_append ..

@[simp] theorem stagesOf_became (life : Nat) (trace : List (Mark σ)) (stage : σ) :
    stagesOf life (trace ++ [.became life stage]) = stagesOf life trace ++ [stage] := by
  rw [stagesOf_append]
  simp [stagesOf, Mark.stageOf]

theorem stagesOf_became_ne {life other : Nat} (apart : other ≠ life) (trace : List (Mark σ))
    (stage : σ) : stagesOf life (trace ++ [.became other stage]) = stagesOf life trace := by
  rw [stagesOf_append]
  simp [stagesOf, Mark.stageOf, apart]

@[simp] theorem stagesOf_used (life other : Nat) (trace : List (Mark σ)) :
    stagesOf life (trace ++ [.used other]) = stagesOf life trace := by
  rw [stagesOf_append]
  simp [stagesOf, Mark.stageOf]

variable (rank : σ → Nat) (limit : Nat)

/-- No life goes back, and none is used once a stage of it was past the limit. -/
structure Orderly (trace : List (Mark σ)) : Prop where
  forward : ∀ life, (stagesOf life trace).Pairwise fun earlier later => rank earlier ≤ rank later
  used : ∀ before life rest, trace = before ++ .used life :: rest →
    ∀ stage ∈ stagesOf life before, rank stage ≤ limit

theorem orderly_nil : Orderly rank limit ([] : List (Mark σ)) := by
  refine ⟨fun _ => List.Pairwise.nil, ?_⟩
  intro before life rest same
  exact absurd same.symm (by simp)

variable {rank limit} {trace : List (Mark σ)}

/-- The end of a longer trace is the last mark, or lies in the trace before it. -/
theorem split_concat {last mark : Mark σ} {before rest : List (Mark σ)}
    (same : trace ++ [last] = before ++ mark :: rest) :
    (trace = before ∧ last = mark ∧ rest = []) ∨
      ∃ middle, rest = middle ++ [last] ∧ trace = before ++ mark :: middle := by
  rcases List.eq_nil_or_concat rest with rfl | ⟨middle, other, rfl⟩
  · obtain ⟨heads, lasts⟩ := List.append_inj' same rfl
    exact Or.inl ⟨heads, List.cons.inj lasts |>.1, rfl⟩
  · rw [List.concat_eq_append, ← List.cons_append, ← List.append_assoc] at same
    obtain ⟨heads, lasts⟩ := List.append_inj' same rfl
    exact Or.inr ⟨middle, by rw [List.concat_eq_append, (List.cons.inj lasts).1], heads⟩

/-- A life may go on to any stage that is not before its last one. -/
theorem Orderly.became (orderly : Orderly rank limit trace) {life : Nat} {stage : σ}
    (onward : ∀ last, (stagesOf life trace).getLast? = some last → rank last ≤ rank stage) :
    Orderly rank limit (trace ++ [.became life stage]) := by
  constructor
  · intro other
    by_cases same : life = other
    · subst same
      rw [stagesOf_became, List.pairwise_append]
      refine ⟨orderly.forward life, List.pairwise_singleton _ _, ?_⟩
      intro earlier member later last
      rw [List.mem_singleton.mp last]
      obtain ⟨body, final, split⟩ := (List.eq_nil_or_concat (stagesOf life trace)).resolve_left
        (List.ne_nil_of_mem member)
      rw [List.concat_eq_append] at split
      have above : rank final ≤ rank stage := onward final (by rw [split, List.getLast?_concat])
      have sorted := orderly.forward life
      rw [split, List.pairwise_append] at sorted
      rw [split] at member
      rcases List.mem_append.mp member with inside | own
      · exact (sorted.2.2 earlier inside final (List.mem_singleton_self _)).trans above
      · rw [List.mem_singleton.mp own]
        exact above
    · rw [stagesOf_became_ne same]
      exact orderly.forward other
  · intro before other rest same
    rcases split_concat same with ⟨_, mark, _⟩ | ⟨middle, _, inside⟩
    · cases mark
    · exact orderly.used before other middle inside

/-- A life may be used while its last stage is within the limit. -/
theorem Orderly.use (orderly : Orderly rank limit trace) {life : Nat} {last : σ}
    (current : (stagesOf life trace).getLast? = some last) (within : rank last ≤ limit) :
    Orderly rank limit (trace ++ [.used life]) := by
  constructor
  · intro other
    rw [stagesOf_used]
    exact orderly.forward other
  · intro before other rest same
    rcases split_concat same with ⟨rfl, mark, _⟩ | ⟨middle, _, inside⟩
    · cases mark
      intro stage member
      obtain ⟨body, final, split⟩ := (List.eq_nil_or_concat (stagesOf life trace)).resolve_left
        (List.ne_nil_of_mem member)
      rw [List.concat_eq_append] at split
      rw [split, List.getLast?_concat] at current
      obtain rfl := Option.some.inj current
      have sorted := orderly.forward life
      rw [split, List.pairwise_append] at sorted
      rw [split] at member
      rcases List.mem_append.mp member with early | own
      · exact (sorted.2.2 stage early final (List.mem_singleton_self _)).trans within
      · rw [List.mem_singleton.mp own]
        exact within
    · exact orderly.used before other middle inside

/-- A step back shows in the trace. -/
theorem not_orderly_of_back {life : Nat} {last stage : σ}
    (current : (stagesOf life trace).getLast? = some last) (back : rank stage < rank last)
    (later : List (Mark σ)) :
    ¬ Orderly rank limit (trace ++ [.became life stage] ++ later) := by
  intro orderly
  have sorted := orderly.forward life
  rw [stagesOf_append, stagesOf_became, List.pairwise_append, List.pairwise_append] at sorted
  have member : last ∈ stagesOf life trace := List.mem_of_getLast? current
  exact absurd (sorted.1.2.2 last member stage (List.mem_singleton_self _)) (Nat.not_le.mpr back)

end Lives
