import Mathlib.Tactic.NormNum

set_option autoImplicit false

/- Runs of a deterministic machine driven by a list of events, and the
invariant rule for runs whose every step meets a condition on the state
before it. -/
namespace Run

variable {σ ε : Type}

def exec (step : σ → ε → σ) (start : σ) (events : List ε) : σ :=
  events.foldl step start

/-- Every event of the run is allowed in the state it happens in. -/
def Meets (step : σ → ε → σ) (allowed : σ → ε → Prop) : σ → List ε → Prop
  | _, [] => True
  | state, event :: rest => allowed state event ∧ Meets step allowed (step state event) rest

instance decidableMeets (step : σ → ε → σ) (allowed : σ → ε → Prop)
    [∀ state event, Decidable (allowed state event)] :
    ∀ (start : σ) (events : List ε), Decidable (Meets step allowed start events)
  | _, [] => inferInstanceAs (Decidable True)
  | state, event :: rest =>
      haveI := decidableMeets step allowed (step state event) rest
      inferInstanceAs (Decidable (allowed state event ∧ Meets step allowed (step state event) rest))

/-- A property of every state the run goes through, its first and last included. -/
def Always (step : σ → ε → σ) (holds : σ → Prop) : σ → List ε → Prop
  | state, [] => holds state
  | state, event :: rest => holds state ∧ Always step holds (step state event) rest

instance decidableAlways (step : σ → ε → σ) (holds : σ → Prop) [DecidablePred holds] :
    ∀ (start : σ) (events : List ε), Decidable (Always step holds start events)
  | state, [] => inferInstanceAs (Decidable (holds state))
  | state, event :: rest =>
      haveI := decidableAlways step holds (step state event) rest
      inferInstanceAs (Decidable (holds state ∧ Always step holds (step state event) rest))

@[simp] theorem exec_nil (step : σ → ε → σ) (start : σ) : exec step start [] = start := rfl

@[simp] theorem exec_cons (step : σ → ε → σ) (start : σ) (event : ε) (rest : List ε) :
    exec step start (event :: rest) = exec step (step start event) rest := rfl

theorem exec_append (step : σ → ε → σ) (start : σ) (first second : List ε) :
    exec step start (first ++ second) = exec step (exec step start first) second :=
  List.foldl_append

/-- What is seen of every step of a run, in its order. -/
def collect {α : Type} (step : σ → ε → σ) (seen : σ → ε → List α) : σ → List ε → List α
  | _, [] => []
  | state, event :: rest => seen state event ++ collect step seen (step state event) rest

theorem meets_append (step : σ → ε → σ) (allowed : σ → ε → Prop) (first second : List ε) :
    ∀ start, Meets step allowed start (first ++ second) ↔
      Meets step allowed start first ∧ Meets step allowed (exec step start first) second := by
  induction first with
  | nil => exact fun start => ⟨fun met => ⟨trivial, met⟩, fun met => met.2⟩
  | cons event rest ih =>
      intro start
      rw [exec_cons, List.cons_append]
      exact (and_congr_right fun _ => ih (step start event)).trans and_assoc.symm

/-- What every allowed step preserves, every run of allowed steps preserves. -/
theorem invariant (step : σ → ε → σ) (allowed : σ → ε → Prop) (inv : σ → Prop)
    (kept : ∀ state event, allowed state event → inv state → inv (step state event))
    (events : List ε) : ∀ start, Meets step allowed start events → inv start →
    inv (exec step start events) := by
  induction events with
  | nil => intro start _ holds; exact holds
  | cons event rest ih =>
      intro start met holds
      exact ih (step start event) met.2 (kept start event met.1 holds)

/-- The rule without a condition: every step preserves the invariant. -/
theorem invariant_always (step : σ → ε → σ) (inv : σ → Prop)
    (kept : ∀ state event, inv state → inv (step state event))
    (events : List ε) (start : σ) (holds : inv start) : inv (exec step start events) := by
  induction events generalizing start with
  | nil => exact holds
  | cons event rest ih => exact ih (step start event) (kept start event holds)

theorem Meets.mono {step : σ → ε → σ} {allowed weaker : σ → ε → Prop}
    (weakens : ∀ state event, allowed state event → weaker state event) {events : List ε} :
    ∀ {start}, Meets step allowed start events → Meets step weaker start events := by
  induction events with
  | nil => exact fun _ => trivial
  | cons event rest ih => exact fun met => ⟨weakens _ _ met.1, ih met.2⟩

theorem Meets.and {step : σ → ε → σ} {one two : σ → ε → Prop} {events : List ε} :
    ∀ {start}, Meets step one start events → Meets step two start events →
      Meets step (fun state event => one state event ∧ two state event) start events := by
  induction events with
  | nil => exact fun _ _ => trivial
  | cons event rest ih => exact fun first second => ⟨⟨first.1, second.1⟩, ih first.2 second.2⟩

theorem meets_of_listed {step : σ → ε → σ} {allowed : ε → Prop} {events : List ε}
    (all : ∀ event ∈ events, allowed event) :
    ∀ {start}, Meets step (fun _ event => allowed event) start events := by
  induction events with
  | nil => exact fun {_} => trivial
  | cons event rest ih =>
      intro start
      have tail : ∀ other ∈ rest, allowed other :=
        fun other listed => all other (List.mem_cons_of_mem event listed)
      exact ⟨all event List.mem_cons_self, ih tail⟩

theorem meets_of_forall (step : σ → ε → σ) (allowed : σ → ε → Prop)
    (all : ∀ state event, allowed state event) (events : List ε) :
    ∀ start, Meets step allowed start events := by
  induction events with
  | nil => exact fun _ => trivial
  | cons event rest ih => exact fun start => ⟨all start event, ih (step start event)⟩

theorem always_of_invariant (step : σ → ε → σ) (allowed : σ → ε → Prop) (inv holds : σ → Prop)
    (kept : ∀ state event, allowed state event → inv state → inv (step state event))
    (enough : ∀ state, inv state → holds state) (events : List ε) :
    ∀ start, Meets step allowed start events → inv start → Always step holds start events := by
  induction events with
  | nil => intro start _ initially; exact enough start initially
  | cons event rest ih =>
      intro start met initially
      exact ⟨enough start initially, ih (step start event) met.2 (kept start event met.1 initially)⟩

theorem Always.head {step : σ → ε → σ} {holds : σ → Prop} {start : σ} {events : List ε}
    (always : Always step holds start events) : holds start := by
  cases events with
  | nil => exact always
  | cons event rest => exact always.1

theorem Always.last {step : σ → ε → σ} {holds : σ → Prop} {events : List ε} :
    ∀ {start}, Always step holds start events → holds (exec step start events) := by
  induction events with
  | nil => exact fun always => always
  | cons event rest ih => exact fun always => ih always.2

theorem Always.mono {step : σ → ε → σ} {holds weaker : σ → Prop}
    (weakens : ∀ state, holds state → weaker state) {events : List ε} :
    ∀ {start}, Always step holds start events → Always step weaker start events := by
  induction events with
  | nil => exact fun always => weakens _ always
  | cons event rest ih => exact fun always => ⟨weakens _ always.1, ih always.2⟩

/-- What a step preserves as long as a property holds after it. -/
theorem Always.carries {step : σ → ε → σ} {inv holds : σ → Prop}
    (kept : ∀ state event, inv state → holds (step state event) → inv (step state event))
    {events : List ε} : ∀ {start}, inv start → Always step holds start events →
      Always step (fun state => inv state ∧ holds state) start events := by
  induction events with
  | nil => exact fun initially always => ⟨initially, always⟩
  | cons event rest ih =>
      exact fun initially always =>
        ⟨⟨initially, always.1⟩, ih (kept _ event initially always.2.head) always.2⟩

/-- What every step preserves holds beside whatever always holds. -/
theorem Always.with_invariant {step : σ → ε → σ} {inv holds : σ → Prop}
    (kept : ∀ state event, inv state → inv (step state event)) {events : List ε} :
    ∀ {start}, inv start → Always step holds start events →
      Always step (fun state => inv state ∧ holds state) start events :=
  Always.carries fun state event initially _ => kept state event initially

/-- A run in which a property always holds meets every condition that the
property after a step forces on the step. -/
theorem meets_of_always (step : σ → ε → σ) (allowed : σ → ε → Prop) (inv holds : σ → Prop)
    (kept : ∀ state event, inv state → inv (step state event))
    (forced : ∀ state event, inv state → holds (step state event) → allowed state event)
    (events : List ε) : ∀ start, inv start → Always step holds start events →
    Meets step allowed start events := by
  induction events with
  | nil => intro start _ _; trivial
  | cons event rest ih =>
      intro start initially always
      exact ⟨forced start event initially always.2.head,
        ih (step start event) (kept start event initially) always.2⟩

/-- Where a step keeps a property exactly if it is allowed, the property always
holds in exactly the runs of allowed steps. -/
theorem always_iff_meets (step : σ → ε → σ) (allowed : σ → ε → Prop) (holds : σ → Prop)
    (turn : ∀ state event, holds state → (holds (step state event) ↔ allowed state event))
    (events : List ε) : ∀ start, holds start →
    (Always step holds start events ↔ Meets step allowed start events) := by
  induction events with
  | nil => exact fun start initially => ⟨fun _ => trivial, fun _ => initially⟩
  | cons event rest ih =>
      intro start initially
      constructor
      · intro always
        have after : holds (step start event) := always.2.head
        exact ⟨(turn start event initially).mp after, (ih _ after).mp always.2⟩
      · intro met
        have after : holds (step start event) := (turn start event initially).mpr met.1
        exact ⟨initially, (ih _ after).mpr met.2⟩

end Run
