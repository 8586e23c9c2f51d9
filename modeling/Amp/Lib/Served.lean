import Mathlib.Data.List.Basic
import Amp.Lib.Run

set_option autoImplicit false

/- What waits in line through a run: it is served in the order it came, once, or it
is cleared away. -/
namespace Served

variable {σ ε α : Type}

/-- A line of what waits, and what a step adds to it, serves of it and clears from it. -/
structure Line (σ ε α : Type) where
  step : σ → ε → σ
  waiting : σ → List α
  joins : ε → List α
  served : σ → ε → List α
  cleared : σ → ε → List α

namespace Line

variable (line : Line σ ε α)

/-- From a good state a step serves from the front, and loses only what it clears. -/
structure Orderly (good : σ → Prop) : Prop where
  kept : ∀ state event, good state → good (line.step state event)
  exact : ∀ state event, good state → (line.waiting state ++ line.joins event).Perm
    (line.served state event ++ line.cleared state event ++ line.waiting (line.step state event))
  inOrder : ∀ state event, good state →
    (line.served state event ++ line.waiting (line.step state event)).Sublist
      (line.waiting state ++ line.joins event)

def joined (events : List ε) : List α := events.flatMap line.joins

def servedIn (state : σ) (events : List ε) : List α :=
  Run.collect line.step line.served state events

def clearedIn (state : σ) (events : List ε) : List α :=
  Run.collect line.step line.cleared state events

theorem joined_cons (event : ε) (rest : List ε) :
    line.joined (event :: rest) = line.joins event ++ line.joined rest := by
  simp [joined]

theorem servedIn_cons (state : σ) (event : ε) (rest : List ε) :
    line.servedIn state (event :: rest) =
      line.served state event ++ line.servedIn (line.step state event) rest := rfl

theorem clearedIn_cons (state : σ) (event : ε) (rest : List ε) :
    line.clearedIn state (event :: rest) =
      line.cleared state event ++ line.clearedIn (line.step state event) rest := rfl

/-- Where no allowed step clears, a run of such steps clears nothing. -/
theorem clearedIn_nil {allowed : σ → ε → Prop}
    (clears : ∀ state event, allowed state event → line.cleared state event = [])
    {events : List ε} : ∀ {state}, Run.Meets line.step allowed state events →
      line.clearedIn state events = [] := by
  induction events with
  | nil => exact fun _ => rfl
  | cons event rest ih =>
      intro state met
      rw [clearedIn_cons, clears state event met.1, ih met.2]
      rfl

variable {line} {good : σ → Prop}

/-- What joined was served, was cleared or waits still, each of it once. -/
theorem Orderly.exactly (orderly : line.Orderly good) (events : List ε) : ∀ state, good state →
    (line.waiting state ++ line.joined events).Perm
      (line.servedIn state events ++ line.clearedIn state events ++
        line.waiting (Run.exec line.step state events)) := by
  induction events with
  | nil =>
      intro state fine
      show (line.waiting state ++ []).Perm ([] ++ [] ++ line.waiting state)
      rw [List.append_nil, List.append_nil, List.nil_append]
  | cons event rest ih =>
      intro state fine
      have later := (ih (line.step state event) (orderly.kept state event fine)).append_left
        (line.served state event ++ line.cleared state event)
      have now := (orderly.exact state event fine).append_right (line.joined rest)
      rw [List.append_assoc (line.served state event ++ line.cleared state event)] at now
      rw [joined_cons, ← List.append_assoc, servedIn_cons, clearedIn_cons, Run.exec_cons]
      refine (now.trans later).trans ?_
      simp only [List.append_assoc]
      apply List.Perm.append_left
      rw [← List.append_assoc, ← List.append_assoc (line.servedIn _ _)]
      exact List.perm_append_comm.append_right _

/-- Nothing is served before what came before it. -/
theorem Orderly.inTurn (orderly : line.Orderly good) (events : List ε) : ∀ state, good state →
    (line.servedIn state events ++ line.waiting (Run.exec line.step state events)).Sublist
      (line.waiting state ++ line.joined events) := by
  induction events with
  | nil =>
      intro state fine
      show ([] ++ line.waiting state).Sublist (line.waiting state ++ [])
      rw [List.append_nil, List.nil_append]
  | cons event rest ih =>
      intro state fine
      have now := (orderly.inOrder state event fine).append_right (line.joined rest)
      have later := (ih (line.step state event) (orderly.kept state event fine)).append_left
        (line.served state event)
      rw [← List.append_assoc, ← List.append_assoc] at later
      rw [joined_cons, ← List.append_assoc, servedIn_cons]
      exact later.trans now

/-- Where nothing is cleared, what was served and what waits are what came, in its order. -/
theorem Orderly.uncleared (orderly : line.Orderly good) {events : List ε} {state : σ}
    (fine : good state) (none : line.clearedIn state events = []) :
    line.servedIn state events ++ line.waiting (Run.exec line.step state events) =
      line.waiting state ++ line.joined events := by
  have exactly := orderly.exactly events state fine
  rw [none, List.append_nil] at exactly
  exact (orderly.inTurn events state fine).eq_of_length exactly.length_eq.symm

end Line

end Served
