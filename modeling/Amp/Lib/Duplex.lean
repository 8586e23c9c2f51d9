import Mathlib.Tactic.NormNum

set_option autoImplicit false

/- Two ends of one machine joined by a network that loses, repeats, delays and
reorders: an end may be given anything the other has ever sent. Invariants that
relate a sender to a receiver follow from what one call keeps at either place. -/
namespace Duplex

inductive Side where
  | left
  | right
  deriving DecidableEq, Repr

def Side.other : Side → Side
  | .left => .right
  | .right => .left

structure Ends (σ : Type) where
  left : σ
  right : σ

/-- A machine driven by calls. `sent` is all it has put on the network; `arrive`
is the call by which an item of the network reaches it. -/
structure Machine (σ ε ω δ : Type) where
  step : σ → ε → σ
  sent : σ → List ω
  arrive : δ → ω → ε
  arrive_item : ∀ how item how' item', arrive how item = arrive how' item' → item = item'

variable {σ ε ω δ : Type}

/-- What happens at one end: a call that brings nothing from the network, or an
item of the other end's, named by its place among all it has sent. -/
inductive Action (machine : Machine σ ε ω δ) where
  | call (event : ε) (own : ∀ how item, event ≠ machine.arrive how item)
  | deliver (index : Nat) (how : δ)

namespace Ends

def endAt (ends : Ends σ) : Side → σ
  | .left => ends.left
  | .right => ends.right

def put (ends : Ends σ) (side : Side) (state : σ) : Ends σ :=
  match side with
  | .left => { ends with left := state }
  | .right => { ends with right := state }

/-- A relation between a sending and a receiving end, in both directions. -/
def Both (flow : σ → σ → Prop) (ends : Ends σ) : Prop :=
  flow ends.left ends.right ∧ flow ends.right ends.left

theorem Both.endAt {flow : σ → σ → Prop} {ends : Ends σ} (both : ends.Both flow) (side : Side) :
    flow (ends.endAt side) (ends.endAt side.other) := by
  cases side with
  | left => exact both.1
  | right => exact both.2

end Ends

variable (machine : Machine σ ε ω δ)

/-- The call an action makes at its end, if there is one. -/
def event (ends : Ends σ) (side : Side) : Action machine → Option ε
  | .call event _ => some event
  | .deliver index how =>
      ((machine.sent (ends.endAt side.other))[index]?).map (machine.arrive how)

def step (ends : Ends σ) (act : Side × Action machine) : Ends σ :=
  match event machine ends act.1 act.2 with
  | none => ends
  | some event => ends.put act.1 (machine.step (ends.endAt act.1) event)

/-- A call that, if it brings an item, brings one of the peer's. -/
def Honest (peer : σ) (event : ε) : Prop :=
  ∀ how item, event = machine.arrive how item → item ∈ machine.sent peer

theorem event_honest (ends : Ends σ) (side : Side) (action : Action machine) (made : ε)
    (makes : event machine ends side action = some made) :
    Honest machine (ends.endAt side.other) made := by
  intro how item same
  cases action with
  | call other own =>
      cases makes
      exact absurd same (own how item)
  | deliver index origin =>
      obtain ⟨sent, found, arrives⟩ := Option.map_eq_some_iff.mp makes
      have identical := machine.arrive_item origin sent how item (arrives.trans same)
      rw [← identical]
      exact List.mem_of_getElem? found

theorem step_endAt (ends : Ends σ) (side : Side) (action : Action machine) (made : ε)
    (makes : event machine ends side action = some made) :
    (step machine ends (side, action)).endAt side = machine.step (ends.endAt side) made ∧
      (step machine ends (side, action)).endAt side.other = ends.endAt side.other := by
  unfold step
  dsimp only
  rw [makes]
  cases side <;> exact ⟨rfl, rfl⟩

/-- What every call does to its end, a step does to both. -/
theorem step_grows (grows : σ → σ → Prop) (same : ∀ state, grows state state)
    (call : ∀ state made, grows state (machine.step state made)) (ends : Ends σ)
    (act : Side × Action machine) (side : Side) :
    grows (ends.endAt side) ((step machine ends act).endAt side) := by
  obtain ⟨acting, action⟩ := act
  unfold step
  split
  · exact same _
  · rename_i made _
    cases acting <;> cases side <;> first | exact same _ | exact call _ made

/-- A two-ended invariant follows from what one call keeps at the end that makes
it, seen as sender and seen as receiver. -/
theorem step_both (flow : σ → σ → Prop) (ends : Ends σ) (act : Side × Action machine)
    (holds : ends.Both flow)
    (sending : ∀ made, event machine ends act.1 act.2 = some made →
      Honest machine (ends.endAt act.1.other) made →
      flow (ends.endAt act.1) (ends.endAt act.1.other) →
      flow (machine.step (ends.endAt act.1) made) (ends.endAt act.1.other))
    (receiving : ∀ made, event machine ends act.1 act.2 = some made →
      Honest machine (ends.endAt act.1.other) made →
      flow (ends.endAt act.1.other) (ends.endAt act.1) →
      flow (ends.endAt act.1.other) (machine.step (ends.endAt act.1) made)) :
    (step machine ends act).Both flow := by
  obtain ⟨side, action⟩ := act
  unfold step
  split
  · exact holds
  · rename_i made makes
    have honest := event_honest machine ends side action made makes
    cases side with
    | left => exact ⟨sending made makes honest holds.1, receiving made makes honest holds.2⟩
    | right => exact ⟨receiving made makes honest holds.1, sending made makes honest holds.2⟩

end Duplex
