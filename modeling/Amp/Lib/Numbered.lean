import Mathlib.Data.List.Basic
import Mathlib.Tactic.NormNum

set_option autoImplicit false

/- Items that are numbered in the order they are made: each changes by its number, and none
goes. -/
namespace Numbered

variable {α β : Type}

theorem getElem?_concat_cases {items : List α} {last item : α} {number : Nat}
    (found : (items ++ [last])[number]? = some item) :
    items[number]? = some item ∨ number = items.length ∧ item = last := by
  by_cases before : number < items.length
  · rw [List.getElem?_append_left before] at found
    exact .inl found
  · have within := (List.getElem?_eq_some_iff.mp found).1
    rw [List.length_append, List.length_singleton] at within
    have same : number = items.length := by omega
    rw [same, List.getElem?_concat_length] at found
    exact .inr ⟨same, (Option.some.inj found).symm⟩

theorem getElem?_modify_cases {items : List α} {change : α → α} {number other : Nat} {item : α}
    (found : (items.modify number change)[other]? = some item) :
    ∃ before, items[other]? = some before ∧
      (number = other ∧ item = change before ∨ number ≠ other ∧ item = before) := by
  rw [List.getElem?_modify] at found
  obtain ⟨before, held, rfl⟩ := Option.map_eq_some_iff.mp found
  refine ⟨before, held, ?_⟩
  by_cases same : number = other
  · exact .inl ⟨same, if_pos same⟩
  · exact .inr ⟨same, if_neg same⟩

/-- A change to the item made last. -/
theorem modify_concat (items : List α) (last : α) (change : α → α) :
    (items ++ [last]).modify items.length change = items ++ [change last] := by
  apply List.ext_getElem?
  intro index
  rw [List.getElem?_modify]
  by_cases before : index < items.length
  · have other : items.length ≠ index := by omega
    rw [List.getElem?_append_left before, List.getElem?_append_left before]
    simp [other]
  · by_cases same : items.length = index
    · subst same
      simp
    · have past : items.length + 1 ≤ index := by omega
      rw [List.getElem?_eq_none (by simpa using past), List.getElem?_eq_none (by simpa using past)]
      rfl

theorem map_modify {seen : α → β} {change : α → α} (shown : β → β)
    (commutes : ∀ item, seen (change item) = shown (seen item)) (items : List α) (number : Nat) :
    (items.modify number change).map seen = (items.map seen).modify number shown := by
  apply List.ext_getElem?
  intro index
  rw [List.getElem?_map, List.getElem?_modify, List.getElem?_modify, List.getElem?_map]
  by_cases same : number = index
  · cases items[index]? <;> simp [same, commutes]
  · cases items[index]? <;> simp [same]

/-- A change to one item that does not make it count. -/
theorem countP_modify_le {counts : α → Bool} {change : α → α}
    (reflects : ∀ item, counts (change item) = true → counts item = true) (items : List α)
    (number : Nat) : (items.modify number change).countP counts ≤ items.countP counts := by
  induction items generalizing number with
  | nil => simp
  | cons first rest ih =>
      cases number with
      | zero =>
          rw [List.modify_zero_cons, List.countP_cons, List.countP_cons]
          by_cases kept : counts (change first) = true
          · have counted := reflects first kept
            simp [kept, counted]
          · rw [if_neg kept]
            omega
      | succ number =>
          have fewer := ih number
          rw [List.modify_succ_cons, List.countP_cons, List.countP_cons]
          omega

/-- A change to one item that adds so much at most. -/
theorem sum_modify_le {weight : α → Nat} {change : α → α} {extra : Nat} (items : List α) (number : Nat)
    (adds : ∀ item, items[number]? = some item → weight (change item) ≤ weight item + extra) :
    ((items.modify number change).map weight).sum ≤ (items.map weight).sum + extra := by
  induction items generalizing number with
  | nil => simp
  | cons first rest ih =>
      cases number with
      | zero =>
          have more := adds first rfl
          simp only [List.modify_zero_cons, List.map_cons, List.sum_cons]
          omega
      | succ number =>
          have more := ih number fun item found => adds item found
          simp only [List.modify_succ_cons, List.map_cons, List.sum_cons]
          omega

/-- No two items clash. -/
def Apart (clash : α → α → Prop) (items : List α) : Prop :=
  ∀ (one two : Nat) (first second : α), one ≠ two → items[one]? = some first → items[two]? = some second →
    ¬ clash first second

theorem Apart.modify {clash : α → α → Prop} {items : List α} (apart : Apart clash items)
    (number : Nat) {change : α → α}
    (left : ∀ one two, clash (change one) two → clash one two)
    (right : ∀ one two, clash one (change two) → clash one two) :
    Apart clash (items.modify number change) := by
  intro one two first second differ isFirst isSecond clashes
  obtain ⟨before, held, turned⟩ := getElem?_modify_cases isFirst
  obtain ⟨other, otherHeld, otherTurned⟩ := getElem?_modify_cases isSecond
  apply apart one two before other differ held otherHeld
  rcases turned with ⟨_, rfl⟩ | ⟨_, rfl⟩
  · rcases otherTurned with ⟨_, rfl⟩ | ⟨_, rfl⟩
    · exact left _ _ (right _ _ clashes)
    · exact left _ _ clashes
  · rcases otherTurned with ⟨_, rfl⟩ | ⟨_, rfl⟩
    · exact right _ _ clashes
    · exact clashes

theorem Apart.concat {clash : α → α → Prop} {items : List α} (apart : Apart clash items) {last : α}
    (fresh : ∀ item ∈ items, ¬ clash item last ∧ ¬ clash last item) :
    Apart clash (items ++ [last]) := by
  intro one two first second differ isFirst isSecond
  rcases getElem?_concat_cases isFirst with held | ⟨lastOne, rfl⟩
  · rcases getElem?_concat_cases isSecond with otherHeld | ⟨_, rfl⟩
    · exact apart one two first second differ held otherHeld
    · exact (fresh first (List.mem_of_getElem? held)).1
  · rcases getElem?_concat_cases isSecond with otherHeld | ⟨lastTwo, _⟩
    · exact (fresh second (List.mem_of_getElem? otherHeld)).2
    · exact absurd (lastOne.trans lastTwo.symm) differ

end Numbered
