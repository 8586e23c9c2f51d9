import Mathlib.Data.List.Basic

set_option autoImplicit false

/- A place in a list that is gone through from its start, one item after another. -/
structure Cursor (α : Type) where
  items : List α
  index : Nat
  inside : index < items.length

namespace Cursor

variable {α : Type}

def current (cursor : Cursor α) : α := cursor.items.get ⟨cursor.index, cursor.inside⟩

/-- The place after this one, if there is one. -/
def next? (cursor : Cursor α) : Option (Cursor α) :=
  if more : cursor.index + 1 < cursor.items.length then some ⟨cursor.items, cursor.index + 1, more⟩
  else none

def rewind (cursor : Cursor α) : Cursor α :=
  ⟨cursor.items, 0, Nat.zero_lt_of_lt cursor.inside⟩

/-- The items before the place have all been met. -/
def Covered (cursor : Cursor α) (met : List α) : Prop :=
  ∀ item ∈ cursor.items.take cursor.index, item ∈ met

variable {cursor : Cursor α} {met : List α}

theorem getElem?_index (cursor : Cursor α) : cursor.items[cursor.index]? = some cursor.current :=
  List.getElem?_eq_getElem cursor.inside

theorem current_mem (cursor : Cursor α) : cursor.current ∈ cursor.items := List.get_mem _ _

theorem covered_of_start (start : cursor.index = 0) : cursor.Covered met := by
  intro item before
  rw [start] at before
  exact absurd before List.not_mem_nil

theorem Covered.mono {more : List α} (covered : cursor.Covered met) (within : met ⊆ more) :
    cursor.Covered more := fun item before => within (covered item before)

/-- With its own item met, the place and all before it are. -/
theorem Covered.through (covered : cursor.Covered met) (own : cursor.current ∈ met) :
    ∀ item ∈ cursor.items.take (cursor.index + 1), item ∈ met := by
  intro item before
  rw [List.take_add_one, getElem?_index] at before
  rcases List.mem_append.mp before with earlier | last
  · exact covered item earlier
  · rw [List.mem_singleton.mp last]
    exact own

theorem next?_some {next : Cursor α} (more : cursor.next? = some next) :
    next.items = cursor.items ∧ next.index = cursor.index + 1 := by
  unfold next? at more
  split at more
  · cases more
    exact ⟨rfl, rfl⟩
  · cases more

theorem next?_none (last : cursor.next? = none) : cursor.items.length ≤ cursor.index + 1 := by
  unfold next? at last
  split at last
  · cases last
  · omega

theorem Covered.next {next : Cursor α} (covered : cursor.Covered met) (own : cursor.current ∈ met)
    (more : cursor.next? = some next) : next.Covered met := by
  obtain ⟨items, index⟩ := next?_some more
  unfold Covered
  rw [items, index]
  exact covered.through own

/-- At the last place with its item met, every item has been. -/
theorem Covered.all (covered : cursor.Covered met) (own : cursor.current ∈ met)
    (last : cursor.next? = none) : ∀ item ∈ cursor.items, item ∈ met := by
  have whole : cursor.items.take (cursor.index + 1) = cursor.items :=
    List.take_of_length_le (next?_none last)
  have through := covered.through own
  rwa [whole] at through

end Cursor
