import Mathlib.Tactic.NormNum

set_option autoImplicit false

/- A receiver that numbers items from one, holds those that come early and
releases them in order. `Tracks` relates what it holds and what it has released
to the sequence the sender numbered; it is all that in-order, exactly-once
release needs, whatever loss, repetition or order the items arrive with. -/
namespace Reorder

variable {β : Type}

/-- A log that grows keeps every entry where it was. -/
theorem entry_of_grown {log longer : List β} (grown : log <+: longer) {index : Nat} {item : β}
    (entry : log[index]? = some item) : longer[index]? = some item := by
  obtain ⟨inside, value⟩ := List.getElem?_eq_some_iff.mp entry
  rw [← value, List.getElem?_eq_getElem (Nat.lt_of_lt_of_le inside grown.length_le),
    grown.getElem inside]

/-- `count` items of `log` were released, in order; every held item is the one
its number names. -/
structure Tracks (log : List β) (count : Nat) (held : Nat → Option β) (out : List β) :
    Prop where
  released : out = log.take count
  within : count ≤ log.length
  named : ∀ seq item, held seq = some item → 0 < seq ∧ log[seq - 1]? = some item

theorem Tracks.out_isPrefix {log : List β} {count : Nat} {held : Nat → Option β} {out : List β}
    (tracks : Tracks log count held out) : out <+: log := by
  rw [tracks.released]
  exact List.take_prefix count log

theorem Tracks.out_length {log : List β} {count : Nat} {held : Nat → Option β} {out : List β}
    (tracks : Tracks log count held out) : out.length = count := by
  rw [tracks.released, List.length_take]
  exact Nat.min_eq_left tracks.within

theorem tracks_empty (log : List β) : Tracks log 0 (fun _ => none) [] :=
  ⟨rfl, Nat.zero_le _, fun _ _ absent => by cases absent⟩

/-- The sender numbers more items. -/
theorem Tracks.grow {log longer : List β} {count : Nat} {held : Nat → Option β} {out : List β}
    (tracks : Tracks log count held out) (grown : log <+: longer) :
    Tracks longer count held out := by
  refine ⟨?_, Nat.le_trans tracks.within grown.length_le, ?_⟩
  · obtain ⟨more, rfl⟩ := grown
    rw [List.take_append_of_le_length tracks.within]
    exact tracks.released
  · intro seq item found
    obtain ⟨positive, entry⟩ := tracks.named seq item found
    exact ⟨positive, entry_of_grown grown entry⟩

/-- Anything held under its own number may be added, and anything dropped. -/
theorem Tracks.hold {log : List β} {count : Nat} {held next : Nat → Option β} {out : List β}
    (tracks : Tracks log count held out)
    (fresh : ∀ seq item, next seq = some item → held seq = some item ∨
      0 < seq ∧ log[seq - 1]? = some item) :
    Tracks log count next out := by
  refine ⟨tracks.released, tracks.within, ?_⟩
  intro seq item found
  rcases fresh seq item found with old | named
  · exact tracks.named seq item old
  · exact named

/-- Releasing the item held under the next number. -/
theorem Tracks.release {log : List β} {count : Nat} {held next : Nat → Option β} {out : List β}
    (tracks : Tracks log count held out) (item : β) (found : held (count + 1) = some item)
    (kept : ∀ seq item, next seq = some item → held seq = some item) :
    Tracks log (count + 1) next (out ++ [item]) := by
  obtain ⟨_, entry⟩ := tracks.named (count + 1) item found
  rw [Nat.add_sub_cancel] at entry
  obtain ⟨inside, value⟩ := List.getElem?_eq_some_iff.mp entry
  refine ⟨?_, inside, ?_⟩
  · rw [tracks.released, ← value, List.take_append_getElem inside]
  · intro seq item found
    exact tracks.named seq item (kept seq item found)

end Reorder
