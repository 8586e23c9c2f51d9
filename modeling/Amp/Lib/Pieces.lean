import Mathlib.Data.List.Basic
import Mathlib.Data.List.Induction
import Mathlib.Tactic.NormNum

set_option autoImplicit false

/- A whole cut into pieces, and a row of slots that fills up with them. -/
namespace Pieces

variable {α : Type}

/-- The chunks that have come, the other slots blank. -/
def gathered (seen : Nat → Bool) (chunks : List (List α)) : List (List α) :=
  chunks.mapIdx fun index chunk => if seen index then chunk else []

def seeing (seen : Nat → Bool) (index : Nat) : Nat → Bool := fun other => other == index || seen other

theorem gathered_length (seen : Nat → Bool) (chunks : List (List α)) :
    (gathered seen chunks).length = chunks.length := List.length_mapIdx

theorem gathered_getElem? (seen : Nat → Bool) (chunks : List (List α)) (index : Nat) :
    (gathered seen chunks)[index]? =
      chunks[index]?.map fun chunk => if seen index then chunk else [] :=
  List.getElem?_mapIdx

theorem gathered_none (chunks : List (List α)) :
    gathered (fun _ => false) chunks = List.replicate chunks.length [] := by
  apply List.ext_getElem?
  intro index
  rw [gathered_getElem?, List.getElem?_replicate]
  by_cases inside : index < chunks.length
  · simp [inside]
  · simp [inside]

theorem gathered_set (seen : Nat → Bool) {chunks : List (List α)} {index : Nat} {chunk : List α}
    (found : chunks[index]? = some chunk) :
    (gathered seen chunks).set index chunk = gathered (seeing seen index) chunks := by
  apply List.ext_getElem?
  intro other
  rw [List.getElem?_set, gathered_length, gathered_getElem?, gathered_getElem?]
  by_cases same : index = other
  · subst same
    obtain ⟨inside, value⟩ := List.getElem?_eq_some_iff.mp found
    simp [seeing, inside, value]
  · have apart : (other == index) = false := by simpa using fun equal => same equal.symm
    simp [seeing, same, apart]

theorem gathered_all {seen : Nat → Bool} {chunks : List (List α)}
    (all : ∀ index < chunks.length, seen index = true) : gathered seen chunks = chunks := by
  apply List.ext_getElem?
  intro index
  rw [gathered_getElem?]
  by_cases inside : index < chunks.length
  · simp [all index inside]
  · simp [inside]

/-- A slot is blank exactly while its chunk is missing. -/
theorem gathered_blank {seen : Nat → Bool} {chunks : List (List α)}
    (full : ∀ chunk ∈ chunks, chunk ≠ []) : (gathered seen chunks).any List.isEmpty = true ↔
      ∃ index < chunks.length, seen index = false := by
  rw [List.any_eq_true]
  constructor
  · rintro ⟨slot, member, blank⟩
    obtain ⟨index, held⟩ := List.mem_iff_getElem?.mp member
    rw [gathered_getElem?, Option.map_eq_some_iff] at held
    obtain ⟨chunk, found, chosen⟩ := held
    refine ⟨index, (List.getElem?_eq_some_iff.mp found).1, ?_⟩
    by_contra present
    rw [if_pos (by simpa using present)] at chosen
    rw [← chosen] at blank
    exact full chunk (List.mem_of_getElem? found) (List.isEmpty_iff.mp blank)
  · rintro ⟨index, inside, missing⟩
    refine ⟨[], ?_, rfl⟩
    apply List.mem_of_getElem?
    rw [gathered_getElem?, List.getElem?_eq_getElem inside, missing]
    rfl

theorem gathered_sum_le (chunks : List (List α)) : ∀ seen : Nat → Bool,
    ((gathered seen chunks).map List.length).sum ≤ chunks.flatten.length := by
  induction chunks with
  | nil => exact fun _ => Nat.le_refl 0
  | cons chunk rest ih =>
      intro seen
      have later := ih fun index => seen (index + 1)
      have first : (if seen 0 then chunk else []).length ≤ chunk.length := by
        split
        · exact Nat.le_refl _
        · exact Nat.zero_le _
      unfold gathered at later ⊢
      dsimp only at later
      rw [List.mapIdx_cons, List.map_cons, List.sum_cons, List.flatten_cons, List.length_append]
      omega

theorem sum_set (chunks : List (List α)) (index : Nat) (chunk : List α)
    (blank : chunks[index]? = some []) :
    ((chunks.set index chunk).map List.length).sum = (chunks.map List.length).sum + chunk.length := by
  induction chunks generalizing index with
  | nil => simp at blank
  | cons first rest ih =>
      cases index with
      | zero =>
          have empty : first = [] := by simpa using blank
          simp [empty, Nat.add_comm]
      | succ index =>
          have inner := ih index (by simpa using blank)
          simp only [List.set_cons_succ, List.map_cons, List.sum_cons, inner]
          omega

/-- Cut at every `size`, the first pieces are the front of the whole. -/
theorem flatten_cut (whole : List α) (size count : Nat) :
    ((List.range count).map fun index => (whole.drop (index * size)).take size).flatten =
      whole.take (count * size) := by
  induction count with
  | zero => simp
  | succ count ih =>
      rw [List.range_succ, List.map_append, List.flatten_append, ih, List.map_singleton,
        List.flatten_singleton, Nat.succ_mul, List.take_add]

/-- A list that has every piece has a first place where none is missing any more. -/
theorem last_missing {pieces : List α} (some_piece : pieces ≠ []) (wires : List α)
    (all : ∀ piece ∈ pieces, piece ∈ wires) : ∃ front last rest, wires = front ++ last :: rest ∧
      (∃ piece ∈ pieces, piece ∉ front) ∧ ∀ piece ∈ pieces, piece ∈ front ++ [last] := by
  induction wires using List.reverseRecOn with
  | nil =>
      obtain ⟨piece, listed⟩ := List.exists_mem_of_ne_nil pieces some_piece
      exact absurd (all piece listed) List.not_mem_nil
  | append_singleton front last ih =>
      by_cases before : ∀ piece ∈ pieces, piece ∈ front
      · obtain ⟨early, final, rest, rfl, missing, complete⟩ := ih before
        exact ⟨early, final, rest ++ [last], by simp, missing, complete⟩
      · have missing : ∃ piece ∈ pieces, piece ∉ front := by
          by_contra none_missing
          exact before fun piece listed => by_contra fun absent => none_missing ⟨piece, listed, absent⟩
        exact ⟨front, last, [], rfl, missing, all⟩

end Pieces
