import Mathlib.Data.List.Nodup
import Mathlib.Tactic.Common

set_option autoImplicit false

/- A list that takes what it does not hold yet, up to a cap. -/
namespace Extend

variable {α : Type} [DecidableEq α]

/-- What is given and neither held nor given before, in order. -/
def fresh : List α → List α → List α
  | _, [] => []
  | held, item :: rest =>
      if item ∈ held then fresh held rest else item :: fresh (held ++ [item]) rest

/-- The list held with what is fresh behind it, cut at the cap. -/
def extended (cap : Nat) (held given : List α) : List α := (held ++ fresh held given).take cap

theorem extended_known {cap : Nat} {held rest : List α} {item : α} (known : item ∈ held) :
    extended cap held (item :: rest) = extended cap held rest := by
  simp only [extended, fresh, known, if_true]

theorem extended_new {cap : Nat} {held rest : List α} {item : α} (new : item ∉ held) :
    extended cap held (item :: rest) = extended cap (held ++ [item]) rest := by
  simp only [extended, fresh, new, if_false, List.append_assoc, List.singleton_append]

theorem extended_full {cap : Nat} {held : List α} (full : cap ≤ held.length) (given : List α) :
    extended cap held given = held.take cap := List.take_append_of_le_length full

/-- Out of nothing, the first that is given comes first. -/
theorem head?_extended {cap : Nat} (room : 0 < cap) (given : List α) :
    (extended cap [] given).head? = given.head? := by
  cases given with
  | nil => simp [extended, fresh]
  | cons item rest =>
      obtain ⟨below, rfl⟩ := Nat.exists_eq_succ_of_ne_zero (Nat.ne_of_gt room)
      simp [extended, fresh]

theorem fresh_congr {given : List α} : ∀ {held other : List α},
    (∀ item ∈ given, item ∈ held ↔ item ∈ other) → fresh held given = fresh other given := by
  induction given with
  | nil => exact fun _ => rfl
  | cons item rest ih =>
      intro held other same
      have later : ∀ one ∈ rest, one ∈ held ↔ one ∈ other := fun one among => same one (.tail _ among)
      have here := same item List.mem_cons_self
      by_cases known : item ∈ held
      · simp only [fresh, known, here.mp known, if_true]
        exact ih later
      · have new : item ∉ other := fun held => known (here.mpr held)
        simp only [fresh, known, new, if_false]
        rw [ih]
        intro one among
        rw [List.mem_append, List.mem_append, later one among]

theorem mem_fresh {given : List α} : ∀ {held : List α} {item : α},
    item ∈ fresh held given ↔ item ∈ given ∧ item ∉ held := by
  induction given with
  | nil =>
      intro held item
      simp [fresh]
  | cons first rest ih =>
      intro held item
      by_cases known : first ∈ held
      · simp only [fresh, known, if_true, ih, List.mem_cons]
        constructor
        · exact fun found => ⟨.inr found.1, found.2⟩
        · rintro ⟨rfl | later, new⟩
          · exact absurd known new
          · exact ⟨later, new⟩
      · simp only [fresh, known, if_false, List.mem_cons, ih, List.mem_append, List.not_mem_nil, or_false,
          not_or]
        constructor
        · rintro (rfl | found)
          · exact ⟨.inl rfl, known⟩
          · exact ⟨.inr found.1, found.2.1⟩
        · rintro ⟨given, new⟩
          by_cases same : item = first
          · exact .inl same
          · exact .inr ⟨given.resolve_left same, new, same⟩

theorem fresh_filter (keeps : α → Bool) {given : List α} : ∀ {held : List α},
    fresh held (given.filter keeps) = (fresh held given).filter keeps := by
  induction given with
  | nil => exact fun {_} => rfl
  | cons item rest ih =>
      intro held
      by_cases kept : keeps item = true
      · rw [List.filter_cons_of_pos kept]
        by_cases known : item ∈ held
        · simp only [fresh, known, if_true, ih]
        · simp only [fresh, known, if_false, ih, List.filter_cons_of_pos kept]
      · rw [List.filter_cons_of_neg kept]
        by_cases known : item ∈ held
        · simp only [fresh, known, if_true, ih]
        · simp only [fresh, known, if_false, List.filter_cons_of_neg kept]
          rw [← ih]
          apply fresh_congr
          intro one among
          have other : one ≠ item := by
            rintro rfl
            exact kept (List.mem_filter.mp among).2
          simp [other]

/-- What is distinct is taken whole. -/
theorem fresh_of_nodup {given : List α} : ∀ {held : List α}, (held ++ given).Nodup →
    fresh held given = given := by
  induction given with
  | nil => exact fun _ => rfl
  | cons item rest ih =>
      intro held distinct
      have new : item ∉ held := by
        intro known
        exact (List.nodup_append.mp distinct).2.2 item known item List.mem_cons_self rfl
      have longer : (held ++ [item] ++ rest).Nodup := by
        rw [List.append_assoc]
        exact distinct
      simp only [fresh, new, if_false, ih longer]

omit [DecidableEq α] in
theorem take_filter_iff (keeps : α → Bool) {items : List α} : ∀ {count : Nat},
    (items.filter keeps).take count = items.take count ↔ ∀ item ∈ items.take count, keeps item = true := by
  induction items with
  | nil => simp
  | cons item rest ih =>
      intro count
      cases count with
      | zero => simp
      | succ count =>
          by_cases kept : keeps item = true
          · rw [List.filter_cons_of_pos kept]
            simp only [List.take_succ_cons, List.cons.injEq, true_and, List.forall_mem_cons, kept, ih]
          · rw [List.filter_cons_of_neg kept]
            simp only [List.take_succ_cons, List.forall_mem_cons, kept, Bool.false_eq_true,
              false_and, iff_false]
            intro same
            have among : item ∈ rest.filter keeps :=
              List.mem_of_mem_take (same ▸ List.mem_cons_self)
            exact kept (List.mem_filter.mp among).2

/-- Leaving items out makes no difference exactly where there was no room for any of them. -/
theorem extended_filter_iff (keeps : α → Bool) (cap : Nat) (held given : List α) :
    extended cap held (given.filter keeps) = extended cap held given ↔
      ∀ item ∈ (fresh held given).take (cap - held.length), keeps item = true := by
  unfold extended
  rw [fresh_filter, List.take_append, List.take_append, List.append_cancel_left_eq]
  exact take_filter_iff keeps

end Extend
