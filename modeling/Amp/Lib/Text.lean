import Mathlib.Data.List.TakeWhile
import Mathlib.Tactic.Common

set_option autoImplicit false

/- Texts cut at a delimiter, and the decimals that stand in them. -/
namespace Text

def split (text : String) (delim : Char) : List String :=
  (text.toList.splitOn delim).map String.ofList

/-- The parts of a text: at least one, with the delimiter between them alone. -/
structure Separated (delim : Char) (parts : List String) (text : String) : Prop where
  some_part : parts ≠ []
  apart : ∀ part ∈ parts, delim ∉ part.toList
  joined : text = (String.singleton delim).intercalate parts

theorem mem_intercalate {part : String} {char : Char} (inside : char ∈ part.toList) (sep : String) :
    ∀ {parts : List String}, part ∈ parts → char ∈ (sep.intercalate parts).toList
  | [], among => absurd among List.not_mem_nil
  | [one], among => by
      rw [List.mem_singleton] at among
      rwa [String.intercalate_singleton, ← among]
  | one :: two :: others, among => by
      rw [String.intercalate_cons_cons, String.toList_append, List.mem_append, String.toList_append,
        List.mem_append]
      rcases List.mem_cons.mp among with rfl | later
      · exact .inl (.inl inside)
      · exact .inr (mem_intercalate inside sep later)

theorem of_mem_intercalate {sep : String} {char : Char} : ∀ {parts : List String},
    char ∈ (sep.intercalate parts).toList → char ∈ sep.toList ∨ ∃ part ∈ parts, char ∈ part.toList
  | [], among => by simp at among
  | [one], among => .inr ⟨one, List.mem_singleton_self one, by simpa using among⟩
  | one :: two :: others, among => by
      rw [String.intercalate_cons_cons, String.toList_append, List.mem_append, String.toList_append,
        List.mem_append] at among
      rcases among with (first | between) | later
      · exact .inr ⟨one, List.mem_cons_self, first⟩
      · exact .inl between
      · rcases of_mem_intercalate later with between | ⟨part, taken, inside⟩
        · exact .inl between
        · exact .inr ⟨part, .tail _ taken, inside⟩

theorem not_mem_of_mem_splitOn (delim : Char) (chars : List Char) :
    ∀ piece ∈ chars.splitOn delim, delim ∉ piece := by
  induction chars with
  | nil => simp
  | cons first rest ih =>
      rw [List.splitOn_cons_eq_if_modifyHead]
      by_cases cut : first = delim
      · simp only [cut, beq_self_eq_true, if_true, List.mem_cons, forall_eq_or_imp]
        exact ⟨List.not_mem_nil, ih⟩
      · obtain ⟨piece, others, pieces⟩ := List.exists_cons_of_ne_nil (List.splitOn_ne_nil delim rest)
        rw [pieces] at ih ⊢
        simp only [beq_iff_eq, cut, if_false, List.modifyHead_cons, List.mem_cons,
          forall_eq_or_imp] at ih ⊢
        refine ⟨?_, ih.2⟩
        rintro (same | inside)
        · exact cut same.symm
        · exact ih.1 inside

theorem split_separated (text : String) (delim : Char) : Separated delim (split text delim) text where
  some_part := by simp [split]
  apart := by
    intro part among
    obtain ⟨piece, taken, rfl⟩ := List.mem_map.mp among
    rw [String.toList_ofList]
    exact not_mem_of_mem_splitOn delim text.toList piece taken
  joined := by
    apply String.toList_inj.mp
    have whole : [delim].intercalate (text.toList.splitOn delim) = text.toList :=
      List.intercalate_splitOn delim
    simp [split, whole]

theorem Separated.split_eq {delim : Char} {parts : List String} {text : String}
    (separated : Separated delim parts text) : split text delim = parts := by
  have chars : text.toList = [delim].intercalate (parts.map String.toList) := by
    rw [separated.joined, String.toList_intercalate, String.toList_singleton]
  have apart : ∀ piece ∈ parts.map String.toList, delim ∉ piece := by
    intro piece among
    obtain ⟨part, taken, rfl⟩ := List.mem_map.mp among
    exact separated.apart part taken
  have pieces : parts.map String.toList ≠ [] := by simpa using separated.some_part
  rw [split, chars, List.splitOn_intercalate delim apart pieces]
  simp

/-- `std::from_chars` into an unsigned type that holds up to `bound`: the number, and what follows. -/
def fromChars (bound : Nat) (chars : List Char) : Option (Nat × List Char) :=
  let digits := chars.takeWhile Char.isDigit
  if digits = [] ∨ bound < Nat.ofDigitChars 10 digits 0 then none
  else some (Nat.ofDigitChars 10 digits 0, chars.dropWhile Char.isDigit)

/-- `std::from_chars` into an `int`: a minus sign may stand in front. -/
def fromCharsInt (chars : List Char) : Option (Int × List Char) :=
  match chars with
  | '-' :: digits => (fromChars 2147483648 digits).map fun read => (-(read.1 : Int), read.2)
  | _ => (fromChars 2147483647 chars).map fun read => ((read.1 : Int), read.2)

/-- The text is a decimal of this value, leading zeros allowed. -/
structure Decimal (text : String) (value : Nat) : Prop where
  some_digit : text.toList ≠ []
  digits : ∀ char ∈ text.toList, char.isDigit = true
  valued : Nat.ofDigitChars 10 text.toList 0 = value

theorem decimal_toString (value : Nat) : Decimal (toString value) value where
  some_digit := by simp [Nat.toDigits_ne_nil]
  digits := by
    intro char among
    simp only [Nat.toString_eq_ofList_toDigits, String.toList_ofList] at among
    exact Nat.isDigit_of_mem_toDigits (by decide) (by decide) among
  valued := by
    simp only [Nat.toString_eq_ofList_toDigits, String.toList_ofList]
    exact Nat.ofDigitChars_ten_toDigits

theorem Decimal.not_mem {text : String} {value : Nat} (decimal : Decimal text value) {char : Char}
    (other : char.isDigit = false) : char ∉ text.toList := by
  intro among
  have digit := decimal.digits char among
  exact absurd digit (by simp [other])

/-- A number is read to the end exactly where the text is a decimal in range. -/
theorem fromChars_whole_iff (bound : Nat) (text : String) (value : Nat) :
    fromChars bound text.toList = some (value, []) ↔ Decimal text value ∧ value ≤ bound := by
  constructor
  · intro read
    simp only [fromChars, Option.ite_none_left_eq_some, Option.some.injEq, Prod.mk.injEq, not_or,
      Nat.not_lt] at read
    obtain ⟨⟨digit, room⟩, valued, trailing⟩ := read
    have digits : ∀ char ∈ text.toList, char.isDigit = true := List.dropWhile_eq_nil_iff.mp trailing
    have whole : text.toList.takeWhile Char.isDigit = text.toList := List.takeWhile_eq_self_iff.mpr digits
    rw [whole] at digit room valued
    exact ⟨⟨digit, digits, valued⟩, by omega⟩
  · rintro ⟨decimal, room⟩
    have whole : text.toList.takeWhile Char.isDigit = text.toList :=
      List.takeWhile_eq_self_iff.mpr decimal.digits
    have trailing : text.toList.dropWhile Char.isDigit = [] := List.dropWhile_eq_nil_iff.mpr decimal.digits
    have inside : ¬(text.toList = [] ∨ bound < value) := by
      rw [not_or, Nat.not_lt]
      exact ⟨decimal.some_digit, room⟩
    simp only [fromChars, whole, trailing, decimal.valued, inside, if_false]

/-- A positive `int` is read to the end exactly where the text is a decimal of it. -/
theorem fromCharsInt_whole_iff (text : String) {value : Nat} (positive : 0 < value)
    (small : value ≤ 2147483647) :
    fromCharsInt text.toList = some ((value : Int), []) ↔ Decimal text value := by
  unfold fromCharsInt
  split
  · rename_i digits signed
    constructor
    · intro read
      obtain ⟨⟨number, rest⟩, -, same⟩ := Option.map_eq_some_iff.mp read
      have negative : -(number : Int) = value := (Prod.mk.inj same).1
      omega
    · intro decimal
      have minus : '-' ∈ text.toList := by simp [signed]
      exact absurd minus (decimal.not_mem (by decide))
  · constructor
    · intro read
      obtain ⟨⟨number, rest⟩, read, same⟩ := Option.map_eq_some_iff.mp read
      obtain ⟨same, rfl⟩ := Prod.mk.inj same
      have number : number = value := by exact_mod_cast same
      rw [number] at read
      exact ((fromChars_whole_iff _ _ _).mp read).1
    · intro decimal
      have read := (fromChars_whole_iff 2147483647 text value).mpr ⟨decimal, small⟩
      rw [read]
      rfl

end Text
