import Mathlib.Data.List.Forall2

set_option autoImplicit false

/- Readers of fields off the front of a list, and when one reads exactly what is written. -/
namespace Reader

variable {τ ε α β γ : Type}

/-- Whatever passes for a field is its value written out, and every value that fits is read back
with all that follows it. -/
structure Exact (read : List τ → Except ε (α × List τ)) (write : α → List τ)
    (fits : α → Prop) : Prop where
  sound : ∀ {wire rest : List τ} {value : α}, read wire = .ok (value, rest) →
    fits value ∧ wire = write value ++ rest
  complete : ∀ {value : α} {rest : List τ}, fits value →
    read (write value ++ rest) = .ok (value, rest)

theorem bind_ok_iff {first : Except ε α} {next : α → Except ε β} {result : β} :
    first >>= next = .ok result ↔ ∃ value, first = .ok value ∧ next value = .ok result := by
  cases first with
  | error error =>
      constructor
      · intro done
        cases done
      · rintro ⟨value, stopped, -⟩
        cases stopped
  | ok value =>
      constructor
      · exact fun done => ⟨value, rfl, done⟩
      · rintro ⟨same, taken, done⟩
        cases taken
        exact done

/-- A row of steps ends well exactly where each one does. -/
theorem mapM_ok_iff {step : α → Except ε β} {given : List α} {results : List β} :
    given.mapM step = .ok results ↔ List.Forall₂ (fun one result => step one = .ok result) given results := by
  induction given generalizing results with
  | nil =>
      rw [List.mapM_nil, List.forall₂_nil_left_iff]
      exact ⟨fun done => (Except.ok.inj done).symm, fun none => by rw [none]; rfl⟩
  | cons one others ih =>
      rw [List.mapM_cons, bind_ok_iff, List.forall₂_cons_left_iff]
      constructor
      · rintro ⟨result, first, done⟩
        obtain ⟨rest, later, done⟩ := bind_ok_iff.mp done
        exact ⟨result, rest, first, ih.mp later, (Except.ok.inj done).symm⟩
      · rintro ⟨result, rest, first, later, rfl⟩
        exact ⟨result, first, bind_ok_iff.mpr ⟨rest, ih.mpr later, rfl⟩⟩

theorem bind_ok {first : Except ε α} {next : α → Except ε β} {result : β}
    (done : first.bind next = .ok result) : ∃ value, first = .ok value ∧ next value = .ok result := by
  cases first with
  | error error => cases done
  | ok value => exact ⟨value, rfl, done⟩

section Exact

variable {read : List τ → Except ε (α × List τ)} {write : α → List τ} {fits : α → Prop}

/-- What comes after a field is read after it. -/
theorem Exact.bind_iff (exact : Exact read write fits) {wire : List τ}
    {next : α × List τ → Except ε γ} {result : γ} :
    (read wire).bind next = .ok result ↔ ∃ value rest, fits value ∧ wire = write value ++ rest ∧
      next (value, rest) = .ok result := by
  constructor
  · intro done
    obtain ⟨⟨value, rest⟩, front, done⟩ := bind_ok done
    obtain ⟨fit, layout⟩ := exact.sound front
    exact ⟨value, rest, fit, layout, done⟩
  · rintro ⟨value, rest, fit, rfl, done⟩
    rw [exact.complete fit]
    exact done

/-- A number of fields of one kind, one after the other. -/
def times (read : List τ → Except ε (α × List τ)) : Nat → List τ → Except ε (List α × List τ)
  | 0, wire => .ok ([], wire)
  | count + 1, wire => do
      let (value, wire) ← read wire
      let (values, wire) ← times read count wire
      return (value :: values, wire)

theorem times_succ (count : Nat) (wire : List τ) : times read (count + 1) wire =
    (read wire).bind fun (value, wire) =>
      (times read count wire).bind fun (values, wire) => .ok (value :: values, wire) := rfl

/-- They are read exactly when each one is. -/
theorem Exact.times (exact : Exact read write fits) (count : Nat) :
    Exact (times read count) (fun values => values.flatMap write)
      fun values => values.length = count ∧ ∀ value ∈ values, fits value := by
  induction count with
  | zero =>
      constructor
      · intro wire rest values done
        cases done
        exact ⟨⟨rfl, fun _ absent => absurd absent List.not_mem_nil⟩, rfl⟩
      · rintro values rest ⟨none, -⟩
        rw [List.length_eq_zero_iff.mp none]
        rfl
  | succ count ih =>
      constructor
      · intro wire rest values done
        rw [times_succ] at done
        obtain ⟨value, after, fit, front, more⟩ := exact.bind_iff.mp done
        obtain ⟨⟨others, tail⟩, all, last⟩ := bind_ok more
        cases last
        obtain ⟨⟨size, fit'⟩, back⟩ := ih.sound all
        refine ⟨⟨by rw [List.length_cons, size], ?_⟩, ?_⟩
        · intro other listed
          rcases List.mem_cons.mp listed with rfl | later
          · exact fit
          · exact fit' other later
        · rw [front, back, List.flatMap_cons, List.append_assoc]
      · rintro values rest ⟨size, fit⟩
        cases values with
        | nil => cases size
        | cons value others =>
            have size : others.length = count := Nat.succ.inj size
            have later : Reader.times read count (others.flatMap write ++ rest) =
                .ok (others, rest) :=
              ih.complete ⟨size, fun other later => fit other (List.mem_cons_of_mem value later)⟩
            rw [List.flatMap_cons, List.append_assoc, times_succ,
              exact.complete (fit value List.mem_cons_self)]
            dsimp only [Except.bind]
            rw [later]

end Exact

end Reader
