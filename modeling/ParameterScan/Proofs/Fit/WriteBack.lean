import ParameterScan.Proofs.Fit.Contract
import ParameterScan.Proofs.Fit.Estimate

/-!
# What is written back is what was seen

The thawed values of a fit are a vector that goes three ways: it is read off the parameters, it is
put among the values of the frozen ones to evaluate the curve, and it is assigned. An optimizer sees
the fit through the second way only, and its answer is written back by the third. The three agree:
they go by the places of the same parameters in the same order, so the curve that was evaluated at a
vector is the curve of the fit to which the vector has been assigned.

Only the assignment looks at limits. It may stop half way, at the first entry that is refused
(`Parameters.AssignedUpTo`); the entries before it stay, and the values are then those of neither
vector. Nothing is asked of the arithmetic, nor of the values and limits of frozen parameters.
-/
namespace ParameterScan

open Parameters (thawed thawedCount thawedValues substitute)

namespace Parameters

section Places

variable {α : Type}

/-- The entries of a vector, each with the place of the thawed parameter that it belongs to. -/
def placed (ps : List (Parameter α)) (xs : List α) : List (Nat × α) :=
  (thawedIndices ps).zip xs

/-- The values with some of them replaced, by their places. -/
def overwrite (values : List α) (writes : List (Nat × α)) : List α :=
  writes.foldl (fun values write => values.set write.1 write.2) values

/-- The same writes, one place further on. -/
def shift (writes : List (Nat × α)) : List (Nat × α) :=
  writes.map fun write => (write.1 + 1, write.2)

variable {p : Parameter α}

theorem placed_nil (ps : List (Parameter α)) : placed ps [] = [] :=
  List.zip_nil_right

theorem placed_cons_frozen (hp : p.frozen = true) (ps : List (Parameter α)) (xs : List α) :
    placed (p :: ps) xs = shift (placed ps xs) := by
  rw [placed, thawedIndices_cons, if_pos hp, List.nil_append, List.zip_map_left]
  rfl

theorem placed_cons_thawed (hp : p.frozen = false) (ps : List (Parameter α)) (x : α)
    (xs : List α) : placed (p :: ps) (x :: xs) = (0, x) :: shift (placed ps xs) := by
  rw [placed, thawedIndices_cons, hp, if_neg Bool.false_ne_true, List.singleton_append,
    List.zip_cons_cons, List.zip_map_left]
  rfl

theorem overwrite_shift (value : α) (values : List α) (writes : List (Nat × α)) :
    overwrite (value :: values) (shift writes) = value :: overwrite values writes := by
  induction writes generalizing values with
  | nil => rfl
  | cons write rest ih => exact ih (values.set write.1 write.2)

/-- A vector is put in entry by entry, each at the place of its parameter. -/
theorem substitute_eq_overwrite (ps : List (Parameter α)) (xs : List α) :
    substitute ps xs = overwrite (ps.map Parameter.value) (placed ps xs) := by
  induction ps generalizing xs with
  | nil => rfl
  | cons p ps ih =>
      cases hp : p.frozen with
      | true =>
          rw [placed_cons_frozen hp, List.map_cons, overwrite_shift, ← ih,
            substitute_cons_frozen hp]
      | false =>
          cases xs with
          | nil =>
              rw [substitute_nil, placed_nil]
              rfl
          | cons x xs =>
              rw [placed_cons_thawed hp, substitute_cons_thawed hp, ih]
              exact (overwrite_shift x (ps.map Parameter.value) (placed ps xs)).symm

end Places

variable {α : Type} [Scalar α]

theorem writeAll_shift (p : Parameter α) (ps : List (Parameter α)) (writes : List (Nat × α)) :
    writeAll (p :: ps) (shift writes) = (p :: (writeAll ps writes).1, (writeAll ps writes).2) := by
  induction writes generalizing ps with
  | nil => rfl
  | cons write rest ih =>
      obtain ⟨i, x⟩ := write
      have hget : (p :: ps).getD (i + 1) default = ps.getD i default := rfl
      have hshift : shift ((i, x) :: rest) = (i + 1, x) :: shift rest := rfl
      cases hassign : (ps.getD i default).assign x with
      | error e =>
          rw [hshift, writeAll_cons_error (hget ▸ hassign), writeAll_cons_error hassign]
      | ok q =>
          rw [hshift, writeAll_cons_ok (hget ▸ hassign), writeAll_cons_ok hassign]
          exact ih (ps.modify i fun _ => q)

/-- A vector is assigned entry by entry, each at the place of its parameter. -/
theorem assignEach_eq_writeAll (ps : List (Parameter α)) (xs : List α) :
    assignEach ps xs = writeAll ps (placed ps xs) := by
  induction ps generalizing xs with
  | nil => rfl
  | cons p ps ih =>
      cases hp : p.frozen with
      | true => rw [placed_cons_frozen hp, writeAll_shift, assignEach_cons_frozen hp, ih]
      | false =>
          cases xs with
          | nil =>
              rw [assignEach_nil, placed_nil]
              rfl
          | cons x xs =>
              have hget : (p :: ps).getD 0 default = p := rfl
              rw [placed_cons_thawed hp]
              cases hassign : p.assign x with
              | error e =>
                  rw [assignEach_cons_error hp hassign, writeAll_cons_error (hget ▸ hassign)]
              | ok q =>
                  rw [assignEach_cons_ok hp hassign, writeAll_cons_ok (hget ▸ hassign), ih]
                  exact (writeAll_shift q ps (placed ps xs)).symm

end Parameters

namespace CurveFit

variable {α : Type} [Scalar α]

/-- A vector that has not as many entries as there are thawed parameters is refused, and the fit
stays as it is. One that has is assigned up to the first entry that its parameter refuses, and is
accepted when there is none. Whatever becomes of it, only values of thawed parameters change. After
one that is accepted the thawed values are the vector, and all values and the statistic are those
that were seen with the vector put in. Putting in and assigning take the same entries to the same
places, in one order. The thawed values of a fit, put in, give its own values. -/
theorem written_back_as_seen (fit : CurveFit α) (xs : List α) :
    let ps := fit.parameters
    let after := (fit.assignThawed xs).1
    let outcome := (fit.assignThawed xs).2
    (xs.length ≠ thawedCount ps →
        after = fit ∧ outcome = .error (.thawedLength (thawedCount ps) xs.length)) ∧
      (xs.length = thawedCount ps →
        Parameters.AssignedUpTo ps xs after.parameters outcome ∧
          (after.parameters, outcome) = Parameters.writeAll ps (Parameters.placed ps xs)) ∧
      (outcome = .ok () ↔ List.Forall₂ Parameter.Admits (thawed ps) xs) ∧
      List.Forall₂ Parameter.Rewritten ps after.parameters ∧
      after = fit.withParameters after.parameters ∧
      (outcome = .ok () →
        thawedValues after.parameters = xs ∧
          after.parameters.map Parameter.value = substitute ps xs ∧
          ∀ errors : Option (List α),
            fit.statAt errors xs = after.statAt errors (thawedValues after.parameters)) ∧
      substitute ps xs =
        Parameters.overwrite (ps.map Parameter.value) (Parameters.placed ps xs) ∧
      substitute ps (thawedValues ps) = ps.map Parameter.value := by
  intro ps after outcome
  have hrewritten : List.Forall₂ Parameter.Rewritten ps after.parameters :=
    Parameters.rewritten_assignThawed ps xs
  refine ⟨fun hlength => ?refused, fun hlength => ?assigned, Parameters.assignThawed_eq_ok_iff,
    hrewritten, rfl, fun hok => ?accepted, Parameters.substitute_eq_overwrite ps xs,
    Parameters.substitute_thawedValues ps⟩
  case refused =>
    have hrefused := Parameters.assignThawed_of_length_ne hlength
    have hps : after.parameters = ps := congrArg Prod.fst hrefused
    exact ⟨congrArg fit.withParameters hps, congrArg Prod.snd hrefused⟩
  case assigned =>
    have heach : Parameters.assignThawed ps xs = Parameters.assignEach ps xs := if_pos hlength
    exact ⟨Parameters.assignedUpTo_assignThawed hlength,
      heach.trans (Parameters.assignEach_eq_writeAll ps xs)⟩
  case accepted =>
    have hvalues : thawedValues after.parameters = xs :=
      Parameters.thawedValues_of_assignThawed hok
    refine ⟨hvalues, ?_, fun errors => ?_⟩
    · calc
        after.parameters.map Parameter.value
          = substitute after.parameters (thawedValues after.parameters) :=
            (Parameters.substitute_thawedValues after.parameters).symm
        _ = substitute ps (thawedValues after.parameters) :=
            (Parameters.substitute_of_rewritten hrewritten).symm
        _ = substitute ps xs := by rw [hvalues]
    · have hstat := statAt_withParameters hrewritten errors
      rw [hvalues] at hstat ⊢
      exact hstat.symm

/-- Two levels between two offsets that are kept, one of them outside its limits. -/
def keptOffsets : CurveFit Float where
  data := { name := "offsets", x := [0, 1, 2], y := [4, 1, 3] }
  model :=
    { name := "offsets"
      parameters :=
        [⟨"a", 12, 0, 9, true⟩, ⟨"b", 2, 0, 9, false⟩, ⟨"c", 1, 0, 9, true⟩, ⟨"d", 5, 0, 9, false⟩]
      curve := fun values x =>
        values.getD 0 0 + values.getD 1 0 * x + values.getD 2 0 + values.getD 3 0 * x * x }
  stat := .leastSquares
  config := { tolerance := 0 }

/-- Of three vectors the first is too short, and the second is refused at its last entry. -/
theorem keptOffsets_written_back :
    let ps := keptOffsets.parameters
    let stopped := keptOffsets.assignThawed [3, 10]
    let full := keptOffsets.assignThawed [3, 4]
    (keptOffsets.assignThawed [3]).1 = keptOffsets ∧
      (Parameters.AssignedUpTo ps [3, 10] stopped.1.parameters stopped.2 ∧
        stopped.2 = .error (.outOfLimits "d" 10 0 9) ∧
        stopped.1.parameters.map Parameter.value = [12, 3, 1, 5]) ∧
      full.2 = .ok () ∧ thawedValues full.1.parameters = [3, 4] ∧
      full.1.parameters.map Parameter.value = [12, 3, 1, 4] ∧
      ∀ errors : Option (List Float),
        keptOffsets.statAt errors [3, 4] =
          full.1.statAt errors (thawedValues full.1.parameters) := by
  intro ps stopped full
  have hadmitted : List.Forall₂ Parameter.Admits (thawed ps) [3, 4] := by
    refine .cons ?_ (.cons ?_ .nil) <;> constructor <;> decide +kernel
  obtain ⟨hshort, -⟩ := written_back_as_seen keptOffsets [3]
  obtain ⟨-, hstopped, -⟩ := written_back_as_seen keptOffsets [3, 10]
  obtain ⟨-, -, hfull, -, -, haccepted, -⟩ := written_back_as_seen keptOffsets [3, 4]
  have hok : full.2 = .ok () := hfull.mpr hadmitted
  obtain ⟨hthawed, hvalues, hstat⟩ := haccepted hok
  exact ⟨(hshort (by decide)).1, ⟨(hstopped rfl).1, by decide +kernel, by decide +kernel⟩, hok,
    hthawed, hvalues, hstat⟩

end CurveFit

end ParameterScan
