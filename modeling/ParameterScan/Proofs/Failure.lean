import ParameterScan.Proofs.Scan.Targets

/-!
# How a computation may fail

Where a computation goes through many stages, what it may fail with is known as soon as it is known
of each stage. `Fails P x` says that `x` succeeds or ends in an error with the property `P`; it is
kept by each way in which stages are put together.
-/
namespace ParameterScan

/-- If the computation fails, then in this way. -/
def Fails {ε ρ : Type} (P : ε → Prop) (x : Except ε ρ) : Prop := ∀ e, x = .error e → P e

theorem toList_mapM_eq_error {τ ε ρ : Type} {n : Nat} {f : τ → Except ε ρ} {xs : Vector τ n}
    {e : ε} (h : xs.mapM f = .error e) : xs.toList.mapM f = .error e := by
  have harray : Vector.toArray <$> xs.mapM f = xs.toArray.mapM f := Vector.toArray_mapM
  rw [h, Array.mapM_eq_mapM_toList] at harray
  cases hlist : xs.toArray.toList.mapM f with
  | error d =>
      rw [hlist] at harray
      cases harray
      exact hlist
  | ok rs =>
      rw [hlist] at harray
      cases harray

section

variable {ε τ ρ δ : Type} {P Q : ε → Prop}

theorem fails_ok (r : ρ) : Fails P (.ok r : Except ε ρ) := fun _ h => nomatch h

theorem fails_error_iff {e : ε} : Fails P (.error e : Except ε ρ) ↔ P e :=
  ⟨fun h => h e rfl, fun h _ he => Except.error.inj he ▸ h⟩

theorem Fails.mono {x : Except ε ρ} (h : Fails P x) (himp : ∀ e, P e → Q e) : Fails Q x :=
  fun e he => himp e (h e he)

theorem Fails.bind {x : Except ε ρ} {f : ρ → Except ε δ} (hx : Fails P x)
    (hf : ∀ r, x = .ok r → Fails P (f r)) : Fails P (x >>= f) := by
  cases x with
  | error e => exact fails_error_iff.mpr (hx e rfl)
  | ok r => exact hf r rfl

theorem Fails.map {x : Except ε ρ} (h : Fails P x) (f : ρ → δ) : Fails P (x.map f) := by
  cases x with
  | error e => exact fails_error_iff.mpr (h e rfl)
  | ok r => exact fails_ok (f r)

theorem eq_error_of_map {x : Except ε ρ} {f : ρ → δ} {e : ε} (h : x.map f = .error e) :
    x = .error e := by
  cases x with
  | error d => exact congrArg Except.error (Except.error.inj h)
  | ok r => cases h

theorem fails_mapM {f : τ → Except ε ρ} {xs : List τ} (h : ∀ x ∈ xs, Fails P (f x)) :
    Fails P (xs.mapM f) := by
  intro e he
  obtain ⟨x, hx, hfx⟩ := exists_of_mapM_eq_error he
  exact h x hx e hfx

theorem fails_vector_mapM {n : Nat} {f : τ → Except ε ρ} {xs : Vector τ n}
    (h : ∀ x ∈ xs.toList, Fails P (f x)) : Fails P (xs.mapM f) :=
  fun e he => fails_mapM h e (toList_mapM_eq_error he)

theorem fails_forM {f : τ → Except ε Unit} {xs : List τ} (h : ∀ x ∈ xs, Fails P (f x)) :
    Fails P (xs.forM f) := by
  induction xs with
  | nil => exact fails_ok ()
  | cons x xs ih =>
      obtain ⟨hx, hxs⟩ := List.forall_mem_cons.mp h
      exact hx.bind fun _ _ => ih hxs

end

end ParameterScan
