import Mathlib.Algebra.BigOperators.Intervals
import Mathlib.Order.Interval.Finset.Fin
import ParameterScan.Proofs.Derivative

/-!
# Where a Hessian looks

A Hessian by central differences takes the value of its function at the point, at two points beside
it for each coordinate and at four corners for each pair of coordinates. It is missing exactly when
one of these values is: no point is passed over, and none is taken that is not in the list. No point
of the list is moved in more than two coordinates. What is there is symmetric, since each mixed
difference is taken once and stands in two places.

Nothing is assumed about the numbers or the steps. Rounding may make some of the points equal.
-/
namespace ParameterScan.Derivative

variable {α : Type} [Scalar α]

section Points

variable (x : List α) (steps : Fin x.length → α)

def besides (i : Fin x.length) : List (List α) :=
  [beside x steps i true, beside x steps i false]

def corners (i j : Fin x.length) : List (List α) :=
  [corner x steps i j true true, corner x steps i j true false, corner x steps i j false true,
    corner x steps i j false false]

/-- The points whose values make a Hessian. -/
def centralPoints : List (List α) :=
  x :: ((List.finRange x.length).flatMap (besides x steps) ++
    (List.finRange x.length).flatMap fun i =>
      ((List.finRange x.length).filter (i < ·)).flatMap (corners x steps i))

/-- The same point up to two of its coordinates. -/
def WithinTwo (x p : List α) : Prop :=
  p.length = x.length ∧ ∃ i j : ℕ, ∀ k, k ≠ i → k ≠ j → p[k]? = x[k]?

variable {x steps}

theorem mem_centralPoints {p : List α} :
    p ∈ centralPoints x steps ↔ p = x ∨ (∃ i, p ∈ besides x steps i) ∨
      ∃ i j, i < j ∧ p ∈ corners x steps i j := by
  simp [centralPoints]

omit [Scalar α] in
theorem withinTwo_set_set (x : List α) (i j : ℕ) (a b : α) :
    WithinTwo x ((x.set i a).set j b) := by
  refine ⟨by simp, i, j, fun k hi hj => ?_⟩
  rw [List.getElem?_set_ne hj.symm, List.getElem?_set_ne hi.symm]

theorem withinTwo_of_mem {p : List α} (h : p ∈ centralPoints x steps) : WithinTwo x p := by
  rcases mem_centralPoints.mp h with rfl | ⟨i, hp⟩ | ⟨i, j, -, hp⟩
  · exact ⟨rfl, 0, 0, fun _ _ _ => rfl⟩
  · have hset : ∃ a, p = (x.set i a).set i a := by
      simp only [besides, List.mem_cons, List.not_mem_nil, or_false] at hp
      rcases hp with rfl | rfl
      · exact ⟨_, (List.set_set _).symm⟩
      · exact ⟨_, (List.set_set _).symm⟩
    obtain ⟨a, rfl⟩ := hset
    exact withinTwo_set_set x i i a a
  · simp only [corners, List.mem_cons, List.not_mem_nil, or_false] at hp
    rcases hp with rfl | rfl | rfl | rfl <;> exact withinTwo_set_set x i j _ _

end Points

section Count

theorem length_above {n : ℕ} (i : Fin n) :
    ((List.finRange n).filter (i < ·)).length = n - 1 - i := by
  rw [← Fin.card_Ioi, ← Finset.filter_lt_eq_Ioi]
  rfl

/-- Twice the number of pairs. -/
theorem sum_above (n : ℕ) : (∑ i : Fin n, (n - 1 - i.val)) * 2 = n * (n - 1) := by
  rw [Fin.sum_univ_eq_sum_range fun i => n - 1 - i, Finset.sum_range_reflect fun i => i]
  exact Finset.sum_range_id_mul_two n

theorem length_centralPoints (x : List α) (steps : Fin x.length → α) :
    (centralPoints x steps).length = 2 * x.length ^ 2 + 1 := by
  have hpairs : ((List.finRange x.length).map fun i =>
      (((List.finRange x.length).filter (i < ·)).flatMap (corners x steps i)).length).sum =
        (∑ i : Fin x.length, (x.length - 1 - i.val)) * 4 := by
    rw [← Fin.sum_univ_def, Finset.sum_mul]
    apply Finset.sum_congr rfl
    intro i _
    simp [corners, length_above]
  have hsides : ((List.finRange x.length).flatMap (besides x steps)).length = x.length * 2 := by
    simp [besides]
  have htwice := sum_above x.length
  rw [centralPoints, List.length_cons, List.length_append, hsides, List.length_flatMap, hpairs]
  cases hlength : x.length with
  | zero => simp
  | succ n =>
      rw [hlength, Nat.add_sub_cancel] at htwice
      rw [Nat.add_sub_cancel]
      linarith

end Count

section Missing

variable {τ ρ : Type}

/-- A chain is broken at its first link or at a later one, whatever the first link hands on. -/
theorem bind_eq_none_iff {o : Option τ} {g : τ → Option ρ} {broken : Prop}
    (h : ∀ r, g r = none ↔ broken) : (o >>= g) = none ↔ o = none ∨ broken := by
  cases o with
  | none => simp
  | some r => simpa using h r

theorem mapM_eq_none_iff {f : τ → Option ρ} {xs : List τ} :
    xs.mapM f = none ↔ ∃ x ∈ xs, f x = none := by
  induction xs with
  | nil => simp
  | cons x xs ih =>
      rw [List.mapM_cons, List.exists_mem_cons_iff, ← ih]
      apply bind_eq_none_iff
      intro r
      cases xs.mapM f <;> simp

variable {x : List α} {steps : Fin x.length → α} {f : List α → Option α}

theorem curvature?_eq_none_iff {f0 : α} {i : Fin x.length} :
    curvature? x steps f f0 i = none ↔ ∃ p ∈ besides x steps i, f p = none := by
  simp only [besides, List.exists_mem_cons_iff]
  apply bind_eq_none_iff
  intro up
  apply bind_eq_none_iff
  simp

theorem mixed?_eq_none_iff {i j : Fin x.length} :
    mixed? x steps f i j = none ↔ ∃ p ∈ corners x steps i j, f p = none := by
  simp only [corners, List.exists_mem_cons_iff]
  apply bind_eq_none_iff
  intro pp
  apply bind_eq_none_iff
  intro pm
  apply bind_eq_none_iff
  intro mp
  apply bind_eq_none_iff
  simp

/-- A Hessian is missing exactly when a value is. -/
theorem hessianWith?_eq_none_iff :
    hessianWith? x steps f = none ↔ ∃ p ∈ centralPoints x steps, f p = none := by
  have hdiagonal : ∀ f0, (List.finRange x.length).mapM (curvature? x steps f f0) = none ↔
      ∃ i, ∃ p ∈ besides x steps i, f p = none := by
    intro f0
    simp only [mapM_eq_none_iff, curvature?_eq_none_iff, List.mem_finRange, true_and]
  have hupper : ((List.finRange x.length).mapM fun i => (List.finRange x.length).mapM fun j =>
      if i < j then mixed? x steps f i j else some 0) = none ↔
        ∃ i j, i < j ∧ ∃ p ∈ corners x steps i j, f p = none := by
    have hentry : ∀ i j : Fin x.length, (if i < j then mixed? x steps f i j else some 0) = none ↔
        i < j ∧ ∃ p ∈ corners x steps i j, f p = none := by
      intro i j
      split_ifs with hij
      · simp only [mixed?_eq_none_iff, hij, true_and]
      · simp [hij]
    simp only [mapM_eq_none_iff, hentry, List.mem_finRange, true_and]
  have hchain : hessianWith? x steps f = none ↔ f x = none ∨
      (∃ i, ∃ p ∈ besides x steps i, f p = none) ∨
        ∃ i j, i < j ∧ ∃ p ∈ corners x steps i j, f p = none := by
    apply bind_eq_none_iff
    intro f0
    rw [← hdiagonal f0, ← hupper]
    apply bind_eq_none_iff
    intro diagonal
    refine (bind_eq_none_iff fun upper => ?_).trans (or_iff_left not_false)
    simp
  rw [hchain]
  constructor
  · rintro (hx | ⟨i, p, hp, hnone⟩ | ⟨i, j, hij, p, hp, hnone⟩)
    · exact ⟨x, mem_centralPoints.mpr (.inl rfl), hx⟩
    · exact ⟨p, mem_centralPoints.mpr (.inr (.inl ⟨i, hp⟩)), hnone⟩
    · exact ⟨p, mem_centralPoints.mpr (.inr (.inr ⟨i, j, hij, hp⟩)), hnone⟩
  · rintro ⟨p, hp, hnone⟩
    rcases mem_centralPoints.mp hp with rfl | ⟨i, hp⟩ | ⟨i, j, hij, hp⟩
    · exact .inl hnone
    · exact .inr (.inl ⟨i, p, hp, hnone⟩)
    · exact .inr (.inr ⟨i, j, hij, p, hp, hnone⟩)

/-- A Hessian is symmetric. -/
theorem transpose_of_hessianWith? {h : Mat α x.length x.length}
    (hsome : hessianWith? x steps f = some h) : h.transpose = h := by
  simp only [hessianWith?, Option.bind_eq_bind, Option.bind_eq_some_iff, Option.pure_def,
    Option.some.injEq] at hsome
  obtain ⟨f0, -, diagonal, -, upper, -, rfl⟩ := hsome
  refine congrArg Mat.ofFn (funext fun i => funext fun j => ?_)
  rw [Mat.entry_ofFn]
  rcases lt_trichotomy i j with hlt | rfl | hlt
  · rw [if_neg hlt.ne', if_neg hlt.not_gt, if_neg hlt.ne, if_pos hlt]
  · rfl
  · rw [if_neg hlt.ne, if_pos hlt, if_neg hlt.ne', if_neg hlt.not_gt]

end Missing

end ParameterScan.Derivative
