import ParameterScan.Fit.Estimate
import ParameterScan.Proofs.Parameter
import ParameterScan.Proofs.Scalar.Order
import ParameterScan.Proofs.Scan.Targets

/-!
# Estimates line up with the thawed parameters

An estimate is four lists that are made in separate passes: the names and the values of the thawed
parameters, and the bounds to both sides, which come from the diagonal of a matrix or from a search
for each parameter. All four have one entry for each thawed parameter, in model order, and entry `k`
is about the same parameter in each of them.

An entry is found again by a name. Names may be repeated, and a frozen parameter may have the name
of a thawed one. A scan takes the first parameter of a name, which has to be thawed; it is then the
first one of that name among the thawed parameters too, so that the entry found is its own.
-/
namespace ParameterScan

namespace Parameters

variable {α : Type}

theorem thawedIndices_cons (p : Parameter α) (ps : List (Parameter α)) :
    thawedIndices (p :: ps) =
      (if p.frozen then [] else [0]) ++ (thawedIndices ps).map (· + 1) := by
  unfold thawedIndices
  rw [List.zipIdx_cons, List.filter_cons, List.zipIdx_succ, List.filter_map]
  cases hp : p.frozen with
  | true => simp [hp, Function.comp_def]
  | false => simp [hp, Function.comp_def]

theorem length_thawedValues (ps : List (Parameter α)) :
    (thawedValues ps).length = thawedCount ps := by
  rw [thawedValues, List.length_map, thawedCount]

/-- The first parameter of a name, if it is thawed, is the first of that name among the thawed
ones. -/
theorem findIdx?_thawed {ps : List (Parameter α)} {name : String} {i : Nat}
    (hfind : index? ps name = some i) (hi : i ∈ thawedIndices ps) :
    ∃ k, ((thawed ps).map Parameter.name).findIdx? (· == name) = some k ∧
      (thawedIndices ps)[k]? = some i := by
  induction ps generalizing i with
  | nil => cases hfind
  | cons p ps ih =>
      rw [index?, List.findIdx?_cons] at hfind
      cases hname : p.name == name with
      | true =>
          rw [hname, if_pos rfl, Option.some.injEq] at hfind
          subst hfind
          have hp : p.frozen = false := by
            obtain ⟨q, hq, hthawed⟩ := mem_thawedIndices.mp hi
            rw [List.getElem?_cons_zero, Option.some.injEq] at hq
            rw [hq, hthawed]
          refine ⟨0, ?_, ?_⟩
          · rw [thawed_cons_thawed hp, List.map_cons, List.findIdx?_cons, hname, if_pos rfl]
          · rw [thawedIndices_cons, hp]
            rfl
      | false =>
          rw [hname, if_neg Bool.false_ne_true, Option.map_eq_some_iff] at hfind
          obtain ⟨j, hj, rfl⟩ := hfind
          have hmem : j ∈ thawedIndices ps := by
            simpa [mem_thawedIndices] using hi
          obtain ⟨k, hk, hplace⟩ := ih hj hmem
          cases hp : p.frozen with
          | true =>
              refine ⟨k, ?_, ?_⟩
              · rw [thawed_cons_frozen hp, hk]
              · simp [thawedIndices_cons, hp, hplace]
          | false =>
              refine ⟨k + 1, ?_, ?_⟩
              · simp [thawed_cons_thawed hp, List.findIdx?_cons, hname, hk]
              · simp [thawedIndices_cons, hp, hplace]

end Parameters

variable {α : Type}

/-- One entry for each thawed parameter, with its name and its value. -/
structure ErrorEstimate.Describes (e : ErrorEstimate α) (ps : List (Parameter α)) : Prop where
  names_eq : e.names = (Parameters.thawed ps).map Parameter.name
  values_eq : e.values = Parameters.thawedValues ps
  length_lower : e.lower.length = Parameters.thawedCount ps
  length_upper : e.upper.length = Parameters.thawedCount ps

namespace ErrorEstimate.Describes

variable {e : ErrorEstimate α} {ps : List (Parameter α)}

/-- The entry that is found for a scan target is the one of its parameter. -/
theorem index?_of_found (h : e.Describes ps) {name : String} {i : Nat}
    (hfind : Parameters.index? ps name = some i) (hi : i ∈ Parameters.thawedIndices ps) :
    ∃ k, e.index? name = some k ∧ (Parameters.thawedIndices ps)[k]? = some i ∧
      k < e.lower.length ∧ k < e.upper.length := by
  obtain ⟨k, hk, hplace⟩ := Parameters.findIdx?_thawed hfind hi
  have hlt : k < Parameters.thawedCount ps := by
    rw [← Parameters.length_thawedIndices]
    exact (List.getElem?_eq_some_iff.mp hplace).1
  refine ⟨k, ?_, hplace, ?_, ?_⟩
  · rw [index?, h.names_eq, hk]
  · rwa [h.length_lower]
  · rwa [h.length_upper]

end ErrorEstimate.Describes

namespace CurveFit

theorem length_thawedPlaces (fit : CurveFit α) :
    fit.thawedPlaces.length = Parameters.thawedCount fit.parameters := by
  rw [← Parameters.length_thawedIndices, Parameters.thawedIndices, List.length_map, thawedPlaces]

variable [Scalar α]

/-- The two bounds of a parameter by covariance: the standard deviation to both sides, or none. -/
inductive Opposite : Option α → Option α → Prop
  | missing : Opposite none none
  | sides {s : α} : 0 < s → Opposite (some (-s)) (some s)

/-- The bounds at each place are those that are found by moving the parameter of that place, with
its own deviation as the first step. -/
def Searched (fit : CurveFit α) (e : ErrorEstimate α) : Prop :=
  ∃ best sigmas, fit.calcStat = .ok best ∧ fit.deviations = .ok sigmas ∧
    ∀ (k : Nat) (p : Parameter α) (i : Nat), fit.thawedPlaces[k]? = some (p, i) →
      ∃ sigma lower upper, sigmas[k]? = some sigma ∧
        fit.confidenceBounds (best + 1) i p sigma = .ok (lower, upper) ∧
        e.lower[k]? = some lower ∧ e.upper[k]? = some upper

variable {fit : CurveFit α} {e : ErrorEstimate α} {sigmas : List (Option α)}

/-- Deviations by any inversion, one for each thawed parameter: those of a covariance matrix, or
none at all. -/
theorem deviationsWith_eq_ok {inverse : {n : Nat} → Mat α n n → Option (Mat α n n)}
    (h : fit.deviationsWith inverse = .ok sigmas) :
    sigmas.length = Parameters.thawedCount fit.parameters ∧
      ((∃ n, ∃ cov : Mat α n n, sigmas = Derivative.deviations cov) ∨ ∀ s ∈ sigmas, s = none) := by
  have hvalues := Parameters.length_thawedValues fit.parameters
  unfold deviationsWith at h
  simp only at h
  split_ifs at h
  split at h
  next cov hcov =>
    cases h
    refine ⟨?_, .inl ⟨_, cov, rfl⟩⟩
    simp [Derivative.deviations, Mat.diagonal, hvalues]
  next =>
    cases h
    refine ⟨by rw [List.length_map, hvalues], .inr fun s hs => ?_⟩
    obtain ⟨-, -, rfl⟩ := List.mem_map.mp hs
    rfl

/-- A deviation is the root of a positive variance. -/
theorem pos_of_mem_deviations [Scalar.Monotone α]
    {inverse : {n : Nat} → Mat α n n → Option (Mat α n n)}
    (h : fit.deviationsWith inverse = .ok sigmas) {s : α} (hs : some s ∈ sigmas) : 0 < s := by
  rcases (deviationsWith_eq_ok h).2 with ⟨n, cov, rfl⟩ | hnone
  · obtain ⟨v, -, hv⟩ := List.mem_map.mp hs
    split_ifs at hv with hpos
    obtain rfl := Option.some.inj hv
    rw [Bool.and_eq_true, decide_eq_true_eq] at hpos
    exact Scalar.Monotone.sqrt_pos hpos.1
  · cases hnone _ hs

theorem describes_symmetricEstimate
    (h : sigmas.length = Parameters.thawedCount fit.parameters) :
    (fit.symmetricEstimate sigmas).Describes fit.parameters :=
  ⟨rfl, rfl, by rw [symmetricEstimate, List.length_map, h], h⟩

theorem opposite_symmetricEstimate (h : ∀ s, some s ∈ sigmas → 0 < s) :
    List.Forall₂ Opposite (fit.symmetricEstimate sigmas).lower
      (fit.symmetricEstimate sigmas).upper := by
  unfold symmetricEstimate
  rw [List.forall₂_map_left_iff, List.forall₂_same]
  intro s hs
  cases s with
  | none => exact .missing
  | some s => exact .sides (h s hs)

theorem confidenceErrors_eq_ok (h : fit.confidenceErrors = .ok e) :
    ∃ (best : α) (sigmas : List (Option α)) (bounds : List (Option α × Option α)),
      fit.calcStat = .ok best ∧ fit.deviations = .ok sigmas ∧
      (fit.thawedPlaces.zip sigmas).map (fun ((p, i), sigma) =>
        fit.confidenceBounds (best + 1) i p sigma) = bounds.map .ok ∧
      e = ⟨.confidence, fit.thawedNames, Parameters.thawedValues fit.parameters,
        bounds.map Prod.fst, bounds.map Prod.snd⟩ := by
  unfold confidenceErrors at h
  obtain ⟨best, hbest, h⟩ := exists_of_bind_eq_ok h
  obtain ⟨sigmas, hsigmas, h⟩ := exists_of_bind_eq_ok h
  obtain ⟨bounds, hbounds, h⟩ := exists_of_bind_eq_ok h
  exact ⟨best, sigmas, bounds, hbest, hsigmas, mapM_eq_ok_iff.mp hbounds, (Except.ok.inj h).symm⟩

theorem describes_of_confidenceErrors (h : fit.confidenceErrors = .ok e) :
    e.Describes fit.parameters ∧ fit.Searched e := by
  obtain ⟨best, sigmas, bounds, hbest, hsigmas, hbounds, rfl⟩ := confidenceErrors_eq_ok h
  have hplaces := length_thawedPlaces fit
  have hdeviations := (deviationsWith_eq_ok hsigmas).1
  have hlength : bounds.length = Parameters.thawedCount fit.parameters := by
    have hlengths := congrArg List.length hbounds
    rw [List.length_map, List.length_map, List.length_zip, hplaces, hdeviations,
      Nat.min_self] at hlengths
    exact hlengths.symm
  refine ⟨⟨rfl, rfl, by rw [List.length_map, hlength], by rw [List.length_map, hlength]⟩,
    best, sigmas, hbest, hsigmas, fun k p i hk => ?_⟩
  have hlt : k < Parameters.thawedCount fit.parameters := by
    rw [← hplaces]
    exact (List.getElem?_eq_some_iff.mp hk).1
  have hsigma : sigmas[k]? = some sigmas[k] := List.getElem?_eq_getElem (hdeviations ▸ hlt)
  have hbound : bounds[k]? = some bounds[k] := List.getElem?_eq_getElem (hlength ▸ hlt)
  refine ⟨sigmas[k], bounds[k].1, bounds[k].2, hsigma, ?_, ?_, ?_⟩
  · have hget := congrArg (·[k]?) hbounds
    have hzip : (fit.thawedPlaces.zip sigmas)[k]? = some ((p, i), sigmas[k]) :=
      List.getElem?_zip_eq_some.mpr ⟨hk, hsigma⟩
    simpa [List.getElem?_map, hzip, hbound] using hget
  · simp [hbound]
  · simp [hbound]

theorem covarianceErrors_eq_ok (h : fit.covarianceErrors = .ok e) :
    ∃ sigmas, fit.deviations = .ok sigmas ∧ e = fit.symmetricEstimate sigmas :=
  exists_of_map_eq_ok h

theorem describes_of_covarianceErrors (h : fit.covarianceErrors = .ok e) :
    e.Describes fit.parameters := by
  obtain ⟨sigmas, hsigmas, rfl⟩ := covarianceErrors_eq_ok h
  exact describes_symmetricEstimate (deviationsWith_eq_ok hsigmas).1

theorem describes_of_estimateErrors (h : fit.estimateErrors = .ok e) :
    e.Describes fit.parameters := by
  unfold estimateErrors at h
  cases hestimator : fit.estimator with
  | covariance => exact describes_of_covarianceErrors (by simpa only [hestimator] using h)
  | confidence => exact (describes_of_confidenceErrors (by simpa only [hestimator] using h)).1

end CurveFit

end ParameterScan
