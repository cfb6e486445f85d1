import Mathlib.Data.List.Nodup
import ParameterScan.Proofs.Scan.Frame
import ParameterScan.Proofs.Scan.Schedule

/-!
# What an accepted plan says

A plan that has been prepared names the places at which its targets are found, all of them thawed,
and the statistic that the fit has at its current values. Distinct names are found at distinct
places.
-/
namespace ParameterScan

theorem map_eq_map_of_imp {τ ρ δ ι : Type} {f : τ → δ} {k : ρ → δ} {g : τ → ι} {l : ρ → ι}
    {xs : List τ} {ys : List ρ} (h : xs.map f = ys.map k)
    (himp : ∀ x y, f x = k y → g x = l y) : xs.map g = ys.map l := by
  induction xs generalizing ys with
  | nil =>
      cases ys with
      | nil => rfl
      | cons y ys => simp at h
  | cons x xs ih =>
      cases ys with
      | nil => simp at h
      | cons y ys =>
          simp only [List.map_cons, List.cons.injEq] at h
          simp only [List.map_cons, himp x y h.1, ih h.2]

theorem toList_mapM_eq_ok {τ ε ρ : Type} {n : Nat} {f : τ → Except ε ρ} {xs : Vector τ n}
    {ys : Vector ρ n} (h : xs.mapM f = .ok ys) : xs.toList.mapM f = .ok ys.toList := by
  have harray : Vector.toArray <$> xs.mapM f = xs.toArray.mapM f := Vector.toArray_mapM
  rw [h, Array.mapM_eq_mapM_toList] at harray
  change Except.ok ys.toArray = _ at harray
  cases hlist : xs.toArray.toList.mapM f with
  | error e =>
      rw [hlist] at harray
      cases harray
  | ok rs =>
      rw [hlist] at harray
      have hrs : ys.toArray = rs.toArray := Except.ok.inj harray
      have hys : rs = ys.toList := by
        rw [← Vector.toList_toArray, hrs]
      rw [← hys]
      exact hlist

theorem exists_of_map_eq_ok {ε ρ δ : Type} {x : Except ε ρ} {f : ρ → δ} {r : δ}
    (h : x.map f = .ok r) : ∃ y, x = .ok y ∧ r = f y := by
  cases x with
  | error e => cases h
  | ok y => exact ⟨y, rfl, (Except.ok.inj h).symm⟩

theorem exists_of_bind_eq_ok {ε ρ δ : Type} {x : Except ε ρ} {f : ρ → Except ε δ} {r : δ}
    (h : (x >>= f) = .ok r) : ∃ y, x = .ok y ∧ f y = .ok r := by
  cases x with
  | error e => cases h
  | ok y => exact ⟨y, rfl, h⟩

/-- What an optimizer is chosen for is only told. -/
theorem chooseMethod_fst (current : Optimizer) (stat : Statistic) (fast : Bool)
    (context other : String) :
    (chooseMethod current stat fast context).1 = (chooseMethod current stat fast other).1 := by
  simp only [chooseMethod]
  split_ifs <;> rfl

section Places

variable {φ α : Type} [Fit φ α] {n : Nat} {fit : φ}

theorem exists_of_index? {name : String} {i : Nat} (h : Fit.index? fit name = some i) :
    ∃ p, (Fit.parameters fit)[i]? = some p ∧ p.name = name := by
  have hfind : (Fit.parameters fit).findIdx? (fun p => p.name == name) = some i := h
  obtain ⟨hi, hname, _⟩ := List.findIdx?_eq_some_iff_getElem.mp hfind
  exact ⟨(Fit.parameters fit)[i], List.getElem?_eq_getElem hi, by simpa using hname⟩

/-- Distinct names are found at distinct places. -/
theorem nodup_of_found {names : List String} {targets : List Nat}
    (hfound : names.map (Fit.index? fit) = targets.map some) (hnames : names.Nodup) :
    targets.Nodup := by
  have hback : names.map some =
      targets.map fun i => (Fit.parameters fit)[i]?.map Parameter.name := by
    refine map_eq_map_of_imp hfound fun name i hi => ?_
    obtain ⟨p, hp, hname⟩ := exists_of_index? hi
    simp [hp, hname]
  refine List.Nodup.of_map _ (hback ▸ hnames.map ?_)
  exact fun _ _ h => Option.some.inj h

variable [Scalar α]

namespace Plan

theorem target_eq_ok {context name : String} {i : Nat} (h : target fit context name = .ok i) :
    Fit.index? fit name = some i ∧ i ∈ Parameters.thawedIndices (Fit.parameters fit) := by
  unfold target at h
  cases hindex : Fit.index? fit name with
  | none => simp [hindex] at h
  | some j =>
      simp only [hindex] at h
      split_ifs at h with hfrozen
      obtain rfl : j = i := Except.ok.inj h
      obtain ⟨p, hp, _⟩ := exists_of_index? hindex
      refine ⟨rfl, Parameters.mem_thawedIndices.mpr ⟨p, hp, ?_⟩⟩
      have hparameter : Fit.parameter fit j = p := by
        rw [Fit.parameter, List.getD_eq_getElem?_getD, hp]
        rfl
      simpa [hparameter] using hfrozen

theorem check_eq_ok {names : Vector String n} {context : String} {targets : Vector Nat n}
    {stat : α} (h : check fit names context = .ok (targets, stat)) :
    names.toList.map (target fit context) = targets.toList.map .ok ∧
      Fit.calcStat fit = .ok stat := by
  unfold check at h
  cases hsupports : (Fit.statistic fit).supportsConfidence with
  | false => simp [hsupports, bind, Except.bind, throw, throwThe, MonadExceptOf.throw] at h
  | true =>
      simp only [hsupports, Bool.not_true, Bool.false_eq_true, if_false] at h
      obtain ⟨found, htargets, h⟩ := exists_of_bind_eq_ok h
      cases hstat : Fit.calcStat fit with
      | error e =>
          rw [hstat] at h
          cases h
      | ok value =>
          rw [hstat] at h
          obtain ⟨rfl, rfl⟩ := Prod.mk.inj (Except.ok.inj h)
          exact ⟨mapM_eq_ok_iff.mp (toList_mapM_eq_ok htargets), rfl⟩

/-- The targets that pass the checks are found under their names, and thawed. -/
theorem found_of_check {names : Vector String n} {context : String} {targets : Vector Nat n}
    {stat : α} (h : check fit names context = .ok (targets, stat)) :
    names.toList.map (Fit.index? fit) = targets.toList.map some ∧
      targets.toList ⊆ Parameters.thawedIndices (Fit.parameters fit) := by
  obtain ⟨htargets, -⟩ := check_eq_ok h
  refine ⟨map_eq_map_of_imp htargets fun _ _ hok => (target_eq_ok hok).1, ?_⟩
  intro i hi
  have hmem : Except.ok i ∈ names.toList.map (target fit context) := by
    rw [htargets]
    exact List.mem_map_of_mem hi
  obtain ⟨name, _, hok⟩ := List.mem_map.mp hmem
  exact (target_eq_ok hok).2

/-- Where the parts of a plan come from. -/
theorem prepare_eq_ok {after : φ} {names : Vector String n} {mode : ScanMode} {context : String}
    {req : GridRequest α n} {fast : Bool} {plan : Plan α n}
    (h : prepare fit names mode context req fast = (after, .ok plan)) :
    check fit names context = .ok (plan.targets, plan.stat) ∧
      GridRequest.build fit plan.targets req = (after, .ok plan.grid) ∧
      plan.mode = mode ∧ plan.method = (methodFor after mode fast context).1 := by
  unfold prepare at h
  cases hcheck : check fit names context with
  | error e => simp [hcheck] at h
  | ok found =>
      obtain ⟨targets, stat⟩ := found
      simp only [hcheck] at h
      cases hbuild : GridRequest.build fit targets req with
      | mk after' outcome =>
          cases outcome with
          | error e => simp [hbuild] at h
          | ok grid =>
              simp only [hbuild, Prod.mk.injEq, Except.ok.injEq] at h
              obtain ⟨rfl, rfl⟩ := h
              exact ⟨rfl, hbuild, rfl, rfl⟩

end Plan

end Places

variable {α : Type} [Scalar α] {n : Nat}

namespace Plan

/-- What a plan knows about the fit that it was made for. -/
structure Sound (plan : Plan α n) (fit : CurveFit α) (names : Vector String n) (mode : ScanMode)
    (fast : Bool) : Prop where
  mode_eq : plan.mode = mode
  found : names.toList.map (Fit.index? fit) = plan.targets.toList.map some
  thawed : plan.targets.toList ⊆ Parameters.thawedIndices fit.parameters
  stat_eq : fit.calcStat = .ok plan.stat
  method_eq : mode = .projection →
    plan.method = (chooseMethod fit.method fit.stat fast "").1

theorem prepare_sound {fit : CurveFit α} {names : Vector String n} {mode : ScanMode}
    {context : String} {req : GridRequest α n} {fast : Bool} {plan : Plan α n}
    (h : (prepare fit names mode context req fast).2 = .ok plan) :
    plan.Sound fit names mode fast := by
  have hprepare : prepare fit names mode context req fast = (fit, .ok plan) :=
    Prod.ext (prepare_fst fit names mode context req fast) h
  obtain ⟨hcheck, -, hmode, hmethod⟩ := prepare_eq_ok hprepare
  obtain ⟨hfound, hthawed⟩ := found_of_check hcheck
  refine ⟨hmode, hfound, hthawed, (check_eq_ok hcheck).2, ?_⟩
  rintro rfl
  rw [hmethod]
  exact chooseMethod_fst fit.method fit.stat fast _ _

theorem Sound.nodup {plan : Plan α n} {fit : CurveFit α} {names : Vector String n}
    {mode : ScanMode} {fast : Bool} (h : plan.Sound fit names mode fast)
    (hnames : names.toList.Nodup) : plan.targets.toList.Nodup :=
  nodup_of_found h.found hnames

end Plan

end ParameterScan
