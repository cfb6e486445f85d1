import ParameterScan.Proofs.Minimize.Box
import ParameterScan.Proofs.Parameter

/-!
# Writing values that the limits admit

A vector that lies inside the limits of the thawed parameters is assigned without a refusal, another
one up to the first entry that is refused; either way nothing but their values changes. The curve is
then evaluated at the same numbers as before, when the vector was put in without being assigned. The
limits are kept, also by a write to one parameter, so what they admitted before they admit
afterwards.
-/
namespace ParameterScan

section Rewriting

variable {α : Type}

/-- The same parameter, with another value if it is thawed. -/
structure Parameter.Rewritten (p q : Parameter α) : Prop where
  name_eq : q.name = p.name
  lower_eq : q.lower = p.lower
  upper_eq : q.upper = p.upper
  frozen_eq : q.frozen = p.frozen
  value_eq : p.frozen = true → q.value = p.value

theorem Parameter.Rewritten.refl (p : Parameter α) : p.Rewritten p :=
  ⟨rfl, rfl, rfl, rfl, fun _ => rfl⟩

namespace Parameters

/-- The limits of all parameters in their order. -/
def limits (ps : List (Parameter α)) : List (α × α) :=
  ps.map fun p => (p.lower, p.upper)

variable {ps qs : List (Parameter α)}

theorem limits_modify {change : Parameter α → Parameter α} {i : Nat}
    (h : ∀ p, ps[i]? = some p → (change p).lower = p.lower ∧ (change p).upper = p.upper) :
    limits (ps.modify i change) = limits ps := by
  refine List.ext_getElem? fun j => ?_
  simp only [limits, List.getElem?_map, List.getElem?_modify]
  cases hj : ps[j]? with
  | none => rfl
  | some p =>
      split_ifs with hij
      · subst hij
        exact congrArg some (Prod.ext (h p hj).1 (h p hj).2)
      · rfl

theorem limits_of_thaw (h : qs.map Parameter.thaw = ps.map Parameter.thaw) :
    limits qs = limits ps :=
  map_eq_of_thaw (fun _ => rfl) h

theorem rewritten_refl (ps : List (Parameter α)) : List.Forall₂ Parameter.Rewritten ps ps :=
  List.forall₂_same.mpr fun p _ => .refl p

theorem rewritten_thawed (h : List.Forall₂ Parameter.Rewritten ps qs) :
    List.Forall₂ Parameter.Rewritten (thawed ps) (thawed qs) := by
  induction h with
  | nil => exact .nil
  | @cons p q _ _ hpq _ ih =>
      cases hp : p.frozen with
      | true =>
          rw [thawed_cons_frozen hp, thawed_cons_frozen (hpq.frozen_eq.trans hp)]
          exact ih
      | false =>
          rw [thawed_cons_thawed hp, thawed_cons_thawed (hpq.frozen_eq.trans hp)]
          exact .cons hpq ih

theorem map_eq_of_rewritten {β : Type} {f : Parameter α → β}
    (hf : ∀ {p q : Parameter α}, p.Rewritten q → f q = f p)
    (h : List.Forall₂ Parameter.Rewritten ps qs) : qs.map f = ps.map f := by
  induction h with
  | nil => rfl
  | cons hpq _ ih => rw [List.map_cons, List.map_cons, hf hpq, ih]

theorem limits_of_rewritten (h : List.Forall₂ Parameter.Rewritten ps qs) : limits qs = limits ps :=
  map_eq_of_rewritten (fun hpq => Prod.ext hpq.lower_eq hpq.upper_eq) h

/-- Putting in the new values before they are assigned gives what stands there afterwards. -/
theorem substitute_of_rewritten (h : List.Forall₂ Parameter.Rewritten ps qs) :
    substitute ps (thawedValues qs) = substitute qs (thawedValues qs) := by
  induction h with
  | nil => rfl
  | @cons p q _ _ hpq _ ih =>
      cases hp : p.frozen with
      | true =>
          have hq := hpq.frozen_eq.trans hp
          rw [thawedValues_cons_frozen hq, substitute_cons_frozen hp, substitute_cons_frozen hq,
            hpq.value_eq hp, ih]
      | false =>
          have hq := hpq.frozen_eq.trans hp
          rw [thawedValues_cons_thawed hq, substitute_cons_thawed hp, substitute_cons_thawed hq, ih]

end Parameters

end Rewriting

variable {α : Type} [Scalar α] {ps : List (Parameter α)} {xs : List α}

/-- The limits admit the value. -/
def Parameter.Admits (p : Parameter α) (x : α) : Prop := p.lower ≤ x ∧ x ≤ p.upper

instance (p : Parameter α) (x : α) : Decidable (p.Admits x) :=
  inferInstanceAs (Decidable (p.lower ≤ x ∧ x ≤ p.upper))

theorem Parameter.rewritten_of_assign {p q : Parameter α} {x : α} (hp : p.frozen = false)
    (h : p.assign x = .ok q) : p.Rewritten q := by
  obtain rfl := eq_of_assign h
  exact ⟨rfl, rfl, rfl, rfl, fun hfrozen => absurd (hp.symm.trans hfrozen) Bool.false_ne_true⟩

namespace Parameters

theorem limits_modify_value (ps : List (Parameter α)) (i : Nat) (x : α) :
    limits (ps.modify i fun _ => { ps.getD i default with value := x }) = limits ps := by
  refine limits_modify fun p hp => ?_
  rw [List.getD_eq_getElem?_getD, hp]
  exact ⟨rfl, rfl⟩

/-- What a parameter admits goes by its limits. -/
theorem admits_getD_iff {qs : List (Parameter α)} (h : limits qs = limits ps) (i : Nat) (x : α) :
    (qs.getD i default).Admits x ↔ (ps.getD i default).Admits x := by
  have hlimits : ∀ rs : List (Parameter α),
      (limits rs)[i]?.getD (0, 0) = ((rs.getD i default).lower, (rs.getD i default).upper) := by
    intro rs
    rw [limits, List.getElem?_map, List.getD_eq_getElem?_getD]
    cases rs[i]? <;> rfl
  obtain ⟨hlower, hupper⟩ := Prod.mk.inj
    ((hlimits qs).symm.trans ((congrArg (·[i]?.getD (0, 0)) h).trans (hlimits ps)))
  rw [Parameter.Admits, Parameter.Admits, hlower, hupper]

theorem between_iff :
    Between (ps.map Parameter.lower) (ps.map Parameter.upper) xs ↔
      List.Forall₂ Parameter.Admits ps xs := by
  induction ps generalizing xs with
  | nil =>
      constructor
      · intro h
        cases h
        exact .nil
      · intro h
        cases h
        exact .nil
  | cons p ps ih =>
      constructor
      · intro h
        cases h with
        | cons hl hu h => exact .cons ⟨hl, hu⟩ (ih.mp h)
      · intro h
        cases h with
        | cons hp h => exact .cons hp.1 hp.2 (ih.mpr h)

/-- The current values lie within the limits. -/
theorem between_values_iff :
    Between (ps.map Parameter.lower) (ps.map Parameter.upper) (ps.map Parameter.value) ↔
      ∀ p ∈ ps, p.Admits p.value := by
  rw [between_iff, List.forall₂_map_right_iff, List.forall₂_same]

/-- Also up to a refused value, an assignment changes nothing but thawed values. -/
theorem rewritten_assignEach (ps : List (Parameter α)) (xs : List α) :
    List.Forall₂ Parameter.Rewritten ps (assignEach ps xs).1 := by
  induction ps generalizing xs with
  | nil => exact .nil
  | cons p ps ih =>
      cases hp : p.frozen with
      | true =>
          rw [assignEach_cons_frozen hp]
          exact .cons (.refl p) (ih xs)
      | false =>
          cases xs with
          | nil =>
              rw [assignEach_nil]
              exact rewritten_refl (p :: ps)
          | cons x xs =>
              cases hassign : p.assign x with
              | error e =>
                  rw [assignEach_cons_error hp hassign]
                  exact rewritten_refl (p :: ps)
              | ok q =>
                  rw [assignEach_cons_ok hp hassign]
                  exact .cons (Parameter.rewritten_of_assign hp hassign) (ih xs)

theorem rewritten_assignThawed (ps : List (Parameter α)) (xs : List α) :
    List.Forall₂ Parameter.Rewritten ps (assignThawed ps xs).1 := by
  unfold assignThawed
  split_ifs
  · exact rewritten_assignEach ps xs
  · exact rewritten_refl ps

/-- The thawed parameters have taken the entries of a vector, which their limits admit. -/
structure Filled (ps : List (Parameter α)) (xs : List α) (qs : List (Parameter α)) : Prop where
  rewritten : List.Forall₂ Parameter.Rewritten ps qs
  admitted : List.Forall₂ Parameter.Admits (thawed ps) xs
  values_eq : thawedValues qs = xs

/-- What comes of a vector that is assigned to the thawed parameters in their order: the parameters
afterwards and the outcome. -/
inductive AssignedUpTo :
    List (Parameter α) → List α → List (Parameter α) → Except (FitError α) Unit → Prop
  /-- Every entry lies within the limits of its parameter, and all are there. -/
  | complete {ps qs : List (Parameter α)} {xs : List α} (filled : Filled ps xs qs) :
      AssignedUpTo ps xs qs (.ok ())
  /-- A thawed parameter `p` refuses its entry `x`. The thawed parameters in front of it have taken
  theirs, and from `p` on nothing has changed. -/
  | refused {front done rest : List (Parameter α)} {p : Parameter α} {taken left : List α} {x : α}
      (filled : Filled front taken done) (not_frozen : p.frozen = false)
      (not_admitted : ¬ p.Admits x) :
      AssignedUpTo (front ++ p :: rest) (taken ++ x :: left) (done ++ p :: rest)
        (.error (.outOfLimits p.name x p.lower p.upper))

section Steps

variable {qs : List (Parameter α)} {p : Parameter α} {x : α}
  {outcome : Except (FitError α) Unit}

theorem Filled.nil : Filled ([] : List (Parameter α)) [] [] :=
  ⟨.nil, .nil, rfl⟩

theorem Filled.cons_frozen (hp : p.frozen = true) (h : Filled ps xs qs) :
    Filled (p :: ps) xs (p :: qs) where
  rewritten := .cons (.refl p) h.rewritten
  admitted := by
    rw [thawed_cons_frozen hp]
    exact h.admitted
  values_eq := by rw [thawedValues_cons_frozen hp, h.values_eq]

theorem Filled.cons_admitted (hp : p.frozen = false) (hx : p.Admits x) (h : Filled ps xs qs) :
    Filled (p :: ps) (x :: xs) ({ p with value := x } :: qs) where
  rewritten := .cons (Parameter.rewritten_of_assign hp (if_pos hx)) h.rewritten
  admitted := by
    rw [thawed_cons_thawed hp]
    exact .cons hx h.admitted
  values_eq := by rw [thawedValues_cons_thawed (p := { p with value := x }) hp, h.values_eq]

/-- A frozen parameter is passed over. -/
theorem AssignedUpTo.cons_frozen (hp : p.frozen = true) (h : AssignedUpTo ps xs qs outcome) :
    AssignedUpTo (p :: ps) xs (p :: qs) outcome := by
  cases h with
  | complete filled => exact .complete (filled.cons_frozen hp)
  | refused filled not_frozen not_admitted =>
      exact .refused (filled.cons_frozen hp) not_frozen not_admitted

/-- A thawed parameter takes an entry that its limits admit. -/
theorem AssignedUpTo.cons_admitted (hp : p.frozen = false) (hx : p.Admits x)
    (h : AssignedUpTo ps xs qs outcome) :
    AssignedUpTo (p :: ps) (x :: xs) ({ p with value := x } :: qs) outcome := by
  cases h with
  | complete filled => exact .complete (filled.cons_admitted hp hx)
  | refused filled not_frozen not_admitted =>
      exact .refused (filled.cons_admitted hp hx) not_frozen not_admitted

/-- No entry is refused exactly when the limits admit all of them. -/
theorem AssignedUpTo.eq_ok_iff (h : AssignedUpTo ps xs qs outcome) :
    outcome = .ok () ↔ List.Forall₂ Parameter.Admits (thawed ps) xs := by
  cases h with
  | complete filled => exact iff_of_true rfl filled.admitted
  | @refused front _ rest p taken _ x filled not_frozen not_admitted =>
      refine iff_of_false (by simp) fun hall => not_admitted ?_
      have hsplit : thawed (front ++ p :: rest) = thawed front ++ p :: thawed rest := by
        rw [← thawed_cons_thawed not_frozen]
        exact List.filter_append ..
      rw [hsplit] at hall
      -- The vector is taken up by the parameters in front, and `x` is left for `p`.
      have hfrom := List.forall₂_drop taken.length hall
      rw [List.drop_left' filled.admitted.length_eq, List.drop_left] at hfrom
      cases hfrom with
      | cons hx _ => exact hx

end Steps

/-- A vector of as many entries as there are thawed parameters is assigned up to the first entry
that is refused. -/
theorem assignedUpTo_assignEach (hlength : xs.length = thawedCount ps) :
    AssignedUpTo ps xs (assignEach ps xs).1 (assignEach ps xs).2 := by
  induction ps generalizing xs with
  | nil =>
      obtain rfl := List.length_eq_zero_iff.mp hlength
      exact .complete .nil
  | cons p ps ih =>
      cases hp : p.frozen with
      | true =>
          rw [thawedCount_cons_frozen hp] at hlength
          rw [assignEach_cons_frozen hp]
          exact (ih hlength).cons_frozen hp
      | false =>
          rw [thawedCount_cons_thawed hp] at hlength
          obtain ⟨x, xs, rfl⟩ := List.exists_cons_of_length_eq_add_one hlength
          by_cases hx : p.Admits x
          · rw [assignEach_cons_ok hp (if_pos hx)]
            exact (ih (Nat.succ.inj hlength)).cons_admitted hp hx
          · rw [assignEach_cons_error hp (if_neg hx)]
            exact .refused .nil hp hx

theorem assignedUpTo_assignThawed (hlength : xs.length = thawedCount ps) :
    AssignedUpTo ps xs (assignThawed ps xs).1 (assignThawed ps xs).2 := by
  rw [assignThawed, if_pos hlength]
  exact assignedUpTo_assignEach hlength

theorem assignThawed_of_length_ne (h : xs.length ≠ thawedCount ps) :
    assignThawed ps xs = (ps, .error (.thawedLength (thawedCount ps) xs.length)) :=
  if_neg h

theorem assignThawed_eq_ok_iff :
    (assignThawed ps xs).2 = .ok () ↔ List.Forall₂ Parameter.Admits (thawed ps) xs := by
  by_cases hlength : xs.length = thawedCount ps
  · exact (assignedUpTo_assignThawed hlength).eq_ok_iff
  · rw [assignThawed_of_length_ne hlength]
    exact iff_of_false (by simp) fun h => hlength h.length_eq.symm

/-- Where an assignment succeeds, the vector is there. -/
theorem thawedValues_of_assignThawed (h : (assignThawed ps xs).2 = .ok ()) :
    thawedValues (assignThawed ps xs).1 = xs := by
  have hlength : xs.length = thawedCount ps := (assignThawed_eq_ok_iff.mp h).length_eq.symm
  have hassigned := assignedUpTo_assignThawed hlength
  generalize assignThawed ps xs = result at h hassigned
  obtain ⟨qs, outcome⟩ := result
  cases hassigned with
  | complete filled => exact filled.values_eq
  | refused => cases h

theorem assignThawed_of_admits (h : List.Forall₂ Parameter.Admits (thawed ps) xs) :
    ∃ qs, assignThawed ps xs = (qs, .ok ()) ∧ List.Forall₂ Parameter.Rewritten ps qs ∧
      thawedValues qs = xs := by
  have hok := assignThawed_eq_ok_iff.mpr h
  exact ⟨(assignThawed ps xs).1, Prod.ext rfl hok, rewritten_assignThawed ps xs,
    thawedValues_of_assignThawed hok⟩

end Parameters

end ParameterScan
