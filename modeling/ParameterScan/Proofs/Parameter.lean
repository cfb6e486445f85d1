import Mathlib.Data.List.Dedup
import Mathlib.Tactic.SplitIfs
import ParameterScan.Parameter

/-!
# Values and flags of parameter lists

A list of parameters is what its values, names and limits are, read off with every flag down
(`thaw`), together with its flags. Writing values goes by the first part only and leaves the second
alone; freezing does the opposite. Both facts are used wherever a fit is frozen before or after it
is written to.

Writing back the values that stand changes nothing, also where the parameter refuses them.
-/
namespace ParameterScan

section Flags

variable {α : Type}

/-- The parameters with some of them frozen, by their places. -/
def Parameters.freezeAt (targets : List Nat) (ps : List (Parameter α)) : List (Parameter α) :=
  targets.foldl (fun ps i => ps.modify i Parameter.freeze) ps

theorem eq_of_map_thaw_of_map_frozen {ps qs : List (Parameter α)}
    (hthaw : ps.map Parameter.thaw = qs.map Parameter.thaw)
    (hfrozen : ps.map Parameter.frozen = qs.map Parameter.frozen) : ps = qs := by
  induction ps generalizing qs with
  | nil =>
      cases qs with
      | nil => rfl
      | cons q qs => simp at hthaw
  | cons p ps ih =>
      cases qs with
      | nil => simp at hthaw
      | cons q qs =>
          simp only [List.map_cons, List.cons.injEq] at hthaw hfrozen
          have hpq : p = q := by
            cases p
            cases q
            simp_all [Parameter.thaw]
          rw [hpq, ih hthaw.2 hfrozen.2]

theorem map_thaw_modify_freeze (ps : List (Parameter α)) (i : Nat) :
    (ps.modify i Parameter.freeze).map Parameter.thaw = ps.map Parameter.thaw := by
  induction ps generalizing i with
  | nil => simp
  | cons p ps ih =>
      cases i with
      | zero => rfl
      | succ i => simp [ih]

theorem map_thaw_freezeAt (targets : List Nat) (ps : List (Parameter α)) :
    (Parameters.freezeAt targets ps).map Parameter.thaw = ps.map Parameter.thaw := by
  induction targets generalizing ps with
  | nil => rfl
  | cons i rest ih => exact (ih (ps.modify i Parameter.freeze)).trans (map_thaw_modify_freeze ps i)

theorem Parameters.getElem?_freezeAt (targets : List Nat) (ps : List (Parameter α)) (j : Nat) :
    (freezeAt targets ps)[j]? =
      if j ∈ targets then ps[j]?.map Parameter.freeze else ps[j]? := by
  induction targets generalizing ps with
  | nil => simp [freezeAt]
  | cons i rest ih =>
      refine (ih (ps.modify i Parameter.freeze)).trans ?_
      rw [List.getElem?_modify]
      by_cases hij : i = j
      · subst hij
        cases ps[i]? <;> simp [Parameter.freeze]
      · simp [hij, Ne.symm hij]

theorem Parameters.thawed_freezeAt_subset (targets : List Nat) (ps : List (Parameter α)) :
    thawed (freezeAt targets ps) ⊆ thawed ps := by
  intro p hp
  obtain ⟨hmem, hthawed⟩ := List.mem_filter.mp hp
  obtain ⟨j, hj⟩ := List.mem_iff_getElem?.mp hmem
  rw [getElem?_freezeAt] at hj
  split_ifs at hj
  · obtain ⟨q, -, rfl⟩ := Option.map_eq_some_iff.mp hj
    cases hthawed
  · exact List.mem_filter.mpr ⟨List.mem_of_getElem? hj, hthawed⟩

/-- The flags after freezing are settled by the flags before. -/
theorem map_frozen_freezeAt (targets : List Nat) (ps : List (Parameter α)) :
    (Parameters.freezeAt targets ps).map Parameter.frozen =
      targets.foldl (fun flags i => flags.modify i fun _ => true) (ps.map Parameter.frozen) := by
  induction targets generalizing ps with
  | nil => rfl
  | cons i rest ih =>
      have hstep : (ps.modify i Parameter.freeze).map Parameter.frozen =
          (ps.map Parameter.frozen).modify i fun _ => true := by
        clear ih
        induction ps generalizing i with
        | nil => simp
        | cons p ps ih =>
            cases i with
            | zero => rfl
            | succ i => simp [ih]
      rw [List.foldl_cons, ← hstep]
      exact ih (ps.modify i Parameter.freeze)

section Cons

variable {p : Parameter α}

theorem Parameters.thawed_cons_frozen (hp : p.frozen = true) (ps : List (Parameter α)) :
    thawed (p :: ps) = thawed ps := by
  simp [thawed, hp]

theorem Parameters.thawed_cons_thawed (hp : p.frozen = false) (ps : List (Parameter α)) :
    thawed (p :: ps) = p :: thawed ps := by
  simp [thawed, hp]

theorem Parameters.thawedCount_cons_frozen (hp : p.frozen = true) (ps : List (Parameter α)) :
    thawedCount (p :: ps) = thawedCount ps := by
  rw [thawedCount, thawed_cons_frozen hp, thawedCount]

theorem Parameters.thawedCount_cons_thawed (hp : p.frozen = false) (ps : List (Parameter α)) :
    thawedCount (p :: ps) = thawedCount ps + 1 := by
  rw [thawedCount, thawed_cons_thawed hp, List.length_cons, thawedCount]

theorem Parameters.thawedValues_cons_frozen (hp : p.frozen = true) (ps : List (Parameter α)) :
    thawedValues (p :: ps) = thawedValues ps := by
  rw [thawedValues, thawed_cons_frozen hp, thawedValues]

theorem Parameters.thawedValues_cons_thawed (hp : p.frozen = false) (ps : List (Parameter α)) :
    thawedValues (p :: ps) = p.value :: thawedValues ps := by
  rw [thawedValues, thawed_cons_thawed hp, List.map_cons, thawedValues]

theorem Parameters.substitute_cons_frozen (hp : p.frozen = true) (ps : List (Parameter α))
    (xs : List α) : substitute (p :: ps) xs = p.value :: substitute ps xs := by
  simp only [substitute, hp, if_true]

theorem Parameters.substitute_cons_thawed (hp : p.frozen = false) (ps : List (Parameter α)) (x : α)
    (xs : List α) : substitute (p :: ps) (x :: xs) = x :: substitute ps xs := by
  simp only [substitute, hp, Bool.false_eq_true, if_false]

end Cons

theorem Parameters.substitute_nil (ps : List (Parameter α)) :
    substitute ps [] = ps.map Parameter.value := by
  induction ps with
  | nil => rfl
  | cons p ps ih =>
      rw [List.map_cons, ← ih]
      exact ite_self _

/-- With its own thawed values put in, a list of parameters has the values it has. -/
theorem Parameters.substitute_thawedValues (ps : List (Parameter α)) :
    Parameters.substitute ps (Parameters.thawedValues ps) = ps.map Parameter.value := by
  induction ps with
  | nil => rfl
  | cons p ps ih =>
      cases hp : p.frozen with
      | true =>
          rw [Parameters.thawedValues_cons_frozen hp, Parameters.substitute_cons_frozen hp, ih,
            List.map_cons]
      | false =>
          rw [Parameters.thawedValues_cons_thawed hp, Parameters.substitute_cons_thawed hp, ih,
            List.map_cons]

/-- What does not go by the flag is the same for parameters that differ in their flags only. -/
theorem map_eq_of_thaw {β : Type} {f : Parameter α → β} (hf : ∀ p, f p.thaw = f p)
    {ps qs : List (Parameter α)} (h : qs.map Parameter.thaw = ps.map Parameter.thaw) :
    qs.map f = ps.map f := by
  have hmap : ∀ rs : List (Parameter α), (rs.map Parameter.thaw).map f = rs.map f := by
    intro rs
    rw [List.map_map]
    exact List.map_congr_left fun p _ => hf p
  rw [← hmap qs, h, hmap]

theorem map_value_of_thaw {ps qs : List (Parameter α)}
    (h : qs.map Parameter.thaw = ps.map Parameter.thaw) :
    qs.map Parameter.value = ps.map Parameter.value :=
  map_eq_of_thaw (fun _ => rfl) h

namespace Parameters

/-- The places of the thawed parameters. -/
def thawedIndices (ps : List (Parameter α)) : List Nat :=
  (ps.zipIdx.filter fun (p, _) => !p.frozen).map Prod.snd

theorem length_thawedIndices (ps : List (Parameter α)) :
    (thawedIndices ps).length = thawedCount ps := by
  have hfilter := List.filter_map (f := Prod.fst) (p := fun p : Parameter α => !p.frozen)
    (l := ps.zipIdx)
  rw [List.zipIdx_map_fst] at hfilter
  simp only [thawedIndices, thawedCount, thawed, hfilter, List.length_map]
  rfl

theorem nodup_thawedIndices (ps : List (Parameter α)) : (thawedIndices ps).Nodup := by
  have hsub : (thawedIndices ps).Sublist (ps.zipIdx.map Prod.snd) :=
    List.Sublist.map Prod.snd List.filter_sublist
  rw [List.zipIdx_map_snd] at hsub
  exact hsub.nodup List.nodup_range'

theorem mem_thawedIndices {ps : List (Parameter α)} {j : Nat} :
    j ∈ thawedIndices ps ↔ ∃ p, ps[j]? = some p ∧ p.frozen = false := by
  simp only [thawedIndices, List.mem_map, List.mem_filter, Prod.exists, exists_eq_right,
    List.mk_mem_zipIdx_iff_getElem?, Bool.not_eq_true']

/-- The places of the thawed parameters that are not among the given ones. -/
def otherIndices (targets : List Nat) (ps : List (Parameter α)) : List Nat :=
  (thawedIndices ps).filter fun j => !decide (j ∈ targets)

theorem mem_otherIndices {targets : List Nat} {ps : List (Parameter α)} {j : Nat} :
    j ∈ otherIndices targets ps ↔ j ∈ thawedIndices ps ∧ j ∉ targets := by
  simp [otherIndices]

/-- Thawed targets and the others make up the thawed parameters. A target that is named more than
once counts once. -/
theorem thawedCount_eq_add {targets : List Nat} {ps : List (Parameter α)}
    (h : targets ⊆ thawedIndices ps) :
    thawedCount ps = targets.dedup.length + (otherIndices targets ps).length := by
  have hsame : ((thawedIndices ps).filter fun j => decide (j ∈ targets)).Perm targets.dedup := by
    refine (List.perm_ext_iff_of_nodup ((nodup_thawedIndices ps).filter _)
      (List.nodup_dedup targets)).mpr fun j => ?_
    simp only [List.mem_filter, decide_eq_true_eq, List.mem_dedup]
    exact ⟨fun hj => hj.2, fun hj => ⟨h hj, hj⟩⟩
  have hsplit := List.length_eq_length_filter_add (l := thawedIndices ps)
    fun j => decide (j ∈ targets)
  rw [length_thawedIndices, hsame.length_eq] at hsplit
  exact hsplit

end Parameters

end Flags

variable {α : Type} [Scalar α]

theorem Parameter.eq_of_assign {p q : Parameter α} {x : α} (h : p.assign x = .ok q) :
    q = { p with value := x } := by
  unfold assign at h
  split_ifs at h
  exact (Except.ok.inj h).symm

theorem Parameter.assign_value {p q : Parameter α} (h : p.assign p.value = .ok q) : q = p :=
  eq_of_assign h

theorem Parameter.assign_thaw (p : Parameter α) (x : α) :
    p.thaw.assign x = (p.assign x).map thaw := by
  unfold assign thaw
  split_ifs <;> rfl

theorem Parameter.frozen_of_assign {p q : Parameter α} {x : α} (h : p.assign x = .ok q) :
    q.frozen = p.frozen := by
  rw [eq_of_assign h]

namespace Parameters

section Each

variable {p q : Parameter α} {x : α}

theorem assignEach_nil (ps : List (Parameter α)) : assignEach ps [] = (ps, .ok ()) := by
  cases ps <;> rfl

theorem assignEach_cons_frozen (hp : p.frozen = true) (ps : List (Parameter α)) (xs : List α) :
    assignEach (p :: ps) xs = (p :: (assignEach ps xs).1, (assignEach ps xs).2) := by
  cases xs with
  | nil => rw [assignEach_nil, assignEach_nil]
  | cons x xs => simp only [assignEach, hp, if_true]

theorem assignEach_cons_ok (hp : p.frozen = false) (hx : p.assign x = .ok q)
    (ps : List (Parameter α)) (xs : List α) :
    assignEach (p :: ps) (x :: xs) = (q :: (assignEach ps xs).1, (assignEach ps xs).2) := by
  simp only [assignEach, hp, Bool.false_eq_true, if_false, hx]

theorem assignEach_cons_error (hp : p.frozen = false) {e : FitError α} (hx : p.assign x = .error e)
    (ps : List (Parameter α)) (xs : List α) :
    assignEach (p :: ps) (x :: xs) = (p :: ps, .error e) := by
  simp only [assignEach, hp, Bool.false_eq_true, if_false, hx]

end Each

/-- Assigning the thawed values to the parameters that have them changes nothing, whether or not
they are refused. -/
theorem assignEach_thawedValues (ps : List (Parameter α)) :
    (assignEach ps (thawedValues ps)).1 = ps := by
  induction ps with
  | nil => rfl
  | cons p ps ih =>
      cases hp : p.frozen with
      | true => rw [thawedValues_cons_frozen hp, assignEach_cons_frozen hp, ih]
      | false =>
          rw [thawedValues_cons_thawed hp]
          cases hassign : p.assign p.value with
          | error e => rw [assignEach_cons_error hp hassign]
          | ok q => rw [assignEach_cons_ok hp hassign, ih, Parameter.assign_value hassign]

theorem assignThawed_thawedValues (ps : List (Parameter α)) :
    (assignThawed ps (thawedValues ps)).1 = ps := by
  unfold assignThawed
  split
  · exact assignEach_thawedValues ps
  · rfl

/-- The parameters after some have been assigned by their places, up to the first refused value. -/
def writeAll (ps : List (Parameter α)) :
    List (Nat × α) → List (Parameter α) × Except (FitError α) Unit
  | [] => (ps, .ok ())
  | (i, x) :: rest =>
      match (ps.getD i default).assign x with
      | .ok p => writeAll (ps.modify i fun _ => p) rest
      | .error e => (ps, .error e)

theorem writeAll_cons_ok {ps : List (Parameter α)} {i : Nat} {x : α} {q : Parameter α}
    (h : (ps.getD i default).assign x = .ok q) (rest : List (Nat × α)) :
    writeAll ps ((i, x) :: rest) = writeAll (ps.modify i fun _ => q) rest := by
  rw [writeAll, h]

theorem writeAll_cons_error {ps : List (Parameter α)} {i : Nat} {x : α} {e : FitError α}
    (h : (ps.getD i default).assign x = .error e) (rest : List (Nat × α)) :
    writeAll ps ((i, x) :: rest) = (ps, .error e) := by
  rw [writeAll, h]

theorem getElem?_writeAll {ps : List (Parameter α)} {writes : List (Nat × α)} {j : Nat}
    (h : ∀ w ∈ writes, w.1 ≠ j) : (writeAll ps writes).1[j]? = ps[j]? := by
  induction writes generalizing ps with
  | nil => rfl
  | cons write rest ih =>
      obtain ⟨i, x⟩ := write
      obtain ⟨hi, hrest⟩ := List.forall_mem_cons.mp h
      cases hassign : (ps.getD i default).assign x with
      | error e => rw [writeAll_cons_error hassign]
      | ok p =>
          rw [writeAll_cons_ok hassign]
          refine (ih hrest).trans ?_
          have hij : i ≠ j := hi
          simp [hij]

/-- Writing to targets before they are frozen does not show in what is thawed then. -/
theorem thawed_freezeAt_writeAll {ps : List (Parameter α)} {writes : List (Nat × α)}
    {targets : List Nat} (h : ∀ w ∈ writes, w.1 ∈ targets) :
    thawed (freezeAt targets (writeAll ps writes).1) ⊆ thawed (freezeAt targets ps) := by
  intro p hp
  obtain ⟨hmem, hthawed⟩ := List.mem_filter.mp hp
  obtain ⟨j, hj⟩ := List.mem_iff_getElem?.mp hmem
  rw [getElem?_freezeAt] at hj
  split_ifs at hj with htarget
  · obtain ⟨q, -, rfl⟩ := Option.map_eq_some_iff.mp hj
    cases hthawed
  · have hother : ∀ w ∈ writes, w.1 ≠ j := by
      rintro w hw rfl
      exact htarget (h w hw)
    rw [getElem?_writeAll hother] at hj
    refine List.mem_filter.mpr ⟨List.mem_of_getElem? (i := j) ?_, hthawed⟩
    rw [getElem?_freezeAt, if_neg htarget, hj]

theorem writeAll_map_thaw (ps : List (Parameter α)) (writes : List (Nat × α)) :
    writeAll (ps.map Parameter.thaw) writes =
      ((writeAll ps writes).1.map Parameter.thaw, (writeAll ps writes).2) := by
  induction writes generalizing ps with
  | nil => rfl
  | cons write rest ih =>
      obtain ⟨i, x⟩ := write
      have hget : (ps.map Parameter.thaw).getD i default = (ps.getD i default).thaw := by
        simp only [List.getD_eq_getElem?_getD, List.getElem?_map]
        cases ps[i]? <;> rfl
      simp only [writeAll, hget, Parameter.assign_thaw]
      cases (ps.getD i default).assign x with
      | error e => rfl
      | ok p =>
          have hmodify : (ps.map Parameter.thaw).modify i (fun _ => p.thaw) =
              (ps.modify i fun _ => p).map Parameter.thaw := by
            refine List.ext_getElem? fun j => ?_
            simp only [List.getElem?_modify, List.getElem?_map]
            split_ifs <;> cases ps[j]? <;> rfl
          simp only [Except.map, hmodify]
          exact ih (ps.modify i fun _ => p)

theorem writeAll_map_frozen (ps : List (Parameter α)) (writes : List (Nat × α)) :
    (writeAll ps writes).1.map Parameter.frozen = ps.map Parameter.frozen := by
  induction writes generalizing ps with
  | nil => rfl
  | cons write rest ih =>
      obtain ⟨i, x⟩ := write
      cases hassign : (ps.getD i default).assign x with
      | error e => rw [writeAll_cons_error hassign]
      | ok p =>
          rw [writeAll_cons_ok hassign]
          refine (ih (ps.modify i fun _ => p)).trans (List.ext_getElem? fun j => ?_)
          simp only [List.getElem?_map, List.getElem?_modify]
          split_ifs with hij
          · subst hij
            have hfrozen := Parameter.frozen_of_assign hassign
            cases hj : ps[i]? with
            | none => rfl
            | some q => simpa [List.getD_eq_getElem?_getD, hj] using hfrozen
          · cases ps[j]? <;> rfl

/-- What is written and what is refused does not depend on the flags. -/
theorem writeAll_snd_of_thaw {ps qs : List (Parameter α)}
    (h : qs.map Parameter.thaw = ps.map Parameter.thaw) (writes : List (Nat × α)) :
    (writeAll qs writes).2 = (writeAll ps writes).2 := by
  have hps := congrArg Prod.snd (writeAll_map_thaw ps writes)
  have hqs := congrArg Prod.snd (writeAll_map_thaw qs writes)
  rw [h] at hqs
  exact hqs.symm.trans hps

theorem writeAll_thaw_of_thaw {ps qs : List (Parameter α)}
    (h : qs.map Parameter.thaw = ps.map Parameter.thaw) (writes : List (Nat × α)) :
    (writeAll qs writes).1.map Parameter.thaw = (writeAll ps writes).1.map Parameter.thaw := by
  have hps := congrArg Prod.fst (writeAll_map_thaw ps writes)
  have hqs := congrArg Prod.fst (writeAll_map_thaw qs writes)
  rw [h] at hqs
  exact hqs.symm.trans hps

/-- Writing to parameters that are then frozen is the same as writing to frozen ones. -/
theorem writeAll_freezeAt (targets : List Nat) (ps : List (Parameter α))
    (writes : List (Nat × α)) :
    (writeAll (freezeAt targets ps) writes).1 = freezeAt targets (writeAll ps writes).1 := by
  refine eq_of_map_thaw_of_map_frozen ?_ ?_
  · rw [map_thaw_freezeAt]
    exact writeAll_thaw_of_thaw (map_thaw_freezeAt targets ps) writes
  · rw [writeAll_map_frozen, map_frozen_freezeAt, map_frozen_freezeAt, writeAll_map_frozen]

end Parameters

end ParameterScan
