import Mathlib.Data.List.Perm.Basic
import ParameterScan.Json.NumberFormat

/-!
# Writing and reading again

A writer and a reader code the good values of a type when all that is read is good and all that is
good is read again from its written form. The pairs for lists, for vectors and for values that may
be missing code what their parts code. The one thing in the way is a value that is taken for
another: a missing value is written as null, so no value that is there may be read from null.

An object is read through its known fields alone. A known name that stands once is found wherever it
stands, so the same fields in another order, or with other unknown ones among them, read alike.
-/
namespace ParameterScan.Json

section Codes

variable {β : Type} {write : β → Json} {read : Json → Option β} {good : β → Prop}

/-- What is read is good, and what is good is read again. -/
structure Codes (write : β → Json) (read : Json → Option β) (good : β → Prop) : Prop where
  good_of_read : ∀ {j : Json} {x : β}, read j = some x → good x
  read_write : ∀ {x : β}, good x → read (write x) = some x

theorem codes_bool : Codes .bool toBool? fun _ => True :=
  ⟨fun _ => trivial, fun _ => rfl⟩

theorem appendDigits_lt {significand value : Nat} {ds : List Char}
    (hstart : significand < wordBound) (h : appendDigits significand ds = (value, 0)) :
    value < wordBound := by
  induction ds generalizing significand with
  | nil =>
      cases h
      exact hstart
  | cons c cs ih =>
      simp only [appendDigits] at h
      split at h
      next hnext => exact ih hnext h
      next => cases congrArg Prod.snd h

/-- No digit is left over as long as the whole number fits. -/
theorem appendDigits_eq {significand : Nat} {ds : List Char}
    (h : Nat.ofDigitChars 10 ds significand < wordBound) :
    appendDigits significand ds = (Nat.ofDigitChars 10 ds significand, 0) := by
  induction ds generalizing significand with
  | nil => rfl
  | cons c cs ih =>
      have hcons : Nat.ofDigitChars 10 (c :: cs) significand =
          Nat.ofDigitChars 10 cs (significand * 10 + digitValue c) := by
        rw [Nat.ofDigitChars_cons, Nat.mul_comm]
        rfl
      have hle : significand * 10 + digitValue c ≤
          Nat.ofDigitChars 10 cs (significand * 10 + digitValue c) := by
        rw [Nat.ofDigitChars_eq_ofDigitChars_zero]
        exact Nat.le_add_right_of_le (Nat.le_mul_of_pos_left _ (Nat.pow_pos (by decide)))
      rw [hcons] at h ⊢
      rw [appendDigits]
      simp only [if_pos (Nat.lt_of_le_of_lt hle h)]
      exact ih h

theorem toCount?_ofNat {n : Nat} (h : n < wordBound) : (Numeral.ofNat n).toCount? = some n := by
  have hdigits : Nat.ofDigitChars 10 (toString n).toList 0 = n := by
    rw [Nat.toString_eq_repr, Nat.toList_repr, Nat.ofDigitChars_ten_toDigits]
  have happend := appendDigits_eq (hdigits.symm ▸ h)
  rw [hdigits] at happend
  simp only [Numeral.toCount?, Numeral.ofNat, happend]

theorem codes_count : Codes nat toCount? (· < wordBound) := by
  refine ⟨fun {j n} h => ?_, toCount?_ofNat⟩
  cases j with
  | number d =>
      simp only [toCount?, Numeral.toCount?] at h
      split at h
      next value _ _ _ hvalue =>
        cases h
        exact appendDigits_lt (by decide) hvalue
      next => cases h
  | _ => cases h

theorem good_of_mapM (hgood : ∀ {j : Json} {x : β}, read j = some x → good x) {js : List Json}
    {xs : List β} (h : js.mapM read = some xs) : ∀ x ∈ xs, good x := by
  induction js generalizing xs with
  | nil =>
      cases h
      exact fun x hx => nomatch hx
  | cons j js ih =>
      rw [List.mapM_cons, Option.bind_eq_bind, Option.bind_eq_some_iff] at h
      obtain ⟨x, hx, h⟩ := h
      obtain ⟨rest, hrest, h⟩ := Option.bind_eq_some_iff.mp h
      cases h
      exact List.forall_mem_cons.mpr ⟨hgood hx, ih hrest⟩

theorem length_of_mapM {js : List Json} {xs : List β} (h : js.mapM read = some xs) :
    xs.length = js.length := by
  induction js generalizing xs with
  | nil =>
      cases h
      rfl
  | cons j js ih =>
      rw [List.mapM_cons, Option.bind_eq_bind, Option.bind_eq_some_iff] at h
      obtain ⟨x, -, h⟩ := h
      obtain ⟨rest, hrest, h⟩ := Option.bind_eq_some_iff.mp h
      cases h
      exact congrArg Nat.succ (ih hrest)

theorem mapM_write {xs : List β} (h : ∀ x ∈ xs, read (write x) = some x) :
    (xs.map write).mapM read = some xs := by
  induction xs with
  | nil => rfl
  | cons x xs ih =>
      obtain ⟨hx, hxs⟩ := List.forall_mem_cons.mp h
      rw [List.map_cons, List.mapM_cons, hx, ih hxs]
      rfl

theorem Codes.list (h : Codes write read good) :
    Codes (ofList write) (toList? read) fun xs => ∀ x ∈ xs, good x := by
  refine ⟨fun {j xs} hread => ?_, fun hxs => mapM_write fun x hx => h.read_write (hxs x hx)⟩
  cases j with
  | array js => exact good_of_mapM h.good_of_read hread
  | _ => cases hread

theorem Codes.vector (h : Codes write read good) (n : Nat) :
    Codes (ofVector write) (toVector? n read) fun v => ∀ x ∈ v.toList, good x := by
  constructor
  · intro j v hread
    obtain ⟨xs, hxs, hv⟩ := Option.bind_eq_some_iff.mp hread
    split at hv
    · cases hv
      exact h.list.good_of_read hxs
    · cases hv
  · intro v hv
    have hlist : toList? read (ofVector write v) = some v.toList := h.list.read_write hv
    simp [toVector?, hlist, Vector.toList]

/-- A value that may be missing, where null is not taken for one that is there. -/
theorem Codes.option (h : Codes write read good) (hnull : read .null = none) :
    Codes (ofOption write) (nullable read) fun o => ∀ x ∈ o, good x := by
  have hthere : ∀ {j : Json} {x : β}, read j = some x → nullable read j = some (some x) := by
    intro j x hread
    cases j with
    | null =>
        rw [hnull] at hread
        cases hread
    | _ => simp only [nullable, hread, Option.map_some]
  constructor
  · intro j o hread x hx
    cases hx
    cases j with
    | null => cases hread
    | _ =>
        obtain ⟨y, hy, hxy⟩ := Option.map_eq_some_iff.mp hread
        cases hxy
        exact h.good_of_read hy
  · intro o ho
    cases o with
    | none => rfl
    | some x => exact hthere (h.read_write (ho x rfl))

end Codes

section Order

/-- The fields with a name of the record, in the order in which they stand. -/
def known (names : List String) (fs : Fields) : Fields := fs.filter fun f => names.contains f.1

theorem lookup_eq_of_perm {fs gs : Fields} (h : fs.Perm gs) (hnodup : (fs.map Prod.fst).Nodup)
    (name : String) : fs.lookup name = gs.lookup name := by
  induction h with
  | nil => rfl
  | cons f _ ih =>
      rw [List.lookup_cons, List.lookup_cons, ih (List.nodup_cons.mp hnodup).2]
  | swap f g fs =>
      obtain ⟨f, i⟩ := f
      obtain ⟨g, j⟩ := g
      -- Both names cannot be the one that is looked up.
      have hne : g ≠ f := by
        intro heq
        exact (List.nodup_cons.mp hnodup).1 (heq ▸ List.mem_cons_self)
      simp only [List.lookup_cons]
      cases hf : name == f with
      | false => rfl
      | true =>
          have hg : (name == g) = false := by
            rw [beq_eq_false_iff_ne, eq_of_beq hf]
            exact hne.symm
          rw [hg]
  | trans h₁ _ ih₁ ih₂ =>
      rw [ih₁ hnodup, ih₂ ((h₁.map Prod.fst).nodup_iff.mp hnodup)]

/-- A field of the record stands in what is read under its name. -/
theorem lookup_of_fields? {names : List String} {complete : Bool} {fs gs : Fields} {name : String}
    {j : Json} (h : fields? names complete (.object fs) = some gs) (hmem : (name, j) ∈ fs)
    (hname : names.contains name = true) : gs.lookup name = some j := by
  simp only [fields?] at h
  split at h
  next hnodup =>
    cases h
    have hkept : (name, j) ∈ fs.filter fun f => names.contains f.1 :=
      List.mem_filter.mpr ⟨hmem, hname⟩
    obtain ⟨before, after, hsplit⟩ := List.append_of_mem hkept
    have hperm : ((name, j) :: (before ++ after)).Perm
        (fs.filter fun f => names.contains f.1) := by
      rw [hsplit]
      exact List.perm_middle.symm
    rw [← lookup_eq_of_perm hperm ((hperm.map Prod.fst).nodup_iff.mpr hnodup),
      List.lookup_cons_self]
  next => cases h

/-- Whatever is asked of the fields by their names alone has one answer for all orders. -/
theorem fields?_bind_of_perm {ρ : Type} {names : List String} {complete : Bool}
    {ask : Fields → Option ρ}
    (hask : ∀ {fs gs : Fields}, (∀ name, fs.lookup name = gs.lookup name) → ask fs = ask gs)
    {fs gs : Fields} (h : (known names fs).Perm (known names gs)) :
    (fields? names complete (.object fs)).bind ask =
      (fields? names complete (.object gs)).bind ask := by
  have hnodup := (h.map Prod.fst).nodup_iff
  unfold known at h hnodup
  simp only [fields?]
  by_cases hfs : ((fs.filter fun f => names.contains f.1).map Prod.fst).Nodup
  · rw [if_pos hfs, if_pos (hnodup.mp hfs)]
    exact hask (lookup_eq_of_perm h hfs)
  · rw [if_neg hfs, if_neg fun hgs => hfs (hnodup.mpr hgs)]

end Order

end ParameterScan.Json
