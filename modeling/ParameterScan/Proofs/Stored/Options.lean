import Mathlib
import ParameterScan.Proofs.Json.Record
import ParameterScan.Scalar.Double
import ParameterScan.Stored.Options

/-!
# Options survive storage

Options with finite numbers and with counts of 64 bits are read again as they were written, field by
field and shape by shape. All options that have been read are of this kind, so reading, writing and
reading again gives what the first reading gave. What an object is read as depends neither on the
order of its fields nor on fields that the options do not have.

The text of a number is not looked into: a format of doubles is faithful when it reads each finite
double again and reads nothing but finite doubles, from numbers alone. Counts are read and written
by their digits.
-/
namespace ParameterScan

open Json (NumberFormat Codes)

/-- Every finite double is read again, and all that is read is a finite double in place of a
number. -/
structure Json.NumberFormat.Faithful (num : NumberFormat Float) : Prop where
  read_write : ∀ {x : Float}, x.isFinite = true → num.read? (num.write x) = some x
  isFinite_of_read : ∀ {j : Json} {x : Float}, num.read? j = some x → x.isFinite = true
  number_of_read : ∀ {j : Json} {x : Float}, num.read? j = some x → ∃ d, j = .number d

namespace Json

variable {num : NumberFormat Float}

theorem NumberFormat.Faithful.codes (h : num.Faithful) :
    Codes num.write num.read? fun x => x.isFinite = true :=
  ⟨h.isFinite_of_read, h.read_write⟩

theorem NumberFormat.Faithful.read_array (h : num.Faithful) (js : List Json) :
    num.read? (.array js) = none := by
  rw [Option.eq_none_iff_forall_not_mem]
  intro x hx
  obtain ⟨d, hd⟩ := h.number_of_read hx
  cases hd

theorem NumberFormat.Faithful.read_null (h : num.Faithful) : num.read? .null = none := by
  rw [Option.eq_none_iff_forall_not_mem]
  intro x hx
  obtain ⟨d, hd⟩ := h.number_of_read hx
  cases hd

/-- Reads and writes like another record of the same fields, whatever their order. -/
structure Survives {ρ : Type} (names : List String) (write : ρ → Json) (read : Json → Option ρ)
    (good : ρ → Prop) : Prop where
  again : ∀ {j : Json} {o : ρ}, read j = some o → read (write o) = some o
  back : ∀ {o : ρ}, good o → read (write o) = some o
  unordered : ∀ {fs gs : Fields}, (known names fs).Perm (known names gs) →
    read (.object fs) = read (.object gs)

end Json

namespace PerAxis

variable {β : Type} {num : NumberFormat β} {good : β → Prop}

def values : PerAxis β → List β
  | single x => [x]
  | each xs => xs

/-- A list is not taken for a single value, and comes back as a list of its length. -/
theorem ofJson?_array (hlist : ∀ js, num.read? (.array js) = none) (js : List Json) :
    ofJson? num (.array js) = (js.mapM num.read?).map each := by
  simp only [ofJson?, hlist, Json.toList?]

theorem codes (h : Codes num.write num.read? good) (hlist : ∀ js, num.read? (.array js) = none) :
    Codes (toJson num) (ofJson? num) fun b => ∀ x ∈ b.values, good x := by
  constructor
  · intro j b hread
    simp only [ofJson?] at hread
    split at hread
    next x hx =>
      cases hread
      exact List.forall_mem_singleton.mpr (h.good_of_read hx)
    next =>
      obtain ⟨xs, hxs, hb⟩ := Option.map_eq_some_iff.mp hread
      cases hb
      exact h.list.good_of_read hxs
  · intro b hb
    cases b with
    | single x =>
        have hx := h.read_write (hb x List.mem_cons_self)
        simp only [toJson, ofJson?, hx]
    | each xs =>
        have hxs : (xs.map num.write).mapM num.read? = some xs :=
          Json.mapM_write fun x hx => h.read_write (hb x hx)
        rw [toJson, Json.ofList, ofJson?_array hlist, hxs, Option.map_some]

end PerAxis

section Fields

variable {β : Type} {write : β → Json} {read : Json → Option β} {good : β → Prop}

theorem Json.good_of_orDefault (h : Codes write read good) {fs : Json.Fields} {name : String}
    {d x : β} (hd : good d) (hx : fs.orDefault name d read = some x) : good x := by
  unfold Json.Fields.orDefault at hx
  split at hx
  · cases hx
    exact hd
  · exact h.good_of_read hx

theorem Json.forall_mem_none : ∀ x ∈ (none : Option β), good x :=
  fun x hx => absurd hx (Option.not_mem_none x)

theorem Json.orDefault_congr {fs gs : Json.Fields} (h : ∀ name, fs.lookup name = gs.lookup name)
    (name : String) (d : β) (read : Json → Option β) :
    fs.orDefault name d read = gs.orDefault name d read := by
  unfold Json.Fields.orDefault
  rw [h name]

end Fields

variable {num : NumberFormat Float}

theorem codes_bound (hnum : num.Faithful) :
    Codes (Json.ofOption (PerAxis.toJson num)) (Json.nullable (PerAxis.ofJson? num))
      fun o => ∀ b ∈ o, ∀ x ∈ b.values, x.isFinite = true := by
  refine (PerAxis.codes hnum.codes hnum.read_array).option ?_
  simp only [PerAxis.ofJson?, hnum.read_null, Json.toList?, Option.map_none]

theorem codes_counts :
    Codes (PerAxis.toJson .count) (PerAxis.ofJson? .count)
      fun b => ∀ k ∈ b.values, k < Json.wordBound :=
  PerAxis.codes Json.codes_count fun _ => rfl

theorem codes_workers :
    Codes (Json.ofOption Json.nat) (Json.nullable Json.toCount?)
      fun o => ∀ k ∈ o, k < Json.wordBound :=
  Json.codes_count.option rfl

namespace IntervalOptions

/-- Finite numbers, and counts of 64 bits. -/
structure Storable (o : IntervalOptions Float) : Prop where
  lower : ∀ b ∈ o.lower, ∀ x ∈ b.values, x.isFinite = true
  upper : ∀ b ∈ o.upper, ∀ x ∈ b.values, x.isFinite = true
  count : ∀ k ∈ o.count.values, k < Json.wordBound
  spacing : ∀ x ∈ o.spacing, x.isFinite = true
  factor : o.factor.isFinite = true
  workers : ∀ k ∈ o.workers, k < Json.wordBound

theorem codes (hnum : num.Faithful) : Codes (toJson num) (ofJson? num) Storable := by
  constructor
  · intro j o h
    simp only [ofJson?, Option.bind_eq_bind, Option.bind_eq_some_iff] at h
    obtain ⟨fs, -, lower, hlower, upper, hupper, count, hcount, spacing, hspacing, factor, hfactor,
      log, -, workers, hworkers, fast, -, ho⟩ := h
    cases ho
    refine ⟨?_, ?_, ?_, ?_, ?_, ?_⟩
    · exact Json.good_of_orDefault (codes_bound hnum) Json.forall_mem_none hlower
    · exact Json.good_of_orDefault (codes_bound hnum) Json.forall_mem_none hupper
    · exact Json.good_of_orDefault codes_counts (by decide) hcount
    · exact Json.good_of_orDefault (hnum.codes.option hnum.read_null) Json.forall_mem_none
        hspacing
    · exact Json.good_of_orDefault hnum.codes (by decide +kernel) hfactor
    · exact Json.good_of_orDefault codes_workers Json.forall_mem_none hworkers
  · intro o ho
    simp [ofJson?, toJson, Json.fields?, fieldNames, Json.Fields.orDefault, List.lookup_cons,
      (codes_bound hnum).read_write ho.lower, (codes_bound hnum).read_write ho.upper,
      (hnum.codes.option hnum.read_null).read_write ho.spacing, hnum.read_write ho.factor,
      codes_counts.read_write ho.count, codes_workers.read_write ho.workers, Json.toBool?]

/-- Only the names and what stands under them are read. -/
theorem ofJson?_of_perm {fs gs : Json.Fields}
    (h : (Json.known fieldNames fs).Perm (Json.known fieldNames gs)) :
    ofJson? num (.object fs) = ofJson? num (.object gs) := by
  refine Json.fields?_bind_of_perm (fun hlookup => ?_) h
  simp only [Json.orDefault_congr hlookup]

end IntervalOptions

namespace RegionOptions

/-- Finite numbers, and counts of 64 bits. -/
structure Storable (o : RegionOptions Float) : Prop where
  lower : ∀ b ∈ o.lower, ∀ x ∈ b.values, x.isFinite = true
  upper : ∀ b ∈ o.upper, ∀ x ∈ b.values, x.isFinite = true
  count : ∀ k ∈ o.count.values, k < Json.wordBound
  spacing : ∀ v ∈ o.spacing, ∀ x ∈ v.toList, x.isFinite = true
  factor : o.factor.isFinite = true
  sigma : ∀ b ∈ o.sigma, ∀ x ∈ b.values, x.isFinite = true
  levels : ∀ xs ∈ o.levels, ∀ x ∈ xs, x.isFinite = true
  workers : ∀ k ∈ o.workers, k < Json.wordBound

theorem codes_spacing (hnum : num.Faithful) :
    Codes (Json.ofOption (Json.ofVector num.write)) (Json.nullable (Json.toVector? 2 num.read?))
      fun o => ∀ v ∈ o, ∀ x ∈ v.toList, x.isFinite = true :=
  (hnum.codes.vector 2).option rfl

theorem codes_levels (hnum : num.Faithful) :
    Codes (Json.ofOption (Json.ofList num.write)) (Json.nullable (Json.toList? num.read?))
      fun o => ∀ xs ∈ o, ∀ x ∈ xs, x.isFinite = true :=
  hnum.codes.list.option rfl

/-- The numbers of the options are those of the fields, or the defaults. -/
structure ReadFrom (num : NumberFormat Float) (fs : Json.Fields) (o : RegionOptions Float) :
    Prop where
  lower : fs.orDefault "min" none (Json.nullable (PerAxis.ofJson? num)) = some o.lower
  upper : fs.orDefault "max" none (Json.nullable (PerAxis.ofJson? num)) = some o.upper
  count : fs.orDefault "nloop" (.each [10, 10]) (PerAxis.ofJson? .count) = some o.count
  spacing : fs.orDefault "delv" none (Json.nullable (Json.toVector? 2 num.read?)) = some o.spacing
  factor : fs.orDefault "fac" 4 num.read? = some o.factor
  sigma : fs.orDefault "sigma" (some (.each [1, 2, 3])) (Json.nullable (PerAxis.ofJson? num)) =
    some o.sigma
  levels : fs.orDefault "levels" none (Json.nullable (Json.toList? num.read?)) = some o.levels
  workers : fs.orDefault "numcores" none (Json.nullable Json.toCount?) = some o.workers

theorem readFrom_of_ofJson? {j : Json} {o : RegionOptions Float} (h : ofJson? num j = some o) :
    ∃ fs, Json.fields? fieldNames false j = some fs ∧ ReadFrom num fs o := by
  simp only [ofJson?, Option.bind_eq_bind, Option.bind_eq_some_iff] at h
  obtain ⟨fs, hfs, lower, hlower, upper, hupper, count, hcount, spacing, hspacing, factor, hfactor,
    log, -, sigma, hsigma, levels, hlevels, workers, hworkers, fast, -, ho⟩ := h
  cases ho
  exact ⟨fs, hfs, hlower, hupper, hcount, hspacing, hfactor, hsigma, hlevels, hworkers⟩

theorem codes (hnum : num.Faithful) : Codes (toJson num) (ofJson? num) Storable := by
  constructor
  · intro j o h
    obtain ⟨fs, -, hread⟩ := readFrom_of_ofJson? h
    refine ⟨?_, ?_, ?_, ?_, ?_, ?_, ?_, ?_⟩
    · exact Json.good_of_orDefault (codes_bound hnum) Json.forall_mem_none hread.lower
    · exact Json.good_of_orDefault (codes_bound hnum) Json.forall_mem_none hread.upper
    · exact Json.good_of_orDefault codes_counts (by decide) hread.count
    · exact Json.good_of_orDefault (codes_spacing hnum) Json.forall_mem_none hread.spacing
    · exact Json.good_of_orDefault hnum.codes (by decide +kernel) hread.factor
    · refine Json.good_of_orDefault (codes_bound hnum) (fun b hb => ?_) hread.sigma
      cases hb
      decide +kernel
    · exact Json.good_of_orDefault (codes_levels hnum) Json.forall_mem_none hread.levels
    · exact Json.good_of_orDefault codes_workers Json.forall_mem_none hread.workers
  · intro o ho
    have hlog := (Json.codes_bool.vector 2).read_write (x := o.log) fun _ _ => trivial
    simp [ofJson?, toJson, Json.fields?, fieldNames, Json.Fields.orDefault, List.lookup_cons,
      (codes_bound hnum).read_write ho.lower, (codes_bound hnum).read_write ho.upper,
      (codes_bound hnum).read_write ho.sigma, (codes_spacing hnum).read_write ho.spacing,
      (codes_levels hnum).read_write ho.levels, hnum.read_write ho.factor,
      codes_counts.read_write ho.count, codes_workers.read_write ho.workers, hlog, Json.toBool?]

theorem ofJson?_of_perm {fs gs : Json.Fields}
    (h : (Json.known fieldNames fs).Perm (Json.known fieldNames gs)) :
    ofJson? num (.object fs) = ofJson? num (.object gs) := by
  refine Json.fields?_bind_of_perm (fun hlookup => ?_) h
  simp only [Json.orDefault_congr hlookup]

/-- Null is not an absent field: it takes the place of the default. -/
theorem sigma_of_null {fs : Json.Fields} {o : RegionOptions Float}
    (h : ofJson? num (.object fs) = some o) (hnull : ("sigma", .null) ∈ fs) : o.sigma = none := by
  obtain ⟨gs, hfields, hread⟩ := readFrom_of_ofJson? h
  have hlookup : gs.lookup "sigma" = some .null :=
    Json.lookup_of_fields? hfields hnull (by decide)
  have hsigma := hread.sigma
  simp only [Json.Fields.orDefault, hlookup, Json.nullable] at hsigma
  exact (Option.some.inj hsigma).symm

end RegionOptions

/-- Options of both kinds survive storage. A list stays a list of its length, and multiples that are
given as null stay missing. -/
theorem options_survive_storage (hnum : num.Faithful) :
    Json.Survives IntervalOptions.fieldNames (IntervalOptions.toJson num)
        (IntervalOptions.ofJson? num) IntervalOptions.Storable ∧
      Json.Survives RegionOptions.fieldNames (RegionOptions.toJson num)
        (RegionOptions.ofJson? num) RegionOptions.Storable ∧
      (∀ js b, PerAxis.ofJson? num (.array js) = some b →
        ∃ xs, b = .each xs ∧ xs.length = js.length) ∧
      ∀ fs o, RegionOptions.ofJson? num (.object fs) = some o → ("sigma", .null) ∈ fs →
        o.sigma = none := by
  have hinterval := IntervalOptions.codes hnum
  have hregion := RegionOptions.codes hnum
  refine ⟨⟨?_, hinterval.read_write, IntervalOptions.ofJson?_of_perm⟩,
    ⟨?_, hregion.read_write, RegionOptions.ofJson?_of_perm⟩, ?_, ?_⟩
  · exact fun h => hinterval.read_write (hinterval.good_of_read h)
  · exact fun h => hregion.read_write (hregion.good_of_read h)
  · intro js b hb
    rw [PerAxis.ofJson?_array hnum.read_array] at hb
    obtain ⟨xs, hxs, rfl⟩ := Option.map_eq_some_iff.mp hb
    exact ⟨xs, rfl, Json.length_of_mapM hxs⟩
  · exact fun fs o => RegionOptions.sigma_of_null

/-- The bits of a double, in digits that no text has: with a point that nothing follows. -/
def Json.Numeral.ofBits (x : Float) : Json.Numeral :=
  { Json.Numeral.ofNat x.toBits.toNat with fraction := some [] }

/-- A finite double from its digits, or from its bits. -/
def Json.readMended? : Json → Option Float
  | .number n =>
      let x :=
        if n.fraction = some [] then
          ({ n with fraction := none } : Json.Numeral).toCount?.map fun bits =>
            .ofBits (.ofNat bits)
        else n.toDouble?
      x.filter Float.isFinite
  | _ => none

/-- Doubles as they are written and read in their shortest digits, but for those that do not come
back in that way: these are written by their bits. -/
def Json.NumberFormat.mended : NumberFormat Float where
  write x :=
    let shortest := NumberFormat.double.write x
    if readMended? shortest = some x then shortest else .number (.ofBits x)
  read? := readMended?

theorem Json.readMended?_ofBits {x : Float} (h : x.isFinite = true) :
    readMended? (.number (.ofBits x)) = some x := by
  have hcount : ({ Numeral.ofBits x with fraction := none } : Numeral).toCount? =
      some x.toBits.toNat := toCount?_ofNat x.toBits.toNat_lt
  have hfraction : (Numeral.ofBits x).fraction = some [] := rfl
  simp only [readMended?, hfraction, if_true, hcount, Option.map_some, UInt64.ofNat_toNat,
    Float.ofBits_toBits, Option.filter_some, h]

theorem Json.NumberFormat.faithful_mended : NumberFormat.mended.Faithful := by
  refine ⟨?_, ?_, ?_⟩
  · intro x hx
    simp only [mended]
    split_ifs with hshortest
    · exact hshortest
    · exact readMended?_ofBits hx
  · intro j x hx
    cases j with
    | number n => exact (Option.filter_eq_some_iff.mp hx).2
    | _ => cases hx
  · intro j x hx
    cases j with
    | number n => exact ⟨n, rfl⟩
    | _ => cases hx

/-- A list of one lower bound, multiples given as null, and a field that no options have. -/
def oneSided : Json.Fields :=
  [("sigma", .null), ("note", .bool true), ("nloop", .array [.nat 7, .nat 5]),
    ("min", .array [.number ⟨false, ['0'], some ['5'], none⟩])]

/-- They survive storage, and are the same in the opposite order and without the note. -/
theorem oneSided_survives :
    Json.NumberFormat.mended.Faithful ∧
      ∃ o, RegionOptions.ofJson? .mended (.object oneSided) = some o ∧
        RegionOptions.ofJson? .mended (o.toJson .mended) = some o ∧
        RegionOptions.ofJson? .mended (.object (oneSided.eraseIdx 1).reverse) = some o ∧
        o.lower = some (.each [0.5]) ∧ o.count = .each [7, 5] ∧ o.sigma = none := by
  obtain ⟨-, hregion, -, hsigma⟩ := options_survive_storage Json.NumberFormat.faithful_mended
  have hread : RegionOptions.ofJson? .mended (.object oneSided) =
      some { (default : RegionOptions Float) with
        lower := some (.each [0.5]), count := .each [7, 5], sigma := none } := by
    decide +kernel
  have hknown : (Json.known RegionOptions.fieldNames (oneSided.eraseIdx 1).reverse).Perm
      (Json.known RegionOptions.fieldNames oneSided) :=
    List.reverse_perm (oneSided.eraseIdx 1)
  exact ⟨Json.NumberFormat.faithful_mended, _, hread, hregion.again hread,
    (hregion.unordered hknown).trans hread, rfl, rfl,
    hsigma _ _ hread List.mem_cons_self⟩

end ParameterScan
