import Mathlib.Algebra.BigOperators.Fin
import Mathlib.Data.List.Forall2
import Mathlib.Data.List.OfFn
import Mathlib.Tactic.Ring
import ParameterScan.Proofs.Grid
import ParameterScan.Scalar.Double

/-!
# A mesh enumerates the product of its axes

The number of a point, taken apart from the first axis on, gives its positions: each axis keeps the
remainder by its size and passes on the quotient. Put together again from the last axis back, the
positions give the number. Both walks are recursions over the sizes of the axes, which may be any
numbers; each is the inverse of the other on positions that are there. So the mesh has every
combination of positions at exactly one number, with the first axis running fastest.

The positions of `Grid.position`, a quotient by a stride and a remainder, are those of the walk. The
size of a grid is a 64-bit word. Its points are the first ones of the mesh, and all of them where the
product of the sizes is below `2 ^ 64`; from there on combinations are lost.
-/
namespace ParameterScan

namespace Mesh

/-- The positions of a number on axes of the given sizes, with what is left of the number passed
from axis to axis. -/
def digits : List Nat → Nat → List Nat
  | [], _ => []
  | n :: sizes, k => k % n :: digits sizes (k / n)

/-- The number `i₀ + n₀ * (i₁ + n₁ * (i₂ + …))` of positions on axes of the given sizes. -/
def numeral : List Nat → List Nat → Nat
  | n :: sizes, i :: is => i + n * numeral sizes is
  | _, _ => 0

/-- The numbers of a mesh with the first of two axes running fastest. -/
theorem mesh_lt {n0 n1 i j : Nat} (hi : i < n0) (hj : j < n1) : i + n0 * j < n0 * n1 := by
  calc i + n0 * j < n0 + n0 * j := Nat.add_lt_add_right hi _
    _ = n0 * (j + 1) := by ring
    _ ≤ n0 * n1 := Nat.mul_le_mul_left _ hj

variable {sizes is : List Nat} {k : Nat}

theorem numeral_lt (h : List.Forall₂ (· < ·) is sizes) : numeral sizes is < sizes.prod := by
  induction h with
  | nil => exact Nat.zero_lt_one
  | cons hi _ ih => exact (mesh_lt hi ih).trans_eq (List.prod_cons).symm

theorem numeral_digits (hk : k < sizes.prod) : numeral sizes (digits sizes k) = k := by
  induction sizes generalizing k with
  | nil => exact (Nat.lt_one_iff.mp hk).symm
  | cons n sizes ih =>
      rw [List.prod_cons] at hk
      rw [digits, numeral, ih (Nat.div_lt_of_lt_mul hk), Nat.mod_add_div]

theorem digits_numeral (h : List.Forall₂ (· < ·) is sizes) :
    digits sizes (numeral sizes is) = is := by
  induction h with
  | nil => rfl
  | @cons i n is sizes hi _ ih =>
      have hpos : 0 < n := Nat.zero_lt_of_lt hi
      rw [numeral, digits, Nat.add_mul_mod_self_left, Nat.mod_eq_of_lt hi,
        Nat.add_mul_div_left _ _ hpos, Nat.div_eq_of_lt hi, Nat.zero_add, ih]

/-- One digit is a quotient by the sizes before it and a remainder. -/
theorem getElem?_digits (sizes : List Nat) (k a : Nat) :
    (digits sizes k)[a]? = sizes[a]?.map fun n => k / (sizes.take a).prod % n := by
  induction sizes generalizing k a with
  | nil => rfl
  | cons n sizes ih =>
      cases a with
      | zero => simp [digits]
      | succ a => simp [digits, ih, Nat.div_div_eq_div_mul]

end Mesh

namespace Grid

open Mesh

variable {α : Type} {n : Nat}

/-- The sizes of the axes in their order. -/
def sizes (g : Grid α n) : List Nat := List.ofFn fun a => (g.axes.get a).size

theorem map_size_axes (g : Grid α n) : g.axes.toList.map Axis.size = g.sizes := by
  refine List.ext_getElem (by simp [sizes]) fun i hi hi' => ?_
  simp [sizes, Vector.get]

theorem volume_eq_prod (axes : List (Axis α)) : volume axes = (axes.map Axis.size).prod :=
  (List.foldr_map ..).symm

theorem meshSize_eq_prod (g : Grid α n) : g.meshSize = g.sizes.prod := by
  rw [meshSize, volume_eq_prod, map_size_axes]

theorem meshSize_eq_finset_prod (g : Grid α n) : g.meshSize = ∏ a, (g.axes.get a).size := by
  rw [meshSize_eq_prod, sizes, List.prod_ofFn]

theorem stride_eq_prod (g : Grid α n) (a : Fin n) : g.stride a = (g.sizes.take a).prod := by
  rw [stride, volume_eq_prod, List.map_take, map_size_axes]

theorem ofFn_position (g : Grid α n) (k : Nat) : List.ofFn (g.position k) = digits g.sizes k := by
  refine List.ext_getElem? fun i => ?_
  rw [getElem?_digits, sizes, List.getElem?_ofFn, List.getElem?_ofFn]
  split_ifs with hi
  · rw [Option.map_some, position, stride_eq_prod]
    rfl
  · rfl

/-- The positions of a point, each within its axis. -/
def place (g : Grid α n) (k : Fin g.size) (a : Fin n) : Fin (g.axes.get a).size :=
  ⟨g.position k a, g.position_lt (k.isLt.trans_le g.size_le_meshSize) a⟩

theorem forall₂_lt_sizes (g : Grid α n) (p : (a : Fin n) → Fin (g.axes.get a).size) :
    List.Forall₂ (· < ·) (List.ofFn fun a => (p a).val) g.sizes := by
  rw [List.forall₂_iff_get]
  refine ⟨by simp [sizes], fun i _ _ => ?_⟩
  simp [sizes]

theorem numeral_lt_meshSize (g : Grid α n) (p : (a : Fin n) → Fin (g.axes.get a).size) :
    numeral g.sizes (List.ofFn fun a => (p a).val) < g.meshSize := by
  rw [meshSize_eq_prod]
  exact numeral_lt (g.forall₂_lt_sizes p)

/-- The positions of a point and its number determine each other. -/
theorem place_eq_iff (g : Grid α n) (k : Fin g.size)
    (p : (a : Fin n) → Fin (g.axes.get a).size) :
    g.place k = p ↔ numeral g.sizes (List.ofFn fun a => (p a).val) = k := by
  have hk : k.val < g.sizes.prod :=
    (k.isLt.trans_le g.size_le_meshSize).trans_eq g.meshSize_eq_prod
  constructor
  · rintro rfl
    rw [← numeral_digits hk, ← ofFn_position]
    rfl
  · intro h
    have hdigits : List.ofFn (g.position k) = List.ofFn fun a => (p a).val := by
      rw [ofFn_position, ← h, digits_numeral (g.forall₂_lt_sizes p)]
    funext a
    exact Fin.ext (congrFun (List.ofFn_injective hdigits) a)

theorem place_injective (g : Grid α n) : Function.Injective g.place := by
  intro k k' h
  have hk := (g.place_eq_iff k (g.place k')).mp h
  have hk' := (g.place_eq_iff k' (g.place k')).mp rfl
  exact Fin.ext (hk.symm.trans hk')

theorem place_surjective (g : Grid α n) (hfits : g.meshSize < wordRange) :
    Function.Surjective g.place := by
  intro p
  have hlt := (g.numeral_lt_meshSize p).trans_eq (g.size_eq_meshSize hfits).symm
  exact ⟨⟨_, hlt⟩, (g.place_eq_iff _ p).mpr rfl⟩

/-- A grid never has a combination of positions twice. It has all of them, as many as the product of
the sizes of its axes says, where that product is below `2 ^ 64`. The positions of a point are read
off its number from the first axis on, each within an axis that is not empty, and the number comes
back as `i₀ + n₀ * (i₁ + n₁ * (i₂ + …))`. The columns list the parameter values of the points in the
order of their numbers. -/
theorem enumerates_product [Scalar α] (g : Grid α n) :
    (∏ a, (g.axes.get a).size < 2 ^ 64 →
      g.size = ∏ a, (g.axes.get a).size ∧ Function.Bijective g.place ∧
        ∀ p : (a : Fin n) → Fin (g.axes.get a).size,
          numeral g.sizes (List.ofFn fun a => (p a).val) < g.size) ∧
      Function.Injective g.place ∧
      (∀ k p, g.place k = p ↔ numeral g.sizes (List.ofFn fun a => (p a).val) = k) ∧
      (∀ k < g.size, ∀ a, 0 < (g.axes.get a).size ∧
        (g.axes.get a).values[g.position k a]? = some ((g.point k).get a)) ∧
      (∀ k, List.ofFn (g.position k) = digits g.sizes k) ∧
      g.points.length = g.size ∧
      (∀ k < g.size, g.points[k]? = some (g.point k)) ∧
      ∀ a, (g.linearColumn a).length = g.size ∧
        ∀ k < g.size, (g.linearColumn a)[k]? = some ((g.toLinear (g.point k)).get a) := by
  refine ⟨fun hfits => ?_, g.place_injective, g.place_eq_iff, fun k hk a => ?_, g.ofFn_position,
    by simp [points], fun k hk => by simp [points, hk],
    fun a => ⟨g.length_linearColumn a, fun k hk => g.linearColumn_getElem? a hk⟩⟩
  · rw [← meshSize_eq_finset_prod] at hfits ⊢
    have hsize := g.size_eq_meshSize hfits
    exact ⟨hsize, ⟨g.place_injective, g.place_surjective hfits⟩,
      fun p => (g.numeral_lt_meshSize p).trans_eq hsize.symm⟩
  · have hk' : k < g.meshSize := hk.trans_le g.size_le_meshSize
    rw [get_point, g.values_getElem?_position hk' a]
    exact ⟨Nat.zero_lt_of_lt (g.position_lt hk' a), rfl⟩

/-- Two, three and four coordinates on three axes. -/
def unequal : Grid Float 3 :=
  ⟨#v[⟨0, 1, false, #[0, 1]⟩, ⟨0, 2, false, #[0, 1, 2]⟩, ⟨0, 3, false, #[0, 1, 2, 3]⟩]⟩

theorem unequal_enumerates :
    ∏ a, (unequal.axes.get a).size < 2 ^ 64 ∧ unequal.size = 24 ∧
      Function.Bijective unequal.place := by
  have hproduct : ∏ a, (unequal.axes.get a).size = 24 := rfl
  have hfits : ∏ a, (unequal.axes.get a).size < 2 ^ 64 := by rw [hproduct]; decide
  obtain ⟨hsize, hplace, -⟩ := unequal.enumerates_product.1 hfits
  exact ⟨hfits, hsize.trans hproduct, hplace⟩

/-- Two coordinates on each of 64 axes. -/
def pairs : Grid Float 64 := ⟨Vector.replicate 64 ⟨0, 1, false, #[0, 1]⟩⟩

/-- No axis is empty, but the product of the sizes is the first number that a word does not hold: no
combination has a number. -/
theorem pairs_loses_combinations :
    (∀ a, 0 < (pairs.axes.get a).size) ∧ ∏ a, (pairs.axes.get a).size = 2 ^ 64 ∧
      pairs.size = 0 ∧ pairs.points = [] ∧ ¬ Function.Bijective pairs.place := by
  have haxis (a : Fin 64) : (pairs.axes.get a).size = 2 := by
    simp [pairs, Vector.get, Axis.size]
  have hproduct : ∏ a, (pairs.axes.get a).size = 2 ^ 64 := by
    rw [Finset.prod_congr rfl fun a _ => haxis a, Finset.prod_const, Finset.card_fin]
  have hsize : pairs.size = 0 := by
    rw [size, meshSize_eq_finset_prod, hproduct]
    exact Nat.mod_self _
  refine ⟨fun a => by rw [haxis]; decide, hproduct, hsize, by simp [points, hsize], fun h => ?_⟩
  obtain ⟨k, -⟩ := h.2 fun a => ⟨0, by rw [haxis]; decide⟩
  exact absurd (k.isLt.trans_eq hsize) (Nat.not_lt_zero _)

end Grid

end ParameterScan
