import ParameterScan.Grid

/-!
# Columns of a grid

The coordinates that a result reports, read off the axes or gathered point by point, are those of
the points of the grid in the order of their numbers.
-/
namespace ParameterScan

theorem toList_eq_one {τ : Type} (v : Vector τ 1) : v.toList = [v[0]] := by
  refine List.ext_getElem (by simp) fun i hi _ => ?_
  obtain rfl : i = 0 := by simp at hi; omega
  simp

theorem toList_eq_two {τ : Type} (v : Vector τ 2) :
    v.toList = [getElem v 0 Nat.zero_lt_two, getElem v 1 Nat.one_lt_two] := by
  refine List.ext_getElem (by simp) fun i hi _ => ?_
  have hi' : i < 2 := by simpa using hi
  obtain rfl | rfl : i = 0 ∨ i = 1 := by omega
  · simp
  · simp

namespace Grid

variable {α : Type}

theorem volume_cons (a : Axis α) (axes : List (Axis α)) :
    volume (a :: axes) = a.size * volume axes := rfl

theorem volume_eq_zero {a : Axis α} {axes : List (Axis α)} (hmem : a ∈ axes) (h : a.size = 0) :
    volume axes = 0 := by
  induction axes with
  | nil => cases hmem
  | cons b axes ih =>
      rw [volume_cons]
      rcases List.mem_cons.mp hmem with rfl | htail
      · rw [h, Nat.zero_mul]
      · rw [ih htail, Nat.mul_zero]

variable {n : Nat}

/-- There are never more points than combinations. -/
theorem size_le_meshSize (g : Grid α n) : g.size ≤ g.meshSize := Nat.mod_le _ _

/-- The size is the product of the sizes of the axes where a word holds that product. -/
theorem size_eq_meshSize (g : Grid α n) (hfits : g.meshSize < wordRange) :
    g.size = g.meshSize :=
  Nat.mod_eq_of_lt hfits

/-- A point that is there has a position on each axis. -/
theorem position_lt (g : Grid α n) {k : Nat} (hk : k < g.meshSize) (a : Fin n) :
    g.position k a < (g.axes.get a).size := by
  refine Nat.mod_lt _ (Nat.pos_of_ne_zero fun hzero => ?_)
  have hmem : g.axes.get a ∈ g.axes.toList := by simp [Vector.get]
  rw [meshSize, volume_eq_zero hmem hzero] at hk
  exact Nat.not_lt_zero k hk

variable [Scalar α]

theorem get_point (g : Grid α n) (k : Nat) (a : Fin n) :
    (g.point k).get a = (g.axes.get a).coordinate (g.position k a) :=
  Vector.getElem_ofFn _

theorem get_toLinear_point (g : Grid α n) (k : Nat) (a : Fin n) :
    (g.toLinear (g.point k)).get a =
      (g.axes.get a).toLinear ((g.axes.get a).coordinate (g.position k a)) :=
  (Vector.getElem_ofFn _).trans (congrArg _ (g.get_point k a))

/-- The coordinates of a point that is there are looked up within their axes. -/
theorem values_getElem?_position (g : Grid α n) {k : Nat} (hk : k < g.meshSize) (a : Fin n) :
    (g.axes.get a).values[g.position k a]? =
      some ((g.axes.get a).coordinate (g.position k a)) := by
  have hlt : g.position k a < (g.axes.get a).values.size := g.position_lt hk a
  rw [Axis.coordinate, Array.getD, dif_pos hlt]
  exact Array.getElem?_eq_getElem hlt

/-- A point of a grid has a value of each axis. -/
theorem toLinear_point_mem (g : Grid α n) {k : Nat} (hk : k < g.meshSize) (a : Fin n) :
    (g.toLinear (g.point k)).get a ∈ (g.axes.get a).linearValues := by
  have hcoordinate :
      (g.axes.get a).coordinate (g.position k a) ∈ (g.axes.get a).values.toList :=
    Array.mem_toList_iff.mpr (Array.mem_of_getElem? (g.values_getElem?_position hk a))
  rw [get_toLinear_point]
  exact List.mem_map_of_mem hcoordinate

theorem linearColumn_getElem? (g : Grid α n) (a : Fin n) {k : Nat} (hk : k < g.size) :
    (g.linearColumn a)[k]? = some ((g.toLinear (g.point k)).get a) := by
  rw [get_toLinear_point]
  simp [Grid.linearColumn, Grid.points, get_point, hk]

theorem length_linearColumn (g : Grid α n) (a : Fin n) : (g.linearColumn a).length = g.size := by
  simp [Grid.linearColumn, Grid.points]

end Grid

end ParameterScan
