import Mathlib.Data.List.Forall2
import ParameterScan.Minimize.Search
import ParameterScan.Proofs.Scalar.Order

/-!
# Points inside a box

A search stays in its box because each point it tries was moved there or lies half way between two
points that are there already. The first needs ranges that are in order. The second is not true of
all rounded numbers, and a box for which it is true is called closed.

What a search keeps is shown for any property of points that moving and halving keep (`Retains`): in
a closed box that they lie inside, in any box that their number of coordinates stays the same.
-/
namespace ParameterScan

open Scalar (Alike)

variable {α : Type} [Scalar α]

/-- Lists of one length, each number of the third between those of the first two. -/
inductive Between : (lower upper xs : List α) → Prop
  | nil : Between [] [] []
  | cons {l u x : α} {ls us xs : List α} :
      l ≤ x → x ≤ u → Between ls us xs → Between (l :: ls) (u :: us) (x :: xs)

namespace Box

def Contains (b : Box α) (x : List α) : Prop := Between b.lower b.upper x

/-- The ranges are in order. -/
def InOrder (b : Box α) : Prop := List.Forall₂ (· ≤ ·) b.lower b.upper

/-- A range is in order and contains what is half way between two of its numbers. -/
def ClosedRange (l u : α) : Prop :=
  l ≤ u ∧ ∀ b v : α, l ≤ b → b ≤ u → l ≤ v → v ≤ u →
    l ≤ b + 0.5 * (v - b) ∧ b + 0.5 * (v - b) ≤ u

def Closed (b : Box α) : Prop := List.Forall₂ ClosedRange b.lower b.upper

/-- A property that the points of a search over `n` coordinates keep. -/
structure Retains (b : Box α) (n : Nat) (inside : List α → Prop) : Prop where
  length_eq : ∀ {x : List α}, inside x → x.length = n
  clamp : ∀ {x : List α}, x.length = n → inside (b.clamp x)
  halfway : ∀ {x y : List α}, inside x → inside y →
    inside (List.zipWith (fun c v => c + 0.5 * (v - c)) x y)

/-- No end of a range is a zero. -/
structure Nonzero (b : Box α) : Prop where
  lower : ∀ l ∈ b.lower, l < 0 ∨ 0 < l
  upper : ∀ u ∈ b.upper, u < 0 ∨ 0 < u

theorem length_clampEach (ls us xs : List α) : (clampEach ls us xs).length = xs.length := by
  induction xs generalizing ls us with
  | nil => cases ls <;> cases us <;> rfl
  | cons x xs ih =>
      cases ls with
      | nil => rfl
      | cons l ls =>
          cases us with
          | nil => rfl
          | cons u us => simp only [clampEach, List.length_cons, ih]

@[simp]
theorem length_clamp (b : Box α) (x : List α) : (b.clamp x).length = x.length :=
  length_clampEach b.lower b.upper x

/-- Any box keeps the number of coordinates, be it that of its ranges or not. -/
theorem retains_length (b : Box α) (n : Nat) : b.Retains n fun x => x.length = n := by
  refine ⟨id, fun hx => (length_clamp b _).trans hx, fun hx hy => ?_⟩
  rw [List.length_zipWith, hx, hy, Nat.min_self]

theorem Contains.length_eq {b : Box α} {x : List α} (h : b.Contains x) :
    x.length = b.lower.length := by
  obtain ⟨ls, us⟩ := b
  change Between ls us x at h
  induction h with
  | nil => rfl
  | cons _ _ _ ih => exact congrArg Nat.succ ih

/-- The number lies in the range of the coordinate, if there is one. -/
def Admits (b : Box α) (j : Nat) (v : α) : Prop :=
  ∀ l u, b.lower[j]? = some l → b.upper[j]? = some u → l ≤ v ∧ v ≤ u

/-- A point stays inside when one of its coordinates is moved within the range. -/
theorem Contains.set {b : Box α} {x : List α} (h : b.Contains x) {j : Nat} {v : α}
    (hv : b.Admits j v) : b.Contains (x.set j v) := by
  obtain ⟨ls, us⟩ := b
  change Between ls us x at h
  change Between ls us (x.set j v)
  simp only [Admits] at hv
  induction h generalizing j with
  | nil => exact .nil
  | cons hlx hxu hxs ih =>
      cases j with
      | zero =>
          obtain ⟨hlv, hvu⟩ := hv _ _ rfl rfl
          exact .cons hlv hvu hxs
      | succ j => exact .cons hlx hxu (ih hv)

theorem Closed.inOrder {b : Box α} (h : b.Closed) : b.InOrder :=
  List.Forall₂.imp (fun _ _ hrange => hrange.1) h

theorem Closed.contains_halfway {b : Box α} {x y : List α} (h : b.Closed) (hx : b.Contains x)
    (hy : b.Contains y) :
    b.Contains (List.zipWith (fun c v => c + 0.5 * (v - c)) x y) := by
  obtain ⟨ls, us⟩ := b
  change Between ls us x at hx
  change Between ls us y at hy
  change List.Forall₂ ClosedRange ls us at h
  change Between ls us _
  induction hx generalizing y with
  | nil =>
      cases hy
      exact .nil
  | cons hlx hxu _ ih =>
      cases hy with
      | cons hly hyu hy =>
          cases h with
          | cons hrange h =>
              have hmid := hrange.2 _ _ hlx hxu hly hyu
              exact .cons hmid.1 hmid.2 (ih hy h)

variable [Scalar.Ordered α]

theorem InOrder.contains_clamp {b : Box α} (h : b.InOrder) {x : List α}
    (hlength : x.length = b.lower.length) : b.Contains (b.clamp x) := by
  obtain ⟨ls, us⟩ := b
  change List.Forall₂ (· ≤ ·) ls us at h
  change Between ls us (clampEach ls us x)
  simp only at hlength
  induction h generalizing x with
  | nil =>
      rw [List.length_eq_zero_iff.mp hlength]
      exact .nil
  | @cons l u ls us hrange _ ih =>
      cases x with
      | nil => simp at hlength
      | cons x xs =>
          have hmem := Scalar.clamp_mem hrange x
          exact .cons hmem.1 hmem.2 (ih (Nat.succ.inj hlength))

/-- A closed box keeps the points inside. -/
theorem Closed.retains {b : Box α} (h : b.Closed) : b.Retains b.lower.length b.Contains :=
  ⟨Contains.length_eq, h.inOrder.contains_clamp, h.contains_halfway⟩

/-- A point that lies inside is at most moved onto an equal one. -/
theorem Contains.clamp_alike {b : Box α} {x : List α} (h : b.Contains x) :
    List.Forall₂ Alike (b.clamp x) x := by
  obtain ⟨ls, us⟩ := b
  change Between ls us x at h
  change List.Forall₂ Alike (clampEach ls us x) x
  induction h with
  | nil => exact .nil
  | cons hlx hxu _ ih => exact .cons (Scalar.clamp_alike hlx hxu) ih

theorem Contains.clamp_eq [Scalar.Congruent α] {b : Box α} {x : List α} (h : b.Contains x)
    (hb : b.Nonzero) : b.clamp x = x := by
  obtain ⟨ls, us⟩ := b
  obtain ⟨hlower, hupper⟩ := hb
  change Between ls us x at h
  change clampEach ls us x = x
  simp only at hlower hupper
  induction h with
  | nil => rfl
  | cons hlx hxu _ ih =>
      obtain ⟨hl, hls⟩ := List.forall_mem_cons.mp hlower
      obtain ⟨hu, hus⟩ := List.forall_mem_cons.mp hupper
      rw [clampEach, Scalar.clamp_eq hlx hxu hl hu, ih hls hus]

end Box

end ParameterScan
