import ParameterScan.Minimize.Search

/-!
# The record of a search

Points are added to a trail and never taken away. A trail is exact when each of its points has been
counted.
-/
namespace ParameterScan.Trail

variable {α : Type} {t : Trail α}

/-- The trail after visits to several points. -/
def visitAll (t : Trail α) (xs : List (List α)) : Trail α := ⟨t.count + xs.length, t.points ++ xs⟩

def Exact (t : Trail α) : Prop := t.count = t.points.size

@[simp] theorem count_visitAll (t : Trail α) (xs : List (List α)) :
    (t.visitAll xs).count = t.count + xs.length := rfl

@[simp] theorem mem_visitAll {xs : List (List α)} {p : List α} :
    p ∈ (t.visitAll xs).points ↔ p ∈ t.points ∨ p ∈ xs := by
  simp [visitAll, ← Array.mem_toList_iff]

@[simp] theorem mem_glance {xs : List (List α)} {p : List α} :
    p ∈ (t.glance xs).points ↔ p ∈ t.points ∨ p ∈ xs := by
  simp [glance, ← Array.mem_toList_iff]

@[simp] theorem mem_visit {x p : List α} : p ∈ (t.visit x).points ↔ p ∈ t.points ∨ p = x := by
  simp [visit]

@[simp] theorem mem_append {u : Trail α} {p : List α} :
    p ∈ (t.append u).points ↔ p ∈ t.points ∨ p ∈ u.points := by
  simp [append, ← Array.mem_toList_iff]

theorem visit_eq (t : Trail α) (x : List α) : t.visit x = t.visitAll [x] := by
  simp [visit, visitAll]

@[simp] theorem visitAll_nil (t : Trail α) : t.visitAll [] = t := by
  simp [visitAll]

theorem visitAll_visitAll (t : Trail α) (xs ys : List (List α)) :
    (t.visitAll xs).visitAll ys = t.visitAll (xs ++ ys) := by
  simp [visitAll, Nat.add_assoc, ← Array.toList_inj]

theorem exact_empty : (empty : Trail α).Exact := rfl

theorem Exact.visitAll (h : t.Exact) (xs : List (List α)) : (t.visitAll xs).Exact := by
  simp only [Exact] at h
  simp [Exact, Trail.visitAll, h, ← Array.length_toList]

theorem Exact.append {u : Trail α} (ht : t.Exact) (hu : u.Exact) : (t.append u).Exact := by
  simp only [Exact] at ht hu
  simp [Exact, Trail.append, ht, hu]

end ParameterScan.Trail
