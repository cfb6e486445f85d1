import Mathlib.Tactic.SplitIfs
import ParameterScan.Minimize.Simplex
import ParameterScan.Proofs.Minimize.Box

/-!
# What a simplex search keeps

Every vertex keeps what the box retains and carries the reading of the function there, there are
more vertices than coordinates, and the best vertex never rises. The number of vertices matters
because the centre of the kept ones has no more coordinates than there are of them. The best vertex
is the head of a sorted simplex only since no reading is a `NaN`: the comparison that sorts is not
an order otherwise.

Nothing is known about the function. It may be a different number at equal points.
-/
namespace ParameterScan

variable {α : Type} [Scalar α] {f : List α → α} {box : Box α} {n : Nat} {inside : List α → Prop}

/-- An outcome at a point that was kept, with the value that the simplex search reads there. -/
structure Minimum.Attained (f : List α → α) (inside : List α → Prop) (bound : α) (m : Minimum α) :
    Prop where
  contains : inside m.point
  value_eq : m.value = Simplex.reading (f m.point)
  le_bound : m.value ≤ bound

namespace Simplex

theorem reading_eq {v : α} (h : Scalar.isNaN v = false) : reading v = v := by
  simp [reading, h]

structure Vertex.Faithful (f : List α → α) (inside : List α → Prop) (v : Vertex α) : Prop where
  contains : inside v.point
  value_eq : v.value = reading (f v.point)

/-- The state of a search that has a vertex no higher than the bound. -/
structure Lowered (f : List α → α) (n : Nat) (inside : List α → Prop) (bound : α)
    (vs : List (Vertex α)) : Prop where
  faithful : ∀ v ∈ vs, v.Faithful f inside
  enough : n < vs.length
  exists_le : ∃ v ∈ vs, v.value ≤ bound

theorem faithful_probe {x : List α} (t : Trail α) (h : inside x) :
    (probe f t x).1.Faithful f inside := ⟨h, rfl⟩

theorem length_probeAll (t : Trail α) (xs : List (List α)) :
    (probeAll f t xs).1.length = xs.length := by
  induction xs generalizing t with
  | nil => rfl
  | cons x xs ih => simp only [probeAll, List.length_cons, ih]

theorem faithful_probeAll {xs : List (List α)} (t : Trail α)
    (h : ∀ x ∈ xs, inside x) : ∀ v ∈ (probeAll f t xs).1, v.Faithful f inside := by
  induction xs generalizing t with
  | nil => exact fun v hv => nomatch hv
  | cons x xs ih =>
      intro v hv
      obtain ⟨hx, hxs⟩ := List.forall_mem_cons.mp h
      simp only [probeAll, List.mem_cons] at hv
      rcases hv with rfl | hv
      · exact faithful_probe t hx
      · exact ih (probe f t x).2 hxs v hv

theorem length_foldl_zipWith {β : Type} {n : Nat} {vs : List (Vertex β)} {c : List β}
    (h : ∀ v ∈ vs, v.point.length = n) (hc : c.length = n) (step : β → β → β) :
    (vs.foldl (fun c v => List.zipWith step c v.point) c).length = n := by
  induction vs generalizing c with
  | nil => exact hc
  | cons v vs ih =>
      obtain ⟨hv, hvs⟩ := List.forall_mem_cons.mp h
      refine ih hvs ?_
      rw [List.length_zipWith, hc, hv, Nat.min_self]

/-- The first point cuts the zeros to the number of coordinates. -/
theorem length_centroid {n : Nat} {best : Vertex α} {others : List (Vertex α)}
    (h : ∀ v ∈ best :: others, v.point.length = n) (hn : n ≤ (best :: others).length) :
    (centroid (best :: others).length (best :: others)).length = n := by
  obtain ⟨hbest, hothers⟩ := List.forall_mem_cons.mp h
  refine length_foldl_zipWith hothers ?_ _
  rw [List.length_zipWith, List.length_replicate, hbest, Nat.min_eq_right hn]

/-- Vertices that are faithful, one more of them than were kept, and the best one among them. -/
structure Moved (f : List α → α) (inside : List α → Prop) (kept : List (Vertex α))
    (best : Vertex α) (vs : List (Vertex α)) : Prop where
  faithful : ∀ v ∈ vs, v.Faithful f inside
  length_eq : vs.length = kept.length + 1
  best_mem : best ∈ vs

theorem moved_replace {best v : Vertex α} {others : List (Vertex α)}
    (hkept : ∀ v ∈ best :: others, v.Faithful f inside) (hv : v.Faithful f inside) :
    Moved f inside (best :: others) best (best :: others ++ [v]) := by
  refine ⟨?_, ?_, ?_⟩
  · intro w hw
    rcases List.mem_append.mp hw with hw | hw
    · exact hkept w hw
    · rw [List.mem_singleton.mp hw]
      exact hv
  · rw [List.length_append, List.length_singleton]
  · exact List.mem_append_left [v] List.mem_cons_self

theorem moved_shrink {best worst : Vertex α} {others : List (Vertex α)} (hbox : box.Retains n inside)
    (hkept : ∀ v ∈ best :: others, v.Faithful f inside) (hworst : worst.Faithful f inside)
    (t : Trail α) :
    Moved f inside (best :: others) best
      (best :: (probeAll f t
        ((others ++ [worst]).map fun v => halfway best.point v.point)).1) := by
  obtain ⟨hbest, hothers⟩ := List.forall_mem_cons.mp hkept
  refine ⟨?_, ?_, List.mem_cons_self⟩
  · refine List.forall_mem_cons.mpr ⟨hbest, faithful_probeAll t ?_⟩
    intro x hx
    obtain ⟨v, hv, rfl⟩ := List.mem_map.mp hx
    refine hbox.halfway hbest.contains ?_
    rcases List.mem_append.mp hv with hv | hv
    · exact (hothers v hv).contains
    · rw [List.mem_singleton.mp hv]
      exact hworst.contains
  · simp only [List.length_cons, length_probeAll, List.length_map, List.length_append,
      List.length_nil]

/-- A point seen through the centre of enough vertices. -/
theorem contains_along {best worst : Vertex α} {others : List (Vertex α)}
    (hbox : box.Retains n inside) (hkept : ∀ v ∈ best :: others, v.Faithful f inside)
    (hworst : worst.Faithful f inside)
    (henough : n ≤ (best :: others).length) (t : α) :
    inside
      (along box (centroid (best :: others).length (best :: others)) worst.point t) := by
  have hcentre :=
    length_centroid (fun v hv => hbox.length_eq (hkept v hv).contains) henough
  refine hbox.clamp ?_
  rw [List.length_zipWith, hcentre, hbox.length_eq hworst.contains, Nat.min_self]

theorem moved_move {best worst : Vertex α} {others : List (Vertex α)} (hbox : box.Retains n inside)
    (hkept : ∀ v ∈ best :: others, v.Faithful f inside) (hworst : worst.Faithful f inside)
    (henough : n ≤ (best :: others).length) (t : Trail α) :
    Moved f inside (best :: others) best (move f box best others worst t).1 := by
  have hprobe (t : Trail α) (s : α) : Vertex.Faithful f inside
      (probe f t (along box (centroid (best :: others).length (best :: others)) worst.point s)).1 :=
    faithful_probe t (contains_along hbox hkept hworst henough s)
  unfold move
  simp only
  split_ifs with hbest hexpanded hlast hworse hcontracted hcontracted
  · exact moved_replace hkept (hprobe _ 2)
  · exact moved_replace hkept (hprobe _ 1)
  · exact moved_replace hkept (hprobe _ 1)
  · exact moved_replace hkept (hprobe _ 0.5)
  · exact moved_shrink hbox hkept hworst _
  · exact moved_replace hkept (hprobe _ (-0.5))
  · exact moved_shrink hbox hkept hworst _

variable {bound : α} {vs rest : List (Vertex α)} {best : Vertex α}

/-- One round, on all vertices but the last and the last one. -/
theorem Lowered.move (hbox : box.Retains n inside) (h : Lowered f n inside bound (best :: rest))
    (hbest : best.value ≤ bound) (t : Trail α) :
    Lowered f n inside bound (move f box best rest.dropLast (rest.getLastD best) t).1 := by
  have henough : n < rest.length + 1 := h.enough
  have hkept : ∀ v ∈ best :: rest.dropLast, v.Faithful f inside := by
    intro v hv
    rcases List.mem_cons.mp hv with rfl | hv
    · exact h.faithful v List.mem_cons_self
    · exact h.faithful v (List.mem_cons_of_mem best (List.dropLast_subset rest hv))
  have hlength : (best :: rest.dropLast).length = rest.length - 1 + 1 := by
    rw [List.length_cons, List.length_dropLast]
  have hmoved := moved_move hbox hkept (h.faithful _ List.getLastD_mem_cons)
    (by rw [hlength]; omega) t
  refine ⟨hmoved.faithful, ?_, best, hmoved.best_mem, hbest⟩
  rw [hmoved.length_eq, hlength]
  omega

/-- The starting simplex: the start itself and a point for each coordinate. -/
theorem contains_startPoints (hbox : box.Retains n inside) {x0 : List α}
    (hlength : x0.length = n) : ∀ x ∈ startPoints box x0, inside x := by
  refine List.forall_mem_cons.mpr ⟨hbox.clamp hlength, ?_⟩
  intro x hx
  obtain ⟨i, -, rfl⟩ := List.mem_map.mp hx
  unfold neighbour
  simp only
  split_ifs with hup
  · exact hbox.clamp (by simpa using hlength)
  · exact hbox.clamp (by simpa using hlength)

theorem mem_of_sorted (h : sorted vs = best :: rest) (v : Vertex α) :
    v ∈ best :: rest ↔ v ∈ vs := by
  rw [← h]
  exact List.mem_mergeSort

variable [Scalar.Ordered α]

open Scalar Scalar.Ordered

theorem isNaN_reading (v : α) : isNaN (reading v) = false := by
  unfold reading
  split
  · exact isNaN_infinity
  · simp_all

theorem Vertex.Faithful.isNaN_value {v : Vertex α} (h : v.Faithful f inside) :
    isNaN v.value = false := by
  rw [h.value_eq]
  exact isNaN_reading (f v.point)

/-- The comparison that sorts, with `NaN` above all numbers. -/
def below (a b : Vertex α) : Bool := isNaN b.value || decide (a.value ≤ b.value)

theorem below_trans (a b c : Vertex α) (hab : below a b) (hbc : below b c) : below a c := by
  simp only [below, Bool.or_eq_true, decide_eq_true_eq] at hab hbc ⊢
  rcases hbc with hbc | hbc
  · exact .inl hbc
  · rcases hab with hab | hab
    · rw [isNaN_left hbc] at hab
      cases hab
    · exact .inr (le_trans hab hbc)

theorem below_total (a b : Vertex α) : below a b || below b a := by
  simp only [below, Bool.or_eq_true, decide_eq_true_eq]
  cases ha : isNaN a.value with
  | true => exact .inr (.inl rfl)
  | false =>
      cases hb : isNaN b.value with
      | true => exact .inl (.inl rfl)
      | false =>
          rcases le_total_of_not_nan ha hb with hle | hle
          · exact .inl (.inr hle)
          · exact .inr (.inr hle)

/-- The head of a sorted simplex is its lowest vertex. -/
theorem le_of_sorted (hnan : ∀ v ∈ vs, isNaN v.value = false) (h : sorted vs = best :: rest) :
    ∀ v ∈ vs, best.value ≤ v.value := by
  have hbelow : sorted vs = vs.mergeSort below := by
    have hmap := List.map_mergeSort (r := fun a b : Vertex α => decide (a.value ≤ b.value))
      (s := below) (f := id) (l := vs) fun a _ b hb => by simp [below, hnan b hb]
    rwa [List.map_id, List.map_id] at hmap
  have hpairwise := List.pairwise_mergeSort below_trans below_total vs
  rw [← hbelow, h] at hpairwise
  intro v hv
  rcases List.mem_cons.mp ((mem_of_sorted h v).mpr hv) with rfl | hmem
  · exact le_refl_of_not_nan (hnan v hv)
  · simpa [below, hnan v hv] using List.rel_of_pairwise_cons hpairwise hmem

theorem Lowered.le (h : Lowered f n inside bound vs) (hsorted : sorted vs = best :: rest) :
    best.value ≤ bound := by
  obtain ⟨v, hv, hle⟩ := h.exists_le
  exact le_trans (le_of_sorted (fun w hw => (h.faithful w hw).isNaN_value) hsorted v hv) hle

/-- Sorting keeps what is known of a simplex. -/
theorem Lowered.sorted (h : Lowered f n inside bound vs) (hsorted : sorted vs = best :: rest) :
    Lowered f n inside bound (best :: rest) := by
  refine ⟨fun v hv => h.faithful v ((mem_of_sorted hsorted v).mp hv), ?_,
    best, List.mem_cons_self, h.le hsorted⟩
  rw [← hsorted, Simplex.sorted, List.length_mergeSort]
  exact h.enough

theorem Lowered.descend (hbox : box.Retains n inside) (h : Lowered f n inside bound vs)
    (tolerance : α) (budget fuel : Nat) (t : Trail α) :
    Lowered f n inside bound (descend f box tolerance budget fuel vs t).1 := by
  induction fuel generalizing vs t with
  | zero => exact h
  | succ fuel ih =>
      unfold Simplex.descend
      split_ifs with hbudget
      · exact h
      · split
        · exact h
        next best rest hsorted =>
          have hbest := h.sorted hsorted
          simp only
          split_ifs with hsettled
          · exact hbest
          · exact ih (hbest.move hbox (h.le hsorted) t) _

theorem lowered_start (hbox : box.Retains n inside) {x0 : List α}
    (hlength : x0.length = n) :
    Lowered f n inside (reading (f (box.clamp x0)))
      (probeAll f Trail.empty (startPoints box x0)).1 := by
  refine ⟨faithful_probeAll _ (contains_startPoints hbox hlength), ?_, ?_⟩
  · rw [length_probeAll]
    simp [startPoints, hlength]
  · exact ⟨(probe f Trail.empty (box.clamp x0)).1, List.mem_cons_self,
      le_refl_of_not_nan (isNaN_reading (f (box.clamp x0)))⟩

theorem attained_search (hbox : box.Retains n inside) {x0 : List α}
    (hlength : x0.length = n) (cfg : SearchConfig α) :
    (search f x0 box cfg).Attained f inside (reading (f (box.clamp x0))) := by
  have hstart := lowered_start (f := f) hbox hlength
  have hend := hstart.descend hbox cfg.tolerance (cfg.budgetFor x0.length 400)
    (cfg.budgetFor x0.length 400) (probeAll f Trail.empty (startPoints box x0)).2
  unfold search
  simp only
  split
  next hsorted =>
    have hnil := congrArg List.length hsorted
    rw [Simplex.sorted, List.length_mergeSort, List.length_nil] at hnil
    have henough := hend.enough
    omega
  next best rest hsorted =>
    have hbest := (hend.sorted hsorted).faithful best List.mem_cons_self
    exact ⟨hbest.contains, hbest.value_eq, hend.le hsorted⟩

end Simplex

end ParameterScan
