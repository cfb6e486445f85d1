import ParameterScan.Proofs.Minimize.RestartRun
import ParameterScan.Proofs.Scalar.Extended

/-!
# Simplex searches inside a box

Where coordinates are real numbers and nothing is rounded, a range that is in order contains what is
half way between two of its points. So a shrinking, which is the one step that does not move its
points into the box, does not leave it either, and neither search ever does.

The values of the function may be infinite or no numbers at all. The same goes for the start and for
what is drawn, since a start is moved into the box before it is used.
-/
namespace ParameterScan

variable {α γ : Type} [Scalar α] {f : List α → α} {box : Box α} {cfg : SearchConfig α}
  {inside : List α → Prop}

namespace Simplex

/-- The simplex after so many rounds of a search, the trail, and whether the search has settled. -/
def after (f : List α → α) (x0 : List α) (box : Box α) (cfg : SearchConfig α) (rounds : Nat) :
    List (Vertex α) × Trail α × Bool :=
  descend f box cfg.tolerance (cfg.budgetFor x0.length 400) rounds
    (probeAll f Trail.empty (startPoints box x0)).1 (probeAll f Trail.empty (startPoints box x0)).2

theorem descend_succ (tolerance : α) (budget fuel : Nat) (vs : List (Vertex α)) (t : Trail α) :
    descend f box tolerance budget (fuel + 1) vs t =
      let state := descend f box tolerance budget fuel vs t
      if state.2.2 then state else descend f box tolerance budget 1 state.1 state.2.1 := by
  induction fuel generalizing vs t with
  | zero => rfl
  | succ fuel ih =>
      rw [descend]
      conv_rhs => rw [descend]
      by_cases hbudget : budget ≤ t.count
      · simp [hbudget, descend]
      · simp only [hbudget, if_false]
        cases sorted vs with
        | nil => rfl
        | cons best rest =>
            by_cases hsettled : settled tolerance best rest (rest.getLastD best) = true
            · simp only [hsettled, if_true]
            · simp only [hsettled, Bool.false_eq_true, if_false]
              exact ih _ _

/-- A round starts from the simplex that the round before it has left, unless that one has settled.
The search is what is left after as many rounds as its budget has evaluations. -/
theorem after_succ (f : List α → α) (x0 : List α) (box : Box α) (cfg : SearchConfig α)
    (rounds : Nat) :
    after f x0 box cfg (rounds + 1) =
      let state := after f x0 box cfg rounds
      if state.2.2 then state
      else descend f box cfg.tolerance (cfg.budgetFor x0.length 400) 1 state.1 state.2.1 :=
  descend_succ _ _ _ _ _

/-- All that a search touches has the property. -/
structure Enclosed (inside : List α → Prop) (f : List α → α) (x0 : List α) (box : Box α)
    (cfg : SearchConfig α) : Prop where
  vertex : ∀ rounds, ∀ v ∈ (after f x0 box cfg rounds).1, inside v.point
  evaluated : ∀ p ∈ (search f x0 box cfg).trail.points, inside p
  point : inside (search f x0 box cfg).point

variable [Scalar.Ordered α]

theorem enclosed_search {n : Nat} (hbox : box.Retains n inside) {x0 : List α}
    (hlength : x0.length = n) (f : List α → α) (cfg : SearchConfig α) :
    Enclosed inside f x0 box cfg := by
  refine ⟨fun rounds v hv => ?_, fun p hp => ?_, (attained_search hbox hlength cfg).contains⟩
  · have hlowered := (lowered_start (f := f) hbox hlength).descend hbox cfg.tolerance
      (cfg.budgetFor x0.length 400) rounds (probeAll f Trail.empty (startPoints box x0)).2
    exact (hlowered.faithful v hv).contains
  · rw [trail_search] at hp
    exact (tracked_descended hbox hlength cfg).2.contains p hp

end Simplex

namespace Restart

/-- All that the searches of a procedure touch has the property. -/
structure Enclosed (inside : List α → Prop) (draw : γ → α × γ) (g : γ) (f : List α → α)
    (x0 : List α) (box : Box α) (cfg : SearchConfig α) : Prop where
  run : ∀ start ∈ starts draw g f x0 box cfg, Simplex.Enclosed inside f start box cfg
  evaluated : ∀ p ∈ (searchWith draw g f x0 box cfg).trail.points, inside p
  point : inside (searchWith draw g f x0 box cfg).point

variable [Scalar.Ordered α]

theorem enclosed_searchWith {n : Nat} (hbox : box.Retains n inside) {x0 : List α}
    (hlength : x0.length = n) (f : List α → α) (cfg : SearchConfig α) (draw : γ → α × γ) (g : γ) :
    Enclosed inside draw g f x0 box cfg := by
  have hrun : ∀ start ∈ starts draw g f x0 box cfg, Simplex.Enclosed inside f start box cfg := by
    intro start hstart
    have hn := (length_of_mem_starts draw g f x0 box cfg start hstart).trans hlength
    exact Simplex.enclosed_search hbox hn f cfg
  have hledger := ledger_searchWith draw g f x0 box cfg
  have hevaluated : ∀ p ∈ (searchWith draw g f x0 box cfg).trail.points, inside p := by
    intro p hp
    rw [← Array.mem_toList_iff, hledger.joins.points_eq] at hp
    obtain ⟨run, hmem, hp⟩ := List.mem_flatMap.mp hp
    obtain ⟨start, hstart, rfl⟩ := List.mem_map.mp hmem
    exact (hrun start hstart).evaluated p (Array.mem_toList_iff.mp hp)
  exact ⟨hrun, hevaluated, hevaluated _ hledger.point_mem⟩

end Restart

namespace Box

open Extended

/-- The box of ranges of real numbers. -/
def ofReals (lower upper : List ℝ) : Box Extended := ⟨lower.map real, upper.map real⟩

theorem closedRange_real {l u : ℝ} (h : l ≤ u) : ClosedRange (real l) (real u) := by
  refine ⟨real_le_real.mpr h, fun b v hlb hbu hlv hvu => ?_⟩
  obtain ⟨b, rfl, hlb, hbu⟩ := exists_real_of_between hlb hbu
  obtain ⟨v, rfl, hlv, hvu⟩ := exists_real_of_between hlv hvu
  simp only [decimal_real, sub_real, mul_real, add_real, real_le_real]
  constructor
  · linarith
  · linarith

theorem closed_ofReals {lower upper : List ℝ} (h : List.Forall₂ (· ≤ ·) lower upper) :
    (ofReals lower upper).Closed := by
  refine List.forall₂_map_left_iff.mpr (List.forall₂_map_right_iff.mpr ?_)
  exact h.imp fun _ _ => closedRange_real

end Box

/-- In exact arithmetic neither search leaves a box whose ranges are in order: not with a vertex in
any round, not with an evaluation, and not with its outcome. -/
theorem searches_stay_inside {lower upper : List ℝ} (hrange : List.Forall₂ (· ≤ ·) lower upper)
    (f : List Extended → Extended) {x0 : List Extended} (hlength : x0.length = lower.length)
    (cfg : SearchConfig Extended) (draw : γ → Extended × γ) (g : γ) :
    let box := Box.ofReals lower upper
    Simplex.Enclosed box.Contains f x0 box cfg ∧
      Restart.Enclosed box.Contains draw g f x0 box cfg := by
  have hbox := (Box.closed_ofReals hrange).retains
  have hn : x0.length = (Box.ofReals lower upper).lower.length :=
    hlength.trans (List.length_map _).symm
  exact ⟨Simplex.enclosed_search hbox hn f cfg, Restart.enclosed_searchWith hbox hn f cfg draw g⟩

/-- A function without values, asked from a start that is infinitely far away. -/
theorem searches_stay_inside_far :
    let box := Box.ofReals [-1] [2]
    List.Forall₂ (· ≤ ·) [(-1 : ℝ)] [2] ∧ [Extended.infinite false].length = [(-1 : ℝ)].length ∧
      Simplex.Enclosed box.Contains (fun _ => .nan) [.infinite false] box default ∧
      Restart.Enclosed box.Contains (fun k : ℕ => (.real k, k + 1)) 0 (fun _ => .nan)
        [.infinite false] box default := by
  have hrange : List.Forall₂ (· ≤ ·) [(-1 : ℝ)] [2] := .cons (by norm_num) .nil
  exact ⟨hrange, rfl, searches_stay_inside hrange (fun _ => .nan) rfl default _ 0⟩

end ParameterScan
