import ParameterScan.Proofs.Minimize.Restart
import ParameterScan.Proofs.Minimize.SimplexRun

/-!
# The books of a procedure with restarts

The procedure is a list of simplex searches of which each starts near the best outcome of those
before it, and the last one at it. `Ledger` says what holds of the searches made so far and of their
best outcome; a further search keeps it, whether or not it takes over. So the outcome is the lowest
reading over all searches together, and the evaluations are those of the searches added up.

Nothing is assumed about the source of random numbers, the box or the rounding of an operation. The
numbers are only compared.
-/
namespace ParameterScan.Restart

open Simplex (reading)

variable {α γ : Type} [Scalar α] {f : List α → α} {box : Box α} {cfg : SearchConfig α}
  {draw : γ → α × γ}

/-- The starts of the searches between the first and the last. -/
def restartPoints (f : List α → α) (box : Box α) (cfg : SearchConfig α) (draw : γ → α × γ) :
    Nat → γ → Minimum α → List (List α)
  | 0, _, _ => []
  | k + 1, g, best =>
      let (start, g) := perturb draw g best.point
      start :: restartPoints f box cfg draw k g (better best (Simplex.search f start box cfg))

/-- The starts of all searches, in order: the given one, those near the best point so far, and the
best point after them. -/
def starts (draw : γ → α × γ) (g : γ) (f : List α → α) (x0 : List α) (box : Box α)
    (cfg : SearchConfig α) : List (List α) :=
  let first := Simplex.search f x0 box cfg
  x0 :: (restartPoints f box cfg draw cfg.restarts g first
    ++ [(restarts f box cfg draw cfg.restarts g first).point])

/-- The searches from several starts. -/
def runsFrom (f : List α → α) (box : Box α) (cfg : SearchConfig α) (xs : List (List α)) :
    List (Minimum α) :=
  xs.map fun start => Simplex.search f start box cfg

theorem length_restartPoints (k : Nat) (g : γ) (best : Minimum α) :
    (restartPoints f box cfg draw k g best).length = k := by
  induction k generalizing g best with
  | zero => rfl
  | succ k ih => exact congrArg Nat.succ (ih _ _)

@[simp] theorem trail_better (best trial : Minimum α) :
    (better best trial).trail = best.trail.append trial.trail := by
  unfold better
  simp only
  split <;> rfl

@[simp] theorem trail_polish (best last : Minimum α) :
    (polish best last).trail = best.trail.append last.trail := by
  unfold polish
  simp only
  split <;> rfl

theorem mem_points_restarts {p : List α} (k : Nat) (g : γ) {best : Minimum α}
    (h : p ∈ best.trail.points) : p ∈ (restarts f box cfg draw k g best).trail.points := by
  induction k generalizing g best with
  | zero => exact h
  | succ k ih =>
      refine ih _ ?_
      rw [trail_better]
      exact Trail.mem_append.mpr (.inl h)

section Congruence

variable {f' : List α → α}

theorem restarts_congr (k : Nat) (g : γ) {best : Minimum α}
    (h : ∀ p ∈ (restarts f box cfg draw k g best).trail.points, f' p = f p) :
    restarts f' box cfg draw k g best = restarts f box cfg draw k g best := by
  induction k generalizing g best with
  | zero => rfl
  | succ k ih =>
      have htrial : Simplex.search f' (perturb draw g best.point).1 box cfg =
          Simplex.search f (perturb draw g best.point).1 box cfg := by
        refine Simplex.search_congr fun p hp => h p (mem_points_restarts k _ ?_)
        rw [trail_better]
        exact Trail.mem_append.mpr (.inr hp)
      simp only [restarts, htrial]
      exact ih _ h

/-- The function is asked for no value that is not on the trail. -/
theorem searchWith_congr {g : γ} {x0 : List α}
    (h : ∀ p ∈ (searchWith draw g f x0 box cfg).trail.points, f' p = f p) :
    searchWith draw g f' x0 box cfg = searchWith draw g f x0 box cfg := by
  unfold searchWith at h ⊢
  simp only [trail_polish, Trail.mem_append] at h ⊢
  have hfirst : Simplex.search f' x0 box cfg = Simplex.search f x0 box cfg :=
    Simplex.search_congr fun p hp => h p (.inl (mem_points_restarts _ _ hp))
  rw [hfirst, restarts_congr _ _ fun p hp => h p (.inl hp),
    Simplex.search_congr fun p hp => h p (.inr hp)]

end Congruence

/-- A trail is made up of those of several searches, one after the other, and is counted right. -/
structure Joins (runs : List (Minimum α)) (t : Trail α) : Prop where
  points_eq : t.points.toList = runs.flatMap fun run => run.trail.points.toList
  count_eq : t.count = (runs.map Minimum.evaluations).sum
  exact : t.Exact

omit [Scalar α] in
theorem Joins.append {runs : List (Minimum α)} {t : Trail α} (h : Joins runs t)
    {trial : Minimum α} (htrial : trial.trail.Exact) :
    Joins (runs ++ [trial]) (t.append trial.trail) := by
  refine ⟨?_, ?_, h.exact.append htrial⟩
  · simp [Trail.append, h.points_eq]
  · simp [Trail.append, h.count_eq, Minimum.evaluations]

/-- What is known of the searches made so far, oldest first, and of the best outcome. -/
structure Ledger (f : List α → α) (runs : List (Minimum α)) (m : Minimum α) : Prop where
  joins : Joins runs m.trail
  lowest : ∀ p ∈ m.trail.points, m.value ≤ reading (f p)
  point_mem : m.point ∈ m.trail.points
  value_eq : m.value = reading (f m.point)
  exists_run : ∃ run ∈ runs,
    m.point = run.point ∧ m.value = run.value ∧ m.converged = run.converged

theorem ledger_run {start : List α} {budget : Nat} {run : Minimum α}
    (h : Simplex.Accounted f box start budget run) : Ledger f [run] run :=
  ⟨⟨by simp, by simp [Minimum.evaluations], h.evaluations_eq⟩, h.lowest, h.point_mem, h.value_eq,
    run, List.mem_singleton_self run, rfl, rfl, rfl⟩

/-- No outcome is above that of one of its searches. -/
theorem Ledger.le_value {runs : List (Minimum α)} {m run : Minimum α} (h : Ledger f runs m)
    (hrun : Ledger f [run] run) (hmem : run ∈ runs) : m.value ≤ run.value := by
  rw [hrun.value_eq]
  refine h.lowest run.point ?_
  rw [← Array.mem_toList_iff, h.joins.points_eq]
  exact List.mem_flatMap.mpr ⟨run, hmem, Array.mem_toList_iff.mpr hrun.point_mem⟩

variable [Scalar.Ordered α]

open Scalar.Ordered

variable {runs : List (Minimum α)} {best trial : Minimum α}

theorem Ledger.isNaN_value (h : Ledger f runs best) : Scalar.isNaN best.value = false := by
  rw [h.value_eq]
  exact Simplex.isNaN_reading (f best.point)

/-- The outcome stays when the further search ends no lower. -/
theorem Ledger.stay (hbest : Ledger f runs best) (htrial : Ledger f [trial] trial)
    (hle : best.value ≤ trial.value) :
    Ledger f (runs ++ [trial]) { best with trail := best.trail.append trial.trail } := by
  obtain ⟨run, hrun, heq⟩ := hbest.exists_run
  refine ⟨hbest.joins.append htrial.joins.exact, ?_, ?_, hbest.value_eq, run,
    List.mem_append_left _ hrun, heq⟩
  · intro p hp
    rcases Trail.mem_append.mp hp with hp | hp
    · exact hbest.lowest p hp
    · exact le_trans hle (htrial.lowest p hp)
  · exact Trail.mem_append.mpr (.inl hbest.point_mem)

/-- The further search takes over when it ends no higher. -/
theorem Ledger.pass (hbest : Ledger f runs best) (htrial : Ledger f [trial] trial)
    (hle : trial.value ≤ best.value) :
    Ledger f (runs ++ [trial]) { trial with trail := best.trail.append trial.trail } := by
  refine ⟨hbest.joins.append htrial.joins.exact, ?_, ?_, htrial.value_eq, trial, by simp, rfl, rfl,
    rfl⟩
  · intro p hp
    rcases Trail.mem_append.mp hp with hp | hp
    · exact le_trans hle (hbest.lowest p hp)
    · exact htrial.lowest p hp
  · exact Trail.mem_append.mpr (.inr htrial.point_mem)

theorem Ledger.better (hbest : Ledger f runs best) (htrial : Ledger f [trial] trial) :
    Ledger f (runs ++ [trial]) (better best trial) := by
  unfold Restart.better
  simp only
  split_ifs with hlt
  · exact hbest.pass htrial (le_of_lt hlt)
  · exact hbest.stay htrial (le_of_not_lt htrial.isNaN_value hbest.isNaN_value hlt)

theorem Ledger.polish (hbest : Ledger f runs best) (hlast : Ledger f [trial] trial) :
    Ledger f (runs ++ [trial]) (polish best trial) := by
  unfold Restart.polish
  simp only
  split_ifs with hle
  · exact hbest.pass hlast hle
  · rcases Scalar.le_total_of_not_nan hbest.isNaN_value hlast.isNaN_value with h | h
    · exact hbest.stay hlast h
    · exact absurd h hle

theorem accounted_run (f : List α → α) (box : Box α) (start : List α) (cfg : SearchConfig α) :
    Simplex.Accounted f box start (cfg.budgetFor start.length 400)
      (Simplex.search f start box cfg) :=
  Simplex.accounted_search (box.retains_length start.length) rfl cfg

theorem ledger_search (f : List α → α) (start : List α) (box : Box α) (cfg : SearchConfig α) :
    Ledger f [Simplex.search f start box cfg] (Simplex.search f start box cfg) :=
  ledger_run (accounted_run f box start cfg)

theorem Ledger.restarts (h : Ledger f runs best) (box : Box α) (cfg : SearchConfig α)
    (draw : γ → α × γ) (k : Nat) (g : γ) :
    Ledger f (runs ++ runsFrom f box cfg (restartPoints f box cfg draw k g best))
      (restarts f box cfg draw k g best) := by
  induction k generalizing runs best g with
  | zero => simpa [runsFrom, restartPoints, Restart.restarts] using h
  | succ k ih =>
      -- The next restart begins with one more search in the ledger.
      have hstep := ih (h.better (ledger_search f (perturb draw g best.point).1 box cfg))
        (perturb draw g best.point).2
      rw [List.append_assoc] at hstep
      exact hstep

theorem length_of_mem_restartPoints {n : Nat} {bound : α} (k : Nat) (g : γ)
    (h : best.Attained f (fun x => x.length = n) bound) :
    ∀ start ∈ restartPoints f box cfg draw k g best, start.length = n := by
  induction k generalizing g best with
  | zero => exact fun _ hmem => nomatch hmem
  | succ k ih =>
      have hstart : (perturb draw g best.point).1.length = n :=
        (length_perturb draw g best.point).trans h.contains
      have htrial := Simplex.attained_search (f := f) (box.retains_length n) hstart cfg
      exact List.forall_mem_cons.mpr ⟨hstart, ih _ (attained_better h htrial)⟩

theorem length_of_mem_starts (draw : γ → α × γ) (g : γ) (f : List α → α) (x0 : List α)
    (box : Box α) (cfg : SearchConfig α) :
    ∀ start ∈ starts draw g f x0 box cfg, start.length = x0.length := by
  have hfirst := Simplex.attained_search (f := f) (box.retains_length x0.length) rfl cfg
  have hbest := attained_restarts (box.retains_length x0.length) cfg draw cfg.restarts g hfirst
  refine List.forall_mem_cons.mpr ⟨rfl, fun start hstart => ?_⟩
  rcases List.mem_append.mp hstart with hstart | hstart
  · exact length_of_mem_restartPoints _ g hfirst start hstart
  · rw [List.mem_singleton.mp hstart]
    exact hbest.contains

theorem ledger_searchWith (draw : γ → α × γ) (g : γ) (f : List α → α) (x0 : List α) (box : Box α)
    (cfg : SearchConfig α) :
    Ledger f (runsFrom f box cfg (starts draw g f x0 box cfg))
      (searchWith draw g f x0 box cfg) := by
  let first := Simplex.search f x0 box cfg
  have hbest := (ledger_search f x0 box cfg).restarts box cfg draw cfg.restarts g
  have hlast := hbest.polish
    (ledger_search f (restarts f box cfg draw cfg.restarts g first).point box cfg)
  simpa [searchWith, starts, runsFrom] using hlast

/-- No search overruns its budget by more than the cost of its first simplex. -/
theorem sum_evaluations_le {n : Nat} {xs : List (List α)} (h : ∀ start ∈ xs, start.length = n) :
    ((runsFrom f box cfg xs).map Minimum.evaluations).sum ≤
      xs.length * (cfg.budgetFor n 400 + n + 1) := by
  have hle : ∀ k ∈ (runsFrom f box cfg xs).map Minimum.evaluations,
      k ≤ cfg.budgetFor n 400 + n + 1 := by
    intro k hk
    obtain ⟨run, hrun, rfl⟩ := List.mem_map.mp hk
    obtain ⟨start, hstart, rfl⟩ := List.mem_map.mp hrun
    have hbound := (accounted_run f box start cfg).evaluations_le
    rwa [h start hstart] at hbound
  simpa [runsFrom] using List.sum_le_card_nsmul _ _ hle

/-- The contract of the procedure: what its searches are and what it makes of them. -/
structure Contract (draw : γ → α × γ) (g : γ) (f : List α → α) (x0 : List α) (box : Box α)
    (cfg : SearchConfig α) (m : Minimum α) : Prop where
  length_starts : (starts draw g f x0 box cfg).length = cfg.restarts + 2
  length_start : ∀ start ∈ starts draw g f x0 box cfg, start.length = x0.length
  ledger : Ledger f (runsFrom f box cfg (starts draw g f x0 box cfg)) m
  le_first : m.value ≤ (Simplex.search f x0 box cfg).value
  evaluations_le :
    m.evaluations ≤ (cfg.restarts + 2) * (cfg.budgetFor x0.length 400 + x0.length + 1)
  asked : ∀ f', (∀ p ∈ m.trail.points, f' p = f p) → searchWith draw g f' x0 box cfg = m

/-- Whatever numbers are drawn, the procedure reports the lowest reading over all its searches, as
the outcome of one of them, and counts all their evaluations. -/
theorem searchWith_contract (draw : γ → α × γ) (g : γ) (f : List α → α) (x0 : List α) (box : Box α)
    (cfg : SearchConfig α) :
    Contract draw g f x0 box cfg (searchWith draw g f x0 box cfg) := by
  have hledger := ledger_searchWith draw g f x0 box cfg
  have hlength : (starts draw g f x0 box cfg).length = cfg.restarts + 2 := by
    simp [starts, length_restartPoints]
  have hstarts := length_of_mem_starts draw g f x0 box cfg
  refine ⟨hlength, hstarts, hledger, ?_, ?_, fun _ h => searchWith_congr h⟩
  · exact hledger.le_value (ledger_search f x0 box cfg) List.mem_cons_self
  · rw [Minimum.evaluations, hledger.joins.count_eq, ← hlength]
    exact sum_evaluations_le hstarts

/-- A source that draws a half and its negative in turn. -/
def alternating (up : Bool) : Float × Bool := (if up then 0.5 else -0.5, !up)

/-- Two restarts of a search that begins where the parabola has no value. -/
theorem walled_contract :
    Scalar.Ordered Float ∧
      Contract alternating true Simplex.walled [1.02] ⟨[-2], [4]⟩
        { Simplex.walledConfig with restarts := 2 }
        (searchWith alternating true Simplex.walled [1.02] ⟨[-2], [4]⟩
          { Simplex.walledConfig with restarts := 2 }) :=
  ⟨inferInstance, searchWith_contract alternating true Simplex.walled [1.02] ⟨[-2], [4]⟩
    { Simplex.walledConfig with restarts := 2 }⟩

end ParameterScan.Restart
