import ParameterScan.Proofs.Minimize.Simplex
import ParameterScan.Proofs.Minimize.Trail
import ParameterScan.Proofs.Scalar.Double

/-!
# The books of a simplex search

What a search has evaluated is on its trail, and the outcome is the lowest reading on it: a point
that is thrown away is never below the best vertex. The budget is overrun by less than the cost of
one round, and a search that does not report convergence has used it up.

`Runs` describes the rounds without a fuel. A simplex of `n` coordinates has the vertices `0` to
`n`; each round looks up the first one, the last one and, if it makes a move, the one before the
last, so a description by `Runs` says that these are there. A move is made only when there is a
coordinate.

The trail says all there is to say about the function: another function with the same values on it
leads to the same search.
-/
namespace ParameterScan.Simplex

variable {α : Type} [Scalar α] {f : List α → α} {box : Box α} {n : Nat} {inside : List α → Prop}
  {best worst : Vertex α} {others rest vs : List (Vertex α)} {t : Trail α}

/-- The vertex at a point. -/
def sample (f : List α → α) (x : List α) : Vertex α := ⟨x, reading (f x)⟩

theorem probe_eq (f : List α → α) (t : Trail α) (x : List α) :
    probe f t x = (sample f x, t.visitAll [x]) := by
  rw [← Trail.visit_eq]
  rfl

theorem probeAll_eq (f : List α → α) (t : Trail α) (xs : List (List α)) :
    probeAll f t xs = (xs.map (sample f), t.visitAll xs) := by
  induction xs generalizing t with
  | nil => rfl
  | cons x xs ih =>
      simp only [probeAll, probe_eq, ih, Trail.visitAll_visitAll]
      rfl

/-- The point beyond the centre of all vertices but the worst. -/
def beyond (box : Box α) (best : Vertex α) (others : List (Vertex α)) (worst : Vertex α) (s : α) :
    List α :=
  along box (centroid (best :: others).length (best :: others)) worst.point s

/-- The points of a shrinking. -/
def shrunken (best : Vertex α) (others : List (Vertex α)) (worst : Vertex α) : List (List α) :=
  (others ++ [worst]).map fun v => halfway best.point v.point

/-- The factor of a contraction. -/
def contraction (reflected worst : α) : α := if reflected < worst then 0.5 else -0.5

/-- The five outcomes of a move, each with the points that it has taken to get there. -/
theorem move_eq (f : List α → α) (box : Box α) (best : Vertex α) (others : List (Vertex α))
    (worst : Vertex α) (t : Trail α) :
    move f box best others worst t =
      let kept := best :: others
      let r := beyond box best others worst 1
      let e := beyond box best others worst 2
      let c := beyond box best others worst (contraction (sample f r).value worst.value)
      if (sample f r).value < best.value then
        (kept ++ [if (sample f e).value < (sample f r).value then sample f e else sample f r],
          t.visitAll [r, e])
      else if (sample f r).value < (others.getLastD best).value then
        (kept ++ [sample f r], t.visitAll [r])
      else if (sample f c).value < Scalar.smaller (sample f r).value worst.value then
        (kept ++ [sample f c], t.visitAll [r, c])
      else
        (best :: (shrunken best others worst).map (sample f),
          t.visitAll (r :: c :: shrunken best others worst)) := by
  simp only [move, probe_eq, probeAll_eq, Trail.visitAll_visitAll]
  rfl

/-- Another function with the same values on the trail makes the same move. -/
theorem move_congr {g : List α → α}
    (h : ∀ p ∈ (move f box best others worst t).2.points, g p = f p) :
    move g box best others worst t = move f box best others worst t := by
  have hsample {x : List α} (hx : g x = f x) : sample g x = sample f x := by
    simp only [sample, hx]
  rw [move_eq] at h
  rw [move_eq, move_eq]
  simp only at h ⊢
  split_ifs at h with hexpand hfurther hreflect hcontract
  all_goals
    simp only [Trail.mem_visitAll, List.mem_cons, List.not_mem_nil, or_false] at h
  · have hr := hsample (h _ (.inr (.inl rfl)))
    have he := hsample (h _ (.inr (.inr rfl)))
    simp only [hr, he, hexpand, if_true]
  · have hr := hsample (h _ (.inr (.inl rfl)))
    have he := hsample (h _ (.inr (.inr rfl)))
    simp only [hr, he, hexpand, if_true]
  · have hr := hsample (h _ (.inr rfl))
    simp only [hr, hexpand, hreflect, if_true, if_false]
  · have hr := hsample (h _ (.inr (.inl rfl)))
    have hc := hsample (h _ (.inr (.inr rfl)))
    simp only [hr, hc, hexpand, hreflect, hcontract, if_true, if_false]
  · have hr := hsample (h _ (.inr (.inl rfl)))
    have hc := hsample (h _ (.inr (.inr (.inl rfl))))
    have hshrunken : (shrunken best others worst).map (sample g) =
        (shrunken best others worst).map (sample f) :=
      List.map_congr_left fun x hx => hsample (h x (.inr (.inr (.inr hx))))
    simp only [hr, hc, hshrunken, hexpand, hreflect, hcontract, if_false]

theorem mem_points_move {p : List α} (h : p ∈ t.points) :
    p ∈ (move f box best others worst t).2.points := by
  rw [move_eq]
  simp only
  split_ifs <;> exact Trail.mem_visitAll.mpr (.inl h)

/-- The rounds of a search on a simplex of `n` coordinates, from vertices and a trail to the
outcome. A round that makes a move has a first vertex, a last one and one before the last. -/
inductive Runs (f : List α → α) (box : Box α) (tolerance : α) (budget n : Nat) :
    List (Vertex α) → Trail α → List (Vertex α) × Trail α × Bool → Prop
  | spent {vs : List (Vertex α)} {t : Trail α} : budget ≤ t.count →
      Runs f box tolerance budget n vs t (vs, t, false)
  | settled {best : Vertex α} {vs rest : List (Vertex α)} {t : Trail α} : t.count < budget →
      sorted vs = best :: rest → rest.length = n →
      settled tolerance best rest (rest.getLastD best) = true →
      Runs f box tolerance budget n vs t (best :: rest, t, true)
  | moved {best worst : Vertex α} {vs others : List (Vertex α)} {t : Trail α}
      {outcome : List (Vertex α) × Trail α × Bool} : t.count < budget →
      sorted vs = best :: (others ++ [worst]) → others.length + 1 = n →
      (∀ v ∈ vs, v.point.length = n) →
      Simplex.settled tolerance best (others ++ [worst]) worst = false →
      Runs f box tolerance budget n (move f box best others worst t).1
        (move f box best others worst t).2 outcome →
      Runs f box tolerance budget n vs t outcome

section Congruence

variable {g : List α → α}

theorem probeAll_congr {xs : List (List α)} (h : ∀ x ∈ xs, g x = f x) (t : Trail α) :
    probeAll g t xs = probeAll f t xs := by
  have hsamples : xs.map (sample g) = xs.map (sample f) :=
    List.map_congr_left fun x hx => by simp only [sample, h x hx]
  rw [probeAll_eq, probeAll_eq, hsamples]

theorem mem_points_descend {p : List α} (tolerance : α) (budget fuel : Nat) (h : p ∈ t.points) :
    p ∈ (descend f box tolerance budget fuel vs t).2.1.points := by
  induction fuel generalizing vs t with
  | zero => exact h
  | succ fuel ih =>
      unfold descend
      split_ifs with hbudget
      · exact h
      · split
        next => exact h
        next best rest _ =>
          simp only
          split_ifs with hsettled
          · exact h
          · exact ih (mem_points_move h)

theorem descend_congr (tolerance : α) (budget fuel : Nat)
    (h : ∀ p ∈ (descend f box tolerance budget fuel vs t).2.1.points, g p = f p) :
    descend g box tolerance budget fuel vs t = descend f box tolerance budget fuel vs t := by
  induction fuel generalizing vs t with
  | zero => rfl
  | succ fuel ih =>
      unfold descend at h ⊢
      split_ifs at h ⊢ with hbudget
      · rfl
      · cases hsorted : sorted vs with
        | nil => rfl
        | cons best rest =>
            rw [hsorted] at h
            simp only at h ⊢
            split_ifs at h ⊢ with hsettled
            · rfl
            · rw [move_congr fun p hp => h p (mem_points_descend tolerance budget fuel hp)]
              exact ih h

/-- The last simplex of a search, the trail and whether it has settled. -/
def descended (f : List α → α) (x0 : List α) (box : Box α) (cfg : SearchConfig α) :
    List (Vertex α) × Trail α × Bool :=
  descend f box cfg.tolerance (cfg.budgetFor x0.length 400) (cfg.budgetFor x0.length 400)
    (probeAll f Trail.empty (startPoints box x0)).1 (probeAll f Trail.empty (startPoints box x0)).2

theorem trail_search (f : List α → α) (x0 : List α) (box : Box α) (cfg : SearchConfig α) :
    (search f x0 box cfg).trail = (descended f x0 box cfg).2.1 := by
  unfold search descended
  simp only
  split <;> rfl

theorem search_of_sorted {x0 : List α} {cfg : SearchConfig α}
    (h : sorted (descended f x0 box cfg).1 = best :: rest) :
    search f x0 box cfg =
      ⟨best.point, best.value, (descended f x0 box cfg).2.2, (descended f x0 box cfg).2.1⟩ := by
  unfold descended at h
  unfold search
  simp only [h]
  rfl

/-- A search asks the function for no value that is not on its trail. -/
theorem search_congr {x0 : List α} {cfg : SearchConfig α}
    (h : ∀ p ∈ (search f x0 box cfg).trail.points, g p = f p) :
    search g x0 box cfg = search f x0 box cfg := by
  rw [trail_search] at h
  have hstart : probeAll g Trail.empty (startPoints box x0) =
      probeAll f Trail.empty (startPoints box x0) := by
    refine probeAll_congr (fun x hx => h x ?_) Trail.empty
    refine mem_points_descend _ _ _ ?_
    rw [probeAll_eq]
    exact Trail.mem_visitAll.mpr (.inr hx)
  unfold descended at h
  unfold search
  simp only
  rw [hstart, descend_congr _ _ _ h]

end Congruence

section Books

/-- The points of a move, and what its vertices have to do with them. -/
structure Round (f : List α → α) (inside : List α → Prop) (best : Vertex α)
    (others vs : List (Vertex α)) (xs : List (List α)) : Prop where
  contains : ∀ x ∈ xs, inside x
  pos : 0 < xs.length
  length_le : xs.length ≤ others.length + 3
  visited : ∀ v ∈ vs, v ∈ best :: others ∨ v.point ∈ xs
  lowest : ∀ x ∈ xs, ∃ v ∈ vs, v.value ≤ reading (f x)

/-- A point may be thrown away when the one that is kept is no higher, or the best vertex is. -/
theorem round_replace {x : List α} {xs : List (List α)} (hcontains : ∀ y ∈ xs, inside y)
    (hlength : xs.length ≤ 2) (hx : x ∈ xs)
    (hle : ∀ y ∈ xs, reading (f x) ≤ reading (f y) ∨ best.value ≤ reading (f y)) :
    Round f inside best others (best :: others ++ [sample f x]) xs := by
  refine ⟨hcontains, List.length_pos_of_mem hx, by omega, ?_, ?_⟩
  · intro v hv
    rcases List.mem_append.mp hv with hv | hv
    · exact .inl hv
    · rw [List.mem_singleton.mp hv]
      exact .inr hx
  · intro y hy
    rcases hle y hy with hle | hle
    · exact ⟨sample f x, List.mem_append_right _ (List.mem_singleton_self _), hle⟩
    · exact ⟨best, List.mem_cons_self, hle⟩

/-- A simplex of `n` coordinates whose books are kept: its vertices are on the trail, and no point
of the trail is below all of them. -/
structure Tracked (f : List α → α) (inside : List α → Prop) (n : Nat) (vs : List (Vertex α))
    (t : Trail α) : Prop where
  length_eq : vs.length = n + 1
  faithful : ∀ v ∈ vs, v.Faithful f inside
  visited : ∀ v ∈ vs, v.point ∈ t.points
  lowest : ∀ p ∈ t.points, ∃ v ∈ vs, v.value ≤ reading (f p)
  contains : ∀ p ∈ t.points, inside p
  exact : t.Exact

/-- Sorting loses no vertex. -/
theorem Tracked.of_sorted {n : Nat} (h : Tracked f inside n vs t)
    (hsorted : sorted vs = best :: rest) : Tracked f inside n (best :: rest) t := by
  have hmem := mem_of_sorted hsorted
  refine ⟨?_, fun v hv => h.faithful v ((hmem v).mp hv), fun v hv => h.visited v ((hmem v).mp hv),
    fun p hp => ?_, h.contains, h.exact⟩
  · rw [← hsorted, sorted, List.length_mergeSort]
    exact h.length_eq
  · obtain ⟨v, hv, hle⟩ := h.lowest p hp
    exact ⟨v, (hmem v).mpr hv, hle⟩

theorem Tracked.exists_sorted {n : Nat} (h : Tracked f inside n vs t) :
    ∃ best rest, sorted vs = best :: rest := by
  refine List.exists_cons_of_length_eq_add_one (n := n) ?_
  rw [sorted, List.length_mergeSort]
  exact h.length_eq

variable [Scalar.Ordered α]

open Scalar Scalar.Ordered

theorem reading_le_of_not_lt {x y : List α} (h : ¬(sample f x).value < (sample f y).value) :
    reading (f y) ≤ reading (f x) :=
  le_of_not_lt (isNaN_reading (f x)) (isNaN_reading (f y)) h

theorem round_move (hbox : box.Retains n inside)
    (hkept : ∀ v ∈ best :: others, v.Faithful f inside) (hworst : worst.Faithful f inside)
    (henough : n ≤ (best :: others).length) (hle : best.value ≤ worst.value)
    (t : Trail α) :
    ∃ xs, (move f box best others worst t).2 = t.visitAll xs ∧
      Round f inside best others (move f box best others worst t).1 xs := by
  have hbeyond (s : α) : inside (beyond box best others worst s) :=
    contains_along hbox hkept hworst henough s
  have hhalf : ∀ x ∈ shrunken best others worst, inside x := by
    intro x hx
    obtain ⟨v, hv, rfl⟩ := List.mem_map.mp hx
    refine hbox.halfway (hkept best List.mem_cons_self).contains ?_
    rcases List.mem_append.mp hv with hv | hv
    · exact (hkept v (List.mem_cons_of_mem best hv)).contains
    · rw [List.mem_singleton.mp hv]
      exact hworst.contains
  have hrefl (x : List α) : reading (f x) ≤ reading (f x) :=
    le_refl_of_not_nan (isNaN_reading (f x))
  have habove {x : List α} (h : ¬(sample f x).value < best.value) : best.value ≤ reading (f x) :=
    le_of_not_lt (isNaN_reading (f x)) (isNaN_left hle) h
  rw [move_eq]
  simp only
  split_ifs with hexpand hfurther hreflect hcontract
  · refine ⟨_, rfl, round_replace ?_ (Nat.le_refl 2) (by simp) ?_⟩
    · simp [hbeyond]
    · simp only [List.forall_mem_cons]
      exact ⟨.inl (le_of_lt hfurther), .inl (hrefl _), by simp⟩
  · refine ⟨_, rfl, round_replace ?_ (Nat.le_refl 2) (by simp) ?_⟩
    · simp [hbeyond]
    · simp only [List.forall_mem_cons]
      exact ⟨.inl (hrefl _), .inl (reading_le_of_not_lt hfurther), by simp⟩
  · refine ⟨_, rfl, round_replace ?_ (Nat.le_succ 1) (by simp) ?_⟩
    · simp [hbeyond]
    · simp only [List.forall_mem_cons]
      exact ⟨.inl (hrefl _), by simp⟩
  · refine ⟨_, rfl, round_replace ?_ (Nat.le_refl 2) (by simp) ?_⟩
    · simp [hbeyond]
    · simp only [List.forall_mem_cons]
      exact ⟨.inr (habove hexpand), .inl (hrefl _), by simp⟩
  · refine ⟨_, rfl, ?_, by simp, by simp [shrunken], ?_, ?_⟩
    · simp only [List.forall_mem_cons]
      exact ⟨hbeyond _, hbeyond _, hhalf⟩
    · refine List.forall_mem_cons.mpr ⟨.inl List.mem_cons_self, fun v hv => ?_⟩
      obtain ⟨x, hx, rfl⟩ := List.mem_map.mp hv
      exact .inr (List.mem_cons_of_mem _ (List.mem_cons_of_mem _ hx))
    · -- The contracted point is no lower than the lower one of two that are above the best.
      have hsmaller : best.value ≤
          smaller (sample f (beyond box best others worst 1)).value worst.value :=
        le_smaller hle fun _ => habove hexpand
      have hc := le_trans hsmaller (le_of_not_lt (isNaN_reading _) (isNaN_right hsmaller) hcontract)
      refine List.forall_mem_cons.mpr ⟨⟨best, List.mem_cons_self, habove hexpand⟩,
        List.forall_mem_cons.mpr ⟨⟨best, List.mem_cons_self, hc⟩, fun x hx => ?_⟩⟩
      exact ⟨sample f x, List.mem_cons_of_mem _ (List.mem_map_of_mem hx), hrefl x⟩

theorem Tracked.le_of_sorted (h : Tracked f inside n vs t)
    (hsorted : sorted vs = best :: rest) : ∀ v ∈ vs, best.value ≤ v.value :=
  Simplex.le_of_sorted (fun v hv => (h.faithful v hv).isNaN_value) hsorted

/-- A move keeps the books. -/
theorem Tracked.move (hbox : box.Retains n inside)
    (h : Tracked f inside n vs t) (hsorted : sorted vs = best :: (others ++ [worst])) :
    ∃ xs, (move f box best others worst t).2 = t.visitAll xs ∧ 0 < xs.length ∧ xs.length ≤ n + 2 ∧
      Tracked f inside n (Simplex.move f box best others worst t).1 (t.visitAll xs) := by
  have hold := h.of_sorted hsorted
  have hlength : others.length + 2 = n + 1 := by simpa using hold.length_eq
  have hmem : worst ∈ best :: (others ++ [worst]) := by simp
  have hkept : ∀ v ∈ best :: others, v ∈ best :: (others ++ [worst]) := by
    intro v hv
    rcases List.mem_cons.mp hv with rfl | hv
    · exact List.mem_cons_self
    · exact List.mem_cons_of_mem best (List.mem_append_left _ hv)
  have hfaithful : ∀ v ∈ best :: others, v.Faithful f inside :=
    fun v hv => hold.faithful v (hkept v hv)
  have hworst := hold.faithful worst hmem
  have henough : n ≤ (best :: others).length := by
    rw [List.length_cons]
    omega
  have hle := h.le_of_sorted hsorted worst ((mem_of_sorted hsorted worst).mp hmem)
  have hmoved := moved_move hbox hfaithful hworst henough t
  obtain ⟨xs, htrail, hround⟩ := round_move hbox hfaithful hworst henough hle t
  have hxs := hround.length_le
  refine ⟨xs, htrail, hround.pos, by omega, ?_, hmoved.faithful, ?_, ?_, ?_, h.exact.visitAll xs⟩
  · rw [hmoved.length_eq, List.length_cons]
    omega
  · intro v hv
    rcases hround.visited v hv with hv | hv
    · exact Trail.mem_visitAll.mpr (.inl (hold.visited v (hkept v hv)))
    · exact Trail.mem_visitAll.mpr (.inr hv)
  · intro p hp
    rcases Trail.mem_visitAll.mp hp with hp | hp
    · -- A vertex that has gone is no lower than the best one, which stays.
      obtain ⟨v, hv, hvp⟩ := h.lowest p hp
      exact ⟨best, hmoved.best_mem, le_trans (h.le_of_sorted hsorted v hv) hvp⟩
    · exact hround.lowest p hp
  · intro p hp
    rcases Trail.mem_visitAll.mp hp with hp | hp
    · exact h.contains p hp
    · exact hround.contains p hp

variable {tolerance : α} {budget : Nat} {outcome : List (Vertex α) × Trail α × Bool}

/-- The fuel of a search is enough, since each round but the last makes an evaluation. -/
theorem Tracked.runs_descend (hbox : box.Retains n inside)
    (h : Tracked f inside n vs t) (tolerance : α) {budget fuel : Nat}
    (hfuel : budget ≤ t.count + fuel) :
    Runs f box tolerance budget n vs t (descend f box tolerance budget fuel vs t) := by
  induction fuel generalizing vs t with
  | zero => exact .spent hfuel
  | succ fuel ih =>
      unfold descend
      split_ifs with hbudget
      · exact .spent hbudget
      · have hcount := Nat.lt_of_not_le hbudget
        split
        next hsorted =>
          have hlength := h.length_eq
          rw [← List.length_mergeSort, ← sorted, hsorted] at hlength
          cases hlength
        next best rest hsorted =>
          have hrest : rest.length = n := Nat.succ.inj (h.of_sorted hsorted).length_eq
          simp only
          split_ifs with hsettled
          · exact .settled hcount hsorted hrest hsettled
          · rcases List.eq_nil_or_concat' rest with rfl | ⟨others, worst, rfl⟩
            · -- A simplex of one vertex is small.
              simp [settled] at hsettled
            · obtain ⟨xs, htrail, hpos, -, hmoved⟩ := h.move hbox hsorted
              rw [List.length_append, List.length_singleton] at hrest
              rw [List.getLastD_concat] at hsettled
              rw [List.dropLast_concat, List.getLastD_concat]
              have hlength : ∀ v ∈ vs, v.point.length = n := fun v hv =>
                hbox.length_eq (h.faithful v hv).contains
              refine .moved hcount hsorted hrest hlength (by simpa using hsettled) ?_
              rw [htrail]
              refine ih hmoved ?_
              rw [Trail.count_visitAll]
              omega

theorem Runs.tracked (hbox : box.Retains n inside)
    (hruns : Runs f box tolerance budget n vs t outcome) (h : Tracked f inside n vs t) :
    Tracked f inside n outcome.1 outcome.2.1 := by
  induction hruns with
  | spent _ => exact h
  | settled _ hsorted _ _ => exact h.of_sorted hsorted
  | moved _ hsorted _ _ _ _ ih =>
      obtain ⟨xs, htrail, -, -, hmoved⟩ := h.move hbox hsorted
      exact ih (htrail ▸ hmoved)

theorem Runs.count_le (hbox : box.Retains n inside)
    (hruns : Runs f box tolerance budget n vs t outcome) (h : Tracked f inside n vs t)
    (hcount : t.count ≤ budget + n + 1) : outcome.2.1.count ≤ budget + n + 1 := by
  induction hruns with
  | spent _ => exact hcount
  | settled _ _ _ _ => exact hcount
  | moved hbudget hsorted _ _ _ _ ih =>
      obtain ⟨xs, htrail, -, hlength, hmoved⟩ := h.move hbox hsorted
      refine ih (htrail ▸ hmoved) ?_
      rw [htrail, Trail.count_visitAll]
      omega

omit [Scalar.Ordered α] in
/-- A search ends without convergence for one reason. -/
theorem Runs.le_count (hruns : Runs f box tolerance budget n vs t outcome)
    (h : outcome.2.2 = false) : budget ≤ outcome.2.1.count := by
  induction hruns with
  | spent hbudget => exact hbudget
  | settled _ _ _ _ => cases h
  | moved _ _ _ _ _ _ ih => exact ih h

theorem tracked_start (hbox : box.Retains n inside) {x0 : List α}
    (hlength : x0.length = n) :
    Tracked f inside n (probeAll f Trail.empty (startPoints box x0)).1
      (probeAll f Trail.empty (startPoints box x0)).2 := by
  have hcontains := contains_startPoints hbox hlength
  refine ⟨?_, faithful_probeAll _ hcontains, ?_, ?_, ?_, ?_⟩
  · rw [length_probeAll]
    simp [startPoints, hlength]
  all_goals rw [probeAll_eq]
  · intro v hv
    obtain ⟨x, hx, rfl⟩ := List.mem_map.mp hv
    exact Trail.mem_visitAll.mpr (.inr hx)
  · intro p hp
    rcases Trail.mem_visitAll.mp hp with hp | hp
    · simp [Trail.empty] at hp
    · exact ⟨sample f p, List.mem_map_of_mem hp, le_refl_of_not_nan (isNaN_reading (f p))⟩
  · intro p hp
    rcases Trail.mem_visitAll.mp hp with hp | hp
    · simp [Trail.empty] at hp
    · exact hcontains p hp
  · exact Trail.exact_empty.visitAll _

/-- The rounds of a search come to an end at a simplex whose books are kept. -/
theorem tracked_descended (hbox : box.Retains n inside) {x0 : List α} (hlength : x0.length = n)
    (cfg : SearchConfig α) :
    Runs f box cfg.tolerance (cfg.budgetFor x0.length 400) n
        (probeAll f Trail.empty (startPoints box x0)).1
        (probeAll f Trail.empty (startPoints box x0)).2 (descended f x0 box cfg) ∧
      Tracked f inside n (descended f x0 box cfg).1 (descended f x0 box cfg).2.1 := by
  have hstart := tracked_start (f := f) hbox hlength
  have hruns : Runs f box cfg.tolerance (cfg.budgetFor x0.length 400) n _ _
      (descended f x0 box cfg) :=
    hstart.runs_descend hbox cfg.tolerance (Nat.le_add_left _ _)
  exact ⟨hruns, hruns.tracked hbox hstart⟩

/-- What the books of a search say of its outcome. -/
structure Accounted (f : List α → α) (box : Box α) (x0 : List α) (budget : Nat) (m : Minimum α) :
    Prop where
  lowest : ∀ p ∈ m.trail.points, m.value ≤ reading (f p)
  point_mem : m.point ∈ m.trail.points
  value_eq : m.value = reading (f m.point)
  start_mem : box.clamp x0 ∈ m.trail.points
  length_eq : ∀ p ∈ m.trail.points, p.length = x0.length
  evaluations_eq : m.evaluations = m.trail.points.size
  evaluations_le : m.evaluations ≤ budget + x0.length + 1
  le_evaluations : m.converged = false → budget ≤ m.evaluations

/-- The rounds of a search come to an end, and it reports the best vertex of the last simplex. -/
def Ends (f : List α → α) (box : Box α) (x0 : List α) (cfg : SearchConfig α) (m : Minimum α) :
    Prop :=
  ∃ best rest vs, sorted vs = best :: rest ∧ m.point = best.point ∧ m.value = best.value ∧
    Runs f box cfg.tolerance (cfg.budgetFor x0.length 400) x0.length
      (probeAll f Trail.empty (startPoints box x0)).1
      (probeAll f Trail.empty (startPoints box x0)).2 (vs, m.trail, m.converged)

theorem ends_search (hbox : box.Retains n inside) {x0 : List α} (hlength : x0.length = n)
    (cfg : SearchConfig α) : Ends f box x0 cfg (search f x0 box cfg) := by
  obtain ⟨hruns, hend⟩ := tracked_descended (f := f) hbox hlength cfg
  obtain ⟨best, rest, hsorted⟩ := hend.exists_sorted
  rw [search_of_sorted hsorted]
  exact ⟨best, rest, _, hsorted, rfl, rfl, hlength ▸ hruns⟩

theorem accounted_search (hbox : box.Retains n inside) {x0 : List α} (hlength : x0.length = n)
    (cfg : SearchConfig α) :
    Accounted f box x0 (cfg.budgetFor x0.length 400) (search f x0 box cfg) := by
  obtain ⟨hruns, hend⟩ := tracked_descended (f := f) hbox hlength cfg
  obtain ⟨best, rest, hsorted⟩ := hend.exists_sorted
  have hbest := hend.of_sorted hsorted
  have hmem := List.mem_cons_self (a := best) (l := rest)
  rw [search_of_sorted hsorted]
  refine ⟨?_, hbest.visited best hmem, (hbest.faithful best hmem).value_eq, ?_, ?_, hend.exact,
    ?_, hruns.le_count⟩
  · intro p hp
    obtain ⟨v, hv, hvp⟩ := hend.lowest p hp
    exact le_trans (hend.le_of_sorted hsorted v hv) hvp
  · refine mem_points_descend _ _ _ ?_
    rw [probeAll_eq]
    exact Trail.mem_visitAll.mpr (.inr List.mem_cons_self)
  · exact fun p hp => (hbox.length_eq (hend.contains p hp)).trans hlength.symm
  · have hcount := hruns.count_le hbox (tracked_start hbox hlength) (by
      rw [probeAll_eq]
      simp [startPoints, Trail.empty, hlength])
    rwa [← hlength] at hcount

/-- The books are right for any function, any start and any tuning: the rounds come to an end, the
outcome is the lowest reading on the trail, and the function is asked for nothing else. -/
theorem search_keeps_books (f : List α → α) {x0 : List α} {box : Box α}
    (hlength : x0.length = box.lower.length) (cfg : SearchConfig α) :
    Ends f box x0 cfg (search f x0 box cfg) ∧
      Accounted f box x0 (cfg.budgetFor x0.length 400) (search f x0 box cfg) ∧
      ∀ g, (∀ p ∈ (search f x0 box cfg).trail.points, g p = f p) →
        search g x0 box cfg = search f x0 box cfg := by
  have hbox := box.retains_length box.lower.length
  exact ⟨ends_search hbox hlength cfg, accounted_search hbox hlength cfg,
    fun g hg => search_congr hg⟩

end Books

/-- A parabola with no values from one upwards. -/
def walled (p : List Float) : Float :=
  if 1 < p.getD 0 0 then Double.nan else p.getD 0 0 * p.getD 0 0

def walledConfig : SearchConfig Float := { tolerance := 1e-10, budget := some 3 }

/-- A search that starts where the parabola has no value, with a budget of one vertex more than the
first simplex has. -/
theorem walled_books :
    ([1.02] : List Float).length = (⟨[-2], [4]⟩ : Box Float).lower.length ∧
      Ends walled ⟨[-2], [4]⟩ [1.02] walledConfig (search walled [1.02] ⟨[-2], [4]⟩ walledConfig) ∧
      Accounted walled ⟨[-2], [4]⟩ [1.02] 3 (search walled [1.02] ⟨[-2], [4]⟩ walledConfig) :=
  have hlength : ([1.02] : List Float).length = (⟨[-2], [4]⟩ : Box Float).lower.length := rfl
  have hbooks := search_keeps_books walled hlength walledConfig
  ⟨hlength, hbooks.1, hbooks.2.1⟩

end ParameterScan.Simplex
