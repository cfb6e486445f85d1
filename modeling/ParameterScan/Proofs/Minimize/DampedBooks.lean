import ParameterScan.Proofs.Minimize.DampedRun

/-!
# The books of a damped search

The states that a search accepts have falling values, and the outcome is the last of them. Each is
in the box, has residuals there, and its value is their squared length. All that is asked of the
steps is their number of coordinates.

The trial points are in the box, the points of a Jacobian need not be: a forward step from an upper
limit leaves it. The evaluations are counted when the Jacobian is complete, so the count is that of
the trail unless the search ends at a Jacobian without one.
-/
namespace ParameterScan.DampedLeastSquares

open ParameterScan.Derivative (forwardPoints ahead forwardStep)

variable {α : Type} [Scalar α] {propose : Proposal α} {resid : List α → Option (List α)}
  {box : Box α} {tolerance : α} {budget : Nat} {values : List (List α)} {s s' : State α}

section Congruence

variable {g : List α → Option (List α)}

omit [Scalar α] in
theorem evaluateAll_congr {xs : List (List α)}
    (h : ∀ x ∈ (evaluateAll resid xs).1, g x = resid x) :
    evaluateAll g xs = evaluateAll resid xs := by
  induction xs with
  | nil => rfl
  | cons x xs ih =>
      unfold evaluateAll at h ⊢
      cases hr : resid x with
      | none =>
          simp only [hr, List.mem_singleton, forall_eq] at h
          simp only [h]
      | some r =>
          simp only [hr, List.forall_mem_cons] at h
          simp only [h.1, ih h.2]

theorem mem_points_tryDampings {p : List α} (tolerance : α) (budget fuel : Nat)
    (h : p ∈ s.trail.points) :
    p ∈ (tryDampings propose resid box tolerance budget values fuel s).1.trail.points := by
  induction fuel generalizing s with
  | zero => exact h
  | succ fuel ih =>
      unfold tryDampings
      split_ifs with hopen
      · split
        · exact ih h
        · simp only
          split
          · exact ih (Trail.mem_visit.mpr (.inl h))
          · split_ifs with hlt
            · exact Trail.mem_visit.mpr (.inl h)
            · exact ih (Trail.mem_visit.mpr (.inl h))
      · exact h

theorem tryDampings_congr (tolerance : α) (budget fuel : Nat)
    (h : ∀ p ∈ (tryDampings propose resid box tolerance budget values fuel s).1.trail.points,
      g p = resid p) :
    tryDampings propose g box tolerance budget values fuel s =
      tryDampings propose resid box tolerance budget values fuel s := by
  induction fuel generalizing s with
  | zero => rfl
  | succ fuel ih =>
      unfold tryDampings at h ⊢
      split_ifs at h ⊢ with hopen
      · cases hstep : propose s.point s.resid values s.damping with
        | none =>
            simp only [hstep] at h ⊢
            exact ih h
        | some step =>
            simp only [hstep] at h ⊢
            have hvisited : s.stepped box step ∈ (s.trail.visit (s.stepped box step)).points :=
              Trail.mem_visit.mpr (.inr rfl)
            cases hr : resid (s.stepped box step) with
            | none =>
                unfold State.stepped at hr hvisited
                simp only [hr] at h
                rw [(h _ (mem_points_tryDampings _ _ _ hvisited)).trans hr, hr]
                exact ih h
            | some r =>
                unfold State.stepped at hr hvisited
                simp only [hr] at h
                split_ifs at h with hlt
                · simp only [(h _ hvisited).trans hr, hr, hlt, if_true]
                · simp only [(h _ (mem_points_tryDampings _ _ _ hvisited)).trans hr, hr, hlt,
                    if_false]
                  exact ih h
      · rfl

theorem mem_points_conclude {p : List α} {next : State α → Minimum α} {o : State α × Option Bool}
    (hnext : ∀ s : State α, p ∈ s.trail.points → p ∈ (next s).trail.points)
    (h : p ∈ o.1.trail.points) : p ∈ (conclude next o).trail.points := by
  rcases o with ⟨s, _ | _ | _⟩
  · exact h
  · exact hnext s h
  · exact h

theorem mem_points_descend {p : List α} (tolerance : α) (budget fuel : Nat)
    (h : p ∈ s.trail.points) :
    p ∈ (descend propose resid box tolerance budget fuel s).trail.points := by
  induction fuel generalizing s with
  | zero => exact h
  | succ fuel ih =>
      rw [descend_succ]
      split_ifs with hbudget hzero
      · exact h
      · exact h
      · split
        · exact Trail.mem_glance.mpr (.inl h)
        · refine mem_points_conclude (fun s => ih) (mem_points_tryDampings _ _ _ ?_)
          exact Trail.mem_visitAll.mpr (.inl h)

theorem descend_congr (tolerance : α) (budget fuel : Nat)
    (h : ∀ p ∈ (descend propose resid box tolerance budget fuel s).trail.points, g p = resid p) :
    descend propose g box tolerance budget fuel s =
      descend propose resid box tolerance budget fuel s := by
  induction fuel generalizing s with
  | zero => rfl
  | succ fuel ih =>
      rw [descend_succ] at h ⊢
      rw [descend_succ]
      split_ifs at h ⊢ with hbudget hzero
      · rfl
      · rfl
      · cases heval : evaluateAll resid (forwardPoints s.point) with
        | mk used values =>
          have heval' (hused : ∀ p ∈ used, g p = resid p) :
              evaluateAll g (forwardPoints s.point) = (used, values) := by
            rw [evaluateAll_congr (by rwa [heval]), heval]
          rw [heval] at h
          cases values with
          | none => rw [heval' fun p hp => h p (Trail.mem_glance.mpr (.inr hp))]
          | some values =>
              obtain rfl := evaluateAll_fst_of_some heval
              simp only at h ⊢
              have htried (p : List α) (hp : p ∈ (tryDampings propose resid box tolerance budget
                  values maxTrials s.differentiated).1.trail.points) : g p = resid p :=
                h p (mem_points_conclude (fun s => mem_points_descend _ _ _) hp)
              rw [heval' fun p hp =>
                htried p (mem_points_tryDampings _ _ _ (Trail.mem_visitAll.mpr (.inr hp)))]
              simp only
              rw [tryDampings_congr _ _ _ htried]
              generalize tryDampings propose resid box tolerance budget values maxTrials
                s.differentiated = o at h
              rcases o with ⟨s', _ | _ | _⟩
              · rfl
              · exact ih h
              · rfl

theorem searchWith_congr {x0 : List α} {cfg : SearchConfig α} {m : Minimum α}
    (hm : searchWith propose resid x0 box cfg = some m)
    (h : ∀ p ∈ m.trail.points, g p = resid p) : searchWith propose g x0 box cfg = some m := by
  obtain ⟨r, hr, rfl⟩ := Option.map_eq_some_iff.mp hm
  have hstart : g (box.clamp x0) = some r :=
    (h _ (mem_points_descend _ _ _ (Trail.mem_visit.mpr (.inr rfl)))).trans hr
  unfold searchWith
  simp only
  rw [hstart, Option.map_some, descend_congr _ _ _ h]

end Congruence

section Invariants

variable {start : α} {o : State α × Option Bool} {accepted : List (State α)} {m : Minimum α}

/-- What the trials of a round do to a state. -/
structure Tried (resid : List α → Option (List α)) (box : Box α) (budget : Nat) (start : α)
    (s s' : State α) (met : Option Bool) : Prop where
  sound : s'.Sound resid box.Contains start
  visited : ∃ xs, s'.trail = s.trail.visitAll xs ∧ (∀ x ∈ xs, box.Contains x) ∧
    (s'.point = s.point ∨ s'.point ∈ xs)
  count_le : s'.trail.count ≤ max s.trail.count budget
  stays : met = none → s'.point = s.point ∧ s'.value = s.value
  falls : met ≠ none → s'.value < s.value

section Round

variable {met : Option Bool}

/-- The points of a round are those of the Jacobian and the trials, which are in the box. -/
theorem Tried.mem_points (h : Tried resid box budget start s.differentiated s' met)
    (accepted : List (State α)) {p : List α} (hp : p ∈ s'.trail.points) :
    p ∈ s.trail.points ∨ box.Contains p ∨ ∃ t ∈ s :: accepted, p ∈ forwardPoints t.point := by
  obtain ⟨xs, htrail, hxs, -⟩ := h.visited
  rw [htrail] at hp
  simp only [State.trail_differentiated, Trail.mem_visitAll] at hp
  rcases hp with (hp | hp) | hp
  · exact .inl hp
  · exact .inr (.inr ⟨s, List.mem_cons_self, hp⟩)
  · exact .inr (.inl (hxs p hp))

theorem Tried.of_mem_points (h : Tried resid box budget start s.differentiated s' met) {p : List α}
    (hp : p ∈ s.trail.points) : p ∈ s'.trail.points := by
  obtain ⟨xs, htrail, -, -⟩ := h.visited
  rw [htrail]
  exact Trail.mem_visitAll.mpr (.inl (Trail.mem_visitAll.mpr (.inl hp)))

theorem Tried.point_mem (h : Tried resid box budget start s.differentiated s' met)
    (hs : s.point ∈ s.trail.points) : s'.point ∈ s'.trail.points := by
  obtain ⟨xs, htrail, -, hpoint | hpoint⟩ := h.visited
  · rw [hpoint]
    exact h.of_mem_points hs
  · rw [htrail]
    exact Trail.mem_visitAll.mpr (.inr hpoint)

theorem Tried.exact (h : Tried resid box budget start s.differentiated s' met)
    (hs : s.trail.Exact) : s'.trail.Exact := by
  obtain ⟨xs, htrail, -, -⟩ := h.visited
  rw [htrail]
  exact (hs.visitAll _).visitAll xs

/-- A Jacobian is taken as long as one evaluation is left, and then counts all of its points. -/
theorem Tried.count_le_budget (h : Tried resid box budget start s.differentiated s' met)
    (hcount : s.trail.count < budget) (hlength : s.point.length = box.lower.length) :
    s'.trail.count ≤ budget + max box.lower.length 1 - 1 := by
  have hle := h.count_le
  simp only [State.trail_differentiated, Trail.count_visitAll, length_forwardPoints] at hle
  omega

end Round

variable [Scalar.Ordered α]

open Scalar Scalar.Ordered

theorem contains_stepped (hpropose : propose.Even) (hbox : box.InOrder)
    (hcontains : box.Contains s.point) {step : List α}
    (hstep : propose s.point s.resid values s.damping = some step) :
    box.Contains (s.stepped box step) := by
  refine hbox.contains_clamp ?_
  rw [List.length_zipWith, hpropose _ _ _ _ _ hstep, Nat.min_self]
  exact hcontains.length_eq

theorem Tries.tried (hpropose : propose.Even) (hbox : box.InOrder)
    (h : Tries propose resid box tolerance budget values s o)
    (hs : s.Sound resid box.Contains start) : Tried resid box budget start s o.1 o.2 := by
  induction h with
  | @ended s _ =>
      refine ⟨hs, ⟨[], s.trail.visitAll_nil.symm, ?_, .inl rfl⟩, Nat.le_max_left _ _, ?_, ?_⟩
      · simp
      · exact fun _ => ⟨rfl, rfl⟩
      · exact fun hmet => absurd rfl hmet
  | unsolved _ _ _ ih =>
      have htried := ih (hs.update _ _)
      exact ⟨htried.sound, htried.visited, htried.count_le, htried.stays, htried.falls⟩
  | @uphill s o step hopen hstep _ _ ih =>
      have htried := ih (hs.update _ _)
      have hx := contains_stepped hpropose hbox hs.contains hstep
      obtain ⟨xs, htrail, hxs, hpoint⟩ := htried.visited
      have hcount := htried.count_le
      have hbudget := hopen.2
      refine ⟨htried.sound, ⟨s.stepped box step :: xs, ?_, ?_, ?_⟩, ?_, htried.stays, htried.falls⟩
      · rw [htrail, Trail.visit_eq, Trail.visitAll_visitAll]
        rfl
      · exact List.forall_mem_cons.mpr ⟨hx, hxs⟩
      · exact hpoint.imp_right (List.mem_cons_of_mem _)
      · simp only [Trail.visit] at hcount
        omega
  | @downhill s step r hopen hstep hr hlt =>
      have hx := contains_stepped hpropose hbox hs.contains hstep
      refine ⟨⟨hx, hr, rfl, .inr (lt_of_descended hs.descended hlt)⟩,
        ⟨[s.stepped box step], Trail.visit_eq _ _, ?_, .inr (List.mem_singleton_self _)⟩, ?_, ?_,
        ?_⟩
      · exact List.forall_mem_singleton.mpr hx
      · exact Nat.le_trans hopen.2 (Nat.le_max_right _ _)
      · exact fun hmet => absurd hmet (Option.some_ne_none _)
      · exact fun _ => hlt

/-- The states that a search has accepted, and the outcome at the last of them. -/
structure Descent (resid : List α → Option (List α)) (box : Box α) (start : α) (s : State α)
    (accepted : List (State α)) (m : Minimum α) : Prop where
  sound : ∀ t ∈ s :: accepted, t.Sound resid box.Contains start
  falls : (s :: accepted).Pairwise fun t u => u.value < t.value
  point_eq : m.point = (accepted.getLastD s).point
  value_eq : m.value = (accepted.getLastD s).value

theorem Runs.descent (hpropose : propose.Even) (hbox : box.InOrder)
    (h : Runs propose resid box tolerance budget s accepted m)
    (hs : s.Sound resid box.Contains start) : Descent resid box start s accepted m := by
  induction h with
  | spent _ => exact ⟨by simpa using hs, by simp, rfl, rfl⟩
  | exact _ _ => exact ⟨by simpa using hs, by simp, rfl, rfl⟩
  | blind _ _ _ => exact ⟨by simpa using hs, by simp, rfl, rfl⟩
  | stuck _ _ _ htries =>
      have hstays := (htries.tried hpropose hbox (hs.update _ _)).stays rfl
      exact ⟨by simpa using hs, by simp, hstays.1, hstays.2⟩
  | settled _ _ _ htries =>
      have htried := htries.tried hpropose hbox (hs.update _ _)
      have hfalls := htried.falls nofun
      exact ⟨by simpa using ⟨hs, htried.sound⟩, by simpa using hfalls, rfl, rfl⟩
  | @next s s' values accepted m _ _ _ htries _ ih =>
      have htried := htries.tried hpropose hbox (hs.update _ _)
      have hfalls := htried.falls nofun
      have hrest := ih htried.sound
      refine ⟨List.forall_mem_cons.mpr ⟨hs, hrest.sound⟩,
        List.pairwise_cons.mpr ⟨?_, hrest.falls⟩, ?_, ?_⟩
      · refine List.forall_mem_cons.mpr ⟨hfalls, fun t ht => ?_⟩
        exact lt_of_lt_of_le ((List.pairwise_cons.mp hrest.falls).1 t ht) (le_of_lt hfalls)
      · rw [List.getLastD_cons]
        exact hrest.point_eq
      · rw [List.getLastD_cons]
        exact hrest.value_eq

/-- What the trail of a search says of it: which points were used, and how many. -/
structure Booked (box : Box α) (budget : Nat) (s : State α) (accepted : List (State α))
    (m : Minimum α) : Prop where
  points : ∀ p ∈ m.trail.points, p ∈ s.trail.points ∨ box.Contains p ∨
    ∃ t ∈ s :: accepted, p ∈ forwardPoints t.point
  visited : ∀ p ∈ s.trail.points, p ∈ m.trail.points
  accepted : ∀ t ∈ accepted, t.point ∈ m.trail.points
  exact : s.trail.Exact → m.converged = true → m.trail.Exact
  count_le : m.trail.count ≤ max s.trail.count (budget + max box.lower.length 1 - 1)

theorem Runs.booked (hpropose : propose.Even) (hbox : box.InOrder)
    (h : Runs propose resid box tolerance budget s accepted m)
    (hs : s.Sound resid box.Contains start) (hpoint : s.point ∈ s.trail.points) :
    Booked box budget s accepted m := by
  induction h with
  | spent _ =>
      exact ⟨fun p => .inl, fun p => id, nofun, fun hexact _ => hexact, Nat.le_max_left _ _⟩
  | exact _ _ =>
      exact ⟨fun p => .inl, fun p => id, nofun, fun hexact _ => hexact, Nat.le_max_left _ _⟩
  | @blind s used _ _ heval =>
      have hused : used <+: forwardPoints s.point := by
        have hprefix := evaluateAll_fst_isPrefix resid (forwardPoints s.point)
        rwa [heval] at hprefix
      refine ⟨fun p hp => ?_, fun p hp => Trail.mem_glance.mpr (.inl hp), nofun, nofun,
        Nat.le_max_left _ _⟩
      rcases Trail.mem_glance.mp hp with hp | hp
      · exact .inl hp
      · exact .inr (.inr ⟨s, List.mem_cons_self, hused.subset hp⟩)
  | @stuck s s' values hcount _ _ htries =>
      have htried := htries.tried hpropose hbox (hs.update _ _)
      have hlast := htried.count_le_budget hcount hs.contains.length_eq
      exact ⟨fun p => htried.mem_points [], fun p => htried.of_mem_points, nofun,
        fun hexact _ => htried.exact hexact, Nat.le_trans hlast (Nat.le_max_right _ _)⟩
  | @settled s s' values hcount _ _ htries =>
      have htried := htries.tried hpropose hbox (hs.update _ _)
      have hlast := htried.count_le_budget hcount hs.contains.length_eq
      refine ⟨fun p => htried.mem_points [s'], fun p => htried.of_mem_points, ?_,
        fun hexact _ => htried.exact hexact, Nat.le_trans hlast (Nat.le_max_right _ _)⟩
      exact List.forall_mem_singleton.mpr (htried.point_mem hpoint)
  | @next s s' values accepted m hcount _ _ htries _ ih =>
      have htried := htries.tried hpropose hbox (hs.update _ _)
      have hrest := ih htried.sound (htried.point_mem hpoint)
      refine ⟨fun p hp => ?_, fun p hp => hrest.visited p (htried.of_mem_points hp), ?_,
        fun hexact => hrest.exact (htried.exact hexact), ?_⟩
      · rcases hrest.points p hp with hp | hp | ⟨t, ht, hp⟩
        · exact htried.mem_points (s' :: accepted) hp
        · exact .inr (.inl hp)
        · exact .inr (.inr ⟨t, List.mem_cons_of_mem s ht, hp⟩)
      · refine List.forall_mem_cons.mpr ⟨?_, hrest.accepted⟩
        exact hrest.visited _ (htried.point_mem hpoint)
      · have hfirst : s'.trail.count ≤ _ := htried.count_le_budget hcount hs.contains.length_eq
        have hlater := hrest.count_le
        omega

end Invariants

section Search

/-- The state in which a search starts. -/
def startState (box : Box α) (x0 r : List α) : State α :=
  ⟨box.clamp x0, r, Scalar.sumSq r, 1e-3, Trail.empty.visit (box.clamp x0)⟩

/-- What a search promises about its outcome, from residuals `r` at the start. -/
structure Contract (resid : List α → Option (List α)) (box : Box α) (x0 r : List α) (budget : Nat)
    (m : Minimum α) : Prop where
  contains : box.Contains m.point
  value_eq : ∃ q, resid m.point = some q ∧ m.value = Scalar.sumSq q
  lower : m.point = box.clamp x0 ∨ m.value < Scalar.sumSq r
  evaluations_le : m.evaluations ≤ max 1 (budget + max x0.length 1 - 1)
  evaluations_eq : m.converged = true → m.evaluations = m.trail.points.size

/-- The outcome of a search that has accepted no state is the start, and any other is below it. -/
theorem Descent.lower {start : α} {accepted : List (State α)} {m : Minimum α}
    (h : Descent resid box start s accepted m) : m.point = s.point ∨ m.value < s.value := by
  cases accepted with
  | nil => exact .inl h.point_eq
  | cons t ts =>
      have hlast : (t :: ts).getLastD s ∈ t :: ts := by
        rw [List.getLastD_cons]
        exact List.getLastD_mem_cons
      exact .inr (h.value_eq ▸ (List.pairwise_cons.mp h.falls).1 _ hlast)

theorem sound_startState [Scalar.Ordered α] (hbox : box.InOrder) {x0 r : List α}
    (hlength : x0.length = box.lower.length) (hr : resid (box.clamp x0) = some r) :
    (startState box x0 r).Sound resid box.Contains (Scalar.sumSq r) :=
  ⟨hbox.contains_clamp hlength, hr, rfl, .inl rfl⟩

theorem mem_points_startState {x0 r p : List α} :
    p ∈ (startState box x0 r).trail.points ↔ p = box.clamp x0 := by
  simp [startState, Trail.empty]

theorem point_mem_startState (box : Box α) (x0 r : List α) :
    (startState box x0 r).point ∈ (startState box x0 r).trail.points :=
  mem_points_startState.mpr rfl

/-- The outcome of a search whose books are kept fulfils the contract. -/
theorem contract_of_books {x0 r : List α} {accepted : List (State α)} {m : Minimum α}
    (hlength : x0.length = box.lower.length)
    (hdescent : Descent resid box (Scalar.sumSq r) (startState box x0 r) accepted m)
    (hbooked : Booked box budget (startState box x0 r) accepted m) :
    Contract resid box x0 r budget m := by
  obtain ⟨t, ht, hpoint, hvalue⟩ : ∃ t ∈ startState box x0 r :: accepted,
      m.point = t.point ∧ m.value = t.value :=
    ⟨_, List.getLastD_mem_cons, hdescent.point_eq, hdescent.value_eq⟩
  have hsound := hdescent.sound t ht
  refine ⟨?_, ⟨t.resid, ?_, ?_⟩, hdescent.lower, ?_, ?_⟩
  · rw [hpoint]
    exact hsound.contains
  · rw [hpoint]
    exact hsound.resid_eq
  · rw [hvalue]
    exact hsound.value_eq
  · rw [hlength]
    exact hbooked.count_le
  · exact hbooked.exact (by rw [startState, Trail.visit_eq]; exact Trail.exact_empty.visitAll _)

/-- A constant that has no value above one. -/
def walled (p : List Float) : Option (List Float) :=
  if 1 < p.getD 0 0 then none else some [1]

def unitBox : Box Float := ⟨[0], [1]⟩

theorem inOrder_unitBox : unitBox.InOrder := .cons (by decide +kernel) .nil

theorem length_unitBox : ([1] : List Float).length = unitBox.lower.length := rfl

section Doubles

variable {propose : Proposal Float} {resid : List Float → Option (List Float)} {box : Box Float}
  {x0 r : List Float}

/-- A search with residuals at the start comes to an end, with its books kept. -/
theorem exists_books (hpropose : propose.Even) (hbox : box.InOrder)
    (hlength : x0.length = box.lower.length) (cfg : SearchConfig Float)
    (hr : resid (box.clamp x0) = some r) :
    ∃ m accepted, searchWith propose resid x0 box cfg = some m ∧
      Runs propose resid box cfg.tolerance (cfg.budgetFor x0.length 200) (startState box x0 r)
        accepted m ∧
      Descent resid box (Scalar.sumSq r) (startState box x0 r) accepted m ∧
      Booked box (cfg.budgetFor x0.length 200) (startState box x0 r) accepted m := by
  have hfloor : (1e-12 : Float) ≤ 1e-3 := by decide +kernel
  have hsound := sound_startState hbox hlength hr
  obtain ⟨accepted, hruns⟩ : ∃ accepted, Runs propose resid box cfg.tolerance
      (cfg.budgetFor x0.length 200) (startState box x0 r) accepted
      (descend propose resid box cfg.tolerance (cfg.budgetFor x0.length 200)
        (cfg.budgetFor x0.length 200) (startState box x0 r)) :=
    runs_descend hfloor (Nat.le_add_left _ _)
  exact ⟨_, accepted, Option.map_eq_some_iff.mpr ⟨r, hr, rfl⟩, hruns,
    hruns.descent hpropose hbox hsound,
    hruns.booked hpropose hbox hsound (point_mem_startState box x0 r)⟩

/-- A search fails only at the start. Any other comes to an end, through states of falling values,
at an outcome that fulfils the contract, and asks for no residuals off its trail. -/
theorem searchWith_descends (hpropose : propose.Even) (hbox : box.InOrder)
    (hlength : x0.length = box.lower.length) (resid : List Float → Option (List Float))
    (cfg : SearchConfig Float) :
    (searchWith propose resid x0 box cfg = none ↔ resid (box.clamp x0) = none) ∧
      ∀ r, resid (box.clamp x0) = some r → ∃ m accepted,
        searchWith propose resid x0 box cfg = some m ∧
        Runs propose resid box cfg.tolerance (cfg.budgetFor x0.length 200) (startState box x0 r)
          accepted m ∧
        Descent resid box (Scalar.sumSq r) (startState box x0 r) accepted m ∧
        Contract resid box x0 r (cfg.budgetFor x0.length 200) m ∧
        ∀ g, (∀ p ∈ m.trail.points, g p = resid p) →
          searchWith propose g x0 box cfg = some m := by
  refine ⟨Option.map_eq_none_iff, fun r hr => ?_⟩
  obtain ⟨m, accepted, hm, hruns, hdescent, hbooked⟩ := exists_books hpropose hbox hlength cfg hr
  exact ⟨m, accepted, hm, hruns, hdescent, contract_of_books hlength hdescent hbooked,
    fun g => searchWith_congr hm⟩

/-- The constant is searched from the limit above which it has no value. -/
theorem walled_descends :
    (dampedProposal : Proposal Float).Even ∧ unitBox.InOrder ∧
      ([1] : List Float).length = unitBox.lower.length ∧
      walled (unitBox.clamp [1]) = some [1] ∧
      ∃ m, searchWith dampedProposal walled [1] unitBox default = some m ∧
        Contract walled unitBox [1] [1] 400 m := by
  have hstart : walled (unitBox.clamp [1]) = some [1] := by decide +kernel
  obtain ⟨m, accepted, hm, -, -, hcontract, -⟩ :=
    (searchWith_descends even_dampedProposal inOrder_unitBox length_unitBox walled default).2 [1]
      hstart
  exact ⟨even_dampedProposal, inOrder_unitBox, length_unitBox, hstart, m, hm, hcontract⟩

/-- A point out of the box is one that lies a forward step ahead of a point in the box, where the
step leaves the range of its coordinate. -/
theorem contains_or_ahead (hpropose : propose.Even) (hbox : box.InOrder)
    (hlength : x0.length = box.lower.length) (cfg : SearchConfig Float) {m : Minimum Float}
    (hm : searchWith propose resid x0 box cfg = some m) :
    ∀ p ∈ m.trail.points, box.Contains p ∨
      ∃ x ∈ m.trail.points, box.Contains x ∧ ∃ j : Fin x.length,
        p = ahead x j ∧ ¬box.Admits j (x[j] + forwardStep x[j]) := by
  obtain ⟨r, hr, -⟩ := Option.map_eq_some_iff.mp hm
  obtain ⟨m', accepted, hm', -, hdescent, hbooked⟩ := exists_books hpropose hbox hlength cfg hr
  obtain rfl : m' = m := Option.some.inj (hm'.symm.trans hm)
  intro p hp
  rcases hbooked.points p hp with hp | hp | ⟨t, ht, hp⟩
  · rw [mem_points_startState] at hp
    exact .inl (hp ▸ hbox.contains_clamp hlength)
  · exact .inl hp
  · have htrail : t.point ∈ m'.trail.points := by
      rcases List.mem_cons.mp ht with rfl | ht
      · exact hbooked.visited _ (point_mem_startState box x0 r)
      · exact hbooked.accepted t ht
    have hinside := (hdescent.sound t ht).contains
    obtain ⟨j, -, rfl⟩ := List.mem_map.mp hp
    by_cases hroom : box.Admits j (t.point[j] + forwardStep t.point[j])
    · exact .inl (hinside.set hroom)
    · exact .inr ⟨t.point, htrail, hinside, j, rfl, hroom⟩

/-- The search for the least of a constant, from the limit where it ends. -/
def stopped : Minimum Float := ⟨[1], 1, false, ⟨1, #[[1], [1 + 1e-7]]⟩⟩

theorem search_walled : search walled [1] unitBox default = some stopped := rfl

theorem not_contains_beyond : ¬unitBox.Contains [1 + 1e-7] := by
  intro h
  cases h with
  | cons _ hle _ => exact absurd hle (by decide +kernel)

/-- What it has seen beyond the limit lies a forward step ahead of it. -/
theorem stopped_ahead :
    (dampedProposal : Proposal Float).Even ∧ unitBox.InOrder ∧
      ([1] : List Float).length = unitBox.lower.length ∧
      searchWith dampedProposal walled [1] unitBox default = some stopped ∧
      ∃ x ∈ stopped.trail.points, unitBox.Contains x ∧ ∃ j : Fin x.length,
        [1 + 1e-7] = ahead x j ∧ ¬unitBox.Admits j (x[j] + forwardStep x[j]) := by
  have hmem : [1 + 1e-7] ∈ stopped.trail.points := by simp [stopped]
  have hor := contains_or_ahead even_dampedProposal inOrder_unitBox length_unitBox default
    search_walled _ hmem
  exact ⟨even_dampedProposal, inOrder_unitBox, length_unitBox, search_walled,
    hor.resolve_left not_contains_beyond⟩

/-- The constant has a least value at the limit. The search sees a point beyond it and fails. -/
theorem stopped_leaves_box :
    unitBox.InOrder ∧ ([1] : List Float).length = unitBox.lower.length ∧
      search walled [1] unitBox default = some stopped ∧ stopped.converged = false ∧
      ¬∀ p ∈ stopped.trail.points, unitBox.Contains p := by
  refine ⟨inOrder_unitBox, length_unitBox, search_walled, rfl,
    fun h => not_contains_beyond (h _ ?_)⟩
  simp [stopped]

end Doubles

end Search

end ParameterScan.DampedLeastSquares
