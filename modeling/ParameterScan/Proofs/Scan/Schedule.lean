import Mathlib.Tactic.SplitIfs
import ParameterScan.Scan.Workers

/-!
# Turns in any order

A run of a pool is any interleaving of turns: an open item goes to any of the workers, one at a
time, and work may end as soon as a failure has been filed. Nothing is assumed about who takes what
or when. The copies that the workers hold are left as the task leaves them, so what is shown here
does not rest on a task that cleans up after itself.

The invariant is `Faithful`: what is filed under an item is what the task gives for it on a fresh
copy. All answers that a run can deliver follow from it, for every number of workers. Overlapping
turns are not described; a worker touches nothing but its own copy.
-/
namespace ParameterScan

section Traversal

variable {τ ε ρ : Type} {f : τ → Except ε ρ}

theorem mapM_eq_ok_iff {xs : List τ} {rs : List ρ} :
    xs.mapM f = .ok rs ↔ xs.map f = rs.map .ok := by
  induction xs generalizing rs with
  | nil => cases rs <;> simp [pure, Except.pure]
  | cons x xs ih =>
      rw [List.mapM_cons]
      cases hx : f x with
      | error e => cases rs <;> simp [bind, Except.bind, hx]
      | ok r =>
          cases hxs : xs.mapM f with
          | error e => cases rs <;> simp [bind, Except.bind, hx, hxs, ← ih]
          | ok vs => cases rs <;> simp [bind, Except.bind, pure, Except.pure, hx, hxs, ← ih]

theorem exists_of_mapM_eq_error {xs : List τ} {e : ε} (h : xs.mapM f = .error e) :
    ∃ x ∈ xs, f x = .error e := by
  induction xs with
  | nil => simp [pure, Except.pure] at h
  | cons x xs ih =>
      rw [List.mapM_cons] at h
      cases hx : f x with
      | error d =>
          refine ⟨x, List.mem_cons_self, ?_⟩
          simpa [bind, Except.bind, hx] using h
      | ok r =>
          cases hxs : xs.mapM f with
          | error d =>
              obtain ⟨y, hy, hfy⟩ := ih (by simpa [bind, Except.bind, hx, hxs] using h)
              exact ⟨y, List.mem_cons_of_mem x hy, hfy⟩
          | ok vs => simp [bind, Except.bind, pure, Except.pure, hx, hxs] at h

end Traversal

namespace Pool

variable {σ τ ε ρ : Type} {task : Task σ τ ε ρ} {template : σ} {workers : Nat}

/-- The outcome of an item on a fresh copy of the template. -/
def fresh (task : Task σ τ ε ρ) (template : σ) (x : τ) : Except ε ρ := (task template x).2

/-- The pools that the interleavings of so many workers lead to. -/
inductive Reached (task : Task σ τ ε ρ) (template : σ) (items : Array τ) (workers : Nat) :
    Pool σ ε ρ → Prop
  | start : Reached task template items workers (start template workers items.size)
  | turn {p : Pool σ ε ρ} {t : Turn} : Reached task template items workers p →
      t.worker < workers → p.outcomes[t.item]? = some none →
      Reached task template items workers (step task template items p t)

/-- The answers that may be read off a pool: all values in the order of their items when every item
has one, and any failure that has been filed, also while items are open. -/
inductive Yields (p : Pool σ ε ρ) : Except ε (List ρ) → Prop
  | values {rs : List ρ} : p.outcomes.toList = rs.map (fun r => some (.ok r)) → Yields p (.ok rs)
  | failure {e : ε} : some (.error e) ∈ p.outcomes.toList → Yields p (.error e)

/-- The answers of the runs with so many workers. -/
def Delivered (task : Task σ τ ε ρ) (template : σ) (items : List τ) (workers : Nat)
    (out : Except ε (List ρ)) : Prop :=
  ∃ p : Pool σ ε ρ, Reached task template items.toArray workers p ∧ p.Yields out

/-- What an answer says about the items taken one by one on fresh copies. -/
def Answers (task : Task σ τ ε ρ) (template : σ) (items : List τ) : Except ε (List ρ) → Prop
  | .ok rs => items.map (fresh task template) = rs.map .ok
  | .error e => ∃ x ∈ items, fresh task template x = .error e

/-- One place for each item, and nothing filed but outcomes on fresh copies. -/
structure Faithful (task : Task σ τ ε ρ) (template : σ) (items : Array τ) (p : Pool σ ε ρ) :
    Prop where
  size : p.outcomes.size = items.size
  filed : ∀ {i : Nat} {outcome : Except ε ρ}, p.outcomes[i]? = some (some outcome) →
    ∃ x, items[i]? = some x ∧ fresh task template x = outcome

section Steps

variable {items : Array τ} {p : Pool σ ε ρ} {t : Turn}

/-- A turn for an open item, whatever copy the worker has. -/
theorem step_open {x : τ} (hx : items[t.item]? = some x)
    (ho : p.outcomes[t.item]? = some none) :
    step task template items p t =
      { copies := p.copies.setIfInBounds t.worker (task template x).1
        outcomes := p.outcomes.setIfInBounds t.item (some (fresh task template x))
        failed := p.failed || isError (fresh task template x) } := by
  simp only [step, hx, ho, refresh, fresh]

theorem faithful_start :
    Faithful task template items (start template workers items.size : Pool σ ε ρ) := by
  refine ⟨by simp [start], ?_⟩
  intro i outcome h
  simp [start, Array.getElem?_replicate] at h

theorem Faithful.step (h : Faithful task template items p) :
    Faithful task template items (step task template items p t) := by
  unfold Pool.step
  split
  · rename_i x hx ho
    refine ⟨by simp [h.size], ?_⟩
    intro i outcome hi
    rw [Array.getElem?_setIfInBounds] at hi
    split_ifs at hi with heq hlt
    · subst heq
      exact ⟨x, hx, by simpa [fresh, refresh] using hi⟩
    · exact h.filed hi
  · exact h

theorem Reached.faithful (h : Reached task template items workers p) :
    Faithful task template items p := by
  induction h with
  | start => exact faithful_start
  | turn _ _ _ ih => exact ih.step

/-- Turns of workers that there are lead to a reached pool, whatever items they name. -/
theorem reached_run {turns : List Turn} (h : Reached task template items workers p)
    (hw : ∀ t ∈ turns, t.worker < workers) :
    Reached task template items workers (run task template items p turns) := by
  induction turns generalizing p with
  | nil => exact h
  | cons t ts ih =>
      unfold run
      split_ifs
      · exact h
      · refine ih ?_ fun u hu => hw u (List.mem_cons_of_mem t hu)
        by_cases ho : p.outcomes[t.item]? = some none
        · exact .turn h (hw t List.mem_cons_self) ho
        · have hs : step task template items p t = p := by
            unfold step
            split
            · exact absurd ‹_› ho
            · rfl
          rw [hs]
          exact h

theorem run_failed (turns : List Turn) (h : p.failed = true) :
    run task template items p turns = p := by
  cases turns with
  | nil => rfl
  | cons t ts => simp [run, h]

end Steps

theorem collect_values (rs : List ρ) (os : List (Option (Except ε ρ))) :
    collect (rs.map (fun r => some (.ok r)) ++ os) = (collect os).map (rs ++ ·) := by
  induction rs with
  | nil =>
      cases h : collect os with
      | error e => simp [h, Except.map]
      | ok vs => simp [h, Except.map]
  | cons r rs ih =>
      simp only [List.map_cons, List.cons_append, collect, ih]
      cases collect os with
      | error e => rfl
      | ok vs => rfl

/-- Filing at the first open place. -/
theorem toList_file {p : Pool σ ε ρ} {rs : List ρ} {n : Nat} (outcome : Except ε ρ)
    (ho : p.outcomes.toList = rs.map (fun r => some (.ok r)) ++ List.replicate (n + 1) none) :
    p.outcomes[rs.length]? = some none ∧
      (p.outcomes.setIfInBounds rs.length (some outcome)).toList =
        rs.map (fun r => some (.ok r)) ++ some outcome :: List.replicate n none := by
  refine ⟨?_, ?_⟩
  · rw [← Array.getElem?_toList, ho, List.getElem?_append_right (by simp)]
    simp
  · rw [Array.toList_setIfInBounds, ho, List.set_append_right _ _ (by simp)]
    simp [List.replicate_succ]

/-- The turns dealt for the items from one place on, when those before it have their values. The run
ends with the values of all items, or at the first failure. -/
theorem run_dealt (task : Task σ τ ε ρ) (template : σ) (workers : Nat) (done rest : List τ)
    (rs : List ρ) (p : Pool σ ε ρ)
    (ho : p.outcomes.toList =
      rs.map (fun r => some (.ok r)) ++ List.replicate rest.length none)
    (hl : rs.length = done.length) (hf : p.failed = false) :
    let q := run task template (done ++ rest).toArray p
      ((List.range' done.length rest.length).map fun i => ⟨i % workers, i⟩)
    let out := (rest.mapM (fresh task template)).map (rs ++ ·)
    collect q.outcomes.toList = out ∧ q.Yields out := by
  induction rest generalizing done rs p with
  | nil =>
      have hv : p.outcomes.toList = rs.map (fun r => some (.ok r)) := by simpa using ho
      have hc := collect_values rs ([] : List (Option (Except ε ρ)))
      refine ⟨?_, ?_⟩
      · simpa [run, hv, Except.map, pure, Except.pure, collect] using hc
      · simpa [run, Except.map, pure, Except.pure] using Yields.values hv
  | cons x rest ih =>
      have hx : (done ++ x :: rest).toArray[done.length]? = some x := by simp
      obtain ⟨hopen, hset⟩ := toList_file (fresh task template x) ho
      rw [hl] at hopen hset
      simp only [List.length_cons, List.range'_succ, List.map_cons, run, hf, Bool.false_eq_true,
        if_false, List.mapM_cons]
      rw [step_open (t := ⟨done.length % workers, done.length⟩) hx hopen]
      cases hv : fresh task template x with
      | error e =>
          rw [hv] at hset
          rw [run_failed _ (by simp [isError])]
          refine ⟨?_, .failure ?_⟩
          · simp only [hset, collect_values, collect]
            rfl
          · simp only [hset]
            exact List.mem_append_right _ List.mem_cons_self
      | ok r =>
          rw [hv] at hset
          have hnext := ih (done ++ [x]) (rs ++ [r])
            ⟨p.copies.setIfInBounds (done.length % workers) (task template x).1,
              p.outcomes.setIfInBounds done.length (some (.ok r)), false⟩
            (by rw [hset]; simp) (by simp [hl]) rfl
          have hout : ((do
              let b ← (Except.ok r : Except ε ρ)
              let bs ← List.mapM (fresh task template) rest
              pure (b :: bs)).map (rs ++ ·)) =
              (List.mapM (fresh task template) rest).map (rs ++ [r] ++ ·) := by
            cases List.mapM (fresh task template) rest with
            | error e => rfl
            | ok vs => simp [bind, Except.bind, pure, Except.pure, Except.map]
          simp only [hout, hf, isError, Bool.or_false]
          simpa using hnext

/-- The run that is dealt out in order, from the start. -/
theorem run_deal (template : σ) (items : List τ) (workers : Nat) (task : Task σ τ ε ρ) :
    let q := run task template items.toArray (start template workers items.length)
      (deal workers items.length)
    collect q.outcomes.toList = items.mapM (fresh task template) ∧
      q.Yields (items.mapM (fresh task template)) := by
  have hout : (items.mapM (fresh task template)).map (([] : List ρ) ++ ·) =
      items.mapM (fresh task template) := by
    cases items.mapM (fresh task template) <;> rfl
  have h := run_dealt task template workers [] items [] (start template workers items.length)
    (by simp [start]) rfl rfl
  rw [hout] at h
  simpa only [List.nil_append, List.length_nil, deal, List.range_eq_range'] using h

theorem deal_worker_lt {workers items : Nat} (hw : 0 < workers) :
    ∀ t ∈ deal workers items, t.worker < workers := by
  intro t ht
  obtain ⟨i, _, rfl⟩ := List.mem_map.mp ht
  exact Nat.mod_lt i hw

/-- Sharing the work out changes nothing: the items might as well be taken in order, each on a fresh
copy, up to the first failure. -/
theorem parallelMap_eq_mapM (template : σ) (items : List τ) (workers : Option Nat)
    (task : Task σ τ ε ρ) :
    parallelMap template items workers task = items.mapM (fresh task template) :=
  (run_deal template items (crewSize workers) task).1

theorem crewSize_pos (workers : Option Nat) : 0 < crewSize workers := by
  unfold crewSize
  omega

variable {items : List τ} {out : Except ε (List ρ)}

theorem Delivered.answers (h : Delivered task template items workers out) :
    Answers task template items out := by
  obtain ⟨p, hp, hy⟩ := h
  have hfaithful := hp.faithful
  cases hy with
  | values hv =>
      rename_i rs
      refine List.ext_getElem? fun i => ?_
      have hsize : rs.length = items.length := by
        have hlen := congrArg List.length hv
        have hsz := hfaithful.size
        simp only [Array.length_toList, List.length_map, List.size_toArray] at hlen hsz
        omega
      by_cases hi : i < rs.length
      · have ho : p.outcomes[i]? = some (some (.ok rs[i])) := by
          rw [← Array.getElem?_toList, hv]
          simp [hi]
        obtain ⟨x, hx, hfresh⟩ := hfaithful.filed ho
        rw [List.getElem?_toArray] at hx
        simp [hx, hfresh, hi]
      · simp [hsize ▸ hi, hi]
  | failure he =>
      rename_i e
      obtain ⟨i, hi, hei⟩ := List.getElem_of_mem he
      have ho : p.outcomes[i]? = some (some (.error e)) := by
        rw [← Array.getElem?_toList, List.getElem?_eq_getElem hi, hei]
      obtain ⟨x, hx, hfresh⟩ := hfaithful.filed ho
      rw [List.getElem?_toArray] at hx
      exact ⟨x, List.mem_of_getElem? hx, hfresh⟩

/-- Every answer that the items allow is that of some run: the dealt one gives the values, and a
single turn is enough for a failure. -/
theorem Answers.delivered (hw : 0 < workers) (h : Answers task template items out) :
    Delivered task template items workers out := by
  have hstart : Reached task template items.toArray workers
      (start template workers items.length : Pool σ ε ρ) := .start
  cases out with
  | ok rs =>
      have hv : items.mapM (fresh task template) = .ok rs := mapM_eq_ok_iff.mpr h
      have hrun := (run_deal template items workers task).2
      rw [hv] at hrun
      exact ⟨_, reached_run hstart (deal_worker_lt hw), hrun⟩
  | error e =>
      obtain ⟨x, hx, hfresh⟩ := h
      obtain ⟨i, hi, rfl⟩ := List.getElem_of_mem hx
      have hopen : (start template workers items.length : Pool σ ε ρ).outcomes[i]? =
          some none := by
        simp [start, hi]
      have hitem : items.toArray[i]? = some items[i] := by simp [hi]
      refine ⟨_, .turn (t := ⟨0, i⟩) hstart hw hopen, .failure ?_⟩
      rw [step_open (t := ⟨0, i⟩) hitem hopen, hfresh]
      exact List.mem_of_getElem? (i := i) (by simp [start, hi])

/-- What is delivered goes by the outcomes on fresh copies. -/
theorem delivered_congr {task' : Task σ τ ε ρ} {template' : σ} (hw : 0 < workers)
    (h : fresh task template = fresh task' template') :
    Delivered task template items workers out ↔ Delivered task' template' items workers out := by
  have hanswers : Answers task template items out ↔ Answers task' template' items out := by
    cases out <;> simp only [Answers, h]
  exact ⟨fun hd => (hanswers.mp hd.answers).delivered hw,
    fun hd => (hanswers.mpr hd.answers).delivered hw⟩

theorem answers_parallelMap (task : Task σ τ ε ρ) (template : σ) (items : List τ)
    (cores : Option Nat) :
    Answers task template items (parallelMap template items cores task) := by
  rw [parallelMap_eq_mapM]
  cases hm : items.mapM (fresh task template) with
  | ok vs => exact mapM_eq_ok_iff.mp hm
  | error e => exact exists_of_mapM_eq_error hm

/-- Dealing the items out is one of the runs. -/
theorem delivered_parallelMap (task : Task σ τ ε ρ) (template : σ) (items : List τ)
    (cores : Option Nat) :
    Delivered task template items (crewSize cores) (parallelMap template items cores task) :=
  (answers_parallelMap task template items cores).delivered (crewSize_pos cores)

/-- What a run delivers does not depend on its schedule. With any positive number of workers the
answers are exactly those that the items allow when each is taken on a fresh copy: the values in
item order when no item fails, and otherwise the failure of some failing item. The answer of
`parallelMap` is one of them, and without a failing item it is the only one, for every number of
workers. -/
theorem delivered_whatever_the_schedule (task : Task σ τ ε ρ) (template : σ) (items : List τ)
    {workers : Nat} (hw : 0 < workers) :
    (∀ out, Delivered task template items workers out ↔ Answers task template items out) ∧
      (∀ cores, Delivered task template items (crewSize cores)
        (parallelMap template items cores task)) ∧
      ∀ rs, items.map (fresh task template) = rs.map .ok →
        (∀ out, Delivered task template items workers out → out = .ok rs) ∧
          ∀ cores, parallelMap template items cores task = .ok rs := by
  refine ⟨fun out => ⟨Delivered.answers, Answers.delivered hw⟩,
    delivered_parallelMap task template items, fun rs hrs => ⟨?_, ?_⟩⟩
  · intro out hout
    cases out with
    | ok vs =>
        have hvs : vs.map (Except.ok (ε := ε)) = rs.map .ok := hout.answers.symm.trans hrs
        rw [(List.map_inj_right fun _ _ h => Except.ok.inj h).mp hvs]
    | error e =>
        obtain ⟨x, hx, hfresh⟩ := hout.answers
        have hmem : fresh task template x ∈ rs.map Except.ok := hrs ▸ List.mem_map_of_mem hx
        simp [hfresh] at hmem
  · intro cores
    rw [parallelMap_eq_mapM]
    exact mapM_eq_ok_iff.mpr hrs

/-- Two workers and a task that spoils its copy: however the turns fall, the copies do not show. -/
theorem delivered_by_two :
    0 < 2 ∧ ∀ out : Except String (List Nat),
      Delivered (fun copy x => (copy + x, .ok (copy * x))) 10 [3, 1, 2] 2 out →
        out = .ok [30, 10, 20] :=
  ⟨by decide, ((delivered_whatever_the_schedule _ 10 [3, 1, 2] (by decide)).2.2 _ rfl).1⟩

end Pool

end ParameterScan
