/-!
# Work shared among workers

A list of items is worked through by a number of workers, each with its own copy of a template. A
turn gives one open item to one worker, who starts from a fresh copy, does the task and files the
outcome under the place of the item. Turns may come in any order; once a failure has been filed, the
items that are still open may be left undone. `run` takes given turns up to the first failure, and
`parallelMap` deals the items out in order.

Workers are the threads of a pool. A pool of its own for a positive number of them may be refused by
the system; otherwise the shared pool is used.
-/
namespace ParameterScan

/-- What a worker does with its copy and an item. The copy may be changed in any way. -/
abbrev Task (σ τ ε ρ : Type) := σ → τ → σ × Except ε ρ

/-- One worker takes one item, both by their place. -/
structure Turn where
  worker : Nat
  item : Nat
  deriving Repr, DecidableEq

/-- The copies of the workers and the outcomes so far. -/
structure Pool (σ ε ρ : Type) where
  copies : Array σ
  outcomes : Array (Option (Except ε ρ))
  failed : Bool

namespace Pool

variable {σ τ ε ρ : Type}

/-- The copy that a worker starts an item with, whatever it has now. -/
def refresh (template : σ) (_current : Option σ) : σ := template

def start (template : σ) (workers items : Nat) : Pool σ ε ρ :=
  ⟨Array.replicate workers template, Array.replicate items none, false⟩

def isError : Except ε ρ → Bool
  | .error _ => true
  | .ok _ => false

/-- Takes one turn. A turn for an item that does not exist or has its outcome does nothing. -/
def step (task : Task σ τ ε ρ) (template : σ) (items : Array τ) (p : Pool σ ε ρ) (t : Turn) :
    Pool σ ε ρ :=
  match items[t.item]?, p.outcomes[t.item]? with
  | some x, some none =>
      let (copy, outcome) := task (refresh template p.copies[t.worker]?) x
      { copies := p.copies.setIfInBounds t.worker copy
        outcomes := p.outcomes.setIfInBounds t.item (some outcome)
        failed := p.failed || isError outcome }
  | _, _ => p

/-- Takes turns until there are no more or a failure has been filed. -/
def run (task : Task σ τ ε ρ) (template : σ) (items : Array τ) :
    Pool σ ε ρ → List Turn → Pool σ ε ρ
  | p, [] => p
  | p, t :: ts => if p.failed then p else run task template items (step task template items p t) ts

/-- The first failure, or the values in the order of their items. -/
def collect : List (Option (Except ε ρ)) → Except ε (List ρ)
  | [] => .ok []
  | none :: rest => collect rest
  | some (.error e) :: _ => .error e
  | some (.ok r) :: rest => (collect rest).map (r :: ·)

end Pool

/-- The items in order, dealt out to the workers one by one. -/
def deal (workers items : Nat) : List Turn :=
  (List.range items).map fun i => ⟨i % workers, i⟩

/-- How many workers there are. Without a number of workers, or with none, there is one. -/
def crewSize (workers : Option Nat) : Nat := max 1 (workers.getD 1)

/-- The task done for each item on a fresh copy of the template. -/
def parallelMap {σ τ ε ρ : Type} (template : σ) (items : List τ) (workers : Option Nat)
    (task : Task σ τ ε ρ) : Except ε (List ρ) :=
  let start := Pool.start template (crewSize workers) items.length
  let done := Pool.run task template items.toArray start (deal (crewSize workers) items.length)
  Pool.collect done.outcomes.toList

/-- The reason for which the system refuses a pool of so many threads, if it does. -/
abbrev PoolRefusal := Nat → Option String

/-- A system that opens every pool. -/
def PoolRefusal.never : PoolRefusal := fun _ => none

/-- Why the pool that is asked for cannot be had. The shared one always can. -/
def PoolRefusal.reason (refusal : PoolRefusal) : Option Nat → Option String
  | none | some 0 => none
  | some (n + 1) => refusal (n + 1)

end ParameterScan
