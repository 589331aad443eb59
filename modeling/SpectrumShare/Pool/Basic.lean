/-! # Worker pools

Tasks, and a pool whose workers take turns: each turn a worker takes the next item and runs its task to
the end. An error stops the pool; a task that breaks down costs a worker, and the pool goes on while one
is left. -/
namespace SpectrumShare.Pool

inductive Ending (ε : Type)
  | passed
  | failed (error : ε)
  /-- The task broke down and takes its worker with it. -/
  | broke
  deriving DecidableEq, Repr

/-- A task looks once at what the workers share, then makes its moves on it one at a time, and ends. -/
abbrev Task (ω ε : Type) := ω → List (ω → ω) × Ending ε

/-- The moves made one after the other. -/
def makeMoves {ω : Type} (moves : List (ω → ω)) (shared : ω) : ω :=
  moves.foldl (fun w move => move w) shared

/-- A task run from start to end with nothing in between. -/
def Task.run {ω ε : Type} (task : Task ω ε) (shared : ω) : Ending ε × ω :=
  ((task shared).2, makeMoves (task shared).1 shared)

/-- What a pool comes to. -/
inductive Verdict (ε : Type)
  | completed
  | failed (error : ε)
  | workerLost
  deriving DecidableEq, Repr

/-- How many workers to use for so many tasks: no more than there are processors or tasks or than the
cap allows, and at least one. -/
def workerCount (processors : Nat) (cap : Option Nat) (tasks : Nat) : Nat :=
  max 1 (min processors (min (max 1 (cap.getD processors)) tasks))

variable {ι ω ε : Type}

/-- Runs items while `workers` of them are left; `lost` says whether one broke down before. -/
def turns (task : ι → Task ω ε) : List ι → Nat → Bool → ω → Verdict ε × ω
  | [], _, lost, shared => (if lost then .workerLost else .completed, shared)
  | _ :: _, 0, _, shared => (.workerLost, shared)
  | item :: rest, workers + 1, lost, shared =>
    match (task item).run shared with
    | (.passed, shared) => turns task rest (workers + 1) lost shared
    | (.failed error, shared) => (.failed error, shared)
    | (.broke, shared) => turns task rest workers true shared

/-- How many workers a pool has: at least one, and at most one for each item. -/
def crew (workers : Nat) (items : List ι) : Nat := max 1 (min workers items.length)

/-- Runs every item. -/
def run (workers : Nat) (items : List ι) (task : ι → Task ω ε) (shared : ω) : Verdict ε × ω :=
  turns task items (crew workers items) false shared

end SpectrumShare.Pool
