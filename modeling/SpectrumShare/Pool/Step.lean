import SpectrumShare.Pool.Basic

/-! # A pool whose workers interleave

Workers share the index of the next item, a flag that stops the pool, a place for the first error and
whatever their tasks work on. Each step one worker does one thing to one of them; any worker may be
next. -/
namespace SpectrumShare.Pool

/-- Where a worker stands. -/
inductive Worker (ω ε : Type)
  /-- About to read the flag. -/
  | checking
  /-- About to take the next index. -/
  | claiming
  /-- About to look at what is shared and begin a task. -/
  | beginning (item : Nat)
  /-- In the middle of a task. -/
  | moving (item : Nat) (moves : List (ω → ω)) (ending : Ending ε)
  /-- About to set the flag. -/
  | raising (error : ε)
  /-- About to report an error unless there is one. -/
  | reporting (error : ε)
  | left
  | lost

structure State (ω ε : Type) where
  shared : ω
  next : Nat
  aborted : Bool
  firstError : Option ε
  workers : List (Worker ω ε)

namespace State

variable {ι ω ε : Type}

def start (workers : Nat) (shared : ω) : State ω ε :=
  ⟨shared, 0, false, none, List.replicate workers .checking⟩

def put (s : State ω ε) (w : Nat) (worker : Worker ω ε) : State ω ε :=
  { s with workers := s.workers.set w worker }

/-- What a step shows to an observer. -/
inductive Event (ε : Type)
  | quiet
  | started (item : Nat)
  | ended (item : Nat) (ending : Ending ε)
  | aborted
  deriving DecidableEq, Repr

/-- One worker does one thing. -/
inductive Step (items : List ι) (task : ι → Task ω ε) :
    State ω ε → Nat → Event ε → State ω ε → Prop
  | stop {s w} : s.workers[w]? = some .checking → s.aborted = true →
      Step items task s w .quiet (s.put w .left)
  | goOn {s w} : s.workers[w]? = some .checking → s.aborted = false →
      Step items task s w .quiet (s.put w .claiming)
  | claim {s w} : s.workers[w]? = some .claiming → s.next < items.length →
      Step items task s w (.started s.next) { s.put w (.beginning s.next) with next := s.next + 1 }
  | runOut {s w} : s.workers[w]? = some .claiming → items.length ≤ s.next →
      Step items task s w .quiet { s.put w .left with next := s.next + 1 }
  | begin {s w i item} : s.workers[w]? = some (.beginning i) → items[i]? = some item →
      Step items task s w .quiet
        (s.put w (.moving i (task item s.shared).1 (task item s.shared).2))
  | move {s w i move moves ending} : s.workers[w]? = some (.moving i (move :: moves) ending) →
      Step items task s w .quiet { s.put w (.moving i moves ending) with shared := move s.shared }
  | pass {s w i} : s.workers[w]? = some (.moving i [] .passed) →
      Step items task s w (.ended i .passed) (s.put w .checking)
  | fail {s w i e} : s.workers[w]? = some (.moving i [] (.failed e)) →
      Step items task s w (.ended i (.failed e)) (s.put w (.raising e))
  | breakDown {s w i} : s.workers[w]? = some (.moving i [] .broke) →
      Step items task s w (.ended i .broke) (s.put w .lost)
  | raise {s w e} : s.workers[w]? = some (.raising e) →
      Step items task s w .aborted { s.put w (.reporting e) with aborted := true }
  | report {s w e} : s.workers[w]? = some (.reporting e) →
      Step items task s w .quiet
        { s.put w .left with firstError := s.firstError.or (some e) }

/-- Any number of steps, with who made each and what it showed. -/
inductive Run (items : List ι) (task : ι → Task ω ε) :
    State ω ε → List (Nat × Event ε) → State ω ε → Prop
  | done (s) : Run items task s [] s
  | step {s w e t trace u} : Step items task s w e t → Run items task t trace u →
      Run items task s ((w, e) :: trace) u

/-- Every worker has left or is lost. -/
def Over (s : State ω ε) : Prop := ∀ w ∈ s.workers, w matches .left | .lost

/-- What the pool comes to once it is over: an error if one was reported, else a lost worker if there
is one. -/
def verdict (s : State ω ε) : Verdict ε :=
  match s.firstError with
  | some e => .failed e
  | none => if s.workers.any (· matches .lost) then .workerLost else .completed

end State

end SpectrumShare.Pool
