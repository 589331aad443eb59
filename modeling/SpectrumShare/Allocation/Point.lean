import SpectrumShare.Allocation.Loop
import SpectrumShare.ChannelPlan
import SpectrumShare.Neighborhood
import SpectrumShare.Store

/-! # Allocating a protection point

The channels of the plan are allocated one after the other among the grants near the point that
transmit in them. A channel without such a grant is passed over; one that is refused ends the point and
keeps what the channels before it came to. -/
namespace SpectrumShare.Allocation

/-- What stays the same from point to point. -/
structure Survey (σ α : Type) where
  plan : ChannelPlan α
  grants : List (Grant α)
  receiver : Receiver α
  model : InterferenceModel σ α
  neighborhood : List (Grant α) → Position α → EntityKind → List (Grant α)
  floor : α

/-- The local and the global total of one allocated channel. -/
structure ChannelTotals (α : Type) where
  localTotal : α
  globalTotal : α
  deriving DecidableEq, Repr

/-- The channels allocated at a point in order, and what cut the rest off. -/
structure PointOutcome (α : Type) where
  totals : List (ChannelTotals α)
  halt : Option (Halt α)
  deriving DecidableEq, Repr

def totals {α : Type} (a : Allocation α) : ChannelTotals α := ⟨a.localTotal, a.globalTotal⟩

variable {σ α : Type} [Scalar α] [Decibel α]

def Survey.constraint (s : Survey σ α) (point : Position α) (c : PlannedChannel α) : Constraint α :=
  ⟨point, c.channel, s.plan.kind⟩

/-- Whether some grant near a point transmits in a channel. -/
def Survey.busy (s : Survey σ α) (point : Position α) (near : List (Grant α))
    (c : PlannedChannel α) : Bool :=
  !(overlapping near (s.constraint point c)).isEmpty

/-- The search in one channel among the grants near a point. -/
def Survey.search (s : Survey σ α) (point : Position α) (near : List (Grant α))
    (c : PlannedChannel α) : Probing σ α (Allocation α) :=
  ofGrants ⟨s.model, s.constraint point c, s.receiver, s.floor⟩ c.quota
    (overlapping near (s.constraint point c))

/-- Allocates one channel; none when no grant transmits in it. -/
def Survey.channel (s : Survey σ α) (point : Position α) (near : List (Grant α))
    (c : PlannedChannel α) : Probing σ α (Option (ChannelTotals α)) := do
  if s.busy point near c then return some (← s.search point near c).totals
  return none

/-- Allocates channels in order until one halts. -/
def Survey.channels (s : Survey σ α) (point : Position α) (near : List (Grant α)) :
    List (PlannedChannel α) → StateM σ (PointOutcome α)
  | [] => return ⟨[], none⟩
  | c :: rest => do
    match ← (s.channel point near c).run with
    | .error halt => return ⟨[], some halt⟩
    | .ok none => s.channels point near rest
    | .ok (some totals) =>
      let outcome ← s.channels point near rest
      return { outcome with totals := totals :: outcome.totals }

/-- What the channels of the plan come to at a point. -/
def Survey.outcome (s : Survey σ α) (point : Position α) : StateM σ (PointOutcome α) :=
  s.channels point (s.neighborhood s.grants point s.plan.kind) s.plan.channels

/-- A point that no grant is near is left before its first channel. -/
def Survey.settle (s : Survey σ α) (point : Position α) : StateM σ (PointOutcome α) :=
  if (s.neighborhood s.grants point s.plan.kind).isEmpty then return ⟨[], none⟩
  else s.outcome point

theorem channels_nobody (s : Survey σ α) (point : Position α) (cs : List (PlannedChannel α)) :
    s.channels point [] cs = pure ⟨[], none⟩ := by
  induction cs with
  | nil => rfl
  | cons c rest ih =>
    have idle : s.busy point [] c = false := rfl
    simp only [Survey.channels, Survey.channel, idle, Bool.false_eq_true, ↓reduceIte]
    exact ih

/-- To leave such a point early is to go through its channels in vain. -/
theorem settle_eq_outcome (s : Survey σ α) (point : Position α) :
    s.settle point = s.outcome point := by
  unfold Survey.settle Survey.outcome
  split
  · rename_i nobody
    rw [List.isEmpty_iff.1 nobody, channels_nobody]
  · rfl

/-- The store with the channels of one more point. -/
def record (store : Store α) (key : PointKey) (totals : List (ChannelTotals α)) : Store α :=
  totals.foldl (fun store t => store.append key t.localTotal t.globalTotal) store

/-- Allocates a point into the store and counts the channels written. -/
def Survey.point (s : Survey σ α) (point : Position α) (store : Store α) :
    StateM σ (Except (Halt α) Nat × Store α) := do
  let outcome ← s.settle point
  let store := record store point.key outcome.totals
  match outcome.halt with
  | some halt => return (.error halt, store)
  | none => return (.ok outcome.totals.length, store)

end SpectrumShare.Allocation
