import SpectrumShare.Error
import SpectrumShare.Grant

/-! # Allocations of a channel

What a channel grants, and the ways in which the search for it ends without an answer. -/
namespace SpectrumShare

/-- Why a search ended without an answer. -/
inductive Halt (α : Type)
  | refused (error : Error α)
  /-- The interference model broke down. -/
  | brokeDown
  /-- The search was cut off; no search runs that long. -/
  | cutOff
  deriving DecidableEq, Repr

/-- A search that asks a model with memory of type `σ` and may halt. -/
abbrev Probing (σ α : Type) := ExceptT (Halt α) (StateM σ)

/-- How a grant came to fit. -/
structure Fit (α : Type) where
  /-- Milliwatts. -/
  interference : α
  /-- The fair share that the interference was below. -/
  fairShare : α
  /-- The sweep it happened in, counted from one. -/
  sweep : Nat
  deriving DecidableEq, Repr

structure GrantAllocation (α : Type) where
  id : String
  managed : Bool
  maxEirp : α
  finalEirp : α
  fit : Fit α
  deriving DecidableEq, Repr

structure Allocation (α : Type) where
  constraint : Constraint α
  quota : α
  remaining : α
  localTotal : α
  globalTotal : α
  sweeps : Nat
  grants : List (GrantAllocation α)
  deriving DecidableEq, Repr

end SpectrumShare
