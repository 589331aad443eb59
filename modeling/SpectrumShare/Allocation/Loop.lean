import SpectrumShare.Allocation.Basic
import SpectrumShare.Interference

/-! # The convergence loop

Every grant starts at its maximum power. Sweep after sweep, each grant that does not fit yet is probed
once: below the fair share of what is left of the quota it fits, takes its interference out of the
quota and leaves a new share to those still waiting; otherwise it goes down by one dB. A grant that
would pass the floor, or whose interference is not finite or does not fall, ends the search. -/
namespace SpectrumShare.Allocation

open Scalar

/-- A grant on its way down. -/
structure Candidate (α : Type) where
  grant : Grant α
  eirp : α
  /-- The interference one dB higher, once that was refused. -/
  previous : Option α
  fit : Option (Fit α)
  deriving DecidableEq, Repr

/-- The running totals. -/
structure Tally (α : Type) where
  remaining : α
  waiting : Nat
  fairShare : α
  localTotal : α
  globalTotal : α
  deriving DecidableEq, Repr

variable {α : Type} [Scalar α]

def eirpStep : α := ((1 : Nat) : α)

def Candidate.start (grant : Grant α) : Candidate α := ⟨grant, grant.maxEirp, none, none⟩

def Tally.start (quota : α) (count : Nat) : Tally α where
  remaining := quota
  waiting := count
  fairShare := if 0 < count then quota / ((count : Nat) : α) else ((0 : Nat) : α)
  localTotal := ((0 : Nat) : α)
  globalTotal := ((0 : Nat) : α)

/-- One grant fits with an interference in milliwatts. The last one leaves the share as it is. -/
def Tally.accept (t : Tally α) (power : α) (managed : Bool) : Tally α where
  remaining := t.remaining - power
  waiting := t.waiting - 1
  fairShare :=
    if t.waiting - 1 = 0 then t.fairShare
    else (t.remaining - power) / ((t.waiting - 1 : Nat) : α)
  localTotal := if managed then t.localTotal + power else t.localTotal
  globalTotal := t.globalTotal + power

/-- The verdict on a probe that answered with a level in dBm. -/
def judge [Decibel α] (floor : α) (sweep : Nat) (t : Tally α) (c : Candidate α) (level : α) :
    Except (Error α) (Tally α × Candidate α) :=
  let power := Decibel.toLinear level
  if !isFinite power then .error (.notFinite c.grant.id level)
  else
    match c.previous.filter (fun previous => decide (previous ≤ power)) with
    | some previous => .error (.notFalling c.grant.id c.eirp previous power)
    | none =>
      if power < t.fairShare then
        .ok (t.accept power c.grant.managed, { c with fit := some ⟨power, t.fairShare, sweep⟩ })
      else if c.eirp - eirpStep < floor then
        .error (.floorReached c.grant.id floor t.fairShare)
      else .ok (t, { c with eirp := c.eirp - eirpStep, previous := some power })

variable {σ : Type}

/-- What a search asks and how low it may go. -/
structure Setting (σ α : Type) where
  model : InterferenceModel σ α
  constraint : Constraint α
  receiver : Receiver α
  floor : α

variable [Decibel α]

/-- Probes a grant that does not fit yet. -/
def visit (s : Setting σ α) (sweep : Nat) (t : Tally α) (c : Candidate α) :
    Probing σ α (Tally α × Candidate α) := do
  if c.fit.isSome then return (t, c)
  match ← s.model.level c.grant c.eirp s.constraint s.receiver with
  | none => throw .brokeDown
  | some level =>
    match judge s.floor sweep t c level with
    | .error e => throw (.refused e)
    | .ok next => return next

/-- Visits the grants in order, each with the totals that the one before left. -/
def sweepOver (s : Setting σ α) (sweep : Nat) :
    Tally α → List (Candidate α) → Probing σ α (Tally α × List (Candidate α))
  | t, [] => return (t, [])
  | t, c :: rest => do
    let (t, c) ← visit s sweep t c
    let (t, rest) ← sweepOver s sweep t rest
    return (t, c :: rest)

/-- Sweeps until no grant waits, and counts the sweeps. -/
def converge (s : Setting σ α) :
    Nat → Nat → Tally α → List (Candidate α) → Probing σ α (Nat × Tally α × List (Candidate α))
  | fuel, sweeps, t, cs =>
    if t.waiting = 0 then return (sweeps, t, cs)
    else
      match fuel with
      | 0 => throw .cutOff
      | fuel + 1 => do
        let (t, cs) ← sweepOver s (sweeps + 1) t cs
        converge s fuel (sweeps + 1) t cs

/-- More sweeps than a search makes: a grant is probed once for each whole dB down to the floor, and no
falling run of doubles from zero up is as long as the second number. -/
def sweepBound (floor : α) (grants : List (Grant α)) : Nat :=
  grants.foldl (fun bound g => max bound (Scalar.floor (g.maxEirp - floor) + 1).toNat)
    0x8000000000000000

def GrantAllocation.ofCandidate? (c : Candidate α) : Option (GrantAllocation α) :=
  c.fit.map fun fit => ⟨c.grant.id, c.grant.managed, c.grant.maxEirp, c.eirp, fit⟩

/-- Shares the quota of a channel among all the given grants. -/
def ofGrants (s : Setting σ α) (quota : α) (grants : List (Grant α)) :
    Probing σ α (Allocation α) := do
  let (sweeps, t, cs) ← converge s (sweepBound s.floor grants) 0 (.start quota grants.length)
    (grants.map .start)
  return {
    constraint := s.constraint
    quota := quota
    remaining := t.remaining
    localTotal := t.localTotal
    globalTotal := t.globalTotal
    sweeps := sweeps
    grants := cs.filterMap GrantAllocation.ofCandidate? }

end SpectrumShare.Allocation
