import SpectrumShare.Scalar

/-! # Frequency ranges

Frequencies are in hertz. A range holds its low edge and not its high one. -/
namespace SpectrumShare

structure FrequencyRange (α : Type) where
  low : α
  high : α
  deriving DecidableEq, Repr

def hertz {α : Type} [Scalar α] (count : Nat) : α := (count : α)

def megahertz {α : Type} [Scalar α] (count : Nat) : α := hertz (count * 1000000)

namespace FrequencyRange

open Scalar

variable {α : Type} [Scalar α]

/-- Finite edges in ascending order. -/
def isValid (r : FrequencyRange α) : Bool :=
  isFinite r.low && isFinite r.high && decide (r.low < r.high)

def overlaps (r s : FrequencyRange α) : Bool := decide (r.low < s.high) && decide (s.low < r.high)

/-- The width that two ranges share. -/
def overlap (r s : FrequencyRange α) : α :=
  greatest (least r.high s.high - greatest r.low s.low) ((0 : Nat) : α)

def center (r : FrequencyRange α) : α := (r.low + r.high) / ((2 : Nat) : α)

def width (r : FrequencyRange α) : α := r.high - r.low

/-- The shared band that grants are given in. -/
def cbrs : FrequencyRange α := ⟨megahertz 3550, megahertz 3700⟩

/-- Where coastal radar is protected. -/
def radar : FrequencyRange α := ⟨megahertz 3550, megahertz 3680⟩

/-- Where earth stations carry telemetry, tracking and control. -/
def telemetry : FrequencyRange α := ⟨megahertz 3700, megahertz 4200⟩

end FrequencyRange

end SpectrumShare
