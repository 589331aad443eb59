import SpectrumShare.Scalar

/-! # Directions

An angle stands for a direction when it is a number. One that is infinite is endless and one that is
no number is unknown; neither points anywhere, yet both have their place among the rest: an endless
direction comes before every angle and an unknown one after. -/
namespace SpectrumShare

open Scalar

inductive Direction (α : Type)
  | endless
  | toward (angle : α)
  | unknown
  deriving DecidableEq, Repr

namespace Direction

variable {α : Type}

/-- Whether it points nowhere. -/
def isLost : Direction α → Bool
  | .toward _ => false
  | _ => true

def map (f : α → α) : Direction α → Direction α
  | .endless => .endless
  | .toward angle => .toward (f angle)
  | .unknown => .unknown

variable [Scalar α]

/-- The way from `b` to `a`. -/
def between (a b : α) : Direction α :=
  if !isNumber a || !isNumber b then .unknown
  else if isBounded (a - b) then .toward (a - b)
  else .endless

def ofAngle (a : α) : Direction α := between a ((0 : Nat) : α)

/-- Whether the first comes strictly before the second. Of two zeros the one reached from below comes
first; dividing by them tells them apart. -/
def precedes : Direction α → Direction α → Bool
  | .endless, .endless => false
  | .endless, _ => true
  | .toward a, .toward b =>
    let one : α := ((1 : Nat) : α)
    decide (a < b) || (same a b && decide (one / a < one / b))
  | .toward _, .unknown => true
  | _, _ => false

end Direction

end SpectrumShare
