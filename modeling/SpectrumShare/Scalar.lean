/-! # The numbers of an allocation

Frequencies, angles and powers are taken from any type with this arithmetic. The program runs over
binary floating point (`SpectrumShare.Double`); over an ordered field the same definitions are exact.
Orders are read through `≤` and `<` alone, so a value that is not a number compares below nothing. -/
namespace SpectrumShare

/-- Arithmetic, order, and the ways from a number to the whole numbers. -/
class Scalar (α : Type) extends Add α, Sub α, Mul α, Div α, Neg α, LT α, LE α, NatCast α,
    IntCast α where
  decidableLT : DecidableLT α
  decidableLE : DecidableLE α
  /-- Neither infinite nor undefined. -/
  isFinite : α → Bool
  /-- The greatest whole number not above. -/
  floor : α → Int
  /-- The least whole number not below. -/
  ceil : α → Int
  /-- The nearest whole number, halves away from zero. -/
  round : α → Int
  /-- The remainder of least size not below zero. -/
  remainder : α → α → α

-- A type with arithmetic of its own, such as a field, is read by that.
attribute [instance (low)] Scalar.toAdd Scalar.toSub Scalar.toMul Scalar.toDiv Scalar.toNeg Scalar.toLT
  Scalar.toLE Scalar.toNatCast Scalar.toIntCast

/-- Powers on the decibel scale and on the linear one. -/
class Decibel (α : Type) where
  toLinear : α → α
  ofLinear : α → α

/-- What the geometry of the sphere and free-space loss need beyond arithmetic. -/
class Trigonometry (α : Type) where
  pi : α
  sqrt : α → α
  sin : α → α
  cos : α → α
  arcsin : α → α
  /-- The angle of the point whose second coordinate comes first. -/
  arctan2 : α → α → α
  log10 : α → α

namespace Scalar

variable {α : Type} [Scalar α]

instance : DecidableLT α := decidableLT
instance : DecidableLE α := decidableLE

/-- The lesser of two numbers; a value that is not a number yields to the other. -/
def least (a b : α) : α := if a ≤ b ∨ ¬b ≤ b then a else b

/-- The greater of two numbers; a value that is not a number yields to the other. -/
def greatest (a b : α) : α := if b ≤ a ∨ ¬b ≤ b then a else b

/-- The nearest number between two bounds. -/
def clamp (low high a : α) : α := if a < low then low else if high < a then high else a

/-- Equality of numbers: a zero of either sign is zero, and no undefined value equals itself. -/
def same (a b : α) : Bool := decide (a ≤ b ∧ b ≤ a)

/-- Whether a value is a number, be it infinite. -/
def isNumber (a : α) : Bool := decide (a ≤ a)

/-- Whether a value is a number and not infinite: an infinite one has no difference from itself. -/
def isBounded (a : α) : Bool := isNumber (a - a)

/-- Finite and above zero. -/
def isPositive (a : α) : Bool := isFinite a && decide (((0 : Nat) : α) < a)

def sum (values : List α) : α := values.foldl (· + ·) ((0 : Nat) : α)

end Scalar

namespace Word

/-! ### The 64-bit range -/

def least : Int := -0x8000000000000000

def greatest : Int := 0x7FFFFFFFFFFFFFFF

/-- The number itself, or the nearer end of the range when it lies outside. -/
def saturate (n : Int) : Int := max least (min greatest n)

end Word

end SpectrumShare
