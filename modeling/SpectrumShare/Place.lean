import SpectrumShare.Json.Basic
import SpectrumShare.Scalar

/-! # Places and their keys

Two places are one point of a store when they agree to the micro-degree. -/
namespace SpectrumShare

/-- Degrees north and east. -/
structure Position (α : Type) where
  latitude : α
  longitude : α
  deriving DecidableEq, Repr

/-- A place in whole micro-degrees. -/
structure PointKey where
  latitude : Int
  longitude : Int
  deriving DecidableEq, Repr

section

variable {α : Type} [Scalar α]

def microPerDegree : α := ((1000000 : Nat) : α)

/-- The nearest micro-degree, halves away from zero, held inside the 64-bit range. -/
def toMicro (degrees : α) : Int := Word.saturate (Scalar.round (degrees * microPerDegree))

def ofMicro (micro : Int) : α := ((micro : Int) : α) / microPerDegree

def Position.key (p : Position α) : PointKey := ⟨toMicro p.latitude, toMicro p.longitude⟩

def PointKey.position (k : PointKey) : Position α := ⟨ofMicro k.latitude, ofMicro k.longitude⟩

/-- The key in degrees, as messages show it. -/
def PointKey.message (α : Type) [Scalar α] [Numeral α] (k : PointKey) : String :=
  let p : Position α := k.position
  "(" ++ Numeral.fixed 6 p.latitude ++ ", " ++ Numeral.fixed 6 p.longitude ++ ")"

end

end SpectrumShare
