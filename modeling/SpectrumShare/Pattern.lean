import SpectrumShare.Direction
import SpectrumShare.Entity
import SpectrumShare.Sphere

/-! # Azimuth patterns

The gain in a direction is that of the sample nearest to it on the circle, the first of several as
near. -/
namespace SpectrumShare.Pattern

open Scalar

variable {α : Type} [Scalar α]

/-- An angle from nought up to a full turn. -/
def wrap (angle : α) : α := remainder angle Sphere.fullTurn

/-- The short way round for an angle that turns one way. -/
def shortWay (angle : α) : α := least (wrap angle) (Sphere.fullTurn - wrap angle)

/-- The angle between a sample and an offset, the short way round. -/
def gap (angle : α) : Direction α → Direction α
  | .toward offset => (Direction.between angle offset).map shortWay
  | lost => if isNumber angle then lost else .unknown

/-- The sample nearest to an offset from the boresight. -/
def nearest? (offset : Direction α) : List (PatternSample α) → Option (PatternSample α)
  | [] => none
  | s :: rest =>
    some (rest.foldl
      (fun best t => if (gap t.angle offset).precedes (gap best.angle offset) then t else best) s)

/-- How far a direction lies clockwise of the boresight. -/
def offset (boresight : α) : Direction α → Direction α
  | .toward bearing => (Direction.between bearing boresight).map wrap
  | lost => lost

/-- The gain in a direction of an antenna that points to its boresight. -/
def gain (pattern : List (PatternSample α)) (boresight : α) (direction : Direction α) : α :=
  match nearest? (offset boresight direction) pattern with
  | some s => s.gain
  | none => ((0 : Nat) : α)

end SpectrumShare.Pattern
