import SpectrumShare.Error
import SpectrumShare.Polygon

/-! # Grid points of a protection area

The points are the places of a lattice of whole steps that lie in the area, from south to north and
from west to east. An area that holds no such place is protected at the mean of its vertices. -/
namespace SpectrumShare.Grid

open Scalar

variable {α : Type} [Scalar α]

def arcsecondsPerDegree : α := ((3600 : Nat) : α)

/-- The whole numbers of a span, from south to north or from west to east. -/
structure Span where
  first : Int
  count : Nat
  deriving DecidableEq, Repr

/-- The steps between the least and the greatest of some values. -/
def Span.of (step : α) : List α → Span
  | [] => ⟨0, 0⟩
  | v :: rest =>
    let first := Word.saturate (ceil (rest.foldl least v / step))
    let last := Word.saturate (floor (rest.foldl greatest v / step))
    ⟨first, (last - first + 1).toNat⟩

/-- What a function gives at the first numbers of a span, in order, and then the rest. -/
def gather {β : Type} (f : Int → List β) (first : Int) : Nat → List β → List β
  | 0, rest => rest
  | count + 1, rest => gather f first count (f (first + count) ++ rest)

theorem gather_eq {β : Type} (f : Int → List β) (first : Int) (count : Nat) (rest : List β) :
    gather f first count rest =
      (List.range count).flatMap (fun k : Nat => f (first + k)) ++ rest := by
  induction count generalizing rest with
  | zero => rfl
  | succ count ih => rw [gather, ih, List.range_succ]; simp

/-- The lattice places of one parallel, given where it meets the polygon. -/
def parallel (columns : Span) (step latitude : α) (meetings : List α) : List (Position α) :=
  if meetings.isEmpty then []
  else
    gather
      (fun j =>
        let longitude := ((j : Int) : α) * step
        if Polygon.isBetween meetings longitude then [⟨latitude, longitude⟩] else [])
      columns.first columns.count []

/-- The lattice places of a polygon. -/
def latticePoints (polygon : List (Position α)) (step : α) : List (Position α) :=
  let ring := Polygon.openRing polygon
  let rows := Span.of step (ring.map (·.latitude))
  let columns := Span.of step (ring.map (·.longitude))
  gather
    (fun i =>
      let latitude := ((i : Int) : α) * step
      parallel columns step latitude (Polygon.meetings polygon latitude))
    rows.first rows.count []

def points (polygon : List (Position α)) (resolution : α) :
    Except (Error α) (List (Position α)) :=
  let ring := Polygon.openRing polygon
  if ring.length < 3 then .error (.degeneratePolygon ring.length)
  else if isPositive resolution then
    match latticePoints polygon (resolution / arcsecondsPerDegree) with
    | [] => .ok [Polygon.center ring]
    | found => .ok found
  else .error (.invalidRule "iap" "grid_resolution_arcsec" resolution)

end SpectrumShare.Grid
