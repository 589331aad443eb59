import SpectrumShare.Place

/-! # Polygons

A place is inside a polygon when its parallel meets an odd number of edges to the east of it. An edge
holds its lower end and not its upper one, so a parallel through a vertex meets the edges there once or
twice as it should. -/
namespace SpectrumShare.Polygon

open Scalar

variable {α : Type}

/-- The edges of the closed ring, each from a vertex to the next; the first one closes the ring. -/
def edges (ring : List (Position α)) : List (Position α × Position α) :=
  match ring.getLast? with
  | none => []
  | some last => (last :: ring).zip ring

variable [Scalar α]

/-- The longitude where the parallel of a latitude meets an edge whose ends lie on both sides of it. -/
def meeting? (latitude : α) (edge : Position α × Position α) : Option α :=
  let (j, i) := edge
  if decide (latitude < i.latitude) = decide (latitude < j.latitude) then none
  else
    some ((j.longitude - i.longitude) * (latitude - i.latitude) / (j.latitude - i.latitude) +
      i.longitude)

/-- Where the parallel of a latitude meets a polygon; fewer than three vertices make none. -/
def meetings (ring : List (Position α)) (latitude : α) : List α :=
  if ring.length < 3 then [] else (edges ring).filterMap (meeting? latitude)

/-- Whether an odd number of meetings lie to the east of a longitude. -/
def isBetween (meetings : List α) (longitude : α) : Bool :=
  meetings.countP (fun m => decide (longitude < m)) % 2 == 1

def contains (ring : List (Position α)) (p : Position α) : Bool :=
  isBetween (meetings ring p.latitude) p.longitude

def sameVertex (a b : Position α) : Bool :=
  same a.latitude b.latitude && same a.longitude b.longitude

/-- A ring without the repetition of its first vertex at the end. -/
def openRing (ring : List (Position α)) : List (Position α) :=
  match ring with
  | first :: _ :: _ =>
    match ring.getLast? with
    | some last => if sameVertex first last then ring.dropLast else ring
    | none => ring
  | _ => ring

/-- The mean of the vertices. -/
def center (ring : List (Position α)) : Position α :=
  ⟨sum (ring.map (·.latitude)) / (ring.length : α), sum (ring.map (·.longitude)) / (ring.length : α)⟩

end SpectrumShare.Polygon
