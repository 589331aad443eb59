import SpectrumShare.Direction
import SpectrumShare.Place

/-! # Distances and bearings on the sphere

Angles are in degrees and bearings clockwise from north. -/
namespace SpectrumShare.Sphere

open Scalar Trigonometry

variable {α : Type} [Scalar α] [Trigonometry α]

/-- The mean radius of the earth in metres. -/
def radius : α := ((6371000 : Nat) : α)

def fullTurn : α := ((360 : Nat) : α)

def halfTurn : α := ((180 : Nat) : α)

def toRadians (degrees : α) : α := degrees * (pi / halfTurn)

def toDegrees (radians : α) : α := radians * (halfTurn / pi)

def square (x : α) : α := x * x

/-- The great-circle distance in metres. -/
def distance (a b : Position α) : α :=
  let p := toRadians a.latitude
  let q := toRadians b.latitude
  let halfLatitude := (q - p) / ((2 : Nat) : α)
  let halfLongitude := toRadians (b.longitude - a.longitude) / ((2 : Nat) : α)
  let h := square (sin halfLatitude) + cos p * cos q * square (sin halfLongitude)
  ((2 : Nat) : α) * radius * arcsin (least (sqrt h) ((1 : Nat) : α))

/-- The initial bearing from `a` to `b`. -/
def bearing (a b : Position α) : α :=
  let p := toRadians a.latitude
  let q := toRadians b.latitude
  let turn := toRadians (b.longitude - a.longitude)
  let east := sin turn * cos q
  let north := cos p * sin q - sin p * cos q * cos turn
  remainder (toDegrees (arctan2 east north)) fullTurn

/-- The direction from `a` to `b`. Without a bearing it is lost as the first of these is: the latitude of
`a`, that of `b`, the turn from meridian to meridian. -/
def direction (a b : Position α) : Direction α :=
  if isNumber (bearing a b) then .toward (bearing a b)
  else
    ([.ofAngle a.latitude, .ofAngle b.latitude, .between b.longitude a.longitude].find?
      Direction.isLost).getD .unknown

/-- The place so many metres away on a bearing in radians, its longitude brought to `[-180, 180)`. -/
def offset (start : Position α) (metres radians : α) : Position α :=
  if same metres ((0 : Nat) : α) then start
  else
    let arc := metres / radius
    let p := toRadians start.latitude
    let one : α := ((1 : Nat) : α)
    let height := clamp (-one) one (sin p * cos arc + cos p * sin arc * cos radians)
    let turn := arctan2 (sin radians * sin arc * cos p) (cos arc - sin p * height)
    let longitude := remainder (start.longitude + toDegrees turn + halfTurn) fullTurn - halfTurn
    ⟨toDegrees (arcsin height), longitude⟩

end SpectrumShare.Sphere
