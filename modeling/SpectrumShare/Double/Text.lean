import SpectrumShare.Double.Shortest
import SpectrumShare.Json.Basic
import SpectrumShare.Text

/-! # Doubles as text

Every form has the digits of the shortest decimal or of a fixed number of places; a layout says where
the point stands and when an exponent is written. -/
namespace SpectrumShare.Double

/-- Whether and how a decimal is written with an exponent. -/
structure Layout where
  /-- The leading exponents written without an exponent, from the first up to but not the second. -/
  positional : Option (Int × Int)
  /-- What follows the digits of a whole number. -/
  wholeSuffix : String
  /-- Which of two shortest decimals as near to the double is written. -/
  tie : Tie

/-- Messages write every digit out, and the greater of two decimals as near. -/
def Layout.message : Layout := ⟨none, "", .up⟩

/-- Documents write an exponent below `1e-5` and from `1e16` on, and always a point otherwise; of two
decimals as near they hold the even one. -/
def Layout.document : Layout := ⟨some (-5, 16), ".0", .even⟩

def zeros (count : Nat) : String := String.ofList (List.replicate count '0')

/-- Digits with a point so many places from their end. -/
def withPoint (digits : String) (places : Nat) : String :=
  let padded := zeros (places + 1 - digits.length) ++ digits
  let whole := padded.length - places
  if places = 0 then digits
  else String.ofList (padded.toList.take whole) ++ "." ++ String.ofList (padded.toList.drop whole)

def Layout.write (layout : Layout) (d : Decimal) : String :=
  let digits := toString d.digits
  let leading := d.exponent + digits.length - 1
  let positional := match layout.positional with
    | none => true
    | some (low, high) => decide (low ≤ leading ∧ leading < high)
  if positional then
    if 0 ≤ d.exponent then digits ++ zeros d.exponent.toNat ++ layout.wholeSuffix
    else withPoint digits (-d.exponent).toNat
  else
    withPoint digits (digits.length - 1) ++ (if leading < 0 then "e-" else "e+") ++
      toString leading.natAbs

/-- The shortest decimal of `mantissa · 2 ^ exponent`. -/
def Layout.decimal (layout : Layout) (mantissa : Nat) (exponent : Int) : Decimal :=
  if mantissa = 0 then ⟨0, 0⟩ else shortest layout.tie mantissa exponent

/-- The sign and the shortest digits of a finite double. -/
def Layout.writeFinite (layout : Layout) (negative : Bool) (mantissa : Nat) (exponent : Int) :
    String :=
  (if negative then "-" else "") ++ layout.write (layout.decimal mantissa exponent)

def message (x : Float) : String :=
  match parts x with
  | .finite negative mantissa exponent => Layout.message.writeFinite negative mantissa exponent
  | .infinite negative => if negative then "-inf" else "inf"
  | .undefined => "NaN"

/-- A number of places after the point, a half going to the even neighbour. -/
def fixed (places : Nat) (x : Float) : String :=
  match parts x with
  | .finite negative mantissa exponent =>
    let (num, den) := fraction mantissa exponent
    (if negative then "-" else "") ++ withPoint (toString (roundToPlaces places num den)) places
  | .infinite negative => if negative then "-inf" else "inf"
  | .undefined => "NaN"

/-- A document has no number that is infinite or undefined and writes null for it. -/
def toJson (x : Float) : Json :=
  match parts x with
  | .finite negative mantissa exponent =>
    .number (Layout.document.writeFinite negative mantissa exponent)
  | _ => .null

/-- The double nearest to `digits · 10 ^ exponent`. A decimal far beyond the doubles is decided by its
leading digit. -/
def ofDecimal (digits : Nat) (exponent : Int) : Float :=
  let leading := (toString digits).length + exponent
  if digits = 0 ∨ leading < -400 then 0.0
  else if 400 < leading then 1.0 / 0.0
  else Float.ofScientific digits (decide (exponent < 0)) exponent.natAbs

/-- The double nearest to a written number, sign first, then digits, a fraction and an exponent. -/
def ofWritten (written : String) : Float :=
  let text := written.toList
  let negative := text.head? == some '-'
  let unsigned := if negative then text.drop 1 else text
  let whole := unsigned.takeWhile Char.isDigit
  let behind := unsigned.dropWhile Char.isDigit
  let places := match behind with
    | '.' :: rest => rest.takeWhile Char.isDigit
    | _ => []
  let shift := ((behind.dropWhile (fun c => c = '.' || c.isDigit)).drop 1)
  let exponent : Int := match shift with
    | '+' :: digits => Text.ofDigits digits
    | digits => Text.ofSigned digits
  let size := ofDecimal (Text.ofDigits (whole ++ places)) (exponent - places.length)
  if negative then -size else size

/-- A number of a document; one beyond the doubles is refused. -/
def ofJson? : Json → Option Float
  | .number written =>
    let x := ofWritten written
    if x.isFinite then some x else none
  | _ => none

instance : Numeral Float where
  message := message
  fixed := fixed
  toJson := toJson
  ofJson? := ofJson?

end SpectrumShare.Double
