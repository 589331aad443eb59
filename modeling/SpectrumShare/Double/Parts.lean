/-! # A double as an exact number

A finite double is a whole number times a power of two. Everything written about doubles here, from
remainders to decimal text, is worked out on that pair with whole numbers and rounded once. -/
namespace SpectrumShare.Double

/-- What the 64 bits of a double stand for. -/
inductive Parts
  | finite (negative : Bool) (mantissa : Nat) (exponent : Int)
  | infinite (negative : Bool)
  | undefined
  deriving DecidableEq, Repr

def parts (x : Float) : Parts :=
  let bits : Nat := x.toBits.toNat
  let negative := bits / Nat.pow 2 63 == 1
  let exponent : Nat := bits / Nat.pow 2 52 % Nat.pow 2 11
  let fraction : Nat := bits % Nat.pow 2 52
  if exponent = 2047 then if fraction = 0 then .infinite negative else .undefined
  else if exponent = 0 then .finite negative fraction (-1074)
  else .finite negative (Nat.pow 2 52 + fraction) ((exponent : Int) - 1075)

/-- The positive fraction `mantissa · 2 ^ exponent` as a pair of whole numbers. -/
def fraction (mantissa : Nat) (exponent : Int) : Nat × Nat :=
  (mantissa * Nat.pow 2 exponent.toNat, Nat.pow 2 (-exponent).toNat)

/-- The double nearest to `mantissa · 2 ^ exponent`, exact when it has no more than 53 digits. -/
def ofParts (negative : Bool) (mantissa : Nat) (exponent : Int) : Float :=
  let size := (Float.ofNat mantissa).scaleB exponent
  if negative then -size else size

/-- The remainder of `a` by `b` that has the sign of `a`. -/
def truncatedRemainder (a b : Float) : Float :=
  match parts a, parts b with
  | .finite negative m p, .finite _ n q =>
    if n = 0 then 0.0 / 0.0
    else
      let unit := min p q
      ofParts negative
        (m * Nat.pow 2 (p - unit).toNat % (n * Nat.pow 2 (q - unit).toNat)) unit
  | .finite .., .infinite _ => a
  | _, _ => 0.0 / 0.0

/-- The remainder of `a` by `b` that is not below zero. -/
def remainder (a b : Float) : Float :=
  let r := truncatedRemainder a b
  if r < 0.0 then r + b.abs else r

end SpectrumShare.Double
