import SpectrumShare.Double.Parts

/-! # Decimal digits of a positive fraction

A decimal is a whole number of units, the unit a power of ten. Rounding to given places or to a given
number of digits takes the nearest, a half going to the even neighbour. The shortest decimal is the one
of fewest digits among those that no other double is nearer to, and of two such the nearer; where they
are as near, the reader of the text decides. -/
namespace SpectrumShare.Double

/-- `digits · 10 ^ exponent`. -/
structure Decimal where
  digits : Nat
  exponent : Int
  deriving DecidableEq, Repr

/-- Which neighbour a half goes to. -/
inductive Tie
  | even
  | up
  deriving DecidableEq, Repr

/-- What a half adds to the whole number below it. -/
def Tie.step : Tie → Nat → Nat
  | .even, below => below % 2
  | .up, _ => 1

/-- The whole number nearest to a quotient. -/
def roundQuotient (tie : Tie) (num den : Nat) : Nat :=
  let below := num / den
  let rest := num % den
  if 2 * rest < den then below
  else if den < 2 * rest then below + 1
  else below + tie.step below

/-- A fraction in units of `10 ^ exponent`. -/
def inUnits (num den : Nat) (exponent : Int) : Nat × Nat :=
  (num * Nat.pow 10 (-exponent).toNat, den * Nat.pow 10 exponent.toNat)

/-- Whether `10 ^ exponent` is at most the fraction. -/
def powerReaches (num den : Nat) (exponent : Int) : Bool :=
  let (n, d) := inUnits num den exponent
  decide (d ≤ n)

/-- The exponent of the leading decimal digit of a positive fraction. -/
def leadingExponent (num den : Nat) : Int :=
  let guess := ((num.log2 : Int) - den.log2) * 30103 / 100000
  if powerReaches num den (guess + 1) then guess + 1
  else if powerReaches num den guess then guess
  else guess - 1

/-- A positive fraction rounded to a number of leading digits. -/
def roundToDigits (count : Nat) (num den : Nat) : Decimal :=
  let exponent := leadingExponent num den - count + 1
  let (n, d) := inUnits num den exponent
  ⟨roundQuotient .even n d, exponent⟩

/-- A fraction rounded to a number of places after the point, in units of the last place. -/
def roundToPlaces (places : Nat) (num den : Nat) : Nat :=
  roundQuotient .even (num * Nat.pow 10 places) den

/-- The numbers nearest to the double `mantissa · 2 ^ exponent`: those between the midpoints to its
neighbours, both ends included when the mantissa is even. -/
structure Cell where
  num : Nat
  low : Nat
  high : Nat
  den : Nat
  closed : Bool

def cell (mantissa : Nat) (exponent : Int) : Cell :=
  let (_, den) := fraction mantissa exponent
  let unit := Nat.pow 2 exponent.toNat
  let below := if mantissa = Nat.pow 2 52 ∧ -1074 < exponent then 1 else 2
  ⟨4 * mantissa * unit, (4 * mantissa - below) * unit, (4 * mantissa + 2) * unit, 4 * den,
    mantissa % 2 == 0⟩

def Cell.holds (c : Cell) (digits : Nat) (exponent : Int) : Bool :=
  let num := digits * Nat.pow 10 exponent.toNat * c.den
  let scale := Nat.pow 10 (-exponent).toNat
  if c.closed then decide (c.low * scale ≤ num) && decide (num ≤ c.high * scale)
  else decide (c.low * scale < num) && decide (num < c.high * scale)

/-- The decimal with units of `10 ^ exponent` in the cell that is nearest to the double. -/
def Cell.nearest? (c : Cell) (tie : Tie) (exponent : Int) : Option Nat :=
  let (n, d) := inUnits c.num c.den exponent
  let below := n / d
  let best := roundQuotient tie n d
  let other := if best = below then below + 1 else below
  if c.holds best exponent then some best
  else if c.holds other exponent then some other
  else none

/-- Tries units of `10 ^ exponent` and finer ones until one has a decimal in the cell. -/
def Cell.shortestFrom (c : Cell) (tie : Tie) : Nat → Int → Decimal
  | 0, exponent => ⟨(c.nearest? tie exponent).getD 0, exponent⟩
  | more + 1, exponent =>
    match c.nearest? tie exponent with
    | some digits => ⟨digits, exponent⟩
    | none => c.shortestFrom tie more (exponent - 1)

/-- The shortest decimal that reads back as the positive double; seventeen digits always do. -/
def shortest (tie : Tie) (mantissa : Nat) (exponent : Int) : Decimal :=
  let c := cell mantissa exponent
  let found := c.shortestFrom tie 16 (leadingExponent c.num c.den)
  if found.digits = 10 then ⟨1, found.exponent + 1⟩ else found

end SpectrumShare.Double
