/-! # Plain text

Blanks and columns, and whole numbers as runs of decimal digits. -/
namespace SpectrumShare.Text

/-! ### Blanks -/

/-- The ranges of the Unicode property White_Space, both ends included. -/
def blankRanges : List (Nat × Nat) :=
  [(0x09, 0x0D), (0x20, 0x20), (0x85, 0x85), (0xA0, 0xA0), (0x1680, 0x1680), (0x2000, 0x200A),
    (0x2028, 0x2029), (0x202F, 0x202F), (0x205F, 0x205F), (0x3000, 0x3000)]

def isBlank (c : Char) : Bool :=
  blankRanges.any fun (first, last) => decide (first ≤ c.toNat ∧ c.toNat ≤ last)

/-- A text without the blanks at its ends. -/
def trim (text : String) : String :=
  String.ofList (((text.toList.dropWhile isBlank).reverse.dropWhile isBlank).reverse)

/-! ### Columns

A cell is filled up with blanks to its width in characters, and never cut. -/

def blanks (width : Nat) (text : String) : String :=
  String.ofList (List.replicate (width - text.length) ' ')

def toLeft (width : Nat) (text : String) : String := text ++ blanks width text

def toRight (width : Nat) (text : String) : String := blanks width text ++ text

/-! ### Digits -/

/-- The number that decimal digits stand for. -/
def ofDigits (digits : List Char) : Nat := Nat.ofDigitChars 10 digits 0

/-- The number that a minus sign or none and digits stand for. -/
def ofSigned : List Char → Int
  | '-' :: digits => -(ofDigits digits : Int)
  | digits => ofDigits digits

def greatestCount : Nat := 0xFFFFFFFFFFFFFFFF

/-- A count: digits, with a plus sign in front or not, of a number that fits 64 bits. -/
def count? (text : String) : Option Nat :=
  let digits := match text.toList with
    | '+' :: digits => digits
    | digits => digits
  if !digits.isEmpty && digits.all Char.isDigit && decide (ofDigits digits ≤ greatestCount) then
    some (ofDigits digits)
  else none

end SpectrumShare.Text
