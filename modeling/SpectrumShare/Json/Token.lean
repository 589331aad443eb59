import SpectrumShare.Json.Quoted

/-! # Tokens of a document

The scanner reads one character after the other and knows where it stands: between tokens, or inside a
word, a number or a string. It accepts a text when every token in it is well formed; blanks separate
tokens and mean nothing. -/
namespace SpectrumShare.Json

inductive Token
  | openArray
  | closeArray
  | openObject
  | closeObject
  | comma
  | colon
  | null
  | bool (value : Bool)
  | number (written : String)
  | string (written : String)
  deriving DecidableEq, Repr

/-- The characters that numbers are made of. -/
def isNumberChar (c : Char) : Bool :=
  c.isDigit || c = '-' || c = '+' || c = '.' || c = 'e' || c = 'E'

/-- The part of a number from its exponent on. -/
def isExponent : List Char → Bool
  | [] => true
  | c :: rest =>
    (c = 'e' || c = 'E') &&
      let digits := match rest with
        | '+' :: digits => digits
        | '-' :: digits => digits
        | digits => digits
      !digits.isEmpty && digits.all Char.isDigit

/-- The part of a number from its point on. -/
def isFraction : List Char → Bool
  | '.' :: rest =>
    !(rest.takeWhile Char.isDigit).isEmpty && isExponent (rest.dropWhile Char.isDigit)
  | rest => isExponent rest

/-- A number that has no sign: digits without a needless zero in front, and optionally a fraction and
an exponent. -/
def isUnsigned : List Char → Bool
  | '0' :: rest => isFraction rest
  | text => !(text.takeWhile Char.isDigit).isEmpty && isFraction (text.dropWhile Char.isDigit)

/-- A number, with a minus sign in front or not. -/
def isNumber : List Char → Bool
  | '-' :: rest => isUnsigned rest
  | text => isUnsigned text

namespace Token

/-- Where the scanner stands; what it has read of a token is kept in reverse. -/
inductive Mode
  | between
  | word (read : List Char)
  | number (read : List Char)
  | string (read : List Char)
  /-- Behind a backslash in a string. -/
  | escape (read : List Char)
  deriving DecidableEq, Repr

def ofWord? (read : List Char) : Option Token :=
  if read = "null".toList.reverse then some .null
  else if read = "true".toList.reverse then some (.bool true)
  else if read = "false".toList.reverse then some (.bool false)
  else none

def ofNumber? (read : List Char) : Option Token :=
  if isNumber read.reverse then some (.number (String.ofList read.reverse)) else none

def ofString? (read : List Char) : Option Token :=
  if Quoted.isWritten read.reverse then some (.string (String.ofList read.reverse)) else none

/-- A scanner between tokens reads a character. -/
def start? (tokens : List Token) (c : Char) : Option (List Token × Mode) :=
  match c with
  | ' ' | '\t' | '\n' | '\r' => some (tokens, .between)
  | '[' => some (.openArray :: tokens, .between)
  | ']' => some (.closeArray :: tokens, .between)
  | '{' => some (.openObject :: tokens, .between)
  | '}' => some (.closeObject :: tokens, .between)
  | ',' => some (.comma :: tokens, .between)
  | ':' => some (.colon :: tokens, .between)
  | '"' => some (tokens, .string [])
  | c =>
    if c.isDigit || c = '-' then some (tokens, .number [c])
    else if 'a' ≤ c ∧ c ≤ 'z' then some (tokens, .word [c])
    else none

/-- The scanner reads a character; the tokens so far are in reverse. -/
def step? : List Token × Mode → Char → Option (List Token × Mode)
  | (tokens, .between), c => start? tokens c
  | (tokens, .word read), c =>
    if 'a' ≤ c ∧ c ≤ 'z' then some (tokens, .word (c :: read))
    else do start? ((← ofWord? read) :: tokens) c
  | (tokens, .number read), c =>
    if isNumberChar c then some (tokens, .number (c :: read))
    else do start? ((← ofNumber? read) :: tokens) c
  | (tokens, .string read), c =>
    if c = '"' then do return ((← ofString? read) :: tokens, .between)
    else if c = '\\' then some (tokens, .escape (c :: read))
    else some (tokens, .string (c :: read))
  | (tokens, .escape read), c => some (tokens, .string (c :: read))

/-- The tokens of a text that ends here. -/
def finish? : List Token × Mode → Option (List Token)
  | (tokens, .between) => some tokens.reverse
  | (tokens, .word read) => do return ((← ofWord? read) :: tokens).reverse
  | (tokens, .number read) => do return ((← ofNumber? read) :: tokens).reverse
  | (_, .string _) => none
  | (_, .escape _) => none

def scan? (text : List Char) : Option (List Token) := do
  finish? (← text.foldlM step? ([], .between))

end Token

end SpectrumShare.Json
