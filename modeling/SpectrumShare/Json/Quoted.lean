import SpectrumShare.Json.Basic

/-! # Text between quotes

A string is written between quotes with a backslash before a quote, a backslash and the control
characters. Reading takes every escape, and a character beyond the basic plane also as a pair of
four-digit escapes; half of such a pair stands for nothing. -/
namespace SpectrumShare.Json.Quoted

/-- A character or the code unit of a four-digit escape. -/
inductive Piece
  | char (c : Char)
  | unit (code : Nat)
  deriving DecidableEq, Repr

def hexValue? (c : Char) : Option Nat :=
  if '0' ≤ c ∧ c ≤ '9' then some (c.toNat - '0'.toNat)
  else if 'a' ≤ c ∧ c ≤ 'f' then some (c.toNat - 'a'.toNat + 10)
  else if 'A' ≤ c ∧ c ≤ 'F' then some (c.toNat - 'A'.toNat + 10)
  else none

def hexDigit (value : Nat) : Char :=
  if value < 10 then Char.ofNat ('0'.toNat + value) else Char.ofNat ('a'.toNat + (value - 10))

def shortEscape? : Char → Option Char
  | '"' => some '"'
  | '\\' => some '\\'
  | '/' => some '/'
  | 'b' => some '\x08'
  | 'f' => some '\x0c'
  | 'n' => some '\n'
  | 'r' => some '\r'
  | 't' => some '\t'
  | _ => none

/-- The pieces of a written text; none when an escape is unknown or a character must be escaped. -/
def pieces? : List Char → Option (List Piece)
  | [] => some []
  | '\\' :: 'u' :: a :: b :: c :: d :: rest => do
    let code := ((← hexValue? a) * 16 + (← hexValue? b)) * 256 + (← hexValue? c) * 16 + (← hexValue? d)
    return .unit code :: (← pieces? rest)
  | '\\' :: c :: rest => do return .char (← shortEscape? c) :: (← pieces? rest)
  | c :: rest =>
    if c.toNat < 0x20 ∨ c = '"' ∨ c = '\\' then none
    else do return .char c :: (← pieces? rest)

def isHighHalf (code : Nat) : Bool := decide (0xD800 ≤ code ∧ code < 0xDC00)

def isLowHalf (code : Nat) : Bool := decide (0xDC00 ≤ code ∧ code < 0xE000)

/-- The text of some pieces; none when half of a pair stands alone. -/
def join? : List Piece → Option (List Char)
  | [] => some []
  | .char c :: rest => do return c :: (← join? rest)
  | .unit high :: .unit low :: rest =>
    if isHighHalf high then
      if isLowHalf low then do
        return Char.ofNat (0x10000 + (high - 0xD800) * 0x400 + (low - 0xDC00)) :: (← join? rest)
      else none
    else if isLowHalf high then none
    else do return Char.ofNat high :: (← join? (.unit low :: rest))
  | .unit code :: rest =>
    if isHighHalf code || isLowHalf code then none
    else do return Char.ofNat code :: (← join? rest)

/-- Whether a text may stand between quotes. -/
def isWritten (text : List Char) : Bool := (pieces? text).isSome

def decode? (written : String) : Option String := do
  return String.ofList (← join? (← pieces? written.toList))

def encodeChar (c : Char) : List Char :=
  match c with
  | '"' => ['\\', '"']
  | '\\' => ['\\', '\\']
  | '\x08' => ['\\', 'b']
  | '\x0c' => ['\\', 'f']
  | '\n' => ['\\', 'n']
  | '\r' => ['\\', 'r']
  | '\t' => ['\\', 't']
  | c =>
    if c.toNat < 0x20 then
      ['\\', 'u', '0', '0', hexDigit (c.toNat / 16), hexDigit (c.toNat % 16)]
    else [c]

def encode (text : String) : String := String.ofList (text.toList.flatMap encodeChar)

end SpectrumShare.Json.Quoted

namespace SpectrumShare.Json

/-- The string that stands for a text. -/
def ofText (text : String) : Json := .string (Quoted.encode text)

/-- The text that a string stands for. -/
def text? : Json → Option String
  | .string written => Quoted.decode? written
  | _ => none

end SpectrumShare.Json
