/-! # JSON documents as written

A document keeps its numbers and strings in their written form: the characters of a number, and what
stands between the quotes of a string. Meaning is given to them where a record is read; to a number, by
the type that it is read as. -/
namespace SpectrumShare

inductive Json
  | null
  | bool (value : Bool)
  | number (written : String)
  | string (written : String)
  | array (items : List Json)
  | object (members : List (String × Json))
  deriving BEq, Repr, Inhabited

namespace Json

mutual

/-- How many arrays and objects are open at the innermost place. -/
def depth : Json → Nat
  | .array items => depthOfItems items + 1
  | .object members => depthOfMembers members + 1
  | _ => 0

def depthOfItems : List Json → Nat
  | [] => 0
  | item :: rest => max item.depth (depthOfItems rest)

def depthOfMembers : List (String × Json) → Nat
  | [] => 0
  | (_, value) :: rest => max value.depth (depthOfMembers rest)

end

end Json

/-- How numbers are written for a reader, and how they stand in a document. -/
class Numeral (α : Type) where
  /-- The fewest digits that tell the number apart, never with an exponent. -/
  message : α → String
  /-- A number of places after the point. -/
  fixed : Nat → α → String
  toJson : α → Json
  ofJson? : Json → Option α

end SpectrumShare
