import SpectrumShare.Json.Basic
import SpectrumShare.Json.Token

/-! # Documents from tokens

The reader takes one token after the other. It keeps the arrays and objects that are still open,
innermost first, and what must come next. -/
namespace SpectrumShare.Json

/-- An array or object still open; its items are in reverse. -/
inductive Frame
  | items (done : List Json)
  | field (done : List (String × Json)) (key : String)
  deriving Repr

/-- What must come next. -/
inductive Goal
  | value
  /-- Behind the bracket that opens an array: a value or the closing bracket. -/
  | firstItem
  /-- Behind the brace that opens an object: a key or the closing brace. -/
  | firstKey
  | key (done : List (String × Json))
  | colon (done : List (String × Json)) (key : String)
  /-- Behind an item of an array: a comma or the closing bracket. -/
  | nextItem (done : List Json)
  /-- Behind a member of an object: a comma or the closing brace. -/
  | nextMember (done : List (String × Json))
  | finished (document : Json)
  deriving Repr

abbrev Reader := List Frame × Goal

/-- A value is complete and goes into the innermost open array or object. -/
def Reader.deliver (value : Json) : List Frame → Reader
  | [] => ([], .finished value)
  | .items done :: outer => (outer, .nextItem (value :: done))
  | .field done key :: outer => (outer, .nextMember ((key, value) :: done))

/-- A token where a value may begin. -/
def Reader.begin? (outer : List Frame) : Token → Option Reader
  | .null => some (deliver .null outer)
  | .bool value => some (deliver (.bool value) outer)
  | .number written => some (deliver (.number written) outer)
  | .string written => some (deliver (.string written) outer)
  | .openArray => some (outer, .firstItem)
  | .openObject => some (outer, .firstKey)
  | _ => none

def Reader.step? : Reader → Token → Option Reader
  | (outer, .value), token => begin? outer token
  | (outer, .firstItem), .closeArray => some (deliver (.array []) outer)
  | (outer, .firstItem), token => begin? (.items [] :: outer) token
  | (outer, .firstKey), .closeObject => some (deliver (.object []) outer)
  | (outer, .firstKey), .string key => some (outer, .colon [] key)
  | (outer, .key done), .string key => some (outer, .colon done key)
  | (outer, .colon done key), .colon => some (.field done key :: outer, .value)
  | (outer, .nextItem done), .comma => some (.items done :: outer, .value)
  | (outer, .nextItem done), .closeArray => some (deliver (.array done.reverse) outer)
  | (outer, .nextMember done), .comma => some (outer, .key done)
  | (outer, .nextMember done), .closeObject => some (deliver (.object done.reverse) outer)
  | _, _ => none

/-- The document that a run of tokens spells, whole and without anything behind it. -/
def ofTokens? (tokens : List Token) : Option Json := do
  match ← tokens.foldlM Reader.step? ([], .value) with
  | (_, .finished document) => some document
  | _ => none

def parse? (text : String) : Option Json := do ofTokens? (← Token.scan? text.toList)

end SpectrumShare.Json
