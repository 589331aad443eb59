import SpectrumShare.Json.Quoted

/-! # Records in documents

A record is an object that gives its fields by name, in any order and among others, each at most once;
or an array that gives a leading run of its fields in order. A field may be required, may stand for
a default when absent, or may be absent or null. -/
namespace SpectrumShare.Json

abbrev Fields := List (String × Json)

/-- A member under the name that its key stands for. -/
def decodeMember (member : String × Json) : Option (String × Json) :=
  (Quoted.decode? member.1).map (·, member.2)

/-- The fields of a record by name. An array must reach at least over the first `least` of them. -/
def fields? (names : List String) (least : Nat) : Json → Option Fields
  | .object members => do
    let fields ← members.mapM decodeMember
    if names.all (fun name => decide ((fields.map Prod.fst).count name ≤ 1)) then some fields
    else none
  | .array items =>
    if least ≤ items.length ∧ items.length ≤ names.length then some (names.zip items) else none
  | _ => none

variable {ν : Type}

/-- A field that must be there. -/
def Fields.required? (fields : Fields) (name : String) (read : Json → Option ν) : Option ν := do
  read (← fields.lookup name)

/-- A field whose absence stands for a default. -/
def Fields.orDefault? (fields : Fields) (name : String) (read : Json → Option ν) (default : ν) :
    Option ν :=
  match fields.lookup name with
  | none => some default
  | some value => read value

/-- A value or null. -/
def nullable? (read : Json → Option ν) : Json → Option (Option ν)
  | .null => some none
  | value => (read value).map some

/-- A field whose absence and whose null both say that there is nothing. -/
def Fields.optional? (fields : Fields) (name : String) (read : Json → Option ν) :
    Option (Option ν) :=
  fields.orDefault? name (nullable? read) none

def list? (read : Json → Option ν) : Json → Option (List ν)
  | .array items => items.mapM read
  | _ => none

def bool? : Json → Option Bool
  | .bool value => some value
  | _ => none

/-- One of some names, as a text or as the only key of an object whose value says nothing more. -/
def name? (isNothing : Json → Bool) (read : String → Option ν) : Json → Option ν
  | .string written => do read (← Quoted.decode? written)
  | .object [(key, value)] => if isNothing value then do read (← Quoted.decode? key) else none
  | _ => none

/-- An object written from fields. -/
def ofFields (fields : Fields) : Json :=
  .object (fields.map fun (name, value) => (Quoted.encode name, value))

def ofOption (write : ν → Json) : Option ν → Json
  | none => .null
  | some value => write value

def ofList (write : ν → Json) (values : List ν) : Json := .array (values.map write)

end SpectrumShare.Json
