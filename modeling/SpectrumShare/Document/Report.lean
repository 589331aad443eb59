import SpectrumShare.Json.Fields
import SpectrumShare.Json.Layout
import SpectrumShare.Json.Parse
import SpectrumShare.Scenario
import SpectrumShare.Text

/-! # Reports in documents

The points of a report are nested by latitude and longitude, both as whole micro-degrees in text. -/
namespace SpectrumShare

namespace EntityKind

def name : EntityKind → String
  | .esc => "esc"
  | .ppa => "ppa_area"
  | .gwpz => "gwpz_area"
  | .fssCochannel => "fss_cochannel"
  | .fssBlocking => "fss_blocking"

def ofName? (text : String) : Option EntityKind := all.find? (·.name == text)

def ofJson? : Json → Option EntityKind := Json.name? (· matches .null) ofName?

end EntityKind

namespace SortedMap

variable {ν : Type}

/-- A key: the digits of a whole number in the 64-bit range, without a needless zero or sign. -/
def ofKey? (written : String) : Option Int :=
  let value := Text.ofSigned written.toList
  if toString value = written ∧ Word.least ≤ value ∧ value ≤ Word.greatest then some value
  else none

def toJson (write : ν → Json) (m : SortedMap ν) : Json :=
  .object (m.entries.map fun entry => (toString entry.1, write entry.2))

def ofJson? (read : Json → Option ν) : Json → Option (SortedMap ν)
  | .object members => do
    return .ofList (← members.mapM fun (key, value) => do return ((← ofKey? key), (← read value)))
  | _ => none

end SortedMap

variable {α : Type} [Numeral α]

namespace Allowances

def toJson (a : Allowances α) : Json :=
  .ofFields [("points", a.rows.toJson (SortedMap.toJson (Json.ofList Numeral.toJson)))]

def ofJson? (document : Json) : Option (Allowances α) := do
  let fields ← document.fields? ["points"] 1
  return ⟨← fields.required? "points"
    (SortedMap.ofJson? (SortedMap.ofJson? (Json.list? Numeral.ofJson?)))⟩

end Allowances

namespace EntityReport

def toJson (r : EntityReport α) : Json :=
  .ofFields [
    ("id", .ofText r.id),
    ("kind", .ofText r.kind.name),
    ("result", .ofOption Allowances.toJson r.result)]

def ofJson? (document : Json) : Option (EntityReport α) := do
  let fields ← document.fields? ["id", "kind", "result"] 3
  return {
    id := ← fields.required? "id" Json.text?
    kind := ← fields.required? "kind" EntityKind.ofJson?
    result := ← fields.optional? "result" Allowances.ofJson? }

/-- The text of a report file. -/
def write (reports : List (EntityReport α)) : String :=
  (Json.ofList toJson reports).render

/-- The reports in a text. -/
def read? (text : String) : Option (List (EntityReport α)) := do
  Json.list? ofJson? (← Json.parse? text)

end EntityReport

end SpectrumShare
