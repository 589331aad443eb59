import SpectrumShare.Entity
import SpectrumShare.Grant
import SpectrumShare.Json.Basic
import SpectrumShare.Json.Fields

/-! # Grants, ranges and licences in documents -/
namespace SpectrumShare

open Json (Fields)

variable {α : Type} [Numeral α]

namespace FrequencyRange

def toJson (r : FrequencyRange α) : Json :=
  .ofFields [("low_hz", Numeral.toJson r.low), ("high_hz", Numeral.toJson r.high)]

def ofJson? (document : Json) : Option (FrequencyRange α) := do
  let fields ← document.fields? ["low_hz", "high_hz"] 2
  return {
    low := ← fields.required? "low_hz" Numeral.ofJson?
    high := ← fields.required? "high_hz" Numeral.ofJson? }

end FrequencyRange

namespace Category

def toJson : Category → Json
  | .a => .ofText "A"
  | .b => .ofText "B"

def ofName? : String → Option Category
  | "A" => some .a
  | "B" => some .b
  | _ => none

def ofJson? : Json → Option Category := Json.name? (· matches .null) ofName?

end Category

namespace Grant

def toJson (g : Grant α) : Json :=
  .ofFields [
    ("id", .ofText g.id),
    ("latitude", Numeral.toJson g.position.latitude),
    ("longitude", Numeral.toJson g.position.longitude),
    ("height_agl_m", Numeral.toJson g.height),
    ("max_eirp_dbm_per_mhz", Numeral.toJson g.maxEirp),
    ("frequency", g.range.toJson),
    ("category", g.category.toJson),
    ("managed", .bool g.managed)]

/-- A grant is managed, of category B and at the default height unless it says otherwise. -/
def ofJson? [Scalar α] (document : Json) : Option (Grant α) := do
  let fields ← document.fields?
    ["id", "latitude", "longitude", "height_agl_m", "max_eirp_dbm_per_mhz", "frequency", "category",
      "managed"] 6
  return {
    id := ← fields.required? "id" Json.text?
    position := {
      latitude := ← fields.required? "latitude" Numeral.ofJson?
      longitude := ← fields.required? "longitude" Numeral.ofJson? }
    height := ← fields.orDefault? "height_agl_m" Numeral.ofJson? Grant.defaultHeight
    maxEirp := ← fields.required? "max_eirp_dbm_per_mhz" Numeral.ofJson?
    range := ← fields.required? "frequency" FrequencyRange.ofJson?
    category := ← fields.orDefault? "category" Category.ofJson? .b
    managed := ← fields.orDefault? "managed" Json.bool? true }

end Grant

namespace Licence

def toJson (l : Licence α) : Json :=
  .ofFields [("pal_id", .ofText l.id), ("primary_assignment", l.assignment.toJson)]

def ofJson? (document : Json) : Option (Licence α) := do
  let fields ← document.fields? ["pal_id", "primary_assignment"] 2
  return {
    id := ← fields.required? "pal_id" Json.text?
    assignment := ← fields.required? "primary_assignment" FrequencyRange.ofJson? }

end Licence

end SpectrumShare
