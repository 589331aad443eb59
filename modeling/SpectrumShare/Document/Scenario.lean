import SpectrumShare.Document.Entity
import SpectrumShare.Document.Rules
import SpectrumShare.Json.Parse
import SpectrumShare.Scenario

/-! # Scenarios in documents

Only the entities must be there; rules are written when there are any. -/
namespace SpectrumShare.Scenario

open Json (Fields)

variable {α : Type} [Numeral α]

def toJson (s : Scenario α) : Json :=
  .ofFields (
    [("local_grants", .ofList Grant.toJson s.own),
      ("peer_grants", .ofList (Json.ofList Grant.toJson) s.others),
      ("entities", .ofList Entity.toJson s.entities),
      ("pal_records", .ofList Licence.toJson s.licences)] ++
    match s.rules with
    | none => []
    | some rules => [("rules", rules.toJson)])

/-- The names of what a scenario gives. -/
def names : List String := ["local_grants", "peer_grants", "entities", "pal_records", "rules"]

/-- The scenario that a document stands for when its entities are read in a certain way. -/
def readWith? [Scalar α] (entity : Json → Option (Entity α)) (document : Json) :
    Option (Scenario α) := do
  let fields ← document.fields? names 3
  return {
    own := ← fields.orDefault? "local_grants" (Json.list? Grant.ofJson?) []
    others := ← fields.orDefault? "peer_grants" (Json.list? (Json.list? Grant.ofJson?)) []
    entities := ← fields.required? "entities" (Json.list? entity)
    licences := ← fields.orDefault? "pal_records" (Json.list? Licence.ofJson?) []
    rules := ← fields.optional? "rules" Rules.ofJson? }

/-- Entities stand two levels deep: in the list of the scenario. -/
def ofJson? [Scalar α] : Json → Option (Scenario α) := readWith? (Entity.ofJson? 2)

/-- The scenario in a text. -/
def read? [Scalar α] (text : String) : Option (Scenario α) := do ofJson? (← Json.parse? text)

end SpectrumShare.Scenario
