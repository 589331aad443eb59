import SpectrumShare.Scenario
import SpectrumShare.Text

/-! # The summary of a run

One line for each entity, with its number of points and the least interference allowed anywhere. -/
namespace SpectrumShare.Summary

open Scalar

def line (entity kind points least : String) : String :=
  Text.toLeft 12 entity ++ " " ++ Text.toLeft 14 kind ++ " " ++ Text.toRight 7 points ++ " " ++
    Text.toRight 22 least

def header : String := line "ENTITY" "KIND" "POINTS" "MIN ALLOWED (dBm)"

variable {α : Type} [Scalar α] [Decibel α] [Numeral α]

/-- The least allowed interference in dBm, or a dash when there is none above zero. -/
def leastAllowed (a : Allowances α) : String :=
  match a.toList.flatMap (·.2) with
  | [] => "-"
  | v :: rest =>
    let power := rest.foldl least v
    if isPositive power then Numeral.fixed 2 (Decibel.ofLinear power) else "-"

def ofReport (r : EntityReport α) : String :=
  match r.result with
  | some result => line r.id r.kind.title (toString result.size) (leastAllowed result)
  | none => line r.id r.kind.title "-" "not protected"

def ofReports (reports : List (EntityReport α)) : List String := header :: reports.map ofReport

end SpectrumShare.Summary
