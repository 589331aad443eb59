import SpectrumShare.Engine

/-! # Scenarios

A scenario holds what one run needs: the grants of the local authority and of its peers, the entities
to protect, the licences on record, and rules that override the standard ones. -/
namespace SpectrumShare

structure Scenario (α : Type) where
  own : List (Grant α)
  others : List (List (Grant α))
  entities : List (Entity α)
  licences : List (Licence α)
  rules : Option (Rules α)
  deriving DecidableEq, Repr

/-- What an entity's run came to; no result when the entity is not protected. -/
structure EntityReport (α : Type) where
  id : String
  kind : EntityKind
  result : Option (Allowances α)
  deriving DecidableEq, Repr

/-- A run that did not finish, and what was being done. -/
structure Failure (α : Type) where
  context : String
  halt : Halt α
  deriving DecidableEq, Repr

namespace Scenario

variable {σ α : Type} [Scalar α] [Decibel α]

def grantSet (s : Scenario α) : GrantSet α := .ofDumps s.own s.others

/-- The engine under the scenario's rules. -/
def configure (s : Scenario α) (e : Engine σ α) : Except (Failure α) (Engine σ α) :=
  match s.rules with
  | none => .ok e
  | some rules =>
    match e.withRules rules with
    | .ok e => .ok e
    | .error error => .error ⟨"Invalid rule overrides in scenario", .refused error⟩

def report (s : Scenario α) (e : Engine σ α) (entity : Entity α) :
    ExceptT (Failure α) (StateM σ) (EntityReport α) := do
  match ← (e.protect entity s.grantSet s.licences).run with
  | .ok result => return ⟨entity.id, entity.kind, result⟩
  | .error halt => throw ⟨"IAP failed for " ++ entity.kind.title ++ " " ++ entity.id, halt⟩

/-- Protects the entities in order, up to the first that fails. -/
def run (s : Scenario α) (e : Engine σ α) :
    ExceptT (Failure α) (StateM σ) (List (EntityReport α)) :=
  s.entities.mapM (s.report e)

end Scenario

end SpectrumShare
