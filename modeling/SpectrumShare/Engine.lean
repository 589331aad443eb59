import SpectrumShare.Allocation.Point
import SpectrumShare.Allowance
import SpectrumShare.Duty
import SpectrumShare.Grid
import SpectrumShare.Interference
import SpectrumShare.Pool.Basic

/-! # The iterative allocation process for one entity

A target is allocated point by point into a store that starts empty, and the store is then split among
the authorities. -/
namespace SpectrumShare

structure Engine (σ α : Type) where
  model : InterferenceModel σ α
  neighborhood : List (Grant α) → Position α → EntityKind → List (Grant α)
  grid : List (Position α) → α → Except (Error α) (List (Position α))
  rules : Rules α
  processors : Nat
  workerCap : Option Nat

namespace Engine

open Allocation

variable {σ α : Type} [Scalar α] [Decibel α]

/-- The standard rules, radii and grid around a model. -/
def standard [Trigonometry α] (model : InterferenceModel σ α) (processors : Nat) : Engine σ α where
  model := model
  neighborhood := Radii.standard.neighbors Sphere.distance
  grid := Grid.points
  rules := .standard
  processors := processors
  workerCap := none

/-- The engine under other rules, if they make sense. -/
def withRules (e : Engine σ α) (rules : Rules α) : Except (Error α) (Engine σ α) := do
  rules.validate
  return { e with rules := rules }

def orRefuse {ν : Type} : Except (Error α) ν → Probing σ α ν
  | .ok value => return value
  | .error e => throw (.refused e)

def duty (e : Engine σ α) (records : List (Licence α)) (entity : Entity α) :
    Except (Error α) (Duty α) :=
  Duty.ofEntity (e.grid · e.rules.gridResolution) records entity

def plan (e : Engine σ α) (target : Target α) : Except (Error α) (ChannelPlan α) :=
  ChannelPlan.resolve target.kind target.span (e.rules.threshold target.kind) e.rules

def survey (e : Engine σ α) (target : Target α) (grants : GrantSet α) (plan : ChannelPlan α) :
    Survey σ α :=
  ⟨plan, grants.grants, target.receiver, e.model, e.neighborhood, e.rules.eirpFloor⟩

/-- A point as a task of the pool: the model's memory is brought up to date, then the totals of one
channel after the other go into the store. -/
def pointTask (s : Survey σ α) (point : Position α) : Pool.Task (σ × Store α) (Halt α) :=
  fun (memory, _) =>
    let (outcome, memory) := (s.settle point).run memory
    let appends := outcome.totals.map fun t (w : σ × Store α) =>
      (w.1, w.2.append point.key t.localTotal t.globalTotal)
    ((fun w => (memory, w.2)) :: appends,
      match outcome.halt with
      | none => .passed
      | some .brokeDown => .broke
      | some halt => .failed halt)

def fillPoint (s : Survey σ α) (point : Position α) : Probing σ α (Store α) := do
  let (result, store) ← s.point point .empty
  match result with
  | .error halt => throw halt
  | .ok _ => return store

/-- Points are allocated by as many workers as there are processors, unless capped. -/
def fillPoints (e : Engine σ α) (s : Survey σ α) (points : List (Position α)) :
    Probing σ α (Store α) := do
  let workers := Pool.workerCount e.processors e.workerCap points.length
  let (verdict, memory, store) := Pool.run workers points (pointTask s) ((← get), .empty)
  set memory
  match verdict with
  | .failed halt => throw halt
  | .workerLost => throw (.refused .workerLost)
  | .completed => return store

/-- The totals of a target at each of its sites. -/
def aggregate (e : Engine σ α) (target : Target α) (grants : GrantSet α) :
    Probing σ α (Store α) := do
  let survey := e.survey target grants (← orRefuse (e.plan target))
  match target.sites with
  | .station point => fillPoint survey point
  | .grid points => e.fillPoints survey points

/-- What every authority may still use around a target. -/
def allowances (e : Engine σ α) (target : Target α) (grants : GrantSet α) :
    Probing σ α (Allowances α) := do
  let store ← e.aggregate target grants
  orRefuse (Allowances.ofStore store (e.rules.threshold target.kind).mw grants.peers)

/-- What every authority may still use around an entity; none when the entity is not protected. -/
def protect (e : Engine σ α) (entity : Entity α) (grants : GrantSet α)
    (records : List (Licence α)) : Probing σ α (Option (Allowances α)) := do
  match ← orRefuse (e.duty records entity) with
  | .exempt => return none
  | .idle => return some .empty
  | .protect target => return some (← e.allowances target grants)

end Engine

end SpectrumShare
