import SpectrumShare.Entity
import SpectrumShare.Grant

/-! # Which grants a protection point must reckon with

Those within a radius that depends on the kind of entity, and for a radar sensor on the category of
the device. -/
namespace SpectrumShare

/-- Radii in metres. -/
structure Radii (α : Type) where
  escCategoryA : α
  escCategoryB : α
  ppa : α
  gwpz : α
  fssCochannel : α
  fssBlocking : α
  deriving DecidableEq, Repr

namespace Radii

variable {α : Type} [Scalar α]

private def kilometres (count : Nat) : α := ((count * 1000 : Nat) : α)

def standard : Radii α :=
  ⟨kilometres 40, kilometres 80, kilometres 40, kilometres 40, kilometres 150, kilometres 40⟩

def radius (radii : Radii α) : EntityKind → Category → α
  | .esc, .a => radii.escCategoryA
  | .esc, .b => radii.escCategoryB
  | .ppa, _ => radii.ppa
  | .gwpz, _ => radii.gwpz
  | .fssCochannel, _ => radii.fssCochannel
  | .fssBlocking, _ => radii.fssBlocking

/-- Whether a grant is no farther from a point than its radius, for a measure of distance. -/
def near (radii : Radii α) (distance : Position α → Position α → α) (g : Grant α)
    (point : Position α) (kind : EntityKind) : Bool :=
  decide (distance g.position point ≤ radii.radius kind g.category)

def neighbors (radii : Radii α) (distance : Position α → Position α → α) (grants : List (Grant α))
    (point : Position α) (kind : EntityKind) : List (Grant α) :=
  grants.filter (radii.near distance · point kind)

end Radii

/-- The grants that transmit in the channel of a constraint. -/
def overlapping {α : Type} [Scalar α] (grants : List (Grant α)) (c : Constraint α) :
    List (Grant α) :=
  grants.filter fun g => g.range.overlaps c.channel

end SpectrumShare
