import SpectrumShare.Frequency
import SpectrumShare.Place

/-! # Grants

A grant lets a device transmit in a range. The local authority manages its own grants and learns of
the others from the activity dumps of its peers. -/
namespace SpectrumShare

inductive Category
  | a
  | b
  deriving DecidableEq, Repr

structure Grant (α : Type) where
  id : String
  position : Position α
  /-- Metres above ground. -/
  height : α
  /-- dBm in each megahertz. -/
  maxEirp : α
  range : FrequencyRange α
  category : Category
  /-- Whether the local authority manages the grant. -/
  managed : Bool
  deriving DecidableEq, Repr

def Grant.defaultHeight {α : Type} [Scalar α] : α := ((3 : Nat) : α)

/-- The grants of a peer group, and how many authorities are in it. -/
structure GrantSet (α : Type) where
  grants : List (Grant α)
  peers : Nat
  deriving DecidableEq, Repr

namespace GrantSet

variable {α : Type}

/-- The local grants come first, then those of the peers in the order of their dumps. -/
def ofDumps (own : List (Grant α)) (others : List (List (Grant α))) : GrantSet α where
  grants :=
    own.map (fun g => { g with managed := true }) ++
      others.flatten.map (fun g => { g with managed := false })
  peers := others.length + 1

def managedCount (s : GrantSet α) : Nat := s.grants.countP (·.managed)

end GrantSet

end SpectrumShare
