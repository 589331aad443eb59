import SpectrumShare.Error
import SpectrumShare.Store

/-! # What each authority may still use

The part of the threshold that the grants of the whole group leave free is split evenly among the
authorities, and each keeps what its own grants use. -/
namespace SpectrumShare

/-- The allowed interference in milliwatts by point and channel. -/
abbrev Allowances (α : Type) := PointMap (List α)

namespace Allowances

variable {α : Type} [Scalar α]

def ofTotals (threshold : α) (peers : Nat) (t : PointTotals α) : List α :=
  t.globalTotals.zipWith (fun globalTotal localTotal =>
    (threshold - globalTotal) / ((peers : Nat) : α) + localTotal) t.localTotals

/-- Splits a threshold among the authorities at every point of a store. -/
def ofStore (store : Store α) (threshold : α) (peers : Nat) : Except (Error α) (Allowances α) :=
  if peers = 0 then .error .emptyPeerGroup
  else
    match store.toList.find? (fun entry => !entry.2.isAligned) with
    | some (key, _) => .error (.misalignedTotals key)
    | none => .ok (store.map (ofTotals threshold peers))

/-- The allowed interference at a place. -/
def at? (a : Allowances α) (place : Position α) : Option (List α) := a.get? place.key

/-- Every point in degrees with its allowed interference. -/
def places (a : Allowances α) : List (Position α × List α) :=
  a.toList.map fun entry => (entry.1.position, entry.2)

end Allowances

end SpectrumShare
