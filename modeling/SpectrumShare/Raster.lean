import SpectrumShare.Error

/-! # The channel raster

The shared band is cut into channels of equal width from its low edge upward. A range is protected on
the channels that cover it, the last of which may reach beyond the band. -/
namespace SpectrumShare

open Scalar

variable {α : Type} [Scalar α]

/-- Refuses a range without finite edges in ascending order. -/
def FrequencyRange.validate (r : FrequencyRange α) : Except (Error α) Unit :=
  if r.isValid then .ok () else .error (.invalidRange r.low r.high)

namespace Raster

def edge (bandwidth : α) (index : Int) : α :=
  FrequencyRange.cbrs.low + ((index : Int) : α) * bandwidth

def channel (bandwidth : α) (index : Int) : FrequencyRange α :=
  ⟨edge bandwidth index, edge bandwidth index + bandwidth⟩

/-- The index of the channel that holds a frequency, held inside the 64-bit range. -/
def indexAt (bandwidth frequency : α) : Int :=
  Word.saturate (floor ((frequency - FrequencyRange.cbrs.low) / bandwidth))

/-- The first index from the given one whose channel starts at `high` or above; none when there is
no such index in the 64-bit range. -/
def stopIndex? (bandwidth high : α) (index : Int) : Option Int :=
  if high ≤ edge bandwidth index then some index
  else if index < Word.greatest then stopIndex? bandwidth high (index + 1)
  else none
termination_by (Word.greatest - index).toNat
decreasing_by omega

/-- The part of a range that lies inside the band. -/
def inBand (range : FrequencyRange α) : FrequencyRange α :=
  ⟨greatest range.low FrequencyRange.cbrs.low, least range.high FrequencyRange.cbrs.high⟩

/-- The channels from one index up to another. -/
def row (bandwidth : α) (first stop : Int) : List (FrequencyRange α) :=
  (List.range (stop - first).toNat).map fun (step : Nat) => channel bandwidth (first + step)

/-- The channels of the raster that cover a range inside the band, in ascending order. -/
def channels (range : FrequencyRange α) (bandwidth : α) :
    Except (Error α) (List (FrequencyRange α)) := do
  range.validate
  if isPositive bandwidth then
    let first := indexAt bandwidth (inBand range).low
    match stopIndex? bandwidth (inBand range).high first with
    | some stop => .ok (row bandwidth first stop)
    | none => .error .indexOverflow
  else .error (.invalidRule "iap" "iap_bandwidth_hz" bandwidth)

end Raster

end SpectrumShare
