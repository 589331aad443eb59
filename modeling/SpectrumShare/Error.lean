import SpectrumShare.Entity

/-! # Why an allocation is refused -/
namespace SpectrumShare

inductive Error (α : Type)
  | missingField (kind : EntityKind) (field : String)
  | invalidRange (low high : α)
  | invalidRule (rule field : String) (value : α)
  | degeneratePolygon (vertices : Nat)
  | emptyPeerGroup
  /-- Lowering the power of a grant did not lower its interference. -/
  | notFalling (grant : String) (eirp previous current : α)
  | notFinite (grant : String) (level : α)
  | floorReached (grant : String) (floor share : α)
  | misalignedTotals (key : PointKey)
  /-- The raster has more channels than a 64-bit index can count. -/
  | indexOverflow
  | workerLost
  deriving DecidableEq, Repr

namespace Error

variable {α : Type} [Scalar α] [Numeral α]

def message : Error α → String
  | .missingField kind field => kind.title ++ " descriptor is missing required field `" ++ field ++ "`"
  | .invalidRange low high =>
    "invalid frequency range " ++ Numeral.message low ++ " Hz .. " ++ Numeral.message high ++ " Hz"
  | .invalidRule rule field value =>
    "invalid " ++ rule ++ " rule `" ++ field ++ "`: " ++ Numeral.message value
  | .degeneratePolygon vertices =>
    "protection area polygon needs at least 3 vertices, got " ++ toString vertices
  | .emptyPeerGroup => "peer group size must be at least 1"
  | .notFalling grant eirp previous current =>
    "interference from grant " ++ grant ++ " did not decrease at " ++ Numeral.message eirp ++
      " dBm/MHz (" ++ Numeral.message previous ++ " mW -> " ++ Numeral.message current ++ " mW)"
  | .notFinite grant level =>
    "interference model returned " ++ Numeral.message level ++ " for grant " ++ grant
  | .floorReached grant floor share =>
    "grant " ++ grant ++ " reached the EIRP floor of " ++ Numeral.message floor ++
      " dBm/MHz without fitting a fair share of " ++ Numeral.message share ++ " mW"
  | .misalignedTotals key => "aggregation store misaligned at " ++ key.message α
  | .indexOverflow => "channel index leaves the 64-bit range"
  | .workerLost => "IAP worker thread panicked"

end Error

/-- A sensor needs a pattern to be reckoned with. -/
def RadarSensor.antenna {α : Type} (s : RadarSensor α) : Except (Error α) (SectorAntenna α) :=
  if s.pattern.isEmpty then .error (.missingField .esc "azimuth_radiation_pattern")
  else .ok ⟨s.height, s.azimuth, s.gain, s.pattern⟩

end SpectrumShare
