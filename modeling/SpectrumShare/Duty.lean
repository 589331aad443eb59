import SpectrumShare.Error
import SpectrumShare.Grant

/-! # What protecting an entity comes down to

From an entity follow the span to protect, the places to protect it at and the receiver there. Some
entities are exempt, and of some nothing lies in the band. -/
namespace SpectrumShare

/-- Where a target is protected. -/
inductive Sites (α : Type)
  | station (point : Position α)
  | grid (points : List (Position α))
  deriving DecidableEq, Repr

structure Target (α : Type) where
  kind : EntityKind
  span : FrequencyRange α
  sites : Sites α
  receiver : Receiver α
  deriving DecidableEq, Repr

inductive Duty (α : Type)
  /-- The entity is not protected. -/
  | exempt
  /-- The entity is protected, but nothing of it lies in the band. -/
  | idle
  | protect (target : Target α)
  deriving DecidableEq, Repr

def require {α ν : Type} (kind : EntityKind) (field : String) : Option ν → Except (Error α) ν
  | some value => .ok value
  | none => .error (.missingField kind field)

namespace Duty

variable {α : Type} [Scalar α]

def ofRadar (sensor : RadarSensor α) : Except (Error α) (Duty α) := do
  let antenna ← sensor.antenna
  return .protect ⟨.esc, FrequencyRange.radar, .station sensor.position, .sector antenna⟩

/-- An area whose first licence is not on record is not protected. -/
def ofLicensed (grid : List (Position α) → Except (Error α) (List (Position α)))
    (records : List (Licence α)) (area : LicensedArea α) : Except (Error α) (Duty α) := do
  let licence ← require .ppa "pal_ids" area.licences.head?
  let region ← require .ppa "region_type" area.region
  match records.find? (·.id == licence) with
  | none => return .exempt
  | some record =>
    return .protect ⟨.ppa, record.assignment, .grid (← grid area.zone), .area region⟩

def ofGrandfathered (grid : List (Position α) → Except (Error α) (List (Position α)))
    (area : GrandfatheredArea α) : Except (Error α) (Duty α) := do
  let span ← require .gwpz "operation_frequency_range" area.range
  let region ← require .gwpz "clutter" area.clutter
  return .protect ⟨.gwpz, span, .grid (← grid area.zone), .area region⟩

/-- A station is protected from its low edge to the top of the band; one above the band has nothing to
protect there. -/
def ofCochannel (station : EarthStation α) : Except (Error α) (Duty α) := do
  let range ← require .fssCochannel "operation_frequency_range" station.range
  let top := FrequencyRange.cbrs.high
  if top ≤ range.low then return .idle
  return .protect ⟨.fssCochannel, ⟨range.low, top⟩, .station station.position, .dish station.pointing⟩

/-- A station inside the telemetry band is protected from blocking only when it carries telemetry; one
that reaches below the shared band has nothing to block. -/
def ofBlocking (station : EarthStation α) : Except (Error α) (Duty α) := do
  let range ← require .fssBlocking "operation_frequency_range" station.range
  let telemetry ← require .fssBlocking "ttc_flag" station.telemetry
  let band : FrequencyRange α := FrequencyRange.telemetry
  if band.low ≤ range.low ∧ range.high ≤ band.high ∧ telemetry = false then return .exempt
  let bottom := FrequencyRange.cbrs.low
  if range.low ≤ bottom then return .idle
  return .protect
    ⟨.fssBlocking, ⟨bottom, range.low⟩, .station station.position, .dish station.pointing⟩

/-- The duty towards an entity, given how a zone is turned into points and which licences are on
record. -/
def ofEntity (grid : List (Position α) → Except (Error α) (List (Position α)))
    (records : List (Licence α)) : Entity α → Except (Error α) (Duty α)
  | .esc sensor => ofRadar sensor
  | .ppa area => ofLicensed grid records area
  | .gwpz area => ofGrandfathered grid area
  | .fssCochannel station => ofCochannel station
  | .fssBlocking station => ofBlocking station

end Duty

end SpectrumShare
