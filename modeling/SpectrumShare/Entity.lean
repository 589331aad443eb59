import SpectrumShare.Frequency
import SpectrumShare.Place

/-! # Protected entities

An incumbent is a coastal radar sensor, an area with a licensed or a grandfathered network, or a
satellite earth station, which is protected twice: inside its own band and from blocking. -/
namespace SpectrumShare

inductive EntityKind
  | esc
  | ppa
  | gwpz
  | fssCochannel
  | fssBlocking
  deriving DecidableEq, Repr

/-- The kind as a reader sees it. -/
def EntityKind.title : EntityKind → String
  | .esc => "ESC"
  | .ppa => "PPA"
  | .gwpz => "GWPZ"
  | .fssCochannel => "FSS co-channel"
  | .fssBlocking => "FSS blocking"

/-- The kinds in the order of their rules. -/
def EntityKind.all : List EntityKind := [.esc, .ppa, .gwpz, .fssCochannel, .fssBlocking]

inductive Region
  | urban
  | suburban
  | rural
  deriving DecidableEq, Repr

/-- The gain of an antenna at an angle from its boresight. -/
structure PatternSample (α : Type) where
  angle : α
  gain : α
  deriving DecidableEq, Repr

structure RadarSensor (α : Type) where
  id : String
  position : Position α
  height : α
  azimuth : α
  gain : α
  pattern : List (PatternSample α)
  deriving DecidableEq, Repr

structure LicensedArea (α : Type) where
  id : String
  zone : List (Position α)
  region : Option Region
  licences : List String
  deriving DecidableEq, Repr

structure GrandfatheredArea (α : Type) where
  id : String
  zone : List (Position α)
  clutter : Option Region
  range : Option (FrequencyRange α)
  deriving DecidableEq, Repr

structure EarthStation (α : Type) where
  id : String
  position : Position α
  height : α
  gain : α
  azimuth : α
  elevation : α
  range : Option (FrequencyRange α)
  /-- Whether the station carries telemetry, tracking and control. -/
  telemetry : Option Bool
  deriving DecidableEq, Repr

inductive Entity (α : Type)
  | esc (sensor : RadarSensor α)
  | ppa (area : LicensedArea α)
  | gwpz (area : GrandfatheredArea α)
  | fssCochannel (station : EarthStation α)
  | fssBlocking (station : EarthStation α)
  deriving DecidableEq, Repr

namespace Entity

variable {α : Type}

def kind : Entity α → EntityKind
  | .esc _ => .esc
  | .ppa _ => .ppa
  | .gwpz _ => .gwpz
  | .fssCochannel _ => .fssCochannel
  | .fssBlocking _ => .fssBlocking

def id : Entity α → String
  | .esc sensor => sensor.id
  | .ppa area => area.id
  | .gwpz area => area.id
  | .fssCochannel station => station.id
  | .fssBlocking station => station.id

end Entity

/-- A priority licence and the range first assigned to it. -/
structure Licence (α : Type) where
  id : String
  assignment : FrequencyRange α
  deriving DecidableEq, Repr

/-- The antenna of a radar sensor. -/
structure SectorAntenna (α : Type) where
  height : α
  azimuth : α
  gain : α
  pattern : List (PatternSample α)
  deriving DecidableEq, Repr

/-- Where the dish of an earth station stands and points. -/
structure DishPointing (α : Type) where
  position : Position α
  height : α
  gain : α
  azimuth : α
  elevation : α
  deriving DecidableEq, Repr

/-- What receives the interference at a protection point. -/
inductive Receiver (α : Type)
  | sector (antenna : SectorAntenna α)
  | dish (pointing : DishPointing α)
  | area (region : Region)
  deriving DecidableEq, Repr

namespace EarthStation

def pointing {α : Type} (s : EarthStation α) : DishPointing α :=
  ⟨s.position, s.height, s.gain, s.azimuth, s.elevation⟩

end EarthStation

/-- One channel to be protected at one point. -/
structure Constraint (α : Type) where
  position : Position α
  channel : FrequencyRange α
  kind : EntityKind
  deriving DecidableEq, Repr

end SpectrumShare
