import SpectrumShare.Document.Grant

/-! # Entities in documents

An entity is read twice, once for its type and once for its fields, so everything in it must have a
meaning, unused fields included, and it must not be nested too deeply. -/
namespace SpectrumShare

open Json (Fields)

variable {α : Type}

namespace Json

/-- How many arrays and objects may be open at once in what is kept. -/
def depthLimit : Nat := 127

mutual

/-- Whether every number and every string stands for something. -/
def isMeaningful (α : Type) [Numeral α] : Json → Bool
  | .number written => (Numeral.ofJson? (α := α) (.number written)).isSome
  | .string written => (Quoted.decode? written).isSome
  | .array items => areMeaningful α items
  | .object members => haveMeaning α members
  | _ => true

def areMeaningful (α : Type) [Numeral α] : List Json → Bool
  | [] => true
  | item :: rest => item.isMeaningful α && areMeaningful α rest

def haveMeaning (α : Type) [Numeral α] : List (String × Json) → Bool
  | [] => true
  | (key, value) :: rest =>
    (Quoted.decode? key).isSome && value.isMeaningful α && haveMeaning α rest

end

/-- Whether a member gives the type of a record. -/
def isTag (member : String × Json) : Bool := Quoted.decode? member.1 == some "type"

/-- The type of a record, given as a member at any place or as the first item, and its fields. -/
def tagged? : Json → Option (String × Json)
  | .array (tag :: items) => do return ((← text? tag), .array items)
  | .object members =>
    match members.filter isTag with
    | [(_, tag)] => do return ((← text? tag), .object (members.filter (!isTag ·)))
    | _ => none
  | _ => none

/-- Writes a record with its type in front. -/
def withTag (tag : String) : Json → Json
  | .object members => .object ((Quoted.encode "type", .ofText tag) :: members)
  | other => other

end Json

namespace Region

def toJson : Region → Json
  | .urban => .ofText "URBAN"
  | .suburban => .ofText "SUBURBAN"
  | .rural => .ofText "RURAL"

def ofName? : String → Option Region
  | "URBAN" => some .urban
  | "SUBURBAN" => some .suburban
  | "RURAL" => some .rural
  | _ => none

def ofJson? : Json → Option Region :=
  Json.name? (fun value => value matches .null | .object []) ofName?

end Region

variable [Numeral α]

namespace PatternSample

def toJson (s : PatternSample α) : Json :=
  .ofFields [("angle_deg", Numeral.toJson s.angle), ("gain_db", Numeral.toJson s.gain)]

def ofJson? (document : Json) : Option (PatternSample α) := do
  let fields ← document.fields? ["angle_deg", "gain_db"] 2
  return {
    angle := ← fields.required? "angle_deg" Numeral.ofJson?
    gain := ← fields.required? "gain_db" Numeral.ofJson? }

end PatternSample

namespace Position

/-- A vertex is written as its latitude and its longitude. -/
def toVertex (p : Position α) : Json :=
  .array [Numeral.toJson p.latitude, Numeral.toJson p.longitude]

def ofVertex? : Json → Option (Position α)
  | .array [latitude, longitude] => do
    return ⟨← Numeral.ofJson? latitude, ← Numeral.ofJson? longitude⟩
  | _ => none

end Position

namespace RadarSensor

def toJson (s : RadarSensor α) : Json :=
  .ofFields [
    ("id", .ofText s.id),
    ("latitude", Numeral.toJson s.position.latitude),
    ("longitude", Numeral.toJson s.position.longitude),
    ("height_agl_m", Numeral.toJson s.height),
    ("antenna_azimuth_deg", Numeral.toJson s.azimuth),
    ("antenna_gain_dbi", Numeral.toJson s.gain),
    ("azimuth_radiation_pattern", .ofList PatternSample.toJson s.pattern)]

def ofJson? (document : Json) : Option (RadarSensor α) := do
  let fields ← document.fields?
    ["id", "latitude", "longitude", "height_agl_m", "antenna_azimuth_deg", "antenna_gain_dbi",
      "azimuth_radiation_pattern"] 6
  return {
    id := ← fields.required? "id" Json.text?
    position := {
      latitude := ← fields.required? "latitude" Numeral.ofJson?
      longitude := ← fields.required? "longitude" Numeral.ofJson? }
    height := ← fields.required? "height_agl_m" Numeral.ofJson?
    azimuth := ← fields.required? "antenna_azimuth_deg" Numeral.ofJson?
    gain := ← fields.required? "antenna_gain_dbi" Numeral.ofJson?
    pattern :=
      ← fields.orDefault? "azimuth_radiation_pattern" (Json.list? PatternSample.ofJson?) [] }

end RadarSensor

namespace LicensedArea

def toJson (a : LicensedArea α) : Json :=
  .ofFields [
    ("id", .ofText a.id),
    ("zone", .ofList Position.toVertex a.zone),
    ("region_type", .ofOption Region.toJson a.region),
    ("pal_ids", .ofList Json.ofText a.licences)]

def ofJson? (document : Json) : Option (LicensedArea α) := do
  let fields ← document.fields? ["id", "zone", "region_type", "pal_ids"] 2
  return {
    id := ← fields.required? "id" Json.text?
    zone := ← fields.required? "zone" (Json.list? Position.ofVertex?)
    region := ← fields.optional? "region_type" Region.ofJson?
    licences := ← fields.orDefault? "pal_ids" (Json.list? Json.text?) [] }

end LicensedArea

namespace GrandfatheredArea

def toJson (a : GrandfatheredArea α) : Json :=
  .ofFields [
    ("id", .ofText a.id),
    ("zone", .ofList Position.toVertex a.zone),
    ("clutter", .ofOption Region.toJson a.clutter),
    ("operation_frequency_range", .ofOption FrequencyRange.toJson a.range)]

def ofJson? (document : Json) : Option (GrandfatheredArea α) := do
  let fields ← document.fields? ["id", "zone", "clutter", "operation_frequency_range"] 2
  return {
    id := ← fields.required? "id" Json.text?
    zone := ← fields.required? "zone" (Json.list? Position.ofVertex?)
    clutter := ← fields.optional? "clutter" Region.ofJson?
    range := ← fields.optional? "operation_frequency_range" FrequencyRange.ofJson? }

end GrandfatheredArea

namespace EarthStation

def toJson (s : EarthStation α) : Json :=
  .ofFields [
    ("id", .ofText s.id),
    ("latitude", Numeral.toJson s.position.latitude),
    ("longitude", Numeral.toJson s.position.longitude),
    ("height_agl_m", Numeral.toJson s.height),
    ("antenna_gain_dbi", Numeral.toJson s.gain),
    ("antenna_azimuth_deg", Numeral.toJson s.azimuth),
    ("antenna_elevation_deg", Numeral.toJson s.elevation),
    ("operation_frequency_range", .ofOption FrequencyRange.toJson s.range),
    ("ttc_flag", .ofOption Json.bool s.telemetry)]

def ofJson? (document : Json) : Option (EarthStation α) := do
  let fields ← document.fields?
    ["id", "latitude", "longitude", "height_agl_m", "antenna_gain_dbi", "antenna_azimuth_deg",
      "antenna_elevation_deg", "operation_frequency_range", "ttc_flag"] 7
  return {
    id := ← fields.required? "id" Json.text?
    position := {
      latitude := ← fields.required? "latitude" Numeral.ofJson?
      longitude := ← fields.required? "longitude" Numeral.ofJson? }
    height := ← fields.required? "height_agl_m" Numeral.ofJson?
    gain := ← fields.required? "antenna_gain_dbi" Numeral.ofJson?
    azimuth := ← fields.required? "antenna_azimuth_deg" Numeral.ofJson?
    elevation := ← fields.required? "antenna_elevation_deg" Numeral.ofJson?
    range := ← fields.optional? "operation_frequency_range" FrequencyRange.ofJson?
    telemetry := ← fields.optional? "ttc_flag" Json.bool? }

end EarthStation

namespace Entity

def toJson : Entity α → Json
  | .esc sensor => .withTag "esc" sensor.toJson
  | .ppa area => .withTag "ppa" area.toJson
  | .gwpz area => .withTag "gwpz" area.toJson
  | .fssCochannel station => .withTag "fss_cochannel" station.toJson
  | .fssBlocking station => .withTag "fss_blocking" station.toJson

/-- The entity of a type that the fields of a record stand for. -/
def ofTagged? (tag : String) (fields : Json) : Option (Entity α) :=
  match tag with
  | "esc" => .esc <$> RadarSensor.ofJson? fields
  | "ppa" => .ppa <$> LicensedArea.ofJson? fields
  | "gwpz" => .gwpz <$> GrandfatheredArea.ofJson? fields
  | "fss_cochannel" => .fssCochannel <$> EarthStation.ofJson? fields
  | "fss_blocking" => .fssBlocking <$> EarthStation.ofJson? fields
  | _ => none

/-- The entity that the content of a document stands for. -/
def content? (document : Json) : Option (Entity α) := do
  let (tag, fields) ← document.tagged?
  ofTagged? tag fields

/-- Whether the document of an entity inside `outer` arrays and objects can be kept. -/
def isKept (α : Type) [Numeral α] (outer : Nat) (document : Json) : Bool :=
  document.isMeaningful α && decide (outer + document.depth ≤ Json.depthLimit)

/-- An entity inside `outer` arrays and objects. -/
def ofJson? (outer : Nat) (document : Json) : Option (Entity α) :=
  if isKept α outer document then content? document else none

end Entity

end SpectrumShare
