import SpectrumShare.Json.Fields
import SpectrumShare.Neighborhood
import SpectrumShare.Rules

/-! # Rules and radii in documents

What a document leaves out stands at its standard value; a rule for one kind is given whole. -/
namespace SpectrumShare

open Json (Fields)

variable {α : Type} [Numeral α]

namespace ThresholdRule

def toJson (r : ThresholdRule α) : Json :=
  .ofFields [
    ("noise_floor_dbm_per_rbw", Numeral.toJson r.noiseFloor),
    ("reference_bandwidth_hz", .ofOption Numeral.toJson r.referenceBandwidth),
    ("margin_db", Numeral.toJson r.margin)]

def ofJson? (document : Json) : Option (ThresholdRule α) := do
  let fields ← document.fields?
    ["noise_floor_dbm_per_rbw", "reference_bandwidth_hz", "margin_db"] 3
  return {
    noiseFloor := ← fields.required? "noise_floor_dbm_per_rbw" Numeral.ofJson?
    referenceBandwidth := ← fields.optional? "reference_bandwidth_hz" Numeral.ofJson?
    margin := ← fields.required? "margin_db" Numeral.ofJson? }

end ThresholdRule

namespace Rules

def toJson (r : Rules α) : Json :=
  .ofFields [
    ("esc", r.esc.toJson),
    ("ppa", r.ppa.toJson),
    ("gwpz", r.gwpz.toJson),
    ("fss_cochannel", r.fssCochannel.toJson),
    ("fss_blocking", r.fssBlocking.toJson),
    ("iap_bandwidth_hz", Numeral.toJson r.channelBandwidth),
    ("grid_resolution_arcsec", Numeral.toJson r.gridResolution),
    ("esc_rolloff_start_hz", Numeral.toJson r.rolloffStart),
    ("esc_rolloff_reference_hz", Numeral.toJson r.rolloffReference),
    ("esc_rolloff_base_db", Numeral.toJson r.rolloffBase),
    ("eirp_floor_dbm_per_mhz", Numeral.toJson r.eirpFloor)]

def ofJson? [Scalar α] (document : Json) : Option (Rules α) := do
  let fields ← document.fields?
    ["esc", "ppa", "gwpz", "fss_cochannel", "fss_blocking", "iap_bandwidth_hz",
      "grid_resolution_arcsec", "esc_rolloff_start_hz", "esc_rolloff_reference_hz",
      "esc_rolloff_base_db", "eirp_floor_dbm_per_mhz"] 0
  let rule (kind : EntityKind) : Option (ThresholdRule α) :=
    fields.orDefault? (groupName kind) ThresholdRule.ofJson? (standard.ruleFor kind)
  let number (name : String) (default : α) : Option α :=
    fields.orDefault? name Numeral.ofJson? default
  return {
    esc := ← rule .esc
    ppa := ← rule .ppa
    gwpz := ← rule .gwpz
    fssCochannel := ← rule .fssCochannel
    fssBlocking := ← rule .fssBlocking
    channelBandwidth := ← number "iap_bandwidth_hz" standard.channelBandwidth
    gridResolution := ← number "grid_resolution_arcsec" standard.gridResolution
    rolloffStart := ← number "esc_rolloff_start_hz" standard.rolloffStart
    rolloffReference := ← number "esc_rolloff_reference_hz" standard.rolloffReference
    rolloffBase := ← number "esc_rolloff_base_db" standard.rolloffBase
    eirpFloor := ← number "eirp_floor_dbm_per_mhz" standard.eirpFloor }

end Rules

namespace Radii

def toJson (r : Radii α) : Json :=
  .ofFields [
    ("esc_category_a_m", Numeral.toJson r.escCategoryA),
    ("esc_category_b_m", Numeral.toJson r.escCategoryB),
    ("ppa_m", Numeral.toJson r.ppa),
    ("gwpz_m", Numeral.toJson r.gwpz),
    ("fss_cochannel_m", Numeral.toJson r.fssCochannel),
    ("fss_blocking_m", Numeral.toJson r.fssBlocking)]

def ofJson? [Scalar α] (document : Json) : Option (Radii α) := do
  let fields ← document.fields?
    ["esc_category_a_m", "esc_category_b_m", "ppa_m", "gwpz_m", "fss_cochannel_m",
      "fss_blocking_m"] 0
  let number (name : String) (default : α) : Option α :=
    fields.orDefault? name Numeral.ofJson? default
  return {
    escCategoryA := ← number "esc_category_a_m" standard.escCategoryA
    escCategoryB := ← number "esc_category_b_m" standard.escCategoryB
    ppa := ← number "ppa_m" standard.ppa
    gwpz := ← number "gwpz_m" standard.gwpz
    fssCochannel := ← number "fss_cochannel_m" standard.fssCochannel
    fssBlocking := ← number "fss_blocking_m" standard.fssBlocking }

end Radii

end SpectrumShare
