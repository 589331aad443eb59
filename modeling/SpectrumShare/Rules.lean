import SpectrumShare.Error

/-! # Protection rules

Each kind of entity has a noise floor in a reference bandwidth and a margin below it; together they give
the interference that the entity bears in one channel. -/
namespace SpectrumShare

open Scalar

structure ThresholdRule (α : Type) where
  /-- dBm in the reference bandwidth. -/
  noiseFloor : α
  /-- None when the floor holds for whatever is received. -/
  referenceBandwidth : Option α
  margin : α
  deriving DecidableEq, Repr

structure Rules (α : Type) where
  esc : ThresholdRule α
  ppa : ThresholdRule α
  gwpz : ThresholdRule α
  fssCochannel : ThresholdRule α
  fssBlocking : ThresholdRule α
  /-- The width of a raster channel. -/
  channelBandwidth : α
  /-- Seconds of arc between grid points. -/
  gridResolution : α
  /-- The channel edge from which the radar quota falls off. -/
  rolloffStart : α
  rolloffReference : α
  rolloffBase : α
  /-- dBm per megahertz below which no grant is lowered. -/
  eirpFloor : α
  deriving DecidableEq, Repr

/-- What an entity bears, on both scales. -/
structure Threshold (α : Type) where
  dbm : α
  mw : α
  deriving DecidableEq, Repr

def Threshold.ofDbm {α : Type} [Decibel α] (dbm : α) : Threshold α := ⟨dbm, Decibel.toLinear dbm⟩

namespace Rules

variable {α : Type} [Scalar α]

private def rule (noiseFloor : Int) (referenceBandwidth : Option α) : ThresholdRule α :=
  ⟨((noiseFloor : Int) : α), referenceBandwidth, ((1 : Nat) : α)⟩

def standard : Rules α where
  esc := rule (-109) (some (megahertz 1))
  ppa := rule (-80) (some (megahertz 10))
  gwpz := rule (-80) (some (megahertz 10))
  fssCochannel := rule (-129) (some (megahertz 1))
  fssBlocking := rule (-60) none
  channelBandwidth := megahertz 5
  gridResolution := ((2 : Nat) : α)
  rolloffStart := megahertz 3650
  rolloffReference := hertz 3652500000
  rolloffBase := ((5 : Nat) : α) / ((2 : Nat) : α)
  eirpFloor := ((-150 : Int) : α)

def ruleFor (rules : Rules α) : EntityKind → ThresholdRule α
  | .esc => rules.esc
  | .ppa => rules.ppa
  | .gwpz => rules.gwpz
  | .fssCochannel => rules.fssCochannel
  | .fssBlocking => rules.fssBlocking

/-- The group of rules that a kind is overridden in. -/
def groupName : EntityKind → String
  | .esc => "esc"
  | .ppa => "ppa"
  | .gwpz => "gwpz"
  | .fssCochannel => "fss_cochannel"
  | .fssBlocking => "fss_blocking"

def requireFinite (group field : String) (value : α) : Except (Error α) Unit :=
  if isFinite value then .ok () else .error (.invalidRule group field value)

def requirePositive (group field : String) (value : α) : Except (Error α) Unit :=
  if isPositive value then .ok () else .error (.invalidRule group field value)

def validateRule (group : String) (rule : ThresholdRule α) : Except (Error α) Unit := do
  requireFinite group "noise_floor_dbm_per_rbw" rule.noiseFloor
  requireFinite group "margin_db" rule.margin
  match rule.referenceBandwidth with
  | none => .ok ()
  | some bandwidth => requirePositive group "reference_bandwidth_hz" bandwidth

/-- Refuses values that make thresholds, channels or grids meaningless, the first one found. -/
def validate (rules : Rules α) : Except (Error α) Unit := do
  requirePositive "iap" "iap_bandwidth_hz" rules.channelBandwidth
  requirePositive "iap" "grid_resolution_arcsec" rules.gridResolution
  requireFinite "iap" "esc_rolloff_start_hz" rules.rolloffStart
  requireFinite "iap" "esc_rolloff_reference_hz" rules.rolloffReference
  requireFinite "iap" "esc_rolloff_base_db" rules.rolloffBase
  requireFinite "iap" "eirp_floor_dbm_per_mhz" rules.eirpFloor
  EntityKind.all.forM fun kind => validateRule (groupName kind) (rules.ruleFor kind)

/-- The threshold of a kind in one channel. The noise floor grows with the channel's share of the
reference bandwidth, except for blocking, which takes the whole band at once. -/
def threshold [Decibel α] (rules : Rules α) (kind : EntityKind) : Threshold α :=
  let rule := rules.ruleFor kind
  let bandwidth := match kind, rule.referenceBandwidth with
    | .fssBlocking, _ => ((0 : Nat) : α)
    | _, none => ((0 : Nat) : α)
    | _, some reference => Decibel.ofLinear (rules.channelBandwidth / reference)
  Threshold.ofDbm (rule.noiseFloor + bandwidth - rule.margin)

/-- How many dB the radar quota of a channel falls off. -/
def rolloff (rules : Rules α) (channel : FrequencyRange α) : α :=
  if rules.rolloffStart ≤ channel.low then
    rules.rolloffBase + (channel.center - rules.rolloffReference) / megahertz 1
  else ((0 : Nat) : α)

end Rules

end SpectrumShare
