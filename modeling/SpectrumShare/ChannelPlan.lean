import SpectrumShare.Raster
import SpectrumShare.Rules

/-! # Channel plans

A plan fixes, before any point is looked at, the channels on which an entity is protected and the
interference that each of them may carry. -/
namespace SpectrumShare

open Scalar

structure PlannedChannel (α : Type) where
  channel : FrequencyRange α
  /-- Milliwatts. -/
  quota : α
  deriving DecidableEq, Repr

structure ChannelPlan (α : Type) where
  kind : EntityKind
  span : FrequencyRange α
  channels : List (PlannedChannel α)
  deriving DecidableEq, Repr

namespace ChannelPlan

variable {α : Type} [Scalar α] [Decibel α]

/-- The quota of a channel is the threshold; only a radar sensor's falls off. -/
def quota (kind : EntityKind) (channel : FrequencyRange α) (threshold : Threshold α)
    (rules : Rules α) : α :=
  match kind with
  | .esc =>
    let rolloff := rules.rolloff channel
    if same rolloff ((0 : Nat) : α) then threshold.mw
    else Decibel.toLinear (threshold.dbm - rolloff)
  | _ => threshold.mw

/-- Blocking takes the span as one channel; every other kind is protected on the raster. -/
def resolve (kind : EntityKind) (span : FrequencyRange α) (threshold : Threshold α)
    (rules : Rules α) : Except (Error α) (ChannelPlan α) := do
  span.validate
  let channels ← match kind with
    | .fssBlocking => .ok [span]
    | _ => Raster.channels span rules.channelBandwidth
  return ⟨kind, span, channels.map fun c => ⟨c, quota kind c threshold rules⟩⟩

end ChannelPlan

end SpectrumShare
