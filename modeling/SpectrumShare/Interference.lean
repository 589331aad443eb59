import SpectrumShare.Grant
import SpectrumShare.Pattern

/-! # Interference models

A model says how much interference a grant causes at a receiver when it transmits at a given power. It
may remember the probes made so far, and it may break down instead of answering. The standard one is
that of free space: the power that a grant puts into a channel, less the loss over the distance, plus
the gain of the receiver in its direction. -/
namespace SpectrumShare

open Scalar Trigonometry

structure InterferenceModel (σ α : Type) where
  /-- dBm at the receiver; none when the model breaks down. -/
  level : Grant α → α → Constraint α → Receiver α → StateM σ (Option α)

/-- A model that always answers and remembers nothing. -/
def InterferenceModel.pure {σ α : Type}
    (level : Grant α → α → Constraint α → Receiver α → α) : InterferenceModel σ α where
  level grant eirp constraint receiver := Pure.pure (some (level grant eirp constraint receiver))

structure FreeSpace (α : Type) where
  /-- Grants nearer than this many metres are taken to be this far away. -/
  minDistance : α
  /-- The receive gain of an area. -/
  areaGain : α
  deriving DecidableEq, Repr

namespace FreeSpace

variable {α : Type} [Scalar α]

def standard : FreeSpace α := ⟨((1 : Nat) : α), ((0 : Nat) : α)⟩

/-- The loss in dB over metres at a frequency in hertz. -/
def pathLoss [Trigonometry α] (distance frequency : α) : α :=
  ((20 : Nat) : α) * log10 distance + ((20 : Nat) : α) * log10 frequency -
    ((14755 : Nat) : α) / ((100 : Nat) : α)

def receiveGain [Trigonometry α] (space : FreeSpace α) (grant : Position α) (point : Position α) :
    Receiver α → α
  | .sector antenna =>
    if antenna.pattern.isEmpty then antenna.gain
    else antenna.gain + Pattern.gain antenna.pattern antenna.azimuth (Sphere.direction point grant)
  | .dish pointing => pointing.gain
  | .area _ => space.areaGain

/-- The level in dBm; a grant outside the channel counts as sharing one kilohertz with it. -/
def level [Trigonometry α] [Decibel α] (space : FreeSpace α) (grant : Grant α) (eirp : α)
    (constraint : Constraint α) (receiver : Receiver α) : α :=
  let width := greatest (grant.range.overlap constraint.channel / megahertz 1)
    (((1 : Nat) : α) / ((1000 : Nat) : α))
  let distance := greatest (Sphere.distance grant.position constraint.position) space.minDistance
  eirp + Decibel.ofLinear width - pathLoss distance constraint.channel.center +
    space.receiveGain grant.position constraint.position receiver

def model {σ : Type} [Trigonometry α] [Decibel α] (space : FreeSpace α) : InterferenceModel σ α :=
  .pure space.level

end FreeSpace

end SpectrumShare
