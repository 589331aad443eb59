import SpectrumShare.Demo.Scenario
import SpectrumShare.Double.Arithmetic

/-! # A small random source

A counter goes on by a fixed odd step, and its value is mixed into 64 bits that look random. -/
namespace SpectrumShare.Demo

structure Mixer where
  counter : UInt64

namespace Mixer

def mix (z : UInt64) : UInt64 :=
  let z := (z ^^^ (z >>> 30)) * 0xBF58476D1CE4E5B9
  let z := (z ^^^ (z >>> 27)) * 0x94D049BB133111EB
  z ^^^ (z >>> 31)

def next : StateM Mixer UInt64 := do
  let counter := (← get).counter + 0x9E3779B97F4A7C15
  set (Mixer.mk counter)
  return mix counter

/-- A number from zero up to but not one, of 53 bits. -/
def unit : StateM Mixer Float := do return ((← next) >>> 11).toFloat / 9007199254740992.0

def chance : Chance Mixer Float where
  real low high := do
    let x := low + (← unit) * (high - low)
    return if x < high then x else low
  whole low high := do return low + (← next).toNat % (high + 1 - low)
  flip percent := do return decide ((← next).toNat % 100 < percent)

end Mixer

end SpectrumShare.Demo
