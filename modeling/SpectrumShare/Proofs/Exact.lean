import Mathlib.Algebra.Order.Field.Basic
import Mathlib.Algebra.Order.Floor.Ring
import Mathlib.Data.Rat.Floor
import Mathlib.Tactic.Linarith
import Mathlib.Tactic.Positivity
import SpectrumShare.Scalar

/-! # Exact arithmetic

Every ordered field is a scalar type once it is said how its numbers are rounded and which of them
stand for finite values. What is proved over such a field holds of exact arithmetic. Over the rationals
the same definitions run. -/
namespace SpectrumShare

/-- What an ordered field lacks to be a scalar type. A number that is not finite marks an answer that is
none. -/
class Rounding (K : Type) where
  isFinite : K → Bool
  floor : K → Int
  ceil : K → Int
  round : K → Int
  remainder : K → K → K

instance exactScalar {K : Type} [Field K] [LinearOrder K] [Rounding K] : Scalar K where
  toAdd := inferInstance
  toSub := inferInstance
  toMul := inferInstance
  toDiv := inferInstance
  toNeg := inferInstance
  toLT := inferInstance
  toLE := inferInstance
  toNatCast := inferInstance
  toIntCast := inferInstance
  decidableLT := inferInstance
  decidableLE := inferInstance
  isFinite := Rounding.isFinite
  floor := Rounding.floor
  ceil := Rounding.ceil
  round := Rounding.round
  remainder := Rounding.remainder

namespace Scalar

variable {K : Type} [Field K] [LinearOrder K] [Rounding K]

theorem least_eq_min (a b : K) : least a b = min a b := by
  simp [least, min_def]

theorem greatest_eq_max (a b : K) : greatest a b = max a b := by
  simp [greatest, max_def']

theorem same_iff {a b : K} : same a b = true ↔ a = b := by
  rw [same, decide_eq_true_eq, ← le_antisymm_iff]

theorem isPositive_iff {a : K} : isPositive a = true ↔ isFinite a = true ∧ 0 < a := by
  rw [isPositive, Bool.and_eq_true, decide_eq_true_eq, Nat.cast_zero]

end Scalar

/-- Rounding to the whole numbers, halves away from zero. -/
@[reducible] def Rounding.exact {K : Type} [Field K] [LinearOrder K] [FloorRing K]
    (isFinite : K → Bool) : Rounding K where
  isFinite := isFinite
  floor := Int.floor
  ceil := Int.ceil
  round a := if 0 ≤ a then ⌊a + 1 / 2⌋ else ⌈a - 1 / 2⌉
  remainder a b := a - |b| * ⌊a / |b|⌋

instance : Rounding ℚ := .exact fun _ => true

/-- A scale on the rationals that rises and stays above zero, as the decibel scale does on the reals. -/
instance : Decibel ℚ where
  toLinear level := if 0 ≤ level then 1 + level else 1 / (1 - level)
  ofLinear power := if 1 ≤ power then power - 1 else 1 - 1 / power

theorem toLinear_pos (level : ℚ) : 0 < Decibel.toLinear level := by
  simp only [Decibel.toLinear]
  split
  · linarith
  · rename_i low
    have : 0 < 1 - level := by linarith
    positivity

theorem toLinear_strictMono : StrictMono (Decibel.toLinear : ℚ → ℚ) := by
  intro a b rises
  simp only [Decibel.toLinear]
  split
  · rename_i above
    rw [if_pos (above.trans rises.le)]
    linarith
  · rename_i below
    have one : 1 / (1 - a) < 1 := (div_lt_one (by linarith)).2 (by linarith)
    split
    · linarith
    · exact one_div_lt_one_div_of_lt (by linarith) (by linarith)

theorem toLinear_mono : Monotone (Decibel.toLinear : ℚ → ℚ) := toLinear_strictMono.monotone

end SpectrumShare
