import Mathlib.Analysis.SpecialFunctions.Log.Base
import Mathlib.Analysis.SpecialFunctions.Pow.Real
import SpectrumShare.Proofs.Exact

/-! # The decibel scale

Ten decibels are a factor of ten. Powers on the scale of the reals are compared through their tenth
powers, which at a whole level are whole. -/
namespace SpectrumShare

noncomputable instance : Rounding ℝ := .exact fun _ => true

noncomputable instance : Decibel ℝ where
  toLinear level := 10 ^ (level / 10)
  ofLinear power := 10 * Real.logb 10 power

theorem toLinear_nonneg (level : ℝ) : 0 ≤ Decibel.toLinear level :=
  Real.rpow_nonneg (by norm_num) _

theorem toLinear_zero : Decibel.toLinear (0 : ℝ) = 1 := by
  simp [Decibel.toLinear]

theorem toLinear_add (a b : ℝ) :
    Decibel.toLinear (a + b) = Decibel.toLinear a * Decibel.toLinear b := by
  simp only [Decibel.toLinear]
  rw [add_div, Real.rpow_add (by norm_num)]

theorem toLinear_pow_ten (level : Nat) : Decibel.toLinear (level : ℝ) ^ 10 = 10 ^ level := by
  simp only [Decibel.toLinear]
  rw [← Real.rpow_natCast, ← Real.rpow_mul (by norm_num)]
  norm_num

theorem toLinear_between (level low high : Nat) (above : low ^ 10 < 10 ^ level)
    (below : 10 ^ level < high ^ 10) :
    (low : ℝ) < Decibel.toLinear (level : ℝ) ∧ Decibel.toLinear (level : ℝ) < high := by
  have tenth := toLinear_pow_ten level
  constructor
  · apply lt_of_pow_lt_pow_left₀ 10 (toLinear_nonneg _)
    rw [tenth]
    exact_mod_cast above
  · apply lt_of_pow_lt_pow_left₀ 10 (Nat.cast_nonneg high)
    rw [tenth]
    exact_mod_cast below

end SpectrumShare
