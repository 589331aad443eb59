import SpectrumShare.Proofs.Lattice

/-! # Keys absorb the noise of a grid

A grid of whole arc-seconds has its places at whole ninths of a micro-degree. A half is no such ninth, and
none lies nearer to it than an eighteenth, on either side of zero. So what lies less than an eighteenth away
from a ninth is rounded as it is. -/

namespace SpectrumShare

open Scalar

theorem Word.saturate_mono : Monotone Word.saturate := by
  intro m n rises
  exact max_le_max_left _ (min_le_min_left _ rises)

variable {K : Type} [Field K] [LinearOrder K] [IsStrictOrderedRing K] [FloorRing K] [Rounding K]
  [Rounding.IsExact K]

namespace Scalar

theorem abs_round_sub_le (a : K) : |(round a : K) - a| ≤ 1 / 2 := by
  rw [round_eq, abs_le]
  split
  · have below := Int.floor_le (a + 1 / 2)
    have above := Int.lt_floor_add_one (a + 1 / 2)
    constructor <;> linarith
  · have above := Int.le_ceil (a - 1 / 2)
    have below := Int.ceil_lt_add_one (a - 1 / 2)
    constructor <;> linarith

/-- A number less than a half away from a whole one is rounded to it. -/
theorem round_eq_of_abs_lt {a : K} {n : Int} (near : |a - n| < 1 / 2) : round a = n := by
  have moved := abs_round_sub_le a
  have close : |((round a - n : Int) : K)| < 1 := by
    calc |((round a - n : Int) : K)| = |((round a : K) - a) + (a - n)| := by push_cast; congr 1; ring
      _ ≤ |(round a : K) - a| + |a - n| := abs_add_le _ _
      _ < 1 := by linarith
  have whole : |round a - n| < 1 := by exact_mod_cast close
  have same := Int.abs_lt_one_iff.1 whole
  omega

omit [FloorRing K] [Rounding K] [Rounding.IsExact K] in
/-- Four ninths at most lie between a ninth and the whole number next to it. -/
theorem exists_whole_near (m : Int) : ∃ n : Int, |(m : K) / 9 - n| ≤ 4 / 9 := by
  have low : -4 ≤ m - 9 * ((m + 4) / 9) := by omega
  have high : m - 9 * ((m + 4) / 9) ≤ 4 := by omega
  have low_cast : (-4 : K) ≤ m - 9 * ((m + 4) / 9 : Int) := by exact_mod_cast low
  have high_cast : (m : K) - 9 * ((m + 4) / 9 : Int) ≤ 4 := by exact_mod_cast high
  refine ⟨(m + 4) / 9, ?_⟩
  rw [abs_le]
  constructor <;> linarith

theorem round_eq_of_ninth {a : K} {m : Int} (near : |a - m / 9| < 1 / 18) :
    round a = round ((m : K) / 9) := by
  obtain ⟨n, beside⟩ := exists_whole_near (K := K) m
  have ninth : round ((m : K) / 9) = n := by
    apply round_eq_of_abs_lt
    linarith
  rw [ninth]
  apply round_eq_of_abs_lt
  calc |a - n| = |(a - m / 9) + (m / 9 - n)| := by congr 1; ring
    _ ≤ |a - m / 9| + |(m : K) / 9 - n| := abs_add_le _ _
    _ < 1 / 2 := by linarith

end Scalar

/-- Degrees whose nearest micro-degree is in the 64-bit range. -/
def Keyed (degrees : K) : Prop :=
  Word.least ≤ Scalar.round (degrees * microPerDegree) ∧
    Scalar.round (degrees * microPerDegree) ≤ Word.greatest

section

variable {degrees : K}

omit [IsStrictOrderedRing K] [FloorRing K] [Rounding.IsExact K]

theorem microPerDegree_eq : (microPerDegree : K) = 1000000 := by
  simp [microPerDegree]

theorem toMicro_of_keyed (keyed : Keyed degrees) :
    toMicro degrees = Scalar.round (degrees * 1000000) := by
  rw [toMicro, Word.saturate_of_mem keyed.1 keyed.2, microPerDegree_eq]

end

theorem toMicro_mono : Monotone (toMicro : K → Int) := by
  intro a b rises
  apply Word.saturate_mono
  apply Scalar.round_mono
  rw [microPerDegree_eq]
  linarith

theorem toMicro_ofMicro {k : Int} (above : Word.least ≤ k) (below : k ≤ Word.greatest) :
    toMicro (ofMicro k : K) = k := by
  have back : (ofMicro k : K) * microPerDegree = k := by
    rw [ofMicro, microPerDegree_eq]
    ring
  rw [toMicro, back, Scalar.round_intCast, Word.saturate_of_mem above below]

/-- A key stands for degrees that are half a micro-degree away at most. -/
theorem abs_ofMicro_toMicro_le {degrees : K} (keyed : Keyed degrees) :
    |ofMicro (toMicro degrees) - degrees| ≤ 1 / 2 / 1000000 := by
  have moved := Scalar.abs_round_sub_le (degrees * 1000000)
  rw [abs_le] at moved ⊢
  rw [ofMicro, microPerDegree_eq, toMicro_of_keyed keyed]
  constructor <;> linarith

/-! ### The places of a grid of whole arc-seconds -/

/-- Whole arc-seconds are ninths of a micro-degree, so what lies less than an eighteenth away has their key. -/
theorem toMicro_of_near {arcseconds : Int} {x : K} (near : |x - arcseconds / 3600| < 1 / 18 / 1000000) :
    toMicro x = toMicro ((arcseconds : K) / 3600) := by
  have ninths : (arcseconds : K) / 3600 * 1000000 = (2500 * arcseconds : Int) / 9 := by
    push_cast
    ring
  have same : Scalar.round (x * 1000000) = Scalar.round ((arcseconds : K) / 3600 * 1000000) := by
    rw [ninths]
    apply Scalar.round_eq_of_ninth
    rw [← ninths, abs_lt]
    rw [abs_lt] at near
    constructor <;> linarith
  rw [toMicro, toMicro, microPerDegree_eq, same]

/-- Whole arc-seconds are told apart, in their order. -/
theorem toMicro_arcseconds_lt {m n : Int} (hm : Keyed ((m : K) / 3600)) (hn : Keyed ((n : K) / 3600))
    (before : m < n) : toMicro ((m : K) / 3600) < toMicro ((n : K) / 3600) := by
  rw [toMicro_of_keyed hm, toMicro_of_keyed hn]
  apply Scalar.round_lt
  have next : (m : K) + 1 ≤ n := by exact_mod_cast before
  linarith

omit [LinearOrder K] [IsStrictOrderedRing K] [FloorRing K] [Rounding K] [Rounding.IsExact K] in
theorem steps_eq (i : Int) (resolution : Nat) :
    (i : K) * resolution / 3600 = ((i * resolution : Int) : K) / 3600 := by
  push_cast
  rfl

theorem toMicro_steps_ne {resolution : Nat} (whole : 1 ≤ resolution) {i j : Int}
    (hi : Keyed ((i : K) * resolution / 3600)) (hj : Keyed ((j : K) * resolution / 3600)) (apart : i ≠ j) :
    toMicro ((i : K) * resolution / 3600) ≠ toMicro ((j : K) * resolution / 3600) := by
  have positive : (0 : Int) < resolution := by omega
  rw [steps_eq] at hi hj
  rw [steps_eq, steps_eq]
  rcases lt_or_gt_of_ne apart with before | after
  · exact (toMicro_arcseconds_lt hi hj (mul_lt_mul_of_pos_right before positive)).ne
  · exact (toMicro_arcseconds_lt hj hi (mul_lt_mul_of_pos_right after positive)).ne'

/-- **Keys absorb the noise of a grid.** In exact arithmetic let the resolution of a grid be a whole number
of arc-seconds. Degrees that lie less than an eighteenth of a micro-degree away from a whole number of steps
have the key of those steps, and so have both coordinates of a position near a place of the grid. Different
numbers of steps have different keys, as long as these are in the 64-bit range. Whatever the degrees are, keys
keep their order; every key of 64 bits comes back from the degrees it stands for; and those degrees are half a
micro-degree at most away from any that have the key, unless these are out of range. -/
theorem noise_absorbed {resolution : Nat} (whole : 1 ≤ resolution) :
    (∀ (i : Int) (x : K), |x - i * resolution / 3600| < 1 / 18 / 1000000 →
      toMicro x = toMicro ((i : K) * resolution / 3600)) ∧
    (∀ (cell : Int × Int) (p : Position K),
      |p.latitude - (Grid.node ((resolution : K) / 3600) cell).latitude| < 1 / 18 / 1000000 →
      |p.longitude - (Grid.node ((resolution : K) / 3600) cell).longitude| < 1 / 18 / 1000000 →
      p.key = (Grid.node ((resolution : K) / 3600) cell).key) ∧
    (∀ i j : Int, Keyed ((i : K) * resolution / 3600) → Keyed ((j : K) * resolution / 3600) → i ≠ j →
      toMicro ((i : K) * resolution / 3600) ≠ toMicro ((j : K) * resolution / 3600)) ∧
    Monotone (toMicro : K → Int) ∧
    (∀ k : Int, Word.least ≤ k → k ≤ Word.greatest → toMicro (ofMicro k : K) = k) ∧
    ∀ x : K, Keyed x → |ofMicro (toMicro x) - x| ≤ 1 / 2 / 1000000 := by
  have steps (i : Int) {x : K} (near : |x - i * resolution / 3600| < 1 / 18 / 1000000) :
      toMicro x = toMicro ((i : K) * resolution / 3600) := by
    rw [steps_eq] at near ⊢
    exact toMicro_of_near near
  refine ⟨fun i x near => steps i near, ?_, fun i j hi hj apart => toMicro_steps_ne whole hi hj apart,
    toMicro_mono, fun k above below => toMicro_ofMicro above below,
    fun x keyed => abs_ofMicro_toMicro_le keyed⟩
  intro cell p latitude longitude
  simp only [Grid.node, ← mul_div_assoc] at latitude longitude
  simp only [Position.key, Grid.node, ← mul_div_assoc, steps cell.1 latitude, steps cell.2 longitude]

/-- The eighth step of two arc-seconds is four ninths above a whole micro-degree. The key of what lies a
nineteenth beyond it is its own, on both sides of zero, and not that of the next step. -/
theorem noise_absorbed_eighth :
    toMicro (8 * 2 / 3600 + 1 / 19 / 1000000 : ℚ) = toMicro (8 * 2 / 3600 : ℚ) ∧
    toMicro (-8 * 2 / 3600 - 1 / 19 / 1000000 : ℚ) = toMicro (-8 * 2 / 3600 : ℚ) ∧
    toMicro (8 * 2 / 3600 : ℚ) ≠ toMicro (9 * 2 / 3600 : ℚ) ∧
    toMicro (ofMicro Word.least : ℚ) = Word.least ∧
    |ofMicro (toMicro (8 * 2 / 3600 : ℚ)) - (8 * 2 / 3600 : ℚ)| ≤ 1 / 2 / 1000000 := by
  obtain ⟨absorbs, -, tells, -, back, stands⟩ := noise_absorbed (K := ℚ) (by decide : 1 ≤ 2)
  have above := absorbs 8 (8 * 2 / 3600 + 1 / 19 / 1000000) (by norm_num [abs_lt])
  have below := absorbs (-8) (-8 * 2 / 3600 - 1 / 19 / 1000000) (by norm_num [abs_lt])
  have apart := tells 8 9 (by unfold Keyed; decide +kernel) (by unfold Keyed; decide +kernel) (by decide)
  have returns := back Word.least le_rfl (by decide)
  have half := stands (8 * 2 / 3600) (by unfold Keyed; decide +kernel)
  exact ⟨above, below, apart, returns, half⟩

/-- The noise may not be an eighteenth: it then reaches a half, which is rounded away from zero. -/
example : toMicro (8 * 2 / 3600 + 1 / 18 / 1000000 : ℚ) ≠ toMicro (8 * 2 / 3600 : ℚ) := by decide +kernel

end SpectrumShare
