import Mathlib.Data.Int.ConditionallyCompleteOrder
import Mathlib.Tactic.Ring
import SpectrumShare.Place
import SpectrumShare.Proofs.Exact

/-! # Keys of places that lie apart

Where numbers are rounded as they should be, halves away from zero, degrees that lie a micro-degree apart
have different keys, as long as both keys are in the 64-bit range. -/

namespace SpectrumShare

/-- Roundings that are those of exact arithmetic. -/
class Rounding.IsExact (K : Type) [Field K] [LinearOrder K] [FloorRing K] [Rounding K] : Prop where
  floor_eq (a : K) : Rounding.floor a = ⌊a⌋
  ceil_eq (a : K) : Rounding.ceil a = ⌈a⌉
  round_eq (a : K) : Rounding.round a = if 0 ≤ a then ⌊a + 1 / 2⌋ else ⌈a - 1 / 2⌉

instance : Rounding.IsExact ℚ where
  floor_eq _ := rfl
  ceil_eq _ := rfl
  round_eq _ := rfl

section

variable {K : Type} [Field K] [LinearOrder K] [IsStrictOrderedRing K]

/-- Degrees whose micro-degrees are in the 64-bit range. -/
def Mapped (degrees : K) : Prop :=
  (Word.least : K) ≤ degrees * 1000000 ∧ degrees * 1000000 ≤ (Word.greatest : K)

theorem Mapped.between {low high degrees : K} (hl : Mapped low) (hh : Mapped high) (above : low ≤ degrees)
    (below : degrees ≤ high) : Mapped degrees := by
  obtain ⟨least, -⟩ := hl
  obtain ⟨-, greatest⟩ := hh
  constructor <;> linarith

end

theorem Word.saturate_of_mem {n : Int} (above : least ≤ n) (below : n ≤ greatest) : saturate n = n := by
  rw [saturate, min_eq_right below, max_eq_right above]

variable {K : Type} [Field K] [LinearOrder K] [FloorRing K] [Rounding K] [Rounding.IsExact K]

namespace Scalar

theorem floor_eq (a : K) : floor a = ⌊a⌋ := Rounding.IsExact.floor_eq a

theorem ceil_eq (a : K) : ceil a = ⌈a⌉ := Rounding.IsExact.ceil_eq a

theorem round_eq (a : K) : round a = if 0 ≤ a then ⌊a + 1 / 2⌋ else ⌈a - 1 / 2⌉ :=
  Rounding.IsExact.round_eq a

variable [IsStrictOrderedRing K]

/-- Rounding keeps the order, also across zero. -/
theorem round_mono : Monotone (round : K → Int) := by
  intro a b rises
  rw [round_eq, round_eq]
  split
  · rename_i above
    rw [if_pos (above.trans rises)]
    exact Int.floor_mono (by linarith)
  · rename_i below
    split
    · -- on either side of zero each rounding stays on its side
      rename_i above
      have under : ⌈a - 1 / 2⌉ ≤ 0 := Int.ceil_le.2 (by push_cast; linarith)
      have reached : 0 ≤ ⌊b + 1 / 2⌋ := Int.le_floor.2 (by push_cast; linarith)
      exact under.trans reached
    · exact Int.ceil_mono (by linarith)

theorem round_intCast (n : Int) : round (n : K) = n := by
  rw [round_eq]
  split
  · rw [Int.floor_eq_iff]
    constructor <;> linarith
  · rw [Int.ceil_eq_iff]
    constructor <;> linarith

theorem round_add_one (a : K) : round a + 1 ≤ round (a + 1) := by
  rw [round_eq, round_eq]
  split
  · rename_i above
    rw [if_pos (by linarith), ← Int.floor_add_one]
    exact Int.floor_mono (by linarith)
  · rename_i below
    split
    · rename_i above
      have under : ⌈a - 1 / 2⌉ ≤ 0 := Int.ceil_le.2 (by push_cast; linarith)
      -- less than a half has come over zero, or a half and more
      by_cases half : a + 1 < 1 / 2
      · have less : ⌈a - 1 / 2⌉ ≤ -1 := Int.ceil_le.2 (by push_cast; linarith)
        have reached : 0 ≤ ⌊a + 1 + 1 / 2⌋ := Int.le_floor.2 (by push_cast; linarith)
        linarith
      · have reached : 1 ≤ ⌊a + 1 + 1 / 2⌋ := Int.le_floor.2 (by push_cast; linarith)
        linarith
    · rw [← Int.ceil_add_one]
      exact Int.ceil_mono (by linarith)

/-- Numbers that lie a whole apart are not rounded to one. -/
theorem round_lt {a b : K} (apart : a + 1 ≤ b) : round a < round b :=
  (Int.lt_add_one_of_le le_rfl).trans_le ((round_add_one a).trans (round_mono apart))

end Scalar

variable [IsStrictOrderedRing K]

theorem toMicro_eq {degrees : K} (mapped : Mapped degrees) :
    toMicro degrees = Scalar.round (degrees * 1000000) := by
  have scale : degrees * microPerDegree = degrees * 1000000 := by
    simp [microPerDegree]
  rw [toMicro, scale]
  apply Word.saturate_of_mem
  · rw [← Scalar.round_intCast (K := K) Word.least]
    exact Scalar.round_mono mapped.1
  · rw [← Scalar.round_intCast (K := K) Word.greatest]
    exact Scalar.round_mono mapped.2

/-- Degrees that lie a micro-degree apart are told apart. -/
theorem toMicro_lt {a b : K} (ha : Mapped a) (hb : Mapped b) (apart : a * 1000000 + 1 ≤ b * 1000000) :
    toMicro a < toMicro b := by
  rw [toMicro_eq ha, toMicro_eq hb]
  exact Scalar.round_lt apart

end SpectrumShare
