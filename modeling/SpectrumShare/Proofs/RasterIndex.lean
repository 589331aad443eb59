import SpectrumShare.Proofs.Raster

/-! # How far the raster is counted

Channels are counted from the low edge of the band in 64 bits, and a channel may be as narrow as one likes.
The narrower it is, the sooner the counting comes to its end: the search finds its last channel
(`exists_row`) or leaves the range without an answer (`channels_eq_overflow`). -/

namespace SpectrumShare.Raster

open Scalar

section

variable {α : Type} [Scalar α] {bandwidth high : α} {first : Int}

/-- If no channel up to the last one that can be counted is high enough, the search fails. -/
theorem stopIndex?_eq_none (short : ∀ i, first ≤ i → i ≤ Word.greatest → ¬ high ≤ edge bandwidth i)
    (ahead : first ≤ Word.greatest) : stopIndex? bandwidth high first = none := by
  fun_induction stopIndex? bandwidth high first with
  | case1 index reached => exact absurd reached (short index le_rfl ahead)
  | case2 index below within ih =>
    apply ih
    · intro i later
      exact short i (by omega)
    · omega
  | case3 index below beyond => rfl

theorem channels_eq_overflow {range : FrequencyRange α} (valid : range.validate = .ok ())
    (width : isPositive bandwidth = true)
    (lost : stopIndex? bandwidth (inBand range).high (indexAt bandwidth (inBand range).low) = none) :
    channels range bandwidth = .error .indexOverflow := by
  simp only [channels, valid, if_pos width, lost]
  rfl

end

variable {K : Type} [Field K] [LinearOrder K] [IsStrictOrderedRing K] [FloorRing K] [Rounding K]
  [Rounding.IsExact K] {bandwidth : K} {range : FrequencyRange K}

omit [FloorRing K] [Rounding.IsExact K] in
/-- Whether the channels that can be counted reach a frequency, by the number of channels up to it. -/
theorem le_edge_greatest_iff (positive : 0 < bandwidth) {f : K} :
    f ≤ edge bandwidth Word.greatest ↔ (f - 3550000000) / bandwidth ≤ 2 ^ 63 - 1 := by
  have last : (Word.greatest : K) = 2 ^ 63 - 1 := by norm_num [Word.greatest]
  rw [div_le_iff₀ positive, edge_eq, last]
  constructor <;> intro h <;> linarith

/-- The channel of a frequency has an index unless there are 2⁶³ channels or more below it. -/
theorem indexAt_eq_floor_iff (positive : 0 < bandwidth) {f : K} (above : 3550000000 ≤ f) :
    indexAt bandwidth f = ⌊(f - 3550000000) / bandwidth⌋ ↔ (f - 3550000000) / bandwidth < 2 ^ 63 := by
  have beyond : ⌊(f - 3550000000) / bandwidth⌋ < 2 ^ 63 ↔ (f - 3550000000) / bandwidth < 2 ^ 63 := by
    rw [Int.floor_lt]
    norm_num
  rw [indexAt_eq positive above, ← beyond]
  simp only [Word.greatest]
  omega

/-- **How far the raster is counted.** Let a range have finite edges in ascending order, and let the width
of a channel be finite and above zero. The search begins at the channel that holds the low edge of the
range exactly if there are fewer than 2⁶³ channels below it, and at the last index otherwise. It comes to
its end without passing the last index if there are fewer than 2⁶³ channels up to the high edge of the
range; if there are more, the index overflows. -/
theorem channels_counted (valid : range.validate = .ok ()) (finite : isFinite bandwidth = true)
    (positive : 0 < bandwidth) :
    (indexAt bandwidth (inBand range).low = ⌊(max range.low 3550000000 - 3550000000) / bandwidth⌋ ↔
      (max range.low 3550000000 - 3550000000) / bandwidth < 2 ^ 63) ∧
    (2 ^ 63 ≤ (max range.low 3550000000 - 3550000000) / bandwidth →
      indexAt bandwidth (inBand range).low = Word.greatest) ∧
    ((min range.high 3700000000 - 3550000000) / bandwidth ≤ 2 ^ 63 - 1 →
      ∃ stop ≤ Word.greatest,
        channels range bandwidth = .ok (row bandwidth (indexAt bandwidth (inBand range).low) stop)) ∧
    (2 ^ 63 - 1 < (min range.high 3700000000 - 3550000000) / bandwidth →
      channels range bandwidth = .error .indexOverflow) := by
  have width : isPositive bandwidth = true := isPositive_iff.2 ⟨finite, positive⟩
  have above : (3550000000 : K) ≤ max range.low 3550000000 := le_max_right _ _
  have ahead : indexAt bandwidth (inBand range).low ≤ Word.greatest := by
    rw [inBand_low, indexAt_eq positive above]
    exact min_le_left _ _
  refine ⟨?_, ?_, ?_, ?_⟩
  · rw [inBand_low]
    exact indexAt_eq_floor_iff positive above
  · intro many
    have beyond : 2 ^ 63 ≤ ⌊(max range.low 3550000000 - 3550000000) / bandwidth⌋ :=
      Int.le_floor.2 (by exact_mod_cast many)
    rw [inBand_low, indexAt_eq positive above]
    simp only [Word.greatest]
    omega
  · intro few
    apply exists_row valid width
    rw [inBand_high]
    exact (le_edge_greatest_iff positive).2 few
  · intro many
    apply channels_eq_overflow valid width
    apply stopIndex?_eq_none _ ahead
    intro i _ within reached
    have last : edge bandwidth i ≤ edge bandwidth Word.greatest := (edge_strictMono positive).monotone within
    rw [inBand_high] at reached
    exact not_lt.2 ((le_edge_greatest_iff positive).1 (reached.trans last)) many

/-- A range above the band. -/
def farAbove : FrequencyRange ℚ := ⟨3800000000, 3900000000⟩

/-- Of the channels of a hertz the one at its low edge is the 250 millionth, and the search ends. Of those
of a picohertz it has no index, and the search fails. -/
theorem channels_counted_hertz :
    indexAt 1 (inBand farAbove).low = 250000000 ∧
    (∃ stop ≤ Word.greatest, channels farAbove 1 = .ok (row 1 250000000 stop)) ∧
    indexAt (1 / 10 ^ 12) (inBand farAbove).low = Word.greatest ∧
    channels farAbove (1 / 10 ^ 12) = .error .indexOverflow := by
  have valid : farAbove.validate = .ok () := rfl
  have hertz_wide : (0 : ℚ) < 1 := by norm_num
  have picohertz_wide : (0 : ℚ) < 1 / 10 ^ 12 := by norm_num
  obtain ⟨exact_index, -, found, -⟩ := channels_counted valid rfl hertz_wide
  obtain ⟨-, cut_off, -, lost⟩ := channels_counted valid rfl picohertz_wide
  have at_low : indexAt 1 (inBand farAbove).low = 250000000 := by
    rw [exact_index.2 (by norm_num [farAbove])]
    decide +kernel
  rw [at_low] at found
  exact ⟨at_low, found (by norm_num [farAbove]), cut_off (by norm_num [farAbove]),
    lost (by norm_num [farAbove])⟩

/-- The rules accept channels of a picohertz. The range lies above the band and has no channel to be
protected on, but the channel that holds its low edge has no index, and the search fails. -/
theorem narrow_channels_overflow :
    (rulesOfWidth (1 / 10 ^ 12)).validate = .ok () ∧ farAbove.validate = .ok () ∧
      indexAt (1 / 10 ^ 12) farAbove.low ≠ ⌊(farAbove.low - 3550000000) / (1 / 10 ^ 12)⌋ ∧
      channels farAbove (rulesOfWidth (1 / 10 ^ 12)).channelBandwidth = .error .indexOverflow := by
  refine ⟨?_, rfl, ?_, ?_⟩ <;> decide +kernel

end SpectrumShare.Raster
