import SpectrumShare.Proofs.Raster

/-! # How a grant is spread over the channels

Which grants count in a channel and how much of their bandwidth falls into it are told by different formulas,
the one by comparing edges and the other by the width that is left between them. They agree, and what falls
into channels side by side adds up. -/

namespace SpectrumShare

open Scalar

namespace FrequencyRange

variable {K : Type} [Field K] [LinearOrder K] [Rounding K] {f : FrequencyRange K}

theorem overlap_eq (r s : FrequencyRange K) :
    r.overlap s = max (min r.high s.high - max r.low s.low) 0 := by
  rw [overlap, greatest_eq_max, least_eq_min, greatest_eq_max, Nat.cast_zero]

theorem low_lt_high (valid : f.isValid = true) : f.low < f.high := by
  rw [isValid, Bool.and_eq_true, decide_eq_true_eq] at valid
  exact valid.2

variable [IsStrictOrderedRing K]

theorem overlap_pos_iff {c : FrequencyRange K} (hf : f.low < f.high) (hc : c.low < c.high) :
    0 < f.overlap c ↔ f.overlaps c = true := by
  rw [overlap_eq, lt_max_iff, or_iff_left (lt_irrefl _), sub_pos, lt_min_iff, max_lt_iff, max_lt_iff,
    overlaps_iff]
  constructor
  · rintro ⟨⟨-, below⟩, above, -⟩
    exact ⟨above, below⟩
  · rintro ⟨above, below⟩
    exact ⟨⟨hf, below⟩, above, hc⟩

/-- The width shared with an interval is how much further a range is passed at the end of it than at its
beginning. -/
theorem overlap_eq_sub (hf : f.low ≤ f.high) {a b : K} (ordered : a ≤ b) :
    f.overlap ⟨a, b⟩ = max f.low (min f.high b) - max f.low (min f.high a) := by
  rw [overlap_eq]
  -- where the ends of the interval lie to the edges of the range
  simp only [min_def, max_def]
  split_ifs <;> linarith

/-- A range shares with two ranges side by side what it shares with both as one. -/
theorem overlap_adjoining (hf : f.low ≤ f.high) {a b c : K} (first : a ≤ b) (second : b ≤ c) :
    f.overlap ⟨a, b⟩ + f.overlap ⟨b, c⟩ = f.overlap ⟨a, c⟩ := by
  rw [overlap_eq_sub hf first, overlap_eq_sub hf second, overlap_eq_sub hf (first.trans second)]
  ring

/-- What a range shares with ranges side by side adds up to what it shares with all of them as one. -/
theorem sum_overlap (hf : f.low ≤ f.high) {c last : FrequencyRange K} {rest : List (FrequencyRange K)}
    (adjoins : (c :: rest).IsChain fun c d => c.high = d.low) (ordered : ∀ d ∈ c :: rest, d.low ≤ d.high)
    (ends : (c :: rest).getLast? = some last) :
    c.low ≤ last.high ∧ ((c :: rest).map f.overlap).sum = f.overlap ⟨c.low, last.high⟩ := by
  obtain ⟨first, others⟩ := List.forall_mem_cons.1 ordered
  induction rest generalizing c with
  | nil =>
    cases ends
    exact ⟨first, by simp⟩
  | cons d rest ih =>
    obtain ⟨joint, adjoins⟩ := List.isChain_cons_cons.1 adjoins
    obtain ⟨next, later⟩ := List.forall_mem_cons.1 others
    rw [List.getLast?_cons_cons] at ends
    obtain ⟨beyond, sum⟩ := ih adjoins others ends next later
    rw [← joint] at beyond sum
    refine ⟨first.trans beyond, ?_⟩
    rw [List.map_cons, List.sum_cons, sum]
    exact overlap_adjoining hf first beyond

end FrequencyRange

/-! ## Runs of channels -/

/-- A list in which what holds of an item holds of those before it is cut where it ceases to hold. -/
theorem exists_cut {β : Type} {keep : β → Bool} {values : List β}
    (falls : values.Pairwise fun v w => keep w = true → keep v = true) :
    ∃ kept rest, values = kept ++ rest ∧ (∀ v ∈ kept, keep v = true) ∧ ∀ v ∈ rest, keep v = false := by
  induction values with
  | nil => exact ⟨[], [], rfl, nofun, nofun⟩
  | cons v values ih =>
    obtain ⟨before, later⟩ := List.pairwise_cons.1 falls
    cases here : keep v with
    | true =>
      obtain ⟨kept, rest, rfl, keeps, drops⟩ := ih later
      exact ⟨v :: kept, rest, rfl, List.forall_mem_cons.2 ⟨here, keeps⟩, drops⟩
    | false =>
      refine ⟨[], v :: values, rfl, nofun, List.forall_mem_cons.2 ⟨here, fun w there => ?_⟩⟩
      by_contra kept
      rw [before w there (Bool.not_eq_false _ ▸ kept)] at here
      cases here

/-- The items that have one such property no longer and another one still follow one another. -/
theorem exists_run {β : Type} {early below : β → Bool} {values : List β}
    (rises : values.Pairwise fun v w => early w = true → early v = true)
    (falls : values.Pairwise fun v w => below w = true → below v = true) :
    ∃ before here after, values = before ++ here ++ after ∧ (∀ v ∈ before, early v = true) ∧
      (∀ v ∈ here, early v = false ∧ below v = true) ∧ ∀ v ∈ after, below v = false := by
  obtain ⟨kept, after, rfl, keeps, drops⟩ := exists_cut falls
  obtain ⟨before, here, rfl, passed, reached⟩ := exists_cut (List.pairwise_append.1 rises).1
  exact ⟨before, here, after, rfl, passed,
    fun v there => ⟨reached v there, keeps v (List.mem_append_right before there)⟩, drops⟩

namespace Raster

open FrequencyRange

theorem high_of_mem_row {α : Type} [Scalar α] {bandwidth : α} {first stop : Int} {c : FrequencyRange α}
    (there : c ∈ row bandwidth first stop) : c.high = c.low + bandwidth := by
  obtain ⟨i, -, -, rfl⟩ := mem_row.1 there
  rfl

variable {K : Type} [Field K] [LinearOrder K] [IsStrictOrderedRing K] [Rounding K] {bandwidth : K}

/-- The channels of a row that overlap a range follow one another. -/
theorem exists_run_of_row (positive : 0 < bandwidth) (first stop : Int) (f : FrequencyRange K) :
    ∃ before here after, row bandwidth first stop = before ++ here ++ after ∧
      (∀ c ∈ here, f.overlaps c = true) ∧ ∀ c ∈ before ++ after, f.overlaps c = false := by
  have ascending := row_ascending positive first stop
  have rises : (row bandwidth first stop).Pairwise fun c d =>
      decide (d.high ≤ f.low) = true → decide (c.high ≤ f.low) = true := by
    apply ascending.imp_of_mem
    intro c d hc hd lower early
    have within := of_decide_eq_true early
    rw [high_of_mem_row hd] at within
    rw [high_of_mem_row hc]
    exact decide_eq_true (by linarith)
  have falls : (row bandwidth first stop).Pairwise fun c d =>
      decide (d.low < f.high) = true → decide (c.low < f.high) = true :=
    ascending.imp fun lower below => decide_eq_true (lower.trans (of_decide_eq_true below))
  obtain ⟨before, here, after, parted, passed, reached, beyond⟩ := exists_run rises falls
  refine ⟨before, here, after, parted, fun c there => ?_, fun c there => ?_⟩
  · obtain ⟨late, below⟩ := reached c there
    exact overlaps_iff.2 ⟨not_le.1 (of_decide_eq_false late), of_decide_eq_true below⟩
  · rw [Bool.eq_false_iff, Ne, overlaps_iff]
    rintro ⟨late, below⟩
    rcases List.mem_append.1 there with first | last
    · exact late.not_ge (of_decide_eq_true (passed c first))
    · exact of_decide_eq_false (beyond c last) below

variable [FloorRing K] [Rounding.IsExact K]

/-- **A grant is spread over the channels without loss and counted once.** Let a range and a width be such
that the channels are found, and let there be some. For every range of a grant the widths that it shares
with the channels add up to what it shares with the interval from the first to the last of them, all of it
when it lies inside. It overlaps exactly those channels with which it shares some width, and they follow one
another. -/
theorem bandwidth_spread {range : FrequencyRange K} (valid : range.validate = .ok ())
    (finite : isFinite bandwidth = true) (positive : 0 < bandwidth)
    (few : 150000000 / bandwidth < 2 ^ 63 - 1) :
    ∃ cs, channels range bandwidth = .ok cs ∧
      ∀ first last, cs.head? = some first → cs.getLast? = some last →
        ∀ f : FrequencyRange K, f.isValid = true →
        (cs.map f.overlap).sum = f.overlap ⟨first.low, last.high⟩ ∧
        (first.low ≤ f.low → f.high ≤ last.high → (cs.map f.overlap).sum = f.width) ∧
        (∀ c ∈ cs, f.overlaps c = true ↔ 0 < f.overlap c) ∧
        ∃ before here after, cs = before ++ here ++ after ∧
          (∀ c ∈ here, f.overlaps c = true) ∧ ∀ c ∈ before ++ after, f.overlaps c = false := by
  obtain ⟨cs, covers⟩ := exists_channels valid (isPositive_iff.2 ⟨finite, positive⟩) few
  obtain ⟨-, -, stop, -, rfl⟩ := channels_eq_ok.1 covers
  refine ⟨_, covers, fun first last starts ends f hf => ?_⟩
  have rises := low_lt_high hf
  have wide : ∀ c ∈ row bandwidth (indexAt bandwidth (inBand range).low) stop, c.low < c.high := by
    intro c there
    rw [high_of_mem_row there]
    exact lt_add_of_pos_right c.low positive
  have spread : ((row bandwidth (indexAt bandwidth (inBand range).low) stop).map f.overlap).sum =
      f.overlap ⟨first.low, last.high⟩ := by
    have adjoins := row_adjoins bandwidth (indexAt bandwidth (inBand range).low) stop
    obtain ⟨rest, listed⟩ := List.head?_eq_some_iff.1 starts
    rw [listed] at wide adjoins ends ⊢
    exact (sum_overlap rises.le adjoins (fun c there => (wide c there).le) ends).2
  refine ⟨spread, fun from_first to_last => ?_, fun c there => (overlap_pos_iff rises (wide c there)).symm,
    exists_run_of_row positive _ _ f⟩
  rw [spread, overlap_eq, min_eq_left to_last, max_eq_left from_first, width,
    max_eq_left (sub_pos.2 rises).le]

/-- A grant of 45 MHz that ends where a channel of 40 MHz does. -/
def acrossChannels : FrequencyRange ℚ := ⟨3625000000, 3670000000⟩

/-- Of three channels it falls into two, and the third only touches it. -/
theorem bandwidth_spread_two :
    ∃ cs : List (FrequencyRange ℚ), channels ⟨3600000000, 3800000000⟩ 40000000 = .ok cs ∧
      cs = [⟨3590000000, 3630000000⟩, ⟨3630000000, 3670000000⟩, ⟨3670000000, 3710000000⟩] ∧
      acrossChannels.isValid = true ∧ (cs.map acrossChannels.overlap).sum = 45000000 ∧
      (acrossChannels.overlaps ⟨3670000000, 3710000000⟩ = true ↔
        0 < acrossChannels.overlap ⟨3670000000, 3710000000⟩) ∧
      ∃ before here after, cs = before ++ here ++ after ∧ (∀ c ∈ here, acrossChannels.overlaps c = true) ∧
        ∀ c ∈ before ++ after, acrossChannels.overlaps c = false := by
  have valid : (⟨3600000000, 3800000000⟩ : FrequencyRange ℚ).validate = .ok () := rfl
  have finite : isFinite (40000000 : ℚ) = true := rfl
  have three : channels (⟨3600000000, 3800000000⟩ : FrequencyRange ℚ) 40000000 =
      .ok [⟨3590000000, 3630000000⟩, ⟨3630000000, 3670000000⟩, ⟨3670000000, 3710000000⟩] := by
    decide +kernel
  obtain ⟨cs, covers, spread⟩ := bandwidth_spread valid finite (by norm_num) (by norm_num)
  obtain rfl : cs = _ := Except.ok.inj (covers.symm.trans three)
  obtain ⟨-, inside, counts, run⟩ := spread _ _ rfl rfl acrossChannels (by decide +kernel)
  have whole := inside (by decide +kernel) (by decide +kernel)
  refine ⟨_, covers, rfl, by decide +kernel, ?_, counts _ (by simp), run⟩
  rw [whole]
  norm_num [acrossChannels, width]

end Raster

end SpectrumShare
