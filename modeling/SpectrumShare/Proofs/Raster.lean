import Mathlib.Data.List.Chain
import SpectrumShare.Proofs.ChannelPlan
import SpectrumShare.Proofs.Rounding

/-!
# The channels that cover a range

The raster is searched from the channel that holds the low edge of a range up to the first that starts
at its high edge:

* `stopIndex?_eq_some`, `exists_stopIndex?`: where the search stops, and that it stops;
* `mem_channels_iff`: in exact arithmetic the channels found are those of the raster that start inside
  the band and overlap the range;
* `channels_exact`: they lie side by side, and are found as long as the band can be counted through in
  64 bits;
* `clipped_when_even`: they lie inside the band if it is a whole number of channels wide, and otherwise
  the last one reaches out of it.
-/

namespace SpectrumShare

open Scalar

section

variable {K : Type} [Field K] [LinearOrder K] [Rounding K]

theorem FrequencyRange.overlaps_iff {r s : FrequencyRange K} :
    r.overlaps s = true ↔ r.low < s.high ∧ s.low < r.high := by
  rw [overlaps, Bool.and_eq_true, decide_eq_true_eq, decide_eq_true_eq]

theorem FrequencyRange.cbrs_eq : (FrequencyRange.cbrs : FrequencyRange K) = ⟨3550000000, 3700000000⟩ := by
  simp [cbrs, megahertz, hertz]

end

theorem Rules.width_of_validate {α : Type} [Scalar α] {rules : Rules α}
    (accepted : rules.validate = .ok ()) : isPositive rules.channelBandwidth = true := by
  obtain ⟨⟨⟩, width, -⟩ := bind_eq_ok.1 accepted
  by_contra none
  rw [requirePositive, if_neg none] at width
  cases width

namespace Raster

section

variable {α : Type} [Scalar α] {bandwidth high : α} {first stop : Int}

/-- The search passes every channel that starts below and stops at one that does not. -/
theorem stopIndex?_eq_some (found : stopIndex? bandwidth high first = some stop) :
    first ≤ stop ∧ high ≤ edge bandwidth stop ∧
      (∀ i, first ≤ i → i < stop → ¬ high ≤ edge bandwidth i) ∧
      (stop = first ∨ stop ≤ Word.greatest) := by
  fun_induction stopIndex? bandwidth high first with
  | case1 index reached =>
    cases found
    exact ⟨le_rfl, reached, fun i above below => absurd above (not_le.2 below), .inl rfl⟩
  | case2 index below within ih =>
    obtain ⟨rises, reached, passed, bound⟩ := ih found
    refine ⟨by omega, reached, fun i from_here before => ?_, .inr (by omega)⟩
    rcases from_here.eq_or_lt with rfl | later
    · exact below
    · exact passed i later before
  | case3 index below beyond => cases found

theorem exists_stopIndex? {last : Int} (ahead : first ≤ last) (within : last ≤ Word.greatest)
    (reached : high ≤ edge bandwidth last) : ∃ stop, stopIndex? bandwidth high first = some stop := by
  fun_induction stopIndex? bandwidth high first with
  | case1 index here => exact ⟨index, rfl⟩
  | case2 index below more ih =>
    apply ih
    rcases ahead.eq_or_lt with rfl | later
    · exact absurd reached below
    · exact later
  | case3 index below beyond =>
    obtain rfl : index = last := by omega
    exact absurd reached below

theorem mem_row {c : FrequencyRange α} :
    c ∈ row bandwidth first stop ↔ ∃ i, first ≤ i ∧ i < stop ∧ c = channel bandwidth i := by
  rw [row, List.mem_map]
  constructor
  · rintro ⟨step, there, rfl⟩
    have inside := List.mem_range.1 there
    exact ⟨first + step, by omega, by omega, rfl⟩
  · rintro ⟨i, above, below, rfl⟩
    refine ⟨(i - first).toNat, List.mem_range.2 (by omega), ?_⟩
    rw [Int.toNat_of_nonneg (by omega)]
    congr 1
    omega

/-- An answer is a row of the raster, for a range and a width that pass the checks. -/
theorem channels_eq_ok {range : FrequencyRange α} {cs : List (FrequencyRange α)} :
    channels range bandwidth = .ok cs ↔
      range.validate = .ok () ∧ isPositive bandwidth = true ∧
        ∃ stop, stopIndex? bandwidth (inBand range).high (indexAt bandwidth (inBand range).low) =
            some stop ∧ cs = row bandwidth (indexAt bandwidth (inBand range).low) stop := by
  rw [channels, bind_eq_ok]
  constructor
  · rintro ⟨⟨⟩, valid, covers⟩
    split at covers
    · rename_i positive
      dsimp only at covers
      split at covers
      · rename_i stop found
        cases covers
        exact ⟨valid, positive, stop, found, rfl⟩
      · cases covers
    · cases covers
  · rintro ⟨valid, positive, stop, found, rfl⟩
    refine ⟨(), valid, ?_⟩
    rw [if_pos positive]
    dsimp only
    rw [found]

end

section

variable {K : Type} [Field K] [LinearOrder K] [Rounding K]

theorem edge_eq (bandwidth : K) (i : Int) : edge bandwidth i = 3550000000 + i * bandwidth := by
  rw [edge, FrequencyRange.cbrs_eq]

theorem channel_high (bandwidth : K) (i : Int) :
    (channel bandwidth i).high = edge bandwidth (i + 1) := by
  simp only [channel, edge_eq]
  push_cast
  ring

theorem channel_eq (bandwidth : K) (i : Int) :
    channel bandwidth i = ⟨3550000000 + i * bandwidth, 3550000000 + (i + 1) * bandwidth⟩ := by
  rw [channel, edge_eq]
  congr 1
  ring

theorem row_adjoins (bandwidth : K) (first stop : Int) :
    (row bandwidth first stop).IsChain fun c d => c.high = d.low := by
  rw [row, List.isChain_map, List.isChain_range]
  intro step _
  rw [channel_high]
  simp [channel, add_assoc]

/-- Where a channel starts and ends says whether it overlaps a range. -/
theorem channel_overlaps {bandwidth : K} {range : FrequencyRange K} {i : Int} :
    (channel bandwidth i).overlaps range = true ↔
      edge bandwidth i < range.high ∧ range.low < edge bandwidth (i + 1) := by
  rw [FrequencyRange.overlaps_iff, channel_high]
  rfl

theorem width_pos {bandwidth : K} {range : FrequencyRange K} {cs : List (FrequencyRange K)}
    (covers : channels range bandwidth = .ok cs) : 0 < bandwidth :=
  (isPositive_iff.1 (channels_eq_ok.1 covers).2.1).2

theorem inBand_low (range : FrequencyRange K) : (inBand range).low = max range.low 3550000000 := by
  rw [inBand, greatest_eq_max, FrequencyRange.cbrs_eq]

theorem inBand_high (range : FrequencyRange K) : (inBand range).high = min range.high 3700000000 := by
  rw [inBand, least_eq_min, FrequencyRange.cbrs_eq]

end

section

variable {K : Type} [Field K] [LinearOrder K] [IsStrictOrderedRing K] [Rounding K] {bandwidth : K}

theorem edge_strictMono (positive : 0 < bandwidth) : StrictMono (edge bandwidth) := by
  intro i j before
  rw [edge_eq, edge_eq]
  have rises : (i : K) < j := Int.cast_lt.2 before
  linarith [mul_lt_mul_of_pos_right rises positive]

theorem row_ascending (positive : 0 < bandwidth) (first stop : Int) :
    (row bandwidth first stop).Pairwise fun c d => c.low < d.low := by
  rw [row, List.pairwise_map]
  refine List.pairwise_lt_range.imp fun before => ?_
  exact edge_strictMono positive (by omega)

variable [FloorRing K]

/-- The channel of a frequency is the first that ends above it. -/
theorem floor_le_iff (positive : 0 < bandwidth) {f : K} {i : Int} :
    ⌊(f - 3550000000) / bandwidth⌋ ≤ i ↔ f < edge bandwidth (i + 1) := by
  rw [← Int.lt_add_one_iff, Int.floor_lt, div_lt_iff₀ positive, edge_eq]
  constructor <;> intro h <;> linarith

/-- Every frequency of the band lies in a channel of the raster, and in no other. -/
theorem channel_holds_iff (positive : 0 < bandwidth) {f : K} {i : Int} :
    (channel bandwidth i).low ≤ f ∧ f < (channel bandwidth i).high ↔
      i = ⌊(f - 3550000000) / bandwidth⌋ := by
  have low : edge bandwidth i ≤ f ↔ i ≤ ⌊(f - 3550000000) / bandwidth⌋ := by
    have next := floor_le_iff positive (f := f) (i := i - 1)
    rw [sub_add_cancel] at next
    rw [← not_lt, ← next]
    omega
  rw [channel_high, ← floor_le_iff positive, show (channel bandwidth i).low = edge bandwidth i from rfl,
    low]
  omega

/-- If the band is not a whole number of channels wide, one of them starts inside it and ends outside. -/
theorem exists_straddling (positive : 0 < bandwidth)
    (uneven : ¬ ∃ n : Nat, n * bandwidth = 150000000) :
    ∃ k : Nat, (channel bandwidth k).low < 3700000000 ∧ 3700000000 < (channel bandwidth k).high := by
  have index : 0 ≤ ⌊((3700000000 : K) - 3550000000) / bandwidth⌋ :=
    Int.floor_nonneg.2 (div_nonneg (by norm_num) positive.le)
  obtain ⟨k, at_end⟩ := Int.eq_ofNat_of_zero_le index
  obtain ⟨starts, ends⟩ := (channel_holds_iff positive).2 at_end.symm
  refine ⟨k, starts.lt_of_ne fun same => uneven ⟨k, ?_⟩, ends⟩
  simp only [channel_eq, Int.cast_natCast] at same
  linarith

variable [Rounding.IsExact K]

/-- The index of a frequency is cut off at the end of the 64-bit range. -/
theorem indexAt_eq (positive : 0 < bandwidth) {f : K} (above : 3550000000 ≤ f) :
    indexAt bandwidth f = min Word.greatest ⌊(f - 3550000000) / bandwidth⌋ := by
  have zero : 0 ≤ ⌊(f - 3550000000) / bandwidth⌋ :=
    Int.floor_nonneg.2 (div_nonneg (sub_nonneg.2 above) positive.le)
  rw [indexAt, FrequencyRange.cbrs_eq, floor_eq, Word.saturate, max_eq_right]
  simp only [Word.least, Word.greatest]
  omega

/-- The search starts at a channel of the band. -/
theorem indexAt_nonneg (positive : 0 < bandwidth) (range : FrequencyRange K) :
    0 ≤ indexAt bandwidth (inBand range).low := by
  have above : 3550000000 ≤ (inBand range).low := inBand_low range ▸ le_max_right _ _
  rw [indexAt_eq positive above]
  refine le_min (by decide) (Int.floor_nonneg.2 (div_nonneg (sub_nonneg.2 above) positive.le))

/-- The channels found are those that start inside the band and overlap the range. -/
theorem mem_channels_iff {range : FrequencyRange K} {cs : List (FrequencyRange K)}
    (covers : channels range bandwidth = .ok cs) {c : FrequencyRange K} :
    c ∈ cs ↔ ∃ k : Nat, c = channel bandwidth k ∧ c.low < 3700000000 ∧ c.overlaps range = true := by
  have positive := width_pos covers
  obtain ⟨-, -, stop, found, rfl⟩ := channels_eq_ok.1 covers
  have rises := edge_strictMono positive
  obtain ⟨-, reached, passed, bound⟩ := stopIndex?_eq_some found
  have start := indexAt_nonneg positive range
  have above : 3550000000 ≤ (inBand range).low := inBand_low range ▸ le_max_right _ _
  have from_index := indexAt_eq positive above
  rw [inBand_high] at reached passed
  rw [mem_row]
  constructor
  · rintro ⟨i, after, before, rfl⟩
    have below := passed i after before
    -- An index that was cut off is the last one, and the search does not go past that.
    have floor : ⌊((inBand range).low - 3550000000) / bandwidth⌋ ≤ i := by omega
    rw [floor_le_iff positive, inBand_low] at floor
    obtain ⟨k, rfl⟩ := Int.eq_ofNat_of_zero_le (start.trans after)
    refine ⟨k, rfl, ?_, channel_overlaps.2 ⟨?_, (le_max_left _ _).trans_lt floor⟩⟩
    · exact (not_le.1 below).trans_le (min_le_right _ _)
    · exact (not_le.1 below).trans_le (min_le_left _ _)
  · rintro ⟨k, rfl, inside, overlap⟩
    obtain ⟨starts, ends⟩ := channel_overlaps.1 overlap
    refine ⟨k, ?_, ?_, rfl⟩
    · rw [from_index]
      refine (min_le_right _ _).trans ((floor_le_iff positive).2 ?_)
      rw [inBand_low]
      refine max_lt ends ?_
      calc (3550000000 : K) = edge bandwidth 0 := by simp [edge_eq]
        _ < edge bandwidth (k + 1) := rises (by omega)
    · exact rises.lt_iff_lt.1 ((lt_min starts inside).trans_le reached)

/-- The search comes to its end, and not past the last index, if the channels that can be counted reach
the high edge of the range. -/
theorem exists_row {range : FrequencyRange K} (valid : range.validate = .ok ())
    (width : isPositive bandwidth = true)
    (reached : (inBand range).high ≤ edge bandwidth Word.greatest) :
    ∃ stop ≤ Word.greatest,
      channels range bandwidth = .ok (row bandwidth (indexAt bandwidth (inBand range).low) stop) := by
  have above : 3550000000 ≤ (inBand range).low := inBand_low range ▸ le_max_right _ _
  have ahead : indexAt bandwidth (inBand range).low ≤ Word.greatest := by
    rw [indexAt_eq (isPositive_iff.1 width).2 above]
    exact min_le_left _ _
  obtain ⟨stop, found⟩ := exists_stopIndex? ahead le_rfl reached
  obtain ⟨-, -, -, bound⟩ := stopIndex?_eq_some found
  refine ⟨stop, ?_, channels_eq_ok.2 ⟨valid, width, stop, found, rfl⟩⟩
  rcases bound with rfl | within
  · exact ahead
  · exact within

/-- The search comes to its end if the band can be counted through in 64 bits. -/
theorem exists_channels {range : FrequencyRange K} (valid : range.validate = .ok ())
    (width : isPositive bandwidth = true) (few : 150000000 / bandwidth < 2 ^ 63 - 1) :
    ∃ cs, channels range bandwidth = .ok cs := by
  have reached : (inBand range).high ≤ edge bandwidth Word.greatest := by
    have last : (Word.greatest : K) = 2 ^ 63 - 1 := by norm_num [Word.greatest]
    rw [div_lt_iff₀ (isPositive_iff.1 width).2, ← last] at few
    rw [inBand_high, edge_eq]
    refine (min_le_right _ _).trans ?_
    linarith
  obtain ⟨stop, -, covers⟩ := exists_row valid width reached
  exact ⟨_, covers⟩

/-- **The channels of a range, exactly.** Let a range have finite edges in ascending order, and let the
width be finite, above zero and such that 64 bits can count the band through. The channels found are
those of the raster that start inside the band and overlap the range, in ascending order and each once.
They lie side by side, and what the range has of the band is in exactly one of them. -/
theorem channels_exact {range : FrequencyRange K} (valid : range.validate = .ok ())
    (finite : isFinite bandwidth = true) (positive : 0 < bandwidth)
    (few : 150000000 / bandwidth < 2 ^ 63 - 1) :
    ∃ cs, channels range bandwidth = .ok cs ∧
      (∀ c, c ∈ cs ↔
        ∃ k : Nat, c = ⟨3550000000 + k * bandwidth, 3550000000 + (k + 1) * bandwidth⟩ ∧
          c.low < 3700000000 ∧ c.overlaps range = true) ∧
      (cs.Pairwise fun c d => c.low < d.low) ∧ cs.IsChain (fun c d => c.high = d.low) ∧
      ∀ f, 3550000000 ≤ f → f < 3700000000 → range.low ≤ f → f < range.high →
        ∃! c, c ∈ cs ∧ c.low ≤ f ∧ f < c.high := by
  have width : isPositive bandwidth = true := isPositive_iff.2 ⟨finite, positive⟩
  obtain ⟨cs, covers⟩ := exists_channels valid width few
  have mem := fun c => mem_channels_iff covers (c := c)
  obtain ⟨-, -, stop, -, in_row⟩ := channels_eq_ok.1 covers
  refine ⟨cs, covers, ?_, ?_, ?_, ?_⟩
  · intro c
    simp only [mem, channel_eq]
    norm_cast
  · rw [in_row]
    exact row_ascending positive _ _
  · rw [in_row]
    exact row_adjoins _ _ _
  · intro f above below after before
    have index : 0 ≤ ⌊(f - 3550000000) / bandwidth⌋ :=
      Int.floor_nonneg.2 (div_nonneg (sub_nonneg.2 above) positive.le)
    obtain ⟨k, at_f⟩ := Int.eq_ofNat_of_zero_le index
    have holds := (channel_holds_iff positive).2 at_f.symm
    refine ⟨channel bandwidth k, ⟨(mem _).2 ⟨k, rfl, holds.1.trans_lt below, ?_⟩, holds⟩, ?_⟩
    · rw [channel_overlaps, ← channel_high]
      exact ⟨holds.1.trans_lt before, after.trans_lt holds.2⟩
    · rintro c ⟨there, held⟩
      obtain ⟨j, rfl, -⟩ := (mem c).1 there
      rw [(channel_holds_iff positive).1 held, at_f]

/-- Three channels of 40 MHz, of which the last reaches out of the band. -/
theorem channels_exact_three :
    ∃ cs : List (FrequencyRange ℚ), channels ⟨3600000000, 3800000000⟩ 40000000 = .ok cs ∧
      cs = [⟨3590000000, 3630000000⟩, ⟨3630000000, 3670000000⟩, ⟨3670000000, 3710000000⟩] ∧
      cs.IsChain (fun c d => c.high = d.low) ∧ ∃! c, c ∈ cs ∧ c.low ≤ 3630000000 ∧ 3630000000 < c.high := by
  have valid : (⟨3600000000, 3800000000⟩ : FrequencyRange ℚ).validate = .ok () := rfl
  have finite : isFinite (40000000 : ℚ) = true := rfl
  obtain ⟨cs, covers, -, -, adjoins, once⟩ :=
    channels_exact valid finite (by norm_num) (by norm_num)
  have three : (channels (⟨3600000000, 3800000000⟩ : FrequencyRange ℚ) 40000000) =
      .ok [⟨3590000000, 3630000000⟩, ⟨3630000000, 3670000000⟩, ⟨3670000000, 3710000000⟩] := by
    decide +kernel
  refine ⟨cs, covers, ?_, adjoins, once _ (by norm_num) (by norm_num) (by norm_num) (by norm_num)⟩
  rw [covers] at three
  exact Except.ok.inj three

section

variable {range : FrequencyRange K} {cs : List (FrequencyRange K)}
  (covers : channels range bandwidth = .ok cs)
include covers

theorem starts_inside {c : FrequencyRange K} (there : c ∈ cs) :
    3550000000 ≤ c.low ∧ c.low < 3700000000 := by
  have positive := width_pos covers
  obtain ⟨k, rfl, starts, -⟩ := (mem_channels_iff covers).1 there
  refine ⟨?_, starts⟩
  calc (3550000000 : K) = edge bandwidth 0 := by simp [edge_eq]
    _ ≤ edge bandwidth k := (edge_strictMono positive).monotone (by omega)

theorem ends_inside {n : Nat} (even : n * bandwidth = 150000000) {c : FrequencyRange K}
    (there : c ∈ cs) : c.high ≤ 3700000000 := by
  have positive := width_pos covers
  have rises := edge_strictMono positive
  have last : edge bandwidth n = 3700000000 := by
    rw [edge_eq, Int.cast_natCast, even]
    norm_num
  obtain ⟨k, rfl, starts, -⟩ := (mem_channels_iff covers).1 there
  have before : edge bandwidth k < edge bandwidth n := last ▸ starts
  rw [channel_high, ← last]
  exact rises.monotone (rises.lt_iff_lt.1 before)

/-- A channel inside the band would join the range to the band. -/
theorem eq_nil_of_apart (ends : ∀ c ∈ cs, c.high ≤ 3700000000)
    (apart : range.overlaps FrequencyRange.cbrs = false) : cs = [] := by
  refine List.eq_nil_iff_forall_not_mem.2 fun c there => ?_
  obtain ⟨-, -, -, overlap⟩ := (mem_channels_iff covers).1 there
  obtain ⟨below, above⟩ := FrequencyRange.overlaps_iff.1 overlap
  have meets : range.overlaps FrequencyRange.cbrs = true := by
    rw [FrequencyRange.cbrs_eq, FrequencyRange.overlaps_iff]
    exact ⟨above.trans_le (ends c there), (starts_inside covers there).1.trans_lt below⟩
  rw [apart] at meets
  cases meets

end

/-- **Channels stay inside the band when they divide it.** Under accepted rules every channel found
starts inside the band. If the band is a whole number of channels wide, every one ends inside it too,
and a range that does not overlap the band has none. Otherwise there is a channel that starts inside the
band and ends outside, and every range that reaches the high edge of the band and starts below the end
of that channel has it, be the range outside the band. -/
theorem clipped_when_even {rules : Rules K} (accepted : rules.validate = .ok ()) :
    (∀ range cs, channels range rules.channelBandwidth = .ok cs →
      ∀ c ∈ cs, 3550000000 ≤ c.low ∧ c.low < 3700000000) ∧
    ((∃ n : Nat, n * rules.channelBandwidth = 150000000) →
      ∀ range cs, channels range rules.channelBandwidth = .ok cs →
        (∀ c ∈ cs, 3550000000 ≤ c.low ∧ c.high ≤ 3700000000) ∧
        (range.overlaps FrequencyRange.cbrs = false → cs = [])) ∧
    (150000000 / rules.channelBandwidth < 2 ^ 63 - 1 →
      (∀ range : FrequencyRange K, range.validate = .ok () →
        ∃ cs, channels range rules.channelBandwidth = .ok cs) ∧
      ((¬ ∃ n : Nat, n * rules.channelBandwidth = 150000000) →
        ∃ last : FrequencyRange K, last.low < 3700000000 ∧ 3700000000 < last.high ∧
          ∀ range : FrequencyRange K, range.validate = .ok () → 3700000000 ≤ range.high →
            range.low < last.high →
            ∃ cs, channels range rules.channelBandwidth = .ok cs ∧ last ∈ cs)) := by
  have width := Rules.width_of_validate accepted
  have positive := (isPositive_iff.1 width).2
  refine ⟨fun range cs covers c there => starts_inside covers there, ?_,
    fun few => ⟨fun range valid => exists_channels valid width few, fun uneven => ?_⟩⟩
  · rintro ⟨n, even⟩ range cs covers
    have ends : ∀ c ∈ cs, c.high ≤ 3700000000 := fun c there => ends_inside covers even there
    exact ⟨fun c there => ⟨(starts_inside covers there).1, ends c there⟩, eq_nil_of_apart covers ends⟩
  · obtain ⟨k, starts, ends⟩ := exists_straddling positive uneven
    refine ⟨channel rules.channelBandwidth k, starts, ends, fun range valid reaches begins => ?_⟩
    obtain ⟨cs, covers⟩ := exists_channels valid width few
    refine ⟨cs, covers, (mem_channels_iff covers).2 ⟨k, rfl, starts, channel_overlaps.2 ⟨?_, ?_⟩⟩⟩
    · exact starts.trans_le reaches
    · rwa [← channel_high]

/-- The standard rules with channels of another width. -/
def rulesOfWidth (width : ℚ) : Rules ℚ := { Rules.standard with channelBandwidth := width }

def aboveBand : FrequencyRange ℚ := ⟨3705000000, 3800000000⟩

/-- Five channels of 30 MHz make up the band, and a range above it has none of them. -/
theorem clipped_when_even_five :
    (rulesOfWidth 30000000).validate = .ok () ∧ aboveBand.validate = .ok () ∧
      aboveBand.overlaps FrequencyRange.cbrs = false ∧ channels aboveBand 30000000 = .ok [] := by
  have accepted : (rulesOfWidth 30000000).validate = .ok () := by decide +kernel
  have apart : aboveBand.overlaps FrequencyRange.cbrs = false := by decide +kernel
  obtain ⟨-, clipped, found⟩ := clipped_when_even accepted
  have even : ∃ n : Nat, n * (rulesOfWidth 30000000).channelBandwidth = 150000000 :=
    ⟨5, by norm_num [rulesOfWidth]⟩
  obtain ⟨cs, covers⟩ := (found (by norm_num [rulesOfWidth])).1 aboveBand rfl
  obtain rfl := (clipped even aboveBand cs covers).2 apart
  exact ⟨accepted, rfl, apart, covers⟩

/-- Channels of 40 MHz do not divide the band, and the last one reaches out of it. A range above the band
then has a channel. -/
theorem wide_channel_reaches_out :
    (rulesOfWidth 40000000).validate = .ok () ∧ aboveBand.validate = .ok () ∧
      aboveBand.overlaps FrequencyRange.cbrs = false ∧
      channels aboveBand (rulesOfWidth 40000000).channelBandwidth = .ok [⟨3670000000, 3710000000⟩] := by
  refine ⟨?_, rfl, ?_, ?_⟩ <;> decide +kernel

end

end Raster

end SpectrumShare
