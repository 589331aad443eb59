import SpectrumShare.Proofs.Raster

/-! # When the radar quota falls off

From one edge of the raster on, the quota of a radar channel is the threshold less a roll-off that grows
with the frequency. The rules may put the roll-off anywhere, so the first channel there decides whether the
threshold is kept. -/

namespace SpectrumShare

open Scalar

/-- In a list in order, an entry that passes a test is the first such entry or comes after it. -/
theorem exists_find?_of_pairwise {β : Type} {r : β → β → Prop} (test : β → Bool) {l : List β}
    (ordered : l.Pairwise r) {b : β} (there : b ∈ l) (passes : test b = true) :
    ∃ a, l.find? test = some a ∧ (b = a ∨ r a b) := by
  induction l with
  | nil => cases there
  | cons v rest ih =>
    obtain ⟨before, ordered⟩ := List.pairwise_cons.1 ordered
    by_cases first : test v = true
    · exact ⟨v, List.find?_cons_of_pos first, (List.mem_cons.1 there).imp_right (before b)⟩
    · obtain here | later := List.mem_cons.1 there
      · exact absurd (here ▸ passes) first
      · rw [List.find?_cons_of_neg first]
        exact ih ordered later

section

variable {K : Type} [Field K] [LinearOrder K] [Rounding K] {rules : Rules K} {channel : FrequencyRange K}

theorem Rules.rolloff_of_below (below : channel.low < rules.rolloffStart) : rules.rolloff channel = 0 := by
  rw [rolloff, if_neg (not_le.2 below), Nat.cast_zero]

theorem Rules.rolloff_of_started (started : rules.rolloffStart ≤ channel.low) :
    rules.rolloff channel =
      rules.rolloffBase + (channel.center - rules.rolloffReference) / 1000000 := by
  simp [rolloff, if_pos started, megahertz, hertz]

variable [Decibel K]

theorem Rules.threshold_mw (rules : Rules K) (kind : EntityKind) :
    (rules.threshold kind).mw = Decibel.toLinear (rules.threshold kind).dbm := rfl

end

namespace ChannelPlan

/-- No channel of a plan may carry more than a level, nor more than a channel before it. -/
def Attenuates {α : Type} [LE α] (plan : ChannelPlan α) (level : α) : Prop :=
  (∀ c ∈ plan.channels, c.quota ≤ level) ∧ plan.channels.Pairwise fun c d => d.quota ≤ c.quota

variable {K : Type} [Field K] [LinearOrder K] [Rounding K] [Decibel K] {rules : Rules K}
  {span : FrequencyRange K} {plan : ChannelPlan K}

section

variable (resolved : resolve .esc span (rules.threshold .esc) rules = .ok plan) {c : PlannedChannel K}
  (there : c ∈ plan.channels)
include resolved there

theorem quota_of_radar :
    c.quota = Decibel.toLinear ((rules.threshold .esc).dbm - rules.rolloff c.channel) :=
  (resolve_channel resolved there).1.trans (quota_radar _ _ _)

theorem quota_of_below (below : c.channel.low < rules.rolloffStart) :
    c.quota = (rules.threshold .esc).mw := by
  rw [quota_of_radar resolved there, Rules.rolloff_of_below below, sub_zero, Rules.threshold_mw]

variable [IsStrictOrderedRing K]

theorem center_of_radar : c.channel.center = c.channel.low + rules.channelBandwidth / 2 := by
  obtain ⟨index, on_raster⟩ := (resolve_channel resolved there).2.resolve_left (by decide)
  rw [on_raster]
  simp only [FrequencyRange.center, Raster.channel, Nat.cast_ofNat]
  ring

theorem rolloff_lt {d : PlannedChannel K} (hd : d ∈ plan.channels)
    (started : rules.rolloffStart ≤ c.channel.low) (ahead : c.channel.low < d.channel.low) :
    rules.rolloff c.channel < rules.rolloff d.channel := by
  rw [Rules.rolloff_of_started started, Rules.rolloff_of_started (started.trans ahead.le),
    center_of_radar resolved there, center_of_radar resolved hd]
  apply add_lt_add_right
  apply div_lt_div_of_pos_right _ (by norm_num)
  linarith

end

variable [IsStrictOrderedRing K]

theorem radar_ascending (resolved : resolve .esc span (rules.threshold .esc) rules = .ok plan) :
    plan.channels.Pairwise fun c d => c.channel.low < d.channel.low := by
  obtain ⟨channels, covers, rfl⟩ := resolve_ok resolved
  have covers := covers.resolve_left (by decide)
  obtain ⟨-, -, stop, -, in_row⟩ := Raster.channels_eq_ok.1 covers
  rw [List.pairwise_map, in_row]
  exact Raster.row_ascending (Raster.width_pos covers) _ _

section

variable (rising : StrictMono (Decibel.toLinear : K → K))
  (resolved : resolve .esc span (rules.threshold .esc) rules = .ok plan)
include rising resolved

/-- A channel stays below the threshold exactly if its roll-off is not negative. -/
theorem quota_le_iff {c : PlannedChannel K} (there : c ∈ plan.channels) :
    c.quota ≤ (rules.threshold .esc).mw ↔ 0 ≤ rules.rolloff c.channel := by
  rw [quota_of_radar resolved there, Rules.threshold_mw, rising.le_iff_le, sub_le_self_iff]

/-- From the start of the roll-off on the quota falls. -/
theorem quota_lt {c d : PlannedChannel K} (hc : c ∈ plan.channels) (hd : d ∈ plan.channels)
    (started : rules.rolloffStart ≤ c.channel.low) (ahead : c.channel.low < d.channel.low) :
    d.quota < c.quota := by
  rw [quota_of_radar resolved hc, quota_of_radar resolved hd]
  apply rising
  exact sub_lt_sub_left (rolloff_lt resolved hc hd started ahead) _

/-- A plan that stays below the threshold falls all the way. -/
theorem attenuates_iff : plan.Attenuates (rules.threshold .esc).mw ↔
    ∀ c ∈ plan.channels, 0 ≤ rules.rolloff c.channel := by
  constructor
  · intro falls c hc
    exact (quota_le_iff rising resolved hc).1 (falls.1 c hc)
  · intro attenuated
    have under : ∀ c ∈ plan.channels, c.quota ≤ (rules.threshold .esc).mw := fun c hc =>
      (quota_le_iff rising resolved hc).2 (attenuated c hc)
    refine ⟨under, (radar_ascending resolved).imp_of_mem ?_⟩
    intro c d hc hd ahead
    rcases le_or_gt rules.rolloffStart c.channel.low with started | below
    · exact (quota_lt rising resolved hc hd started ahead).le
    · rw [quota_of_below resolved hc below]
      exact under d hd

/-- The first channel from the start of the roll-off on decides, for the later ones lie higher. -/
theorem attenuates_iff_first : plan.Attenuates (rules.threshold .esc).mw ↔
    ∀ c, plan.channels.find? (fun c => decide (rules.rolloffStart ≤ c.channel.low)) = some c →
      0 ≤ rules.rolloff c.channel := by
  rw [attenuates_iff rising resolved]
  constructor
  · exact fun attenuated c first => attenuated c (List.mem_of_find?_eq_some first)
  · intro attenuated d hd
    by_cases started : rules.rolloffStart ≤ d.channel.low
    · obtain ⟨c, first, here | ahead⟩ := exists_find?_of_pairwise
        (fun c => decide (rules.rolloffStart ≤ c.channel.low)) (radar_ascending resolved) hd
        (decide_eq_true started)
      · exact here ▸ attenuated c first
      · have hc : c ∈ plan.channels := List.mem_of_find?_eq_some first
        have c_started : rules.rolloffStart ≤ c.channel.low := by simpa using List.find?_some first
        exact (attenuated c first).trans (rolloff_lt resolved hc hd c_started ahead).le
    · exact (Rules.rolloff_of_below (not_le.1 started)).ge

/-- **When the roll-off attenuates.** Let the decibel scale rise, and let a plan be resolved for a radar
sensor. Its channels below the start of the roll-off may carry the threshold, and from the start on each
carries less than the one before. No channel may carry more than the threshold, nor more than a channel
before it, exactly if the roll-off of the first channel from the start on is not negative. Whatever the
span, that is so if the roll-off of a channel that begins right at the start would not be negative. -/
theorem rolloff_attenuates :
    (∀ c ∈ plan.channels, c.channel.low < rules.rolloffStart → c.quota = (rules.threshold .esc).mw) ∧
    (plan.channels.Pairwise fun c d => rules.rolloffStart ≤ c.channel.low → d.quota < c.quota) ∧
    (plan.Attenuates (rules.threshold .esc).mw ↔
      ∀ c, plan.channels.find? (fun c => decide (rules.rolloffStart ≤ c.channel.low)) = some c →
        0 ≤ rules.rolloffBase + (c.channel.center - rules.rolloffReference) / 1000000) ∧
    (0 ≤ rules.rolloffBase +
        (rules.rolloffStart + rules.channelBandwidth / 2 - rules.rolloffReference) / 1000000 →
      plan.Attenuates (rules.threshold .esc).mw) := by
  refine ⟨fun c => quota_of_below resolved, ?_, ?_, ?_⟩
  · apply (radar_ascending resolved).imp_of_mem
    intro c d hc hd ahead started
    exact quota_lt rising resolved hc hd started ahead
  · rw [attenuates_iff_first rising resolved]
    refine forall₂_congr fun c first => ?_
    have started : rules.rolloffStart ≤ c.channel.low := by simpa using List.find?_some first
    rw [Rules.rolloff_of_started started]
  · intro at_start
    rw [attenuates_iff rising resolved]
    intro c hc
    rcases lt_or_ge c.channel.low rules.rolloffStart with below | started
    · exact (Rules.rolloff_of_below below).ge
    · rw [Rules.rolloff_of_started started, center_of_radar resolved hc]
      refine at_start.trans (add_le_add_right ?_ _)
      apply div_le_div_of_nonneg_right _ (by norm_num)
      linarith

end

/-- The standard rules with another fixed part of the roll-off. -/
def rulesOfBase (base : ℚ) : Rules ℚ := { Rules.standard with rolloffBase := base }

/-- Three channels, of which the first lies below the start of the roll-off. -/
def acrossStart : FrequencyRange ℚ := ⟨3645000000, 3660000000⟩

/-- The plan of three channels that may carry these quotas. -/
def threeChannels (first second third : ℚ) : ChannelPlan ℚ :=
  ⟨.esc, acrossStart, [⟨⟨3645000000, 3650000000⟩, first⟩, ⟨⟨3650000000, 3655000000⟩, second⟩,
    ⟨⟨3655000000, 3660000000⟩, third⟩]⟩

/-- A fixed part of nothing leaves the first channel at the start without a roll-off, and only the next
one falls. -/
theorem rolloff_attenuates_from_zero : (rulesOfBase 0).validate = .ok () ∧
    resolve .esc acrossStart ((rulesOfBase 0).threshold .esc) (rulesOfBase 0) =
      .ok (threeChannels (1 / 107) (1 / 107) (1 / 112)) ∧
    (threeChannels (1 / 107) (1 / 107) (1 / 112)).Attenuates ((rulesOfBase 0).threshold .esc).mw := by
  have resolved : resolve .esc acrossStart ((rulesOfBase 0).threshold .esc) (rulesOfBase 0) =
      .ok (threeChannels (1 / 107) (1 / 107) (1 / 112)) := by decide +kernel
  obtain ⟨-, -, -, attenuates⟩ := rolloff_attenuates toLinear_strictMono resolved
  exact ⟨by decide +kernel, resolved, attenuates (by decide +kernel)⟩

/-- A negative fixed part is accepted. It lifts the quota above the threshold, and above the quota of the
channel before. -/
theorem negative_base_amplifies : StrictMono (Decibel.toLinear : ℚ → ℚ) ∧
    (rulesOfBase (-10)).validate = .ok () ∧
    resolve .esc acrossStart ((rulesOfBase (-10)).threshold .esc) (rulesOfBase (-10)) =
      .ok (threeChannels (1 / 107) (1 / 97) (1 / 102)) ∧
    ¬(∀ c ∈ (threeChannels (1 / 107) (1 / 97) (1 / 102)).channels,
      c.quota ≤ ((rulesOfBase (-10)).threshold .esc).mw) ∧
    ¬(threeChannels (1 / 107) (1 / 97) (1 / 102)).channels.IsChain fun c d => d.quota ≤ c.quota := by
  refine ⟨toLinear_strictMono, ?_, ?_, ?_, ?_⟩ <;> decide +kernel

end ChannelPlan

end SpectrumShare
