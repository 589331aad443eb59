import Mathlib.Order.Monotone.Defs
import Mathlib.Tactic.NormNum
import SpectrumShare.ChannelPlan
import SpectrumShare.Proofs.Exact

/-! # What a plan lets its channels carry

The quota of a channel is the threshold of the entity, or less where it falls off. On the raster the
standard quota of radar falls off and never rises, so no channel of a plan may carry more than the
threshold. -/

namespace SpectrumShare

open Scalar

theorem bind_eq_ok {ε β γ : Type} {x : Except ε β} {f : β → Except ε γ} {w : γ} :
    x >>= f = .ok w ↔ ∃ v, x = .ok v ∧ f v = .ok w := by
  cases x with
  | error e =>
    constructor
    · rintro ⟨⟩
    · rintro ⟨v, ⟨⟩, -⟩
  | ok v =>
    constructor
    · exact fun last => ⟨v, rfl, last⟩
    · rintro ⟨_, ⟨⟩, last⟩
      exact last

section

variable {α : Type} [Scalar α]

theorem Raster.mem_channels {range : FrequencyRange α} {bandwidth : α}
    {channels : List (FrequencyRange α)} (covers : Raster.channels range bandwidth = .ok channels)
    {c : FrequencyRange α} (hc : c ∈ channels) : ∃ index, c = Raster.channel bandwidth index := by
  obtain ⟨_, -, covers⟩ := bind_eq_ok.1 covers
  split at covers
  · dsimp only at covers
    split at covers
    · cases covers
      obtain ⟨step, -, rfl⟩ := List.mem_map.1 hc
      exact ⟨_, rfl⟩
    · cases covers
  · cases covers

variable [Decibel α]

/-- A plan is made of one channel for blocking, and of channels of the raster otherwise. -/
theorem ChannelPlan.resolve_ok {kind : EntityKind} {span : FrequencyRange α}
    {threshold : Threshold α} {rules : Rules α} {plan : ChannelPlan α}
    (resolved : ChannelPlan.resolve kind span threshold rules = .ok plan) :
    ∃ channels : List (FrequencyRange α),
      (kind = .fssBlocking ∨ Raster.channels span rules.channelBandwidth = .ok channels) ∧
      plan = ⟨kind, span, channels.map fun c => ⟨c, ChannelPlan.quota kind c threshold rules⟩⟩ := by
  obtain ⟨_, -, resolved⟩ := bind_eq_ok.1 resolved
  cases kind with
  | fssBlocking =>
    cases resolved
    exact ⟨[span], .inl rfl, rfl⟩
  | esc | ppa | gwpz | fssCochannel =>
    obtain ⟨channels, covers, last⟩ := bind_eq_ok.1 resolved
    cases last
    exact ⟨channels, .inr covers, rfl⟩

theorem ChannelPlan.resolve_channel {kind : EntityKind} {span : FrequencyRange α}
    {threshold : Threshold α} {rules : Rules α} {plan : ChannelPlan α}
    (resolved : ChannelPlan.resolve kind span threshold rules = .ok plan) {c : PlannedChannel α}
    (hc : c ∈ plan.channels) :
    c.quota = ChannelPlan.quota kind c.channel threshold rules ∧
      (kind = .fssBlocking ∨ ∃ index, c.channel = Raster.channel rules.channelBandwidth index) := by
  obtain ⟨channels, covers, rfl⟩ := ChannelPlan.resolve_ok resolved
  obtain ⟨channel, there, rfl⟩ := List.mem_map.1 hc
  exact ⟨rfl, covers.imp_right fun covers => Raster.mem_channels covers there⟩

theorem ChannelPlan.quota_eq {kind : EntityKind} (other : kind ≠ .esc) (channel : FrequencyRange α)
    (threshold : Threshold α) (rules : Rules α) :
    ChannelPlan.quota kind channel threshold rules = threshold.mw := by
  cases kind with
  | esc => exact absurd rfl other
  | ppa | gwpz | fssCochannel | fssBlocking => rfl

end

section

variable {K : Type} [Field K] [LinearOrder K] [Rounding K]

/-- The quota of a radar channel is the threshold less the roll-off, also where that is nothing. -/
theorem ChannelPlan.quota_radar [Decibel K] (channel : FrequencyRange K) (dbm : K)
    (rules : Rules K) :
    ChannelPlan.quota .esc channel (.ofDbm dbm) rules =
      Decibel.toLinear (dbm - rules.rolloff channel) := by
  simp only [ChannelPlan.quota, same_iff, Nat.cast_zero]
  split
  · rename_i none
    rw [none, sub_zero]
    rfl
  · rfl

variable [IsStrictOrderedRing K]

/-- The standard quota of radar only ever falls off. -/
theorem Rules.rolloff_standard (index : Int) :
    (0 : K) ≤ (Rules.standard : Rules K).rolloff
      (Raster.channel (Rules.standard : Rules K).channelBandwidth index) := by
  unfold Rules.rolloff
  split
  · rename_i above
    simp only [Rules.standard, Raster.channel, FrequencyRange.center, megahertz, hertz] at above ⊢
    push_cast at above ⊢
    have center : (0 : K) ≤ (Raster.edge 5000000 index + (Raster.edge 5000000 index + 5000000)) / 2 -
        3652500000 := by
      linarith
    have fall := div_nonneg center (by norm_num : (0 : K) ≤ 1000000)
    have base : (0 : K) ≤ 5 / 2 := by norm_num
    exact add_nonneg base fall
  · exact Nat.cast_zero.ge

variable [Decibel K]

theorem ChannelPlan.quota_le (rising : Monotone (Decibel.toLinear : K → K)) (kind : EntityKind)
    {channel : FrequencyRange K} (dbm : K) {rules : Rules K} (falls : 0 ≤ rules.rolloff channel) :
    ChannelPlan.quota kind channel (.ofDbm dbm) rules ≤ (Threshold.ofDbm dbm).mw := by
  by_cases radar : kind = .esc
  · subst radar
    simp only [ChannelPlan.quota]
    split
    · exact le_rfl
    · apply rising
      exact sub_le_self dbm falls
  · rw [ChannelPlan.quota_eq radar]

/-- No channel of a plan may carry more than the threshold. -/
theorem ChannelPlan.quota_le_threshold (rising : Monotone (Decibel.toLinear : K → K))
    {kind : EntityKind} {span : FrequencyRange K} {rules : Rules K} {plan : ChannelPlan K}
    (ruled : rules = .standard ∨ kind ≠ .esc)
    (resolved : ChannelPlan.resolve kind span (rules.threshold kind) rules = .ok plan)
    {c : PlannedChannel K} (hc : c ∈ plan.channels) : c.quota ≤ (rules.threshold kind).mw := by
  obtain ⟨quota, on_raster⟩ := ChannelPlan.resolve_channel resolved hc
  rw [quota]
  by_cases radar : kind = .esc
  · subst radar
    obtain rfl := ruled.resolve_right (not_not_intro rfl)
    obtain ⟨index, there⟩ := on_raster.resolve_left (by decide)
    rw [there]
    exact ChannelPlan.quota_le rising _ _ (Rules.rolloff_standard index)
  · rw [ChannelPlan.quota_eq radar]

end

end SpectrumShare
