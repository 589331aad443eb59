import Mathlib.Algebra.BigOperators.Field
import Mathlib.Algebra.BigOperators.Fin
import Mathlib.Algebra.Order.BigOperators.Group.Finset
import Mathlib.Tactic.FieldSimp
import SpectrumShare.Proofs.Allocation.Fairness
import SpectrumShare.Proofs.Allocation.Ownership
import SpectrumShare.Proofs.Allocation.Share
import SpectrumShare.Proofs.Decibel

/-!
# Authorities that put their own grants first

From the same activity dumps every authority makes a list of its own, in which its own grants come
first. The order of a list has a say in what its grants come to, as a share that rises within a sweep
serves only those still to be probed:

* `ofGroup_filter_perm`: the lists differ in their order and in whom they take for their own, and in
  nothing else;
* `group_allowances`: the values that the authorities may use of a channel add up to the threshold,
  but for what the order costs, and each of them keeps to it;
* `group_overcommits`: so together they may exceed it.
-/

namespace SpectrumShare

section

variable {α : Type}

/-- The grants of a group as one of its authorities lists them. -/
def GrantSet.ofGroup (dumps : List (List (Grant α))) (k : Fin dumps.length) : GrantSet α :=
  .ofDumps dumps[k] (dumps.eraseIdx k)

namespace GrantSet

variable (dumps : List (List (Grant α))) (k : Fin dumps.length)

theorem ofGroup_peers : (ofGroup dumps k).peers = dumps.length := by
  have positive : 0 < dumps.length := k.pos
  simp only [ofGroup, ofDumps, List.length_eraseIdx_of_lt k.isLt]
  omega

/-- Every authority lists all grants of the group, be it in an order of its own. -/
theorem ofGroup_perm :
    ((ofGroup dumps k).grants.map Grant.disown).Perm (dumps.flatten.map Grant.disown) := by
  have first : (dumps[k] :: dumps.eraseIdx k).Perm dumps := List.getElem_cons_eraseIdx_perm k.isLt
  have same : (ofGroup dumps k).grants.map Grant.disown =
      (dumps[k] :: dumps.eraseIdx k).flatten.map Grant.disown := by
    rw [List.flatten_cons, List.map_append]
    simp only [ofGroup, ofDumps, List.map_append, List.map_map]
    rfl
  rw [same]
  exact first.flatten.map Grant.disown

theorem ofGroup_managed :
    (ofGroup dumps k).grants.filter (·.managed) =
      dumps[k].map fun g => { g with managed := true } := by
  simp [ofGroup, ofDumps, List.filter_append, List.filter_map, Function.comp_def]

variable {keep : Grant α → Bool}
  (blind : ∀ (g : Grant α) (managed : Bool), keep { g with managed := managed } = keep g)

include blind

theorem filter_disown (grants : List (Grant α)) :
    (grants.filter keep).map Grant.disown = (grants.map Grant.disown).filter keep := by
  have same : keep ∘ Grant.disown = keep := funext fun g => blind g false
  rw [List.filter_map, same]

/-- So they agree on which grants there are of any kind. -/
theorem ofGroup_filter_perm :
    (((ofGroup dumps k).grants.filter keep).map Grant.disown).Perm
      ((dumps.flatten.filter keep).map Grant.disown) := by
  rw [filter_disown blind, filter_disown blind]
  exact (ofGroup_perm dumps k).filter keep

theorem ofGroup_filter_length :
    ((ofGroup dumps k).grants.filter keep).length = (dumps.flatten.filter keep).length := by
  have same := (ofGroup_filter_perm dumps k blind).length_eq
  rwa [List.length_map, List.length_map] at same

theorem ofGroup_filter_managed :
    (((ofGroup dumps k).grants.filter keep).filter (·.managed)).map Grant.disown =
      (dumps[k].filter keep).map Grant.disown := by
  have same : (keep ∘ fun g : Grant α => { g with managed := true }) = keep :=
    funext fun g => blind g true
  rw [List.filter_comm, ofGroup_managed, List.filter_map, same]
  simp [Grant.disown, Function.comp_def]

end GrantSet

end

namespace Allocation

variable {σ K : Type} [Field K] [LinearOrder K] [Rounding K]

/-- What the authorities of a group have in common: a model that remembers nothing, a neighborhood
that picks grants one by one, neither of which looks at who owns a grant, and channels each of which
may carry the whole threshold. -/
structure Common (s : Survey σ K) (level : Grant K → K → Constraint K → Receiver K → K)
    (near : Grant K → Position K → EntityKind → Bool) (threshold : K) : Prop where
  model : s.model = .pure level
  level_blind : ∀ (g : Grant K) (managed : Bool), level { g with managed := managed } = level g
  neighborhood : PicksEach s.neighborhood near
  near_blind : ∀ (g : Grant K) (managed : Bool), near { g with managed := managed } = near g
  quota : ∀ c ∈ s.plan.channels, c.quota = threshold

/-- The grants of a list that count in a channel. -/
def crowd (s : Survey σ K) (grants : List (Grant K)) (point : Position K) (c : PlannedChannel K) :
    List (Grant K) :=
  overlapping (s.neighborhood grants point s.plan.kind) (s.constraint point c)

/-- Whether a grant counts in a channel at a point. -/
def counts (s : Survey σ K) (near : Grant K → Position K → EntityKind → Bool) (point : Position K)
    (c : PlannedChannel K) (g : Grant K) : Bool :=
  g.range.overlaps c.channel && near g point s.plan.kind

/-- The authorities of a group come to the same interference for each grant in a channel. -/
def Agreed [Decibel K] (s : Survey σ K) (dumps : List (List (Grant K))) (point : Position K)
    (c : PlannedChannel K) : Prop :=
  ∃ taken : Grant K → K, ∀ k a i j,
    runFrom (s.search point
      (s.neighborhood (GrantSet.ofGroup dumps k).grants point s.plan.kind) c) i = (.ok a, j) →
    a.grants.map (·.fit.interference) =
      (crowd s (GrantSet.ofGroup dumps k).grants point c).map fun g => taken g.disown

section

variable {s : Survey σ K} {level : Grant K → K → Constraint K → Receiver K → K}
  {near : Grant K → Position K → EntityKind → Bool} {threshold : K}
  (common : Common s level near threshold) {dumps : List (List (Grant K))} {point : Position K}
  {c : PlannedChannel K}

include common

theorem crowd_eq (grants : List (Grant K)) :
    crowd s grants point c = grants.filter (counts s near point c) := by
  simp only [crowd, overlapping, Survey.constraint, common.neighborhood grants, List.filter_filter]
  rfl

theorem counts_blind (point : Position K) (c : PlannedChannel K) (g : Grant K) (managed : Bool) :
    counts s near point c { g with managed := managed } = counts s near point c g := by
  simp only [counts, common.near_blind g managed]

theorem crowd_length (k : Fin dumps.length) :
    (crowd s (GrantSet.ofGroup dumps k).grants point c).length =
      (crowd s dumps.flatten point c).length := by
  rw [crowd_eq common, crowd_eq common]
  exact GrantSet.ofGroup_filter_length dumps k (counts_blind common point c)

theorem busy_eq (k : Fin dumps.length) :
    s.busy point (s.neighborhood (GrantSet.ofGroup dumps k).grants point s.plan.kind) c =
      s.busy point (s.neighborhood dumps.flatten point s.plan.kind) c := by
  have idle : (crowd s (GrantSet.ofGroup dumps k).grants point c).isEmpty =
      (crowd s dumps.flatten point c).isEmpty := by
    rw [Bool.eq_iff_iff, List.isEmpty_iff_length_eq_zero, List.isEmpty_iff_length_eq_zero,
      crowd_length common]
  exact congrArg (!·) idle

theorem mem_crowd {k : Fin dumps.length} {g : Grant K}
    (hg : g ∈ crowd s (GrantSet.ofGroup dumps k).grants point c) :
    ∃ h ∈ crowd s dumps.flatten point c, h.disown = g.disown := by
  rw [crowd_eq common] at hg ⊢
  have there := (GrantSet.ofGroup_filter_perm dumps k (counts_blind common point c)).subset
    (List.mem_map_of_mem hg)
  exact List.mem_map.1 there

theorem sum_crowd (taken : Grant K → K) (k : Fin dumps.length) :
    ((crowd s (GrantSet.ofGroup dumps k).grants point c).map fun g => taken g.disown).sum =
      ((crowd s dumps.flatten point c).map fun g => taken g.disown).sum := by
  have same := ((GrantSet.ofGroup_filter_perm dumps k (counts_blind common point c)).map taken).sum_eq
  simp only [List.map_map, ← crowd_eq common] at same
  exact same

/-- What each authority counts as its own makes up what all of them count. -/
theorem sum_own_crowd (taken : Grant K → K) :
    ∑ k, (((crowd s (GrantSet.ofGroup dumps k).grants point c).filter (·.managed)).map
        fun g => taken g.disown).sum =
      ((crowd s dumps.flatten point c).map fun g => taken g.disown).sum := by
  have own : ∀ k : Fin dumps.length,
      (((crowd s (GrantSet.ofGroup dumps k).grants point c).filter (·.managed)).map
        fun g => taken g.disown).sum =
      ((dumps[k].filter (counts s near point c)).map fun g => taken g.disown).sum := by
    intro k
    have same := congrArg (List.map taken)
      (GrantSet.ofGroup_filter_managed dumps k (counts_blind common point c))
    simp only [List.map_map] at same
    rw [crowd_eq common]
    exact congrArg List.sum same
  rw [Finset.sum_congr rfl fun k _ => own k, crowd_eq common, List.filter_flatten, List.map_flatten,
    List.sum_flatten, List.map_map, List.map_map]
  exact Fin.sum_univ_fun_getElem dumps fun d =>
    ((d.filter (counts s near point c)).map fun g => taken g.disown).sum

variable [Decibel K]

/-- What one authority of a group comes to is told channel by channel, in the channels that all of them
allocate. -/
theorem group_share_ok {k : Fin dumps.length} {m n : σ} {store : Store K} {shares : Allowances K}
    (run : runFrom (({ s with grants := (GrantSet.ofGroup dumps k).grants }).share point threshold
      (GrantSet.ofGroup dumps k).peers) m = (.ok (store, shares), n)) :
    ∃ totals,
      List.Forall₂ (s.Searched point
        (s.neighborhood (GrantSet.ofGroup dumps k).grants point s.plan.kind))
        (s.plan.channels.filter
          (s.busy point (s.neighborhood dumps.flatten point s.plan.kind))) totals ∧
      store = record .empty point.key totals ∧
      shares = allowed threshold dumps.length point.key totals := by
  rw [GrantSet.ofGroup_peers] at run
  obtain ⟨totals, outcome, store_eq, share_eq⟩ := share_ok k.pos run
  have searched := channels_ok outcome
  have same : s.plan.channels.filter
      (s.busy point (s.neighborhood (GrantSet.ofGroup dumps k).grants point s.plan.kind)) =
        s.plan.channels.filter (s.busy point (s.neighborhood dumps.flatten point s.plan.kind)) :=
    List.filter_congr fun c _ => busy_eq common k
  exact ⟨totals, same ▸ searched, store_eq, share_eq⟩

/-- What a search that ends says of the totals, if the authorities agree on what each grant takes. -/
theorem Agreed.sum_local [IsStrictOrderedRing K] (agreed : Agreed s dumps point c)
    {totals : Fin dumps.length → ChannelTotals K}
    (searched : ∀ k, s.Searched point
      (s.neighborhood (GrantSet.ofGroup dumps k).grants point s.plan.kind) c (totals k)) :
    ∀ k, (totals k).globalTotal = ∑ j, (totals j).localTotal := by
  obtain ⟨taken, takes⟩ := agreed
  have sums : ∀ j, (totals j).globalTotal =
        ((crowd s (GrantSet.ofGroup dumps j).grants point c).map fun g => taken g.disown).sum ∧
      (totals j).localTotal =
        (((crowd s (GrantSet.ofGroup dumps j).grants point c).filter (·.managed)).map
          fun g => taken g.disown).sum := by
    intro j
    obtain ⟨a, i, i', run, made⟩ := searched j
    rw [← made]
    exact ofGrants_totals_of_taken run (takes j a i i' run)
  intro k
  rw [(sums k).1, sum_crowd common, Finset.sum_congr rfl fun j _ => (sums j).2, sum_own_crowd common]

/-- Where each grant takes less than an even split at its maximum power, the order is of no account. -/
theorem agreed_of_low [IsStrictOrderedRing K] (planned : c ∈ s.plan.channels)
    (low : ∀ g ∈ crowd s dumps.flatten point c,
      Decibel.toLinear (level g g.maxEirp (s.constraint point c) s.receiver) <
        threshold / (crowd s dumps.flatten point c).length) :
    Agreed s dumps point c := by
  refine ⟨fun g => Decibel.toLinear (level g g.maxEirp (s.constraint point c) s.receiver), ?_⟩
  intro k a i j run
  have count : a.grants.length = (crowd s (GrantSet.ofGroup dumps k).grants point c).length := by
    simpa [crowd] using congrArg List.length (ofGrants_totals run).1
  apply List.ext_getElem (by simpa using count)
  intro x hx hy
  simp only [List.length_map] at hx hy
  simp only [List.getElem_map]
  let g := (crowd s (GrantSet.ofGroup dumps k).grants point c)[x]
  obtain ⟨h, member, same⟩ := mem_crowd common (List.getElem_mem hy : g ∈ _)
  have answers : level h = level g := by
    rw [← common.level_blind h false, ← common.level_blind g false]
    exact congrArg level same
  have power : h.disown.maxEirp = g.disown.maxEirp := congrArg Grant.maxEirp same
  change h.maxEirp = g.maxEirp at power
  have small := low h member
  rw [answers, power, ← common.quota c planned, ← crowd_length common k] at small
  simp only [Survey.search, common.model] at run
  have kept := keeps_maxEirp run (i := x) (g := g) (List.getElem?_eq_getElem hy)
    (List.getElem?_eq_getElem hx) small
  rw [kept.2]
  change _ = Decibel.toLinear (level g.disown g.maxEirp _ _)
  rw [show level g.disown = level g from common.level_blind g false]

end

/-- How the authorities of a group split a channel that may carry a threshold: what each counts as its
own and as the total, and what it may use. -/
structure Split {count : Nat} (threshold : K) (own all values : Fin count → K) : Prop where
  own_nonneg : ∀ k, 0 ≤ own k
  own_le : ∀ k, own k ≤ all k
  all_lt : ∀ k, all k < threshold
  le : ∀ k, values k ≤ threshold
  sum_eq : ∑ k, values k = threshold + ∑ k, own k - (∑ k, all k) / count
  sum_le_iff : ∑ k, values k ≤ threshold ↔ count * ∑ k, own k ≤ ∑ k, all k

variable [IsStrictOrderedRing K]

theorem split_of_totals {count : Nat} (positive : 0 < count) {threshold : K}
    {totals : Fin count → ChannelTotals K}
    (bounds : ∀ k, 0 ≤ (totals k).localTotal ∧ (totals k).localTotal ≤ (totals k).globalTotal ∧
      (totals k).globalTotal < threshold) :
    Split threshold (fun k => (totals k).localTotal) (fun k => (totals k).globalTotal)
      (fun k => (totals k).share threshold count) := by
  have above : (0 : K) < count := Nat.cast_pos.2 positive
  have sum_eq : ∑ k, (totals k).share threshold count =
      threshold + ∑ k, (totals k).localTotal - (∑ k, (totals k).globalTotal) / count := by
    simp only [ChannelTotals.share, Finset.sum_add_distrib, ← Finset.sum_div, Finset.sum_sub_distrib,
      Finset.sum_const, Finset.card_univ, Fintype.card_fin, nsmul_eq_mul]
    field_simp
    ring
  constructor
  · exact fun k => (bounds k).1
  · exact fun k => (bounds k).2.1
  · exact fun k => (bounds k).2.2
  · intro k
    obtain ⟨-, own, below⟩ := bounds k
    have one : (1 : K) ≤ count := by exact_mod_cast positive
    have part : (threshold - (totals k).globalTotal) / count ≤ threshold - (totals k).globalTotal :=
      div_le_self (by linarith) one
    simp only [ChannelTotals.share]
    linarith
  · exact sum_eq
  · rw [sum_eq, add_sub_assoc, add_le_iff_nonpos_right, sub_nonpos, le_div_iff₀' above]

variable [Decibel K]

/-- Where the authorities agree, what they may use adds up to the threshold. -/
theorem Agreed.sum_share {s : Survey σ K} {level : Grant K → K → Constraint K → Receiver K → K}
    {near : Grant K → Position K → EntityKind → Bool} {threshold : K}
    (common : Common s level near threshold) {dumps : List (List (Grant K))} {point : Position K}
    {c : PlannedChannel K} (agreed : Agreed s dumps point c) (positive : 0 < dumps.length)
    {totals : Fin dumps.length → ChannelTotals K}
    (searched : ∀ k, s.Searched point
      (s.neighborhood (GrantSet.ofGroup dumps k).grants point s.plan.kind) c (totals k))
    (split : Split threshold (fun k => (totals k).localTotal) (fun k => (totals k).globalTotal)
      (fun k => (totals k).share threshold dumps.length)) :
    ∑ k, (totals k).share threshold dumps.length = threshold := by
  have nonzero : (dumps.length : K) ≠ 0 := Nat.cast_ne_zero.2 positive.ne'
  have all := agreed.sum_local common searched
  rw [split.sum_eq, Finset.sum_congr rfl fun k _ => all k, Finset.sum_const, Finset.card_univ,
    Fintype.card_fin, nsmul_eq_mul, mul_div_cancel_left₀ _ nonzero, add_sub_cancel_right]

/-- **What coordinating authorities leave each other.** All of them come to the same channels. In each,
no single value exceeds the threshold. Together the values come to the threshold and what each
authority counts as its own, less what they count in all on average; that is the threshold itself
where the order of the grants is of no account. -/
theorem group_allowances (nonneg : ∀ level : K, 0 ≤ Decibel.toLinear level) {s : Survey σ K}
    {level : Grant K → K → Constraint K → Receiver K → K}
    {near : Grant K → Position K → EntityKind → Bool} {threshold : K}
    (common : Common s level near threshold) (dumps : List (List (Grant K))) (point : Position K)
    (m n : Fin dumps.length → σ) (stores : Fin dumps.length → Store K)
    (shares : Fin dumps.length → Allowances K)
    (run : ∀ k, runFrom (({ s with grants := (GrantSet.ofGroup dumps k).grants }).share point threshold
      (GrantSet.ofGroup dumps k).peers) (m k) = (.ok (stores k, shares k), n k)) :
    (∀ j k, (shares j).toList.map (fun e => (e.1, e.2.length)) =
      (shares k).toList.map fun e => (e.1, e.2.length)) ∧
    ∀ j key channel v, (shares j).value? key channel = some v →
      ∃ (c : PlannedChannel K) (own all values : Fin dumps.length → K),
        (s.plan.channels.filter
          (s.busy point (s.neighborhood dumps.flatten point s.plan.kind)))[channel]? = some c ∧
        (∀ k, ((stores k).totals key).localTotals[channel]? = some (own k) ∧
          ((stores k).totals key).globalTotals[channel]? = some (all k) ∧
          (shares k).value? key channel = some (values k)) ∧
        Split threshold own all values ∧
        (Agreed s dumps point c → ∑ k, values k = threshold) ∧
        ((∀ g ∈ crowd s dumps.flatten point c,
            Decibel.toLinear (level g g.maxEirp (s.constraint point c) s.receiver) <
              threshold / (crowd s dumps.flatten point c).length) →
          ∑ k, values k = threshold) := by
  let channels := s.plan.channels.filter
    (s.busy point (s.neighborhood dumps.flatten point s.plan.kind))
  have each := fun k => group_share_ok common (run k)
  choose totals searched store_eq share_eq using each
  constructor
  · intro j k
    simp only [share_eq, allowed_shape, ← (searched _).length_eq]
  · intro j key channel v here
    rw [share_eq j] at here
    obtain ⟨rfl, t, ht, -⟩ := allowed_value?.1 here
    have inside : channel < channels.length := by
      rw [(searched j).length_eq]
      exact (List.getElem?_eq_some_iff.1 ht).1
    let c := channels[channel]
    have hc : channels[channel]? = some c := List.getElem?_eq_getElem inside
    obtain ⟨planned, busy⟩ := List.mem_filter.1 (List.mem_of_getElem? hc)
    have at_channel : ∀ k, ∃ t, (totals k)[channel]? = some t ∧ s.Searched point
        (s.neighborhood (GrantSet.ofGroup dumps k).grants point s.plan.kind) c t :=
      fun k => forall₂_getElem? (searched k) hc
    choose ts found came using at_channel
    have split : Split threshold (fun k => (ts k).localTotal) (fun k => (ts k).globalTotal)
        (fun k => (ts k).share threshold dumps.length) := by
      apply split_of_totals j.pos
      intro k
      rw [← common.quota c planned]
      exact (came k).bounds nonneg ((busy_eq common k).trans busy)
    have sum_of_agreed : Agreed s dumps point c →
        ∑ k, (ts k).share threshold dumps.length = threshold :=
      fun agreed => agreed.sum_share common j.pos came split
    refine ⟨c, _, _, _, hc, fun k => ⟨?_, ?_, ?_⟩, split, sum_of_agreed, fun low => ?_⟩
    · simp [store_eq, totals_record_empty, found k]
    · simp [store_eq, totals_record_empty, found k]
    · rw [share_eq]
      exact allowed_value?.2 ⟨rfl, ts k, found k, rfl⟩
    · exact sum_of_agreed (agreed_of_low common planned low)

section

open Decibel

noncomputable def tonePoint : Position ℝ := ⟨0, 0⟩

noncomputable def tone (id : String) (eirp : ℝ) (managed : Bool) : Grant ℝ :=
  ⟨id, tonePoint, 3, eirp, ⟨3550000000, 3555000000⟩, .b, managed⟩

/-- One channel, with a model without loss. -/
noncomputable def toneSurvey : Survey Unit ℝ where
  plan := ⟨.gwpz, ⟨3550000000, 3555000000⟩, [⟨⟨3550000000, 3555000000⟩, 100⟩]⟩
  grants := []
  receiver := .area .suburban
  model := .pure fun _ eirp _ _ => eirp
  neighborhood := fun grants _ _ => grants.filter fun _ => true
  floor := -150

/-- The first authority owns the quiet grant, the second the others. -/
noncomputable def toneDumps : List (List (Grant ℝ)) :=
  [[tone "quiet" 0 true], [tone "mid" 16 true, tone "loud" 19 true]]

/-- The powers between which the two searches differ. -/
theorem tone_powers :
    (31 < toLinear (15 : ℝ) ∧ toLinear (15 : ℝ) < 32) ∧
    (39 < toLinear (16 : ℝ) ∧ toLinear (16 : ℝ) < 40) ∧
    (50 < toLinear (17 : ℝ) ∧ toLinear (17 : ℝ) < 51) ∧
    (63 < toLinear (18 : ℝ) ∧ toLinear (18 : ℝ) < 64) ∧
    (79 < toLinear (19 : ℝ) ∧ toLinear (19 : ℝ) < 80) := by
  refine ⟨?_, ?_, ?_, ?_, ?_⟩
  · exact_mod_cast toLinear_between 15 31 32 (by norm_num) (by norm_num)
  · exact_mod_cast toLinear_between 16 39 40 (by norm_num) (by norm_num)
  · exact_mod_cast toLinear_between 17 50 51 (by norm_num) (by norm_num)
  · exact_mod_cast toLinear_between 18 63 64 (by norm_num) (by norm_num)
  · exact_mod_cast toLinear_between 19 79 80 (by norm_num) (by norm_num)

theorem quiet_first (constraint : Constraint ℝ) (receiver : Receiver ℝ) :
    ∃ a, runFrom (ofGrants ⟨.pure fun _ eirp _ _ => eirp, constraint, receiver, -150⟩ 100
        [tone "quiet" 0 true, tone "mid" 16 false, tone "loud" 19 false]) () = (.ok a, ()) ∧
      a.localTotal = 1 ∧ a.globalTotal = 1 + toLinear 16 + toLinear 17 := by
  obtain ⟨-, ⟨low16, high16⟩, ⟨low17, high17⟩, ⟨low18, high18⟩, low19, high19⟩ := tone_powers
  have begun : Reachable (σ := Unit) ⟨.pure fun _ eirp _ _ => eirp, constraint, receiver, -150⟩ 100
      [tone "quiet" 0 true, tone "mid" 16 false, tone "loud" 19 false] () (.start _ _ _) := .start
  -- Once 0 and 16 dBm fit, less than 60 mW are left to 19 dBm, which come down to 17 dBm.
  have first := begun.next (.turn (by simp [Tally.start]))
  have quiet := first.accept rfl toLinear_zero rfl (by simp [Candidate.start])
    (by norm_num [Tally.start]) rfl rfl
  have mid := quiet.accept rfl (rfl : _ = toLinear (16 : ℝ)) rfl (by simp [Candidate.start])
    (by norm_num [Tally.start, Tally.accept]; linarith) rfl rfl
  have loud := mid.lower rfl (rfl : _ = toLinear (19 : ℝ)) rfl (by simp [Candidate.start])
    (by norm_num [Tally.start, Tally.accept]; linarith) (by norm_num [Candidate.start, tone]) rfl
  have second := loud.next (.turn (by simp [Tally.start, Tally.accept]))
  have quiet := second.next (.visit (.settled rfl))
  have mid := quiet.next (.visit (.settled rfl))
  have loud := mid.lower rfl (by norm_num [Candidate.start, tone] : _ = toLinear (18 : ℝ)) rfl
    (by simp; linarith)
    (by norm_num [Tally.start, Tally.accept]; linarith) (by norm_num [Candidate.start, tone]) rfl
  have third := loud.next (.turn (by simp [Tally.start, Tally.accept]))
  have quiet := third.next (.visit (.settled rfl))
  have mid := quiet.next (.visit (.settled rfl))
  have loud := mid.accept rfl (by norm_num [Candidate.start, tone] : _ = toLinear (17 : ℝ)) rfl
    (by simp; linarith)
    (by norm_num [Tally.start, Tally.accept]; linarith) rfl rfl
  have ended := ofGrants_of_reachable loud rfl rfl
    ((by decide : 3 ≤ 0x8000000000000000).trans (le_sweepBound _ _))
  refine ⟨_, ended, ?_, ?_⟩
  · simp [Stage.allocation, Tally.start, Tally.accept, tone, Candidate.start]
  · simp [Stage.allocation, Tally.start, Tally.accept, tone, Candidate.start]

theorem quiet_last (constraint : Constraint ℝ) (receiver : Receiver ℝ) :
    ∃ a, runFrom (ofGrants ⟨.pure fun _ eirp _ _ => eirp, constraint, receiver, -150⟩ 100
        [tone "mid" 16 true, tone "loud" 19 true, tone "quiet" 0 false]) () = (.ok a, ()) ∧
      a.localTotal = toLinear 15 + toLinear 18 ∧
      a.globalTotal = 1 + toLinear 15 + toLinear 18 := by
  obtain ⟨⟨low15, high15⟩, ⟨low16, high16⟩, -, ⟨low18, high18⟩, low19, high19⟩ := tone_powers
  have begun : Reachable (σ := Unit) ⟨.pure fun _ eirp _ _ => eirp, constraint, receiver, -150⟩ 100
      [tone "mid" 16 true, tone "loud" 19 true, tone "quiet" 0 false] () (.start _ _ _) := .start
  -- 16 dBm are above a third of 100 mW and come down to 15 dBm, which leaves more than 67 mW to 18 dBm.
  have first := begun.next (.turn (by simp [Tally.start]))
  have mid := first.lower rfl (rfl : _ = toLinear (16 : ℝ)) rfl (by simp [Candidate.start])
    (by norm_num [Tally.start]; linarith) (by norm_num [Candidate.start, tone]) rfl
  have loud := mid.lower rfl (rfl : _ = toLinear (19 : ℝ)) rfl (by simp [Candidate.start])
    (by norm_num [Tally.start]; linarith) (by norm_num [Candidate.start, tone]) rfl
  have quiet := loud.accept rfl toLinear_zero rfl (by simp [Candidate.start])
    (by norm_num [Tally.start]) rfl rfl
  have second := quiet.next (.turn (by simp [Tally.start, Tally.accept]))
  have mid := second.accept rfl (by norm_num [Candidate.start, tone] : _ = toLinear (15 : ℝ)) rfl
    (by simp; linarith) (by norm_num [Tally.start, Tally.accept]; linarith) rfl rfl
  have loud := mid.accept rfl (by norm_num [Candidate.start, tone] : _ = toLinear (18 : ℝ)) rfl
    (by simp; linarith) (by norm_num [Tally.start, Tally.accept]; linarith) rfl rfl
  have quiet := loud.next (.visit (.settled rfl))
  have ended := ofGrants_of_reachable quiet rfl rfl
    ((by decide : 2 ≤ 0x8000000000000000).trans (le_sweepBound _ _))
  refine ⟨_, ended, ?_, ?_⟩
  · simp [Stage.allocation, Tally.start, Tally.accept, tone, Candidate.start]
  · simp [Stage.allocation, Tally.start, Tally.accept, tone, Candidate.start]

theorem tone_share {grants : List (Grant ℝ)} {point : Position ℝ} {a : Allocation ℝ}
    (inside : ∀ g ∈ grants, g.range = ⟨3550000000, 3555000000⟩) (nonempty : grants ≠ [])
    (run : runFrom (ofGrants ⟨.pure fun _ eirp _ _ => eirp,
      ⟨point, ⟨3550000000, 3555000000⟩, .gwpz⟩, .area .suburban, -150⟩ 100 grants) () = (.ok a, ())) :
    runFrom (({ toneSurvey with grants := grants }).share point 100 2) () =
      (.ok (record .empty point.key [⟨a.localTotal, a.globalTotal⟩],
        allowed 100 2 point.key [⟨a.localTotal, a.globalTotal⟩]), ()) := by
  have all : grants.filter (fun g => g.range.overlaps ⟨3550000000, 3555000000⟩) = grants := by
    apply List.filter_eq_self.2
    intro g hg
    rw [inside g hg]
    norm_num [FrequencyRange.overlaps]
  have channel : runFrom (({ toneSurvey with grants := grants }).channel point grants
      ⟨⟨3550000000, 3555000000⟩, 100⟩) () =
        (.ok (some ⟨a.localTotal, a.globalTotal⟩), ()) := by
    simp only [runFrom_channel, Survey.busy, Survey.search, Survey.constraint, overlapping, all]
    rw [if_pos (by simpa using nonempty)]
    exact runFrom_map_ok.2 ⟨a, run, rfl⟩
  have outcome : (({ toneSurvey with grants := grants }).outcome point).run () =
      (⟨[⟨a.localTotal, a.globalTotal⟩], none⟩, ()) := by
    have near : grants.filter (fun _ => true) = grants := List.filter_true grants
    simp only [Survey.outcome, toneSurvey, near] at channel ⊢
    rw [channels_cons, channel]
    rfl
  rw [runFrom_share _ _ _ (by decide), outcome]

/-- What the two authorities come to in the channel. -/
noncomputable def toneTotals : Fin toneDumps.length → ChannelTotals ℝ :=
  ![⟨1, 1 + toLinear 16 + toLinear 17⟩,
    ⟨toLinear 15 + toLinear 18, 1 + toLinear 15 + toLinear 18⟩]

theorem tone_runs : ∀ k,
    runFrom (({ toneSurvey with grants := (GrantSet.ofGroup toneDumps k).grants }).share tonePoint 100
      (GrantSet.ofGroup toneDumps k).peers) () =
      (.ok (record .empty tonePoint.key [toneTotals k],
        allowed 100 2 tonePoint.key [toneTotals k]), ()) := by
  obtain ⟨a, run, own, all⟩ :=
    quiet_first ⟨tonePoint, ⟨3550000000, 3555000000⟩, .gwpz⟩ (.area .suburban)
  obtain ⟨b, run', own', all'⟩ :=
    quiet_last ⟨tonePoint, ⟨3550000000, 3555000000⟩, .gwpz⟩ (.area .suburban)
  have first := tone_share (by simp [tone]) (List.cons_ne_nil _ _) run
  have second := tone_share (by simp [tone]) (List.cons_ne_nil _ _) run'
  rw [own, all] at first
  rw [own', all'] at second
  exact Fin.forall_fin_two.2 ⟨first, second⟩

theorem tone_common : Common toneSurvey (fun _ eirp _ _ => eirp) (fun _ _ _ => true) 100 :=
  ⟨rfl, fun _ _ => rfl, fun _ _ _ => rfl, fun _ _ => rfl, by simp [toneSurvey]⟩

theorem group_allowances_tones :
    (∀ level : ℝ, 0 ≤ toLinear level) ∧
    Common toneSurvey (fun _ eirp _ _ => eirp) (fun _ _ _ => true) 100 ∧
    ∃ (shares : Fin toneDumps.length → Allowances ℝ) (own all values : Fin toneDumps.length → ℝ),
      (∀ k, ∃ store,
        runFrom (({ toneSurvey with grants := (GrantSet.ofGroup toneDumps k).grants }).share
          tonePoint 100 (GrantSet.ofGroup toneDumps k).peers) () = (.ok (store, shares k), ())) ∧
      (∀ k, (shares k).value? tonePoint.key 0 = some (values k)) ∧
      Split 100 own all values := by
  refine ⟨toLinear_nonneg, tone_common, fun k => allowed 100 2 tonePoint.key [toneTotals k], ?_⟩
  obtain ⟨-, splits⟩ := group_allowances toLinear_nonneg tone_common toneDumps tonePoint (fun _ => ())
    (fun _ => ()) _ _ tone_runs
  obtain ⟨-, own, all, values, -, there, split, -⟩ := splits ⟨0, by decide⟩ tonePoint.key 0 _
    (allowed_value?.2 ⟨rfl, _, rfl, rfl⟩)
  exact ⟨own, all, values, fun k => ⟨_, tone_runs k⟩, fun k => (there k).2.2, split⟩

/-- Authorities that each use all they may can exceed the threshold together: the second fits its loud
grant at a higher power than the first does, since it lets its other grant fit before. -/
theorem group_overcommits :
    Common toneSurvey (fun _ eirp _ _ => eirp) (fun _ _ _ => true) 100 ∧
    ∃ (stores : Fin toneDumps.length → Store ℝ) (shares : Fin toneDumps.length → Allowances ℝ)
      (values : Fin toneDumps.length → ℝ),
      (∀ k, runFrom (({ toneSurvey with grants := (GrantSet.ofGroup toneDumps k).grants }).share
        tonePoint 100 (GrantSet.ofGroup toneDumps k).peers) () = (.ok (stores k, shares k), ())) ∧
      (∀ k, (shares k).value? tonePoint.key 0 = some (values k)) ∧
      100 < ∑ k, values k := by
  refine ⟨tone_common, _, _, fun k => (toneTotals k).share 100 2, tone_runs, fun k => ?_, ?_⟩
  · exact allowed_value?.2 ⟨rfl, toneTotals k, rfl, rfl⟩
  · obtain ⟨⟨low15, -⟩, ⟨-, high16⟩, ⟨-, high17⟩, ⟨low18, -⟩, -⟩ := tone_powers
    change 100 < ∑ k : Fin 2, (toneTotals k).share 100 2
    rw [Fin.sum_univ_two]
    simp only [toneTotals, ChannelTotals.share, Matrix.cons_val_zero, Matrix.cons_val_one]
    norm_num
    linarith

end

end Allocation

end SpectrumShare
