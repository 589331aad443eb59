import Mathlib.Algebra.BigOperators.Fin
import Mathlib.Algebra.BigOperators.Group.Finset.Piecewise
import SpectrumShare.Proofs.Allocation.Balance
import SpectrumShare.Proofs.Allocation.Ownership
import SpectrumShare.Proofs.Allocation.Share

/-! # Shares of one group add up to the threshold

Every grant is owned by one of several authorities, all of which allocate the same grants in the same
order. They fail alike, or their local totals add up to the one global total, so what they may use adds up
to the threshold. -/

namespace SpectrumShare.Allocation

section

variable {α ι : Type} [DecidableEq ι]

/-- The grants as one of their owners sees them. -/
def seenBy (k : ι) (owned : List (Grant α × ι)) : List (Grant α) :=
  owned.map fun e => { e.1 with managed := decide (e.2 = k) }

@[simp] theorem seenBy_disown (k : ι) (owned : List (Grant α × ι)) :
    (seenBy k owned).map Grant.disown = owned.map fun e => e.1.disown := by
  simp [seenBy, Grant.disown, Function.comp_def]

theorem seenBy_isEmpty (k : ι) (owned : List (Grant α × ι)) :
    (seenBy k owned).isEmpty = owned.isEmpty := by
  cases owned <;> rfl

theorem seenBy_overlapping [Scalar α] (k : ι) (owned : List (Grant α × ι)) (c : Constraint α) :
    overlapping (seenBy k owned) c = seenBy k (owned.filter fun e => e.1.range.overlaps c.channel) := by
  simp only [overlapping, seenBy, List.filter_map]
  rfl

theorem seenBy_neighborhood
    {neighborhood : List (Grant α) → Position α → EntityKind → List (Grant α)}
    (blind : PicksBlindly neighborhood) (owned : List (Grant α × ι)) (point : Position α)
    (kind : EntityKind) :
    ∃ near, ∀ k, neighborhood (seenBy k owned) point kind = seenBy k near := by
  obtain ⟨places, picks⟩ := blind
  refine ⟨(places (owned.map fun e => e.1.disown) point kind).filterMap (owned[·]?), fun k => ?_⟩
  rw [picks, seenBy_disown]
  simp [seenBy, List.map_filterMap]

/-- What the grants with an owner take, summed over the owners, is what all of them take. -/
theorem sum_owned {K : Type} [AddCommMonoid K] [Fintype ι] (taken : List (ι × K)) :
    ∑ k, ((taken.filter fun e => decide (e.1 = k)).map (·.2)).sum = (taken.map (·.2)).sum := by
  induction taken with
  | nil => simp
  | cons e rest ih =>
    have split : ∀ k, (((e :: rest).filter fun e => decide (e.1 = k)).map (·.2)).sum =
        (if e.1 = k then e.2 else 0) + ((rest.filter fun e => decide (e.1 = k)).map (·.2)).sum := by
      intro k
      by_cases mine : e.1 = k
      · simp [mine]
      · simp [mine]
    rw [Finset.sum_congr rfl fun k _ => split k, Finset.sum_add_distrib, ih, Finset.sum_ite_eq,
      if_pos (Finset.mem_univ _), List.map_cons, List.sum_cons]

end

variable {σ K ι : Type} [Field K] [LinearOrder K] [Rounding K] [Decibel K] [DecidableEq ι]

/-- The owners of some grants all fail alike, or they agree on what the grants cause. -/
theorem ofGrants_alike {s : Setting σ K} (blind : s.model.IgnoresOwner) (quota : K)
    (owned : List (Grant K × ι)) (m : σ) :
    (∃ halt n, ∀ k, runFrom (ofGrants s quota (seenBy k owned)) m = (.error halt, n)) ∨
    ∃ (a : ι → Allocation K) (b : Allocation K) (n : σ), ∀ k,
      runFrom (ofGrants s quota (seenBy k owned)) m = (.ok (a k), n) ∧ (a k).disown = b := by
  have erased : ∀ k, runFrom (disown <$> ofGrants s quota (seenBy k owned)) m =
      runFrom (ofGrants s quota (owned.map fun e => e.1.disown)) m := by
    intro k
    rw [← ofGrants_disown blind, seenBy_disown]
  rcases nobody : runFrom (ofGrants s quota (owned.map fun e => e.1.disown)) m with ⟨r, n⟩
  cases r with
  | error halt =>
    left
    refine ⟨halt, n, fun k => ?_⟩
    exact runFrom_map_error.1 ((erased k).trans nobody)
  | ok b =>
    right
    have each : ∀ k, ∃ a, runFrom (ofGrants s quota (seenBy k owned)) m = (.ok a, n) ∧ a.disown = b :=
      fun k => runFrom_map_ok.1 ((erased k).trans nobody)
    choose a run using each
    exact ⟨a, b, n, run⟩

variable [IsStrictOrderedRing K] [Fintype ι]

/-- What the owners of some grants count as their own adds up to what all of them count. -/
theorem ofGrants_partition {s : Setting σ K} (blind : s.model.IgnoresOwner) (quota : K)
    (owned : List (Grant K × ι)) (m : σ) :
    (∃ halt n, ∀ k, runFrom (ofGrants s quota (seenBy k owned)) m = (.error halt, n)) ∨
    ∃ (a : ι → Allocation K) (n : σ), ∀ k,
      runFrom (ofGrants s quota (seenBy k owned)) m = (.ok (a k), n) ∧
        (a k).globalTotal = ∑ j, (a j).localTotal := by
  rcases ofGrants_alike blind quota owned m with fail | ⟨a, b, n, run⟩
  · exact .inl fail
  · refine .inr ⟨a, n, fun k => ⟨(run k).1, ?_⟩⟩
    -- What is left of each result without owners is the same, so all see the same powers.
    have taken : ∀ j, (a j).grants.map (·.fit.interference) = b.grants.map (·.fit.interference) := by
      intro j
      rw [← (run j).2]
      simp [disown, Function.comp_def]
    obtain ⟨identity, all, -, -⟩ := ofGrants_totals (run k).1
    have count : owned.length = (b.grants.map (·.fit.interference)).length := by
      rw [← taken k]
      simpa [seenBy] using (congrArg List.length identity).symm
    let parts := (owned.map (·.2)).zip (b.grants.map (·.fit.interference))
    have owners : parts.map (·.1) = owned.map (·.2) := List.map_fst_zip (by simp [count])
    have powers : parts.map (·.2) = b.grants.map (·.fit.interference) :=
      List.map_snd_zip (by simp [count])
    have own : ∀ j, (a j).localTotal =
        ((parts.filter fun e => decide (e.1 = j)).map (·.2)).sum := by
      intro j
      obtain ⟨identity, -, own, -⟩ := ofGrants_totals (run j).1
      have managed : (a j).grants.map (·.managed) = parts.map fun e => decide (e.1 = j) := by
        have mine := congrArg (List.map fun k => decide (k = j)) owners
        have flags := congrArg (List.map (·.2.1)) identity
        simp only [seenBy, List.map_map, Function.comp_def] at mine flags
        rw [flags, mine]
      rw [own, filter_map_alike managed ((taken j).trans powers.symm)]
    rw [all, taken k, Finset.sum_congr rfl fun j _ => own j, sum_owned, powers]

section

variable (s : Survey σ K) (blind : s.model.IgnoresOwner) (lists : ι → List (Grant K))
  (point : Position K) (near : List (Grant K × ι))

include blind

theorem channel_partition (c : PlannedChannel K) (m : σ) :
    (∃ halt n, ∀ k, runFrom (({ s with grants := lists k }).channel point (seenBy k near) c) m =
      (.error halt, n)) ∨
    (∀ k, runFrom (({ s with grants := lists k }).channel point (seenBy k near) c) m =
      (.ok none, m)) ∨
    ∃ (part : ι → K) (n : σ), ∀ k,
      runFrom (({ s with grants := lists k }).channel point (seenBy k near) c) m =
        (.ok (some ⟨part k, ∑ j, part j⟩), n) := by
  simp only [runFrom_channel, Survey.busy, Survey.search, seenBy_overlapping, seenBy_isEmpty,
    Survey.constraint]
  generalize near.filter _ = crowd
  cases crowd.isEmpty with
  | true => exact .inr (.inl fun k => rfl)
  | false =>
    rcases ofGrants_partition (s := ⟨s.model, ⟨point, c.channel, s.plan.kind⟩, s.receiver, s.floor⟩)
      blind c.quota crowd m with ⟨halt, n, fail⟩ | ⟨a, n, run⟩
    · left
      refine ⟨halt, n, fun k => ?_⟩
      simp only [Bool.not_false, ↓reduceIte, runFrom_map, fail k]
      rfl
    · right
      right
      refine ⟨fun k => (a k).localTotal, n, fun k => ?_⟩
      simp only [Bool.not_false, ↓reduceIte, runFrom_map, (run k).1, ← (run k).2]
      rfl

theorem channels_partition (cs : List (PlannedChannel K)) (m : σ) :
    ∃ (parts : List (ι → K)) (halt : Option (Halt K)) (n : σ), ∀ k,
      (({ s with grants := lists k }).channels point (seenBy k near) cs).run m =
        (⟨parts.map fun part => ⟨part k, ∑ j, part j⟩, halt⟩, n) := by
  induction cs generalizing m with
  | nil => exact ⟨[], none, m, fun k => rfl⟩
  | cons c rest ih =>
    rcases channel_partition s blind lists point near c m with ⟨halt, n, fail⟩ | idle | ⟨part, i, run⟩
    · refine ⟨[], some halt, n, fun k => ?_⟩
      rw [channels_cons, fail k]
      rfl
    · obtain ⟨parts, halt, n, others⟩ := ih m
      refine ⟨parts, halt, n, fun k => ?_⟩
      rw [channels_cons, idle k]
      exact others k
    · obtain ⟨parts, halt, n, others⟩ := ih i
      refine ⟨part :: parts, halt, n, fun k => ?_⟩
      simp only [channels_cons, run k, others k, List.map_cons]

end

/-- **The shares of a group add up to the threshold.** However the grants are owned, and whatever share
of the threshold the plan lets a channel carry. -/
theorem shares_sum_to_threshold {n : Nat} (s : Survey σ K) (blind : s.model.IgnoresOwner)
    (picks : PicksBlindly s.neighborhood) (owned : List (Grant K × Fin (n + 1)))
    (point : Position K) (threshold : K) (m : σ) :
    (∃ halt i, ∀ k, runFrom (({ s with grants := seenBy k owned }).share point threshold (n + 1)) m =
      (.error halt, i)) ∨
    ∃ (stores : Fin (n + 1) → Store K) (shares : Fin (n + 1) → Allowances K) (i : σ),
      (∀ k, runFrom (({ s with grants := seenBy k owned }).share point threshold (n + 1)) m =
        (.ok (stores k, shares k), i)) ∧
      (∀ j k key, ((stores j).totals key).globalTotals = ((stores k).totals key).globalTotals) ∧
      (∀ j k, (shares j).toList.map (fun e => (e.1, e.2.length)) =
        (shares k).toList.map fun e => (e.1, e.2.length)) ∧
      ∀ j key channel v, (shares j).value? key channel = some v →
        ∃ values : Fin (n + 1) → K, (∀ k, (shares k).value? key channel = some (values k)) ∧
          ∑ k, values k = threshold := by
  obtain ⟨near, hood⟩ := seenBy_neighborhood picks owned point s.plan.kind
  obtain ⟨parts, halt, i, found⟩ :=
    channels_partition s blind (seenBy · owned) point near s.plan.channels m
  have outcome : ∀ k, (({ s with grants := seenBy k owned }).outcome point).run m =
      (⟨parts.map fun part => ⟨part k, ∑ j, part j⟩, halt⟩, i) := by
    intro k
    simp only [Survey.outcome, hood k]
    exact found k
  cases halt with
  | some halt =>
    left
    refine ⟨halt, i, fun k => ?_⟩
    rw [runFrom_share _ _ _ n.succ_pos, outcome k]
  | none =>
    right
    let totals : Fin (n + 1) → List (ChannelTotals K) := fun k =>
      parts.map fun part => ⟨part k, ∑ j, part j⟩
    refine ⟨fun k => record .empty point.key (totals k),
      fun k => allowed threshold (n + 1) point.key (totals k), i, ?_, ?_, ?_, ?_⟩
    · intro k
      rw [runFrom_share _ _ _ n.succ_pos, outcome k]
    · intro j k key
      simp only [totals_record_empty, totals]
      split <;> simp [Function.comp_def]
    · intro j k
      simp [allowed_shape, totals]
    · intro j key channel v here
      obtain ⟨rfl, t, ht, -⟩ := allowed_value?.1 here
      obtain ⟨part, at_channel, -⟩ : ∃ part, parts[channel]? = some part ∧ _ = t := by
        simpa [totals, List.getElem?_map] using ht
      refine ⟨fun k => (threshold - ∑ j, part j) / ((n + 1 : Nat) : K) + part k, fun k => ?_, ?_⟩
      · exact allowed_value?.2 ⟨rfl, ⟨part k, ∑ j, part j⟩, by simp [totals, at_channel], rfl⟩
      · rw [Finset.sum_add_distrib, Finset.sum_const, Finset.card_univ, Fintype.card_fin,
          nsmul_eq_mul, mul_div_cancel₀ _ (Nat.cast_ne_zero.2 n.succ_ne_zero), sub_add_cancel]

/-- Two channels, of which the second carries half the threshold. -/
def twoChannels : ChannelPlan ℚ where
  kind := .esc
  span := ⟨3550000000, 3560000000⟩
  channels := [⟨⟨3550000000, 3555000000⟩, 30⟩, ⟨⟨3555000000, 3560000000⟩, 15⟩]

def plainSurvey : Survey Unit ℚ where
  plan := twoChannels
  grants := []
  receiver := .area .suburban
  model := .pure fun _ eirp _ _ => eirp
  neighborhood := Radii.standard.neighbors fun _ _ => 0
  floor := -150

/-- The first authority owns the first grant and the last, the second authority the other. -/
def threeOwned : List (Grant ℚ × Fin 2) :=
  [(plainGrant "quiet" 0 false, 0), (plainGrant "mid" (58 / 5) false, 1),
    (plainGrant "loud" 20 false, 0)]

theorem shares_sum_two_authorities :
    plainSurvey.model.IgnoresOwner ∧ PicksBlindly plainSurvey.neighborhood ∧
    ∃ (shares : Fin 2 → Allowances ℚ) (values : Fin 2 → ℚ),
      (∀ k, ∃ store, runFrom (({ plainSurvey with grants := seenBy k threeOwned }).share
        ⟨37, -122⟩ 30 2) () = (.ok (store, shares k), ())) ∧
      (∀ k, (shares k).value? ⟨37000000, -122000000⟩ 1 = some (values k)) ∧
      ∑ k, values k = 30 := by
  have blind : plainSurvey.model.IgnoresOwner := fun _ _ => rfl
  have picks : PicksBlindly plainSurvey.neighborhood :=
    Radii.standard.neighbors_picksBlindly fun _ _ => 0
  have first : ((runFrom (({ plainSurvey with grants := seenBy 0 threeOwned }).share
      ⟨37, -122⟩ 30 2) ()).1.toOption.bind fun r => r.2.value? ⟨37000000, -122000000⟩ 1) =
      some (157 / 10 : ℚ) := by
    decide +kernel
  refine ⟨blind, picks, ?_⟩
  rcases shares_sum_to_threshold plainSurvey blind picks threeOwned ⟨37, -122⟩ 30 () with
    ⟨halt, i, fail⟩ | ⟨stores, shares, i, run, -, -, sums⟩
  · rw [fail 0] at first
    cases first
  · rw [run 0] at first
    obtain ⟨values, there, sum⟩ := sums 0 _ 1 _ first
    exact ⟨shares, values, fun k => ⟨stores k, run k⟩, there, sum⟩

end SpectrumShare.Allocation
