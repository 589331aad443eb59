import Mathlib.Algebra.Order.Field.Basic
import Mathlib.Data.List.Pairwise
import Mathlib.Tactic.FieldSimp
import SpectrumShare.Proofs.Allocation.Balance
import SpectrumShare.Proofs.Allocation.Descent

/-! # Shares only rise

A grant that fits takes less than its share, so it raises the share of all that still wait. In every stage
the share is above each by which a grant was let fit, and what a search returns shows how they rose. -/

namespace SpectrumShare.Allocation

theorem pairwise_replace {α : Type} {R : α → α → Prop} {v rest : List α} {c d : α}
    (h : (v ++ c :: rest).Pairwise R) (before : ∀ a ∈ v, R a d) (after : ∀ b ∈ rest, R d b) :
    (v ++ d :: rest).Pairwise R := by
  obtain ⟨first, last, across⟩ := List.pairwise_append.1 h
  refine List.pairwise_append.2 ⟨first, ?_, ?_⟩
  · exact List.pairwise_cons.2 ⟨after, (List.pairwise_cons.1 last).2⟩
  · intro a ha b hb
    rcases List.mem_cons.1 hb with rfl | hb
    · exact before a ha
    · exact across a ha b (List.mem_cons_of_mem _ hb)

section

variable {σ K : Type} [LinearOrder K]

/-- Of two grants that fit, the first before the second in the list, the one that fits later does so by
the higher share. -/
def Rising (c d : Candidate K) : Prop :=
  ∀ f g, c.fit = some f → d.fit = some g →
    (f.sweep ≤ g.sweep → f.fairShare < g.fairShare) ∧
    (g.sweep < f.sweep → g.fairShare < f.fairShare)

/-- The share is never below an even split, and above all the shares that served before it. -/
structure Fair (least : K) (x : Stage σ K) : Prop where
  least_le : 0 < x.tally.waiting → least ≤ x.tally.fairShare
  fits_least_le : ∀ c ∈ x.candidates, ∀ f, c.fit = some f → least ≤ f.fairShare
  fits_lt : 0 < x.tally.waiting → ∀ c ∈ x.candidates, ∀ f, c.fit = some f →
    f.fairShare < x.tally.fairShare
  sweep_le : ∀ c ∈ x.candidates, ∀ f, c.fit = some f → f.sweep ≤ x.sweep
  sweep_lt : ∀ c ∈ x.pending, ∀ f, c.fit = some f → f.sweep < x.sweep
  rising : x.candidates.Pairwise Rising

theorem Fair.lower {least : K} {k : Nat} {t : Tally K} {c c' : Candidate K}
    {v rest : List (Candidate K)} {n n' : σ}
    (h : Fair least (⟨k, t, v, c :: rest, n⟩ : Stage σ K)) (still : c'.fit = none) :
    Fair least (⟨k, t, v ++ [c'], rest, n'⟩ : Stage σ K) := by
  have old : ∀ d ∈ Stage.candidates ⟨k, t, v ++ [c'], rest, n'⟩, ∀ f, d.fit = some f →
      d ∈ Stage.candidates ⟨k, t, v, c :: rest, n⟩ := by
    intro d hd f fit
    rcases Stage.mem_candidates hd with rfl | hd
    · rw [still] at fit
      cases fit
    · exact hd
  constructor
  · exact h.least_le
  · exact fun d hd f fit => h.fits_least_le d (old d hd f fit) f fit
  · exact fun waiting d hd f fit => h.fits_lt waiting d (old d hd f fit) f fit
  · exact fun d hd f fit => h.sweep_le d (old d hd f fit) f fit
  · exact fun d hd => h.sweep_lt d (List.mem_cons_of_mem _ hd)
  · simp only [Stage.candidates, List.append_assoc, List.singleton_append]
    apply pairwise_replace h.rising
    · intro d _ f g _ fit
      rw [still] at fit
      cases fit
    · intro d _ f g fit
      rw [still] at fit
      cases fit

end

variable {σ K : Type} [Field K] [LinearOrder K] [Rounding K]

theorem start_fair (quota : K) (grants : List (Grant K)) (m : σ) :
    Fair (quota / grants.length) (Stage.start quota grants m) := by
  have waits : ∀ c ∈ (Stage.start quota grants m).candidates, c.fit = none := by
    intro c hc
    simp only [Stage.start, Stage.candidates, List.append_nil, List.mem_map] at hc
    obtain ⟨g, -, rfl⟩ := hc
    rfl
  constructor
  · intro waiting
    simp only [Stage.start, Tally.start] at waiting ⊢
    rw [if_pos waiting]
  · intro c hc f fit
    rw [waits c hc] at fit
    cases fit
  · intro _ c hc f fit
    rw [waits c hc] at fit
    cases fit
  · intro c hc f fit
    rw [waits c hc] at fit
    cases fit
  · intro c hc
    cases hc
  · apply List.pairwise_of_forall_mem_list
    intro c hc d _ f g fit
    rw [waits c hc] at fit
    cases fit

variable [IsStrictOrderedRing K]

/-- Whoever takes less than the share leaves more to each of the others. -/
theorem share_lt_accept {t : Tally K} {p : K} {managed : Bool}
    (share : t.fairShare * t.waiting = t.remaining) (below : p < t.fairShare)
    (others : 0 < (t.accept p managed).waiting) :
    t.fairShare < (t.accept p managed).fairShare := by
  simp only [Tally.accept] at others ⊢
  have count : ((t.waiting - 1 : Nat) : K) = t.waiting - 1 := by
    rw [Nat.cast_sub (by omega), Nat.cast_one]
  have positive : (0 : K) < (t.waiting - 1 : Nat) := by exact_mod_cast others
  rw [if_neg others.ne', lt_div_iff₀ positive, count, ← share]
  linarith [mul_sub t.fairShare (t.waiting : K) 1]

section

variable {least : K} {k : Nat} {t : Tally K} {c c' : Candidate K} {v rest : List (Candidate K)}
  {n n' : σ}

theorem Fair.accept (h : Fair least (⟨k, t, v, c :: rest, n⟩ : Stage σ K))
    (waiting : 0 < t.waiting)
    (share : t.fairShare * t.waiting = t.remaining) {p : K} (below : p < t.fairShare)
    (fits : c'.fit = some ⟨p, t.fairShare, k⟩) (managed : Bool) :
    Fair least (⟨k, t.accept p managed, v ++ [c'], rest, n'⟩ : Stage σ K) := by
  have rises : 0 < (t.accept p managed).waiting → t.fairShare < (t.accept p managed).fairShare :=
    share_lt_accept share below
  constructor
  · exact fun others => (h.least_le waiting).trans (rises others).le
  · intro d hd f fit
    rcases Stage.mem_candidates hd with rfl | hd
    · cases fits.symm.trans fit
      exact h.least_le waiting
    · exact h.fits_least_le d hd f fit
  · intro others d hd f fit
    rcases Stage.mem_candidates hd with rfl | hd
    · cases fits.symm.trans fit
      exact rises others
    · exact (h.fits_lt waiting d hd f fit).trans (rises others)
  · intro d hd f fit
    rcases Stage.mem_candidates hd with rfl | hd
    · cases fits.symm.trans fit
      exact le_rfl
    · exact h.sweep_le d hd f fit
  · exact fun d hd => h.sweep_lt d (List.mem_cons_of_mem _ hd)
  · simp only [Stage.candidates, List.append_assoc, List.singleton_append]
    -- No grant fits in a later sweep, and those behind this one fit in an earlier sweep if at all, so the
    -- share that serves now is above all of theirs.
    apply pairwise_replace h.rising
    · intro d hd f g fit now
      cases fits.symm.trans now
      have inside : d ∈ Stage.candidates ⟨k, t, v, c :: rest, n⟩ := by simp [Stage.candidates, hd]
      refine ⟨fun _ => h.fits_lt waiting d inside f fit, fun late => ?_⟩
      exact absurd (h.sweep_le d inside f fit) late.not_ge
    · intro d hd f g now fit
      cases fits.symm.trans now
      have inside : d ∈ Stage.candidates ⟨k, t, v, c :: rest, n⟩ := by simp [Stage.candidates, hd]
      refine ⟨fun late => ?_, fun _ => h.fits_lt waiting d inside g fit⟩
      exact absurd (h.sweep_lt d (List.mem_cons_of_mem _ hd) g fit) late.not_gt

end

variable [Decibel K] {s : Setting σ K} {quota : K} {grants : List (Grant K)} {m : σ}

theorem step_fair {least : K} {x y : Stage σ K} (reached : Reachable s quota grants m x)
    (step : Step s x y) (h : Fair least x) : Fair least y := by
  cases step with
  | turn =>
    obtain ⟨least_le, fits_least_le, fits_lt, sweep_le, -, rising⟩ := h
    simp only [Stage.candidates, List.append_nil] at fits_least_le fits_lt sweep_le rising
    exact ⟨least_le, fits_least_le, fits_lt,
      fun c hc f fit => Nat.le_succ_of_le (sweep_le c hc f fit),
      fun c hc f fit => Nat.lt_succ_of_le (sweep_le c hc f fit), rising⟩
  | @visit k t t' c c' v rest n n' probe =>
    cases probe with
    | settled =>
      obtain ⟨least_le, fits_least_le, fits_lt, sweep_le, sweep_lt, rising⟩ := h
      have same : Stage.candidates ⟨k, t, v ++ [c], rest, n⟩ =
          Stage.candidates ⟨k, t, v, c :: rest, n⟩ := by
        simp [Stage.candidates]
      rw [← same] at fits_least_le fits_lt sweep_le rising
      exact ⟨least_le, fits_least_le, fits_lt, sweep_le,
        fun d hd => sweep_lt d (List.mem_cons_of_mem _ hd), rising⟩
    | accepted waits _ _ _ below =>
      have waiting := waiting_pos reached waits
      exact h.accept waiting ((reachable_balanced reached).share waiting) below rfl _
    | lowered waits => exact h.lower waits

theorem reachable_fair {x : Stage σ K} (h : Reachable s quota grants m x) :
    Fair (quota / grants.length) x := by
  induction h with
  | start => exact start_fair quota grants m
  | next reached step ih => exact step_fair reached step ih

/-- No probe is measured by less than an even split. -/
theorem Probed.least_le {i k : Nat} {g : Grant K} {eirp share level : K}
    (h : Probed s quota grants m i k g eirp share level) : quota / grants.length ≤ share := by
  cases h with
  | intro reached waits => exact (reachable_fair reached).least_le (waiting_pos reached waits)

theorem exists_candidate {x : Stage σ K} (reached : Reachable s quota grants m x)
    (ended : x.tally.waiting = 0) {i : Nat} {o : GrantAllocation K}
    (ho : (x.allocation s quota).grants[i]? = some o) :
    ∃ c, x.candidates[i]? = some c ∧ c.fit = some o.fit ∧ c.eirp = o.finalEirp ∧
      grants[i]? = some c.grant := by
  have balanced := reachable_balanced reached
  have entry := ho
  simp only [Stage.allocation] at entry
  rw [ofCandidate?_getElem? (balanced.fits ended)] at entry
  obtain ⟨c, hc, made⟩ := Option.bind_eq_some_iff.1 entry
  obtain ⟨f, fit, rfl⟩ := Option.map_eq_some_iff.1 made
  refine ⟨c, hc, fit, rfl, ?_⟩
  rw [← balanced.grants_eq, List.getElem?_map, hc]
  rfl

section

variable {a : Allocation K} {n : σ} (run : runFrom (ofGrants s quota grants) m = (.ok a, n))

include run

/-- Who is served later is served by a higher share. -/
theorem fairShare_lt {i j : Nat} {o p : GrantAllocation K} (ho : a.grants[i]? = some o)
    (hp : a.grants[j]? = some p)
    (order : o.fit.sweep < p.fit.sweep ∨ o.fit.sweep = p.fit.sweep ∧ i < j) :
    o.fit.fairShare < p.fit.fairShare := by
  obtain ⟨x, reached, -, ended, -, rfl⟩ := ofGrants_reaches run
  obtain ⟨c, hc, fit, -, -⟩ := exists_candidate reached ended ho
  obtain ⟨d, hd, fit', -, -⟩ := exists_candidate reached ended hp
  obtain ⟨hi, ci⟩ := List.getElem?_eq_some_iff.1 hc
  obtain ⟨hj, dj⟩ := List.getElem?_eq_some_iff.1 hd
  have rising := List.pairwise_iff_getElem.1 (reachable_fair reached).rising
  -- The order of service is that of the sweeps, and within a sweep that of the places.
  rcases Nat.lt_trichotomy i j with before | same | after
  · have pair := rising i j hi hj before
    rw [ci, dj] at pair
    exact (pair _ _ fit fit').1 (by omega)
  · subst same
    cases ho.symm.trans hp
    omega
  · have pair := rising j i hj hi after
    rw [ci, dj] at pair
    exact (pair _ _ fit' fit).2 (by omega)

theorem fairShare_bounds {o : GrantAllocation K} (ho : o ∈ a.grants) :
    quota / grants.length ≤ o.fit.fairShare ∧ o.fit.interference < o.fit.fairShare := by
  obtain ⟨x, reached, -, ended, -, rfl⟩ := ofGrants_reaches run
  obtain ⟨i, ho⟩ := List.mem_iff_getElem?.1 ho
  obtain ⟨c, hc, fit, -, -⟩ := exists_candidate reached ended ho
  have inside := List.mem_of_getElem? hc
  have below : ∀ c ∈ x.candidates, ∀ f, c.fit = some f → f.interference < f.fairShare :=
    reachable_fit (P := fun _ _ f => f.interference < f.fairShare)
      (fun _ _ _ _ _ _ _ _ below => below) reached
  exact ⟨(reachable_fair reached).fits_least_le c inside _ fit, below c inside _ fit⟩

/-- Who is served after the first sweep was probed one dB higher in the sweep before and failed the
share. -/
theorem refused_above {i : Nat} {g : Grant K} {o : GrantAllocation K} (hg : grants[i]? = some g)
    (ho : a.grants[i]? = some o) (late : 1 < o.fit.sweep) :
    ∃ share answer, Probed s quota grants m i (o.fit.sweep - 1) g (o.finalEirp + 1) share answer ∧
      share ≤ Decibel.toLinear answer := by
  obtain ⟨x, reached, -, ended, -, rfl⟩ := ofGrants_reaches run
  obtain ⟨c, hc, fit, eirp, hgrant⟩ := exists_candidate reached ended ho
  cases hg.symm.trans hgrant
  have came := (reachable_descended reached).2 i c hc
  have refusals : x.refusals i c = o.fit.sweep - 1 := by simp [Stage.refusals, fit]
  obtain ⟨share, answer, probed, above⟩ := came.refused (o.fit.sweep - 2) (by omega)
  have higher : c.grant.maxEirp - ((o.fit.sweep - 2 : Nat) : K) = o.finalEirp + 1 := by
    rw [← eirp, came.eirp, refusals, show o.fit.sweep - 1 = o.fit.sweep - 2 + 1 by omega]
    push_cast
    ring
  rw [higher, show o.fit.sweep - 2 + 1 = o.fit.sweep - 1 by omega] at probed
  exact ⟨share, answer, probed, above⟩

end

/-- A grant that takes less than an even split at its maximum power keeps that power, whatever the other
grants are. -/
theorem keeps_maxEirp {level : Grant K → K → Constraint K → Receiver K → K}
    {constraint : Constraint K} {receiver : Receiver K} {floor : K} {n : σ} {a : Allocation K}
    (run : runFrom (ofGrants ⟨.pure level, constraint, receiver, floor⟩ quota grants) m =
      (.ok a, n)) {i : Nat} {g : Grant K} {o : GrantAllocation K} (hg : grants[i]? = some g)
    (ho : a.grants[i]? = some o)
    (low : Decibel.toLinear (level g g.maxEirp constraint receiver) < quota / grants.length) :
    o.finalEirp = g.maxEirp ∧
      o.fit.interference = Decibel.toLinear (level g g.maxEirp constraint receiver) := by
  obtain ⟨x, reached, -, ended, -, rfl⟩ := ofGrants_reaches run
  obtain ⟨c, hc, fit, eirp, hgrant⟩ := exists_candidate reached ended ho
  cases hg.symm.trans hgrant
  have came := (reachable_descended reached).2 i c hc
  have keeps : c.eirp = c.grant.maxEirp := by
    rcases Nat.eq_zero_or_pos (x.refusals i c) with none | refused
    · rw [came.eirp, none, Nat.cast_zero, sub_zero]
    · obtain ⟨share, answer, probed, above⟩ := came.refused 0 refused
      rw [Nat.cast_zero, sub_zero] at probed
      cases probed.level_eq
      exact absurd (probed.least_le.trans above) low.not_ge
  have takes : ∀ c ∈ x.candidates, ∀ f, c.fit = some f →
      f.interference = Decibel.toLinear (level c.grant c.eirp constraint receiver) := by
    apply reachable_fit (P := fun g eirp f =>
      f.interference = Decibel.toLinear (level g eirp constraint receiver)) ?_ reached
    intro g eirp answer share sweep j k asked _
    cases asked
    rfl
  refine ⟨eirp.symm.trans keeps, ?_⟩
  rw [takes c (List.mem_of_getElem? hc) _ fit, keeps]

/-- **Max-min fairness.** The shares rise in the order in which the grants fit and none is below an even
split of the quota; each grant takes less than its share, and had failed the share of the sweep before
one dB higher. -/
theorem max_min_fair (level : Grant K → K → Constraint K → Receiver K → K)
    (constraint : Constraint K) (receiver : Receiver K) (floor quota : K) (grants : List (Grant K))
    (m n : σ) (a : Allocation K)
    (run : runFrom (ofGrants ⟨.pure level, constraint, receiver, floor⟩ quota grants) m =
      (.ok a, n)) :
    a.grants.length = grants.length ∧
    (∀ (i j : Nat) (o p : GrantAllocation K), a.grants[i]? = some o → a.grants[j]? = some p →
      (o.fit.sweep < p.fit.sweep ∨ o.fit.sweep = p.fit.sweep ∧ i < j) →
      o.fit.fairShare < p.fit.fairShare) ∧
    (∀ o ∈ a.grants, quota / grants.length ≤ o.fit.fairShare ∧
      o.fit.interference < o.fit.fairShare) ∧
    (∀ (i : Nat) (g : Grant K) (o : GrantAllocation K), grants[i]? = some g → a.grants[i]? = some o →
      1 < o.fit.sweep → ∃ share,
        Probed ⟨.pure level, constraint, receiver, floor⟩ quota grants m i (o.fit.sweep - 1) g
          (o.finalEirp + 1) share (level g (o.finalEirp + 1) constraint receiver) ∧
        share ≤ Decibel.toLinear (level g (o.finalEirp + 1) constraint receiver) ∧
        quota / grants.length ≤ share) ∧
    ∀ (i : Nat) (g : Grant K) (o : GrantAllocation K), grants[i]? = some g → a.grants[i]? = some o →
      Decibel.toLinear (level g g.maxEirp constraint receiver) < quota / grants.length →
      o.finalEirp = g.maxEirp := by
  refine ⟨?_, ?_, ?_, ?_, ?_⟩
  · simpa using congrArg List.length (ofGrants_totals run).1
  · exact fun i j o p ho hp order => fairShare_lt run ho hp order
  · exact fun o ho => fairShare_bounds run ho
  · intro i g o hg ho late
    obtain ⟨share, answer, probed, above⟩ := refused_above run hg ho late
    cases probed.level_eq
    exact ⟨share, probed, above, probed.least_le⟩
  · exact fun i g o hg ho low => (keeps_maxEirp run hg ho low).1

theorem max_min_fair_three_grants :
    runFrom (ofGrants plainSetting 30 threeGrants) () = (.ok threeShares, ()) ∧
    (∃ share, Probed plainSetting 30 threeGrants () 2 5 (plainGrant "loud" 20 true) 16 share 16 ∧
      share ≤ Decibel.toLinear (16 : ℚ) ∧ 30 / (3 : Nat) ≤ share) ∧
    (63 / 5 : ℚ) < 29 / 2 ∧ (10 : ℚ) < 29 / 2 := by
  have run : runFrom (ofGrants plainSetting 30 threeGrants) () = (.ok threeShares, ()) := by
    decide +kernel
  obtain ⟨-, rises, fits, lowered, -⟩ :=
    max_min_fair (fun _ eirp _ _ => eirp) plainSetting.constraint plainSetting.receiver
      plainSetting.floor 30 threeGrants () () threeShares run
  refine ⟨run, ?_, ?_, ?_⟩
  · obtain ⟨share, probed, above, least⟩ :=
      lowered 2 (plainGrant "loud" 20 true) ⟨"loud", true, 20, 15, ⟨16, 82 / 5, 6⟩⟩ rfl rfl (by decide)
    rw [show (15 : ℚ) + 1 = 16 by norm_num] at probed above
    exact ⟨share, probed, above, least⟩
  · exact (fits ⟨"mid", false, 58 / 5, 58 / 5, ⟨63 / 5, 29 / 2, 1⟩⟩
      (by simp [threeShares])).2
  · exact rises 0 1 ⟨"quiet", true, 0, 0, ⟨1, 10, 1⟩⟩
      ⟨"mid", false, 58 / 5, 58 / 5, ⟨63 / 5, 29 / 2, 1⟩⟩ rfl rfl (.inr ⟨rfl, by decide⟩)

end SpectrumShare.Allocation
