import Mathlib.Algebra.BigOperators.Group.List.Basic
import Mathlib.Algebra.Order.BigOperators.Group.List
import Mathlib.Tactic.Linarith
import Mathlib.Tactic.Ring
import SpectrumShare.Proofs.Allocation.Stage

/-! # The quota is conserved

In every stage of a search what is left is the quota less what the grants that fit have taken, and it is
the fair share of each grant that waits, taken as often as grants wait. So a search that returns has given
out less than the quota, and its totals are sums over its grants. -/

namespace SpectrumShare.Allocation

section

variable {K : Type}

theorem ofCandidate?_of_fit {c : Candidate K} {f : Fit K} (fit : c.fit = some f) :
    GrantAllocation.ofCandidate? c =
      some ⟨c.grant.id, c.grant.managed, c.grant.maxEirp, c.eirp, f⟩ := by
  rw [GrantAllocation.ofCandidate?, fit]
  rfl

/-- Where every grant fits, none is dropped from the result. -/
theorem ofCandidate?_getElem? {cs : List (Candidate K)} (fits : ∀ c ∈ cs, c.fit.isSome = true)
    (i : Nat) :
    (cs.filterMap GrantAllocation.ofCandidate?)[i]? = cs[i]?.bind GrantAllocation.ofCandidate? := by
  induction cs generalizing i with
  | nil => rfl
  | cons c rest ih =>
    obtain ⟨f, fit⟩ := Option.isSome_iff_exists.1 (fits c List.mem_cons_self)
    rw [List.filterMap_cons_some (ofCandidate?_of_fit fit)]
    cases i with
    | zero => simp [ofCandidate?_of_fit fit]
    | succ i => simpa using ih (fun d hd => fits d (List.mem_cons_of_mem _ hd)) i

theorem ofCandidate?_identity {cs : List (Candidate K)} {grants : List (Grant K)}
    (same : cs.map (·.grant) = grants) (fits : ∀ c ∈ cs, c.fit.isSome = true) :
    (cs.filterMap GrantAllocation.ofCandidate?).map (fun g => (g.id, g.managed, g.maxEirp)) =
      grants.map (fun g => (g.id, g.managed, g.maxEirp)) := by
  subst same
  apply List.ext_getElem?
  intro i
  simp only [List.getElem?_map, ofCandidate?_getElem? fits]
  cases at_i : cs[i]? with
  | none => rfl
  | some c =>
    obtain ⟨f, fit⟩ := Option.isSome_iff_exists.1 (fits c (List.mem_of_getElem? at_i))
    simp [ofCandidate?_of_fit fit]

theorem filter_ofCandidate? (cs : List (Candidate K)) :
    (cs.filterMap GrantAllocation.ofCandidate?).filter (·.managed) =
      (cs.filter (·.grant.managed)).filterMap GrantAllocation.ofCandidate? := by
  induction cs with
  | nil => rfl
  | cons c rest ih =>
    cases fit : c.fit <;> cases managed : c.grant.managed <;>
      simp [GrantAllocation.ofCandidate?, fit, managed, ← ih]

end

/-- Lists that agree in whom they keep and in what they say of each agree in what they say of those
kept. -/
theorem filter_map_alike {α β γ : Type} {as : List α} {bs : List β} {p : α → Bool} {q : β → Bool}
    {f : α → γ} {g : β → γ} (kept : as.map p = bs.map q) (said : as.map f = bs.map g) :
    (as.filter p).map f = (bs.filter q).map g := by
  induction as generalizing bs with
  | nil =>
    cases bs with
    | nil => rfl
    | cons b bs => cases kept
  | cons a as ih =>
    cases bs with
    | nil => cases kept
    | cons b bs =>
      simp only [List.map_cons, List.cons.injEq] at kept said
      obtain ⟨first, others⟩ := kept
      obtain ⟨value, values⟩ := said
      cases keep : q b <;> simp [first, keep, value, ih others values]

section

variable {K : Type} [Field K]

/-- What the grants that fit have taken together. -/
def spent (cs : List (Candidate K)) : K := (cs.filterMap fun c => c.fit.map (·.interference)).sum

@[simp] theorem spent_append (cs ds : List (Candidate K)) :
    spent (cs ++ ds) = spent cs + spent ds := by
  simp [spent]

theorem spent_cons_waiting {c : Candidate K} (waits : c.fit = none) (cs : List (Candidate K)) :
    spent (c :: cs) = spent cs := by
  simp [spent, waits]

theorem spent_cons_fit {c : Candidate K} {f : Fit K} (fit : c.fit = some f)
    (cs : List (Candidate K)) : spent (c :: cs) = f.interference + spent cs := by
  simp [spent, fit]

theorem spent_ofCandidate? (cs : List (Candidate K)) :
    ((cs.filterMap GrantAllocation.ofCandidate?).map (·.fit.interference)).sum = spent cs := by
  unfold spent
  rw [List.map_filterMap]
  congr 1
  apply List.filterMap_congr
  intro c _
  cases fit : c.fit <;> simp [GrantAllocation.ofCandidate?, fit]

/-- The totals agree with the grants that fit. -/
structure Balanced (quota : K) (grants : List (Grant K)) (t : Tally K) (cs : List (Candidate K)) :
    Prop where
  grants_eq : cs.map (·.grant) = grants
  waiting : t.waiting = cs.countP (·.fit.isNone)
  remaining : t.remaining = quota - spent cs
  share : 0 < t.waiting → t.fairShare * t.waiting = t.remaining
  globalTotal : t.globalTotal = spent cs
  localTotal : t.localTotal = spent (cs.filter (·.grant.managed))

theorem Balanced.fits {quota : K} {grants : List (Grant K)} {t : Tally K} {cs : List (Candidate K)}
    (h : Balanced quota grants t cs) (ended : t.waiting = 0) : ∀ c ∈ cs, c.fit.isSome = true := by
  intro c hc
  have none := List.countP_eq_zero.1 (h.waiting.symm.trans ended) c hc
  cases fit : c.fit with
  | none => simp [fit] at none
  | some f => rfl

theorem Balanced.lower {quota : K} {grants : List (Grant K)} {t : Tally K} {c c' : Candidate K}
    {v rest : List (Candidate K)} (h : Balanced quota grants t (v ++ c :: rest))
    (waits : c.fit = none) (still : c'.fit = none) (same : c'.grant = c.grant) :
    Balanced quota grants t (v ++ c' :: rest) where
  grants_eq := by simpa [same] using h.grants_eq
  waiting := by simpa [waits, still] using h.waiting
  remaining := by simpa [spent_cons_waiting, waits, still] using h.remaining
  share := h.share
  globalTotal := by simpa [spent_cons_waiting, waits, still] using h.globalTotal
  localTotal := by
    have before := h.localTotal
    cases managed : c.grant.managed <;>
      simpa [same, managed, spent_cons_waiting, waits, still] using before

end

variable {σ K : Type} [Field K] [LinearOrder K] [IsStrictOrderedRing K]

/-- Of what is left something stays when a grant fits: it took less than its share. -/
theorem Balanced.left_pos {quota : K} {grants : List (Grant K)} {t : Tally K}
    {cs : List (Candidate K)} (h : Balanced quota grants t cs) (waits : 0 < t.waiting) {p : K}
    (nonneg : 0 ≤ p) (below : p < t.fairShare) : 0 < t.remaining - p := by
  have one : (1 : K) ≤ t.waiting := by exact_mod_cast waits
  have share := h.share waits
  have positive : 0 < t.fairShare := lt_of_le_of_lt nonneg below
  have most : t.fairShare ≤ t.fairShare * t.waiting := le_mul_of_one_le_right positive.le one
  linarith

/-- Some of the grants have taken no more than all of them. -/
theorem spent_filter_le {cs : List (Candidate K)}
    (nonneg : ∀ c ∈ cs, ∀ f, c.fit = some f → 0 ≤ f.interference) (p : Candidate K → Bool) :
    0 ≤ spent (cs.filter p) ∧ spent (cs.filter p) ≤ spent cs := by
  have part : ∀ a ∈ cs.filterMap (fun c => c.fit.map (·.interference)), 0 ≤ a := by
    intro a ha
    obtain ⟨c, hc, found⟩ := List.mem_filterMap.1 ha
    obtain ⟨f, fit, rfl⟩ := Option.map_eq_some_iff.1 found
    exact nonneg c hc f fit
  have fewer := (List.filter_sublist (p := p) (l := cs)).filterMap
    fun c => c.fit.map (·.interference)
  exact ⟨List.sum_nonneg fun a ha => part a (fewer.subset ha), fewer.sum_le_sum part⟩

variable [Rounding K]

theorem start_balanced (quota : K) (grants : List (Grant K)) :
    Balanced quota grants (.start quota grants.length) (grants.map .start) where
  grants_eq := by simp [Candidate.start, Function.comp_def]
  waiting := by simp [Candidate.start, Tally.start, List.countP_map, Function.comp_def]
  remaining := by simp [Candidate.start, Tally.start, spent, Function.comp_def]
  share := by
    intro waiting
    simp only [Tally.start] at waiting ⊢
    rw [if_pos waiting]
    exact div_mul_cancel₀ _ (Nat.cast_ne_zero.2 waiting.ne')
  globalTotal := by simp [Candidate.start, Tally.start, spent, Function.comp_def]
  localTotal := by simp [Candidate.start, Tally.start, spent, Function.comp_def, List.filter_map]

/-- A grant that fits takes its interference out of what is left and leaves the rest to be shared. -/
theorem Balanced.accept {quota : K} {grants : List (Grant K)} {t : Tally K} {c c' : Candidate K}
    {v rest : List (Candidate K)} {f : Fit K} (h : Balanced quota grants t (v ++ c :: rest))
    (waits : c.fit = none) (fits : c'.fit = some f) (same : c'.grant = c.grant) :
    Balanced quota grants (t.accept f.interference c.grant.managed) (v ++ c' :: rest) where
  grants_eq := by simpa [same] using h.grants_eq
  waiting := by
    have before := h.waiting
    simp only [List.countP_append, List.countP_cons, waits, fits, Option.isNone_none,
      Option.isNone_some, Bool.false_eq_true, ↓reduceIte, Tally.accept] at before ⊢
    omega
  remaining := by
    have before := h.remaining
    rw [spent_append, spent_cons_waiting waits] at before
    rw [spent_append, spent_cons_fit fits]
    simp only [Tally.accept, before]
    ring
  share := by
    intro others
    simp only [Tally.accept] at others ⊢
    rw [if_neg others.ne']
    exact div_mul_cancel₀ _ (Nat.cast_ne_zero.2 others.ne')
  globalTotal := by
    have before := h.globalTotal
    rw [spent_append, spent_cons_waiting waits] at before
    rw [spent_append, spent_cons_fit fits]
    simp only [Tally.accept, before]
    ring
  localTotal := by
    have before := h.localTotal
    cases managed : c.grant.managed with
    | false => simpa [Tally.accept, same, managed] using before
    | true =>
      simp only [List.filter_append, List.filter_cons, same, managed, ↓reduceIte, spent_append,
        spent_cons_waiting waits, spent_cons_fit fits, Tally.accept] at before ⊢
      rw [before]
      ring

variable [Decibel K]

theorem step_balanced {s : Setting σ K} {quota : K} {grants : List (Grant K)} {x y : Stage σ K}
    (step : Step s x y) (h : Balanced quota grants x.tally x.candidates) :
    Balanced quota grants y.tally y.candidates := by
  cases step with
  | turn => simpa [Stage.candidates] using h
  | visit probe =>
    simp only [Stage.candidates, List.append_assoc, List.singleton_append] at h ⊢
    cases probe with
    | settled => exact h
    | accepted waits => exact h.accept (f := ⟨_, _, _⟩) waits rfl rfl
    | lowered waits => exact h.lower waits waits rfl

theorem reachable_balanced {s : Setting σ K} {quota : K} {grants : List (Grant K)} {m : σ}
    {x : Stage σ K} (h : Reachable s quota grants m x) :
    Balanced quota grants x.tally x.candidates := by
  induction h with
  | start => simpa [Stage.start, Stage.candidates] using start_balanced quota grants
  | next _ step ih => exact step_balanced step ih

theorem waiting_pos {s : Setting σ K} {quota : K} {grants : List (Grant K)} {m n : σ} {k : Nat}
    {t : Tally K} {c : Candidate K} {v rest : List (Candidate K)}
    (h : Reachable s quota grants m ⟨k, t, v, c :: rest, n⟩) (waits : c.fit = none) :
    0 < t.waiting := by
  rw [show t.waiting = _ from (reachable_balanced h).waiting]
  exact List.countP_pos_iff.2 ⟨c, by simp [Stage.candidates], by rw [waits]; rfl⟩

/-- The totals that a search returns are sums over its grants, of which none is left out. -/
theorem ofGrants_totals {s : Setting σ K} {quota : K} {grants : List (Grant K)} {m n : σ}
    {a : Allocation K} (run : runFrom (ofGrants s quota grants) m = (.ok a, n)) :
    a.grants.map (fun g => (g.id, g.managed, g.maxEirp)) =
        grants.map (fun g => (g.id, g.managed, g.maxEirp)) ∧
      a.globalTotal = (a.grants.map (·.fit.interference)).sum ∧
      a.localTotal = ((a.grants.filter (·.managed)).map (·.fit.interference)).sum ∧
      a.remaining = quota - a.globalTotal := by
  obtain ⟨x, reached, -, ended, -, rfl⟩ := ofGrants_reaches run
  have balanced := reachable_balanced reached
  refine ⟨?_, ?_, ?_, ?_⟩
  · exact ofCandidate?_identity balanced.grants_eq (balanced.fits ended)
  · exact balanced.globalTotal.trans (spent_ofCandidate? _).symm
  · change x.tally.localTotal = _
    rw [balanced.localTotal, Stage.allocation, filter_ofCandidate?, spent_ofCandidate?]
  · change x.tally.remaining = quota - x.tally.globalTotal
    rw [balanced.globalTotal]
    exact balanced.remaining

/-- The totals in terms of what each grant takes. -/
theorem ofGrants_totals_of_taken {s : Setting σ K} {quota : K} {grants : List (Grant K)} {m n : σ}
    {a : Allocation K} (run : runFrom (ofGrants s quota grants) m = (.ok a, n)) {taken : Grant K → K}
    (takes : a.grants.map (·.fit.interference) = grants.map taken) :
    a.globalTotal = (grants.map taken).sum ∧
      a.localTotal = ((grants.filter (·.managed)).map taken).sum := by
  obtain ⟨identity, all, own, -⟩ := ofGrants_totals run
  have managed := congrArg (List.map (·.2.1)) identity
  simp only [List.map_map, Function.comp_def] at managed
  constructor
  · rw [all, takes]
  · rw [own, filter_map_alike managed takes]

/-- Once a grant fits, something of the quota is left in every stage. -/
theorem reachable_left_pos (nonneg : ∀ level : K, 0 ≤ Decibel.toLinear level) {s : Setting σ K}
    {quota : K} {grants : List (Grant K)} {m : σ} {x : Stage σ K}
    (h : Reachable s quota grants m x) (served : ∃ c ∈ x.candidates, c.fit.isSome = true) :
    0 < x.tally.remaining := by
  induction h with
  | start =>
    obtain ⟨c, hc, fit⟩ := served
    simp only [Stage.start, Stage.candidates, List.append_nil, List.mem_map] at hc
    obtain ⟨g, _, rfl⟩ := hc
    cases fit
  | @next x y reached step ih =>
    cases step with
    | turn => exact ih (by simpa [Stage.candidates] using served)
    | @visit k t t' c c' v rest m n probe =>
      cases probe with
      | settled => exact ih (by simpa [Stage.candidates] using served)
      | accepted waits _ _ _ below =>
        exact (reachable_balanced reached).left_pos (waiting_pos reached waits) (nonneg _) below
      | lowered waits =>
        apply ih
        obtain ⟨d, hd, fit⟩ := served
        rcases Stage.mem_candidates hd with rfl | hd
        · rw [waits] at fit
          cases fit
        · exact ⟨d, hd, fit⟩

/-- What the grants cause together stays below the quota. -/
theorem ofGrants_bounds (nonneg : ∀ level : K, 0 ≤ Decibel.toLinear level) {s : Setting σ K}
    {quota : K} {grants : List (Grant K)} {m n : σ} {a : Allocation K}
    (run : runFrom (ofGrants s quota grants) m = (.ok a, n)) (nonempty : grants ≠ []) :
    0 ≤ a.localTotal ∧ a.localTotal ≤ a.globalTotal ∧ a.globalTotal < quota := by
  obtain ⟨-, -, -, total⟩ := ofGrants_totals run
  obtain ⟨x, reached, -, ended, -, rfl⟩ := ofGrants_reaches run
  have balanced := reachable_balanced reached
  have fits := balanced.fits ended
  have left : 0 < x.tally.remaining := by
    apply reachable_left_pos nonneg reached
    obtain ⟨c, hc⟩ := List.exists_mem_of_ne_nil x.candidates (by
      intro none
      apply nonempty
      rw [← balanced.grants_eq, none]
      rfl)
    exact ⟨c, hc, fits c hc⟩
  have taken : ∀ c ∈ x.candidates, ∀ f, c.fit = some f → 0 ≤ f.interference :=
    reachable_fit (P := fun _ _ f => 0 ≤ f.interference)
      (fun _ _ level _ _ _ _ _ _ => nonneg level) reached
  obtain ⟨least, most⟩ := spent_filter_le taken (·.grant.managed)
  rw [← balanced.localTotal] at least most
  rw [← balanced.globalTotal] at most
  refine ⟨least, most, ?_⟩
  change x.tally.remaining = quota - x.tally.globalTotal at total
  change x.tally.globalTotal < quota
  linarith

/-- **The quota is conserved.** In every stage of a search the totals balance; so what the grants of a
search that returns cause together stays below the quota, and no grant is left out. -/
theorem quota_conserved (nonneg : ∀ level : K, 0 ≤ Decibel.toLinear level) (s : Setting σ K)
    (quota : K) (grants : List (Grant K)) (m : σ) :
    (∀ x, Reachable s quota grants m x →
      x.tally.waiting = x.candidates.countP (·.fit.isNone) ∧
      x.tally.remaining = quota - spent x.candidates ∧
      (0 < x.tally.waiting → x.tally.fairShare * x.tally.waiting = x.tally.remaining)) ∧
    ∀ a n, runFrom (ofGrants s quota grants) m = (.ok a, n) → grants ≠ [] →
      0 < quota ∧ a.quota = quota ∧
      a.grants.map (fun g => (g.id, g.managed, g.maxEirp)) =
        grants.map (fun g => (g.id, g.managed, g.maxEirp)) ∧
      a.globalTotal = (a.grants.map (·.fit.interference)).sum ∧
      a.localTotal = ((a.grants.filter (·.managed)).map (·.fit.interference)).sum ∧
      0 ≤ a.localTotal ∧ a.localTotal ≤ a.globalTotal ∧
      a.remaining = quota - a.globalTotal ∧ a.globalTotal < quota := by
  constructor
  · intro x reached
    have balanced := reachable_balanced reached
    exact ⟨balanced.waiting, balanced.remaining, balanced.share⟩
  · intro a n run nonempty
    obtain ⟨identity, all, own, remaining⟩ := ofGrants_totals run
    obtain ⟨least, most, below⟩ := ofGrants_bounds nonneg run nonempty
    have positive : 0 < quota := (least.trans most).trans_lt below
    obtain ⟨x, -, -, -, -, rfl⟩ := ofGrants_reaches run
    exact ⟨positive, rfl, identity, all, own, least, most, remaining, below⟩

/-- A search in which a grant causes at the receiver what it transmits. -/
def plainSetting : Setting Unit ℚ where
  model := .pure fun _ eirp _ _ => eirp
  constraint := ⟨⟨37, -122⟩, ⟨3550000000, 3555000000⟩, .gwpz⟩
  receiver := .area .suburban
  floor := -150

def plainGrant (id : String) (eirp : ℚ) (managed : Bool) : Grant ℚ :=
  ⟨id, ⟨37, -122⟩, 3, eirp, ⟨3550000000, 3560000000⟩, .b, managed⟩

def threeGrants : List (Grant ℚ) :=
  [plainGrant "quiet" 0 true, plainGrant "mid" (58 / 5) false, plainGrant "loud" 20 true]

/-- Two grants fit at once, the second because of the first, and the third goes down for five sweeps. -/
def threeShares : Allocation ℚ :=
  ⟨plainSetting.constraint, 30, 2 / 5, 17, 148 / 5, 6,
    [⟨"quiet", true, 0, 0, ⟨1, 10, 1⟩⟩, ⟨"mid", false, 58 / 5, 58 / 5, ⟨63 / 5, 29 / 2, 1⟩⟩,
      ⟨"loud", true, 20, 15, ⟨16, 82 / 5, 6⟩⟩]⟩

theorem quota_conserved_three_grants :
    (∀ level : ℚ, 0 ≤ Decibel.toLinear level) ∧ threeGrants ≠ [] ∧
    runFrom (ofGrants plainSetting 30 threeGrants) () = (.ok threeShares, ()) ∧
    threeShares.globalTotal = (threeShares.grants.map (·.fit.interference)).sum ∧
    0 ≤ threeShares.localTotal ∧ threeShares.localTotal ≤ threeShares.globalTotal ∧
    threeShares.remaining = 30 - threeShares.globalTotal ∧ threeShares.globalTotal < 30 := by
  have nonneg : ∀ level : ℚ, 0 ≤ Decibel.toLinear level := fun level => (toLinear_pos level).le
  have run : runFrom (ofGrants plainSetting 30 threeGrants) () = (.ok threeShares, ()) := by
    decide +kernel
  have nonempty : threeGrants ≠ [] := by decide
  obtain ⟨-, -, -, total, -, least, most, left, below⟩ :=
    (quota_conserved nonneg plainSetting 30 threeGrants ()).2 threeShares () run nonempty
  exact ⟨nonneg, nonempty, run, total, least, most, left, below⟩

end SpectrumShare.Allocation
