import Mathlib.Data.List.MinMax
import SpectrumShare.Proofs.Allocation.Fairness

/-! # The law of descent

Under a model without memory the whole way down of a grant can be told from the number of times that it
was refused: in which sweeps it was probed, at which powers, and what the answers were. -/

namespace SpectrumShare.Allocation

open Scalar

variable {σ K : Type} [Field K] [LinearOrder K] [Rounding K] [Decibel K]

section

variable (level : Grant K → K → Constraint K → Receiver K → K) (constraint : Constraint K)
  (receiver : Receiver K)

/-- The interference of a grant so many dB below its maximum power. -/
def powerBelow (g : Grant K) (steps : Nat) : K :=
  Decibel.toLinear (level g (g.maxEirp - (steps : K)) constraint receiver)

/-- The way down of a grant that has been refused so many times. -/
structure Fallen (floor quota : K) (grants : List (Grant K)) (m : σ) (i refusals : Nat)
    (c : Candidate K) : Prop where
  eirp : c.eirp = c.grant.maxEirp - (refusals : K)
  previous : ∀ p, c.previous = some p ↔
    ∃ k, refusals = k + 1 ∧ powerBelow level constraint receiver c.grant k = p
  finite : ∀ k < refusals, isFinite (powerBelow level constraint receiver c.grant k) = true
  falling : ∀ k, k + 1 < refusals →
    powerBelow level constraint receiver c.grant (k + 1) < powerBelow level constraint receiver c.grant k
  fit : ∀ f, c.fit = some f → f.sweep = refusals + 1 ∧
    f.interference = powerBelow level constraint receiver c.grant refusals ∧
    (∀ p ∈ c.previous, f.interference < p) ∧
    Probed (σ := σ) ⟨.pure level, constraint, receiver, floor⟩ quota grants m i f.sweep c.grant c.eirp
      f.fairShare (level c.grant c.eirp constraint receiver)

end

section

variable {level : Grant K → K → Constraint K → Receiver K → K} {constraint : Constraint K}
  {receiver : Receiver K} {floor quota : K} {grants : List (Grant K)} {m : σ}

theorem reachable_fallen {x : Stage σ K}
    (h : Reachable ⟨.pure level, constraint, receiver, floor⟩ quota grants m x) {i : Nat}
    {c : Candidate K} (there : x.candidates[i]? = some c) :
    Fallen level constraint receiver floor quota grants m i (x.refusals i c) c := by
  refine reachable_each (Q := Fallen level constraint receiver floor quota grants m) ?_ ?_ ?_ h there
  · intro i g
    constructor
    · simp [Candidate.start]
    · simp [Candidate.start]
    · exact fun k hk => absurd hk (Nat.not_lt_zero k)
    · exact fun k hk => absurd hk (Nat.not_lt_zero _)
    · intro f fit
      cases fit
  · intro i r c share answer came waits probed finite falling below
    obtain rfl := probed.level_eq
    have power : Decibel.toLinear (level c.grant c.eirp constraint receiver) =
        powerBelow level constraint receiver c.grant r := by
      rw [powerBelow, came.eirp]
    refine ⟨came.eirp, came.previous, came.finite, came.falling, ?_⟩
    intro f fit
    cases fit
    exact ⟨rfl, power, falling, probed⟩
  · rintro i r c share answer came waits probed finite falling above -
    obtain rfl := probed.level_eq
    have power : Decibel.toLinear (level c.grant c.eirp constraint receiver) =
        powerBelow level constraint receiver c.grant r := by
      rw [powerBelow, came.eirp]
    rw [power] at finite falling ⊢
    constructor
    · change c.eirp - 1 = c.grant.maxEirp - _
      rw [came.eirp]
      push_cast
      ring
    · intro p
      simp
    · intro k hk
      by_cases last : k = r
      · rw [last]
        exact finite
      · exact came.finite k (by omega)
    · intro k hk
      by_cases last : k + 1 = r
      · have before := (came.previous _).2 ⟨k, last.symm, rfl⟩
        change powerBelow level constraint receiver c.grant (k + 1) < _
        rw [last]
        exact falling _ before
      · exact came.falling k (by omega)
    · intro f fit
      rw [waits] at fit
      cases fit

/-- Every answer in the history of a grant is lower than the one before. -/
theorem Fallen.falls {i r : Nat} {c : Candidate K} {f : Fit K}
    (h : Fallen level constraint receiver floor quota grants m i r c) (fit : c.fit = some f) {k : Nat}
    (past : k < r) :
    powerBelow level constraint receiver c.grant (k + 1) <
      powerBelow level constraint receiver c.grant k := by
  by_cases last : k + 1 = r
  · obtain ⟨-, takes, below, -⟩ := h.fit f fit
    rw [last, ← takes]
    exact below _ ((h.previous _).2 ⟨k, last.symm, rfl⟩)
  · exact h.falling k (by omega)

end

variable [IsStrictOrderedRing K] {s : Setting σ K} {quota : K} {grants : List (Grant K)} {m : σ}

/-- Once no grant waits, the last of the sweeps is one in which a grant was let fit. -/
theorem reachable_latest {x : Stage σ K} (h : Reachable s quota grants m x) (begun : 0 < x.sweep) :
    0 < x.tally.waiting ∨ ∃ c ∈ x.candidates, ∃ f, c.fit = some f ∧ f.sweep = x.sweep := by
  induction h with
  | start => exact absurd begun (Nat.lt_irrefl 0)
  | @next x y reached step ih =>
    cases step with
    | turn waits => exact .inl (Nat.pos_of_ne_zero waits)
    | @visit k t t' c c' v rest i j probe =>
      cases probe with
      | settled => simpa [Stage.candidates] using ih begun
      | accepted =>
        exact .inr ⟨_, List.mem_append_left _ (List.mem_append_right _ List.mem_cons_self), _, rfl, rfl⟩
      | lowered waits =>
        -- A grant that is lowered still waits, and so does the count.
        exact .inl (waiting_pos reached waits)

/-- The sweeps of a search are those that it took to let the last grant fit. -/
theorem sweeps_eq {a : Allocation K} {n : σ} (run : runFrom (ofGrants s quota grants) m = (.ok a, n)) :
    a.sweeps = (a.grants.map (·.fit.sweep)).foldr max 0 := by
  obtain ⟨x, reached, -, ended, -, rfl⟩ := ofGrants_reaches run
  obtain ⟨-, begun⟩ := reachable_begun reached
  apply Nat.le_antisymm
  · change x.sweep ≤ _
    rcases Nat.eq_zero_or_pos x.sweep with none | positive
    · rw [none]
      exact Nat.zero_le _
    · obtain waiting | ⟨c, hc, f, fit, last⟩ := reachable_latest reached positive
      · omega
      · have there : f.sweep ∈ (x.allocation s quota).grants.map (·.fit.sweep) :=
          List.mem_map.2 ⟨_, List.mem_filterMap.2 ⟨c, hc, ofCandidate?_of_fit fit⟩, rfl⟩
        exact last.ge.trans (List.le_max_of_le there le_rfl)
  · apply List.max_le_of_forall_le
    intro k hk
    obtain ⟨o, ho, rfl⟩ := List.mem_map.1 hk
    obtain ⟨c, hc, made⟩ := List.mem_filterMap.1 ho
    obtain ⟨f, fit, rfl⟩ := Option.map_eq_some_iff.1 made
    exact (begun c hc f fit).2

/-- **The law of descent.** A grant that fits in some sweep was probed once in every sweep up to it, one
dB lower each time; all answers but the last failed the share of their moment, each was lower than the one
before, and the power never went below the floor. The search made as many sweeps as its slowest grant. -/
theorem descent_law (level : Grant K → K → Constraint K → Receiver K → K)
    (constraint : Constraint K) (receiver : Receiver K) (floor quota : K) (grants : List (Grant K))
    (m n : σ) (a : Allocation K)
    (run : runFrom (ofGrants ⟨.pure level, constraint, receiver, floor⟩ quota grants) m =
      (.ok a, n)) :
    a.grants.length = grants.length ∧
    a.sweeps = (a.grants.map (·.fit.sweep)).foldr max 0 ∧
    ∀ (i : Nat) (g : Grant K) (o : GrantAllocation K), grants[i]? = some g → a.grants[i]? = some o →
      1 ≤ o.fit.sweep ∧ o.finalEirp = g.maxEirp - ((o.fit.sweep : K) - 1) ∧
      o.fit.interference = Decibel.toLinear (level g o.finalEirp constraint receiver) ∧
      Probed ⟨.pure level, constraint, receiver, floor⟩ quota grants m i o.fit.sweep g o.finalEirp
        o.fit.fairShare (level g o.finalEirp constraint receiver) ∧
      (∀ k : Nat, 1 ≤ k → k < o.fit.sweep →
        (∃ share, Probed ⟨.pure level, constraint, receiver, floor⟩ quota grants m i k g
            (g.maxEirp - ((k : K) - 1)) share (level g (g.maxEirp - ((k : K) - 1)) constraint receiver) ∧
          share ≤ Decibel.toLinear (level g (g.maxEirp - ((k : K) - 1)) constraint receiver)) ∧
        Decibel.toLinear (level g (g.maxEirp - (k : K)) constraint receiver) <
          Decibel.toLinear (level g (g.maxEirp - ((k : K) - 1)) constraint receiver)) ∧
      (1 < o.fit.sweep → floor ≤ o.finalEirp) := by
  refine ⟨by simpa using congrArg List.length (ofGrants_totals run).1, sweeps_eq run, ?_⟩
  intro i g o hg ho
  obtain ⟨x, reached, -, ended, -, rfl⟩ := ofGrants_reaches run
  obtain ⟨c, hc, fit, eirp, hgrant⟩ := exists_candidate reached ended ho
  cases hg.symm.trans hgrant
  have came := (reachable_descended reached).2 i c hc
  have fell := reachable_fallen reached hc
  have refusals : x.refusals i c = o.fit.sweep - 1 := by simp [Stage.refusals, fit]
  obtain ⟨sweep, takes, -, probed⟩ := fell.fit _ fit
  have first : 1 ≤ o.fit.sweep := by omega
  have steps : ((x.refusals i c : Nat) : K) = o.fit.sweep - 1 := by
    rw [refusals, Nat.cast_sub first, Nat.cast_one]
  rw [← eirp]
  refine ⟨first, by rw [fell.eirp, steps], ?_, probed, ?_, ?_⟩
  · rw [takes, powerBelow, ← fell.eirp]
  · intro k begun before
    have above : ((k - 1 : Nat) : K) = k - 1 := by rw [Nat.cast_sub begun, Nat.cast_one]
    obtain ⟨share, answer, refused, high⟩ := came.refused (k - 1) (by omega)
    obtain rfl := refused.level_eq
    rw [above] at refused high
    rw [Nat.sub_add_cancel begun] at refused
    have falls := fell.falls fit (k := k - 1) (by omega)
    rw [powerBelow, powerBelow, Nat.sub_add_cancel begun, above] at falls
    exact ⟨⟨share, refused, high⟩, falls⟩
  · intro late
    exact reachable_room reached hc (by omega)

theorem descent_law_three_grants :
    runFrom (ofGrants plainSetting 30 threeGrants) () = (.ok threeShares, ()) ∧
    threeShares.sweeps = (threeShares.grants.map (·.fit.sweep)).foldr max 0 ∧
    (15 : ℚ) = 20 - (((6 : Nat) : ℚ) - 1) ∧ plainSetting.floor ≤ 15 ∧
    (∃ share, Probed plainSetting 30 threeGrants () 2 3 (plainGrant "loud" 20 true) 18 share 18 ∧
      share ≤ Decibel.toLinear (18 : ℚ)) ∧
    Decibel.toLinear (17 : ℚ) < Decibel.toLinear 18 := by
  have run : runFrom (ofGrants plainSetting 30 threeGrants) () = (.ok threeShares, ()) := by
    decide +kernel
  obtain ⟨-, sweeps, each⟩ :=
    descent_law (fun _ eirp _ _ => eirp) plainSetting.constraint plainSetting.receiver
      plainSetting.floor 30 threeGrants () () threeShares run
  obtain ⟨-, final, -, -, before, room⟩ :=
    each 2 (plainGrant "loud" 20 true) ⟨"loud", true, 20, 15, ⟨16, 82 / 5, 6⟩⟩ rfl rfl
  obtain ⟨probed, falls⟩ := before 3 (by decide) (by decide)
  have higher : (20 : ℚ) - (((3 : Nat) : ℚ) - 1) = 18 := by norm_num
  have lower : (20 : ℚ) - ((3 : Nat) : ℚ) = 17 := by norm_num
  simp only [plainGrant, higher, lower] at probed falls
  exact ⟨run, sweeps, final, room (by decide), probed, falls⟩

end SpectrumShare.Allocation
