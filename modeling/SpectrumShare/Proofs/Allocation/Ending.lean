import SpectrumShare.Proofs.Allocation.Stage

/-! # How a search ends

A search that returns nothing was stopped by a visit or has made all the sweeps it was allowed. A visit
stops it when the model breaks down, or with one of three refusals, each of which says what the probe
came to. -/

namespace SpectrumShare.Allocation

open Scalar

variable {σ K : Type} [Field K] [LinearOrder K] [Rounding K] [Decibel K]

theorem judge_error_iff {floor level : K} {sweep : Nat} {t : Tally K} {c : Candidate K} {e : Error K} :
    judge floor sweep t c level = .error e ↔
      isFinite (Decibel.toLinear level) = false ∧ .notFinite c.grant.id level = e ∨
      isFinite (Decibel.toLinear level) = true ∧
        ((∃ p ∈ c.previous, p ≤ Decibel.toLinear level ∧
            .notFalling c.grant.id c.eirp p (Decibel.toLinear level) = e) ∨
          (∀ p ∈ c.previous, Decibel.toLinear level < p) ∧ t.fairShare ≤ Decibel.toLinear level ∧
            c.eirp - 1 < floor ∧ .floorReached c.grant.id floor t.fairShare = e) := by
  simp only [judge, eirpStep_eq_one]
  generalize Decibel.toLinear level = power
  cases finite : isFinite power with
  | false => simp
  | true =>
    simp only [Bool.not_true, Bool.false_eq_true, ↓reduceIte, reduceCtorEq, false_and, false_or,
      true_and]
    cases before : c.previous with
    | none =>
      by_cases below : power < t.fairShare
      · simp [below, below.not_ge]
      · by_cases low : c.eirp - 1 < floor
        · simp [below, low, not_lt.1 below]
        · simp [below, low]
    | some p =>
      by_cases rises : p ≤ power
      · simp [Option.filter, rises, rises.not_gt]
      · by_cases below : power < t.fairShare
        · simp [Option.filter, rises, below, below.not_ge]
        · by_cases low : c.eirp - 1 < floor
          · simp [Option.filter, rises, below, low, not_lt.1 below, not_le.1 rises]
          · simp [Option.filter, rises, below, low]

/-- How a visit stops a search. -/
inductive Stop (s : Setting σ K) (m : σ) (t : Tally K) (c : Candidate K) : Halt K → σ → Prop
  | brokeDown {n : σ} (waits : c.fit = none)
      (asked : (s.model.level c.grant c.eirp s.constraint s.receiver).run m = (none, n)) :
      Stop s m t c .brokeDown n
  | notFinite {level : K} {n : σ} (waits : c.fit = none)
      (asked : (s.model.level c.grant c.eirp s.constraint s.receiver).run m = (some level, n))
      (marked : isFinite (Decibel.toLinear level) = false) :
      Stop s m t c (.refused (.notFinite c.grant.id level)) n
  | notFalling {level previous : K} {n : σ} (waits : c.fit = none)
      (asked : (s.model.level c.grant c.eirp s.constraint s.receiver).run m = (some level, n))
      (finite : isFinite (Decibel.toLinear level) = true) (before : c.previous = some previous)
      (rises : previous ≤ Decibel.toLinear level) :
      Stop s m t c (.refused (.notFalling c.grant.id c.eirp previous (Decibel.toLinear level))) n
  | floorReached {level : K} {n : σ} (waits : c.fit = none)
      (asked : (s.model.level c.grant c.eirp s.constraint s.receiver).run m = (some level, n))
      (finite : isFinite (Decibel.toLinear level) = true)
      (falling : ∀ p ∈ c.previous, Decibel.toLinear level < p)
      (above : t.fairShare ≤ Decibel.toLinear level) (low : c.eirp - 1 < s.floor) :
      Stop s m t c (.refused (.floorReached c.grant.id s.floor t.fairShare)) n

theorem Stop.waits {s : Setting σ K} {m n : σ} {t : Tally K} {c : Candidate K} {halt : Halt K}
    (h : Stop s m t c halt n) : c.fit = none := by
  cases h <;> assumption

theorem visit_error {s : Setting σ K} {sweep : Nat} {m n : σ} {t : Tally K} {c : Candidate K}
    {halt : Halt K} (h : runFrom (visit s sweep t c) m = (.error halt, n)) : Stop s m t c halt n := by
  cases fit : c.fit with
  | some f =>
    have fits : c.fit.isSome = true := by rw [fit]; rfl
    rw [visit_of_fits fits] at h
    cases h
  | none =>
    rcases asked : (s.model.level c.grant c.eirp s.constraint s.receiver).run m with ⟨answer, k⟩
    cases answer with
    | none =>
      rw [visit_of_breakdown fit asked] at h
      cases h
      exact .brokeDown fit asked
    | some level =>
      rw [visit_of_answer fit asked] at h
      cases verdict : judge s.floor sweep t c level with
      | ok r =>
        rw [verdict] at h
        cases h
      | error e =>
        rw [verdict] at h
        cases h
        rcases judge_error_iff.1 verdict with ⟨marked, rfl⟩ |
          ⟨finite, ⟨p, before, rises, rfl⟩ | ⟨falling, above, low, rfl⟩⟩
        · exact .notFinite fit asked marked
        · exact .notFalling fit asked finite before rises
        · exact .floorReached fit asked finite falling above low

/-- A search that is stopped by the visit that comes next in a stage it has reached. -/
inductive Stopped (s : Setting σ K) (quota : K) (grants : List (Grant K)) (m : σ) :
    Halt K → σ → Prop
  | intro {k : Nat} {t : Tally K} {c : Candidate K} {v rest : List (Candidate K)} {n n' : σ}
      {halt : Halt K} (reached : Reachable s quota grants m ⟨k, t, v, c :: rest, n⟩)
      (stop : Stop s n t c halt n') : Stopped s quota grants m halt n'

variable {s : Setting σ K} {quota : K} {grants : List (Grant K)} {m : σ}

/-- No visit cuts a search off. -/
theorem Stopped.ne_cutOff {halt : Halt K} {n : σ} (h : Stopped s quota grants m halt n) :
    halt ≠ .cutOff := by
  rintro rfl
  cases h with
  | intro reached stop => cases stop

theorem sweepOver_stopped {k : Nat} {t : Tally K} {v cs : List (Candidate K)} {n n' : σ}
    {halt : Halt K} (h : Reachable s quota grants m ⟨k, t, v, cs, n⟩)
    (run : runFrom (sweepOver s k t cs) n = (.error halt, n')) : Stopped s quota grants m halt n' := by
  induction cs generalizing t v n with
  | nil => cases run
  | cons c rest ih =>
    rcases runFrom_bind_error.1 run with stops | ⟨⟨u, d⟩, i, first, others⟩
    · exact .intro h (visit_error stops)
    · have here := h.next (.visit (visit_ok first))
      rcases runFrom_bind_error.1 others with stops | ⟨⟨u', ds⟩, i', -, last⟩
      · exact ih here stops
      · cases last

theorem converge_halts {fuel k : Nat} {t : Tally K} {cs : List (Candidate K)} {n n' : σ}
    {halt : Halt K} (h : Reachable s quota grants m ⟨k, t, cs, [], n⟩)
    (run : runFrom (converge s fuel k t cs) n = (.error halt, n')) :
    Stopped s quota grants m halt n' ∨
      ∃ x, Reachable s quota grants m x ∧ x.pending = [] ∧ x.tally.waiting ≠ 0 ∧
        x.sweep = k + fuel := by
  induction fuel generalizing k t cs n with
  | zero =>
    unfold converge at run
    split at run
    · cases run
    · rename_i waits
      exact .inr ⟨_, h, rfl, waits, rfl⟩
  | succ fuel ih =>
    unfold converge at run
    split at run
    · cases run
    · rename_i waits
      have turned := h.next (.turn waits)
      rcases runFrom_bind_error.1 run with stops | ⟨⟨u, ds⟩, i, swept, others⟩
      · exact .inl (sweepOver_stopped turned stops)
      · have here := sweepOver_reaches turned swept
        rcases ih (by simpa using here) others with stopped | ⟨x, reached, passed, waiting, sweeps⟩
        · exact .inl stopped
        · exact .inr ⟨x, reached, passed, waiting, by omega⟩

theorem ofGrants_error {halt : Halt K} {n : σ} :
    runFrom (ofGrants s quota grants) m = (.error halt, n) ↔
      runFrom (converge s (sweepBound s.floor grants) 0 (.start quota grants.length)
        (grants.map .start)) m = (.error halt, n) := by
  refine ⟨fun run => ?_, fun run => runFrom_bind_error.2 (.inl run)⟩
  rcases runFrom_bind_error.1 run with halts | ⟨v, k, -, last⟩
  · exact halts
  · cases last

end SpectrumShare.Allocation
