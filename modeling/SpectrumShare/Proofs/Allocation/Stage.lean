import Mathlib.Algebra.Order.Field.Basic
import SpectrumShare.Allocation.Loop
import SpectrumShare.Proofs.Exact

/-!
# The convergence loop as steps

What one probe can do to the grant it probes and to the totals, and the stages that a search goes
through from probe to probe:

* `visit_ok`: a visit that does not end the search leaves the grant as it was because it fits
  already, lets it fit, or lowers it by one dB;
* `ofGrants_reaches`: what a search returns is read off a stage that it reaches and in which no grant
  waits;
* `ofGrants_of_reachable`: such a stage, reached within the bound on sweeps, is what the search returns.
-/

namespace SpectrumShare.Allocation

open Scalar

section

variable {σ α β γ : Type}

/-- What a search comes to when the model remembers `m`, and what the model remembers then. -/
def runFrom (x : Probing σ α β) (m : σ) : Except (Halt α) β × σ := x.run.run m

@[simp] theorem runFrom_pure (v : β) (m : σ) : runFrom (pure v : Probing σ α β) m = (.ok v, m) := rfl

theorem runFrom_bind (x : Probing σ α β) (f : β → Probing σ α γ) (m : σ) :
    runFrom (x >>= f) m =
      match runFrom x m with
      | (.ok v, n) => runFrom (f v) n
      | (.error halt, n) => (.error halt, n) := by
  change (match runFrom x m with | (r, n) => (ExceptT.bindCont f r).run n) = _
  rcases runFrom x m with ⟨r, n⟩
  cases r <;> rfl

theorem runFrom_ask (q : StateM σ β) (f : β → Probing σ α γ) (m : σ) :
    runFrom ((q : Probing σ α β) >>= f) m = runFrom (f (q.run m).1) (q.run m).2 := rfl

theorem runFrom_bind_ok {x : Probing σ α β} {f : β → Probing σ α γ} {m n : σ} {w : γ} :
    runFrom (x >>= f) m = (.ok w, n) ↔
      ∃ v k, runFrom x m = (.ok v, k) ∧ runFrom (f v) k = (.ok w, n) := by
  rw [runFrom_bind]
  rcases runFrom x m with ⟨r, k⟩
  cases r with
  | error halt => simp
  | ok v =>
    constructor
    · exact fun h => ⟨v, k, rfl, h⟩
    · rintro ⟨_, _, e, h⟩
      cases e
      exact h

theorem runFrom_bind_error {x : Probing σ α β} {f : β → Probing σ α γ} {m n : σ} {halt : Halt α} :
    runFrom (x >>= f) m = (.error halt, n) ↔
      runFrom x m = (.error halt, n) ∨
        ∃ v k, runFrom x m = (.ok v, k) ∧ runFrom (f v) k = (.error halt, n) := by
  rw [runFrom_bind]
  rcases runFrom x m with ⟨r, k⟩
  cases r with
  | error halt => simp
  | ok v =>
    constructor
    · exact fun h => .inr ⟨v, k, rfl, h⟩
    · rintro (h | ⟨_, _, e, h⟩)
      · cases h
      · cases e
        exact h

theorem runFrom_map (f : β → γ) (x : Probing σ α β) (m : σ) :
    runFrom (f <$> x) m = ((runFrom x m).1.map f, (runFrom x m).2) := by
  rw [map_eq_pure_bind, runFrom_bind]
  rcases runFrom x m with ⟨r, n⟩
  cases r <;> rfl

theorem runFrom_map_error {f : β → γ} {x : Probing σ α β} {m n : σ} {halt : Halt α} :
    runFrom (f <$> x) m = (.error halt, n) ↔ runFrom x m = (.error halt, n) := by
  rw [runFrom_map]
  rcases runFrom x m with ⟨r, k⟩
  cases r <;> simp [Except.map]

theorem runFrom_map_ok {f : β → γ} {x : Probing σ α β} {m n : σ} {w : γ} :
    runFrom (f <$> x) m = (.ok w, n) ↔ ∃ v, runFrom x m = (.ok v, n) ∧ f v = w := by
  rw [runFrom_map]
  rcases runFrom x m with ⟨r, k⟩
  cases r with
  | error halt => simp [Except.map]
  | ok v =>
    simp only [Except.map, Prod.mk.injEq, Except.ok.injEq]
    constructor
    · rintro ⟨made, rfl⟩
      exact ⟨v, ⟨rfl, rfl⟩, made⟩
    · rintro ⟨_, ⟨rfl, rfl⟩, made⟩
      exact ⟨made, rfl⟩

end

section

variable {σ α : Type} [Scalar α] [Decibel α]

theorem visit_of_fits {s : Setting σ α} {sweep : Nat} {t : Tally α} {c : Candidate α} {m : σ}
    (fits : c.fit.isSome = true) : runFrom (visit s sweep t c) m = (.ok (t, c), m) := by
  simp [visit, fits]

theorem visit_of_answer {s : Setting σ α} {sweep : Nat} {t : Tally α} {c : Candidate α} {m n : σ}
    {level : α} (waits : c.fit = none)
    (asked : (s.model.level c.grant c.eirp s.constraint s.receiver).run m = (some level, n)) :
    runFrom (visit s sweep t c) m = ((judge s.floor sweep t c level).mapError .refused, n) := by
  simp only [visit, waits, Option.isSome_none, Bool.false_eq_true, ↓reduceIte, runFrom_ask, asked]
  cases judge s.floor sweep t c level <;> rfl

theorem visit_of_breakdown {s : Setting σ α} {sweep : Nat} {t : Tally α} {c : Candidate α}
    {m n : σ} (waits : c.fit = none)
    (asked : (s.model.level c.grant c.eirp s.constraint s.receiver).run m = (none, n)) :
    runFrom (visit s sweep t c) m = (.error .brokeDown, n) := by
  simp only [visit, waits, Option.isSome_none, Bool.false_eq_true, ↓reduceIte, runFrom_ask, asked]
  rfl

end

section

variable {σ K : Type}

/-- Where a search stands between two probes. -/
structure Stage (σ K : Type) where
  /-- The sweep under way, zero before the first. -/
  sweep : Nat
  tally : Tally K
  /-- The grants that the sweep has come past. -/
  visited : List (Candidate K)
  /-- The grants that it has still to visit. -/
  pending : List (Candidate K)
  memory : σ

namespace Stage

def candidates (x : Stage σ K) : List (Candidate K) := x.visited ++ x.pending

/-- A visit leaves all grants but the visited one. -/
theorem mem_candidates {k k' : Nat} {t t' : Tally K} {c c' d : Candidate K}
    {v rest : List (Candidate K)} {m n : σ}
    (h : d ∈ candidates ⟨k', t', v ++ [c'], rest, n⟩) :
    d = c' ∨ d ∈ candidates ⟨k, t, v, c :: rest, m⟩ := by
  simp only [candidates, List.append_assoc, List.singleton_append, List.mem_append,
    List.mem_cons] at h ⊢
  rcases h with h | h | h
  · exact .inr (.inl h)
  · exact .inl h
  · exact .inr (.inr (.inr h))

end Stage

end

variable {σ K : Type} [Field K] [LinearOrder K] [Rounding K]

theorem eirpStep_eq_one : (eirpStep : K) = 1 := Nat.cast_one

theorem le_sweepBound (floor : K) (grants : List (Grant K)) :
    0x8000000000000000 ≤ sweepBound floor grants := by
  have rises : ∀ b, b ≤ grants.foldl
      (fun bound g => max bound (Scalar.floor (g.maxEirp - floor) + 1).toNat) b := by
    induction grants with
    | nil => exact fun b => le_rfl
    | cons g rest ih => exact fun b => (le_max_left _ _).trans (ih _)
  exact rises _

variable [Decibel K]

theorem judge_ok_iff {floor level : K} {sweep : Nat} {t : Tally K} {c : Candidate K}
    {r : Tally K × Candidate K} :
    judge floor sweep t c level = .ok r ↔
      isFinite (Decibel.toLinear level) = true ∧ (∀ p ∈ c.previous, Decibel.toLinear level < p) ∧
      (Decibel.toLinear level < t.fairShare ∧
          (t.accept (Decibel.toLinear level) c.grant.managed,
            { c with fit := some ⟨Decibel.toLinear level, t.fairShare, sweep⟩ }) = r ∨
        t.fairShare ≤ Decibel.toLinear level ∧ floor ≤ c.eirp - 1 ∧
          (t, { c with eirp := c.eirp - 1, previous := some (Decibel.toLinear level) }) = r) := by
  simp only [judge, eirpStep_eq_one]
  generalize Decibel.toLinear level = power
  cases finite : isFinite power with
  | false => simp
  | true =>
    have calm : (c.previous.filter fun p => decide (p ≤ power)) = none ↔
        ∀ p ∈ c.previous, power < p := by
      cases c.previous <;> simp [Option.filter]
    simp only [Bool.not_true, Bool.false_eq_true, ↓reduceIte, true_and, ← calm]
    cases c.previous.filter fun p => decide (p ≤ power) with
    | some p => simp
    | none =>
      by_cases below : power < t.fairShare
      · simp [below, below.not_ge]
      · by_cases low : c.eirp - 1 < floor
        · simp [below, low, low.not_ge]
        · simp [below, low, not_lt.1 below, not_lt.1 low]

/-- What a visit that goes on makes of the totals and the grant. -/
inductive Visit (s : Setting σ K) (sweep : Nat) (m : σ) (t : Tally K) (c : Candidate K) :
    Tally K → Candidate K → σ → Prop
  | settled (fits : c.fit.isSome = true) : Visit s sweep m t c t c m
  | accepted {level : K} {n : σ} (waits : c.fit = none)
      (asked : (s.model.level c.grant c.eirp s.constraint s.receiver).run m = (some level, n))
      (finite : isFinite (Decibel.toLinear level) = true)
      (falling : ∀ p ∈ c.previous, Decibel.toLinear level < p)
      (below : Decibel.toLinear level < t.fairShare) :
      Visit s sweep m t c (t.accept (Decibel.toLinear level) c.grant.managed)
        { c with fit := some ⟨Decibel.toLinear level, t.fairShare, sweep⟩ } n
  | lowered {level : K} {n : σ} (waits : c.fit = none)
      (asked : (s.model.level c.grant c.eirp s.constraint s.receiver).run m = (some level, n))
      (finite : isFinite (Decibel.toLinear level) = true)
      (falling : ∀ p ∈ c.previous, Decibel.toLinear level < p)
      (above : t.fairShare ≤ Decibel.toLinear level) (room : s.floor ≤ c.eirp - 1) :
      Visit s sweep m t c t
        { c with eirp := c.eirp - 1, previous := some (Decibel.toLinear level) } n

theorem visit_ok {s : Setting σ K} {sweep : Nat} {m n : σ} {t t' : Tally K} {c c' : Candidate K}
    (h : runFrom (visit s sweep t c) m = (.ok (t', c'), n)) : Visit s sweep m t c t' c' n := by
  cases fit : c.fit with
  | some f =>
    have fits : c.fit.isSome = true := by rw [fit]; rfl
    rw [visit_of_fits fits] at h
    cases h
    exact .settled fits
  | none =>
    rcases asked : (s.model.level c.grant c.eirp s.constraint s.receiver).run m with ⟨answer, k⟩
    cases answer with
    | none =>
      rw [visit_of_breakdown fit asked] at h
      cases h
    | some level =>
      rw [visit_of_answer fit asked] at h
      cases verdict : judge s.floor sweep t c level with
      | error e =>
        rw [verdict] at h
        cases h
      | ok r =>
        rw [verdict] at h
        cases h
        obtain ⟨finite, falling, ⟨below, e⟩ | ⟨above, room, e⟩⟩ := judge_ok_iff.1 verdict
        · cases e
          exact .accepted fit asked finite falling below
        · cases e
          exact .lowered fit asked finite falling above room

theorem Visit.returns {s : Setting σ K} {sweep : Nat} {m n : σ} {t t' : Tally K}
    {c c' : Candidate K} (h : Visit s sweep m t c t' c' n) :
    runFrom (visit s sweep t c) m = (.ok (t', c'), n) := by
  cases h with
  | settled fits => exact visit_of_fits fits
  | accepted waits asked finite falling below =>
    rw [visit_of_answer waits asked, judge_ok_iff.2 ⟨finite, falling, .inl ⟨below, rfl⟩⟩]
    rfl
  | lowered waits asked finite falling above room =>
    rw [visit_of_answer waits asked, judge_ok_iff.2 ⟨finite, falling, .inr ⟨above, room, rfl⟩⟩]
    rfl

namespace Stage

def start (quota : K) (grants : List (Grant K)) (m : σ) : Stage σ K :=
  ⟨0, .start quota grants.length, grants.map .start, [], m⟩

/-- What a search that ends in a stage returns. -/
def allocation (s : Setting σ K) (quota : K) (x : Stage σ K) : Allocation K where
  constraint := s.constraint
  quota := quota
  remaining := x.tally.remaining
  localTotal := x.tally.localTotal
  globalTotal := x.tally.globalTotal
  sweeps := x.sweep
  grants := x.candidates.filterMap GrantAllocation.ofCandidate?

/-- The part of a search that is left. -/
def resume (s : Setting σ K) (fuel : Nat) (x : Stage σ K) :
    Probing σ K (Nat × Tally K × List (Candidate K)) := do
  let (t, rest) ← sweepOver s x.sweep x.tally x.pending
  converge s fuel x.sweep t (x.visited ++ rest)

end Stage

/-- One visit, or the turn from one sweep to the next. -/
inductive Step (s : Setting σ K) : Stage σ K → Stage σ K → Prop
  | visit {k : Nat} {t t' : Tally K} {c c' : Candidate K} {v rest : List (Candidate K)} {m n : σ}
      (probe : Visit s k m t c t' c' n) :
      Step s ⟨k, t, v, c :: rest, m⟩ ⟨k, t', v ++ [c'], rest, n⟩
  | turn {k : Nat} {t : Tally K} {v : List (Candidate K)} {m : σ} (waits : t.waiting ≠ 0) :
      Step s ⟨k, t, v, [], m⟩ ⟨k + 1, t, [], v, m⟩

/-- The stages of a search. -/
inductive Reachable (s : Setting σ K) (quota : K) (grants : List (Grant K)) (m : σ) :
    Stage σ K → Prop
  | start : Reachable s quota grants m (.start quota grants m)
  | next {x y : Stage σ K} : Reachable s quota grants m x → Step s x y → Reachable s quota grants m y

section

variable {s : Setting σ K} {quota : K} {grants : List (Grant K)} {m : σ}

/-- What holds of every grant when it is let fit holds of the grants that fit in every stage. -/
theorem reachable_fit {P : Grant K → K → Fit K → Prop}
    (accepted : ∀ (g : Grant K) (eirp level share : K) (sweep : Nat) (i j : σ),
      (s.model.level g eirp s.constraint s.receiver).run i = (some level, j) →
      Decibel.toLinear level < share → P g eirp ⟨Decibel.toLinear level, share, sweep⟩)
    {x : Stage σ K} (h : Reachable s quota grants m x) :
    ∀ c ∈ x.candidates, ∀ f, c.fit = some f → P c.grant c.eirp f := by
  induction h with
  | start =>
    intro c hc f fit
    simp only [Stage.start, Stage.candidates, List.append_nil, List.mem_map] at hc
    obtain ⟨g, _, rfl⟩ := hc
    cases fit
  | next _ step ih =>
    cases step with
    | turn => simpa [Stage.candidates] using ih
    | @visit k t t' c c' v rest i j probe =>
      intro d hd f fit
      rcases Stage.mem_candidates hd with rfl | hd
      · cases probe with
        | settled => exact ih _ (by simp [Stage.candidates]) f fit
        | accepted _ asked _ _ below =>
          cases fit
          exact accepted c.grant c.eirp _ _ k i j asked below
        | lowered waits =>
          rw [waits] at fit
          cases fit
      · exact ih d hd f fit

theorem sweepOver_reaches {k : Nat} {t t' : Tally K} {v cs cs' : List (Candidate K)} {n n' : σ}
    (h : Reachable s quota grants m ⟨k, t, v, cs, n⟩)
    (run : runFrom (sweepOver s k t cs) n = (.ok (t', cs'), n')) :
    Reachable s quota grants m ⟨k, t', v ++ cs', [], n'⟩ := by
  induction cs generalizing t v n cs' with
  | nil =>
    cases run
    simpa using h
  | cons c rest ih =>
    obtain ⟨⟨u, d⟩, i, first, others⟩ := runFrom_bind_ok.1 run
    obtain ⟨⟨u', ds⟩, i', later, last⟩ := runFrom_bind_ok.1 others
    cases last
    have here := ih (h.next (.visit (visit_ok first))) later
    simpa using here

theorem converge_reaches {fuel k k' : Nat} {t t' : Tally K} {cs cs' : List (Candidate K)}
    {n n' : σ} (h : Reachable s quota grants m ⟨k, t, cs, [], n⟩)
    (run : runFrom (converge s fuel k t cs) n = (.ok (k', t', cs'), n')) :
    Reachable s quota grants m ⟨k', t', cs', [], n'⟩ ∧ t'.waiting = 0 := by
  induction fuel generalizing k t cs n with
  | zero =>
    unfold converge at run
    split at run
    · rename_i ended
      cases run
      exact ⟨h, ended⟩
    · cases run
  | succ fuel ih =>
    unfold converge at run
    split at run
    · rename_i ended
      cases run
      exact ⟨h, ended⟩
    · rename_i waits
      obtain ⟨⟨u, ds⟩, i, swept, others⟩ := runFrom_bind_ok.1 run
      have here := sweepOver_reaches (h.next (.turn waits)) swept
      exact ih (by simpa using here) others

/-- What a search returns is read off a stage that it reaches and in which no grant waits. -/
theorem ofGrants_reaches {a : Allocation K} {n : σ}
    (run : runFrom (ofGrants s quota grants) m = (.ok a, n)) :
    ∃ x, Reachable s quota grants m x ∧ x.pending = [] ∧ x.tally.waiting = 0 ∧ x.memory = n ∧
      a = x.allocation s quota := by
  obtain ⟨⟨k, t, cs⟩, i, found, last⟩ := runFrom_bind_ok.1 run
  cases last
  obtain ⟨reached, ended⟩ := converge_reaches .start found
  exact ⟨_, reached, rfl, ended, rfl, by simp [Stage.allocation, Stage.candidates]⟩

theorem resume_visit {k : Nat} {t t' : Tally K} {c c' : Candidate K} {v rest : List (Candidate K)}
    {n n' : σ} (probe : Visit s k n t c t' c' n') (fuel : Nat) :
    runFrom (Stage.resume s fuel ⟨k, t, v, c :: rest, n⟩) n =
      runFrom (Stage.resume s fuel ⟨k, t', v ++ [c'], rest, n'⟩) n' := by
  simp only [Stage.resume, sweepOver, runFrom_bind, probe.returns]
  rcases runFrom (sweepOver s k t' rest) n' with ⟨r, i⟩
  cases r <;> simp

theorem resume_turn {k : Nat} {t : Tally K} {v : List (Candidate K)} {n : σ} (waits : t.waiting ≠ 0)
    (fuel : Nat) :
    runFrom (Stage.resume s (fuel + 1) ⟨k, t, v, [], n⟩) n =
      runFrom (Stage.resume s fuel ⟨k + 1, t, [], v, n⟩) n := by
  simp [Stage.resume, sweepOver, converge, waits, runFrom_bind]

/-- A search goes on from every stage that it reaches as it does from its start. -/
theorem resume_reachable {x : Stage σ K} (h : Reachable s quota grants m x) (fuel : Nat) :
    runFrom (Stage.resume s (fuel + x.sweep) (.start quota grants m)) m =
      runFrom (x.resume s fuel) x.memory := by
  induction h generalizing fuel with
  | start => rfl
  | next _ step ih =>
    cases step with
    | visit probe => exact (ih fuel).trans (resume_visit probe fuel)
    | turn waits =>
      -- The fuel counts the sweeps that are left, and a turn begins one.
      rw [← resume_turn waits fuel, ← ih (fuel + 1)]
      congr 2
      simp only
      omega

/-- A search returns what it reaches in a stage in which no grant waits. -/
theorem ofGrants_of_reachable {x : Stage σ K} (h : Reachable s quota grants m x)
    (swept : x.pending = []) (ended : x.tally.waiting = 0)
    (bound : x.sweep ≤ sweepBound s.floor grants) :
    runFrom (ofGrants s quota grants) m = (.ok (x.allocation s quota), x.memory) := by
  have last : ∀ fuel, runFrom (x.resume s fuel) x.memory =
      (.ok (x.sweep, x.tally, x.visited), x.memory) := by
    intro fuel
    cases fuel <;> simp [Stage.resume, swept, sweepOver, converge, ended]
  have run := resume_reachable h (sweepBound s.floor grants - x.sweep)
  rw [last, Nat.sub_add_cancel bound] at run
  have found : runFrom (converge s (sweepBound s.floor grants) 0 (.start quota grants.length)
      (grants.map .start)) m = (.ok (x.sweep, x.tally, x.visited), x.memory) := by
    simpa [Stage.resume, Stage.start, sweepOver] using run
  exact runFrom_bind_ok.2 ⟨_, _, found, by simp [Stage.allocation, Stage.candidates, swept]⟩

section

variable {level : Grant K → K → Constraint K → Receiver K → K} {constraint : Constraint K}
  {receiver : Receiver K} {floor power : K} {k : Nat} {t t' : Tally K} {c c' : Candidate K}
  {v rest : List (Candidate K)} {n : σ}

/-- What a visit makes of a stage, told by the power that a model without memory answers with. -/
theorem Reachable.accept
    (h : Reachable ⟨.pure level, constraint, receiver, floor⟩ quota grants m ⟨k, t, v, c :: rest, n⟩)
    (waits : c.fit = none) (asked : Decibel.toLinear (level c.grant c.eirp constraint receiver) = power)
    (finite : isFinite power = true) (falling : ∀ p ∈ c.previous, power < p)
    (below : power < t.fairShare) (left : t.accept power c.grant.managed = t')
    (fits : { c with fit := some ⟨power, t.fairShare, k⟩ } = c') :
    Reachable ⟨.pure level, constraint, receiver, floor⟩ quota grants m
      ⟨k, t', v ++ [c'], rest, n⟩ := by
  subst asked left fits
  exact h.next (.visit (.accepted waits rfl finite falling below))

theorem Reachable.lower
    (h : Reachable ⟨.pure level, constraint, receiver, floor⟩ quota grants m ⟨k, t, v, c :: rest, n⟩)
    (waits : c.fit = none) (asked : Decibel.toLinear (level c.grant c.eirp constraint receiver) = power)
    (finite : isFinite power = true) (falling : ∀ p ∈ c.previous, power < p)
    (above : t.fairShare ≤ power) (room : floor ≤ c.eirp - 1)
    (lowered : { c with eirp := c.eirp - 1, previous := some power } = c') :
    Reachable ⟨.pure level, constraint, receiver, floor⟩ quota grants m
      ⟨k, t, v ++ [c'], rest, n⟩ := by
  subst asked lowered
  exact h.next (.visit (.lowered waits rfl finite falling above room))

end

end

end SpectrumShare.Allocation
