import Mathlib.Algebra.Order.Ring.Cast
import Mathlib.Tactic.LinearCombination
import Mathlib.Tactic.Ring
import SpectrumShare.Proofs.Allocation.Stage

/-! # How a grant comes down

A grant that waits has been probed and refused once in each sweep so far, one dB lower every time. So how
often it was refused says how far it has come down, and that is never below the floor. -/

namespace SpectrumShare.Allocation

open Scalar

theorem getElem?_replace {α : Type} {v rest : List α} {c d : α} {i : Nat} (apart : i ≠ v.length) :
    (v ++ c :: rest)[i]? = (v ++ d :: rest)[i]? := by
  rcases Nat.lt_or_gt_of_ne apart with before | after
  · simp [List.getElem?_append_left before]
  · obtain ⟨j, rfl⟩ := Nat.exists_eq_add_of_lt after
    simp [List.getElem?_append_right, Nat.add_assoc]

variable {σ K : Type} [Field K] [LinearOrder K] [Rounding K] [Decibel K]

/-- In a sweep the search probes the grant at a place; it stands at a power, the share is what it is
measured by, and the model answers with a level. -/
inductive Probed (s : Setting σ K) (quota : K) (grants : List (Grant K)) (m : σ) :
    Nat → Nat → Grant K → K → K → K → Prop
  | intro {k : Nat} {t : Tally K} {c : Candidate K} {v rest : List (Candidate K)} {n n' : σ} {level : K}
      (reached : Reachable s quota grants m ⟨k, t, v, c :: rest, n⟩) (waits : c.fit = none)
      (asked : (s.model.level c.grant c.eirp s.constraint s.receiver).run n = (some level, n')) :
      Probed s quota grants m v.length k c.grant c.eirp t.fairShare level

theorem Probed.level_eq {level : Grant K → K → Constraint K → Receiver K → K}
    {constraint : Constraint K} {receiver : Receiver K} {floor quota : K} {grants : List (Grant K)}
    {m : σ} {i k : Nat} {g : Grant K} {eirp share answer : K}
    (h : Probed (σ := σ) ⟨.pure level, constraint, receiver, floor⟩ quota grants m i k g eirp share
      answer) : answer = level g eirp constraint receiver := by
  cases h with
  | intro _ _ asked =>
    cases asked
    rfl

/-- How often the grant at a place has been refused. -/
def Stage.refusals (x : Stage σ K) (i : Nat) (c : Candidate K) : Nat :=
  match c.fit with
  | some f => f.sweep - 1
  | none => if i < x.visited.length then x.sweep else x.sweep - 1

/-- The grant at a place stands as far below its maximum as it has been refused, once in each of the
first sweeps. -/
structure Descended (s : Setting σ K) (quota : K) (grants : List (Grant K)) (m : σ) (x : Stage σ K)
    (i : Nat) (c : Candidate K) : Prop where
  eirp : c.eirp = c.grant.maxEirp - (x.refusals i c : K)
  refused : ∀ k < x.refusals i c, ∃ share level,
    Probed s quota grants m i (k + 1) c.grant (c.grant.maxEirp - (k : K)) share level ∧
      share ≤ Decibel.toLinear level
  sweep : ∀ f, c.fit = some f → 1 ≤ f.sweep ∧ f.sweep ≤ x.sweep

section

variable {s : Setting σ K} {quota : K} {grants : List (Grant K)} {m : σ}

/-- Grants are visited, and fit, in sweeps that have begun. -/
theorem reachable_begun {x : Stage σ K} (h : Reachable s quota grants m x) :
    (x.pending ≠ [] → 1 ≤ x.sweep) ∧
      ∀ c ∈ x.candidates, ∀ f, c.fit = some f → 1 ≤ f.sweep ∧ f.sweep ≤ x.sweep := by
  induction h with
  | start =>
    refine ⟨fun pending => absurd rfl pending, ?_⟩
    intro c hc f fit
    simp only [Stage.start, Stage.candidates, List.append_nil, List.mem_map] at hc
    obtain ⟨g, -, rfl⟩ := hc
    cases fit
  | next _ step ih =>
    obtain ⟨begun, fits⟩ := ih
    cases step with
    | turn =>
      refine ⟨fun _ => Nat.le_add_left _ _, ?_⟩
      intro c hc f fit
      obtain ⟨first, last⟩ := fits c (by simpa [Stage.candidates] using hc) f fit
      exact ⟨first, Nat.le_succ_of_le last⟩
    | @visit k t t' c c' v rest i j probe =>
      have positive : 1 ≤ k := begun (by simp)
      refine ⟨fun _ => positive, ?_⟩
      intro d hd f fit
      rcases Stage.mem_candidates hd with rfl | hd
      · cases probe with
        | settled => exact fits _ (by simp [Stage.candidates]) f fit
        | accepted =>
          cases fit
          exact ⟨positive, le_rfl⟩
        | lowered waits =>
          rw [waits] at fit
          cases fit
      · exact fits d hd f fit

/-- What holds of every grant at the start and is kept by each probe of it, whether the probe lets the
grant fit or refuses it once more, holds of every grant in every stage. -/
theorem reachable_each {Q : Nat → Nat → Candidate K → Prop} (start : ∀ i g, Q i 0 (.start g))
    (accepted : ∀ i r c share level, Q i r c → c.fit = none →
      Probed s quota grants m i (r + 1) c.grant c.eirp share level →
      isFinite (Decibel.toLinear level) = true → (∀ p ∈ c.previous, Decibel.toLinear level < p) →
      Decibel.toLinear level < share →
      Q i r { c with fit := some ⟨Decibel.toLinear level, share, r + 1⟩ })
    (lowered : ∀ i r c share level, Q i r c → c.fit = none →
      Probed s quota grants m i (r + 1) c.grant c.eirp share level →
      isFinite (Decibel.toLinear level) = true → (∀ p ∈ c.previous, Decibel.toLinear level < p) →
      share ≤ Decibel.toLinear level → s.floor ≤ c.eirp - 1 →
      Q i (r + 1) { c with eirp := c.eirp - 1, previous := some (Decibel.toLinear level) })
    {x : Stage σ K} (h : Reachable s quota grants m x) {i : Nat} {d : Candidate K}
    (there : x.candidates[i]? = some d) : Q i (x.refusals i d) d := by
  induction h generalizing i d with
  | start =>
    obtain ⟨g, -, rfl⟩ : ∃ g, grants[i]? = some g ∧ .start g = d := by
      simpa [Stage.start, Stage.candidates, List.getElem?_map] using there
    have none : (Stage.start quota grants m).refusals i (.start g) = 0 := by
      simp [Stage.refusals, Candidate.start, Stage.start]
    rw [none]
    exact start i g
  | @next x y reached step ih =>
    cases step with
    | @turn k t v n =>
      have here : v[i]? = some d := by simpa [Stage.candidates] using there
      have inside : i < v.length := (List.getElem?_eq_some_iff.1 here).1
      have before := ih (i := i) (d := d) (by simpa [Stage.candidates] using here)
      unfold Stage.refusals at before ⊢
      cases fit : d.fit <;> simpa [fit, inside] using before
    | @visit k t t' c c' v rest n n' probe =>
      have positive : 1 ≤ k := (reachable_begun reached).1 (by simp)
      have sweep : k - 1 + 1 = k := Nat.sub_add_cancel positive
      simp only [Stage.candidates, List.append_assoc, List.singleton_append] at ih there
      -- A visit touches no place but the one behind those that the sweep has come past.
      by_cases here : i = v.length
      · subst here
        have before := ih (i := v.length) (d := c) (by simp)
        obtain rfl : d = c' := by simpa using there.symm
        cases probe with
        | settled fits =>
          obtain ⟨f, fit⟩ := Option.isSome_iff_exists.1 fits
          simpa [Stage.refusals, fit] using before
        | accepted waits asked finite falling below =>
          have probed := Probed.intro reached waits asked
          rw [← sweep] at probed
          have after := accepted _ _ c _ _ (by simpa [Stage.refusals, waits] using before) waits probed
            finite falling below
          simpa [Stage.refusals, sweep] using after
        | lowered waits asked finite falling above room =>
          have probed := Probed.intro reached waits asked
          rw [← sweep] at probed
          have after := lowered _ _ c _ _ (by simpa [Stage.refusals, waits] using before) waits probed
            finite falling above room
          simpa [Stage.refusals, waits, sweep] using after
      · have before := ih (i := i) (d := d) (by rwa [getElem?_replace here])
        have still : i < v.length + 1 ↔ i < v.length := by omega
        unfold Stage.refusals at before ⊢
        cases fit : d.fit <;> simpa [fit, still] using before

/-- No grant has been lowered below the floor. -/
theorem reachable_room {x : Stage σ K} (h : Reachable s quota grants m x) {i : Nat} {c : Candidate K}
    (there : x.candidates[i]? = some c) : 0 < x.refusals i c → s.floor ≤ c.eirp := by
  refine reachable_each (Q := fun _ r c => 0 < r → s.floor ≤ c.eirp) ?_ ?_ ?_ h there
  · exact fun _ _ none => absurd none (Nat.lt_irrefl 0)
  · exact fun _ _ _ _ _ kept _ _ _ _ _ => kept
  · exact fun _ _ _ _ _ _ _ _ _ _ _ room _ => room

theorem reachable_descended {x : Stage σ K} (h : Reachable s quota grants m x) :
    (x.pending ≠ [] → 1 ≤ x.sweep) ∧
      ∀ i c, x.candidates[i]? = some c → Descended s quota grants m x i c := by
  obtain ⟨begun, fits⟩ := reachable_begun h
  refine ⟨begun, fun i c there => ?_⟩
  have came := reachable_each
    (Q := fun i r c => c.eirp = c.grant.maxEirp - (r : K) ∧ ∀ k < r, ∃ share level,
      Probed s quota grants m i (k + 1) c.grant (c.grant.maxEirp - (k : K)) share level ∧
        share ≤ Decibel.toLinear level) ?_ ?_ ?_ h there
  · exact ⟨came.1, came.2, fits c (List.mem_of_getElem? there)⟩
  · exact fun i g => ⟨by simp [Candidate.start], fun k hk => absurd hk (Nat.not_lt_zero k)⟩
  · exact fun i r c share level came _ _ _ _ _ => came
  · rintro i r c share level ⟨eirp, refused⟩ - probed - - above -
    constructor
    · push_cast
      linear_combination eirp
    · intro k hk
      rcases Nat.lt_succ_iff_lt_or_eq.1 hk with past | rfl
      · exact refused k past
      · rw [eirp] at probed
        exact ⟨share, level, probed, above⟩

end

end SpectrumShare.Allocation
