import Mathlib.Tactic.Ring
import SpectrumShare.Proofs.Allocation.Ending
import SpectrumShare.Proofs.Allocation.Simulation
import SpectrumShare.Proofs.Decibel

/-! # Searches on another scale

To lower every answer of a model by so many dB is to measure all powers in another unit. No comparison of a
verdict tells the units apart, so a search with a quota in that unit comes to the same, in that unit,
refusals included. -/

namespace SpectrumShare

open Scalar

section

variable {σ α : Type} [Scalar α]

/-- The model whose answers are lower by an offset in dB. -/
def InterferenceModel.lower (model : InterferenceModel σ α) (offset : α) : InterferenceModel σ α where
  level grant eirp constraint receiver :=
    Option.map (· - offset) <$> model.level grant eirp constraint receiver

theorem InterferenceModel.lower_pure (level : Grant α → α → Constraint α → Receiver α → α) (offset : α) :
    (InterferenceModel.pure level : InterferenceModel σ α).lower offset =
      .pure fun grant eirp constraint receiver => level grant eirp constraint receiver - offset :=
  rfl

/-- What a refusal says when powers are multiplied by a factor and answers lowered by an offset. -/
def Error.scale (factor offset : α) : Error α → Error α
  | .notFalling grant eirp previous current =>
    .notFalling grant eirp (previous * factor) (current * factor)
  | .notFinite grant level => .notFinite grant (level - offset)
  | .floorReached grant floor share => .floorReached grant floor (share * factor)
  | e => e

def Halt.scale (factor offset : α) : Halt α → Halt α
  | .refused e => .refused (e.scale factor offset)
  | .brokeDown => .brokeDown
  | .cutOff => .cutOff

def Fit.scale (factor : α) (f : Fit α) : Fit α :=
  { f with interference := f.interference * factor, fairShare := f.fairShare * factor }

def GrantAllocation.scale (factor : α) (g : GrantAllocation α) : GrantAllocation α :=
  { g with fit := g.fit.scale factor }

/-- The allocation with all its powers multiplied by a factor. -/
def Allocation.scale (factor : α) (a : Allocation α) : Allocation α where
  constraint := a.constraint
  quota := a.quota * factor
  remaining := a.remaining * factor
  localTotal := a.localTotal * factor
  globalTotal := a.globalTotal * factor
  sweeps := a.sweeps
  grants := a.grants.map (.scale factor)

end

namespace Allocation

section

variable {σ α β γ δ ε : Type} {turn : Halt α → Halt α}

/-- A search that comes to the image of what another comes to, and leaves the same memory. -/
def Mirrors (turn : Halt α → Halt α) (image : β → γ) (x : Probing σ α β) (y : Probing σ α γ) : Prop :=
  ∀ m, runFrom y m = (((runFrom x m).1.map image).mapError turn, (runFrom x m).2)

theorem mirrors_pure {image : β → γ} (v : β) : Mirrors (σ := σ) turn image (pure v) (pure (image v)) :=
  fun _ => rfl

theorem mirrors_throw {image : β → γ} (halt : Halt α) :
    Mirrors (σ := σ) turn image (throw halt) (throw (turn halt)) :=
  fun _ => rfl

theorem mirrors_bind {image : β → γ} {last : δ → ε} {x : Probing σ α β} {y : Probing σ α γ}
    {f : β → Probing σ α δ} {g : γ → Probing σ α ε} (first : Mirrors turn image x y)
    (rest : ∀ b, Mirrors turn last (f b) (g (image b))) : Mirrors turn last (x >>= f) (y >>= g) := by
  intro m
  rw [runFrom_bind, runFrom_bind, first m]
  rcases runFrom x m with ⟨halt | b, n⟩
  · rfl
  · exact rest b n

theorem mirrors_ask {last : δ → ε} {question : StateM σ β} {image : β → γ}
    {f : β → Probing σ α δ} {g : γ → Probing σ α ε}
    (rest : ∀ b, Mirrors turn last (f b) (g (image b))) :
    Mirrors turn last ((question : Probing σ α β) >>= f)
      (((image <$> question : StateM σ γ) : Probing σ α γ) >>= g) := by
  intro m
  rw [runFrom_ask, runFrom_ask]
  exact rest _ _

end

section

variable {α : Type} [Scalar α]

def Candidate.scale (factor : α) (c : Candidate α) : Candidate α :=
  { c with previous := c.previous.map (· * factor), fit := c.fit.map (.scale factor) }

def Tally.scale (factor : α) (t : Tally α) : Tally α where
  remaining := t.remaining * factor
  waiting := t.waiting
  fairShare := t.fairShare * factor
  localTotal := t.localTotal * factor
  globalTotal := t.globalTotal * factor

theorem ofCandidate?_scale (factor : α) (cs : List (Candidate α)) :
    (cs.map (.scale factor)).filterMap GrantAllocation.ofCandidate? =
      (cs.filterMap GrantAllocation.ofCandidate?).map (.scale factor) := by
  rw [List.filterMap_map, List.map_filterMap]
  congr 1
  funext c
  simp only [Function.comp_apply, GrantAllocation.ofCandidate?, Candidate.scale]
  cases c.fit <;> rfl

end

section

variable {σ K : Type} [Field K] [LinearOrder K] [Rounding K]

theorem Tally.start_scale (factor quota : K) (count : Nat) :
    Tally.start (quota * factor) count = (Tally.start quota count).scale factor := by
  simp only [Tally.start, Tally.scale, Tally.mk.injEq, Nat.cast_zero, zero_mul, true_and, and_true]
  split <;> ring

theorem Tally.accept_scale (factor power : K) (t : Tally K) (managed : Bool) :
    (t.scale factor).accept (power * factor) managed = (t.accept power managed).scale factor := by
  by_cases last : t.waiting - 1 = 0
  · have here : (t.scale factor).waiting - 1 = 0 := last
    simp only [Tally.accept, if_pos here, if_pos last]
    cases managed <;> simp [Tally.scale, sub_mul, add_mul]
  · have here : ¬ (t.scale factor).waiting - 1 = 0 := last
    simp only [Tally.accept, if_neg here, if_neg last]
    cases managed <;> simp [Tally.scale, sub_mul, add_mul, div_mul_eq_mul_div]

variable [IsStrictOrderedRing K] [Decibel K] {factor offset : K}

/-- Lower answers and a smaller unit make one another up. -/
structure Rescales (factor offset : K) : Prop where
  positive : 0 < factor
  power : ∀ level : K, Decibel.toLinear (level - offset) = Decibel.toLinear level * factor
  marks : ∀ level : K,
    isFinite (Decibel.toLinear (level - offset)) = isFinite (Decibel.toLinear level)

/-- A verdict compares powers with powers, and none of them with a number of its own. -/
theorem judge_scale (rescales : Rescales factor offset) (floor : K) (sweep : Nat) (t : Tally K)
    (c : Candidate K) (level : K) :
    judge floor sweep (t.scale factor) (c.scale factor) (level - offset) =
      ((judge floor sweep t c level).map (Prod.map (.scale factor) (.scale factor))).mapError
        (.scale factor offset) := by
  have order : ∀ a b : K, a * factor ≤ b * factor ↔ a ≤ b :=
    fun a b => mul_le_mul_iff_left₀ rescales.positive
  have strict : ∀ a b : K, a * factor < b * factor ↔ a < b :=
    fun a b => mul_lt_mul_iff_left₀ rescales.positive
  have falls : (∀ p ∈ (c.scale factor).previous, Decibel.toLinear level * factor < p) ↔
      ∀ p ∈ c.previous, Decibel.toLinear level < p := by
    simp [Candidate.scale, strict]
  cases verdict : judge floor sweep t c level with
  | ok r =>
    refine judge_ok_iff.2 ?_
    rw [rescales.marks, rescales.power, falls]
    obtain ⟨finite, falling, ⟨below, rfl⟩ | ⟨above, room, rfl⟩⟩ := judge_ok_iff.1 verdict
    · refine ⟨finite, falling, .inl ⟨(strict _ _).2 below, ?_⟩⟩
      exact congrArg (·, _) (t.accept_scale _ _ _)
    · exact ⟨finite, falling, .inr ⟨(order _ _).2 above, room, rfl⟩⟩
  | error e =>
    refine judge_error_iff.2 ?_
    rw [rescales.marks, rescales.power, falls]
    rcases judge_error_iff.1 verdict with ⟨marked, rfl⟩ |
      ⟨finite, ⟨p, before, rises, rfl⟩ | ⟨falling, above, low, rfl⟩⟩
    · exact .inl ⟨marked, rfl⟩
    · refine .inr ⟨finite, .inl ⟨p * factor, ?_, (order _ _).2 rises, rfl⟩⟩
      exact Option.mem_map_of_mem _ before
    · exact .inr ⟨finite, .inr ⟨falling, (order _ _).2 above, low, rfl⟩⟩

section

variable (rescales : Rescales factor offset) (s : Setting σ K)
include rescales

theorem visit_mirrors (sweep : Nat) (t : Tally K) (c : Candidate K) :
    Mirrors (.scale factor offset) (Prod.map (.scale factor) (.scale factor)) (visit s sweep t c)
      (visit (s.withModel (s.model.lower offset)) sweep (t.scale factor) (c.scale factor)) := by
  have fits : (c.scale factor).fit.isSome = c.fit.isSome := Option.isSome_map
  unfold visit
  rw [fits]
  split
  · exact mirrors_pure (t, c)
  · refine mirrors_ask fun answer => ?_
    cases answer with
    | none => exact mirrors_throw .brokeDown
    | some level =>
      simp only [Option.map_some, Setting.withModel]
      rw [judge_scale rescales]
      cases judge s.floor sweep t c level with
      | error e => exact mirrors_throw (.refused e)
      | ok next => exact mirrors_pure next

theorem sweepOver_mirrors (sweep : Nat) (t : Tally K) (cs : List (Candidate K)) :
    Mirrors (.scale factor offset) (Prod.map (.scale factor) (List.map (.scale factor)))
      (sweepOver s sweep t cs)
      (sweepOver (s.withModel (s.model.lower offset)) sweep (t.scale factor)
        (cs.map (.scale factor))) := by
  induction cs generalizing t with
  | nil => exact mirrors_pure (t, [])
  | cons c rest ih =>
    refine mirrors_bind (visit_mirrors rescales s sweep t c) fun next => ?_
    exact mirrors_bind (ih next.1) fun others => mirrors_pure (others.1, next.2 :: others.2)

theorem converge_mirrors (fuel sweeps : Nat) (t : Tally K) (cs : List (Candidate K)) :
    Mirrors (.scale factor offset)
      (Prod.map id (Prod.map (.scale factor) (List.map (.scale factor))))
      (converge s fuel sweeps t cs)
      (converge (s.withModel (s.model.lower offset)) fuel sweeps (t.scale factor)
        (cs.map (.scale factor))) := by
  have waiting : ∀ u : Tally K, (u.scale factor).waiting = u.waiting := fun _ => rfl
  induction fuel generalizing sweeps t cs with
  | zero =>
    unfold converge
    rw [waiting]
    split
    · exact mirrors_pure (sweeps, t, cs)
    · exact mirrors_throw .cutOff
  | succ fuel ih =>
    unfold converge
    rw [waiting]
    split
    · exact mirrors_pure (sweeps, t, cs)
    · exact mirrors_bind (sweepOver_mirrors rescales s _ t cs) fun next => ih _ next.1 next.2

/-- A search with lower answers comes to the same in the smaller unit. -/
theorem ofGrants_mirrors (quota : K) (grants : List (Grant K)) :
    Mirrors (.scale factor offset) (.scale factor) (ofGrants s quota grants)
      (ofGrants (s.withModel (s.model.lower offset)) (quota * factor) grants) := by
  have searched := converge_mirrors rescales s (sweepBound s.floor grants) 0
    (.start quota grants.length) (grants.map .start)
  have started : (grants.map Candidate.start).map (Candidate.scale factor) =
      grants.map Candidate.start := by
    rw [List.map_map]
    rfl
  rw [started, ← Tally.start_scale] at searched
  refine mirrors_bind searched fun ⟨sweeps, t, cs⟩ => ?_
  simp only [Prod.map, id, ofCandidate?_scale]
  exact mirrors_pure _

end

/-- **Scale equivariance.** Let powers be above zero and multiply where levels add up, and let the offset
change no answer's being finite. With all answers of the model lower by the offset and a quota lower by as
many dB, a search takes every decision as before: it returns the same allocation with all its powers in
proportion, or is refused for the same reason at the same grant. -/
theorem scale_equivariant (positive : ∀ level : K, 0 < Decibel.toLinear level)
    (additive : ∀ a b : K, Decibel.toLinear (a + b) = Decibel.toLinear a * Decibel.toLinear b)
    (offset : K) (marks : ∀ level : K,
      isFinite (Decibel.toLinear (level - offset)) = isFinite (Decibel.toLinear level))
    (s : Setting σ K) (quota : K) (grants : List (Grant K)) (m : σ) :
    runFrom (ofGrants (s.withModel (s.model.lower offset)) (quota * Decibel.toLinear (-offset)) grants)
        m =
      match runFrom (ofGrants s quota grants) m with
      | (.ok a, n) => (.ok (a.scale (Decibel.toLinear (-offset))), n)
      | (.error halt, n) => (.error (halt.scale (Decibel.toLinear (-offset)) offset), n) := by
  have rescales : Rescales (Decibel.toLinear (-offset)) offset :=
    ⟨positive _, fun level => by rw [sub_eq_add_neg, additive], marks⟩
  rw [ofGrants_mirrors rescales s quota grants m]
  rcases runFrom (ofGrants s quota grants) m with ⟨halt | a, n⟩ <;> rfl

end

section

open Decibel (toLinear)

/-- A model without loss. -/
noncomputable def clearSetting : Setting Unit ℝ :=
  ⟨.pure fun _ eirp _ _ => eirp, ⟨⟨0, 0⟩, .cbrs, .gwpz⟩, .area .suburban, 0⟩

noncomputable def beacon (id : String) (eirp : ℝ) : Grant ℝ :=
  ⟨id, ⟨0, 0⟩, Grant.defaultHeight, eirp, .cbrs, .b, true⟩

/-- A tenth of the quota fits at once; what is left is less than 20 dBm and more than 19 dBm. -/
theorem beacons_run :
    ∃ a, runFrom (ofGrants clearSetting 100 [beacon "near" 10, beacon "far" 20]) () = (.ok a, ()) ∧
      a.grants.map (·.finalEirp) = [10, 19] ∧ a.sweeps = 2 := by
  have ten : toLinear (10 : ℝ) = 10 := by norm_num [toLinear]
  have twenty : toLinear (20 : ℝ) = 100 := by norm_num [toLinear]
  obtain ⟨low, high⟩ := toLinear_between 19 79 80 (by norm_num) (by norm_num)
  push_cast at low high
  have begun : Reachable clearSetting 100 [beacon "near" 10, beacon "far" 20] () (.start _ _ _) :=
    .start
  have first := begun.next (.turn (by simp [Tally.start]))
  have near := first.accept rfl ten rfl (by simp [Candidate.start]) (by norm_num [Tally.start]) rfl rfl
  have far := near.lower rfl twenty rfl (by simp [Candidate.start])
    (by norm_num [Tally.start, Tally.accept]) (by norm_num [clearSetting, Candidate.start, beacon]) rfl
  have second := far.next (.turn (by simp [Tally.start, Tally.accept]))
  have near := second.next (.visit (.settled rfl))
  have far := near.accept rfl (by norm_num [Candidate.start, beacon] : _ = toLinear (19 : ℝ)) rfl
    (by simp; linarith) (by norm_num [Tally.start, Tally.accept]; linarith) rfl rfl
  have ended := ofGrants_of_reachable far rfl rfl
    ((by decide : 2 ≤ 0x8000000000000000).trans (le_sweepBound _ _))
  refine ⟨_, ended, ?_, rfl⟩
  norm_num [Stage.allocation, Stage.candidates, List.filterMap_cons, GrantAllocation.ofCandidate?,
    Candidate.start, beacon]

theorem scale_equivariant_beacons :
    (∀ level : ℝ, 0 < toLinear level) ∧
    (∀ x y : ℝ, toLinear (x + y) = toLinear x * toLinear y) ∧
    (∀ level : ℝ, isFinite (toLinear (level - 10)) = isFinite (toLinear level)) ∧
    ∃ a, runFrom (ofGrants clearSetting 100 [beacon "near" 10, beacon "far" 20]) () = (.ok a, ()) ∧
      a.grants.map (·.finalEirp) = [10, 19] ∧ a.sweeps = 2 ∧
      runFrom (ofGrants (clearSetting.withModel (.pure fun _ eirp _ _ => eirp - 10)) 10
        [beacon "near" 10, beacon "far" 20]) () = (.ok (a.scale (1 / 10)), ()) := by
  have positive : ∀ level : ℝ, 0 < toLinear level := fun _ => Real.rpow_pos_of_pos (by norm_num) _
  have tenth : toLinear (-10 : ℝ) = 1 / 10 := by norm_num [toLinear, Real.rpow_neg_one]
  obtain ⟨a, run, finals, sweeps⟩ := beacons_run
  have scaled := scale_equivariant positive toLinear_add 10 (fun _ => rfl) clearSetting 100
    [beacon "near" 10, beacon "far" 20] ()
  have lowered : clearSetting.model.lower 10 = .pure fun _ eirp _ _ => eirp - 10 :=
    InterferenceModel.lower_pure _ 10
  rw [run, tenth, lowered, show (100 : ℝ) * (1 / 10) = 10 by norm_num] at scaled
  exact ⟨positive, toLinear_add, fun _ => rfl, a, run, finals, sweeps, scaled⟩

end

end Allocation

end SpectrumShare
