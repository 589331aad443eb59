import Mathlib.Algebra.BigOperators.Group.List.Basic
import SpectrumShare.Proofs.Allocation.Balance
import SpectrumShare.Proofs.Allocation.Descent
import SpectrumShare.Proofs.Allocation.Ending
import SpectrumShare.Proofs.Allocation.Simulation
import SpectrumShare.Proofs.Rounding

/-!
# Every search ends

A grant that is probed again has gone down by one dB since and is not below the floor, whatever the model
answers:

* `refusals_lt`: so the distance to the floor bounds how often a grant is refused;
* `converge_eq_of_sweepLimit_le`: so how many sweeps a search is allowed beyond that does not show in what
  it comes to;
* `noted_le`: a model that notes what it is asked has noted no grant more often;
* `search_ends`: every search ends with a result or a refusal, and no grant is probed more often than its
  distance to the floor allows.
-/

namespace SpectrumShare

section

variable {σ α : Type}

/-- The model, noting each grant that it is asked about. -/
def InterferenceModel.noting (model : InterferenceModel σ α) :
    InterferenceModel (List (Grant α) × σ) α where
  level grant eirp constraint receiver := do
    let (noted, m) ← get
    let (answer, n) := (model.level grant eirp constraint receiver).run m
    set (grant :: noted, n)
    return answer

/-- To note what is asked changes no answer. -/
theorem InterferenceModel.noting_answersAs (model : InterferenceModel σ α) :
    model.AnswersAs (fun m n => n.2 = m) model.noting := by
  rintro g eirp c r m ⟨noted, n⟩ rfl
  exact ⟨rfl, rfl⟩

theorem InterferenceModel.noting_notes {model : InterferenceModel σ α} {g : Grant α} {eirp : α}
    {c : Constraint α} {r : Receiver α} {m n : List (Grant α) × σ} {answer : Option α}
    (asked : (model.noting.level g eirp c r).run m = (answer, n)) : n.1 = g :: m.1 := by
  cases asked
  rfl

end

namespace Allocation

variable {σ K : Type} [Field K] [LinearOrder K] [Rounding K] [Decibel K]

/-- What a search comes to unless it is cut off does not depend on how many sweeps it is allowed. -/
theorem converge_enough {s : Setting σ K} {fuel k : Nat} {t : Tally K} {cs : List (Candidate K)}
    {n n' : σ} {r : Except (Halt K) (Nat × Tally K × List (Candidate K))}
    (run : runFrom (converge s fuel k t cs) n = (r, n')) (ended : r ≠ .error .cutOff) (more : Nat) :
    runFrom (converge s (fuel + more) k t cs) n = (r, n') := by
  induction fuel generalizing k t cs n with
  | zero =>
    unfold converge at run
    split at run
    · rename_i none
      unfold converge
      rw [if_pos none]
      exact run
    · cases run
      exact absurd rfl ended
  | succ fuel ih =>
    rw [Nat.succ_add]
    unfold converge at run ⊢
    split
    · rename_i none
      rwa [if_pos none] at run
    · rename_i waits
      rw [if_neg waits] at run
      rw [runFrom_bind] at run ⊢
      rcases swept : runFrom (sweepOver s (k + 1) t cs) n with ⟨_ | ⟨t', cs'⟩, i⟩
      · rw [swept] at run
        exact run
      · rw [swept] at run
        exact ih run

section

variable {K : Type} [Field K] [LinearOrder K] [FloorRing K]

/-- How often a grant can be probed on its way down to the floor. -/
def probeLimit (floor : K) (g : Grant K) : Nat :=
  if floor ≤ g.maxEirp then ⌊g.maxEirp - floor⌋.toNat + 1 else 1

/-- The most that any of the grants can be probed. -/
def sweepLimit (floor : K) (grants : List (Grant K)) : Nat :=
  (grants.map (probeLimit floor)).foldr max 0

theorem probeLimit_le {floor : K} {g : Grant K} {grants : List (Grant K)} (there : g ∈ grants) :
    probeLimit floor g ≤ sweepLimit floor grants :=
  List.le_max_of_le (List.mem_map_of_mem there) le_rfl

theorem lt_probeLimit [IsStrictOrderedRing K] {floor : K} {g : Grant K} {steps : Nat}
    (room : 0 < steps → floor ≤ g.maxEirp - (steps : K)) : steps < probeLimit floor g := by
  unfold probeLimit
  by_cases none : steps = 0
  · split <;> omega
  · have above := room (Nat.pos_of_ne_zero none)
    have nonneg : (0 : K) ≤ (steps : K) := Nat.cast_nonneg steps
    have reach : (steps : ℤ) ≤ ⌊g.maxEirp - floor⌋ := by
      rw [Int.le_floor, Int.cast_natCast]
      linarith
    rw [if_pos (by linarith)]
    omega

/-- A search is allowed as many sweeps as it can need. -/
theorem sweepLimit_le_sweepBound [Rounding K] [Rounding.IsExact K] (floor : K)
    (grants : List (Grant K)) : sweepLimit floor grants ≤ sweepBound floor grants := by
  have reaches : ∀ b, b ≤ grants.foldl
        (fun bound g => max bound (Scalar.floor (g.maxEirp - floor) + 1).toNat) b ∧
      ∀ g ∈ grants, (⌊g.maxEirp - floor⌋ + 1).toNat ≤ grants.foldl
        (fun bound g => max bound (Scalar.floor (g.maxEirp - floor) + 1).toNat) b := by
    induction grants with
    | nil => exact fun b => ⟨le_rfl, by simp⟩
    | cons g rest ih =>
      intro b
      obtain ⟨rises, each⟩ := ih (max b (Scalar.floor (g.maxEirp - floor) + 1).toNat)
      refine ⟨(le_max_left _ _).trans rises, ?_⟩
      intro h hh
      rcases List.mem_cons.1 hh with rfl | hh
      · rw [← Scalar.floor_eq]
        exact (le_max_right _ _).trans rises
      · exact each h hh
  obtain ⟨-, each⟩ := reaches 0x8000000000000000
  apply List.max_le_of_forall_le
  intro limit hl
  obtain ⟨g, hg, rfl⟩ := List.mem_map.1 hl
  have distance : (⌊g.maxEirp - floor⌋ + 1).toNat ≤ sweepBound floor grants := each g hg
  have many : 0x8000000000000000 ≤ sweepBound floor grants := le_sweepBound floor grants
  unfold probeLimit
  split <;> omega

end

section

variable {K : Type}

/-- How often a grant has been probed once so many sweeps have come past it. -/
def Candidate.probes (sweeps : Nat) (c : Candidate K) : Nat :=
  match c.fit with
  | some f => f.sweep
  | none => sweeps

theorem Candidate.probes_of_waits {c : Candidate K} (waits : c.fit = none) (sweeps : Nat) :
    c.probes sweeps = sweeps := by
  simp [probes, waits]

theorem Candidate.probes_mono (c : Candidate K) {sweeps more : Nat} (later : sweeps ≤ more) :
    c.probes sweeps ≤ c.probes more := by
  unfold probes
  split
  · exact le_rfl
  · exact later

variable [DecidableEq K]

/-- How often the candidates for a grant have been probed. -/
def probesOf (g : Grant K) (sweeps : Nat) (cs : List (Candidate K)) : Nat :=
  ((cs.filter (·.grant = g)).map (·.probes sweeps)).sum

@[simp] theorem probesOf_nil (g : Grant K) (sweeps : Nat) : probesOf g sweeps [] = 0 := rfl

@[simp] theorem probesOf_append (g : Grant K) (sweeps : Nat) (cs ds : List (Candidate K)) :
    probesOf g sweeps (cs ++ ds) = probesOf g sweeps cs + probesOf g sweeps ds := by
  simp [probesOf]

@[simp] theorem probesOf_cons (g : Grant K) (sweeps : Nat) (c : Candidate K)
    (cs : List (Candidate K)) :
    probesOf g sweeps (c :: cs) =
      (if c.grant = g then c.probes sweeps else 0) + probesOf g sweeps cs := by
  by_cases here : c.grant = g <;> simp [probesOf, here]

theorem probesOf_mono (g : Grant K) (cs : List (Candidate K)) {sweeps more : Nat}
    (later : sweeps ≤ more) : probesOf g sweeps cs ≤ probesOf g more cs :=
  List.sum_le_sum fun c _ => c.probes_mono later

theorem probesOf_visit {k : Nat} {c c' : Candidate K} (begun : 1 ≤ k) (waits : c.fit = none)
    (same : c'.grant = c.grant) (counts : c'.probes k = k) (g : Grant K) (v rest : List (Candidate K)) :
    probesOf g k (v ++ [c']) + probesOf g (k - 1) rest =
      probesOf g k v + probesOf g (k - 1) (c :: rest) + if c.grant = g then 1 else 0 := by
  simp only [probesOf_append, probesOf_cons, probesOf_nil, same, counts, c.probes_of_waits waits]
  split <;> omega

theorem probesOf_le {g : Grant K} {sweeps limit : Nat} {cs : List (Candidate K)}
    (each : ∀ c ∈ cs, c.grant = g → c.probes sweeps ≤ limit) :
    probesOf g sweeps cs ≤ (cs.map (·.grant)).count g * limit := by
  induction cs with
  | nil => simp
  | cons c cs ih =>
    have rest := ih fun d hd => each d (List.mem_cons_of_mem _ hd)
    rw [probesOf_cons, List.map_cons]
    by_cases here : c.grant = g
    · have first := each c List.mem_cons_self here
      rw [if_pos here, here, List.count_cons_self, Nat.add_mul]
      omega
    · rw [if_neg here, List.count_cons_of_ne here]
      omega

end

variable {s : Setting σ K} {quota : K} {grants : List (Grant K)} {m : σ}

theorem grant_mem [IsStrictOrderedRing K] {x : Stage σ K} (h : Reachable s quota grants m x)
    {c : Candidate K} (there : c ∈ x.candidates) : c.grant ∈ grants := by
  rw [← (reachable_balanced h).grants_eq]
  exact List.mem_map_of_mem there

/-- What a search has noted of a grant is how often the candidates for it have been probed. -/
theorem reachable_noted {x : Stage (List (Grant K) × σ) K}
    (h : Reachable (s.withModel s.model.noting) quota grants ([], m) x) (g : Grant K) :
    x.memory.1.count g = probesOf g x.sweep x.visited + probesOf g (x.sweep - 1) x.pending := by
  induction h with
  | start =>
    simp [Stage.start, probesOf, List.filter_map, Function.comp_def, Candidate.probes,
      Candidate.start]
  | @next x y reached step ih =>
    cases step with
    | turn => simpa using ih
    | @visit k t t' c c' v rest n n' probe =>
      have begun : 1 ≤ k := (reachable_begun reached).1 (by simp)
      cases probe with
      | settled fits =>
        obtain ⟨f, fit⟩ := Option.isSome_iff_exists.1 fits
        simp only [probesOf_append, probesOf_cons, probesOf_nil, Candidate.probes, fit] at ih ⊢
        omega
      | accepted waits asked =>
        rw [InterferenceModel.noting_notes asked, List.count_cons, ih,
          probesOf_visit begun waits (by rfl) (by rfl) g v rest]
        simp
      | lowered waits asked =>
        rw [InterferenceModel.noting_notes asked, List.count_cons, ih,
          probesOf_visit begun waits (by rfl) (by exact Candidate.probes_of_waits waits k) g v rest]
        simp

variable [FloorRing K] [IsStrictOrderedRing K]

/-- No grant is refused as often as it can be probed. -/
theorem refusals_lt {x : Stage σ K} (h : Reachable s quota grants m x) {i : Nat} {c : Candidate K}
    (there : x.candidates[i]? = some c) : x.refusals i c < probeLimit s.floor c.grant := by
  have room := reachable_room h there
  rw [((reachable_descended h).2 i c there).eirp] at room
  exact lt_probeLimit room

theorem Probed.sweep_le {i k : Nat} {g : Grant K} {eirp share level : K}
    (h : Probed s quota grants m i k g eirp share level) : k ≤ probeLimit s.floor g := by
  cases h with
  | @intro k t c v rest n n' level reached waits asked =>
    have fewer := refusals_lt reached (i := v.length) (c := c) (by simp [Stage.candidates])
    simp only [Stage.refusals, waits, Nat.lt_irrefl, ↓reduceIte] at fewer
    omega

/-- While a grant waits at the end of a sweep there is a sweep left for it. -/
theorem sweep_lt {x : Stage σ K} (h : Reachable s quota grants m x) (swept : x.pending = [])
    (waits : x.tally.waiting ≠ 0) : x.sweep < sweepLimit s.floor grants := by
  have balanced := reachable_balanced h
  rw [balanced.waiting, ← Nat.pos_iff_ne_zero, List.countP_pos_iff] at waits
  obtain ⟨c, hc, waiting⟩ := waits
  obtain ⟨i, inside, rfl⟩ := List.mem_iff_getElem.1 hc
  have fewer := refusals_lt h (List.getElem?_eq_getElem inside)
  have limit : probeLimit s.floor x.candidates[i].grant ≤ sweepLimit s.floor grants :=
    probeLimit_le (grant_mem h hc)
  have past : i < x.visited.length := by
    simpa [Stage.candidates, swept] using inside
  simp only [Stage.refusals, Option.isNone_iff_eq_none.1 waiting, past, ↓reduceIte] at fewer
  omega

theorem reachable_sweep_le {x : Stage σ K} (h : Reachable s quota grants m x) :
    x.sweep ≤ sweepLimit s.floor grants := by
  induction h with
  | start => exact Nat.zero_le _
  | next reached step ih =>
    cases step with
    | turn waits => exact sweep_lt reached rfl waits
    | visit => exact ih

/-- A search that is allowed as many sweeps as it can need is not cut off. -/
theorem stopped_of_error {fuel : Nat} (enough : sweepLimit s.floor grants ≤ fuel) {halt : Halt K}
    {n : σ} (run : runFrom (converge s fuel 0 (.start quota grants.length) (grants.map .start)) m =
      (.error halt, n)) : Stopped s quota grants m halt n := by
  obtain stopped | ⟨x, reached, swept, waits, sweeps⟩ := converge_halts .start run
  · exact stopped
  · have := sweep_lt reached swept waits
    omega

theorem probes_le {x : Stage σ K} (h : Reachable s quota grants m x) {c : Candidate K}
    (there : c ∈ x.candidates) : c.probes x.sweep ≤ probeLimit s.floor c.grant := by
  obtain ⟨i, here⟩ := List.mem_iff_getElem?.1 there
  have fewer := refusals_lt h here
  unfold Stage.refusals at fewer
  unfold Candidate.probes
  cases fit : c.fit with
  | some f =>
    simp only [fit] at fewer ⊢
    omega
  | none =>
    simp only [fit] at fewer ⊢
    split at fewer <;> omega

theorem probesOf_candidates_le {x : Stage σ K} (h : Reachable s quota grants m x) (g : Grant K) :
    probesOf g x.sweep x.candidates ≤ grants.count g * probeLimit s.floor g := by
  rw [← (reachable_balanced h).grants_eq]
  apply probesOf_le
  rintro c hc rfl
  exact probes_le h hc

/-- No grant is probed more often than it can be lowered, and once more. -/
theorem noted_le [Rounding.IsExact K] {r : Except (Halt K) (Allocation K)}
    {n : List (Grant K) × σ}
    (run : runFrom (ofGrants (s.withModel s.model.noting) quota grants) ([], m) = (r, n))
    (g : Grant K) : n.1.count g ≤ grants.count g * probeLimit s.floor g := by
  cases r with
  | ok a =>
    obtain ⟨x, reached, -, -, rfl, -⟩ := ofGrants_reaches run
    have all := probesOf_candidates_le reached g
    have earlier := probesOf_mono g x.pending (Nat.sub_le x.sweep 1)
    rw [Stage.candidates, probesOf_append] at all
    rw [reachable_noted reached]
    exact (Nat.add_le_add_left earlier _).trans all
  | error halt =>
    cases stopped_of_error (sweepLimit_le_sweepBound _ grants) (ofGrants_error.1 run) with
    | @intro k t c v rest i n' halt reached stop =>
      have begun : 1 ≤ k := (reachable_begun reached).1 (by simp)
      have waits := stop.waits
      have all := probesOf_candidates_le reached g
      have earlier := probesOf_mono g rest (Nat.sub_le k 1)
      have before : i.1.count g = probesOf g k v + probesOf g (k - 1) (c :: rest) :=
        reachable_noted reached g
      have noted : n.1 = c.grant :: i.1 := by
        cases stop <;> exact InterferenceModel.noting_notes (by assumption)
      simp only [noted, List.count_cons, beq_iff_eq, before]
      rw [← probesOf_visit begun waits rfl (Candidate.probes_of_waits waits k)]
      simp only [Stage.candidates, probesOf_append, probesOf_cons, probesOf_nil] at all ⊢
      exact le_trans (by omega) all

/-- A search that is allowed as many sweeps as it can need comes to what it comes to with just those. -/
theorem converge_eq_of_sweepLimit_le {fuel : Nat} (enough : sweepLimit s.floor grants ≤ fuel) :
    runFrom (converge s fuel 0 (.start quota grants.length) (grants.map .start)) m =
      runFrom (converge s (sweepLimit s.floor grants) 0 (.start quota grants.length)
        (grants.map .start)) m := by
  rcases run : runFrom (converge s (sweepLimit s.floor grants) 0 (.start quota grants.length)
    (grants.map .start)) m with ⟨r, n⟩
  have ended : r ≠ .error .cutOff := by
    rintro rfl
    exact (stopped_of_error le_rfl run).ne_cutOff rfl
  rw [← Nat.add_sub_of_le enough]
  exact converge_enough run ended _

/-- **Every search ends.** To allow more sweeps than there are whole dB between the grants and the floor
changes nothing. A search returns or is refused, or the model breaks down over a grant. No stage is past
the last of those sweeps, and no grant is probed in a later sweep, or more often, than there are whole dB
between it and the floor, and once more. -/
theorem search_ends [Rounding.IsExact K] (s : Setting σ K) (quota : K) (grants : List (Grant K))
    (m : σ) :
    (∀ fuel, sweepLimit s.floor grants ≤ fuel →
      runFrom (converge s fuel 0 (.start quota grants.length) (grants.map .start)) m =
        runFrom (converge s (sweepBound s.floor grants) 0 (.start quota grants.length)
          (grants.map .start)) m) ∧
    ((∃ a n, runFrom (ofGrants s quota grants) m = (.ok a, n) ∧
        a.sweeps ≤ sweepLimit s.floor grants) ∨
      (∃ e n, runFrom (ofGrants s quota grants) m = (.error (.refused e), n)) ∨
      ∃ n, runFrom (ofGrants s quota grants) m = (.error .brokeDown, n) ∧
        ∃ g ∈ grants, ∃ eirp i,
          (s.model.level g eirp s.constraint s.receiver).run i = (none, n)) ∧
    (∀ x, Reachable s quota grants m x → x.sweep ≤ sweepLimit s.floor grants) ∧
    (∀ i k g eirp share level, Probed s quota grants m i k g eirp share level →
      k ≤ probeLimit s.floor g) ∧
    (runFrom (ofGrants (s.withModel s.model.noting) quota grants) ([], m)).1 =
      (runFrom (ofGrants s quota grants) m).1 ∧
    ∀ g, (runFrom (ofGrants (s.withModel s.model.noting) quota grants) ([], m)).2.1.count g ≤
      grants.count g * probeLimit s.floor g := by
  refine ⟨?_, ?_, fun x => reachable_sweep_le, fun i k g eirp share level => Probed.sweep_le, ?_, ?_⟩
  · intro fuel enough
    rw [converge_eq_of_sweepLimit_le enough,
      converge_eq_of_sweepLimit_le (sweepLimit_le_sweepBound s.floor grants)]
  · rcases run : runFrom (ofGrants s quota grants) m with ⟨r, n⟩
    cases r with
    | ok a =>
      obtain ⟨x, reached, -, -, -, rfl⟩ := ofGrants_reaches run
      exact .inl ⟨_, n, rfl, reachable_sweep_le reached⟩
    | error halt =>
      have stopped := stopped_of_error (sweepLimit_le_sweepBound _ grants) (ofGrants_error.1 run)
      cases stopped with
      | @intro k t c v rest i n' halt reached stop =>
        have there : c.grant ∈ grants := grant_mem reached (by simp [Stage.candidates])
        cases stop with
        | brokeDown _ asked => exact .inr (.inr ⟨n, rfl, c.grant, there, c.eirp, i, asked⟩)
        | notFinite => exact .inr (.inl ⟨_, n, rfl⟩)
        | notFalling => exact .inr (.inl ⟨_, n, rfl⟩)
        | floorReached => exact .inr (.inl ⟨_, n, rfl⟩)
  · have search := ofGrants_accompanies s.model.noting_answersAs quota grants
    exact (search m ([], m) rfl).1.symm
  · exact noted_le rfl

/-- A search with a model that counts what it is asked, answers well to the second question alone, and
never by the power. -/
def countingSetting : Setting Nat ℚ where
  model := ⟨fun _ _ _ _ => do
    let asked ← get
    set (asked + 1)
    return some (if asked = 1 then 5 else 30 - (asked : ℚ))⟩
  constraint := plainSetting.constraint
  receiver := plainSetting.receiver
  floor := 17

/-- One grant above the floor and one below it. -/
def loudAndLow : List (Grant ℚ) := [plainGrant "loud" 20 true, plainGrant "low" (33 / 2) false]

theorem search_ends_loud_and_low :
    probeLimit 17 (plainGrant "loud" 20 true) = 4 ∧ probeLimit 17 (plainGrant "low" (33 / 2) false) = 1 ∧
    runFrom (ofGrants countingSetting 25 loudAndLow) 0 =
      (.error (.refused (.floorReached "loud" 17 19)), 5) ∧
    (∀ x, Reachable countingSetting 25 loudAndLow 0 x → x.sweep ≤ 4) ∧
    (runFrom (ofGrants (countingSetting.withModel countingSetting.model.noting) 25 loudAndLow)
      ([], 0)).2.1.count (plainGrant "low" (33 / 2) false) ≤ 1 ∧
    (runFrom (ofGrants (countingSetting.withModel countingSetting.model.noting) 25 loudAndLow)
      ([], 0)).2.1.count (plainGrant "loud" 20 true) = 4 := by
  have most : sweepLimit countingSetting.floor loudAndLow = 4 := by decide +kernel
  obtain ⟨-, -, sweeps, -, -, often⟩ := search_ends countingSetting 25 loudAndLow 0
  rw [most] at sweeps
  refine ⟨by decide +kernel, by decide +kernel, by decide +kernel, sweeps, ?_, by decide +kernel⟩
  have low := often (plainGrant "low" (33 / 2) false)
  rwa [show loudAndLow.count (plainGrant "low" (33 / 2) false) *
    probeLimit countingSetting.floor (plainGrant "low" (33 / 2) false) = 1 by decide +kernel] at low

end Allocation

end SpectrumShare
