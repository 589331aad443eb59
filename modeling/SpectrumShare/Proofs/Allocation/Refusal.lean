import SpectrumShare.Proofs.Allocation.Lowering
import SpectrumShare.Proofs.Allocation.Termination

/-! # Refusals are justified

What has to be so of a grant for a search to refuse it, when it is probed where it stands. A search under a
model without memory ends with no refusal where every answer is finite, the answers fall, and every grant
can reach an even split. -/

namespace SpectrumShare.Allocation

open Scalar

variable {σ K : Type} [Field K] [LinearOrder K] [Rounding K] [Decibel K]

/-- A grant that is probed has gone down by one dB in each sweep before, and not below the floor. -/
theorem Probed.standing [IsStrictOrderedRing K] {s : Setting σ K} {quota : K}
    {grants : List (Grant K)} {m : σ} {i k : Nat} {g : Grant K} {eirp share answer : K}
    (h : Probed s quota grants m i k g eirp share answer) :
    grants[i]? = some g ∧
      ∃ r, k = r + 1 ∧ eirp = g.maxEirp - (r : K) ∧ (0 < r → s.floor ≤ eirp) := by
  cases h with
  | @intro k t c v rest n n' answer reached waits asked =>
    have there : (⟨k, t, v, c :: rest, n⟩ : Stage σ K).candidates[v.length]? = some c := by
      simp [Stage.candidates]
    have begun : 1 ≤ k := (reachable_begun reached).1 (by simp)
    have refusals : (⟨k, t, v, c :: rest, n⟩ : Stage σ K).refusals v.length c = k - 1 := by
      simp [Stage.refusals, waits]
    have came := ((reachable_descended reached).2 _ c there).eirp
    have room := reachable_room reached there
    rw [refusals] at came room
    refine ⟨?_, k - 1, (Nat.sub_add_cancel begun).symm, came, room⟩
    rw [← (reachable_balanced reached).grants_eq, List.getElem?_map, there]
    rfl

section

variable (level : Grant K → K → Constraint K → Receiver K → K) (constraint : Constraint K)
  (receiver : Receiver K) (floor quota : K) (grants : List (Grant K)) (m : σ)

/-- What has to be so of a grant when a search is refused over it. -/
inductive Justified : Error K → Prop
  | notFinite {i k : Nat} {g : Grant K} {share : K} (there : grants[i]? = some g)
      (probed : Probed ⟨.pure level, constraint, receiver, floor⟩ quota grants m i (k + 1) g
        (g.maxEirp - (k : K)) share (level g (g.maxEirp - (k : K)) constraint receiver))
      (marked : isFinite (level g (g.maxEirp - (k : K)) constraint receiver) = false) :
      Justified (.notFinite g.id (level g (g.maxEirp - (k : K)) constraint receiver))
  | notFalling {i k : Nat} {g : Grant K} {share : K} (there : grants[i]? = some g)
      (probed : Probed ⟨.pure level, constraint, receiver, floor⟩ quota grants m i (k + 2) g
        (g.maxEirp - ((k + 1 : Nat) : K)) share
        (level g (g.maxEirp - ((k + 1 : Nat) : K)) constraint receiver))
      (before : isFinite (powerBelow level constraint receiver g k) = true)
      (after : isFinite (powerBelow level constraint receiver g (k + 1)) = true)
      (rises : powerBelow level constraint receiver g k ≤ powerBelow level constraint receiver g (k + 1)) :
      Justified (.notFalling g.id (g.maxEirp - ((k + 1 : Nat) : K))
        (powerBelow level constraint receiver g k) (powerBelow level constraint receiver g (k + 1)))
  | floorReached {i k : Nat} {g : Grant K} {share : K} (there : grants[i]? = some g)
      (probed : Probed ⟨.pure level, constraint, receiver, floor⟩ quota grants m i (k + 1) g
        (g.maxEirp - (k : K)) share (level g (g.maxEirp - (k : K)) constraint receiver))
      (last : ∀ k' eirp' share' answer', Probed ⟨.pure level, constraint, receiver, floor⟩ quota grants m
        i k' g eirp' share' answer' → k' ≤ k + 1)
      (finite : isFinite (powerBelow level constraint receiver g k) = true)
      (above : share ≤ powerBelow level constraint receiver g k)
      (fair : quota / grants.length ≤ share) (low : g.maxEirp - ((k + 1 : Nat) : K) < floor) :
      Justified (.floorReached g.id floor share)

end

variable [IsStrictOrderedRing K] {level : Grant K → K → Constraint K → Receiver K → K}
  {constraint : Constraint K} {receiver : Receiver K} {floor quota : K} {grants : List (Grant K)} {m : σ}

/-- A visit under a model without memory stops a search only for a reason. -/
theorem Stopped.justified
    (tame : ∀ answer : K, isFinite answer = true → isFinite (Decibel.toLinear answer) = true)
    {halt : Halt K} {n : σ}
    (h : Stopped ⟨.pure level, constraint, receiver, floor⟩ quota grants m halt n) :
    ∃ e, halt = .refused e ∧ Justified level constraint receiver floor quota grants m e := by
  cases h with
  | @intro k t c v rest n n' halt reached stop =>
    have waits := stop.waits
    have begun : 1 ≤ k := (reachable_begun reached).1 (by simp)
    obtain ⟨r, rfl⟩ := Nat.exists_eq_add_of_le' begun
    have fell := reachable_fallen reached (i := v.length) (c := c) (by simp [Stage.candidates])
    have refusals : (⟨r + 1, t, v, c :: rest, n⟩ : Stage σ K).refusals v.length c = r := by
      simp [Stage.refusals, waits]
    rw [refusals] at fell
    obtain ⟨g, eirp, previous, fit⟩ := c
    obtain rfl : eirp = g.maxEirp - (r : K) := fell.eirp
    cases stop with
    | brokeDown _ asked => cases asked
    | notFinite _ asked marked =>
      have probed := Probed.intro reached waits asked
      obtain rfl := probed.level_eq
      refine ⟨_, rfl, .notFinite probed.standing.1 probed ?_⟩
      by_contra finite
      rw [tame _ (Bool.eq_true_of_not_eq_false finite)] at marked
      cases marked
    | notFalling _ asked finite before rises =>
      have probed := Probed.intro reached waits asked
      obtain rfl := probed.level_eq
      obtain ⟨j, rfl, rfl⟩ := (fell.previous _).1 before
      exact ⟨_, rfl, .notFalling probed.standing.1 probed (fell.finite j (Nat.lt_succ_self j)) finite
        rises⟩
    | floorReached _ asked finite _ above low =>
      have probed := Probed.intro reached waits asked
      obtain rfl := probed.level_eq
      have lower : g.maxEirp - ((r + 1 : Nat) : K) < floor := by
        push_cast
        linarith
      refine ⟨_, rfl, .floorReached probed.standing.1 probed ?_ finite above probed.least_le lower⟩
      intro k' eirp share answer later
      obtain ⟨-, r', rfl, rfl, room⟩ := later.standing
      by_contra past
      have further : ((r + 1 : Nat) : K) ≤ r' := by exact_mod_cast (by omega : r + 1 ≤ r')
      have above := room (by omega)
      exact absurd (lower.trans_le above) (by linarith)

variable [FloorRing K] [Rounding.IsExact K]

/-- **Refusals are justified.** A search under a model without memory that does not return is refused, and
the refusal tells the truth: the answer it names is not finite, or is not below the one of 1 dB more, or
the grant could go no lower while it still failed a share that is at least an even split. Where none of
this can be so, because every answer is finite, the answers fall from step to step, and every grant causes
less than an even split somewhere above the floor or at its maximum, the search returns. -/
theorem refusals_justified
    (tame : ∀ answer : K, isFinite answer = true → isFinite (Decibel.toLinear answer) = true)
    (level : Grant K → K → Constraint K → Receiver K → K) (constraint : Constraint K)
    (receiver : Receiver K) (floor quota : K) (grants : List (Grant K)) (m : σ) :
    (∀ halt n, runFrom (ofGrants ⟨.pure level, constraint, receiver, floor⟩ quota grants) m =
        (.error halt, n) →
      ∃ e, halt = .refused e ∧ Justified level constraint receiver floor quota grants m e) ∧
    ((∀ g ∈ grants, ∀ k : Nat, isFinite (level g (g.maxEirp - (k : K)) constraint receiver) = true) →
      (∀ g ∈ grants, ∀ k : Nat, powerBelow level constraint receiver g (k + 1) <
        powerBelow level constraint receiver g k) →
      (∀ g ∈ grants, ∃ k : Nat, (k = 0 ∨ floor ≤ g.maxEirp - (k : K)) ∧
        powerBelow level constraint receiver g k < quota / grants.length) →
      ∃ a n, runFrom (ofGrants ⟨.pure level, constraint, receiver, floor⟩ quota grants) m =
        (.ok a, n)) := by
  have justified : ∀ halt n,
      runFrom (ofGrants ⟨.pure level, constraint, receiver, floor⟩ quota grants) m =
        (.error halt, n) →
      ∃ e, halt = .refused e ∧ Justified level constraint receiver floor quota grants m e := by
    intro halt n run
    exact (stopped_of_error (sweepLimit_le_sweepBound _ grants) (ofGrants_error.1 run)).justified tame
  refine ⟨justified, ?_⟩
  intro finite falls reaches
  rcases run : runFrom (ofGrants ⟨.pure level, constraint, receiver, floor⟩ quota grants) m with ⟨r, n⟩
  cases r with
  | ok a => exact ⟨a, n, rfl⟩
  | error halt =>
    obtain ⟨e, -, reason⟩ := justified halt n run
    cases reason with
    | @notFinite i k g _ there _ marked =>
      rw [finite g (List.mem_of_getElem? there) k] at marked
      cases marked
    | @notFalling i k g _ there _ _ _ rises =>
      exact absurd (falls g (List.mem_of_getElem? there) k) rises.not_gt
    | @floorReached i k g share there _ _ _ above fair low =>
      have inside := List.mem_of_getElem? there
      obtain ⟨steps, room, below⟩ := reaches g inside
      have fewer : powerBelow level constraint receiver g steps <
          powerBelow level constraint receiver g k := below.trans_le (fair.trans above)
      -- Answers fall on the way down, so the one that serves is further down than the last.
      have further : k < steps := (strictAnti_nat_of_succ_lt (falls g inside)).lt_iff_gt.1 fewer
      have lower : ((k + 1 : Nat) : K) ≤ steps := by exact_mod_cast further
      rcases room with none | room
      · omega
      · exact absurd (low.trans_le room) (by linarith)

/-- Over a high floor the third grant is refused; with room enough all three fit. -/
theorem refusals_justified_three_grants :
    (∀ answer : ℚ, isFinite answer = true → isFinite (Decibel.toLinear answer) = true) ∧
    runFrom (ofGrants ⟨plainSetting.model, plainSetting.constraint, plainSetting.receiver, 17⟩ 30
      threeGrants) () = (.error (.refused (.floorReached "loud" 17 (82 / 5))), ()) ∧
    Justified (fun _ eirp _ _ => eirp) plainSetting.constraint plainSetting.receiver 17 30 threeGrants ()
      (.floorReached "loud" 17 (82 / 5)) ∧
    ∃ a n, runFrom (ofGrants plainSetting 30 threeGrants) () = (.ok a, n) := by
  have tame : ∀ answer : ℚ, isFinite answer = true → isFinite (Decibel.toLinear answer) = true :=
    fun _ _ => rfl
  have refused : runFrom (ofGrants
      ⟨plainSetting.model, plainSetting.constraint, plainSetting.receiver, 17⟩ 30 threeGrants) () =
      (.error (.refused (.floorReached "loud" 17 (82 / 5))), ()) := by decide +kernel
  obtain ⟨justified, -⟩ := refusals_justified tame (fun _ eirp _ _ => eirp) plainSetting.constraint
    plainSetting.receiver 17 30 threeGrants ()
  obtain ⟨-, returns⟩ := refusals_justified tame (fun _ eirp _ _ => eirp) plainSetting.constraint
    plainSetting.receiver (-150) 30 threeGrants ()
  refine ⟨tame, refused, ?_, returns ?_ ?_ ?_⟩
  · obtain ⟨e, same, reason⟩ := justified _ _ refused
    cases same
    exact reason
  · exact fun _ _ _ => rfl
  · intro g _ k
    apply toLinear_strictMono
    push_cast
    linarith
  · intro g hg
    simp only [threeGrants, List.mem_cons, List.not_mem_nil, or_false] at hg
    rcases hg with rfl | rfl | rfl
    · exact ⟨0, .inl rfl, by decide +kernel⟩
    · exact ⟨3, .inr (by decide +kernel), by decide +kernel⟩
    · exact ⟨12, .inr (by decide +kernel), by decide +kernel⟩

end SpectrumShare.Allocation
