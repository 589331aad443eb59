import SpectrumShare.Pool.Basic
import SpectrumShare.Proofs.Pool.Run

/-! # Taking turns is one interleaving

The pool in which a worker runs its task to the end before another takes its turn is a complete run of the
pool in which they interleave, and comes to the same. -/

namespace SpectrumShare.Pool

variable {ι ω ε : Type}

theorem crew_pos (workers : Nat) (items : List ι) : 0 < crew workers items := by
  unfold crew
  omega

namespace State

variable {items : List ι} {task : ι → Task ω ε} {s t u : State ω ε}

/-- From one state to another in some run. -/
def Reaches (items : List ι) (task : ι → Task ω ε) (s u : State ω ε) : Prop :=
  ∃ trace, Run items task s trace u

theorem Reaches.refl (s : State ω ε) : Reaches items task s s := ⟨[], .done s⟩

theorem Reaches.head {w : Nat} {e : Event ε} (first : Step items task s w e t)
    (rest : Reaches items task t u) : Reaches items task s u := by
  obtain ⟨trace, run⟩ := rest
  exact ⟨_, .step first run⟩

theorem Reaches.trans (first : Reaches items task s t) (rest : Reaches items task t u) :
    Reaches items task s u := by
  obtain ⟨past, first⟩ := first
  obtain ⟨trace, rest⟩ := rest
  exact ⟨past ++ trace, first.append rest⟩

variable {shared : ω} {next : Nat} {aborted : Bool} {firstError : Option ε}
  {before others : List (Worker ω ε)}

theorem getElem?_middle (worker : Worker ω ε) :
    (before ++ worker :: others)[before.length]? = some worker := by
  simp

theorem put_middle (old new : Worker ω ε) :
    State.put ⟨shared, next, aborted, firstError, before ++ old :: others⟩ before.length new =
      ⟨shared, next, aborted, firstError, before ++ new :: others⟩ := by
  simp [put]

/-- A worker makes its moves with nobody in between. -/
theorem reaches_moves {i : Nat} {moves : List (ω → ω)} {ending : Ending ε} :
    Reaches items task
      ⟨shared, next, aborted, firstError, before ++ .moving i moves ending :: others⟩
      ⟨makeMoves moves shared, next, aborted, firstError,
        before ++ .moving i [] ending :: others⟩ := by
  induction moves generalizing shared with
  | nil => exact .refl _
  | cons move rest ih =>
    have first := @Step.move _ _ _ items task
      ⟨shared, next, aborted, firstError, before ++ .moving i (move :: rest) ending :: others⟩ _ _ _ _ _
      (getElem?_middle _)
    rw [put_middle] at first
    exact .head first ih

/-- A worker takes the next item and runs its task up to the end. -/
theorem reaches_end {item : ι} (at_next : items[next]? = some item) :
    Reaches items task
      ⟨shared, next, false, none, before ++ .checking :: others⟩
      ⟨((task item).run shared).2, next + 1, false, none,
        before ++ .moving next [] ((task item).run shared).1 :: others⟩ := by
  have within : next < items.length := (List.getElem?_eq_some_iff.1 at_next).1
  have goOn := @Step.goOn _ _ _ items task
    ⟨shared, next, false, none, before ++ .checking :: others⟩ _ (getElem?_middle _) rfl
  have claim := @Step.claim _ _ _ items task
    ⟨shared, next, false, none, before ++ .claiming :: others⟩ _ (getElem?_middle _) within
  have begin := @Step.begin _ _ _ items task
    ⟨shared, next + 1, false, none, before ++ .beginning next :: others⟩ _ _ _ (getElem?_middle _)
    at_next
  rw [put_middle] at goOn claim begin
  exact .head goOn (.head claim (.head begin reaches_moves))

/-- Once the pool is stopped the workers that look at the flag leave. -/
theorem reaches_stopped (n : Nat) :
    Reaches items task
      ⟨shared, next, true, firstError, before ++ List.replicate n .checking⟩
      ⟨shared, next, true, firstError, before ++ List.replicate n .left⟩ := by
  induction n generalizing before with
  | zero => exact .refl _
  | succ n ih =>
    have stop := @Step.stop _ _ _ items task
      ⟨shared, next, true, firstError, before ++ .checking :: List.replicate n .checking⟩ _
      (getElem?_middle _) rfl
    rw [put_middle] at stop
    have others : Reaches items task
        ⟨shared, next, true, firstError, before ++ [.left] ++ List.replicate n .checking⟩
        ⟨shared, next, true, firstError, before ++ [.left] ++ List.replicate n .left⟩ := ih
    rw [← List.append_cons, ← List.append_cons] at others
    exact .head stop others

/-- A worker whose task failed stops the pool, and the others leave. -/
theorem reaches_failed {i : Nat} (n : Nat) (x : ε) :
    Reaches items task
      ⟨shared, next, false, none,
        before ++ .moving i [] (.failed x) :: List.replicate n .checking⟩
      ⟨shared, next, true, some x, before ++ .left :: List.replicate n .left⟩ := by
  have fail := @Step.fail _ _ _ items task
    ⟨shared, next, false, none, before ++ .moving i [] (.failed x) :: List.replicate n .checking⟩
    _ _ _ (getElem?_middle _)
  have raise := @Step.raise _ _ _ items task
    ⟨shared, next, false, none, before ++ .raising x :: List.replicate n .checking⟩ _ _
    (getElem?_middle _)
  have report := @Step.report _ _ _ items task
    ⟨shared, next, true, none, before ++ .reporting x :: List.replicate n .checking⟩ _ _
    (getElem?_middle _)
  rw [put_middle] at fail raise report
  have others : Reaches items task
      ⟨shared, next, true, some x, before ++ [.left] ++ List.replicate n .checking⟩
      ⟨shared, next, true, some x, before ++ [.left] ++ List.replicate n .left⟩ := reaches_stopped n
  rw [← List.append_cons, ← List.append_cons] at others
  exact .head fail (.head raise (.head report others))

/-- Once the items have run out the workers that look for one leave. -/
theorem reaches_ended (n : Nat) (ended : items.length ≤ next) :
    Reaches items task
      ⟨shared, next, false, none, before ++ List.replicate n .checking⟩
      ⟨shared, next + n, false, none, before ++ List.replicate n .left⟩ := by
  induction n generalizing before next with
  | zero => exact .refl _
  | succ n ih =>
    have goOn := @Step.goOn _ _ _ items task
      ⟨shared, next, false, none, before ++ .checking :: List.replicate n .checking⟩ _
      (getElem?_middle _) rfl
    have runOut := @Step.runOut _ _ _ items task
      ⟨shared, next, false, none, before ++ .claiming :: List.replicate n .checking⟩ _
      (getElem?_middle _) ended
    rw [put_middle] at goOn runOut
    have others : Reaches items task
        ⟨shared, next + 1, false, none, before ++ [.left] ++ List.replicate n .checking⟩
        ⟨shared, next + 1 + n, false, none, before ++ [.left] ++ List.replicate n .left⟩ :=
      ih (by omega)
    rw [← List.append_cons, ← List.append_cons, Nat.add_right_comm] at others
    exact .head goOn (.head runOut others)

theorem over_gone (lost left : Nat) :
    Over (⟨shared, next, aborted, firstError,
      List.replicate lost .lost ++ List.replicate left .left⟩ : State ω ε) := by
  intro worker there
  rcases List.mem_append.1 there with there | there
  · rw [List.eq_of_mem_replicate there]
  · rw [List.eq_of_mem_replicate there]

theorem verdict_gone (lost left : Nat) :
    verdict (⟨shared, next, aborted, none,
      List.replicate lost .lost ++ List.replicate left .left⟩ : State ω ε) =
      if 0 < lost then .workerLost else .completed := by
  cases lost with
  | zero => simp [verdict]
  | succ lost => simp [verdict, List.replicate_succ]

/-- The turns of a pool are a run of it, up to the end. -/
theorem reaches_turns {rest : List ι} (at_next : items.drop next = rest) (lost workers : Nat)
    (some_worker : 0 < lost + workers) :
    ∃ u, Reaches items task
        ⟨shared, next, false, none,
          List.replicate lost .lost ++ List.replicate workers .checking⟩ u ∧
      u.Over ∧ (u.verdict, u.shared) = turns task rest workers (decide (0 < lost)) shared := by
  induction rest generalizing shared next lost workers with
  | nil =>
    have ended : items.length ≤ next := List.drop_eq_nil_iff.1 at_next
    refine ⟨_, reaches_ended workers ended, over_gone _ _, ?_⟩
    rw [verdict_gone]
    simp [turns]
  | cons item rest ih =>
    have here : items[next]? = some item := by
      rw [← List.head?_drop, at_next]
      rfl
    have later : items.drop (next + 1) = rest := by
      rw [← List.tail_drop, at_next]
      rfl
    cases workers with
    | zero =>
      refine ⟨_, .refl _, over_gone lost 0, ?_⟩
      have one : 0 < lost := some_worker
      rw [List.replicate_zero, ← List.replicate_zero, verdict_gone, if_pos one]
      rfl
    | succ workers =>
      have turn : Reaches items task
          ⟨shared, next, false, none,
            List.replicate lost .lost ++ .checking :: List.replicate workers .checking⟩
          ⟨((task item).run shared).2, next + 1, false, none,
            List.replicate lost .lost ++
              .moving next [] ((task item).run shared).1 :: List.replicate workers .checking⟩ :=
        reaches_end here
      rw [List.replicate_succ]
      rcases ran : (task item).run shared with ⟨ending, after⟩
      rw [ran] at turn
      cases ending with
      | passed =>
        have pass := @Step.pass _ _ _ items task
          ⟨after, next + 1, false, none, List.replicate lost .lost ++
            .moving next [] .passed :: List.replicate workers .checking⟩ _ _ (getElem?_middle _)
        rw [put_middle] at pass
        obtain ⟨u, goes_on, gone, same⟩ := @ih after _ later lost (workers + 1) (by omega)
        refine ⟨u, turn.trans (.head pass goes_on), gone, ?_⟩
        rw [same, turns, ran]
      | failed x =>
        refine ⟨_, turn.trans (reaches_failed workers x), ?_, ?_⟩
        · rw [← List.replicate_succ]
          exact over_gone lost (workers + 1)
        · rw [turns, ran]
          rfl
      | broke =>
        have breakDown := @Step.breakDown _ _ _ items task
          ⟨after, next + 1, false, none, List.replicate lost .lost ++
            .moving next [] .broke :: List.replicate workers .checking⟩ _ _ (getElem?_middle _)
        rw [put_middle, List.append_cons _ Worker.lost, ← List.replicate_succ'] at breakDown
        obtain ⟨u, goes_on, gone, same⟩ := @ih after _ later (lost + 1) workers (by omega)
        refine ⟨u, turn.trans (.head breakDown goes_on), gone, ?_⟩
        rw [same, turns, ran, decide_eq_true (Nat.succ_pos lost)]

end State

/-- Taking turns is one of the ways in which the workers may interleave. -/
theorem run_interleaves (workers : Nat) (items : List ι) (task : ι → Task ω ε) (shared : ω) :
    ∃ trace u, State.Run items task (.start (crew workers items) shared) trace u ∧ u.Over ∧
      (u.verdict, u.shared) = run workers items task shared := by
  have some_worker : 0 < 0 + crew workers items := by
    unfold crew
    omega
  obtain ⟨u, ⟨trace, ran⟩, gone, same⟩ :=
    @State.reaches_turns _ _ _ items task shared 0 items rfl 0 (crew workers items) some_worker
  exact ⟨trace, u, ran, gone, same⟩

end SpectrumShare.Pool
