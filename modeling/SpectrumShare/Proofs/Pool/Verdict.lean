import Mathlib.Algebra.Order.Group.Nat
import Mathlib.Data.Finset.Card
import SpectrumShare.Proofs.Pool.Interleaving

/-! # What a complete run of the pool shows

Once every worker has left or is lost nobody has an item or an error in hand, so the balances of a run
become equations about its trace, which tell what the pool comes to from what its tasks came to. -/

namespace SpectrumShare.Pool

namespace State

variable {ι ω ε : Type} {items : List ι} {task : ι → Task ω ε} {shared : ω} {crew : Nat}
  {s u : State ω ε} {trace : List (Nat × Event ε)}

section

theorem start_held (i : Nat) : (start crew shared : State ω ε).held i = 0 := by
  simp [start, held, Worker.item?]

theorem start_lost : (start crew shared : State ω ε).lost = 0 := by
  simp [start, lost, Worker.isLost]

theorem start_carries_not (x : ε) : ¬ (start crew shared : State ω ε).Carries x := by
  rintro (first | ⟨worker, there, error⟩)
  · cases first
  · rw [List.eq_of_mem_replicate there] at error
    cases error

theorem start_sound : Sound items (start crew shared : State ω ε) where
  aborted stopped := by cases stopped
  left there := by cases List.eq_of_mem_replicate there

theorem start_placed : Placed items (start crew shared : State ω ε) := by
  intro i there
  cases List.eq_of_mem_replicate there

theorem start_faithful : Faithful items task (start crew shared) := by
  intro i moves ending there
  cases List.eq_of_mem_replicate there

end

section

theorem Over.left_or_lost (gone : s.Over) {worker : Worker ω ε} (there : worker ∈ s.workers) :
    worker = .left ∨ worker = .lost := by
  have stands := gone worker there
  cases worker <;> simp_all

theorem Over.not_step (gone : s.Over) {w : Nat} {e : Event ε} : ¬ Step items task s w e u := by
  intro h
  cases h with
  | stop here | goOn here | claim here | runOut here | begin here | move here | pass here | fail here
  | breakDown here | raise here | report here =>
    rcases gone.left_or_lost (List.mem_of_getElem? here) with same | same <;> cases same

theorem Over.held_eq_zero (gone : s.Over) (i : Nat) : s.held i = 0 := by
  apply List.sum_eq_zero
  intro n there
  obtain ⟨worker, here, rfl⟩ := List.mem_map.1 there
  rcases gone.left_or_lost here with rfl | rfl <;> rfl

/-- When everyone is gone the error that was reported first is all there is. -/
theorem Over.carries_iff (gone : s.Over) (x : ε) : s.Carries x ↔ s.firstError = some x := by
  refine ⟨?_, .inl⟩
  rintro (first | ⟨worker, there, error⟩)
  · exact first
  · rcases gone.left_or_lost there with rfl | rfl <;> cases error

theorem lost_pos_iff : 0 < s.lost ↔ .lost ∈ s.workers := by
  constructor
  · intro some_lost
    by_contra none_lost
    refine some_lost.ne' (List.sum_eq_zero fun n there => ?_)
    obtain ⟨worker, here, rfl⟩ := List.mem_map.1 there
    cases worker <;> first | rfl | exact absurd here none_lost
  · intro there
    have counted : 1 ∈ s.workers.map fun worker => worker.isLost.toNat :=
      List.mem_map.2 ⟨_, there, rfl⟩
    exact List.le_sum_of_mem counted

theorem Over.left (gone : s.Over) (fewer : s.lost < s.workers.length) : .left ∈ s.workers := by
  by_contra none_left
  have all_lost : ∀ worker ∈ s.workers, worker.isLost.toNat = 1 := by
    intro worker there
    rcases gone.left_or_lost there with rfl | rfl
    · exact absurd there none_left
    · rfl
  have count : s.lost = s.workers.length := by
    rw [lost, List.map_congr_left all_lost]
    simp
  omega

theorem verdict_of_error {x : ε} (first : s.firstError = some x) : s.verdict = .failed x := by
  rw [verdict, first]

theorem verdict_of_none (first : s.firstError = none) :
    s.verdict = if 0 < s.lost then .workerLost else .completed := by
  rw [verdict, first]
  refine if_congr ?_ rfl rfl
  rw [lost_pos_iff, List.any_eq_true]
  constructor
  · rintro ⟨worker, there, is_lost⟩
    cases worker <;> simp_all
  · exact fun there => ⟨_, there, rfl⟩

theorem verdict_completed_iff :
    s.verdict = .completed ↔ s.firstError = none ∧ ¬ 0 < s.lost := by
  cases first : s.firstError with
  | some x => simp [verdict_of_error first]
  | none =>
    rw [verdict_of_none first]
    split <;> simp [*]

end

section

variable (run : Run items task (.start crew shared) trace u) (gone : u.Over)
include run

theorem Run.over_of_stuck (stuck : ∀ w e t, ¬ Step items task u w e t) : u.Over := by
  refine (run.over_or_step start_placed).resolve_right ?_
  rintro ⟨w, e, t, next⟩
  exact stuck w e t next

theorem Run.starts_eq_take : starts trace = (List.range items.length).take u.next := by
  have order := run.starts_eq
  rw [List.take_range, ← order]
  simp [start]

theorem Run.starts_nodup : (starts trace).Nodup := by
  rw [run.starts_eq_take]
  exact List.nodup_range.sublist (List.take_sublist _ _)

/-- The workers that are lost are as many as the tasks that broke down. -/
theorem Run.lost_eq : u.lost = (endings trace).countP (·.2.isBroke) := by
  rw [← run.lost_balance, start_lost, Nat.zero_add]

theorem Run.lost_pos_iff : 0 < u.lost ↔ ∃ i, (i, .broke) ∈ endings trace := by
  rw [run.lost_eq, List.countP_pos_iff]
  constructor
  · rintro ⟨⟨i, ending⟩, ended, is_broke⟩
    cases ending with
    | broke => exact ⟨i, ended⟩
    | passed | failed => cases is_broke
  · rintro ⟨i, ended⟩
    exact ⟨_, ended, rfl⟩

include gone

theorem Run.ended_once : ((endings trace).map (·.1)).Perm (starts trace) := by
  rw [List.perm_iff_count]
  intro i
  have balance := run.held_balance i
  rw [start_held, gone.held_eq_zero] at balance
  omega

theorem Run.mem_starts_iff {i : Nat} :
    i ∈ starts trace ↔ ∃ ending, (i, ending) ∈ endings trace := by
  rw [← (run.ended_once gone).mem_iff, List.mem_map]
  constructor
  · rintro ⟨⟨_, ending⟩, ended, rfl⟩
    exact ⟨ending, ended⟩
  · rintro ⟨ending, ended⟩
    exact ⟨_, ended, rfl⟩

theorem Run.ending_unique {i : Nat} {a b : Ending ε} (one : (i, a) ∈ endings trace)
    (other : (i, b) ∈ endings trace) : a = b := by
  have once := (run.ended_once gone).nodup_iff.2 run.starts_nodup
  have same := List.inj_on_of_nodup_map once one other rfl
  exact congrArg Prod.snd same

theorem Run.failed_of_firstError {x : ε} (first : u.firstError = some x) :
    ∃ i, (i, .failed x) ∈ endings trace := by
  have carried := (gone.carries_iff x).2 first
  exact (run.carries carried).resolve_left (start_carries_not x)

theorem Run.firstError_of_failed {i : Nat} {x : ε} (failed : (i, .failed x) ∈ endings trace) :
    ∃ y, u.firstError = some y := by
  obtain ⟨y, carried⟩ := run.troubled (.inr ⟨i, x, failed⟩)
  exact ⟨y, (gone.carries_iff y).1 carried⟩

/-- There is no error just when no task failed. -/
theorem Run.firstError_eq_none_iff :
    u.firstError = none ↔ ∀ i x, (i, .failed x) ∉ endings trace := by
  constructor
  · intro first i x failed
    obtain ⟨y, reported⟩ := run.firstError_of_failed gone failed
    rw [first] at reported
    cases reported
  · intro none_failed
    by_contra some_error
    obtain ⟨x, first⟩ := Option.ne_none_iff_exists'.1 some_error
    obtain ⟨i, failed⟩ := run.failed_of_firstError gone first
    exact none_failed i x failed

/-- While no task fails and fewer break down than there are workers, the items are all started. -/
theorem Run.all_started (first : u.firstError = none)
    (fewer : (endings trace).countP (·.2.isBroke) < crew) :
    starts trace = List.range items.length := by
  have someone : .left ∈ u.workers := by
    apply gone.left
    rw [run.lost_eq, run.crew]
    simpa [start] using fewer
  have ran_out : items.length ≤ u.next := by
    refine ((run.sound start_sound).left someone).resolve_left ?_
    rintro ⟨x, carried⟩
    rw [gone.carries_iff, first] at carried
    cases carried
  rw [run.starts_eq_take, List.take_of_length_le]
  rwa [List.length_range]

/-- No more tasks break down than there are items whose task may. -/
theorem Run.broke_le {breaking : Finset Nat}
    (may_break : ∀ i, (i, .broke) ∈ endings trace → i ∈ breaking) :
    (endings trace).countP (·.2.isBroke) ≤ breaking.card := by
  rw [List.countP_eq_length_filter, ← List.length_map (f := (·.1))]
  have once : (((endings trace).filter (·.2.isBroke)).map (·.1)).Nodup :=
    ((run.ended_once gone).nodup_iff.2 run.starts_nodup).sublist (List.filter_sublist.map _)
  rw [← List.toFinset_card_of_nodup once]
  refine Finset.card_le_card fun i there => ?_
  obtain ⟨⟨j, ending⟩, broke, rfl⟩ := List.mem_map.1 (List.mem_toFinset.1 there)
  obtain ⟨ended, is_broke⟩ := List.mem_filter.1 broke
  cases ending with
  | broke => exact may_break j ended
  | passed | failed => cases is_broke

/-- The pool completes when the tasks of all items have passed, and only then. -/
theorem Run.completed_iff (some_worker : 0 < crew) :
    u.verdict = .completed ↔ ∀ i < items.length, (i, .passed) ∈ endings trace := by
  rw [verdict_completed_iff]
  constructor
  · rintro ⟨first, none_lost⟩ i within
    have none_broke : (endings trace).countP (·.2.isBroke) < crew := by
      rw [← run.lost_eq]
      omega
    have started : i ∈ starts trace := by
      rw [run.all_started gone first none_broke]
      exact List.mem_range.2 within
    obtain ⟨ending, ended⟩ := (run.mem_starts_iff gone).1 started
    cases ending with
    | passed => exact ended
    | failed x => exact absurd ended ((run.firstError_eq_none_iff gone).1 first i x)
    | broke => exact absurd (run.lost_pos_iff.2 ⟨i, ended⟩) none_lost
  · intro passed
    have only_passed : ∀ {i ending}, (i, ending) ∈ endings trace → ending = .passed := by
      intro i ending ended
      have started : i ∈ starts trace := (run.mem_starts_iff gone).2 ⟨ending, ended⟩
      rw [run.starts_eq_take] at started
      have within := List.mem_range.1 (List.mem_of_mem_take started)
      exact run.ending_unique gone ended (passed i within)
    constructor
    · rw [run.firstError_eq_none_iff gone]
      intro i x failed
      cases only_passed failed
    · intro some_lost
      obtain ⟨i, broke⟩ := run.lost_pos_iff.1 some_lost
      cases only_passed broke

end

end State

section

open State

variable {ι ω ε : Type}

/-- **Each item once, and the right verdict.** However the workers interleave, the pool is over when
nobody can go on. Then no item was started twice and those that were started come first in the list;
the pool completes if all items have passed, it fails with the error of a task if one failed, and a
worker that was lost without any failure is told. Taking turns is one of these ways. -/
theorem verdict_accounts (workers : Nat) (items : List ι) (task : ι → Task ω ε) (shared : ω) :
    (∃ trace u, Run items task (.start (crew workers items) shared) trace u ∧ u.Over ∧
      (u.verdict, u.shared) = run workers items task shared) ∧
    ∀ trace u, Run items task (.start (crew workers items) shared) trace u →
      (∀ w e t, ¬ Step items task u w e t) →
      u.Over ∧ (starts trace).Nodup ∧
      starts trace <+: List.range items.length ∧
      ((endings trace).map (·.1)).Perm (starts trace) ∧
      (∀ i ending, (i, ending) ∈ endings trace → MayEnd items task i ending) ∧
      (u.verdict = .completed ↔ ∀ i < items.length, (i, .passed) ∈ endings trace) ∧
      ((∃ i x, (i, .failed x) ∈ endings trace) →
        ∃ i x, (i, .failed x) ∈ endings trace ∧ u.verdict = .failed x) ∧
      ((∀ i x, (i, .failed x) ∉ endings trace) → (∃ i, (i, .broke) ∈ endings trace) →
        u.verdict = .workerLost) ∧
      ∀ breaking : Finset Nat,
        (∀ i x, ¬ MayEnd items task i (.failed x)) →
        (∀ i, MayEnd items task i .broke → i ∈ breaking) →
        breaking.card < crew workers items →
        ∀ i < items.length, (starts trace).count i = 1 := by
  refine ⟨run_interleaves workers items task shared, fun trace u ran stuck => ?_⟩
  have gone : u.Over := by
    refine (ran.over_or_step start_placed).resolve_right ?_
    rintro ⟨w, e, t, next⟩
    exact stuck w e t next
  have some_worker : 0 < crew workers items := by
    unfold crew
    omega
  have ends_own : ∀ i ending, (i, ending) ∈ endings trace → MayEnd items task i ending :=
    fun _ _ ended => ran.mayEnd start_faithful ended
  refine ⟨gone, ran.starts_nodup, ?_, ran.ended_once gone, ends_own,
    ran.completed_iff gone some_worker, ?_, ?_, ?_⟩
  · rw [ran.starts_eq_take]
    exact List.take_prefix _ _
  · rintro ⟨i, x, failed⟩
    obtain ⟨y, first⟩ := ran.firstError_of_failed gone failed
    obtain ⟨j, reported⟩ := ran.failed_of_firstError gone first
    exact ⟨j, y, reported, verdict_of_error first⟩
  · intro none_failed some_broke
    have first := (ran.firstError_eq_none_iff gone).2 none_failed
    rw [verdict_of_none first, if_pos (ran.lost_pos_iff.2 some_broke)]
  · intro breaking none_fails may_break fewer i within
    have first : u.firstError = none :=
      (ran.firstError_eq_none_iff gone).2 fun i x failed => none_fails i x (ends_own _ _ failed)
    have broke := ran.broke_le gone fun i ended => may_break i (ends_own _ _ ended)
    rw [ran.all_started gone first (broke.trans_lt fewer)]
    exact List.count_eq_one_of_mem List.nodup_range (List.mem_range.2 within)

/-- Of three tasks the second breaks down. -/
def breaksSecond (i : Nat) : Task (List Nat) Unit :=
  fun _ => ([(· ++ [i])], if i = 1 then .broke else .passed)

/-- Two workers, who take a task each; the second one is lost while the first is still at work. -/
def interleaved : List (Nat × Event Unit) :=
  [(0, .quiet), (1, .quiet), (1, .started 0), (0, .started 1), (0, .quiet), (1, .quiet), (1, .quiet),
    (0, .quiet), (0, .ended 1 .broke), (1, .ended 0 .passed), (1, .quiet), (1, .started 2),
    (1, .quiet), (1, .quiet), (1, .ended 2 .passed), (1, .quiet), (1, .quiet)]

theorem interleaved_run :
    Run [0, 1, 2] breaksSecond (.start 2 []) interleaved
      ⟨[0, 1, 2], 4, false, none, [.lost, .left]⟩ :=
  .step (.goOn rfl rfl) <| .step (.goOn rfl rfl) <| .step (.claim rfl (by decide)) <|
  .step (.claim rfl (by decide)) <| .step (.begin rfl rfl) <| .step (.begin rfl rfl) <|
  .step (.move rfl) <| .step (.move rfl) <| .step (.breakDown rfl) <| .step (.pass rfl) <|
  .step (.goOn rfl rfl) <| .step (.claim rfl (by decide)) <| .step (.begin rfl rfl) <|
  .step (.move rfl) <| .step (.pass rfl) <| .step (.goOn rfl rfl) <|
  .step (.runOut rfl (by decide)) <| .done _

theorem breaksSecond_ends {i : Nat} {ending : Ending Unit}
    (ends : MayEnd [0, 1, 2] breaksSecond i ending) :
    ending = .passed ∨ ending = .broke ∧ i = 1 := by
  obtain ⟨item, shared, here, rfl⟩ := ends
  by_cases second : item = 1
  · refine .inr ⟨if_pos second, ?_⟩
    obtain _ | _ | _ | i := i <;> simp_all
  · exact .inl (if_neg second)

theorem verdict_accounts_one_lost :
    ∃ trace u, Run [0, 1, 2] breaksSecond (.start (crew 2 [0, 1, 2]) []) trace u ∧
      (∀ w e t, ¬ Step [0, 1, 2] breaksSecond u w e t) ∧
      u.verdict = .workerLost ∧ ∀ i < 3, (starts trace).count i = 1 := by
  have gone : Over (⟨[0, 1, 2], 4, false, none, [.lost, .left]⟩ : State (List Nat) Unit) := by
    intro worker there
    rcases List.mem_pair.1 there with rfl | rfl <;> rfl
  have stuck : ∀ w e t, ¬ Step [0, 1, 2] breaksSecond
      ⟨[0, 1, 2], 4, false, none, [.lost, .left]⟩ w e t := fun _ _ _ => gone.not_step
  obtain ⟨-, -, -, -, own, -, -, lost, once⟩ :=
    (verdict_accounts 2 [0, 1, 2] breaksSecond []).2 _ _ interleaved_run stuck
  have none_fails : ∀ i x, ¬ MayEnd [0, 1, 2] breaksSecond i (.failed x) := by
    intro i x fails
    rcases breaksSecond_ends fails with passed | ⟨broke, -⟩
    · cases passed
    · cases broke
  have breaks : ∀ i, MayEnd [0, 1, 2] breaksSecond i .broke → i ∈ ({1} : Finset Nat) := by
    intro i broke
    rcases breaksSecond_ends broke with passed | ⟨-, second⟩
    · cases passed
    · exact Finset.mem_singleton.2 second
  refine ⟨_, _, interleaved_run, stuck, lost ?_ ⟨1, ?_⟩, ?_⟩
  · exact fun i x failed => none_fails i x (own _ _ failed)
  · decide
  · exact once {1} none_fails breaks (by decide)

end

end SpectrumShare.Pool
