import SpectrumShare.Proofs.Pool.Verdict

/-! # Stopping the pool

A worker looks at the flag before it takes an item, and in two steps. So once the pool is stopped, only
workers that had looked before take an item, and one each; and a single worker goes through the items in
order, up to the first whose task does not pass. -/

namespace SpectrumShare.Pool

section

variable {ι ω ε : Type}

/-- Whether a worker has looked at the flag and not yet taken an item. -/
def Worker.isClaiming : Worker ω ε → Bool
  | .claiming => true
  | _ => false

/-- What is shared when the tasks of some items have been run one after the other. -/
def leftBy (task : ι → Task ω ε) (items : List ι) (shared : ω) : ω :=
  items.foldl (fun v item => ((task item).run v).2) shared

/-- How the task of an item ends when it is run after those of the items before it. -/
def EndsInTurn (items : List ι) (task : ι → Task ω ε) (shared : ω) (i : Nat) (ending : Ending ε) : Prop :=
  ∃ item, items[i]? = some item ∧ ((task item).run (leftBy task (items.take i) shared)).1 = ending

theorem EndsInTurn.within {items : List ι} {task : ι → Task ω ε} {shared : ω} {i : Nat}
    {ending : Ending ε} (ends : EndsInTurn items task shared i ending) : i < items.length := by
  obtain ⟨item, here, -⟩ := ends
  exact (List.getElem?_eq_some_iff.1 here).1

theorem leftBy_take_succ {items : List ι} {i : Nat} {item : ι} (here : items[i]? = some item)
    (task : ι → Task ω ε) (shared : ω) :
    leftBy task (items.take (i + 1)) shared =
      ((task item).run (leftBy task (items.take i) shared)).2 := by
  rw [leftBy, List.take_add_one, here, Option.toList_some, List.foldl_append]
  rfl

end

namespace State

variable {ι ω ε : Type} {items : List ι} {task : ι → Task ω ε} {s t u : State ω ε} {w : Nat}
  {e : Event ε} {trace : List (Nat × Event ε)}

/-- How many workers have looked at the flag and not yet taken an item. -/
def claiming (s : State ω ε) : Nat := (s.workers.map fun worker => worker.isClaiming.toNat).sum

/-- Whether a worker is one of those. -/
def isClaiming (s : State ω ε) (w : Nat) : Bool := s.workers[w]?.any Worker.isClaiming

/-- What a trace shows of one worker. -/
def shownBy (w : Nat) (trace : List (Nat × Event ε)) : List (Nat × Event ε) :=
  trace.filter fun shown => shown.1 = w

theorem Step.aborted (h : Step items task s w e t) (stopped : s.aborted = true) :
    t.aborted = true := by
  cases h with
  | raise => rfl
  | stop | goOn | claim | runOut | begin | move | pass | fail | breakDown | report => exact stopped

/-- The worker that stops the pool has its error still to report. -/
theorem Step.reporting (h : Step items task s w e t) (going : s.aborted = false)
    (stopped : t.aborted = true) : ∃ x, t.workers[w]? = some (.reporting x) := by
  cases h with
  | @raise x here =>
    exact ⟨x, List.getElem?_set_self (List.getElem?_eq_some_iff.1 here).1⟩
  | stop | goOn | claim | runOut | begin | move | pass | fail | breakDown | report =>
    exact absurd (going.symm.trans stopped) Bool.false_ne_true

/-- Once the pool is stopped, to take an item uses up a look at the flag, and nobody gets past it. -/
theorem Step.claim_spent (h : Step items task s w e t) (stopped : s.aborted = true) :
    ∃ old new, s.workers[w]? = some old ∧ t.workers = s.workers.set w new ∧
      e.start?.toList.length + new.isClaiming.toNat ≤ old.isClaiming.toNat := by
  cases h with
  | goOn _ going => exact absurd (going.symm.trans stopped) Bool.false_ne_true
  | stop here | claim here | runOut here | begin here | move here | pass here | fail here
  | breakDown here | raise here | report here =>
    exact ⟨_, _, here, rfl, by simp [Event.start?, Worker.isClaiming]⟩

theorem Step.starts_le_claiming (h : Step items task s w e t) (stopped : s.aborted = true) :
    e.start?.toList.length + t.claiming ≤ s.claiming := by
  obtain ⟨old, new, here, changed, spent⟩ := h.claim_spent stopped
  have exchange := sum_exchange here new fun worker => worker.isClaiming.toNat
  simp only [claiming, changed]
  omega

/-- Once the pool is stopped, no more items are taken than there were workers about to take one. -/
theorem Run.starts_le_claiming (h : Run items task s trace u) (stopped : s.aborted = true) :
    (starts trace).length ≤ s.claiming := by
  induction h with
  | done => exact Nat.zero_le _
  | step first _ ih =>
    have now := first.starts_le_claiming stopped
    have later := ih (first.aborted stopped)
    rw [starts_cons, List.length_append]
    omega

theorem Step.starts_of_le (h : Step items task s w e t) (stopped : s.aborted = true) (v : Nat) :
    (starts (shownBy v [(w, e)])).length + (t.isClaiming v).toNat ≤ (s.isClaiming v).toNat := by
  obtain ⟨old, new, here, changed, spent⟩ := h.claim_spent stopped
  by_cases mine : w = v
  · subst mine
    have there : w < s.workers.length := (List.getElem?_eq_some_iff.1 here).1
    have shown : starts (shownBy w [(w, e)]) = e.start?.toList := by
      rw [shownBy, List.filter_cons_of_pos (by simp), List.filter_nil, starts_cons]
      exact List.append_nil _
    simp only [isClaiming, shown, changed, here, List.getElem?_set_self there]
    exact spent
  · simp [shownBy, mine, starts, isClaiming, changed, List.getElem?_set_ne mine]

/-- Once the pool is stopped, a worker takes one more item if it was about to, and none otherwise. -/
theorem Run.starts_of_le (h : Run items task s trace u) (stopped : s.aborted = true) (v : Nat) :
    (starts (shownBy v trace)).length ≤ (s.isClaiming v).toNat := by
  induction h with
  | done => exact Nat.zero_le _
  | @step s w e t trace u first rest ih =>
    have now := first.starts_of_le stopped v
    have later := ih (first.aborted stopped)
    have split : starts (shownBy v ((w, e) :: trace)) =
        starts (shownBy v [(w, e)]) ++ starts (shownBy v trace) := by
      rw [shownBy, ← List.singleton_append, List.filter_append, starts, List.filterMap_append]
      rfl
    rw [split, List.length_append]
    omega

theorem claiming_lt {worker : Worker ω ε} (here : s.workers[w]? = some worker)
    (other : worker.isClaiming = false) : s.claiming < s.workers.length := by
  have exchange := sum_exchange here .claiming fun worker => worker.isClaiming.toNat
  have most : ((s.workers.set w .claiming).map fun worker => worker.isClaiming.toNat).sum ≤
      s.workers.length := by
    have each : ∀ n ∈ (s.workers.set w .claiming).map fun worker => worker.isClaiming.toNat, n ≤ 1 := by
      intro n there
      obtain ⟨worker, -, rfl⟩ := List.mem_map.1 there
      exact Bool.toNat_le _
    simpa using List.sum_le_card_nsmul _ 1 each
  have one : (Worker.claiming : Worker ω ε).isClaiming.toNat = 1 := rfl
  rw [other, one, Bool.toNat_false] at exchange
  rw [claiming]
  omega

/-- The items up to one, all passed. -/
def passes (n : Nat) : List (Nat × Ending ε) := (List.range n).map fun i => (i, .passed)

theorem passes_succ (n : Nat) : passes (ε := ε) (n + 1) = passes n ++ [(n, .passed)] := by
  simp [passes, List.range_succ]

/-- A pool that no error has stopped, and the next item in it. -/
structure Running (s : State ω ε) (next : Nat) : Prop where
  going : s.aborted = false
  silent : s.firstError = none
  next : s.next = next

theorem Running.put {next : Nat} (running : Running s next) (w : Nat) (worker : Worker ω ε) :
    Running (s.put w worker) next :=
  ⟨running.going, running.silent, running.next⟩

/-- What holds of a worker that is alone once it has let `n` items pass, with the endings so far. -/
def Standing (items : List ι) (task : ι → Task ω ε) (shared : ω) (s : State ω ε) (n : Nat)
    (history : List (Nat × Ending ε)) : Worker ω ε → Prop
  | .checking | .claiming =>
    Running s n ∧ s.shared = leftBy task (items.take n) shared ∧ history = passes n
  | .beginning i =>
    Running s (n + 1) ∧ i = n ∧ s.shared = leftBy task (items.take n) shared ∧ history = passes n
  | .moving i moves ending =>
    Running s (n + 1) ∧ i = n ∧ EndsInTurn items task shared n ending ∧
      makeMoves moves s.shared = leftBy task (items.take (n + 1)) shared ∧ history = passes n
  | .raising x =>
    Running s (n + 1) ∧ EndsInTurn items task shared n (.failed x) ∧
      history = passes n ++ [(n, .failed x)]
  | .reporting x =>
    s.firstError = none ∧ s.next = n + 1 ∧ EndsInTurn items task shared n (.failed x) ∧
      history = passes n ++ [(n, .failed x)]
  | .left =>
    s.next = n + 1 ∧ (n = items.length ∧ s.firstError = none ∧ history = passes n ∨
      ∃ x, s.firstError = some x ∧ EndsInTurn items task shared n (.failed x) ∧
        history = passes n ++ [(n, .failed x)])
  | .lost => history = passes n ++ [(n, .broke)]

/-- A pool of one worker, who has let some items pass and stands at the next. -/
def Alone (items : List ι) (task : ι → Task ω ε) (shared : ω) (s : State ω ε)
    (history : List (Nat × Ending ε)) : Prop :=
  ∃ worker n, s.workers = [worker] ∧ (∀ i < n, EndsInTurn items task shared i .passed) ∧
    Standing items task shared s n history worker

theorem eq_of_only {worker other : Worker ω ε} (only : s.workers = [worker])
    (here : s.workers[w]? = some other) : worker = other ∧ ∀ new, s.workers.set w new = [new] := by
  rw [only] at here ⊢
  cases w with
  | zero => exact ⟨Option.some.inj here, fun _ => rfl⟩
  | succ w => simp at here

theorem Step.alone {shared : ω} {history : List (Nat × Ending ε)} (h : Step items task s w e t)
    (alone : Alone items task shared s history) :
    Alone items task shared t (history ++ e.end?.toList) := by
  obtain ⟨worker, n, only, passed, stands⟩ := alone
  have quiet : history ++ (none : Option (Nat × Ending ε)).toList = history := List.append_nil history
  cases h with
  | stop here flag =>
    obtain ⟨rfl, -⟩ := eq_of_only only here
    exact absurd (stands.1.going.symm.trans flag) Bool.false_ne_true
  | goOn here _ =>
    obtain ⟨rfl, put⟩ := eq_of_only only here
    obtain ⟨run, so_far, told⟩ := stands
    exact ⟨_, n, put _, passed, run.put _ _, so_far, quiet.trans told⟩
  | claim here within =>
    obtain ⟨rfl, put⟩ := eq_of_only only here
    obtain ⟨run, so_far, told⟩ := stands
    have next : s.next + 1 = n + 1 := congrArg (· + 1) run.next
    exact ⟨_, n, put _, passed, ⟨run.going, run.silent, next⟩, run.next, so_far, quiet.trans told⟩
  | runOut here ended =>
    obtain ⟨rfl, put⟩ := eq_of_only only here
    obtain ⟨run, so_far, told⟩ := stands
    have next : s.next + 1 = n + 1 := congrArg (· + 1) run.next
    have all : n = items.length := by
      refine le_antisymm (not_lt.1 fun beyond => ?_) (run.next ▸ ended)
      exact lt_irrefl _ (passed _ beyond).within
    exact ⟨_, n, put _, passed, next, .inl ⟨all, run.silent, quiet.trans told⟩⟩
  | @begin i item here at_item =>
    obtain ⟨rfl, put⟩ := eq_of_only only here
    obtain ⟨run, rfl, so_far, told⟩ := stands
    have ends : EndsInTurn items task shared i (task item s.shared).2 := ⟨item, at_item, by rw [so_far]; rfl⟩
    have rest : makeMoves (task item s.shared).1 s.shared =
        leftBy task (items.take (i + 1)) shared := by
      rw [leftBy_take_succ at_item, so_far]
      rfl
    exact ⟨_, i, put _, passed, run.put _ _, rfl, ends, rest, quiet.trans told⟩
  | move here =>
    obtain ⟨rfl, put⟩ := eq_of_only only here
    obtain ⟨run, at_n, ends, rest, told⟩ := stands
    exact ⟨_, n, put _, passed, ⟨run.going, run.silent, run.next⟩, at_n, ends, rest, quiet.trans told⟩
  | pass here =>
    obtain ⟨rfl, put⟩ := eq_of_only only here
    obtain ⟨run, rfl, ends, rest, rfl⟩ := stands
    refine ⟨_, _, put _, fun i before => ?_, run.put _ _, rest, ?_⟩
    · rcases Nat.lt_succ_iff_lt_or_eq.1 before with earlier | rfl
      · exact passed i earlier
      · exact ends
    · exact (passes_succ _).symm
  | fail here =>
    obtain ⟨rfl, put⟩ := eq_of_only only here
    obtain ⟨run, rfl, ends, -, rfl⟩ := stands
    exact ⟨_, _, put _, passed, run.put _ _, ends, rfl⟩
  | breakDown here =>
    obtain ⟨rfl, put⟩ := eq_of_only only here
    obtain ⟨-, rfl, -, -, rfl⟩ := stands
    exact ⟨_, _, put _, passed, rfl⟩
  | raise here =>
    obtain ⟨rfl, put⟩ := eq_of_only only here
    obtain ⟨run, ends, told⟩ := stands
    exact ⟨_, n, put _, passed, run.silent, run.next, ends, quiet.trans told⟩
  | @report x here =>
    obtain ⟨rfl, put⟩ := eq_of_only only here
    obtain ⟨silent, next, ends, told⟩ := stands
    have first : s.firstError.or (some x) = some x := by rw [silent]; rfl
    exact ⟨_, n, put _, passed, next, .inr ⟨x, first, ends, quiet.trans told⟩⟩

theorem start_alone (shared : ω) : Alone items task shared (start 1 shared) [] :=
  ⟨.checking, 0, rfl, fun _ before => absurd before (Nat.not_lt_zero _), ⟨rfl, rfl, rfl⟩, rfl, rfl⟩

theorem Run.alone {shared : ω} {history : List (Nat × Ending ε)} (h : Run items task s trace u)
    (alone : Alone items task shared s history) :
    Alone items task shared u (history ++ endings trace) := by
  induction h generalizing history with
  | done =>
    rw [endings, List.filterMap_nil, List.append_nil]
    exact alone
  | step first _ ih =>
    rw [endings_cons, ← List.append_assoc]
    exact ih (first.alone alone)

/-- A worker that is alone and does not break down runs the items up to the first that fails, or all. -/
theorem Run.alone_in_turn {shared : ω} (run : Run items task (.start 1 shared) trace u) (gone : u.Over)
    (calm : ∀ i, (i, .broke) ∉ endings trace) :
    ∃ n, (∀ i < n, EndsInTurn items task shared i .passed) ∧
      (n = items.length ∧ starts trace = List.range n ∧ endings trace = passes n ∧
          u.verdict = .completed ∨
        ∃ x, EndsInTurn items task shared n (.failed x) ∧ starts trace = List.range (n + 1) ∧
          endings trace = passes n ++ [(n, .failed x)] ∧ u.verdict = .failed x) := by
  obtain ⟨worker, n, only, passed, stands⟩ := run.alone (start_alone shared)
  rw [List.nil_append] at stands
  refine ⟨n, passed, ?_⟩
  have started := run.starts_eq_take
  rw [List.take_range] at started
  rcases gone.left_or_lost (only ▸ List.mem_singleton_self worker) with rfl | rfl
  · obtain ⟨next, ⟨all, silent, told⟩ | ⟨x, first, ends, told⟩⟩ := stands
    · refine .inl ⟨all, ?_, told, ?_⟩
      · rw [started, next, all, min_eq_right (Nat.le_succ _)]
      · rw [verdict, silent, only]
        rfl
    · refine .inr ⟨x, ends, ?_, told, verdict_of_error first⟩
      rw [started, next, min_eq_left ends.within]
  · have broke : (n, .broke) ∈ endings trace := by
      rw [show endings trace = passes n ++ [(n, .broke)] from stands]
      exact List.mem_append_right _ List.mem_cons_self
    exact absurd broke (calm n)

end State

section

open State

variable {ι ω ε : Type}

/-- **A pool stops soon.** However the workers interleave, after the step that first sets the flag every
other worker starts one more item at most, and the one that set it starts none. A single worker runs the
items in order, each once: those up to the first that fails, whose error the pool comes to, or all of
them, and then the pool completes. -/
theorem stops_soon (workers : Nat) (items : List ι) (task : ι → Task ω ε) (shared : ω) :
    (∀ before s w e t after u, Run items task (.start (crew workers items) shared) before s →
      s.aborted = false → Step items task s w e t → t.aborted = true → Run items task t after u →
      (starts after).length ≤ crew workers items - 1 ∧
      (∀ v, (starts (shownBy v after)).length ≤ 1) ∧ starts (shownBy w after) = []) ∧
    (crew workers items = 1 →
      (∃ trace u, Run items task (.start (crew workers items) shared) trace u ∧ u.Over) ∧
      ∀ trace u, Run items task (.start (crew workers items) shared) trace u →
        (∀ w e t, ¬ Step items task u w e t) → (∀ i, (i, .broke) ∉ endings trace) →
        ∃ n, (∀ i < n, EndsInTurn items task shared i .passed) ∧
          (n = items.length ∧ starts trace = List.range n ∧
              endings trace = (List.range n).map (fun i => (i, .passed)) ∧ u.verdict = .completed ∨
            ∃ x, EndsInTurn items task shared n (.failed x) ∧ starts trace = List.range (n + 1) ∧
              endings trace = (List.range n).map (fun i => (i, .passed)) ++ [(n, .failed x)] ∧
              u.verdict = .failed x)) := by
  constructor
  · intro before s w e t after u past going stops stopped rest
    obtain ⟨x, reports⟩ := stops.reporting going stopped
    have all : t.workers.length = crew workers items := by
      rw [stops.crew, past.crew, start, List.length_replicate]
    refine ⟨?_, fun v => (rest.starts_of_le stopped v).trans (Bool.toNat_le _), ?_⟩
    · have few := rest.starts_le_claiming stopped
      have others := claiming_lt reports rfl
      omega
    · have none_left := rest.starts_of_le stopped w
      have busy : t.isClaiming w = false := by rw [State.isClaiming, reports]; rfl
      rw [busy, Bool.toNat_false] at none_left
      exact List.eq_nil_of_length_eq_zero (Nat.le_zero.1 none_left)
  · intro one
    obtain ⟨trace, u, run, gone, -⟩ := run_interleaves workers items task shared
    refine ⟨⟨trace, u, run, gone⟩, fun trace u run stuck calm => ?_⟩
    have gone := run.over_of_stuck stuck
    rw [one] at run
    exact run.alone_in_turn gone calm

/-- Of three tasks the second fails. -/
def failsSecond (i : Nat) : Task (List Nat) Unit :=
  fun _ => ([(· ++ [i])], if i = 1 then .failed () else .passed)

/-- Two workers up to the moment at which one of them stops the pool and the other has looked before. -/
theorem failing_run :
    Run [0, 1, 2] failsSecond (.start 2 [])
      [(0, .quiet), (1, .quiet), (1, .started 0), (0, .started 1), (0, .quiet), (1, .quiet), (1, .quiet),
        (0, .quiet), (0, .ended 1 (.failed ())), (1, .ended 0 .passed), (1, .quiet)]
      ⟨[0, 1], 2, false, none, [.raising (), .claiming]⟩ :=
  .step (.goOn rfl rfl) <| .step (.goOn rfl rfl) <| .step (.claim rfl (by decide)) <|
  .step (.claim rfl (by decide)) <| .step (.begin rfl rfl) <| .step (.begin rfl rfl) <|
  .step (.move rfl) <| .step (.move rfl) <| .step (.fail rfl) <| .step (.pass rfl) <|
  .step (.goOn rfl rfl) <| .done _

/-- What the two still do: the one reports, and the other runs an item that it takes after that. -/
theorem stopped_run :
    Run [0, 1, 2] failsSecond ⟨[0, 1], 2, true, none, [.reporting (), .claiming]⟩
      [(1, .started 2), (0, .quiet), (1, .quiet), (1, .quiet), (1, .ended 2 .passed), (1, .quiet)]
      ⟨[0, 1, 2], 3, true, some (), [.left, .left]⟩ :=
  .step (.claim rfl (by decide)) <| .step (.report rfl) <| .step (.begin rfl rfl) <|
  .step (.move rfl) <| .step (.pass rfl) <| .step (.stop rfl rfl) <| .done _

theorem failing_run_alone :
    Run [0, 1, 2] failsSecond (.start 1 [])
      [(0, .quiet), (0, .started 0), (0, .quiet), (0, .quiet), (0, .ended 0 .passed), (0, .quiet),
        (0, .started 1), (0, .quiet), (0, .quiet), (0, .ended 1 (.failed ())), (0, .aborted), (0, .quiet)]
      ⟨[0, 1], 2, true, some (), [.left]⟩ :=
  .step (.goOn rfl rfl) <| .step (.claim rfl (by decide)) <| .step (.begin rfl rfl) <|
  .step (.move rfl) <| .step (.pass rfl) <| .step (.goOn rfl rfl) <|
  .step (.claim rfl (by decide)) <| .step (.begin rfl rfl) <| .step (.move rfl) <|
  .step (.fail rfl) <| .step (.raise rfl) <| .step (.report rfl) <| .done _

theorem stops_soon_second :
    (∃ before s t after u, Run [0, 1, 2] failsSecond (.start (crew 2 [0, 1, 2]) []) before s ∧
      s.aborted = false ∧ Step [0, 1, 2] failsSecond s 0 .aborted t ∧ t.aborted = true ∧
      Run [0, 1, 2] failsSecond t after u ∧ starts after = [2] ∧
      (starts after).length ≤ crew 2 [0, 1, 2] - 1 ∧ starts (shownBy 0 after) = []) ∧
    ∃ trace u n x, Run [0, 1, 2] failsSecond (.start (crew 1 [0, 1, 2]) []) trace u ∧
      (∀ w e t, ¬ Step [0, 1, 2] failsSecond u w e t) ∧ EndsInTurn [0, 1, 2] failsSecond [] n (.failed x) ∧
      starts trace = List.range (n + 1) ∧ u.verdict = .failed x := by
  constructor
  · have raise : Step [0, 1, 2] failsSecond ⟨[0, 1], 2, false, none, [.raising (), .claiming]⟩ 0 .aborted
        ⟨[0, 1], 2, true, none, [.reporting (), .claiming]⟩ := .raise rfl
    obtain ⟨few, -, none_more⟩ := (stops_soon 2 [0, 1, 2] failsSecond []).1 _ _ _ _ _ _ _ failing_run rfl
      raise rfl stopped_run
    exact ⟨_, _, _, _, _, failing_run, rfl, raise, rfl, stopped_run, rfl, few, none_more⟩
  · have gone : Over (⟨[0, 1], 2, true, some (), [.left]⟩ : State (List Nat) Unit) := by
      intro worker there
      rw [List.mem_singleton.1 there]
    have stuck : ∀ w e t, ¬ Step [0, 1, 2] failsSecond
        ⟨[0, 1], 2, true, some (), [.left]⟩ w e t := fun _ _ _ => gone.not_step
    obtain ⟨n, -, ⟨-, -, -, completed⟩ | ⟨x, ends, started, -, verdict⟩⟩ :=
      ((stops_soon 1 [0, 1, 2] failsSecond []).2 rfl).2 _ _ failing_run_alone stuck (by
        simp [endings, Event.end?])
    · cases completed
    · exact ⟨_, _, n, x, failing_run_alone, stuck, ends, started, verdict⟩

end

end SpectrumShare.Pool
