import SpectrumShare.Proofs.Allocation.Oblivion
import SpectrumShare.Proofs.Pool.Isolation
import SpectrumShare.Proofs.Protection

/-!
# The schedule of a grid does not show

Where the points of a grid have different keys, each of them sees its own entry of the store alone:

* `Engine.pointTask_separate`: the tasks of such points keep to their own entries;
* `Engine.store_of_completed`: so a completed grid holds what each of its points came to;
* `grid_schedule_irrelevant`: and that is what the points come to one after the other, in any order.
-/

namespace SpectrumShare

open Allocation

section

variable {σ α : Type}

theorem appendedTo_append (key : PointKey) (before after : List (PointKey × ChannelTotals α)) :
    appendedTo key (before ++ after) = appendedTo key before ++ appendedTo key after := by
  simp [appendedTo]

theorem Store.get?_ofHistory_congr {key : PointKey} {history other : List (PointKey × ChannelTotals α)}
    (same : appendedTo key history = appendedTo key other) :
    (Store.ofHistory history).get? key = (Store.ofHistory other).get? key := by
  rw [ofHistory, ofHistory, get?_appendAll, get?_appendAll, same]

theorem record_empty_eq_ofHistory (key : PointKey) (totals : List (ChannelTotals α)) :
    record .empty key totals = Store.ofHistory (totals.map fun t => (key, t)) :=
  Store.record_eq_appendAll .empty key totals

variable [Scalar α] [Decibel α]

/-- What a point comes to when the model remembers `m`. -/
def Allocation.Survey.found (s : Survey σ α) (m : σ) (point : Position α) : PointOutcome α :=
  ((s.outcome point).run m).1

/-- The totals of points in order, given what the model remembers at each. -/
def Allocation.Survey.findings (s : Survey σ α) (seen : PointKey → σ) (points : List (Position α)) :
    List (PointKey × ChannelTotals α) :=
  points.flatMap fun p => (s.found (seen p.key) p).totals.map fun t => (p.key, t)

/-- The store after points are allocated one after the other, given what the model remembers at each. -/
def Allocation.Survey.storeAfter (s : Survey σ α) (seen : PointKey → σ) (points : List (Position α)) :
    Store α :=
  points.foldl (fun store p => ((s.point p store).run (seen p.key)).1.2) .empty

/-- Points allocated into a store one after the other, up to the first that halts. -/
def Allocation.Survey.inTurn (s : Survey σ α) :
    List (Position α) → Store α → Probing σ α (Store α)
  | [], store => return store
  | point :: rest, store => do
    let (result, store) ← s.point point store
    match result with
    | .error halt => throw halt
    | .ok _ => s.inTurn rest store

theorem appendedTo_findings_of_absent (s : Survey σ α) (seen : PointKey → σ) {key : PointKey}
    {points : List (Position α)} (absent : key ∉ points.map Position.key) :
    appendedTo key (s.findings seen points) = [] := by
  rw [appendedTo_eq_nil]
  intro there
  obtain ⟨⟨_, t⟩, listed, rfl⟩ := List.mem_map.1 there
  obtain ⟨p, hp, found⟩ := List.mem_flatMap.1 listed
  obtain ⟨t, -, same⟩ := List.mem_map.1 found
  cases same
  exact absent (List.mem_map_of_mem hp)

theorem appendedTo_findings (s : Survey σ α) (seen : PointKey → σ) {points : List (Position α)}
    (distinct : (points.map Position.key).Nodup) {p : Position α} (there : p ∈ points) :
    appendedTo p.key (s.findings seen points) = (s.found (seen p.key) p).totals := by
  induction points with
  | nil => cases there
  | cons q rest ih =>
    obtain ⟨fresh, others⟩ := List.nodup_cons.1 distinct
    have split : s.findings seen (q :: rest) =
        ((s.found (seen q.key) q).totals.map fun t => (q.key, t)) ++ s.findings seen rest :=
      List.flatMap_cons
    rw [split, appendedTo_append, appendedTo_one]
    rcases List.mem_cons.1 there with rfl | later
    · rw [if_pos rfl, appendedTo_findings_of_absent s seen fresh, List.append_nil]
    · have apart : p.key ≠ q.key := fun same => fresh (same ▸ List.mem_map_of_mem later)
      rw [if_neg apart, List.nil_append, ih others later]

/-- A store that holds at each point what the point came to, and nothing elsewhere. -/
theorem eq_ofHistory_findings (s : Survey σ α) (seen : PointKey → σ) {points : List (Position α)}
    (distinct : (points.map Position.key).Nodup) {store : Store α} (rows : store.NoEmptyRow)
    (at_points : ∀ p ∈ points, store.get? p.key =
      (record .empty p.key (s.found (seen p.key) p).totals).get? p.key)
    (elsewhere : ∀ key, key ∉ points.map Position.key → store.get? key = none) :
    store = Store.ofHistory (s.findings seen points) := by
  apply PointMap.ext_get? rows (Store.noEmptyRow_ofHistory _)
  intro key
  by_cases there : key ∈ points.map Position.key
  · obtain ⟨p, hp, rfl⟩ := List.mem_map.1 there
    rw [at_points p hp, record_empty_eq_ofHistory]
    apply Store.get?_ofHistory_congr
    rw [appendedTo_one, if_pos rfl, appendedTo_findings s seen distinct hp]
  · have nothing : appendedTo key (s.findings seen points) = appendedTo key [] :=
      appendedTo_findings_of_absent s seen there
    rw [elsewhere key there, Store.get?_ofHistory_congr nothing]
    rfl

/-- The order of the points does not show in the store. -/
theorem ofHistory_findings_perm (s : Survey σ α) (seen : PointKey → σ) {order points : List (Position α)}
    (distinct : (points.map Position.key).Nodup) (perm : order.Perm points) :
    Store.ofHistory (s.findings seen order) = Store.ofHistory (s.findings seen points) := by
  have distinct' : (order.map Position.key).Nodup := (perm.map _).nodup_iff.2 distinct
  apply eq_ofHistory_findings s seen distinct (Store.noEmptyRow_ofHistory _)
  · intro p hp
    rw [record_empty_eq_ofHistory]
    apply Store.get?_ofHistory_congr
    rw [appendedTo_one, if_pos rfl, appendedTo_findings s seen distinct' (perm.mem_iff.2 hp)]
  · intro key absent
    have absent' : key ∉ order.map Position.key := mt (perm.map _).mem_iff.1 absent
    have nothing : appendedTo key (s.findings seen order) = appendedTo key [] :=
      appendedTo_findings_of_absent s seen absent'
    rw [Store.get?_ofHistory_congr nothing]
    rfl

theorem point_store (s : Survey σ α) (point : Position α) (store : Store α) (m : σ) :
    ((s.point point store).run m).1.2 = record store point.key (s.found m point).totals := by
  rw [point_run, Survey.found]
  rcases (s.outcome point).run m with ⟨⟨totals, _ | halt⟩, n⟩ <;> rfl

theorem storeAfter_eq_ofHistory (s : Survey σ α) (seen : PointKey → σ) (points : List (Position α)) :
    s.storeAfter seen points = Store.ofHistory (s.findings seen points) := by
  have from_store : ∀ store : Store α,
      points.foldl (fun store p => ((s.point p store).run (seen p.key)).1.2) store =
        store.appendAll (s.findings seen points) := by
    induction points with
    | nil => exact fun _ => rfl
    | cons p rest ih =>
      intro store
      rw [List.foldl_cons, ih, point_store, Store.record_eq_appendAll, ← Store.appendAll_append]
      rfl
  exact from_store .empty

/-- Under a model whose memory does not show, points that come to an end are allocated in turn. -/
theorem inTurn_ok {s : Survey σ α} (oblivious : s.model.IsOblivious) (m₀ : σ)
    {points : List (Position α)} (ends : ∀ p ∈ points, ∀ m, (s.found m p).halt = none) (store : Store α)
    (m : σ) :
    ∃ n, runFrom (s.inTurn points store) m =
      (.ok (store.appendAll (s.findings (fun _ => m₀) points)), n) := by
  induction points generalizing store m with
  | nil => exact ⟨m, rfl⟩
  | cons p rest ih =>
    have first := ends p List.mem_cons_self m
    have same : s.found m p = s.found m₀ p := outcome_oblivious oblivious p m m₀
    have split : s.findings (fun _ => m₀) (p :: rest) =
        ((s.found m₀ p).totals.map fun t => (p.key, t)) ++ s.findings (fun _ => m₀) rest :=
      List.flatMap_cons
    rw [Survey.inTurn, runFrom_ask, point_run, split, Store.appendAll_append,
      ← Store.record_eq_appendAll, ← same]
    rw [Survey.found] at first ⊢
    rcases came : (s.outcome p).run m with ⟨⟨totals, halt⟩, k⟩
    rw [came] at first
    cases first
    exact ih (fun q hq => ends q (List.mem_cons_of_mem p hq)) _ k

end

namespace Engine

open Pool Pool.State

variable {σ α : Type} [Scalar α]

/-- What a store holds at the key of a point of a grid. -/
def entry (points : List (Position α)) (i : Nat) (shared : σ × Store α) : Option (PointTotals α) :=
  points[i]?.bind fun p => shared.2.get? p.key

theorem entry_eq {points : List (Position α)} {i : Nat} {p : Position α} (here : points[i]? = some p)
    (shared : σ × Store α) : entry points i shared = shared.2.get? p.key := by
  rw [entry, here]
  rfl

variable [Decibel α]

/-- A point that has the pool to itself records its totals. -/
theorem makeMoves_pointTask (s : Survey σ α) (point : Position α) (seen shared : σ × Store α) :
    makeMoves (pointTask s point seen).1 shared =
      (((s.outcome point).run seen.1).2, record shared.2 point.key (s.found seen.1 point).totals) := by
  have appends : ∀ (totals : List (ChannelTotals α)) (v : σ × Store α),
      makeMoves (totals.map fun t (v : σ × Store α) =>
        (v.1, v.2.append point.key t.localTotal t.globalTotal)) v =
      (v.1, record v.2 point.key totals) := by
    intro totals
    induction totals with
    | nil => exact fun _ => rfl
    | cons t rest ih => exact fun v => ih _
  rw [pointTask_moves]
  exact appends _ _

theorem pointTask_passed {s : Survey σ α} {point : Position α} {seen : σ × Store α} :
    (pointTask s point seen).2 = .passed ↔ (s.found seen.1 point).halt = none := by
  rw [Survey.found, ← settle_eq_outcome]
  rw [pointTask]
  rcases (s.settle point).run seen.1 with ⟨outcome, memory⟩
  dsimp only
  rcases outcome.halt with _ | halt
  · simp
  · cases halt <;> simp

/-- Points of different keys keep to their own entries. -/
theorem pointTask_separate (s : Survey σ α) {points : List (Position α)}
    (distinct : (points.map Position.key).Nodup) :
    Separate points (pointTask s) (entry points) where
  own := by
    intro i p seen move here begun v w same
    rw [entry_eq here, entry_eq here] at same ⊢
    rw [pointTask_moves] at begun
    rcases List.mem_cons.1 begun with rfl | append
    · exact same
    · obtain ⟨t, -, rfl⟩ := List.mem_map.1 append
      simp only [Store.get?_append, ↓reduceIte, Store.totals, same]
  others := by
    intro i j p seen move here begun apart v
    cases there : points[i]? with
    | none => simp [entry, there]
    | some q =>
      have other : q.key ≠ p.key := by
        intro same
        have at_i : (points.map Position.key)[i]? = some q.key := by simp [there]
        have at_j : (points.map Position.key)[j]? = some q.key := by simp [here, same]
        have within : j < (points.map Position.key).length := (List.getElem?_eq_some_iff.1 at_j).1
        exact apart ((List.getElem?_inj within distinct).1 (at_j.trans at_i.symm))
      rw [entry_eq there, entry_eq there]
      rw [pointTask_moves] at begun
      rcases List.mem_cons.1 begun with rfl | append
      · rfl
      · obtain ⟨t, -, rfl⟩ := List.mem_map.1 append
        exact (Store.get?_append _ _ _ _ _).trans (if_neg other)

section

variable {s : Survey σ α} {points : List (Position α)} {crew : Nat} {m : σ}
  {trace : List (Nat × Event (Halt α))} {u : State (σ × Store α) (Halt α)}
  (run : Run points (pointTask s) (.start crew (m, .empty)) trace u)
include run

theorem noEmptyRow_of_run : u.shared.2.NoEmptyRow := by
  have keeps : ∀ p ∈ points, ∀ seen, ∀ move ∈ (pointTask s p seen).1, ∀ v : σ × Store α,
      v.2.NoEmptyRow → (move v).2.NoEmptyRow := by
    intro p _ seen move begun v rows
    rw [pointTask_moves] at begun
    rcases List.mem_cons.1 begun with rfl | append
    · exact rows
    · obtain ⟨t, -, rfl⟩ := List.mem_map.1 append
      exact PointMap.NoEmptyRow.insert rows _ _
  exact (run.steady keeps (steady_start crew PointMap.noEmptyRow_empty)).shared

theorem get?_of_run {key : PointKey} (absent : key ∉ points.map Position.key) :
    u.shared.2.get? key = none := by
  have keeps : ∀ p ∈ points, ∀ seen, ∀ move ∈ (pointTask s p seen).1, ∀ v : σ × Store α,
      v.2.get? key = none → (move v).2.get? key = none := by
    intro p hp seen move begun v nothing
    have other : key ≠ p.key := fun same => absent (same ▸ List.mem_map_of_mem hp)
    rw [pointTask_moves] at begun
    rcases List.mem_cons.1 begun with rfl | append
    · exact nothing
    · obtain ⟨t, -, rfl⟩ := List.mem_map.1 append
      exact ((Store.get?_append _ _ _ _ _).trans (if_neg other)).trans nothing
  exact (run.steady keeps (steady_start crew rfl)).shared

variable (gone : u.Over)
include gone

/-- A grid in which every point that was begun came to an end is complete. -/
theorem completed_of_passed (passed : ∀ i ending, (i, ending) ∈ endings trace → ending = .passed) :
    u.verdict = .completed := by
  rw [verdict_completed_iff, run.firstError_eq_none_iff gone, run.lost_pos_iff]
  constructor
  · intro i x failed
    cases passed i _ failed
  · rintro ⟨i, broke⟩
    cases passed i _ broke

variable (some_worker : 0 < crew)
include some_worker

/-- Each point of a complete grid holds what it came to from some memory of the model. -/
theorem entry_of_completed (distinct : (points.map Position.key).Nodup)
    (completed : u.verdict = .completed) {p : Position α} (there : p ∈ points) :
    ∃ seen : σ, (s.found seen p).halt = none ∧
      u.shared.2.get? p.key = (record .empty p.key (s.found seen p).totals).get? p.key := by
  obtain ⟨i, here⟩ := List.mem_iff_getElem?.1 there
  have within : i < points.length := (List.getElem?_eq_some_iff.1 here).1
  have ended := (run.completed_iff gone some_worker).1 completed i within
  obtain ⟨q, seen, at_i, passed, view⟩ := run.view_ended (pointTask_separate s distinct) ended
  obtain rfl : p = q := Option.some.inj (here.symm.trans at_i)
  refine ⟨seen.1, pointTask_passed.1 passed, ?_⟩
  rwa [makeMoves_pointTask, entry_eq here, entry_eq here] at view

/-- A complete grid holds what its points came to, each from some memory of the model. -/
theorem store_of_completed (distinct : (points.map Position.key).Nodup)
    (completed : u.verdict = .completed) :
    ∃ seen : PointKey → σ, (∀ p ∈ points, (s.found (seen p.key) p).halt = none) ∧
      u.shared.2 = Store.ofHistory (s.findings seen points) := by
  -- as keys are different, a memory for each point is a memory for each key
  have memories : ∀ key, ∃ seen : σ, ∀ p ∈ points, p.key = key → (s.found seen p).halt = none ∧
      u.shared.2.get? p.key = (record .empty p.key (s.found seen p).totals).get? p.key := by
    intro key
    by_cases there : key ∈ points.map Position.key
    · obtain ⟨p, hp, rfl⟩ := List.mem_map.1 there
      obtain ⟨seen, came⟩ := entry_of_completed run gone some_worker distinct completed hp
      refine ⟨seen, fun q hq same => ?_⟩
      obtain rfl : q = p := List.inj_on_of_nodup_map distinct hq hp same
      exact came
    · exact ⟨m, fun p hp same => absurd (same ▸ List.mem_map_of_mem hp) there⟩
  choose seen came using memories
  refine ⟨seen, fun p hp => (came _ p hp rfl).1, ?_⟩
  exact eq_ofHistory_findings s seen distinct (noEmptyRow_of_run run)
    (fun p hp => (came _ p hp rfl).2) fun key absent => get?_of_run run absent

end

end Engine

section

open Engine Pool Pool.State

variable {σ α : Type} [Scalar α] [Decibel α]

/-- Under a model whose memory does not show it does not matter what it remembers at which point. -/
theorem findings_oblivious {s : Survey σ α} (oblivious : s.model.IsOblivious) (seen seen' : PointKey → σ)
    (points : List (Position α)) : s.findings seen points = s.findings seen' points := by
  have same : ∀ p : Position α, s.found (seen p.key) p = s.found (seen' p.key) p :=
    fun p => outcome_oblivious oblivious p _ _
  simp only [Survey.findings, same]

/-- A complete grid is split as it is. -/
theorem allowances_grid {e : Engine σ α} {target : Target α} {grants : GrantSet α}
    {plan : ChannelPlan α} {points : List (Position α)} (planned : e.plan target = .ok plan)
    (site : target.sites = .grid points) {m n : σ} {store : Store α}
    (filled : runFrom (e.fillPoints (e.survey target grants plan) points) m = (.ok store, n)) :
    (runFrom (e.allowances target grants) m).1 =
      (Allowances.ofStore store (e.rules.threshold target.kind).mw grants.peers).mapError .refused := by
  have stages : e.allowances target grants = (do
      let store ← e.fillPoints (e.survey target grants plan) points
      orRefuse (Allowances.ofStore store (e.rules.threshold target.kind).mw grants.peers)) := by
    simp [Engine.allowances, Engine.aggregate, planned, site, Engine.orRefuse]
  rw [stages, runFrom_bind, filled]
  dsimp only
  cases Allowances.ofStore store (e.rules.threshold target.kind).mw grants.peers <;> rfl

/-- **The schedule of a grid does not show.** However the workers interleave their appends, if no point
that was begun failed then the grid is complete and its store is that of the points allocated one after
the other, in any order, each from what the model remembered when it was begun. Under a model whose
memory does not show, and where no point fails, there is one store: that of the points in turn in any
order, of every schedule of every number of workers, and the one that each engine splits. -/
theorem grid_schedule_irrelevant (s : Survey σ α) (points : List (Position α))
    (distinct : (points.map Position.key).Nodup) :
    (∀ workers m trace u, Run points (pointTask s) (.start (crew workers points) (m, .empty)) trace u →
      (∀ w e t, ¬ Step points (pointTask s) u w e t) →
      (∀ i ending, (i, ending) ∈ endings trace → ending = .passed) →
      u.verdict = .completed ∧ ∃ seen : PointKey → σ, ∀ order, order.Perm points →
        u.shared.2 = s.storeAfter seen order) ∧
    (s.model.IsOblivious → (∀ p ∈ points, ∀ m, ((s.settle p).run m).1.halt = none) →
      ∃ store : Store α,
        (∀ order m, order.Perm points → ∃ n, runFrom (s.inTurn order .empty) m = (.ok store, n)) ∧
        (∀ workers m trace u,
          Run points (pointTask s) (.start (crew workers points) (m, .empty)) trace u →
          (∀ w e t, ¬ Step points (pointTask s) u w e t) →
          u.verdict = .completed ∧ u.shared.2 = store) ∧
        ∀ (e : Engine σ α) target grants, e.plan target = .ok s.plan →
          e.survey target grants s.plan = s → target.sites = .grid points → ∀ m,
          (runFrom (e.allowances target grants) m).1 =
            (Allowances.ofStore store (e.rules.threshold target.kind).mw grants.peers).mapError
              .refused) := by
  have ended : ∀ {workers m trace u},
      Run points (pointTask s) (.start (crew workers points) (m, .empty)) trace u →
      (∀ w e t, ¬ Step points (pointTask s) u w e t) → u.Over :=
    fun run stuck => run.over_of_stuck stuck
  constructor
  · intro workers m trace u run stuck passed
    have completed := completed_of_passed run (ended run stuck) passed
    obtain ⟨seen, -, filled⟩ :=
      store_of_completed run (ended run stuck) (crew_pos workers points) distinct completed
    refine ⟨completed, seen, fun order perm => ?_⟩
    rw [filled, storeAfter_eq_ofHistory, ofHistory_findings_perm s seen distinct perm]
  intro oblivious ends
  -- any one memory will do for all points, if there is one to begin with
  rcases isEmpty_or_nonempty σ with none | ⟨⟨m₀⟩⟩
  · exact ⟨.empty, fun _ m => none.elim m, fun _ m => none.elim m, fun _ _ _ _ _ _ m => none.elim m⟩
  have passes : ∀ p ∈ points, ∀ m, (s.found m p).halt = none := by
    intro p hp m
    rw [Survey.found, ← settle_eq_outcome]
    exact ends p hp m
  have filled : ∀ workers m trace u,
      Run points (pointTask s) (.start (crew workers points) (m, .empty)) trace u → u.Over →
      u.verdict = .completed ∧
        u.shared.2 = Store.ofHistory (s.findings (fun _ => m₀) points) := by
    intro workers m trace u run gone
    have passed : ∀ i ending, (i, ending) ∈ endings trace → ending = .passed := by
      intro i ending ended
      obtain ⟨p, seen, here, rfl⟩ := run.mayEnd start_faithful ended
      exact pointTask_passed.2 (passes p (List.mem_of_getElem? here) seen.1)
    have completed := completed_of_passed run gone passed
    obtain ⟨seen, -, store⟩ :=
      store_of_completed run gone (crew_pos workers points) distinct completed
    exact ⟨completed, store.trans (by rw [findings_oblivious oblivious seen])⟩
  refine ⟨Store.ofHistory (s.findings (fun _ => m₀) points), ?_, ?_, ?_⟩
  · intro order m perm
    rw [← ofHistory_findings_perm s _ distinct perm]
    exact inTurn_ok oblivious m₀ (fun p hp => passes p (perm.mem_iff.1 hp)) .empty m
  · exact fun workers m trace u run stuck => filled workers m trace u run (ended run stuck)
  · intro e target grants planned surveyed site m
    obtain ⟨trace, u, run, gone, same⟩ :=
      run_interleaves (workerCount e.processors e.workerCap points.length) points (pointTask s)
        (m, .empty)
    obtain ⟨completed, store⟩ := filled _ m trace u run gone
    refine allowances_grid planned site (n := u.shared.1) ?_
    rw [surveyed, runFrom_fillPoints, ← same, completed, ← store]

/-- An engine whose model takes more loss to the east of a grant. -/
def fadingEngine : Engine Unit ℚ :=
  { lossyEngine with
    model := .pure fun g eirp c _ => eirp - 220 - 10 * (c.position.longitude - g.position.longitude) }

/-- Two places of one parallel. -/
def roadside : List (Position ℚ) := [⟨37, -122⟩, ⟨37, -121⟩]

def roadsideTarget : Target ℚ :=
  ⟨.gwpz, ⟨3650000000, 3660000000⟩, .grid roadside, .area .rural⟩

def roadsidePlan : ChannelPlan ℚ :=
  ⟨.gwpz, ⟨3650000000, 3660000000⟩,
    [⟨⟨3650000000, 3655000000⟩, 1 / 83⟩, ⟨⟨3655000000, 3660000000⟩, 1 / 83⟩]⟩

def roadsideSurvey : Survey Unit ℚ := fadingEngine.survey roadsideTarget coastGrants roadsidePlan

theorem grid_schedule_irrelevant_roadside :
    (roadside.map Position.key).Nodup ∧ roadsideSurvey.model.IsOblivious ∧
    (∀ p ∈ roadside, ∀ m, ((roadsideSurvey.settle p).run m).1.halt = none) ∧
    ∃ store : Store ℚ,
      store.toList = [(⟨37000000, -122000000⟩, ⟨[1 / 201], [410 / 42009]⟩),
        (⟨37000000, -121000000⟩, ⟨[1 / 211], [430 / 46209]⟩)] ∧
      (∀ workers trace u,
        Run roadside (pointTask roadsideSurvey) (.start (crew workers roadside) ((), .empty)) trace u →
        (∀ w e t, ¬ Step roadside (pointTask roadsideSurvey) u w e t) →
        u.verdict = .completed ∧ u.shared.2 = store) ∧
      ∀ cap, (runFrom (({ fadingEngine with workerCap := cap } : Engine Unit ℚ).allowances
          roadsideTarget coastGrants) ()).1 =
        (Allowances.ofStore store (1 / 83) 2).mapError .refused := by
  have distinct : (roadside.map Position.key).Nodup := by decide +kernel
  have oblivious : roadsideSurvey.model.IsOblivious := InterferenceModel.pure_isOblivious _
  have ends : ∀ p ∈ roadside, ∀ m, ((roadsideSurvey.settle p).run m).1.halt = none := by
    simp only [← Option.isNone_iff_eq_none]
    decide +kernel
  obtain ⟨store, turns, filled, told⟩ :=
    (grid_schedule_irrelevant roadsideSurvey roadside distinct).2 oblivious ends
  refine ⟨distinct, oblivious, ends, store, ?_, fun workers => filled workers (), fun cap => ?_⟩
  · obtain ⟨n, ran⟩ := turns roadside () (.refl _)
    have entries : (runFrom (roadsideSurvey.inTurn roadside .empty) ()).1.toOption.map (·.toList) =
        some [(⟨37000000, -122000000⟩, ⟨[1 / 201], [410 / 42009]⟩),
          (⟨37000000, -121000000⟩, ⟨[1 / 211], [430 / 46209]⟩)] := by
      decide +kernel
    rw [ran] at entries
    exact Option.some.inj entries
  · have planned : fadingEngine.plan roadsideTarget = .ok roadsidePlan := by decide +kernel
    have threshold : (fadingEngine.rules.threshold .gwpz).mw = 1 / 83 := by decide +kernel
    rw [← threshold]
    exact told { fadingEngine with workerCap := cap } roadsideTarget coastGrants planned rfl rfl ()

end

end SpectrumShare
