import SpectrumShare.Proofs.Lattice
import SpectrumShare.Proofs.Schedule

/-! # Each point of a grid owns its entry

Where the points of a grid have different keys, no point adds to the totals of another, and only one worker
ever appends to an entry. The grids of the sampler have such points as long as they are no finer than the
keys. -/

namespace SpectrumShare

open Allocation

theorem Store.append_shows {α : Type} (store : Store α) (key : PointKey) (own all : α) :
    (store.append key own all).get? key ≠ store.get? key := by
  intro same
  have longer := congrArg List.length
    (congrArg PointTotals.localTotals (Store.totals_append store key key own all))
  have kept : (store.append key own all).totals key = store.totals key := by
    rw [Store.totals, same, Store.totals]
  rw [kept] at longer
  simp at longer

namespace Engine

variable {σ α : Type} [Scalar α] [Decibel α]

/-- A point has at most one total for each planned channel, also when it is cut off. -/
theorem found_length_le (s : Survey σ α) (m : σ) (point : Position α) :
    (s.found m point).totals.length ≤ s.plan.channels.length := by
  obtain ⟨done, left, found, halt, i, n, split, run, -, outcome⟩ :=
    channels_chain s point (s.neighborhood s.grants point s.plan.kind) s.plan.channels m
  rw [Survey.found, Survey.outcome, outcome, List.length_map, runFrom_mapM_length run]
  calc done.length ≤ (done ++ left).length := by simp
    _ = (s.plan.channels.filter _).length := by rw [split]
    _ ≤ s.plan.channels.length := List.length_filter_le _ _

/-- Where points have different keys, no entry has more totals than there are planned channels. -/
theorem Fills.length_le {s : Survey σ α} {sites : Sites α} {store : Store α}
    (fills : Fills s sites store)
    (distinct : ∀ points, sites = .grid points → (points.map Position.key).Nodup) :
    ∃ history, store = .ofHistory history ∧
      ∀ key, (appendedTo key history).length ≤ s.plan.channels.length := by
  cases fills with
  | @station point m n store run =>
    rw [runFrom_fillPoint] at run
    have bound := found_length_le s m point
    rw [Survey.found] at bound
    rcases outcome : (s.outcome point).run m with ⟨⟨totals, halt⟩, i⟩
    rw [outcome] at run bound
    cases halt with
    | some halt => cases run
    | none =>
      cases run
      refine ⟨totals.map fun t => (point.key, t), Store.record_eq_appendAll .empty _ _, ?_⟩
      intro key
      rw [appendedTo_one]
      split
      · exact bound
      · exact Nat.zero_le _
  | @grid points workers m trace u run gone completed =>
    have distinct := distinct points rfl
    obtain ⟨seen, -, filled⟩ :=
      store_of_completed run gone (Pool.crew_pos workers points) distinct completed
    refine ⟨s.findings seen points, filled, fun key => ?_⟩
    by_cases there : key ∈ points.map Position.key
    · obtain ⟨p, hp, rfl⟩ := List.mem_map.1 there
      rw [appendedTo_findings s seen distinct hp]
      exact found_length_le s _ p
    · rw [appendedTo_findings_of_absent s seen there]
      exact Nat.zero_le _

/-- Where points have different keys, all that is appended to an entry is appended by one worker. -/
theorem one_appender {s : Survey σ α} {points : List (Position α)}
    (distinct : (points.map Position.key).Nodup) {crew : Nat} {m : σ}
    {past between : List (Nat × Pool.State.Event (Halt α))}
    {u u' v v' : Pool.State (σ × Store α) (Halt α)} {w w' : Nat} {d d' : Pool.State.Event (Halt α)}
    (before : Pool.State.Run points (pointTask s) (.start crew (m, .empty)) past u)
    (step : Pool.State.Step points (pointTask s) u w d u')
    (run : Pool.State.Run points (pointTask s) u' between v)
    (step' : Pool.State.Step points (pointTask s) v w' d' v') {key : PointKey} {own all own' all' : α}
    (append : u'.shared.2 = u.shared.2.append key own all)
    (append' : v'.shared.2 = v.shared.2.append key own' all') : w = w' := by
  have shows : u'.shared.2.get? key ≠ u.shared.2.get? key := append ▸ Store.append_shows _ _ _ _
  have shows' : v'.shared.2.get? key ≠ v.shared.2.get? key := append' ▸ Store.append_shows _ _ _ _
  -- no task touches a key that is no point's
  have there : key ∈ points.map Position.key := by
    by_contra absent
    have after := before.append (.step step (.done _))
    exact shows ((get?_of_run after absent).trans (get?_of_run before absent).symm)
  obtain ⟨p, hp, rfl⟩ := List.mem_map.1 there
  obtain ⟨i, here⟩ := List.mem_iff_getElem?.1 hp
  refine before.one_changer (pointTask_separate s distinct) step run step' (i := i) ?_ ?_
  · rwa [entry_eq here, entry_eq here]
  · rwa [entry_eq here, entry_eq here]

end Engine

section

open Engine Pool Pool.State

variable {σ K : Type} [Field K] [LinearOrder K] [IsStrictOrderedRing K] [FloorRing K] [Rounding K]
  [Rounding.IsExact K] [Decibel K]

/-- **Each point of a grid owns its entry.** Where the vertices of a zone are on the map and the grid is
not finer than a micro-degree, its points have different keys. A result then has at most one value for
each planned channel at each point, and no two workers ever append to one key. -/
theorem own_entries (e : Engine σ K) (sampled : e.grid = Grid.points)
    (fine : 3600 ≤ e.rules.gridResolution * 1000000) (entity : Entity K)
    (mapped : ∀ v ∈ entity.zone, Mapped v.latitude ∧ Mapped v.longitude) (grants : GrantSet K)
    (records : List (Licence K)) :
    (∀ points, e.grid entity.zone e.rules.gridResolution = .ok points →
      (points.map Position.key).Nodup) ∧
    (∀ m a n, runFrom (e.protect entity grants records) m = (.ok (some a), n) →
      ∃ store, Tells e entity grants records store a) ∧
    (∀ store a, Tells e entity grants records store a → ∀ key values, a.get? key = some values →
      ∃ target plan, e.duty records entity = .ok (.protect target) ∧ e.plan target = .ok plan ∧
        values.length ≤ plan.channels.length) ∧
    ∀ target plan points, e.duty records entity = .ok (.protect target) → e.plan target = .ok plan →
      target.sites = .grid points → ∀ workers m past u w d u' between v w' d' v' key own all own' all',
        Run points (pointTask (e.survey target grants plan)) (.start (crew workers points) (m, .empty))
          past u →
        Step points (pointTask (e.survey target grants plan)) u w d u' →
        u'.shared.2 = u.shared.2.append key own all →
        Run points (pointTask (e.survey target grants plan)) u' between v →
        Step points (pointTask (e.survey target grants plan)) v w' d' v' →
        v'.shared.2 = v.shared.2.append key own' all' → w = w' := by
  have distinct : ∀ points, e.grid entity.zone e.rules.gridResolution = .ok points →
      (points.map Position.key).Nodup := by
    rw [sampled]
    intro points laid
    exact Grid.points_keys_nodup fine (fun v hv => (mapped v hv).1) (fun v hv => (mapped v hv).2) laid
  have distinct_sites : ∀ {target points}, e.duty records entity = .ok (.protect target) →
      target.sites = .grid points → (points.map Position.key).Nodup :=
    fun due site => distinct _ ((Duty.target_of due).2 _ site)
  refine ⟨distinct, fun m a n run => protect_tells run, fun store a tells key values here => ?_, ?_⟩
  · cases tells with
    | idle due => cases here
    | @split target plan _ _ due planned fills shared =>
      refine ⟨target, plan, due, planned, ?_⟩
      obtain ⟨history, rfl, bound⟩ := fills.length_le fun points site => distinct_sites due site
      have positive : 0 < grants.peers := by
        by_contra none
        rw [Nat.eq_zero_of_not_pos none] at shared
        cases shared
      rw [ofStore_ofHistory _ positive] at shared
      cases shared
      rw [get?_split] at here
      split at here
      · cases here
        rw [sharesAt, List.length_map]
        exact bound key
      · cases here
  · intro target plan points due _ site workers m past u w d u' between v w' d' v' key own all own' all'
      before step append run step' append'
    exact one_appender (distinct_sites due site) before step run step' append append'

/-- The fading engine with the lattice as its grid. -/
def latticeEngine : Engine Unit ℚ := { fadingEngine with grid := Grid.points }

def square (south west side : ℚ) : List (Position ℚ) :=
  [⟨south, west⟩, ⟨south, west + side⟩, ⟨south + side, west + side⟩, ⟨south + side, west⟩]

/-- An area a thousandth of a degree wide, south of the equator and west of the meridian. -/
def park : Entity ℚ :=
  .gwpz ⟨"park", square (-37) (-122) (1 / 1000), some .rural, some ⟨3650000000, 3660000000⟩⟩

theorem own_entries_park :
    latticeEngine.grid = Grid.points ∧ 3600 ≤ latticeEngine.rules.gridResolution * 1000000 ∧
    (∀ v ∈ park.zone, Mapped v.latitude ∧ Mapped v.longitude) ∧
    ∃ points a, latticeEngine.grid park.zone latticeEngine.rules.gridResolution = .ok points ∧
      points.length = 4 ∧ (points.map Position.key).Nodup ∧
      runFrom (latticeEngine.protect park coastGrants []) () = (.ok (some a), ()) ∧ a.size = 4 ∧
      ∀ key values, a.get? key = some values → values.length ≤ 2 := by
  have fine : 3600 ≤ latticeEngine.rules.gridResolution * 1000000 := by decide +kernel
  have mapped : ∀ v ∈ park.zone, Mapped v.latitude ∧ Mapped v.longitude := by
    unfold Mapped
    decide +kernel
  obtain ⟨distinct, tells, bound, -⟩ :=
    own_entries latticeEngine rfl fine park mapped coastGrants []
  have laid : (latticeEngine.grid park.zone latticeEngine.rules.gridResolution).toOption.map
      List.length = some 4 := by
    decide +kernel
  have channels : ((latticeEngine.duty [] park).toOption.bind fun
      | .protect target => (latticeEngine.plan target).toOption.map (·.channels.length)
      | _ => none) = some 2 := by
    decide +kernel
  have answer : (runFrom (latticeEngine.protect park coastGrants []) ()).1.toOption.join.map
      PointMap.size = some 4 := by
    decide +kernel
  rcases grid : latticeEngine.grid park.zone latticeEngine.rules.gridResolution with _ | points
  · rw [grid] at laid
    cases laid
  rcases run : runFrom (latticeEngine.protect park coastGrants []) () with ⟨halt | _ | a, ⟨⟩⟩
  · rw [run] at answer
    cases answer
  · rw [run] at answer
    cases answer
  rw [grid] at laid
  rw [run] at answer
  obtain ⟨store, told⟩ := tells () a () run
  refine ⟨rfl, fine, mapped, points, a, rfl, Option.some.inj laid, distinct points grid, rfl,
    Option.some.inj answer, fun key values here => ?_⟩
  obtain ⟨target, plan, due, planned, within⟩ := bound store a told key values here
  rw [due] at channels
  simp only [Except.toOption, Option.bind_some, planned, Option.map_some] at channels
  exact Option.some.inj channels ▸ within

/-- Rules whose grid is finer than the keys. -/
def fineRules : Rules ℚ := { Rules.standard with gridResolution := 27 / 12500 }

def fineEngine : Engine Unit ℚ := { latticeEngine with rules := fineRules }

def plot : Entity ℚ :=
  .gwpz ⟨"plot", square (1 / 2000000) (1 / 2000000) (1 / 1250000), some .rural,
    some ⟨3650000000, 3655000000⟩⟩

/-- The rules accept a grid that is finer than the keys. Its points then share an entry, which has more
values than there are planned channels. -/
theorem fine_grid_shares_entry :
    fineRules.validate = .ok () ∧
    ∃ target plan points a values, fineEngine.duty [] plot = .ok (.protect target) ∧
      fineEngine.plan target = .ok plan ∧ target.sites = .grid points ∧
      Grid.points plot.zone fineRules.gridResolution = .ok points ∧
      ¬ (points.map Position.key).Nodup ∧
      runFrom (fineEngine.protect plot coastGrants []) () = (.ok (some a), ()) ∧
      a.get? ⟨1, 1⟩ = some values ∧ plan.channels.length < values.length := by
  have answer : ((runFrom (fineEngine.protect plot coastGrants []) ()).1.toOption.join.bind
      (·.get? ⟨1, 1⟩)).map List.length = some 4 := by
    decide +kernel
  rcases run : runFrom (fineEngine.protect plot coastGrants []) () with ⟨halt | _ | a, ⟨⟩⟩
  · rw [run] at answer
    cases answer
  · rw [run] at answer
    cases answer
  rw [run] at answer
  obtain ⟨values, here, four⟩ := Option.map_eq_some_iff.1 answer
  let points : List (Position ℚ) := [⟨3 / 5000000, 3 / 5000000⟩, ⟨3 / 5000000, 3 / 2500000⟩,
    ⟨3 / 2500000, 3 / 5000000⟩, ⟨3 / 2500000, 3 / 2500000⟩]
  let plan : ChannelPlan ℚ :=
    ⟨.gwpz, ⟨3650000000, 3655000000⟩, [⟨⟨3650000000, 3655000000⟩, 1 / 83⟩]⟩
  refine ⟨by decide +kernel, ⟨.gwpz, ⟨3650000000, 3655000000⟩, .grid points, .area .rural⟩, plan, points,
    a, values, by decide +kernel, by decide +kernel, rfl, by decide +kernel, by decide +kernel, rfl, here,
    ?_⟩
  rw [four]
  decide

end

end SpectrumShare
