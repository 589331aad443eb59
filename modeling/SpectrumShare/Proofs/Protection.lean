import SpectrumShare.Proofs.Allocation.Point
import SpectrumShare.Proofs.ChannelPlan
import SpectrumShare.Proofs.Pool.Interleaving

/-!
# The protected threshold is never exceeded

From the entity to the value of one channel at one point, in whatever order the workers interleave:

* `Duty.target_of`: the threshold that plans the channels is the one that is split afterwards;
* `Fills.made`: a store is filled with nothing but the totals of searches in planned channels;
* `threshold_never_exceeded`: so what all grants cause stays below the threshold, and what the local
  authority may use is above what its own grants cause.
-/

namespace SpectrumShare

open Allocation

variable {σ α : Type}

def Sites.points : Sites α → List (Position α)
  | .station point => [point]
  | .grid points => points

/-- The zone over which the grid of an entity is laid; a station has none. -/
def Entity.zone : Entity α → List (Position α)
  | .ppa area => area.zone
  | .gwpz area => area.zone
  | .esc _ | .fssCochannel _ | .fssBlocking _ => []

section

variable [Scalar α]

/-- A target is of the kind of its entity, and its grid is the one over the zone of the entity. -/
theorem Duty.target_of {grid : List (Position α) → Except (Error α) (List (Position α))}
    {records : List (Licence α)} {entity : Entity α} {target : Target α}
    (due : Duty.ofEntity grid records entity = .ok (.protect target)) :
    target.kind = entity.kind ∧ ∀ points, target.sites = .grid points → grid entity.zone = .ok points := by
  cases entity with
  | esc sensor =>
    obtain ⟨antenna, -, last⟩ := bind_eq_ok.1 due
    cases last
    exact ⟨rfl, nofun⟩
  | ppa area =>
    obtain ⟨licence, -, due⟩ := bind_eq_ok.1 due
    obtain ⟨region, -, due⟩ := bind_eq_ok.1 due
    split at due
    · cases due
    · obtain ⟨points, laid, last⟩ := bind_eq_ok.1 due
      cases last
      exact ⟨rfl, fun _ site => Sites.grid.inj site ▸ laid⟩
  | gwpz area =>
    obtain ⟨span, -, due⟩ := bind_eq_ok.1 due
    obtain ⟨region, -, due⟩ := bind_eq_ok.1 due
    obtain ⟨points, laid, last⟩ := bind_eq_ok.1 due
    cases last
    exact ⟨rfl, fun _ site => Sites.grid.inj site ▸ laid⟩
  | fssCochannel station =>
    obtain ⟨range, -, due⟩ := bind_eq_ok.1 due
    dsimp only at due
    split at due
    · cases due
    · cases due
      exact ⟨rfl, nofun⟩
  | fssBlocking station =>
    obtain ⟨range, -, due⟩ := bind_eq_ok.1 due
    obtain ⟨telemetry, -, due⟩ := bind_eq_ok.1 due
    dsimp only at due
    split at due
    · cases due
    · split at due
      · cases due
      · cases due
        exact ⟨rfl, nofun⟩

end

namespace Engine

theorem runFrom_orRefuse_ok {ν : Type} {x : Except (Error α) ν} {v : ν} {m n : σ} :
    runFrom (orRefuse x) m = (.ok v, n) ↔ x = .ok v ∧ m = n := by
  cases x with
  | ok w => simp [orRefuse]
  | error e =>
    constructor
    · rintro ⟨⟩
    · rintro ⟨⟨⟩, -⟩

variable [Scalar α] [Decibel α]

/-- The stores that the sites of a target may come to, however the workers of a grid interleave. -/
inductive Fills (s : Survey σ α) : Sites α → Store α → Prop
  | station {point : Position α} {m n : σ} {store : Store α}
      (run : runFrom (fillPoint s point) m = (.ok store, n)) : Fills s (.station point) store
  | grid {points : List (Position α)} {workers : Nat} {m : σ}
      {trace : List (Nat × Pool.State.Event (Halt α))} {u : Pool.State (σ × Store α) (Halt α)}
      (run : Pool.State.Run points (pointTask s) (.start (Pool.crew workers points) (m, .empty)) trace u)
      (gone : u.Over) (completed : u.verdict = .completed) : Fills s (.grid points) u.shared.2

/-- What a search came to in a planned channel in which some grant transmits, at a site with the key. -/
def Found (s : Survey σ α) (sites : Sites α) (key : PointKey) (a : Allocation α) : Prop :=
  ∃ point ∈ sites.points, point.key = key ∧ ∃ c ∈ s.plan.channels,
    s.busy point (s.neighborhood s.grants point s.plan.kind) c = true ∧
    ∃ m n, runFrom (s.search point (s.neighborhood s.grants point s.plan.kind) c) m = (.ok a, n)

/-- What an authority may be told about an entity, and the store that it is split from. -/
inductive Tells (e : Engine σ α) (entity : Entity α) (grants : GrantSet α)
    (records : List (Licence α)) : Store α → Allowances α → Prop
  | idle (due : e.duty records entity = .ok .idle) : Tells e entity grants records .empty .empty
  | split {target : Target α} {plan : ChannelPlan α} {store : Store α} {a : Allowances α}
      (due : e.duty records entity = .ok (.protect target)) (planned : e.plan target = .ok plan)
      (fills : Fills (e.survey target grants plan) target.sites store)
      (shared : Allowances.ofStore store (e.rules.threshold target.kind).mw grants.peers = .ok a) :
      Tells e entity grants records store a

/-- The points of a grid are filled by workers that take turns. -/
theorem runFrom_fillPoints (e : Engine σ α) (s : Survey σ α) (points : List (Position α)) (m : σ) :
    runFrom (e.fillPoints s points) m =
      match Pool.run (Pool.workerCount e.processors e.workerCap points.length) points (pointTask s)
        (m, .empty) with
      | (.failed halt, n, _) => (.error halt, n)
      | (.workerLost, n, _) => (.error (.refused .workerLost), n)
      | (.completed, n, store) => (.ok store, n) := by
  have asked : runFrom (get : Probing σ α σ) m = (.ok m, m) := rfl
  rw [fillPoints, runFrom_bind, asked]
  dsimp only
  rcases Pool.run _ points (pointTask s) (m, .empty) with ⟨halt | _ | _, n, store⟩ <;> rfl

/-- Filling the sites of a target one after the other is one way of filling them. -/
theorem aggregate_fills {e : Engine σ α} {target : Target α} {grants : GrantSet α} {m n : σ}
    {store : Store α} (run : runFrom (e.aggregate target grants) m = (.ok store, n)) :
    ∃ plan, e.plan target = .ok plan ∧ Fills (e.survey target grants plan) target.sites store := by
  obtain ⟨plan, i, resolve, run⟩ := runFrom_bind_ok.1 run
  obtain ⟨planned, rfl⟩ := runFrom_orRefuse_ok.1 resolve
  refine ⟨plan, planned, ?_⟩
  cases sites : target.sites with
  | station point =>
    rw [sites] at run
    exact .station run
  | grid points =>
    rw [sites] at run
    obtain ⟨trace, u, ran, gone, same⟩ := Pool.run_interleaves
      (Pool.workerCount e.processors e.workerCap points.length) points
      (pointTask (e.survey target grants plan)) (m, .empty)
    change runFrom (e.fillPoints _ points) m = _ at run
    rw [runFrom_fillPoints, ← same] at run
    cases verdict : u.verdict with
    | completed =>
      rw [verdict] at run
      cases run
      exact .grid ran gone verdict
    | failed halt =>
      rw [verdict] at run
      cases run
    | workerLost =>
      rw [verdict] at run
      cases run

/-- What the engine answers for an entity is among its results. -/
theorem protect_tells {e : Engine σ α} {entity : Entity α} {grants : GrantSet α}
    {records : List (Licence α)} {m n : σ} {a : Allowances α}
    (run : runFrom (e.protect entity grants records) m = (.ok (some a), n)) :
    ∃ store, Tells e entity grants records store a := by
  obtain ⟨duty, i, ask, run⟩ := runFrom_bind_ok.1 run
  obtain ⟨due, rfl⟩ := runFrom_orRefuse_ok.1 ask
  cases duty with
  | exempt => cases run
  | idle =>
    cases run
    exact ⟨_, .idle due⟩
  | protect target =>
    obtain ⟨_, j, run, last⟩ := runFrom_bind_ok.1 run
    cases last
    obtain ⟨store, k, filled, run⟩ := runFrom_bind_ok.1 run
    obtain ⟨plan, planned, fills⟩ := aggregate_fills filled
    exact ⟨store, .split due planned fills (runFrom_orRefuse_ok.1 run).1⟩

/-- A point comes to nothing but totals of its searches, also when one of them halts. -/
theorem found_of_outcome {s : Survey σ α} {sites : Sites α} {point : Position α}
    (there : point ∈ sites.points) {m : σ} {t : ChannelTotals α}
    (ht : t ∈ ((s.outcome point).run m).1.totals) : ∃ a, Found s sites point.key a ∧ a.totals = t := by
  obtain ⟨done, left, found, halt, i, n, split, run, -, outcome⟩ :=
    channels_chain s point (s.neighborhood s.grants point s.plan.kind) s.plan.channels m
  rw [Survey.outcome, outcome] at ht
  obtain ⟨a, ha, rfl⟩ := List.mem_map.1 ht
  obtain ⟨c, hc, j, k, searched⟩ := runFrom_mapM_mem run ha
  have listed : c ∈ s.plan.channels.filter
      (s.busy point (s.neighborhood s.grants point s.plan.kind)) :=
    split ▸ List.mem_append_left left hc
  obtain ⟨planned, busy⟩ := List.mem_filter.1 listed
  exact ⟨a, ⟨point, there, rfl, c, planned, busy, j, k, searched⟩, rfl⟩

/-- The store was filled with the totals of searches only. -/
def Made (s : Survey σ α) (sites : Sites α) (store : Store α) : Prop :=
  ∃ history, store = .ofHistory history ∧ ∀ e ∈ history, ∃ a, Found s sites e.1 a ∧ a.totals = e.2

theorem Made.append {s : Survey σ α} {sites : Sites α} {store : Store α}
    (made : Made s sites store) {key : PointKey} {t : ChannelTotals α}
    (found : ∃ a, Found s sites key a ∧ a.totals = t) :
    Made s sites (store.append key t.localTotal t.globalTotal) := by
  obtain ⟨history, rfl, all⟩ := made
  refine ⟨history ++ [(key, t)], ?_, ?_⟩
  · rw [Store.ofHistory, Store.ofHistory, Store.appendAll_append]
    rfl
  · intro e he
    rcases List.mem_append.1 he with before | last
    · exact all e before
    · obtain rfl := List.mem_singleton.1 last
      exact found

theorem made_empty (s : Survey σ α) (sites : Sites α) : Made s sites .empty :=
  ⟨[], rfl, fun _ none => absurd none List.not_mem_nil⟩

/-- A task brings the memory up to date and appends the totals of its point. -/
theorem pointTask_moves (s : Survey σ α) (point : Position α) (shared : σ × Store α) :
    (pointTask s point shared).1 =
      (fun v => (((s.outcome point).run shared.1).2, v.2)) ::
        ((s.outcome point).run shared.1).1.totals.map fun t v =>
          (v.1, v.2.append point.key t.localTotal t.globalTotal) := by
  rw [← settle_eq_outcome]
  rfl

/-- A store is made of nothing but the totals of searches, whoever appends them. -/
theorem Fills.made {s : Survey σ α} {sites : Sites α} {store : Store α} (fills : Fills s sites store) :
    Made s sites store := by
  cases fills with
  | @station point m n store run =>
    rw [runFrom_fillPoint] at run
    rcases outcome : (s.outcome point).run m with ⟨⟨totals, halt⟩, i⟩
    rw [outcome] at run
    cases halt with
    | some halt => cases run
    | none =>
      cases run
      refine ⟨totals.map fun t => (point.key, t), Store.record_eq_appendAll .empty _ _, ?_⟩
      intro e he
      obtain ⟨t, ht, rfl⟩ := List.mem_map.1 he
      refine found_of_outcome (m := m) List.mem_cons_self ?_
      rw [outcome]
      exact ht
  | @grid points workers m trace u run gone completed =>
    have keeps : ∀ point ∈ points, ∀ shared, ∀ move ∈ (pointTask s point shared).1,
        ∀ v : σ × Store α, Made s (.grid points) v.2 → Made s (.grid points) (move v).2 := by
      intro point there shared move begun v made
      rw [pointTask_moves] at begun
      rcases List.mem_cons.1 begun with rfl | append
      · exact made
      · obtain ⟨t, ht, rfl⟩ := List.mem_map.1 append
        exact made.append (found_of_outcome there ht)
    have begins : Pool.State.Steady (fun v : σ × Store α => Made s (.grid points) v.2)
        (.start (Pool.crew workers points) (m, .empty) : Pool.State (σ × Store α) (Halt α)) :=
      Pool.State.steady_start _ (made_empty s _)
    exact (run.steady keeps begins).shared

end Engine

section

open Engine

variable {K : Type} [Field K] [LinearOrder K] [IsStrictOrderedRing K] [Rounding K]

theorem own_lt_share {t : ChannelTotals K} {threshold : K} (below : t.globalTotal < threshold)
    {peers : Nat} (positive : 0 < peers) : t.localTotal < t.share threshold peers := by
  have some_peer : (0 : K) < peers := Nat.cast_pos.2 positive
  have free : 0 < (threshold - t.globalTotal) / peers := div_pos (sub_pos.2 below) some_peer
  exact lt_add_of_pos_left t.localTotal free

variable [Decibel K]

theorem Engine.Found.sums {s : Survey σ K} {sites : Sites K} {key : PointKey} {a : Allocation K}
    (found : Found s sites key a) :
    a.globalTotal = (a.grants.map (·.fit.interference)).sum ∧
      a.localTotal = ((a.grants.filter (·.managed)).map (·.fit.interference)).sum := by
  obtain ⟨point, -, -, c, -, -, m, n, run⟩ := found
  obtain ⟨-, all, own, -⟩ := ofGrants_totals run
  exact ⟨all, own⟩

/-- What a search for a target comes to stays below the threshold of the target. -/
theorem Engine.Found.below (nonneg : ∀ level : K, 0 ≤ Decibel.toLinear level)
    (rising : Monotone (Decibel.toLinear : K → K)) {e : Engine σ K} {target : Target K}
    (ruled : e.rules = .standard ∨ target.kind ≠ .esc) {plan : ChannelPlan K}
    (planned : e.plan target = .ok plan) {grants : GrantSet K} {key : PointKey} {a : Allocation K}
    (found : Found (e.survey target grants plan) target.sites key a) :
    0 ≤ a.localTotal ∧ a.globalTotal < (e.rules.threshold target.kind).mw := by
  obtain ⟨point, -, -, c, hc, busy, m, n, run⟩ := found
  obtain ⟨least, -, within⟩ := Survey.Searched.bounds nonneg ⟨a, m, n, run, rfl⟩ busy
  exact ⟨least, within.trans_le (ChannelPlan.quota_le_threshold rising ruled planned hc)⟩

/-- **The protected threshold is never exceeded.** A value of a result for an entity is left by a search
in a planned channel at one of its sites. What all grants of the search cause together stays below the
threshold of the entity, though it is the quota of the channel that bounds the search, and the value is
above what the grants of the local authority cause. The answer of the engine is such a result. -/
theorem threshold_never_exceeded (nonneg : ∀ level : K, 0 ≤ Decibel.toLinear level)
    (rising : Monotone (Decibel.toLinear : K → K)) (e : Engine σ K) (entity : Entity K)
    (grants : GrantSet K) (records : List (Licence K))
    (ruled : e.rules = .standard ∨ entity.kind ≠ .esc) :
    (∀ m a n, runFrom (e.protect entity grants records) m = (.ok (some a), n) →
      ∃ store, Tells e entity grants records store a) ∧
    ∀ store a, Tells e entity grants records store a → ∀ key i v, a.value? key i = some v →
      ∃ target plan found,
        e.duty records entity = .ok (.protect target) ∧ e.plan target = .ok plan ∧
        Found (e.survey target grants plan) target.sites key found ∧
        (store.totals key).globalTotals[i]? = some found.globalTotal ∧
        (store.totals key).localTotals[i]? = some found.localTotal ∧
        found.globalTotal = (found.grants.map (·.fit.interference)).sum ∧
        found.localTotal = ((found.grants.filter (·.managed)).map (·.fit.interference)).sum ∧
        v = ((e.rules.threshold entity.kind).mw - found.globalTotal) / grants.peers +
          found.localTotal ∧
        found.globalTotal < (e.rules.threshold entity.kind).mw ∧ found.localTotal < v ∧ 0 < v := by
  refine ⟨fun m a n run => protect_tells run, fun store a tells key i v here => ?_⟩
  cases tells with
  | idle due => cases here
  | @split target plan _ _ due planned fills shared =>
    have kind : target.kind = entity.kind := (Duty.target_of due).1
    rw [← kind] at ruled ⊢
    obtain ⟨history, rfl, made⟩ := fills.made
    have positive : 0 < grants.peers := by
      by_contra none
      rw [Nat.eq_zero_of_not_pos none] at shared
      cases shared
    rw [ofStore_ofHistory _ positive] at shared
    cases shared
    obtain ⟨t, at_i, rfl⟩ := value?_split.1 here
    obtain ⟨a, found, rfl⟩ := made _ (mem_of_appendedTo (List.mem_of_getElem? at_i))
    obtain ⟨least, below⟩ := found.below nonneg rising ruled planned
    have above := own_lt_share (t := a.totals) below positive
    obtain ⟨all, own⟩ := found.sums
    refine ⟨target, plan, a, due, planned, found, ?_, ?_, all, own, rfl, below, above,
      least.trans_lt above⟩
    · simp [Store.totals_ofHistory, at_i, totals]
    · simp [Store.totals_ofHistory, at_i, totals]

/-- An engine whose model takes the same loss everywhere. -/
def lossyEngine : Engine Unit ℚ where
  model := .pure fun _ eirp _ _ => eirp - 230
  neighborhood := fun grants _ _ => grants
  grid := fun zone _ => .ok zone
  rules := .standard
  processors := 4
  workerCap := none

def coast : Entity ℚ := .esc ⟨"coast", ⟨37, -122⟩, 10, 0, 0, [⟨0, 0⟩]⟩

/-- The grants of two authorities about the edge from which the quota of radar falls off. -/
def coastGrants : GrantSet ℚ where
  grants := [⟨"own", ⟨37, -122⟩, 3, 20, ⟨3645000000, 3655000000⟩, .b, true⟩,
    ⟨"other", ⟨37, -122⟩, 3, 12, ⟨3650000000, 3655000000⟩, .b, false⟩]
  peers := 2

theorem threshold_never_exceeded_coast :
    (∀ level : ℚ, 0 ≤ Decibel.toLinear level) ∧ Monotone (Decibel.toLinear : ℚ → ℚ) ∧
    (lossyEngine.rules = .standard ∨ coast.kind ≠ .esc) ∧
    ∃ (a : Allowances ℚ) (own all : ℚ),
      runFrom (lossyEngine.protect coast coastGrants []) () = (.ok (some a), ()) ∧
      a.value? ⟨37000000, -122000000⟩ 1 = some (48287 / 10310520) ∧
      all < (lossyEngine.rules.threshold coast.kind).mw ∧ own < 48287 / 10310520 ∧
      ((lossyEngine.rules.threshold coast.kind).mw - all) / 2 + own = 48287 / 10310520 := by
  have nonneg : ∀ level : ℚ, 0 ≤ Decibel.toLinear level := fun level => (toLinear_pos level).le
  have answer : (runFrom (lossyEngine.protect coast coastGrants []) ()).1.toOption.join.bind
      (·.value? ⟨37000000, -122000000⟩ 1) = some (48287 / 10310520) := by
    decide +kernel
  rcases run : runFrom (lossyEngine.protect coast coastGrants []) () with ⟨halt | _ | a, ⟨⟩⟩
  · rw [run] at answer
    cases answer
  · rw [run] at answer
    cases answer
  · rw [run] at answer
    obtain ⟨tells, values⟩ := threshold_never_exceeded nonneg toLinear_mono lossyEngine coast
      coastGrants [] (.inl rfl)
    obtain ⟨store, told⟩ := tells () a () run
    obtain ⟨-, -, found, -, -, -, -, -, -, -, value, below, above, -⟩ :=
      values store a told _ 1 _ answer
    exact ⟨nonneg, toLinear_mono, .inl rfl, a, found.localTotal, found.globalTotal, rfl, answer, below,
      above, value.symm⟩

end

end SpectrumShare
