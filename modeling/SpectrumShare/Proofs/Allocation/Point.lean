import SpectrumShare.Proofs.History
import SpectrumShare.Proofs.Neighborhood

/-! # What a point writes

A point is a chain of searches, one for each channel in which some grant near it transmits, cut off by the
first that halts. The store gains the totals of the searches before the cut and nothing else. -/

namespace SpectrumShare.Allocation

section

variable {σ α β γ : Type}

theorem runFrom_mapM_length {f : β → Probing σ α γ} {bs : List β} {cs : List γ} {m n : σ}
    (run : runFrom (bs.mapM f) m = (.ok cs, n)) : cs.length = bs.length := by
  induction bs generalizing m cs with
  | nil =>
    cases run
    rfl
  | cons b rest ih =>
    rw [List.mapM_cons] at run
    obtain ⟨c, i, -, others⟩ := runFrom_bind_ok.1 run
    obtain ⟨ds, j, later, last⟩ := runFrom_bind_ok.1 others
    cases last
    rw [List.length_cons, ih later, List.length_cons]

/-- Each thing that such a chain comes to is what one of its searches came to. -/
theorem runFrom_mapM_mem {f : β → Probing σ α γ} {bs : List β} {cs : List γ} {m n : σ}
    (run : runFrom (bs.mapM f) m = (.ok cs, n)) {c : γ} (hc : c ∈ cs) :
    ∃ b ∈ bs, ∃ i j, runFrom (f b) i = (.ok c, j) := by
  induction bs generalizing m cs with
  | nil =>
    cases run
    cases hc
  | cons b rest ih =>
    rw [List.mapM_cons] at run
    obtain ⟨d, i, first, others⟩ := runFrom_bind_ok.1 run
    obtain ⟨ds, j, later, last⟩ := runFrom_bind_ok.1 others
    cases last
    rcases List.mem_cons.1 hc with rfl | there
    · exact ⟨b, List.mem_cons_self, m, i, first⟩
    · obtain ⟨b', hb', found⟩ := ih later there
      exact ⟨b', List.mem_cons_of_mem _ hb', found⟩

end

variable {σ α : Type} [Scalar α]

/-- The grants near a point that transmit in a channel, in the order in which they are listed. -/
def Survey.present (s : Survey σ α) (near : Grant α → Position α → EntityKind → Bool)
    (point : Position α) (c : PlannedChannel α) : List (Grant α) :=
  s.grants.filter fun g => near g point s.plan.kind && g.range.overlaps c.channel

/-- The planned channels in which some grant near a point transmits, in the order of the plan. -/
def Survey.contested (s : Survey σ α) (near : Grant α → Position α → EntityKind → Bool)
    (point : Position α) : List (PlannedChannel α) :=
  s.plan.channels.filter fun c => !(s.present near point c).isEmpty

section

variable {s : Survey σ α} {near : Grant α → Position α → EntityKind → Bool}
  (each : PicksEach s.neighborhood near) (point : Position α)

include each

theorem overlapping_eq_present (c : PlannedChannel α) :
    overlapping (s.neighborhood s.grants point s.plan.kind) (s.constraint point c) =
      s.present near point c := by
  rw [each, overlapping, List.filter_filter, Survey.present]
  congr 1
  funext g
  exact Bool.and_comm _ _

theorem filter_busy_eq_contested :
    s.plan.channels.filter (s.busy point (s.neighborhood s.grants point s.plan.kind)) =
      s.contested near point := by
  unfold Survey.contested
  congr 1
  funext c
  rw [Survey.busy, overlapping_eq_present each]

end

variable [Decibel α]

/-- The search among the grants near a point that transmit in a channel. -/
def Survey.contest (s : Survey σ α) (near : Grant α → Position α → EntityKind → Bool)
    (point : Position α) (c : PlannedChannel α) : Probing σ α (Allocation α) :=
  ofGrants ⟨s.model, s.constraint point c, s.receiver, s.floor⟩ c.quota (s.present near point c)

theorem search_eq_contest {s : Survey σ α} {near : Grant α → Position α → EntityKind → Bool}
    (each : PicksEach s.neighborhood near) (point : Position α) :
    s.search point (s.neighborhood s.grants point s.plan.kind) = s.contest near point := by
  funext c
  rw [Survey.search, overlapping_eq_present each, Survey.contest]

/-- How a chain of searches ends: with the last of its channels, or with the first search that halts. -/
inductive ChainEnd (search : PlannedChannel α → Probing σ α (Allocation α)) (m : σ) :
    List (PlannedChannel α) → Option (Halt α) → σ → Prop
  | complete : ChainEnd search m [] none m
  | halted {c : PlannedChannel α} {rest : List (PlannedChannel α)} {halt : Halt α} {n : σ}
      (run : runFrom (search c) m = (.error halt, n)) :
      ChainEnd search m (c :: rest) (some halt) n

/-- What the channels of a point come to: those in which a grant transmits are searched one after the
other up to the first search that halts. -/
theorem channels_chain (s : Survey σ α) (point : Position α) (near : List (Grant α))
    (cs : List (PlannedChannel α)) (m : σ) :
    ∃ (done left : List (PlannedChannel α)) (found : List (Allocation α)) (halt : Option (Halt α))
      (i n : σ),
      cs.filter (s.busy point near) = done ++ left ∧
      runFrom (done.mapM (s.search point near)) m = (.ok found, i) ∧
      ChainEnd (s.search point near) i left halt n ∧
      (s.channels point near cs).run m = (⟨found.map (·.totals), halt⟩, n) := by
  induction cs generalizing m with
  | nil => exact ⟨[], [], [], none, m, m, rfl, rfl, .complete, rfl⟩
  | cons c rest ih =>
    rw [channels_cons, runFrom_channel]
    cases busy : s.busy point near c with
    | false =>
      obtain ⟨done, left, found, halt, i, n, split, run, ends, others⟩ := ih m
      refine ⟨done, left, found, halt, i, n, ?_, run, ends, others⟩
      rw [List.filter_cons_of_neg (by simp [busy])]
      exact split
    | true =>
      rw [List.filter_cons_of_pos busy]
      simp only [↓reduceIte, runFrom_map]
      rcases first : runFrom (s.search point near c) m with ⟨halt | a, i⟩
      · exact ⟨[], _, [], some halt, m, i, rfl, rfl, .halted first, rfl⟩
      · obtain ⟨done, left, found, halt, j, n, split, run, ends, others⟩ := ih i
        refine ⟨c :: done, left, a :: found, halt, j, n, ?_, ?_, ends, ?_⟩
        · rw [split, List.cons_append]
        · rw [List.mapM_cons]
          exact runFrom_bind_ok.2 ⟨a, i, first, runFrom_bind_ok.2 ⟨found, j, run, rfl⟩⟩
        · simp only [Except.map, others, List.map_cons]

/-- **What a point writes.** The channels of the plan in which some grant near the point transmits are
searched in the order of the plan, among just those grants, up to the first search that halts. The key
of the point gains the totals of the searches before it and no other key changes. A point that no grant
is near may be left at once. -/
theorem point_writes (s : Survey σ α) {near : Grant α → Position α → EntityKind → Bool}
    (each : PicksEach s.neighborhood near) (point : Position α) (store : Store α) (m : σ) :
    s.settle point = s.outcome point ∧
    ∃ (done left : List (PlannedChannel α)) (found : List (Allocation α)) (i n : σ)
      (result : Except (Halt α) Nat) (after : Store α),
      s.contested near point = done ++ left ∧ found.length = done.length ∧
      runFrom (done.mapM (s.contest near point)) m = (.ok found, i) ∧
      (s.point point store).run m = ((result, after), n) ∧
      (left = [] ∧ result = .ok found.length ∧ n = i ∨
        ∃ c rest halt, left = c :: rest ∧ result = .error halt ∧
          runFrom (s.contest near point c) i = (.error halt, n)) ∧
      (∀ key, key ≠ point.key → after.get? key = store.get? key) ∧
      after.totals point.key =
        ⟨(store.totals point.key).localTotals ++ found.map (·.localTotal),
          (store.totals point.key).globalTotals ++ found.map (·.globalTotal)⟩ ∧
      (store.get? point.key = none → ((after.get? point.key).isSome ↔ 0 < found.length)) := by
  refine ⟨settle_eq_outcome s point, ?_⟩
  obtain ⟨done, left, found, halt, i, n, split, run, ends, outcome⟩ :=
    channels_chain s point (s.neighborhood s.grants point s.plan.kind) s.plan.channels m
  rw [filter_busy_eq_contested each] at split
  rw [search_eq_contest each] at run ends
  have written : ∃ result, (s.point point store).run m =
        ((result, record store point.key (found.map (·.totals))), n) ∧
      (left = [] ∧ result = .ok found.length ∧ n = i ∨
        ∃ c rest halt, left = c :: rest ∧ result = .error halt ∧
          runFrom (s.contest near point c) i = (.error halt, n)) := by
    rw [point_run, Survey.outcome, outcome]
    cases ends with
    | complete => exact ⟨_, rfl, .inl ⟨rfl, by rw [List.length_map], rfl⟩⟩
    | halted last => exact ⟨_, rfl, .inr ⟨_, _, _, rfl, rfl, last⟩⟩
  obtain ⟨result, wrote, ending⟩ := written
  refine ⟨done, left, found, i, n, result, _, split, runFrom_mapM_length run, run, wrote, ending,
    ?_, ?_, ?_⟩
  · intro key other
    rw [Store.get?_record, if_neg fun here => other here.1]
  · rw [Store.totals_record]
    simp [totals, Function.comp_def]
  · intro fresh
    rw [Store.get?_record, fresh, List.length_pos_iff]
    by_cases none : found = []
    · simp [none]
    · simp [none]

/-- How far north of another place a place lies, in metres. -/
def northward (p q : Position ℚ) : ℚ := 111000 * (p.latitude - q.latitude)

/-- A grant in two of three channels, of which the last can carry nothing. -/
def cutSurvey : Survey Unit ℚ where
  plan := ⟨.gwpz, ⟨3550000000, 3565000000⟩,
    [⟨⟨3550000000, 3555000000⟩, 30⟩, ⟨⟨3555000000, 3560000000⟩, 30⟩, ⟨⟨3560000000, 3565000000⟩, 0⟩]⟩
  grants := [⟨"far", ⟨38, -122⟩, 3, 0, ⟨3550000000, 3565000000⟩, .b, true⟩,
    ⟨"wide", ⟨37, -122⟩, 3, 0, ⟨3555000000, 3565000000⟩, .b, true⟩]
  receiver := .area .suburban
  model := .pure fun _ eirp _ _ => eirp
  neighborhood := Radii.standard.neighbors northward
  floor := -2

/-- What the store holds before the point is allocated into it. -/
def cutHistory : List (PointKey × ChannelTotals ℚ) :=
  [(⟨37000000, -122000000⟩, ⟨7, 9⟩), (⟨36000000, -122000000⟩, ⟨2, 2⟩)]

theorem point_writes_cut_off :
    PicksEach cutSurvey.neighborhood (Radii.standard.near northward) ∧
    ∃ (after : Store ℚ) (found : List (Allocation ℚ)),
      (cutSurvey.point ⟨37, -122⟩ (Store.ofHistory cutHistory)).run () =
        ((.error (.refused (.floorReached "wide" (-2) 0)), after), ()) ∧
      after.totals ⟨37000000, -122000000⟩ =
        ⟨7 :: found.map (·.localTotal), 9 :: found.map (·.globalTotal)⟩ ∧
      after.get? ⟨36000000, -122000000⟩ = some ⟨[2], [2]⟩ := by
  have each := Radii.neighbors_picksEach Radii.standard northward
  have run : ((cutSurvey.point ⟨37, -122⟩ (Store.ofHistory cutHistory)).run ()).1.1 =
      .error (.refused (.floorReached "wide" (-2) 0)) := by
    decide +kernel
  have key : (⟨37, -122⟩ : Position ℚ).key = ⟨37000000, -122000000⟩ := by decide +kernel
  obtain ⟨-, done, left, found, i, n, result, after, -, -, -, wrote, -, others, written, -⟩ :=
    point_writes cutSurvey each ⟨37, -122⟩ (Store.ofHistory cutHistory) ()
  rw [wrote] at run
  obtain rfl : result = _ := run
  rw [key] at others written
  refine ⟨each, after, found, wrote, ?_, ?_⟩
  · exact written
  · rw [others _ (by decide)]
    rfl

end SpectrumShare.Allocation
