import SpectrumShare.Engine
import SpectrumShare.Proofs.Allocation.Balance

/-! # The share of one authority at one point

An authority allocates a point into a store that starts empty and splits the store among its group. That is
what the engine does for a target with one site, and what comes of it is read off the channels that were
allocated at the point. -/

namespace SpectrumShare

theorem PointMap.insert_insert_empty {ν : Type} (key : PointKey) (v w : ν) :
    (PointMap.empty.insert key v).insert key w = PointMap.empty.insert key w := by
  simp [insert, empty, SortedMap.insert, SortedMap.insertInto, SortedMap.empty, SortedMap.get?]

theorem PointMap.toList_insert_empty {ν : Type} (key : PointKey) (v : ν) :
    (PointMap.empty.insert key v).toList = [(key, v)] := rfl

theorem PointMap.map_insert_empty {ν μ : Type} (f : ν → μ) (key : PointKey) (v : ν) :
    (PointMap.empty.insert key v).map f = PointMap.empty.insert key (f v) := rfl

/-- The value that one channel of a point came to. -/
def Allowances.value? {α : Type} (a : Allowances α) (key : PointKey) (channel : Nat) : Option α := do
  (← a.get? key)[channel]?

namespace Allocation

variable {σ α : Type}

theorem record_after (key : PointKey) (locals globals : List α) (totals : List (ChannelTotals α)) :
    record (PointMap.empty.insert key ⟨locals, globals⟩) key totals =
      PointMap.empty.insert key
        ⟨locals ++ totals.map (·.localTotal), globals ++ totals.map (·.globalTotal)⟩ := by
  induction totals generalizing locals globals with
  | nil => simp [record]
  | cons t rest ih =>
    have before : (PointMap.empty.insert key (⟨locals, globals⟩ : PointTotals α)).get? key =
        some ⟨locals, globals⟩ := by
      rw [PointMap.get?_insert, if_pos rfl]
    have next : record (PointMap.empty.insert key ⟨locals, globals⟩) key (t :: rest) =
        record (PointMap.empty.insert key ⟨locals ++ [t.localTotal], globals ++ [t.globalTotal]⟩)
          key rest := by
      simp only [record, List.foldl_cons, Store.append, Store.totals, before, Option.getD_some,
        PointMap.insert_insert_empty]
    rw [next, ih]
    simp

theorem record_empty (key : PointKey) (totals : List (ChannelTotals α)) :
    record .empty key totals =
      if totals = [] then .empty
      else PointMap.empty.insert key ⟨totals.map (·.localTotal), totals.map (·.globalTotal)⟩ := by
  cases totals with
  | nil => rfl
  | cons t rest => exact record_after key [t.localTotal] [t.globalTotal] rest

theorem totals_record_empty (key : PointKey) (totals : List (ChannelTotals α)) (other : PointKey) :
    (record .empty key totals).totals other =
      if other = key then ⟨totals.map (·.localTotal), totals.map (·.globalTotal)⟩ else ⟨[], []⟩ := by
  have blank : (PointMap.empty : Store α).get? other = none := rfl
  rw [record_empty, Store.totals]
  by_cases none : totals = []
  · simp [none, blank]
  · rw [if_neg none, PointMap.get?_insert, blank]
    by_cases here : other = key
    · simp [here]
    · simp [here]

variable [Scalar α]

/-- What the totals of a channel leave to each of a number of authorities. -/
def ChannelTotals.share (t : ChannelTotals α) (threshold : α) (peers : Nat) : α :=
  (threshold - t.globalTotal) / ((peers : Nat) : α) + t.localTotal

theorem ofTotals_eq_share (threshold : α) (peers : Nat) (totals : List (ChannelTotals α)) :
    Allowances.ofTotals threshold peers ⟨totals.map (·.localTotal), totals.map (·.globalTotal)⟩ =
      totals.map (·.share threshold peers) := by
  simp [Allowances.ofTotals, ChannelTotals.share, List.zipWith_map, List.zipWith_self]

/-- What the channels of one point leave to each authority. -/
def allowed (threshold : α) (peers : Nat) (key : PointKey) (totals : List (ChannelTotals α)) :
    Allowances α :=
  if totals = [] then .empty
  else PointMap.empty.insert key (totals.map (·.share threshold peers))

theorem allowed_value? {threshold : α} {peers : Nat} {key other : PointKey}
    {totals : List (ChannelTotals α)} {i : Nat} {v : α} :
    (allowed threshold peers key totals).value? other i = some v ↔
      other = key ∧ ∃ t, totals[i]? = some t ∧ t.share threshold peers = v := by
  have blank : (PointMap.empty : Allowances α).get? other = none := rfl
  unfold allowed Allowances.value?
  by_cases none : totals = []
  · simp [none, blank]
  · rw [if_neg none, PointMap.get?_insert, blank]
    by_cases here : other = key
    · simp [here]
    · simp [here]

/-- Where the channels are as many, so are the points and the values. -/
theorem allowed_shape (threshold : α) (peers : Nat) (key : PointKey)
    (totals : List (ChannelTotals α)) :
    (allowed threshold peers key totals).toList.map (fun e => (e.1, e.2.length)) =
      if totals.length = 0 then [] else [(key, totals.length)] := by
  unfold allowed
  by_cases none : totals = []
  · subst none
    rfl
  · simp [none, PointMap.toList_insert_empty]

theorem ofStore_record_empty (threshold : α) {peers : Nat} (positive : 0 < peers) (key : PointKey)
    (totals : List (ChannelTotals α)) :
    Allowances.ofStore (record .empty key totals) threshold peers =
      .ok (allowed threshold peers key totals) := by
  rw [record_empty, allowed]
  by_cases none : totals = []
  · rw [if_pos none, if_pos none, Allowances.ofStore, if_neg positive.ne']
    rfl
  · simp only [none, ↓reduceIte, Allowances.ofStore, positive.ne', PointMap.toList_insert_empty]
    simp [PointTotals.isAligned, PointMap.map_insert_empty, ofTotals_eq_share]

variable [Decibel α]

theorem channels_cons (s : Survey σ α) (point : Position α) (near : List (Grant α))
    (c : PlannedChannel α) (rest : List (PlannedChannel α)) (m : σ) :
    (s.channels point near (c :: rest)).run m =
      match runFrom (s.channel point near c) m with
      | (.error halt, n) => (⟨[], some halt⟩, n)
      | (.ok none, n) => (s.channels point near rest).run n
      | (.ok (some totals), n) =>
        let (outcome, n) := (s.channels point near rest).run n
        ({ outcome with totals := totals :: outcome.totals }, n) := by
  simp only [Survey.channels, StateT.run_bind, runFrom]
  rcases (s.channel point near c).run.run m with ⟨r, n⟩
  rcases r with halt | ⟨_ | totals⟩ <;> rfl

theorem runFrom_channel (s : Survey σ α) (point : Position α) (near : List (Grant α))
    (c : PlannedChannel α) (m : σ) :
    runFrom (s.channel point near c) m =
      if s.busy point near c then
        runFrom ((fun a => some a.totals) <$> s.search point near c) m
      else (.ok none, m) := by
  rw [Survey.channel]
  split
  · rw [map_eq_pure_bind]
  · rfl

/-- The totals are what a search in the channel came to. -/
def Survey.Searched (s : Survey σ α) (point : Position α) (near : List (Grant α))
    (c : PlannedChannel α) (t : ChannelTotals α) : Prop :=
  ∃ a i j, runFrom (s.search point near c) i = (.ok a, j) ∧ ⟨a.localTotal, a.globalTotal⟩ = t

theorem channel_ok {s : Survey σ α} {point : Position α} {near : List (Grant α)}
    {c : PlannedChannel α} {m n : σ} {r : Option (ChannelTotals α)}
    (run : runFrom (s.channel point near c) m = (.ok r, n)) :
    (r = none ∧ s.busy point near c = false) ∨
      ∃ t, r = some t ∧ s.busy point near c = true ∧ s.Searched point near c t := by
  rw [runFrom_channel] at run
  cases busy : s.busy point near c with
  | false =>
    rw [busy] at run
    cases run
    exact .inl ⟨rfl, rfl⟩
  | true =>
    rw [busy] at run
    obtain ⟨a, found, made⟩ := runFrom_map_ok.1 run
    exact .inr ⟨a.totals, made.symm, rfl, a, m, n, found, rfl⟩

theorem forall₂_getElem? {β γ : Type} {R : β → γ → Prop} {bs : List β} {cs : List γ}
    (h : List.Forall₂ R bs cs) {i : Nat} {b : β} (hb : bs[i]? = some b) :
    ∃ c, cs[i]? = some c ∧ R b c := by
  induction h generalizing i with
  | nil => simp at hb
  | cons first _ ih =>
    cases i with
    | zero =>
      cases hb
      exact ⟨_, rfl, first⟩
    | succ i => exact ih hb

/-- A point that is allocated to its end has the totals of each channel in which a grant transmits. -/
theorem channels_ok {s : Survey σ α} {point : Position α} {near : List (Grant α)}
    {cs : List (PlannedChannel α)} {m n : σ} {totals : List (ChannelTotals α)}
    (run : (s.channels point near cs).run m = (⟨totals, none⟩, n)) :
    List.Forall₂ (s.Searched point near) (cs.filter (s.busy point near)) totals := by
  induction cs generalizing m totals with
  | nil =>
    cases run
    exact .nil
  | cons c rest ih =>
    rw [channels_cons] at run
    rcases first : runFrom (s.channel point near c) m with ⟨halt | r, i⟩
    · rw [first] at run
      cases run
    · rw [first] at run
      rcases channel_ok first with ⟨rfl, idle⟩ | ⟨t, rfl, busy, searched⟩
      · rw [List.filter_cons_of_neg (by simp [idle])]
        exact ih run
      · rcases others : (s.channels point near rest).run i with ⟨⟨ts, halt⟩, j⟩
        simp only [others] at run
        cases run
        rw [List.filter_cons_of_pos busy]
        exact .cons searched (ih others)

/-- The totals that an authority computes at a point, and what they leave to it. -/
def Survey.share (s : Survey σ α) (point : Position α) (threshold : α) (peers : Nat) :
    Probing σ α (Store α × Allowances α) := do
  let store ← Engine.fillPoint s point
  let allowed ← Engine.orRefuse (Allowances.ofStore store threshold peers)
  return (store, allowed)

/-- The engine shares out a target with one site by that. -/
theorem allowances_station (e : Engine σ α) (target : Target α) (grants : GrantSet α)
    {plan : ChannelPlan α} {point : Position α} (planned : e.plan target = .ok plan)
    (site : target.sites = .station point) :
    e.allowances target grants =
      Prod.snd <$> (e.survey target grants plan).share point (e.rules.threshold target.kind).mw
        grants.peers := by
  simp [Engine.allowances, Engine.aggregate, Survey.share, planned, site, Engine.orRefuse]

theorem point_run (s : Survey σ α) (point : Position α) (store : Store α) (m : σ) :
    (s.point point store).run m =
      match (s.outcome point).run m with
      | (⟨totals, none⟩, n) => ((.ok totals.length, record store point.key totals), n)
      | (⟨totals, some halt⟩, n) => ((.error halt, record store point.key totals), n) := by
  simp only [Survey.point, settle_eq_outcome, StateT.run_bind]
  rcases (s.outcome point).run m with ⟨⟨totals, _ | halt⟩, n⟩ <;> rfl

theorem runFrom_fillPoint (s : Survey σ α) (point : Position α) (m : σ) :
    runFrom (Engine.fillPoint s point) m =
      match (s.outcome point).run m with
      | (⟨totals, none⟩, n) => (.ok (record .empty point.key totals), n)
      | (⟨_, some halt⟩, n) => (.error halt, n) := by
  simp only [Engine.fillPoint, runFrom_ask, point_run]
  rcases (s.outcome point).run m with ⟨⟨totals, _ | halt⟩, n⟩ <;> rfl

/-- The channels of the point decide. -/
theorem runFrom_share (s : Survey σ α) (point : Position α) (threshold : α) {peers : Nat}
    (positive : 0 < peers) (m : σ) :
    runFrom (s.share point threshold peers) m =
      match (s.outcome point).run m with
      | (⟨totals, none⟩, n) =>
        (.ok (record .empty point.key totals, allowed threshold peers point.key totals), n)
      | (⟨_, some halt⟩, n) => (.error halt, n) := by
  simp only [Survey.share, runFrom_bind, runFrom_fillPoint]
  rcases (s.outcome point).run m with ⟨⟨totals, _ | halt⟩, n⟩
  · simp only [ofStore_record_empty threshold positive, Engine.orRefuse]
    rfl
  · rfl

theorem share_ok {s : Survey σ α} {point : Position α} {threshold : α} {peers : Nat}
    (positive : 0 < peers) {m n : σ} {store : Store α} {shares : Allowances α}
    (run : runFrom (s.share point threshold peers) m = (.ok (store, shares), n)) :
    ∃ totals, (s.outcome point).run m = (⟨totals, none⟩, n) ∧
      store = record .empty point.key totals ∧
      shares = allowed threshold peers point.key totals := by
  rw [runFrom_share s point threshold positive] at run
  rcases found : (s.outcome point).run m with ⟨⟨totals, halt⟩, i⟩
  rw [found] at run
  cases halt with
  | some halt => cases run
  | none =>
    cases run
    exact ⟨totals, rfl, rfl, rfl⟩

section

variable {K : Type} [Field K] [LinearOrder K] [IsStrictOrderedRing K] [Rounding K] [Decibel K]

/-- The totals of a channel stay below its quota. -/
theorem Survey.Searched.bounds (nonneg : ∀ level : K, 0 ≤ Decibel.toLinear level) {s : Survey σ K}
    {point : Position K} {near : List (Grant K)} {c : PlannedChannel K} {t : ChannelTotals K}
    (searched : s.Searched point near c t) (busy : s.busy point near c = true) :
    0 ≤ t.localTotal ∧ t.localTotal ≤ t.globalTotal ∧ t.globalTotal < c.quota := by
  obtain ⟨a, i, j, run, rfl⟩ := searched
  apply ofGrants_bounds nonneg run
  intro none
  simp [Survey.busy, none] at busy

end

end Allocation

end SpectrumShare
