import SpectrumShare.Proofs.Protection

/-! # Irrelevant grants do not matter

A grant is irrelevant to an entity if there is no site at which it is near and transmits in a planned
channel. Other grants may be near there without transmitting, or transmit from afar. What is near decides
whether a point is begun at all, but not what it comes to. -/

namespace SpectrumShare

/-- A list from which some items with a property were left out. -/
inductive Thinned {β : Type} (idle : β → Prop) : List β → List β → Prop
  | nil : Thinned idle [] []
  | keep (b : β) {all kept : List β} : Thinned idle all kept → Thinned idle (b :: all) (b :: kept)
  | drop {b : β} {all kept : List β} : idle b → Thinned idle all kept → Thinned idle (b :: all) kept

theorem Thinned.mono {β : Type} {idle idle' : β → Prop} {all kept : List β}
    (thinned : Thinned idle all kept) (weaker : ∀ b, idle b → idle' b) : Thinned idle' all kept := by
  induction thinned with
  | nil => exact .nil
  | keep b _ ih => exact .keep b ih
  | drop out _ ih => exact .drop (weaker _ out) ih

theorem Thinned.filter_eq {β : Type} {idle : β → Prop} {all kept : List β} (thinned : Thinned idle all kept)
    {p : β → Bool} (unseen : ∀ b, idle b → p b = false) : kept.filter p = all.filter p := by
  induction thinned with
  | nil => rfl
  | keep b _ ih => rw [List.filter_cons, List.filter_cons, ih]
  | drop out _ ih => rw [List.filter_cons_of_neg (by simp [unseen _ out]), ih]

namespace Pool

variable {ι ω ε : Type} {task task' : ι → Task ω ε}

theorem turns_congr {items : List ι} (same : ∀ item ∈ items, task item = task' item) (workers : Nat)
    (lost : Bool) (shared : ω) :
    turns task items workers lost shared = turns task' items workers lost shared := by
  induction items generalizing workers lost shared with
  | nil => rfl
  | cons item rest ih =>
    obtain ⟨first, others⟩ := List.forall_mem_cons.1 same
    cases workers with
    | zero => rfl
    | succ workers =>
      rw [turns, turns, first]
      rcases (task' item).run shared with ⟨_ | _ | _, after⟩
      · exact ih others _ _ _
      · rfl
      · exact ih others _ _ _

end Pool

namespace Allocation

variable {σ α : Type} [Scalar α]

/-- A grant that is at no site both near and in a planned channel. -/
def Survey.Ignores (s : Survey σ α) (near : Grant α → Position α → EntityKind → Bool)
    (points : List (Position α)) (g : Grant α) : Prop :=
  ∀ point ∈ points, ∀ c ∈ s.plan.channels,
    near g point s.plan.kind = false ∨ g.range.overlaps c.channel = false

/-- The survey of other grants. -/
def Survey.among (s : Survey σ α) (grants : List (Grant α)) : Survey σ α := { s with grants := grants }

variable {s : Survey σ α} {near : Grant α → Position α → EntityKind → Bool} {points : List (Position α)}
  {kept : List (Grant α)}

/-- Without the grants that are ignored the same ones meet in a channel. -/
theorem present_thinned (thinned : Thinned (s.Ignores near points) s.grants kept) {point : Position α}
    (there : point ∈ points) {c : PlannedChannel α} (planned : c ∈ s.plan.channels) :
    (s.among kept).present near point c = s.present near point c := by
  apply thinned.filter_eq
  intro g ignored
  rcases ignored point there c planned with far | apart
  · exact Bool.and_eq_false_iff.2 (.inl far)
  · exact Bool.and_eq_false_iff.2 (.inr apart)

variable [Decibel α]

/-- Among the grants near a point only those that meet in its channels matter. -/
theorem channels_among (s : Survey σ α) (kept : List (Grant α)) (point : Position α)
    {near near' : List (Grant α)} {cs : List (PlannedChannel α)} (same : ∀ c ∈ cs,
      overlapping near' (s.constraint point c) = overlapping near (s.constraint point c)) :
    (s.among kept).channels point near' cs = s.channels point near cs := by
  induction cs with
  | nil => rfl
  | cons c rest ih =>
    obtain ⟨first, others⟩ := List.forall_mem_cons.1 same
    have channel : (s.among kept).channel point near' c = s.channel point near c := by
      have search : (s.among kept).search point near' c = s.search point near c := by
        rw [Survey.search, Survey.search, ← first]
        rfl
      have busy : (s.among kept).busy point near' c = s.busy point near c := by
        rw [Survey.busy, Survey.busy, ← first]
        rfl
      rw [Survey.channel, Survey.channel, search, busy]
    rw [Survey.channels, Survey.channels, channel]
    simp only [ih others]

theorem settle_thinned (each : PicksEach s.neighborhood near)
    (thinned : Thinned (s.Ignores near points) s.grants kept) {point : Position α}
    (there : point ∈ points) : (s.among kept).settle point = s.settle point := by
  rw [settle_eq_outcome, settle_eq_outcome]
  refine channels_among s kept point fun c planned => ?_
  rw [overlapping_eq_present each, ← present_thinned thinned there planned]
  exact overlapping_eq_present (s := s.among kept) each point c

end Allocation

open Allocation

namespace Engine

theorem orRefuse_error_bind {σ α β γ : Type} (refusal : Error α) (f : β → Probing σ α γ) :
    orRefuse (.error refusal) >>= f = throw (.refused refusal) := rfl

variable {σ α : Type} [Scalar α] [Decibel α]

section

variable {s : Survey σ α} {near : Grant α → Position α → EntityKind → Bool} {kept : List (Grant α)}
  (each : PicksEach s.neighborhood near)
include each

theorem pointTask_thinned {points : List (Position α)}
    (thinned : Thinned (s.Ignores near points) s.grants kept) :
    ∀ point ∈ points, pointTask (s.among kept) point = pointTask s point := by
  intro point there
  funext shared
  rw [pointTask, pointTask, settle_thinned each thinned there]

theorem fillPoint_thinned {point : Position α} (thinned : Thinned (s.Ignores near [point]) s.grants kept) :
    fillPoint (s.among kept) point = fillPoint s point := by
  rw [fillPoint, fillPoint, Survey.point, Survey.point,
    settle_thinned each thinned List.mem_cons_self]

theorem Fills.thinned {sites : Sites α} {store : Store α}
    (thinned : Thinned (s.Ignores near sites.points) s.grants kept) :
    Fills (s.among kept) sites store ↔ Fills s sites store := by
  constructor
  · rintro (⟨run⟩ | ⟨run, gone, completed⟩)
    · exact .station (fillPoint_thinned each thinned ▸ run)
    · exact .grid (run.congr (pointTask_thinned each thinned)) gone completed
  · rintro (⟨run⟩ | ⟨run, gone, completed⟩)
    · exact .station (fillPoint_thinned each thinned ▸ run)
    · exact .grid (run.congr fun p hp => (pointTask_thinned each thinned p hp).symm) gone completed

end

theorem fillPoints_congr (e : Engine σ α) {s s' : Survey σ α} {points : List (Position α)}
    (same : ∀ point ∈ points, pointTask s' point = pointTask s point) :
    e.fillPoints s' points = e.fillPoints s points := by
  simp only [fillPoints, Pool.run, Pool.turns_congr same]

/-- A grant that does not matter to an entity: there is no site of the entity at which it is near and
transmits in a planned channel. -/
def Ignores (e : Engine σ α) (near : Grant α → Position α → EntityKind → Bool)
    (records : List (Licence α)) (entity : Entity α) (g : Grant α) : Prop :=
  ∀ target plan, e.duty records entity = .ok (.protect target) → e.plan target = .ok plan →
    ∀ point ∈ target.sites.points, ∀ c ∈ plan.channels,
      near g point entity.kind = false ∨ g.range.overlaps c.channel = false

/-- What does not matter to an entity does not matter to the survey of its target. -/
theorem Ignores.survey {e : Engine σ α} {near : Grant α → Position α → EntityKind → Bool}
    {records : List (Licence α)} {entity : Entity α} {g : Grant α}
    (ignored : e.Ignores near records entity g) {target : Target α} {plan : ChannelPlan α}
    (due : e.duty records entity = .ok (.protect target)) (planned : e.plan target = .ok plan)
    (grants : GrantSet α) : (e.survey target grants plan).Ignores near target.sites.points g := by
  have kind : plan.kind = entity.kind := by
    obtain ⟨channels, -, rfl⟩ := ChannelPlan.resolve_ok planned
    exact (Duty.target_of due).1
  intro point there c listed
  have apart := ignored target plan due planned point there c listed
  rwa [← kind] at apart

end Engine

section

open Engine

variable {σ α : Type} [Scalar α] [Decibel α]

/-- The totals of a target do not show grants that do not matter to it. -/
theorem aggregate_thinned {e : Engine σ α} {near : Grant α → Position α → EntityKind → Bool}
    (each : PicksEach e.neighborhood near) {target : Target α} {grants : GrantSet α}
    {kept : List (Grant α)} (thinned : ∀ plan, e.plan target = .ok plan →
      Thinned ((e.survey target grants plan).Ignores near target.sites.points) grants.grants kept) :
    e.aggregate target { grants with grants := kept } = e.aggregate target grants := by
  rw [aggregate, aggregate]
  cases planned : e.plan target with
  | error refusal => rw [orRefuse_error_bind, orRefuse_error_bind]
  | ok plan =>
    have thinned := thinned plan planned
    have survey : e.survey target { grants with grants := kept } plan =
        (e.survey target grants plan).among kept := rfl
    simp only [orRefuse, pure_bind, survey]
    cases site : target.sites with
    | station point =>
      rw [site] at thinned
      exact fillPoint_thinned (s := e.survey target grants plan) each thinned
    | grid points =>
      rw [site] at thinned
      exact fillPoints_congr e (pointTask_thinned (s := e.survey target grants plan) each thinned)

/-- **Irrelevant grants do not matter.** Leave out, at any positions, grants that are at no site of an
entity both within their radius and in a planned channel. Whatever the distances are, the engine does the
same: it gives the same result, none, or the same error. Nor do they matter to the results that other
interleavings of its workers give. -/
theorem irrelevant_grants_ignored (e : Engine σ α) (radii : Radii α)
    (distance : Position α → Position α → α) (nearby : e.neighborhood = radii.neighbors distance)
    (entity : Entity α) (records : List (Licence α)) (grants : GrantSet α) (kept : List (Grant α))
    (thinned : Thinned (e.Ignores (radii.near distance) records entity) grants.grants kept) :
    e.protect entity { grants with grants := kept } records = e.protect entity grants records ∧
    ∀ store a, Tells e entity { grants with grants := kept } records store a ↔
      Tells e entity grants records store a := by
  have each : PicksEach e.neighborhood (radii.near distance) := by
    rw [nearby]
    exact radii.neighbors_picksEach distance
  have surveyed : ∀ {target plan}, e.duty records entity = .ok (.protect target) →
      e.plan target = .ok plan →
      Thinned ((e.survey target grants plan).Ignores (radii.near distance) target.sites.points)
        grants.grants kept :=
    fun due planned => thinned.mono fun _ ignored => ignored.survey due planned grants
  constructor
  · rw [protect, protect]
    cases due : e.duty records entity with
    | error refusal =>
      -- refused before any grant is looked at
      rw [orRefuse_error_bind, orRefuse_error_bind]
    | ok duty =>
      cases duty with
      | exempt | idle => simp only [orRefuse, pure_bind]
      | protect target =>
        have totals := aggregate_thinned each fun plan planned => surveyed due planned
        simp only [orRefuse, pure_bind, allowances, totals]
  · intro store a
    constructor
    · rintro (due | ⟨due, planned, fills, shared⟩)
      · exact .idle due
      · exact .split due planned ((Fills.thinned each (surveyed due planned)).1 fills) shared
    · rintro (due | ⟨due, planned, fills, shared⟩)
      · exact .idle due
      · exact .split due planned ((Fills.thinned each (surveyed due planned)).2 fills) shared

/-- The lossy engine, which looks at grants within the standard radii to the north of a point. -/
def northernEngine : Engine Unit ℚ :=
  { lossyEngine with neighborhood := Radii.standard.neighbors northward }

def valley : List (Position ℚ) := [⟨37, -122⟩, ⟨37, -121⟩, ⟨38, -122⟩]

def valleyArea : Entity ℚ :=
  .gwpz ⟨"valley", valley, some .rural, some ⟨3650000000, 3660000000⟩⟩

def valleyTarget : Target ℚ :=
  ⟨.gwpz, ⟨3650000000, 3660000000⟩, .grid valley, .area .rural⟩

/-- Near the northern point only. -/
def ridgeGrant : Grant ℚ := ⟨"ridge", ⟨191 / 5, -122⟩, 3, 20, ⟨3655000000, 3665000000⟩, .b, true⟩

/-- Far from every point. -/
def distantGrant : Grant ℚ := ⟨"distant", ⟨39, -122⟩, 3, 30, ⟨3650000000, 3660000000⟩, .b, false⟩

/-- Near every point, in other channels. -/
def apartGrant : Grant ℚ := ⟨"apart", ⟨37, -122⟩, 3, 30, ⟨3660000000, 3670000000⟩, .a, false⟩

def floorGrant : Grant ℚ := ⟨"floor", ⟨37, -121⟩, 3, 12, ⟨3650000000, 3655000000⟩, .b, false⟩

def valleyGrants : GrantSet ℚ :=
  ⟨[distantGrant, ridgeGrant, apartGrant, floorGrant, distantGrant], 2⟩

theorem irrelevant_grants_ignored_valley :
    northernEngine.neighborhood = Radii.standard.neighbors northward ∧
    Thinned (northernEngine.Ignores (Radii.standard.near northward) [] valleyArea)
      valleyGrants.grants [ridgeGrant, floorGrant] ∧
    northernEngine.protect valleyArea ⟨[ridgeGrant, floorGrant], 2⟩ [] =
      northernEngine.protect valleyArea valleyGrants [] ∧
    ((runFrom (northernEngine.protect valleyArea valleyGrants []) ()).1.toOption.join.bind
      (·.get? ⟨38000000, -122000000⟩)) = some [68 / 18177, 147 / 17513] := by
  have due : northernEngine.duty [] valleyArea = .ok (.protect valleyTarget) := by decide +kernel
  have planned : northernEngine.plan valleyTarget = .ok ⟨.gwpz, valleyTarget.span,
      [⟨⟨3650000000, 3655000000⟩, 1 / 83⟩, ⟨⟨3655000000, 3660000000⟩, 1 / 83⟩]⟩ := by
    decide +kernel
  have ignores : ∀ g ∈ [distantGrant, apartGrant],
      northernEngine.Ignores (Radii.standard.near northward) [] valleyArea g := by
    intro g hg target plan due' planned'
    cases due.symm.trans due'
    cases planned.symm.trans planned'
    revert g
    decide +kernel
  have distant := ignores distantGrant (by simp)
  have apart := ignores apartGrant (by simp)
  have thinned : Thinned (northernEngine.Ignores (Radii.standard.near northward) [] valleyArea)
      valleyGrants.grants [ridgeGrant, floorGrant] :=
    .drop distant (.keep _ (.drop apart (.keep _ (.drop distant .nil))))
  obtain ⟨same, -⟩ := irrelevant_grants_ignored northernEngine Radii.standard northward rfl valleyArea []
    valleyGrants _ thinned
  exact ⟨rfl, thinned, same, by decide +kernel⟩

end

end SpectrumShare
