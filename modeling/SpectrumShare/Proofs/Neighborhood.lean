import SpectrumShare.Neighborhood

/-! # How a neighborhood picks its grants

It may look at each grant by itself. If that look does not take in who owns the grant, ownership decides
over nothing, and the places of the grants in their list say which are picked. -/

namespace SpectrumShare

variable {α : Type}

/-- The grant as one that the local authority does not manage. -/
def Grant.disown (g : Grant α) : Grant α := { g with managed := false }

/-- A neighborhood that looks at each grant by itself. -/
def PicksEach (neighborhood : List (Grant α) → Position α → EntityKind → List (Grant α))
    (near : Grant α → Position α → EntityKind → Bool) : Prop :=
  ∀ grants point kind, neighborhood grants point kind = grants.filter (near · point kind)

/-- A neighborhood that picks grants by their places and without a look at who owns them. -/
def PicksBlindly (neighborhood : List (Grant α) → Position α → EntityKind → List (Grant α)) : Prop :=
  ∃ places : List (Grant α) → Position α → EntityKind → List Nat, ∀ grants point kind,
    neighborhood grants point kind =
      (places (grants.map Grant.disown) point kind).filterMap (grants[·]?)

theorem filterMap_range_length {β : Type} (l : List β) :
    (List.range l.length).filterMap (l[·]?) = l := by
  induction l with
  | nil => rfl
  | cons a rest ih =>
    rw [List.length_cons, List.range_succ_eq_map, List.filterMap_cons_some (by rfl),
      List.filterMap_map]
    simpa [Function.comp_def] using ih

/-- Picking grants one by one is blind if each is picked whoever owns it. -/
theorem PicksEach.picksBlindly
    {neighborhood : List (Grant α) → Position α → EntityKind → List (Grant α)}
    {near : Grant α → Position α → EntityKind → Bool} (each : PicksEach neighborhood near)
    (blind : ∀ (g : Grant α) (managed : Bool), near { g with managed := managed } = near g) :
    PicksBlindly neighborhood := by
  refine ⟨fun grants point kind => (List.range grants.length).filter fun i =>
    (grants[i]?).any (near · point kind), fun grants point kind => ?_⟩
  have alike : ∀ i : Nat, ((grants.map Grant.disown)[i]?).any (near · point kind) =
      (grants[i]?).any (near · point kind) := by
    intro i
    rw [List.getElem?_map]
    cases grants[i]? with
    | none => rfl
    | some g => exact congrFun (congrFun (blind g false) point) kind
  have numbered : grants.filter (near · point kind) =
      ((List.range grants.length).filterMap (grants[·]?)).filter (near · point kind) := by
    rw [filterMap_range_length]
  simp only [alike, List.length_map]
  rw [each, numbered, List.filter_filterMap, List.filterMap_filter]
  congr 1
  funext i
  cases grants[i]? with
  | none => rfl
  | some g => simp [Option.filter]

namespace Radii

variable [Scalar α] (radii : Radii α) (distance : Position α → Position α → α)

theorem neighbors_picksEach : PicksEach (radii.neighbors distance) (radii.near distance) :=
  fun _ _ _ => rfl

theorem neighbors_picksBlindly : PicksBlindly (radii.neighbors distance) :=
  (radii.neighbors_picksEach distance).picksBlindly fun _ _ => rfl

end Radii

end SpectrumShare
