import SpectrumShare.Allocation.Point
import SpectrumShare.Interference
import SpectrumShare.Proofs.Allocation.Stage
import SpectrumShare.Proofs.Neighborhood

/-! # Who owns a grant

Under a model that answers alike whoever owns a grant, ownership decides over nothing in a search but its
local total: a search among grants that nobody owns is the search among the same grants, with the ownership
taken out of its result. -/

namespace SpectrumShare

section

variable {σ α : Type}

/-- A model that answers alike whoever owns a grant. -/
def InterferenceModel.IgnoresOwner (model : InterferenceModel σ α) : Prop :=
  ∀ (g : Grant α) (managed : Bool), model.level { g with managed := managed } = model.level g

theorem FreeSpace.model_ignoresOwner [Scalar α] [Trigonometry α] [Decibel α] (space : FreeSpace α) :
    (space.model : InterferenceModel σ α).IgnoresOwner :=
  fun _ _ => rfl

end

namespace Allocation

variable {σ α : Type}

def Candidate.disown (c : Candidate α) : Candidate α := { c with grant := c.grant.disown }

theorem ofCandidate?_disown (cs : List (Candidate α)) :
    (cs.map Candidate.disown).filterMap GrantAllocation.ofCandidate? =
      (cs.filterMap GrantAllocation.ofCandidate?).map fun g => { g with managed := false } := by
  induction cs with
  | nil => rfl
  | cons c rest ih =>
    rw [List.map_cons, List.filterMap_cons, List.filterMap_cons, ih]
    simp only [GrantAllocation.ofCandidate?, Candidate.disown, Grant.disown]
    cases c.fit <;> rfl

variable [Scalar α]

def Tally.disown (t : Tally α) : Tally α := { t with localTotal := ((0 : Nat) : α) }

/-- What is left of a result when nobody owns its grants. -/
def disown (a : Allocation α) : Allocation α where
  constraint := a.constraint
  quota := a.quota
  remaining := a.remaining
  localTotal := ((0 : Nat) : α)
  globalTotal := a.globalTotal
  sweeps := a.sweeps
  grants := a.grants.map fun g => { g with managed := false }

theorem sweepBound_disown (floor : α) (grants : List (Grant α)) :
    sweepBound floor (grants.map Grant.disown) = sweepBound floor grants := by
  simp [sweepBound, List.foldl_map, Grant.disown]

variable [Decibel α]

theorem judge_disown (floor : α) (sweep : Nat) (t : Tally α) (c : Candidate α) (level : α) :
    judge floor sweep t.disown c.disown level =
      (judge floor sweep t c level).map (Prod.map Tally.disown Candidate.disown) := by
  simp only [judge, Candidate.disown, Grant.disown, Tally.disown]
  split
  · rfl
  · cases c.previous.filter _ with
    | some p => rfl
    | none =>
      by_cases below : Decibel.toLinear level < t.fairShare
      · simp only [below, ↓reduceIte]
        rfl
      · by_cases low : c.eirp - eirpStep < floor
        · simp only [below, low, ↓reduceIte]
          rfl
        · simp only [below, low, ↓reduceIte]
          rfl

variable {s : Setting σ α}

theorem visit_disown (blind : s.model.IgnoresOwner) (sweep : Nat) (t : Tally α) (c : Candidate α) :
    visit s sweep t.disown c.disown =
      Prod.map Tally.disown Candidate.disown <$> visit s sweep t c := by
  have asks : s.model.level c.disown.grant = s.model.level c.grant := blind c.grant false
  cases fits : c.fit.isSome with
  | true => simp [visit, Candidate.disown, fits]
  | false =>
    have waits : c.disown.fit.isSome = false := fits
    simp only [visit, waits, fits, Bool.false_eq_true, ↓reduceIte, map_bind, asks]
    congr 1
    funext answer
    cases answer with
    | none => rfl
    | some level =>
      simp only [judge_disown]
      cases judge s.floor sweep t c level <;> rfl

theorem sweepOver_disown (blind : s.model.IgnoresOwner) (sweep : Nat) (t : Tally α)
    (cs : List (Candidate α)) :
    sweepOver s sweep t.disown (cs.map Candidate.disown) =
      Prod.map Tally.disown (List.map Candidate.disown) <$> sweepOver s sweep t cs := by
  induction cs generalizing t with
  | nil => rfl
  | cons c rest ih =>
    simp only [List.map_cons, sweepOver, visit_disown blind, map_bind, bind_map_left, Prod.map_fst,
      Prod.map_snd, ih, map_pure]
    rfl

theorem converge_disown (blind : s.model.IgnoresOwner) (fuel sweeps : Nat) (t : Tally α)
    (cs : List (Candidate α)) :
    converge s fuel sweeps t.disown (cs.map Candidate.disown) =
      Prod.map id (Prod.map Tally.disown (List.map Candidate.disown)) <$>
        converge s fuel sweeps t cs := by
  induction fuel generalizing sweeps t cs with
  | zero =>
    unfold converge
    by_cases ended : t.waiting = 0
    · simp [Tally.disown, ended]
    · simp only [Tally.disown, ended, ↓reduceIte]
      rfl
  | succ fuel ih =>
    unfold converge
    by_cases ended : t.waiting = 0
    · simp [Tally.disown, ended]
    · have waits : ¬t.disown.waiting = 0 := ended
      simp only [waits, ended, ↓reduceIte, sweepOver_disown blind, map_bind, bind_map_left,
        Prod.map_fst, Prod.map_snd, ih]

/-- Ownership decides over nothing but the local total. -/
theorem ofGrants_disown (blind : s.model.IgnoresOwner) (quota : α) (grants : List (Grant α)) :
    ofGrants s quota (grants.map Grant.disown) = disown <$> ofGrants s quota grants := by
  have start : (grants.map Grant.disown).map Candidate.start =
      (grants.map Candidate.start).map Candidate.disown := by
    simp [Candidate.start, Candidate.disown, Grant.disown, Function.comp_def]
  have tally : (Tally.start quota grants.length : Tally α) = (Tally.start quota grants.length).disown :=
    rfl
  simp only [ofGrants, List.length_map, sweepBound_disown, start]
  rw [tally, converge_disown blind]
  simp only [map_bind, bind_map_left, Prod.map_fst, Prod.map_snd, ofCandidate?_disown, map_pure, id]
  rfl

end Allocation

end SpectrumShare
