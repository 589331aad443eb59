import SpectrumShare.Proofs.Allocation.Stage

/-! # Searches with models that answer alike

Two models may remember different things and still answer every question alike. Then a search comes to the
same with the one as with the other, and leaves memories that are related as they were before. -/

namespace SpectrumShare

section

variable {σ τ α β : Type}

/-- Two questions that are answered alike from related memories, which they leave related. -/
def AnsweredAlike (related : σ → τ → Prop) (question : StateM σ β) (other : StateM τ β) : Prop :=
  ∀ m n, related m n →
    (question.run m).1 = (other.run n).1 ∧ related (question.run m).2 (other.run n).2

/-- A model that answers every question as another does while their memories are related. -/
def InterferenceModel.AnswersAs (related : σ → τ → Prop) (model : InterferenceModel σ α)
    (other : InterferenceModel τ α) : Prop :=
  ∀ g eirp c r, AnsweredAlike related (model.level g eirp c r) (other.level g eirp c r)

end

namespace Allocation

section

variable {σ τ α β γ : Type} {related : σ → τ → Prop}

/-- Two searches that come to the same from related memories, which they leave related. -/
def Accompanies (related : σ → τ → Prop) (x : Probing σ α β) (y : Probing τ α β) : Prop :=
  AnsweredAlike related x.run y.run

theorem accompanies_pure (v : β) : Accompanies (α := α) related (pure v) (pure v) :=
  fun _ _ h => ⟨rfl, h⟩

theorem accompanies_throw (halt : Halt α) :
    Accompanies (β := β) related (throw halt) (throw halt) :=
  fun _ _ h => ⟨rfl, h⟩

theorem accompanies_bind {x : Probing σ α β} {y : Probing τ α β} {f : β → Probing σ α γ}
    {g : β → Probing τ α γ} (first : Accompanies related x y)
    (rest : ∀ b, Accompanies related (f b) (g b)) : Accompanies related (x >>= f) (y >>= g) := by
  intro m n h
  obtain ⟨same, after⟩ := first m n h
  change (runFrom (x >>= f) m).1 = (runFrom (y >>= g) n).1 ∧
    related (runFrom (x >>= f) m).2 (runFrom (y >>= g) n).2
  change (runFrom x m).1 = (runFrom y n).1 at same
  change related (runFrom x m).2 (runFrom y n).2 at after
  rw [runFrom_bind, runFrom_bind]
  rcases one : runFrom x m with ⟨r, k⟩
  rcases other : runFrom y n with ⟨r', k'⟩
  rw [one, other] at same after
  obtain rfl : r = r' := same
  cases r with
  | error halt => exact ⟨rfl, after⟩
  | ok b => exact rest b k k' after

theorem accompanies_ask {question : StateM σ β} {other : StateM τ β} {f : β → Probing σ α γ}
    {g : β → Probing τ α γ} (asked : AnsweredAlike related question other)
    (rest : ∀ b, Accompanies related (f b) (g b)) :
    Accompanies related ((question : Probing σ α β) >>= f) ((other : Probing τ α β) >>= g) := by
  intro m n h
  obtain ⟨same, after⟩ := asked m n h
  change (runFrom ((question : Probing σ α β) >>= f) m).1 =
      (runFrom ((other : Probing τ α β) >>= g) n).1 ∧
    related (runFrom ((question : Probing σ α β) >>= f) m).2
      (runFrom ((other : Probing τ α β) >>= g) n).2
  rw [runFrom_ask, runFrom_ask, ← same]
  exact rest _ _ _ after

end

variable {σ τ α : Type} [Scalar α] [Decibel α] {related : σ → τ → Prop} {s : Setting σ α}
  {other : InterferenceModel τ α}

/-- The same search with another model. -/
def Setting.withModel (s : Setting σ α) (other : InterferenceModel τ α) : Setting τ α :=
  ⟨other, s.constraint, s.receiver, s.floor⟩

variable (answers : s.model.AnswersAs related other)
include answers

theorem visit_accompanies (sweep : Nat) (t : Tally α) (c : Candidate α) :
    Accompanies related (visit s sweep t c) (visit (s.withModel other) sweep t c) := by
  unfold visit
  split
  · exact accompanies_pure _
  · refine accompanies_ask (answers _ _ _ _) fun answer => ?_
    cases answer with
    | none => exact accompanies_throw _
    | some level =>
      simp only [Setting.withModel]
      cases judge s.floor sweep t c level with
      | error e => exact accompanies_throw _
      | ok next => exact accompanies_pure _

theorem sweepOver_accompanies (sweep : Nat) (t : Tally α) (cs : List (Candidate α)) :
    Accompanies related (sweepOver s sweep t cs) (sweepOver (s.withModel other) sweep t cs) := by
  induction cs generalizing t with
  | nil => exact accompanies_pure _
  | cons c rest ih =>
    refine accompanies_bind (visit_accompanies answers sweep t c) fun next => ?_
    exact accompanies_bind (ih next.1) fun _ => accompanies_pure _

theorem converge_accompanies (fuel sweeps : Nat) (t : Tally α) (cs : List (Candidate α)) :
    Accompanies related (converge s fuel sweeps t cs)
      (converge (s.withModel other) fuel sweeps t cs) := by
  induction fuel generalizing sweeps t cs with
  | zero =>
    unfold converge
    split
    · exact accompanies_pure _
    · exact accompanies_throw _
  | succ fuel ih =>
    unfold converge
    split
    · exact accompanies_pure _
    · exact accompanies_bind (sweepOver_accompanies answers _ t cs) fun next => ih _ next.1 next.2

/-- A search comes to the same with either of two models that answer alike. -/
theorem ofGrants_accompanies (quota : α) (grants : List (Grant α)) :
    Accompanies related (ofGrants s quota grants) (ofGrants (s.withModel other) quota grants) :=
  accompanies_bind (converge_accompanies answers _ _ _ _) fun _ => accompanies_pure _

end Allocation

end SpectrumShare
