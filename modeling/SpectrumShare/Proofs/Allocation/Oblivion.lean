import SpectrumShare.Proofs.Allocation.Share
import SpectrumShare.Proofs.Allocation.Simulation

/-! # Models whose memory does not show

A model may count or log its probes and still answer each question alike. Under such a model nothing that a
point comes to depends on what the model remembers when the point is begun. -/

namespace SpectrumShare

section

variable {σ α β : Type}

/-- A question that is answered alike whatever is remembered. -/
def Oblivious (question : StateM σ β) : Prop := ∀ m n, (question.run m).1 = (question.run n).1

/-- A model whose answers do not depend on what it remembers. -/
def InterferenceModel.IsOblivious (model : InterferenceModel σ α) : Prop :=
  ∀ g eirp c r, Oblivious (model.level g eirp c r)

theorem InterferenceModel.pure_isOblivious (level : Grant α → α → Constraint α → Receiver α → α) :
    (InterferenceModel.pure level : InterferenceModel σ α).IsOblivious :=
  fun _ _ _ _ _ _ => rfl

end

namespace Allocation

/-- A search that comes to the same from any two memories is oblivious. -/
theorem Accompanies.oblivious {σ α β : Type} {x : Probing σ α β}
    (h : Accompanies (fun _ _ => True) x x) : Oblivious x.run :=
  fun m n => (h m n trivial).1

variable {σ α : Type} [Scalar α] [Decibel α]

variable {s : Survey σ α} (oblivious : s.model.IsOblivious) (point : Position α)
include oblivious

theorem channel_oblivious (near : List (Grant α)) (c : PlannedChannel α) :
    Oblivious (s.channel point near c).run := by
  have answers : s.model.AnswersAs (fun _ _ => True) s.model :=
    fun g eirp c r m n _ => ⟨oblivious g eirp c r m n, trivial⟩
  apply Accompanies.oblivious
  have search : Accompanies (fun _ _ => True) (s.search point near c) (s.search point near c) :=
    ofGrants_accompanies (s := ⟨s.model, s.constraint point c, s.receiver, s.floor⟩) answers c.quota _
  unfold Survey.channel
  split
  · exact accompanies_bind search fun _ => accompanies_pure _
  · exact accompanies_pure _

theorem channels_oblivious (near : List (Grant α)) (cs : List (PlannedChannel α)) :
    Oblivious (s.channels point near cs) := by
  induction cs with
  | nil => exact fun _ _ => rfl
  | cons c rest ih =>
    intro m n
    have same : (runFrom (s.channel point near c) m).1 = (runFrom (s.channel point near c) n).1 :=
      channel_oblivious oblivious point near c m n
    rw [channels_cons, channels_cons]
    rcases one : runFrom (s.channel point near c) m with ⟨r, k⟩
    rcases other : runFrom (s.channel point near c) n with ⟨r', k'⟩
    rw [one, other] at same
    obtain rfl : r = r' := same
    rcases r with halt | _ | totals
    · rfl
    · exact ih k k'
    · exact congrArg (fun outcome : PointOutcome α =>
        ({ outcome with totals := totals :: outcome.totals } : PointOutcome α)) (ih k k')

/-- A point comes to the same whatever the model remembers. -/
theorem outcome_oblivious : Oblivious (s.outcome point) :=
  channels_oblivious oblivious point _ _

end Allocation

end SpectrumShare
