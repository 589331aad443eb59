import Mathlib.Algebra.BigOperators.Group.List.Basic
import Mathlib.Algebra.GroupWithZero.Nat
import Mathlib.Algebra.Order.BigOperators.Group.List
import Mathlib.Data.List.Count
import Mathlib.Data.List.Range
import SpectrumShare.Pool.Step

/-!
# What a run of the pool adds up to

Each worker is somewhere with the item it took or the error it met, so what a run shows can be told
from the workers at its ends:

* `Run.starts_eq`: the items are started in the order of the list, each once;
* `Run.held_balance`: an item that was started has ended or is in the hands of a worker;
* `Run.lost_balance`: a worker is lost for each task that breaks down;
* `Run.carries` and `Run.troubled`: an error that a task ends with is carried on until one is reported,
  and no other is;
* `Run.sound`: a worker leaves only for an error or because the items have run out;
* `Run.over_or_step`: until every worker has left or is lost, some worker can go on;
* `Run.steady`: what every move keeps is kept, whoever makes the moves.
-/

namespace SpectrumShare.Pool

/-- A sum over a list of which one element is exchanged for another. -/
theorem sum_exchange {β : Type} {l : List β} {i : Nat} {a : β} (here : l[i]? = some a) (b : β)
    (measure : β → Nat) :
    ((l.set i b).map measure).sum + measure a = (l.map measure).sum + measure b := by
  induction l generalizing i with
  | nil => simp at here
  | cons x rest ih =>
    cases i with
    | zero =>
      cases here
      simp only [List.set_cons_zero, List.map_cons, List.sum_cons]
      omega
    | succ i =>
      have there := ih (by simpa using here)
      simp only [List.set_cons_succ, List.map_cons, List.sum_cons]
      omega

/-- An exchange leaves the other elements. -/
theorem mem_exchange {β : Type} {l : List β} {i : Nat} {a : β} (h : a ∈ l) (b : β) :
    a ∈ l.set i b ∨ l[i]? = some a := by
  obtain ⟨j, there⟩ := List.mem_iff_getElem?.1 h
  by_cases same : i = j
  · subst same
    exact .inr there
  · refine .inl (List.mem_iff_getElem?.2 ⟨j, ?_⟩)
    rw [List.getElem?_set_ne same, there]

section

variable {ω ε : Type}

/-- The item that a worker has in hand. -/
def Worker.item? : Worker ω ε → Option Nat
  | .beginning i => some i
  | .moving i _ _ => some i
  | _ => none

/-- The error that a worker has still to report. -/
def Worker.error? : Worker ω ε → Option ε
  | .raising e => some e
  | .reporting e => some e
  | _ => none

def Worker.isLost : Worker ω ε → Bool
  | .lost => true
  | _ => false

def Ending.isBroke : Ending ε → Bool
  | .broke => true
  | _ => false

end

namespace State

variable {ι ω ε : Type}

def Event.start? : Event ε → Option Nat
  | .started i => some i
  | _ => none

def Event.end? : Event ε → Option (Nat × Ending ε)
  | .ended i ending => some (i, ending)
  | _ => none

/-- The items that a trace shows to have been started, in order. -/
def starts (trace : List (Nat × Event ε)) : List Nat := trace.filterMap (·.2.start?)

/-- The items that a trace shows to have ended, and how. -/
def endings (trace : List (Nat × Event ε)) : List (Nat × Ending ε) := trace.filterMap (·.2.end?)

theorem starts_cons (w : Nat) (e : Event ε) (trace : List (Nat × Event ε)) :
    starts ((w, e) :: trace) = e.start?.toList ++ starts trace := by
  cases e <;> rfl

theorem endings_cons (w : Nat) (e : Event ε) (trace : List (Nat × Event ε)) :
    endings ((w, e) :: trace) = e.end?.toList ++ endings trace := by
  cases e <;> rfl

/-- How many workers have an item in hand. -/
def held (s : State ω ε) (i : Nat) : Nat :=
  (s.workers.map fun worker => worker.item?.toList.count i).sum

def lost (s : State ω ε) : Nat := (s.workers.map fun worker => worker.isLost.toNat).sum

/-- An error that was reported or is about to be. -/
def Carries (s : State ω ε) (e : ε) : Prop :=
  s.firstError = some e ∨ ∃ worker ∈ s.workers, worker.error? = some e

def Troubled (s : State ω ε) : Prop := ∃ e, s.Carries e

/-- The pool stops for an error only, and a worker leaves for an error or at the end of the list. -/
structure Sound (items : List ι) (s : State ω ε) : Prop where
  aborted : s.aborted = true → s.Troubled
  left : .left ∈ s.workers → s.Troubled ∨ items.length ≤ s.next

/-- The endings that the task of an item may come to. -/
def MayEnd (items : List ι) (task : ι → Task ω ε) (i : Nat) (ending : Ending ε) : Prop :=
  ∃ item shared, items[i]? = some item ∧ (task item shared).2 = ending

/-- Workers are at work on what they took. -/
def Faithful (items : List ι) (task : ι → Task ω ε) (s : State ω ε) : Prop :=
  ∀ i moves ending, .moving i moves ending ∈ s.workers → MayEnd items task i ending

/-- Workers have taken nothing but items of the list. -/
def Placed (items : List ι) (s : State ω ε) : Prop :=
  ∀ i, .beginning i ∈ s.workers → i < items.length

/-- A property holds of what is shared, and the moves that workers have begun with keep it. -/
structure Steady (kept : ω → Prop) (s : State ω ε) : Prop where
  shared : kept s.shared
  moves : ∀ i moves ending, .moving i moves ending ∈ s.workers →
    ∀ move ∈ moves, ∀ v, kept v → kept (move v)

theorem steady_start {kept : ω → Prop} (crew : Nat) {shared : ω} (holds : kept shared) :
    Steady kept (start crew shared : State ω ε) where
  shared := holds
  moves i moves ending there := by cases List.eq_of_mem_replicate there

/-- What becomes of one worker, and of the first error, in a step that shows `e`. -/
structure Turn (s t : State ω ε) (e : Event ε) (old new : Worker ω ε) : Prop where
  item : ∀ i, old.item?.toList.count i + e.start?.toList.count i =
    new.item?.toList.count i + (e.end?.toList.map (·.1)).count i
  lost : old.isLost.toNat + e.end?.toList.countP (·.2.isBroke) = new.isLost.toNat
  first : ∀ x, t.firstError = some x → s.firstError = some x ∨ old.error? = some x
  first_stays : ∀ x, s.firstError = some x → t.firstError = some x
  error : ∀ x, new.error? = some x → old.error? = some x ∨ ∃ i, e.end? = some (i, .failed x)
  error_stays : ∀ x, old.error? = some x → new.error? = some x ∨ t.firstError ≠ none
  failed : ∀ i x, e.end? = some (i, .failed x) → new.error? = some x

section

variable {items : List ι} {task : ι → Task ω ε} {s t u : State ω ε} {w : Nat} {e : Event ε}

theorem Step.turn (h : Step items task s w e t) :
    ∃ old new, s.workers[w]? = some old ∧ t.workers = s.workers.set w new ∧ Turn s t e old new := by
  cases h with
  | report here =>
    refine ⟨_, _, here, rfl, ?_, ?_, ?_, ?_, ?_, ?_, ?_⟩ <;> cases s.firstError <;>
      simp [Worker.item?, Worker.isLost, Worker.error?, Event.start?, Event.end?]
  | stop here | goOn here | claim here | runOut here | begin here | move here | pass here | fail here
  | breakDown here | raise here =>
    refine ⟨_, _, here, rfl, ?_, ?_, ?_, ?_, ?_, ?_, ?_⟩ <;>
      simp +contextual [put, Worker.item?, Worker.isLost, Worker.error?, Event.start?, Event.end?,
        Ending.isBroke]

/-- Only a claim starts an item, and it starts the next. -/
theorem Step.starts_eq (h : Step items task s w e t) :
    List.range (min s.next items.length) ++ e.start?.toList =
      List.range (min t.next items.length) := by
  cases h with
  | claim _ within =>
    have before : min s.next items.length = s.next := by omega
    have after : min (s.next + 1) items.length = s.next + 1 := by omega
    simp only [before, after, List.range_succ]
    rfl
  | runOut _ beyond =>
    have before : min s.next items.length = items.length := by omega
    have after : min (s.next + 1) items.length = items.length := by omega
    simp [before, after, Event.start?]
  | stop | goOn | begin | move | pass | fail | breakDown | raise | report =>
    simp [Event.start?, put]

theorem Step.held_balance (h : Step items task s w e t) (i : Nat) :
    s.held i + e.start?.toList.count i = t.held i + (e.end?.toList.map (·.1)).count i := by
  obtain ⟨old, new, here, changed, turn⟩ := h.turn
  have exchange := sum_exchange here new fun worker => worker.item?.toList.count i
  have item := turn.item i
  simp only [held, changed]
  omega

theorem Step.lost_balance (h : Step items task s w e t) :
    s.lost + e.end?.toList.countP (·.2.isBroke) = t.lost := by
  obtain ⟨old, new, here, changed, turn⟩ := h.turn
  have exchange := sum_exchange here new fun worker => worker.isLost.toNat
  have lost := turn.lost
  simp only [State.lost, changed]
  omega

theorem Step.crew (h : Step items task s w e t) : t.workers.length = s.workers.length := by
  obtain ⟨old, new, here, changed, turn⟩ := h.turn
  rw [changed, List.length_set]

/-- An error is carried only from the end of a task on. -/
theorem Step.carries (h : Step items task s w e t) {x : ε} (carried : t.Carries x) :
    s.Carries x ∨ ∃ i, e.end? = some (i, .failed x) := by
  obtain ⟨old, new, here, changed, turn⟩ := h.turn
  have mine : old.error? = some x → s.Carries x :=
    fun error => .inr ⟨old, List.mem_of_getElem? here, error⟩
  rcases carried with first | ⟨worker, there, error⟩
  · exact .inl ((turn.first x first).elim .inl mine)
  · rw [changed] at there
    rcases List.mem_or_eq_of_mem_set there with before | rfl
    · exact .inl (.inr ⟨worker, before, error⟩)
    · exact (turn.error x error).imp_left mine

/-- An error is carried on until one is reported. -/
theorem Step.troubled (h : Step items task s w e t)
    (trouble : s.Troubled ∨ ∃ i x, e.end? = some (i, .failed x)) : t.Troubled := by
  obtain ⟨old, new, here, changed, turn⟩ := h.turn
  have mine : ∀ x, new.error? = some x → t.Troubled := by
    intro x error
    refine ⟨x, .inr ⟨new, ?_, error⟩⟩
    rw [changed]
    exact List.mem_set (List.getElem?_eq_some_iff.1 here).1 new
  rcases trouble with ⟨x, first | ⟨worker, there, error⟩⟩ | ⟨i, x, failed⟩
  · exact ⟨x, .inl (turn.first_stays x first)⟩
  · rcases mem_exchange there new with still | its_turn
    · exact ⟨x, .inr ⟨worker, changed ▸ still, error⟩⟩
    · obtain rfl : old = worker := Option.some.inj (here.symm.trans its_turn)
      rcases turn.error_stays x error with error | reported
      · exact mine x error
      · obtain ⟨y, first⟩ := Option.ne_none_iff_exists'.1 reported
        exact ⟨y, .inl first⟩
  · exact mine x (turn.failed i x failed)

theorem Step.next_le (h : Step items task s w e t) : s.next ≤ t.next := by
  cases h with
  | claim | runOut => exact Nat.le_succ _
  | stop | goOn | begin | move | pass | fail | breakDown | raise | report => exact le_rfl

theorem Step.sound (h : Step items task s w e t) (sound : Sound items s) : Sound items t := by
  have on : s.Troubled → t.Troubled := fun trouble => h.troubled (.inl trouble)
  constructor
  · intro aborted
    cases h with
    | raise here => exact on ⟨_, .inr ⟨_, List.mem_of_getElem? here, rfl⟩⟩
    | stop | goOn | claim | runOut | begin | move | pass | fail | breakDown | report =>
      exact on (sound.aborted aborted)
  · intro left
    have stays := h.next_le
    have before : .left ∈ s.workers → t.Troubled ∨ items.length ≤ t.next :=
      fun left => (sound.left left).imp on fun ended => ended.trans stays
    cases h with
    | stop here aborted => exact .inl (on (sound.aborted aborted))
    | runOut here ended => exact .inr (ended.trans stays)
    | report here => exact .inl (on ⟨_, .inr ⟨_, List.mem_of_getElem? here, rfl⟩⟩)
    | goOn | claim | begin | move | pass | fail | breakDown | raise =>
      rcases List.mem_or_eq_of_mem_set left with there | new
      · exact before there
      · cases new

/-- A worker at work on an item was at work before, has just begun, or has just made a move. -/
theorem Step.moving (h : Step items task s w e t) {i : Nat} {moves : List (ω → ω)}
    {ending : Ending ε} (there : .moving i moves ending ∈ t.workers) :
    .moving i moves ending ∈ s.workers ∨
      (∃ item, items[i]? = some item ∧ task item s.shared = (moves, ending)) ∨
      ∃ move, .moving i (move :: moves) ending ∈ s.workers := by
  cases h with
  | begin here at_item =>
    rcases List.mem_or_eq_of_mem_set there with before | new
    · exact .inl before
    · cases new
      exact .inr (.inl ⟨_, at_item, rfl⟩)
  | move here =>
    rcases List.mem_or_eq_of_mem_set there with before | new
    · exact .inl before
    · cases new
      exact .inr (.inr ⟨_, List.mem_of_getElem? here⟩)
  | stop | goOn | claim | runOut | pass | fail | breakDown | raise | report =>
    rcases List.mem_or_eq_of_mem_set there with before | new
    · exact .inl before
    · cases new

theorem Step.faithful (h : Step items task s w e t) (faithful : Faithful items task s) :
    Faithful items task t := by
  intro i moves ending there
  rcases h.moving there with before | ⟨item, at_item, begun⟩ | ⟨move, before⟩
  · exact faithful i moves ending before
  · exact ⟨item, s.shared, at_item, congrArg Prod.snd begun⟩
  · exact faithful i _ ending before

theorem Step.placed (h : Step items task s w e t) (placed : Placed items s) : Placed items t := by
  intro i there
  cases h with
  | claim here within =>
    rcases List.mem_or_eq_of_mem_set there with before | new
    · exact placed i before
    · cases new
      exact within
  | stop | goOn | runOut | begin | move | pass | fail | breakDown | raise | report =>
    rcases List.mem_or_eq_of_mem_set there with before | new
    · exact placed i before
    · cases new

/-- A worker that has neither left nor is lost can go on. -/
theorem Placed.over_or_step (placed : Placed items s) :
    s.Over ∨ ∃ w e t, Step items task s w e t := by
  by_contra stuck
  obtain ⟨unfinished, none_steps⟩ := not_or.1 stuck
  apply unfinished
  intro worker there
  obtain ⟨w, here⟩ := List.mem_iff_getElem?.1 there
  have halts : ∀ {e t}, ¬ Step items task s w e t := fun h => none_steps ⟨w, _, _, h⟩
  cases worker with
  | checking =>
    cases flag : s.aborted with
    | true => exact absurd (.stop here flag) halts
    | false => exact absurd (.goOn here flag) halts
  | claiming =>
    by_cases within : s.next < items.length
    · exact absurd (.claim here within) halts
    · exact absurd (.runOut here (not_lt.1 within)) halts
  | beginning i =>
    exact absurd (.begin here (List.getElem?_eq_getElem (placed i there))) halts
  | moving i moves ending =>
    cases moves with
    | cons move rest => exact absurd (.move here) halts
    | nil =>
      cases ending with
      | passed => exact absurd (.pass here) halts
      | failed x => exact absurd (.fail here) halts
      | broke => exact absurd (.breakDown here) halts
  | raising x => exact absurd (.raise here) halts
  | reporting x => exact absurd (.report here) halts
  | left => rfl
  | lost => rfl

theorem Step.mayEnd (h : Step items task s w e t) (faithful : Faithful items task s) {i : Nat}
    {ending : Ending ε} (ended : e.end? = some (i, ending)) : MayEnd items task i ending := by
  cases h with
  | pass here | fail here | breakDown here =>
    cases ended
    exact faithful _ _ _ (List.mem_of_getElem? here)
  | stop | goOn | claim | runOut | begin | move | raise | report => cases ended

theorem Step.steady {kept : ω → Prop} (keeps : ∀ item ∈ items, ∀ shared,
      ∀ move ∈ (task item shared).1, ∀ v, kept v → kept (move v))
    (h : Step items task s w e t) (steady : Steady kept s) : Steady kept t := by
  constructor
  · cases h with
    | move here =>
      exact steady.moves _ _ _ (List.mem_of_getElem? here) _ List.mem_cons_self _ steady.shared
    | stop | goOn | claim | runOut | begin | pass | fail | breakDown | raise | report =>
      exact steady.shared
  · intro i moves ending there move ahead
    rcases h.moving there with before | ⟨item, at_item, begun⟩ | ⟨made, before⟩
    · exact steady.moves i moves ending before move ahead
    · apply keeps item (List.mem_of_getElem? at_item) s.shared
      rw [begun]
      exact ahead
    · exact steady.moves i _ ending before move (List.mem_cons_of_mem made ahead)

theorem Step.congr {task' : ι → Task ω ε} (same : ∀ item ∈ items, task item = task' item)
    (h : Step items task s w e t) : Step items task' s w e t := by
  cases h with
  | begin here at_item =>
    rw [same _ (List.mem_of_getElem? at_item)]
    exact .begin here at_item
  | stop here flag => exact .stop here flag
  | goOn here flag => exact .goOn here flag
  | claim here more => exact .claim here more
  | runOut here ended => exact .runOut here ended
  | move here => exact .move here
  | pass here => exact .pass here
  | fail here => exact .fail here
  | breakDown here => exact .breakDown here
  | raise here => exact .raise here
  | report here => exact .report here

end

section

variable {items : List ι} {task : ι → Task ω ε} {s u : State ω ε} {trace : List (Nat × Event ε)}

theorem Run.append {t : State ω ε} {past : List (Nat × Event ε)} (first : Run items task s past t)
    (rest : Run items task t trace u) : Run items task s (past ++ trace) u := by
  induction first with
  | done => exact rest
  | step now _ ih => exact .step now (ih rest)

theorem mem_endings_cons {w : Nat} {e : Event ε} {i : Nat} {ending : Ending ε} :
    (i, ending) ∈ endings ((w, e) :: trace) ↔
      e.end? = some (i, ending) ∨ (i, ending) ∈ endings trace := by
  rw [endings_cons, List.mem_append, Option.mem_toList]

/-- The items are started in the order of the list. -/
theorem Run.starts_eq (h : Run items task s trace u) :
    List.range (min s.next items.length) ++ starts trace = List.range (min u.next items.length) := by
  induction h with
  | done => simp [starts]
  | step first _ ih => rw [starts_cons, ← List.append_assoc, first.starts_eq, ih]

/-- An item that was started has ended or is in the hands of a worker. -/
theorem Run.held_balance (h : Run items task s trace u) (i : Nat) :
    s.held i + (starts trace).count i = u.held i + ((endings trace).map (·.1)).count i := by
  induction h with
  | done => rfl
  | step first _ ih =>
    have now := first.held_balance i
    rw [starts_cons, endings_cons, List.map_append, List.count_append, List.count_append]
    omega

/-- A worker is lost for each task that breaks down. -/
theorem Run.lost_balance (h : Run items task s trace u) :
    s.lost + (endings trace).countP (·.2.isBroke) = u.lost := by
  induction h with
  | done => rfl
  | step first _ ih =>
    have now := first.lost_balance
    rw [endings_cons, List.countP_append]
    omega

theorem Run.crew (h : Run items task s trace u) : u.workers.length = s.workers.length := by
  induction h with
  | done => rfl
  | step first _ ih => exact ih.trans first.crew

theorem Run.carries (h : Run items task s trace u) {x : ε} (carried : u.Carries x) :
    s.Carries x ∨ ∃ i, (i, .failed x) ∈ endings trace := by
  induction h with
  | done => exact .inl carried
  | step first _ ih =>
    rcases ih carried with before | ⟨i, later⟩
    · rcases first.carries before with before | ⟨i, failed⟩
      · exact .inl before
      · exact .inr ⟨i, mem_endings_cons.2 (.inl failed)⟩
    · exact .inr ⟨i, mem_endings_cons.2 (.inr later)⟩

theorem Run.troubled (h : Run items task s trace u)
    (trouble : s.Troubled ∨ ∃ i x, (i, .failed x) ∈ endings trace) : u.Troubled := by
  induction h with
  | done =>
    rcases trouble with before | ⟨i, x, failed⟩
    · exact before
    · cases failed
  | step first _ ih =>
    apply ih
    rcases trouble with before | ⟨i, x, failed⟩
    · exact .inl (first.troubled (.inl before))
    · rcases mem_endings_cons.1 failed with now | later
      · exact .inl (first.troubled (.inr ⟨i, x, now⟩))
      · exact .inr ⟨i, x, later⟩

theorem Run.sound (h : Run items task s trace u) (sound : Sound items s) : Sound items u := by
  induction h with
  | done => exact sound
  | step first _ ih => exact ih (first.sound sound)

theorem Run.mayEnd (h : Run items task s trace u) (faithful : Faithful items task s) {i : Nat}
    {ending : Ending ε} (ended : (i, ending) ∈ endings trace) : MayEnd items task i ending := by
  induction h with
  | done => cases ended
  | step first _ ih =>
    rcases mem_endings_cons.1 ended with now | later
    · exact first.mayEnd faithful now
    · exact ih (first.faithful faithful) later

theorem Run.over_or_step (h : Run items task s trace u) (placed : Placed items s) :
    u.Over ∨ ∃ w e t, Step items task u w e t := by
  induction h with
  | done => exact placed.over_or_step
  | step first _ ih => exact ih (first.placed placed)

/-- What every move of every task keeps is kept in any run. -/
theorem Run.steady {kept : ω → Prop} (keeps : ∀ item ∈ items, ∀ shared,
      ∀ move ∈ (task item shared).1, ∀ v, kept v → kept (move v))
    (h : Run items task s trace u) (steady : Steady kept s) : Steady kept u := by
  induction h with
  | done => exact steady
  | step first _ ih => exact ih (first.steady keeps steady)

theorem Run.congr {task' : ι → Task ω ε} (same : ∀ item ∈ items, task item = task' item)
    (h : Run items task s trace u) : Run items task' s trace u := by
  induction h with
  | done s => exact .done s
  | step first _ ih => exact .step (first.congr same) ih

end

end State

end SpectrumShare.Pool
