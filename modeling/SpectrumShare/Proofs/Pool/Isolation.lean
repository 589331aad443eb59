import SpectrumShare.Proofs.Pool.Verdict

/-! # Tasks that keep to their own

Suppose each item has a view of what the workers share, that the moves of the other items leave alone and
that its own moves change by what the view itself shows. Then nobody can tell from a view how the workers
interleaved. -/

namespace SpectrumShare.Pool

section

variable {ι ω ε ν : Type}

/-- Views of what is shared, one for each item, with which the items do not get into each other's way. -/
structure Separate (items : List ι) (task : ι → Task ω ε) (view : Nat → ω → ν) : Prop where
  /-- A move changes the view of its own item by what that view shows. -/
  own : ∀ {i : Nat} {item : ι} {seen : ω} {move : ω → ω}, items[i]? = some item →
    move ∈ (task item seen).1 → ∀ {v w : ω}, view i v = view i w → view i (move v) = view i (move w)
  /-- A move leaves the views of the other items. -/
  others : ∀ {i j : Nat} {item : ι} {seen : ω} {move : ω → ω}, items[j]? = some item →
    move ∈ (task item seen).1 → j ≠ i → ∀ v : ω, view i (move v) = view i v

theorem Separate.view_makeMoves {items : List ι} {task : ι → Task ω ε} {view : Nat → ω → ν}
    (separate : Separate items task view) {i : Nat} {item : ι} {seen : ω} (here : items[i]? = some item)
    {moves : List (ω → ω)} (begun : ∀ move ∈ moves, move ∈ (task item seen).1) {v w : ω}
    (same : view i v = view i w) : view i (makeMoves moves v) = view i (makeMoves moves w) := by
  induction moves generalizing v w with
  | nil => exact same
  | cons move rest ih =>
    have first : view i (move v) = view i (move w) :=
      separate.own here (begun move List.mem_cons_self) same
    exact ih (fun later there => begun later (List.mem_cons_of_mem _ there)) first

/-- Where the images under a partial map are all different, so is what they come from. -/
theorem eq_of_nodup_filterMap {β γ : Type} {f : β → Option γ} {l : List β}
    (once : (l.filterMap f).Nodup) {a b : β} (ha : a ∈ l) (hb : b ∈ l) {c : γ} (fa : f a = some c)
    (fb : f b = some c) : a = b := by
  induction l with
  | nil => cases ha
  | cons x rest ih =>
    have later : ∀ {y}, y ∈ rest → f y = some c → c ∈ rest.filterMap f :=
      fun there fy => List.mem_filterMap.2 ⟨_, there, fy⟩
    have others : (rest.filterMap f).Nodup :=
      once.sublist ((List.sublist_cons_self x rest).filterMap f)
    have first : f x = some c → c ∉ rest.filterMap f := by
      intro fx
      rw [List.filterMap_cons_some fx] at once
      exact (List.nodup_cons.1 once).1
    rcases List.mem_cons.1 ha with rfl | there
    · rcases List.mem_cons.1 hb with rfl | there
      · rfl
      · exact absurd (later there fb) (first fa)
    · rcases List.mem_cons.1 hb with rfl | here
      · exact absurd (later there fa) (first fb)
      · exact ih others there here

end

namespace State

variable {ι ω ε ν : Type} {items : List ι} {task : ι → Task ω ε} {view : Nat → ω → ν}
  {origin : ω} {crew : Nat} {s t u : State ω ε} {w : Nat} {e : Event ε}
  {past trace : List (Nat × Event ε)}

/-- The item that a worker has in hand. -/
def hand (s : State ω ε) (w : Nat) : Option Nat := s.workers[w]?.bind Worker.item?

theorem hand_of_worker {worker : Worker ω ε} (there : s.workers[w]? = some worker) :
    s.hand w = worker.item? := by
  rw [hand, there]
  rfl

theorem held_pos_of_hand {i : Nat} (inHand : s.hand w = some i) : 0 < s.held i := by
  obtain ⟨worker, there, has⟩ := Option.bind_eq_some_iff.1 inHand
  have counted : 1 ∈ s.workers.map fun worker => worker.item?.toList.count i := by
    refine List.mem_map.2 ⟨worker, List.mem_of_getElem? there, ?_⟩
    simp [has]
  exact List.le_sum_of_mem counted

theorem Step.hand (h : Step items task s w e t) {v i : Nat} (inHand : t.hand v = some i) :
    s.hand v = some i ∨ v = w ∧ e.start? = some i := by
  obtain ⟨old, new, here, changed, turn⟩ := h.turn
  by_cases mine : v = w
  · subst mine
    have there : t.workers[v]? = some new := by
      rw [changed, List.getElem?_set_self (List.getElem?_eq_some_iff.1 here).1]
    have item := turn.item i
    rw [hand_of_worker there] at inHand
    rw [hand_of_worker here]
    have counted : new.item?.toList.count i = 1 := by simp [inHand]
    by_cases before : old.item? = some i
    · exact .inl before
    · refine .inr ⟨rfl, ?_⟩
      have absent : old.item?.toList.count i = 0 := by
        simpa [List.count_eq_zero] using before
      by_contra not_started
      have none_started : e.start?.toList.count i = 0 := by
        simpa [List.count_eq_zero] using not_started
      omega
  · have same : t.workers[v]? = s.workers[v]? := by
      rw [changed, List.getElem?_set_ne (Ne.symm mine)]
    exact .inl (by rwa [State.hand, same] at inHand)

theorem Run.hand (run : Run items task s trace u) {i : Nat} (inHand : u.hand w = some i) :
    s.hand w = some i ∨ ∃ e, (w, e) ∈ trace ∧ e.start? = some i := by
  induction run with
  | done => exact .inl inHand
  | step first _ ih =>
    rcases ih inHand with before | ⟨e, there, started⟩
    · rcases first.hand before with earlier | ⟨rfl, started⟩
      · exact .inl earlier
      · exact .inr ⟨_, List.mem_cons_self, started⟩
    · exact .inr ⟨e, List.mem_cons_of_mem _ there, started⟩

theorem start_hand (w : Nat) : (start crew origin : State ω ε).hand w = none := by
  cases there : (start crew origin : State ω ε).workers[w]? with
  | none => rw [hand, there]; rfl
  | some worker =>
    rw [hand_of_worker there, List.eq_of_mem_replicate (List.mem_of_getElem? there)]
    rfl

section

variable (run : Run items task (.start crew origin) trace u)
include run

/-- Whoever has an item in hand has started it. -/
theorem Run.started_of_hand {i : Nat} (inHand : u.hand w = some i) :
    ∃ e, (w, e) ∈ trace ∧ e.start? = some i := by
  refine (run.hand inHand).resolve_left ?_
  rw [start_hand]
  exact nofun

/-- No item is started by two workers. -/
theorem Run.one_starter {v i : Nat} {d : Event ε} (one : (v, d) ∈ trace) (starts_one : d.start? = some i)
    (other : (w, e) ∈ trace) (starts_other : e.start? = some i) : v = w := by
  have same : (v, d) = (w, e) :=
    eq_of_nodup_filterMap run.starts_nodup one other starts_one starts_other
  exact congrArg Prod.fst same

theorem Run.hand_unique {v i : Nat} (one : u.hand v = some i) (other : u.hand w = some i) : v = w := by
  obtain ⟨d, there, started⟩ := run.started_of_hand one
  obtain ⟨e, here, begun⟩ := run.started_of_hand other
  exact run.one_starter there started here begun

theorem Run.hand_lt_next {i : Nat} (inHand : u.hand w = some i) : i < u.next := by
  obtain ⟨e, there, started⟩ := run.started_of_hand inHand
  have listed : i ∈ starts trace := List.mem_filterMap.2 ⟨_, there, started⟩
  rw [run.starts_eq_take, List.take_range] at listed
  exact (List.mem_range.1 listed).trans_le (Nat.min_le_left _ _)

/-- An item that has ended is in nobody's hands any more. -/
theorem Run.hand_ne_of_ended {i : Nat} {ending : Ending ε} (ended : (i, ending) ∈ endings trace) :
    u.hand w ≠ some i := by
  intro inHand
  have balance := run.held_balance i
  rw [start_held] at balance
  have held := held_pos_of_hand inHand
  have once : (starts trace).count i ≤ 1 := List.nodup_iff_count_le_one.1 run.starts_nodup i
  have some_end : 0 < ((endings trace).map (·.1)).count i :=
    List.count_pos_iff.2 (List.mem_map.2 ⟨_, ended, rfl⟩)
  omega

end

/-- What is shared accords with the task of a worker: before the task begins, its item's view is that of
the start, and the moves that are left will make of it what all the moves make of the start. -/
def Accords (items : List ι) (task : ι → Task ω ε) (view : Nat → ω → ν) (origin shared : ω) :
    Worker ω ε → Prop
  | .beginning i => view i shared = view i origin
  | .moving i moves ending => ∃ item seen made, items[i]? = some item ∧
      task item seen = (made ++ moves, ending) ∧
      view i (makeMoves moves shared) = view i (makeMoves (made ++ moves) origin)
  | _ => True

/-- What the views show while a pool runs: of items not yet started the start, of items in hand what is
in accord with their tasks, of ended items what their tasks make of the start. -/
structure Kept (items : List ι) (task : ι → Task ω ε) (view : Nat → ω → ν) (origin : ω)
    (past : List (Nat × Event ε)) (s : State ω ε) : Prop where
  untouched : ∀ i, s.next ≤ i → view i s.shared = view i origin
  inHand : ∀ (w : Nat) (worker : Worker ω ε), s.workers[w]? = some worker →
    Accords items task view origin s.shared worker
  ended : ∀ i ending, (i, ending) ∈ endings past → ∃ item seen, items[i]? = some item ∧
    (task item seen).2 = ending ∧ view i s.shared = view i (makeMoves (task item seen).1 origin)

theorem start_kept : Kept items task view origin [] (start crew origin) where
  untouched i _ := rfl
  inHand w worker there := by
    rw [List.eq_of_mem_replicate (List.mem_of_getElem? there)]
    trivial
  ended i ending none := by cases none

/-- Nothing but the view of its own item matters to a worker. -/
theorem Accords.of_view (separate : Separate items task view) {shared shared' : ω}
    {worker : Worker ω ε} (accords : Accords items task view origin shared worker)
    (same : ∀ i, worker.item? = some i → view i shared' = view i shared) :
    Accords items task view origin shared' worker := by
  cases worker with
  | beginning i => exact (same i rfl).trans accords
  | moving i moves ending =>
    obtain ⟨item, seen, made, here, begun, ahead⟩ := accords
    have mine : ∀ move ∈ moves, move ∈ (task item seen).1 := by
      rw [begun]
      exact fun move there => List.mem_append_right made there
    exact ⟨item, seen, made, here, begun, (separate.view_makeMoves here mine (same i rfl)).trans ahead⟩
  | checking | claiming | raising | reporting | left | lost => trivial

/-- A step leaves the views of all items but the one that its worker has in hand. -/
theorem Step.view_eq (separate : Separate items task view) (h : Step items task s w e t)
    (kept : Kept items task view origin past s) {i : Nat} (other : s.hand w ≠ some i) :
    view i t.shared = view i s.shared := by
  cases h with
  | @move j move rest ending here =>
    obtain ⟨item, seen, made, at_item, begun, -⟩ := kept.inHand _ _ here
    have mine : move ∈ (task item seen).1 := by simp [begun]
    rw [hand_of_worker here] at other
    exact separate.others at_item mine (fun same => other (congrArg some same)) s.shared
  | stop | goOn | claim | runOut | begin | pass | fail | breakDown | raise | report => rfl

/-- Each step of a task leaves what is shared in accord with it. -/
theorem Step.accords (separate : Separate items task view) (h : Step items task s w e t)
    (kept : Kept items task view origin past s) {worker : Worker ω ε} (there : t.workers[w]? = some worker) :
    Accords items task view origin t.shared worker := by
  have new : ∀ {x : Worker ω ε}, (s.workers.set w x)[w]? = some worker → worker = x := by
    intro x changed
    rw [List.getElem?_set_self'] at changed
    obtain ⟨_, _, rfl⟩ := Option.map_eq_some_iff.1 changed
    rfl
  cases h with
  | claim here within =>
    obtain rfl := new there
    exact kept.untouched s.next le_rfl
  | @begin i item here at_item =>
    obtain rfl := new there
    have fresh : view i s.shared = view i origin := kept.inHand _ _ here
    exact ⟨item, s.shared, [], at_item, rfl, separate.view_makeMoves at_item (fun _ there => there) fresh⟩
  | @move i move rest ending here =>
    obtain rfl := new there
    obtain ⟨item, seen, made, at_item, begun, ahead⟩ := kept.inHand _ _ here
    exact ⟨item, seen, made ++ [move], at_item, by simp [begun], by
      rw [← List.append_cons]
      exact ahead⟩
  | stop | goOn | runOut | pass | fail | breakDown | raise | report =>
    obtain rfl := new there
    trivial

theorem Step.kept (separate : Separate items task view) (before : Run items task (.start crew origin) past s)
    (h : Step items task s w e t) (kept : Kept items task view origin past s) :
    Kept items task view origin (past ++ [(w, e)]) t where
  untouched i ahead := by
    have stays := h.next_le
    -- what a worker has in hand was claimed, so it is behind the counter
    have not_mine : s.hand w ≠ some i := fun inHand => by
      have taken := before.hand_lt_next inHand
      omega
    exact (h.view_eq separate kept not_mine).trans (kept.untouched i (stays.trans ahead))
  inHand v worker there := by
    by_cases mine : v = w
    · subst mine
      exact h.accords separate kept there
    · obtain ⟨old, new, here, changed, turn⟩ := h.turn
      rw [changed, List.getElem?_set_ne (Ne.symm mine)] at there
      refine (kept.inHand v worker there).of_view separate fun i item => ?_
      have theirs : s.hand v = some i := (hand_of_worker there).trans item
      exact h.view_eq separate kept fun inHand => mine (before.hand_unique theirs inHand)
  ended i ending there := by
    rw [endings, List.filterMap_append, List.mem_append] at there
    rcases there with ended | now
    · obtain ⟨item, seen, at_item, ends, made⟩ := kept.ended i ending ended
      exact ⟨item, seen, at_item, ends,
        (h.view_eq separate kept (before.hand_ne_of_ended ended)).trans made⟩
    · have shown : e.end? = some (i, ending) := by simpa using now
      cases h with
      | pass here | fail here | breakDown here =>
        cases shown
        obtain ⟨item, seen, made, at_item, begun, all⟩ := kept.inHand _ _ here
        rw [List.append_nil] at begun all
        exact ⟨item, seen, at_item, by rw [begun], by rw [begun]; exact all⟩
      | stop | goOn | claim | runOut | begin | move | raise | report => cases shown

theorem Run.kept (separate : Separate items task view) (run : Run items task s trace u)
    (before : Run items task (.start crew origin) past s) (kept : Kept items task view origin past s) :
    Kept items task view origin (past ++ trace) u := by
  induction run generalizing past with
  | done => simpa using kept
  | step first _ ih =>
    have next := ih (before.append (.step first (.done _))) (first.kept separate before kept)
    simpa using next

/-- **A view does not show the interleaving.** Whatever the workers did in between, the view of an item
that has ended is what its task, having looked at something, makes of the start with nobody else
there. -/
theorem Run.view_ended (separate : Separate items task view)
    (run : Run items task (.start crew origin) trace u) {i : Nat} {ending : Ending ε}
    (ended : (i, ending) ∈ endings trace) :
    ∃ item seen, items[i]? = some item ∧ (task item seen).2 = ending ∧
      view i u.shared = view i (makeMoves (task item seen).1 origin) :=
  (run.kept separate (.done _) start_kept).ended i ending (by simpa using ended)

/-- A view is changed by one worker only: the one that started its item. -/
theorem Run.one_changer (separate : Separate items task view)
    (before : Run items task (.start crew origin) past s) (change : Step items task s w e t)
    (between : Run items task t trace u) {v : Nat} {d : Event ε} {after : State ω ε}
    (again : Step items task u v d after) {i : Nat} (changed : view i t.shared ≠ view i s.shared)
    (rechanged : view i after.shared ≠ view i u.shared) : w = v := by
  have whole := before.append (.step change between)
  have kept : Kept items task view origin past s := before.kept separate (.done _) start_kept
  have kept' := whole.kept separate (.done _) start_kept
  have inHand : s.hand w = some i := by_contra fun other => changed (change.view_eq separate kept other)
  have inHand' : u.hand v = some i :=
    by_contra fun other => rechanged (again.view_eq separate kept' other)
  -- both had the item in hand, and who has it in hand has started it
  obtain ⟨c, there, started⟩ := before.started_of_hand inHand
  obtain ⟨c', here, begun⟩ := whole.started_of_hand inHand'
  exact whole.one_starter (List.mem_append_left _ there) started here begun

end State

end SpectrumShare.Pool
