import Mathlib.Analysis.Convex.Segment
import Mathlib.Data.List.Rotate
import Mathlib.Tactic.FieldSimp
import Mathlib.Tactic.Ring
import SpectrumShare.Polygon
import SpectrumShare.Proofs.Exact

/-!
# Going round a polygon

A walk from vertex to vertex crosses the parallel of a place at some of its steps, and a polygon holds
the place when the walk round it crosses the parallel an odd number of times to the east:

* `crosses_swap`: in exact arithmetic a step crosses whichever way it is taken;
* `crossesOddly_append`, `crossesOddly_reverse`: walks are put together at a vertex, and turned round;
* `contains_cons`: a polygon is a walk that comes back to its first vertex;
* `cover_exact`: so it does not matter where a polygon starts or which way it goes, and cut along a
  chord it falls into two pieces without gap or overlap;
* `box_of_contains`: and a place beside all the vertices of a polygon is not inside it.
-/

namespace SpectrumShare.Polygon

section

variable {α : Type} [Scalar α] {p : Position α}

/-- Whether a step crosses the parallel of a place to the east of it. -/
def crosses (p : Position α) (step : Position α × Position α) : Bool :=
  (meeting? p.latitude step).any fun m => decide (p.longitude < m)

/-- Whether an odd number of the steps of a walk cross the parallel of a place to the east of it. -/
def crossesOddly (p : Position α) : List (Position α) → Bool
  | v :: w :: rest => crosses p (v, w) ^^ crossesOddly p (w :: rest)
  | _ => false

/-- Whether a vertex lies to the north of a place. -/
def isNorth (p v : Position α) : Bool := decide (p.latitude < v.latitude)

/-- A step meets a parallel when it goes from one side to the other. -/
theorem meeting?_eq_none_iff {v w : Position α} :
    meeting? p.latitude (v, w) = none ↔ isNorth p v = isNorth p w := by
  simp only [meeting?, isNorth]
  split
  · rename_i one_side
    simp [one_side]
  · rename_i across
    simp [Ne.symm across]

theorem crosses_of_one_side {v w : Position α} (one_side : isNorth p v = isNorth p w) :
    crosses p (v, w) = false := by
  rw [crosses, meeting?_eq_none_iff.2 one_side]
  rfl

theorem crossesOddly_eq_false {walk : List (Position α)}
    (apart : ∀ v ∈ walk, ∀ w ∈ walk, crosses p (v, w) = false) : crossesOddly p walk = false := by
  induction walk with
  | nil => rfl
  | cons v walk ih =>
    cases walk with
    | nil => rfl
    | cons w rest =>
      rw [crossesOddly, apart v (by simp) w (by simp), Bool.false_xor]
      apply ih
      intro a ha b hb
      exact apart a (List.mem_cons_of_mem v ha) b (List.mem_cons_of_mem v hb)

/-- If each change of sides between the vertices of a walk crosses to the east of a place, or none does, so
does the change from the first vertex to the last. -/
theorem crossesOddly_of_changes {k : Bool} {v last : Position α} {rest : List (Position α)}
    (changes : ∀ a ∈ v :: rest ++ [last], ∀ b ∈ v :: rest ++ [last],
      crosses p (a, b) = (k && (isNorth p a ^^ isNorth p b))) :
    crossesOddly p (v :: rest ++ [last]) = (k && (isNorth p v ^^ isNorth p last)) := by
  induction rest generalizing v with
  | nil =>
    rw [List.singleton_append, crossesOddly, changes v (by simp) last (by simp)]
    exact Bool.xor_false _
  | cons w rest ih =>
    have later := ih fun a ha b hb =>
      changes a (List.mem_cons_of_mem v ha) b (List.mem_cons_of_mem v hb)
    rw [List.cons_append, List.cons_append, crossesOddly, ← List.cons_append, later,
      changes v (by simp) w (by simp), ← Bool.and_xor_distrib_left, Bool.xor_assoc,
      ← Bool.xor_assoc (isNorth p w), Bool.xor_self, Bool.false_xor]

theorem crosses_self (p v : Position α) : crosses p (v, v) = false := crosses_of_one_side rfl

@[simp]
theorem crossesOddly_pair (p v w : Position α) : crossesOddly p [v, w] = crosses p (v, w) := by
  simp [crossesOddly]

theorem countP_zip_odd (p v : Position α) (rest : List (Position α)) :
    (((v :: rest).zip rest).countP (crosses p) % 2 == 1) = crossesOddly p (v :: rest) := by
  induction rest generalizing v with
  | nil => rfl
  | cons w rest ih =>
    rw [crossesOddly, ← ih w, List.zip_cons_cons, List.countP_cons]
    cases crosses p (v, w) with
    | false => simp
    | true =>
      rw [Bool.true_xor, Bool.eq_iff_iff]
      simp only [Bool.not_eq_true', beq_iff_eq, beq_eq_false_iff_ne, ↓reduceIte]
      omega

/-- With enough vertices, a place is inside when an odd number of steps cross its parallel. -/
theorem contains_of_long {ring : List (Position α)} (long : 3 ≤ ring.length) {last : Position α}
    (ends : ring.getLast? = some last) : contains ring p = crossesOddly p (last :: ring) := by
  have meets (step : Position α × Position α) :
      ((meeting? p.latitude step).map fun m => decide (p.longitude < m)).getD false = crosses p step := by
    rw [crosses]
    cases meeting? p.latitude step <;> rfl
  rw [contains, isBetween, meetings, if_neg (by omega), List.countP_filterMap, edges, ends]
  simp only [meets]
  exact countP_zip_odd p last ring

theorem contains_of_short {ring : List (Position α)} (short : ring.length < 3) :
    contains ring p = false := by
  rw [contains, meetings, if_pos short]
  rfl

/-- Walks are put together at a vertex that ends the one and starts the other. -/
theorem crossesOddly_append (walk : List (Position α)) (v : Position α) (rest : List (Position α)) :
    crossesOddly p (walk ++ v :: rest) =
      (crossesOddly p (walk ++ [v]) ^^ crossesOddly p (v :: rest)) := by
  induction walk with
  | nil => simp [crossesOddly]
  | cons u walk ih =>
    cases walk with
    | nil => simp [crossesOddly]
    | cons w walk =>
      simp only [List.cons_append, crossesOddly] at ih ⊢
      rw [ih, Bool.xor_assoc]

end

variable {K : Type} [Field K] [LinearOrder K] [Rounding K] {p : Position K}

theorem meeting?_swap (latitude : K) (v w : Position K) :
    meeting? latitude (v, w) = meeting? latitude (w, v) := by
  simp only [meeting?]
  by_cases one_side : decide (latitude < w.latitude) = decide (latitude < v.latitude)
  · rw [if_pos one_side, if_pos one_side.symm]
  · rw [if_neg one_side, if_neg (Ne.symm one_side)]
    have apart : v.latitude - w.latitude ≠ 0 := by
      intro level
      rw [sub_eq_zero.1 level] at one_side
      exact one_side rfl
    have apart' : w.latitude - v.latitude ≠ 0 := by
      rw [← neg_sub]
      exact neg_ne_zero.2 apart
    congr 1
    field_simp
    ring

theorem crosses_swap (p v w : Position K) : crosses p (v, w) = crosses p (w, v) := by
  rw [crosses, crosses, meeting?_swap]

theorem crossesOddly_reverse (walk : List (Position K)) :
    crossesOddly p walk.reverse = crossesOddly p walk := by
  induction walk with
  | nil => rfl
  | cons v walk ih =>
    cases walk with
    | nil => rfl
    | cons w rest =>
      calc crossesOddly p (v :: w :: rest).reverse
          = crossesOddly p (rest.reverse ++ w :: [v]) := by simp
        _ = (crossesOddly p (rest.reverse ++ [w]) ^^ crossesOddly p [w, v]) :=
          crossesOddly_append _ _ _
        _ = (crossesOddly p (w :: rest) ^^ crosses p (v, w)) := by
          rw [← List.reverse_cons, ih, crossesOddly_pair, crosses_swap p v w]
        _ = crossesOddly p (v :: w :: rest) := Bool.xor_comm _ _

/-- The step that closes a walk may be taken first or last. -/
theorem crossesOddly_close {v last : Position K} {rest : List (Position K)}
    (ends : (v :: rest).getLast? = some last) :
    crossesOddly p (last :: v :: rest) = crossesOddly p (v :: rest ++ [v]) := by
  obtain ⟨walk, parted⟩ := List.getLast?_eq_some_iff.1 ends
  calc crossesOddly p (last :: v :: rest)
      = (crosses p (last, v) ^^ crossesOddly p (walk ++ [last])) := by rw [crossesOddly, parted]
    _ = crossesOddly p (walk ++ last :: [v]) := by
      rw [crossesOddly_append walk last [v], crossesOddly_pair, Bool.xor_comm]
    _ = crossesOddly p (v :: rest ++ [v]) := by
      rw [parted, List.append_assoc]
      rfl

/-- A polygon is a walk that comes back to where it starts. -/
theorem contains_cons (v : Position K) (rest : List (Position K)) :
    contains (v :: rest) p = crossesOddly p (v :: rest ++ [v]) := by
  match rest with
  | [] => simp [contains_of_short, crosses_self]
  | [w] => simp [contains_of_short, crossesOddly, crosses_swap p w v]
  | w :: u :: rest =>
    have ends : (v :: w :: u :: rest).getLast? = some ((v :: w :: u :: rest).getLast (by simp)) :=
      List.getLast?_eq_some_getLast _
    rw [contains_of_long (by simp) ends, crossesOddly_close ends]

/-- Two vertices part the walk round a polygon into the way there and the way back. -/
theorem contains_parted (v w : Position K) (there back : List (Position K)) :
    contains (v :: there ++ w :: back) p =
      (crossesOddly p (v :: there ++ [w]) ^^ crossesOddly p (w :: back ++ [v])) := by
  simp only [List.cons_append, contains_cons, List.append_assoc]
  exact crossesOddly_append (v :: there) w (back ++ [v])

/-- Where only one edge leads back, the way there and that edge tell what is inside. -/
theorem contains_chord (v w : Position K) (there : List (Position K)) :
    contains (v :: there ++ [w]) p = (crossesOddly p (v :: there ++ [w]) ^^ crosses p (w, v)) := by
  rw [contains_parted]
  exact congrArg _ (crossesOddly_pair p w v)

/-- A polygon may start at any of its vertices. -/
theorem contains_append_comm (xs ys : List (Position K)) :
    contains (xs ++ ys) p = contains (ys ++ xs) p := by
  cases xs with
  | nil => simp
  | cons v xs =>
    cases ys with
    | nil => simp
    | cons w ys => rw [contains_parted, contains_parted, Bool.xor_comm]

theorem contains_rotate (ring : List (Position K)) (k : Nat) :
    contains (ring.rotate k) p = contains ring p := by
  rw [List.rotate_eq_drop_append_take_mod, contains_append_comm, List.take_append_drop]

theorem contains_reverse (ring : List (Position K)) : contains ring.reverse p = contains ring p := by
  cases ring with
  | nil => rfl
  | cons v rest =>
    calc contains (v :: rest).reverse p
        = contains (v :: rest.reverse) p := by
          rw [List.reverse_cons, contains_append_comm]
          rfl
      _ = crossesOddly p (v :: rest ++ [v]).reverse := by
          rw [contains_cons]
          simp
      _ = contains (v :: rest) p := by rw [crossesOddly_reverse, contains_cons]

/-- A vertex may be repeated next to itself. -/
theorem contains_repeat (before after : List (Position K)) (v : Position K) :
    contains (before ++ v :: v :: after) p = contains (before ++ v :: after) p := by
  rw [contains_append_comm, contains_append_comm before]
  simp only [List.cons_append, contains_cons]
  rw [crossesOddly, crosses_self, Bool.false_xor]

theorem contains_closed (first : Position K) (rest : List (Position K)) :
    contains (first :: rest ++ [first]) p = contains (first :: rest) p := by
  rw [contains_append_comm]
  exact contains_repeat [] rest first

/-- The chord between two vertices cuts a polygon in two, and what is inside the polygon is inside
exactly one of the pieces: the chord counts in both of them and so in neither. -/
theorem contains_cut (before between after : List (Position K)) (v w : Position K) :
    contains (before ++ v :: between ++ w :: after) p =
      (contains (v :: between ++ [w]) p ^^ contains (w :: after ++ before ++ [v]) p) := by
  have whole : contains (before ++ v :: between ++ w :: after) p =
      (crossesOddly p (v :: between ++ [w]) ^^ crossesOddly p (w :: (after ++ before) ++ [v])) := by
    rw [List.append_assoc, contains_append_comm, List.append_assoc]
    exact contains_parted v w between (after ++ before)
  have back : contains (w :: after ++ before ++ [v]) p =
      (crossesOddly p (w :: (after ++ before) ++ [v]) ^^ crosses p (v, w)) :=
    contains_chord w v (after ++ before)
  rw [whole, contains_chord, back, crosses_swap p v w]
  cases crosses p (w, v) <;> simp

/-- A list is parted by any two of its entries. -/
theorem exists_parted {β : Type} {ring : List β} {i j : Nat} (ahead : i < j) (within : j < ring.length) :
    ∃ before v between w after, before.length = i ∧ between.length = j - i - 1 ∧
      ring = before ++ v :: between ++ w :: after := by
  obtain ⟨before, v, rest, at_i, rfl⟩ : ∃ before v rest, before.length = i ∧ ring = before ++ v :: rest :=
    ⟨ring.take i, ring[i], ring.drop (i + 1), by simp; omega, by simp⟩
  have inside : j - i - 1 < rest.length := by
    simp only [List.length_append, List.length_cons] at within
    omega
  refine ⟨before, v, rest.take (j - i - 1), rest[j - i - 1], rest.drop (j - i - 1 + 1), at_i, ?_, ?_⟩
  · simp
    omega
  · simp

theorem contains_cut_at {ring : List (Position K)} {i j : Nat} (ahead : i < j)
    (within : j < ring.length) :
    contains ring p =
      (contains ((ring.take (j + 1)).drop i) p ^^ contains (ring.drop j ++ ring.take (i + 1)) p) := by
  obtain ⟨before, v, between, w, after, at_v, steps, rfl⟩ := exists_parted ahead within
  have at_w : (before ++ v :: between).length = j := by
    simp only [List.length_append, List.length_cons]
    omega
  have from_v : ((before ++ v :: between ++ w :: after).take (j + 1)).drop i = v :: between ++ [w] := by
    rw [← at_w, ← at_v, List.take_length_add_append]
    simp
  have from_w : (before ++ v :: between ++ w :: after).drop j = w :: after := List.drop_left' at_w
  have to_v : (before ++ v :: between ++ w :: after).take (i + 1) = before ++ [v] := by
    rw [← at_v, List.append_assoc, List.take_length_add_append]
    simp
  rw [contains_cut, from_v, from_w, to_v, ← List.append_assoc]

/-- **No gaps and no double cover.** Whether a place is inside a polygon does not depend on the vertex
that the polygon starts with, nor on the direction it is gone round; a vertex may be repeated next to
itself, and the first one at the end. A chord between two vertices cuts the polygon into two pieces, and
the place is inside the polygon when it is inside exactly one of them, also on the chord itself. -/
theorem cover_exact (ring : List (Position K)) (p : Position K) :
    (∀ k, contains (ring.rotate k) p = contains ring p) ∧
    contains ring.reverse p = contains ring p ∧
    (∀ before v after, ring = before ++ v :: after →
      contains (before ++ v :: v :: after) p = contains ring p) ∧
    (∀ first, ring.head? = some first → contains (ring ++ [first]) p = contains ring p) ∧
    ∀ i j, i < j → j < ring.length →
      contains ring p =
        (contains ((ring.take (j + 1)).drop i) p ^^ contains (ring.drop j ++ ring.take (i + 1)) p) := by
  refine ⟨contains_rotate ring, contains_reverse ring, ?_, ?_, fun i j => contains_cut_at⟩
  · intro before v after parted
    rw [parted, contains_repeat]
  · intro first starts
    obtain ⟨rest, rfl⟩ := List.head?_eq_some_iff.1 starts
    exact contains_closed first rest

/-- Four sides and a notch in the northern one. -/
def notched : List (Position ℚ) := [⟨0, 0⟩, ⟨0, 4⟩, ⟨4, 4⟩, ⟨1, 2⟩, ⟨4, 0⟩]

/-- A chord from the south-eastern corner to the notch. A place half way along it is inside the polygon,
and inside one of the two pieces. -/
theorem cover_exact_notched :
    (contains (notched.rotate 3) ⟨1 / 2, 3⟩ = true ∧ contains notched.reverse ⟨1 / 2, 3⟩ = true ∧
      contains [⟨0, 0⟩, ⟨0, 4⟩, ⟨4, 4⟩, ⟨4, 4⟩, ⟨1, 2⟩, (⟨4, 0⟩ : Position ℚ)] ⟨1 / 2, 3⟩ = true ∧
      contains (notched ++ [⟨0, 0⟩]) ⟨1 / 2, 3⟩ = true ∧
      (contains [⟨0, 4⟩, ⟨4, 4⟩, ⟨1, 2⟩] (⟨1 / 2, 3⟩ : Position ℚ) ^^
        contains [⟨1, 2⟩, ⟨4, 0⟩, ⟨0, 0⟩, ⟨0, 4⟩] (⟨1 / 2, 3⟩ : Position ℚ)) = true) ∧
    contains [⟨0, 4⟩, ⟨4, 4⟩, ⟨1, 2⟩] (⟨1 / 2, 3⟩ : Position ℚ) = true := by
  have inside : contains notched ⟨1 / 2, 3⟩ = true := by decide +kernel
  obtain ⟨rotated, reversed, repeated, closed, cut⟩ := cover_exact notched ⟨1 / 2, 3⟩
  refine ⟨⟨?_, ?_, ?_, ?_, ?_⟩, by decide +kernel⟩
  · rw [rotated, inside]
  · rw [reversed, inside]
  · exact (repeated [⟨0, 0⟩, ⟨0, 4⟩] ⟨4, 4⟩ [⟨1, 2⟩, ⟨4, 0⟩] rfl).trans inside
  · exact (closed ⟨0, 0⟩ rfl).trans inside
  · exact (cut 1 3 (by decide) (by decide)).symm.trans inside

/-! ## The box round a polygon -/

section

variable [IsStrictOrderedRing K]

/-- A step meets a parallel between the longitudes that it joins. -/
theorem meeting_between {latitude m : K} {v w : Position K}
    (meets : meeting? latitude (v, w) = some m) :
    min v.longitude w.longitude ≤ m ∧ m ≤ max v.longitude w.longitude := by
  simp only [meeting?] at meets
  split at meets
  · cases meets
  · rename_i across
    cases meets
    -- how far along the step, from its second end, the meeting lies
    let share := (latitude - w.latitude) / (v.latitude - w.latitude)
    have part : 0 ≤ share ∧ share ≤ 1 := by
      by_cases north : latitude < v.latitude
      · have south : w.latitude ≤ latitude := by simpa [north] using across
        have rises : 0 < v.latitude - w.latitude := by linarith
        exact ⟨div_nonneg (by linarith) rises.le, (div_le_one rises).2 (by linarith)⟩
      · have north' : latitude < w.latitude := by simpa [north] using across
        have south := not_lt.1 north
        have falls : v.latitude - w.latitude < 0 := by linarith
        exact ⟨div_nonneg_of_nonpos (by linarith) falls.le, (div_le_one_of_neg falls).2 (by linarith)⟩
    have split : share + (1 - share) = 1 := by ring
    have combined : (v.longitude - w.longitude) * (latitude - w.latitude) / (v.latitude - w.latitude) +
        w.longitude = share • v.longitude + (1 - share) • w.longitude := by
      rw [smul_eq_mul, smul_eq_mul, mul_div_assoc]
      ring
    rw [combined]
    exact ⟨Convex.min_le_combo _ _ part.1 (sub_nonneg.2 part.2) split,
      Convex.combo_le_max _ _ part.1 (sub_nonneg.2 part.2) split⟩

/-- A step that lies to the west of a place does not cross to the east of it. -/
theorem crosses_of_east {v w : Position K} (hv : v.longitude ≤ p.longitude)
    (hw : w.longitude ≤ p.longitude) : crosses p (v, w) = false := by
  rw [crosses]
  cases met : meeting? p.latitude (v, w) with
  | none => rfl
  | some m =>
    have west : m ≤ p.longitude := (meeting_between met).2.trans (max_le hv hw)
    exact decide_eq_false (not_lt.2 west)

/-- A step that lies to the east of a place crosses when it goes from one side to the other. -/
theorem crosses_of_west {v w : Position K} (hv : p.longitude < v.longitude)
    (hw : p.longitude < w.longitude) : crosses p (v, w) = (isNorth p v ^^ isNorth p w) := by
  rw [crosses]
  cases met : meeting? p.latitude (v, w) with
  | none =>
    rw [meeting?_eq_none_iff.1 met, Bool.xor_self]
    rfl
  | some m =>
    have across : isNorth p v ≠ isNorth p w := by
      intro one_side
      rw [meeting?_eq_none_iff.2 one_side] at met
      cases met
    have east : p.longitude < m := (lt_min hv hw).trans_le (meeting_between met).1
    rw [Bool.xor_iff_ne.2 across]
    exact decide_eq_true east

/-- A place inside a polygon has vertices on all four sides of it. -/
theorem box_of_contains {ring : List (Position K)} (inside : contains ring p = true) :
    (∃ v ∈ ring, v.latitude ≤ p.latitude) ∧ (∃ v ∈ ring, p.latitude < v.latitude) ∧
      (∃ v ∈ ring, v.longitude ≤ p.longitude) ∧ ∃ v ∈ ring, p.longitude < v.longitude := by
  cases ring with
  | nil => cases inside
  | cons v rest =>
    rw [contains_cons] at inside
    have outside (apart : ∀ a ∈ v :: rest ++ [v], ∀ b ∈ v :: rest ++ [v], crosses p (a, b) = false) :
        False := by
      rw [crossesOddly_eq_false apart] at inside
      cases inside
    have vertex {w : Position K} (there : w ∈ v :: rest ++ [v]) : w ∈ v :: rest := by
      simpa [or_comm, or_assoc] using there
    refine ⟨?_, ?_, ?_, ?_⟩
    · by_contra! north
      apply outside
      intro a ha b hb
      apply crosses_of_one_side
      rw [isNorth, isNorth, decide_eq_true (north a (vertex ha)), decide_eq_true (north b (vertex hb))]
    · by_contra! south
      apply outside
      intro a ha b hb
      apply crosses_of_one_side
      rw [isNorth, isNorth, decide_eq_false (not_lt.2 (south a (vertex ha))),
        decide_eq_false (not_lt.2 (south b (vertex hb)))]
    · by_contra! east
      have changes : ∀ a ∈ v :: rest ++ [v], ∀ b ∈ v :: rest ++ [v],
          crosses p (a, b) = (true && (isNorth p a ^^ isNorth p b)) :=
        fun a ha b hb => crosses_of_west (east a (vertex ha)) (east b (vertex hb))
      rw [crossesOddly_of_changes changes, Bool.xor_self] at inside
      cases inside
    · by_contra! west
      apply outside
      intro a ha b hb
      exact crosses_of_east (west a (vertex ha)) (west b (vertex hb))

end

end SpectrumShare.Polygon
