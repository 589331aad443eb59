import SpectrumShare.Proofs.Polygon

/-! # What lies beside a polygon

A place lies to the left or to the right of a step from vertex to vertex, and whether the step crosses its
parallel to the east of it depends on the side and on the way the step goes. So what is inside a polygon
lies in every half-plane that holds the polygon. -/

namespace SpectrumShare.Polygon

section

variable {K : Type} [Field K] {p : Position K}

/-- Twice the area of the triangle of a step and a place: above zero when the place lies to the left of the
step, below zero when it lies to the right. -/
def turn (v w p : Position K) : K :=
  (w.longitude - v.longitude) * (p.latitude - v.latitude) -
    (w.latitude - v.latitude) * (p.longitude - v.longitude)

theorem turn_swap (v w p : Position K) : turn w v p = -turn v w p := by
  simp only [turn]
  ring

@[simp]
theorem turn_first (v w : Position K) : turn v w v = 0 := by
  simp [turn]

@[simp]
theorem turn_second (v w : Position K) : turn v w w = 0 := by
  simp only [turn]
  ring

theorem turn_eq_zero_of_line {v w a b c : Position K} (apart : v ≠ w) (ha : turn v w a = 0)
    (hb : turn v w b = 0) (hc : turn v w c = 0) : turn a b c = 0 := by
  have along_latitude : turn a b c * (w.latitude - v.latitude) =
      (turn v w c - turn v w a) * (b.latitude - a.latitude) -
        (turn v w b - turn v w a) * (c.latitude - a.latitude) := by
    simp only [turn]
    ring
  have along_longitude : turn a b c * (w.longitude - v.longitude) =
      (turn v w c - turn v w a) * (b.longitude - a.longitude) -
        (turn v w b - turn v w a) * (c.longitude - a.longitude) := by
    simp only [turn]
    ring
  rw [ha, hb, hc, sub_zero, zero_mul, zero_mul, sub_zero, mul_eq_zero, sub_eq_zero]
    at along_latitude along_longitude
  by_contra turns
  apply apart
  obtain ⟨_, _⟩ := v
  obtain ⟨_, _⟩ := w
  rw [Position.mk.injEq]
  exact ⟨(along_latitude.resolve_left turns).symm, (along_longitude.resolve_left turns).symm⟩

end

variable {K : Type} [Field K] [LinearOrder K] [IsStrictOrderedRing K] [Rounding K] {p : Position K}

/-! ## Crossings and sides -/

theorem crosses_rising {v w : Position K} (south : isNorth p v = false) (north : isNorth p w = true) :
    crosses p (v, w) = decide (0 < turn v w p) := by
  have rises : v.latitude - w.latitude < 0 := by
    have above := of_decide_eq_true north
    have below := not_lt.1 (of_decide_eq_false south)
    linarith
  have across : decide (p.latitude < w.latitude) ≠ decide (p.latitude < v.latitude) := by
    change isNorth p w ≠ isNorth p v
    rw [south, north]
    exact Bool.true_eq_false.mp
  have met : meeting? p.latitude (v, w) = some ((v.longitude - w.longitude) *
      (p.latitude - w.latitude) / (v.latitude - w.latitude) + w.longitude) := if_neg across
  rw [crosses, met, Option.any_some, decide_eq_decide, ← sub_lt_iff_lt_add, lt_div_iff_of_neg rises, turn]
  constructor <;> intro h <;> linarith

theorem crosses_falling {v w : Position K} (north : isNorth p v = true) (south : isNorth p w = false) :
    crosses p (v, w) = decide (turn v w p < 0) := by
  rw [crosses_swap, crosses_rising south north, decide_eq_decide, turn_swap, neg_pos]

/-- Of the steps that have a place on their left, those to the north cross to the east of it. -/
theorem crosses_of_left {v w : Position K} (left : 0 < turn v w p) :
    crosses p (v, w) = (!isNorth p v && isNorth p w) := by
  cases hv : isNorth p v with
  | false =>
    cases hw : isNorth p w with
    | false => exact crosses_of_one_side (hv.trans hw.symm)
    | true => exact (crosses_rising hv hw).trans (decide_eq_true left)
  | true =>
    cases hw : isNorth p w with
    | false => exact (crosses_falling hv hw).trans (decide_eq_false left.le.not_gt)
    | true => exact crosses_of_one_side (hv.trans hw.symm)

/-- Steps to the left of a line cross the parallel of a place to the right of it on one side of the place:
to the east if the line goes south. -/
theorem crosses_beyond {v w a b : Position K} (right : turn v w p < 0) (ha : 0 ≤ turn v w a)
    (hb : 0 ≤ turn v w b) :
    crosses p (a, b) = (decide (w.latitude < v.latitude) && (isNorth p a ^^ isNorth p b)) := by
  have falling {c d : Position K} (hc : 0 ≤ turn v w c) (hd : 0 ≤ turn v w d)
      (north : isNorth p c = true) (south : isNorth p d = false) :
      crosses p (c, d) = decide (w.latitude < v.latitude) := by
    have above : 0 < c.latitude - p.latitude := sub_pos.2 (of_decide_eq_true north)
    have below : 0 ≤ p.latitude - d.latitude := sub_nonneg.2 (not_lt.1 (of_decide_eq_false south))
    have balance : (w.latitude - v.latitude) * turn c d p =
        (p.latitude - d.latitude) * turn v w c + (c.latitude - p.latitude) * turn v w d -
          (c.latitude - d.latitude) * turn v w p := by
      simp only [turn]
      ring
    have positive : 0 < (w.latitude - v.latitude) * turn c d p := by
      have gap := mul_neg_of_pos_of_neg (add_pos_of_pos_of_nonneg above below) right
      have first := mul_nonneg below hc
      have second := mul_nonneg above.le hd
      rw [balance]
      linarith
    rw [crosses_falling north south, decide_eq_decide]
    rcases pos_and_pos_or_neg_and_neg_of_mul_pos positive with ⟨rises, left⟩ | ⟨falls, right⟩
    · exact ⟨fun right => absurd right left.not_gt, fun falls => absurd falls (sub_pos.1 rises).not_gt⟩
    · exact ⟨fun _ => sub_neg.1 falls, fun _ => right⟩
  cases north_a : isNorth p a with
  | false =>
    cases north_b : isNorth p b with
    | false => rw [crosses_of_one_side (north_a.trans north_b.symm), Bool.xor_self, Bool.and_false]
    | true => rw [crosses_swap, falling hb ha north_b north_a, Bool.false_xor, Bool.and_true]
  | true =>
    cases north_b : isNorth p b with
    | false => rw [falling ha hb north_a north_b, Bool.xor_false, Bool.and_true]
    | true => rw [crosses_of_one_side (north_a.trans north_b.symm), Bool.xor_self, Bool.and_false]

/-- What is inside a polygon lies in every half-plane that holds its vertices. -/
theorem left_of_contains {ring : List (Position K)} {v w : Position K}
    (inside : contains ring p = true) (left : ∀ u ∈ ring, 0 ≤ turn v w u) : 0 ≤ turn v w p := by
  by_contra! right
  cases ring with
  | nil => cases inside
  | cons first rest =>
    have vertex : ∀ a ∈ first :: rest ++ [first], 0 ≤ turn v w a := by
      intro a there
      apply left
      simpa [or_comm, or_assoc] using there
    have changes := fun a ha b hb => crosses_beyond right (vertex a ha) (vertex b hb)
    rw [contains_cons, crossesOddly_of_changes changes, Bool.xor_self, Bool.and_false] at inside
    cases inside

end SpectrumShare.Polygon
