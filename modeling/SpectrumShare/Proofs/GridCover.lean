import SpectrumShare.Proofs.Convex
import SpectrumShare.Proofs.GridPoints

/-! # Whether the points of a grid lie in its polygon

The lattice places of a grid are there because they are inside the polygon. The mean of the vertices, which
stands for an area without such a place, is not asked. It lies inside a convex polygon and may lie outside
of any other. -/

namespace SpectrumShare

namespace Polygon

section

variable {K : Type} [Field K]

theorem turn_rotate (v w u : Position K) : turn w u v = turn v w u := by
  simp only [turn]
  ring

theorem sum_turn (v w : Position K) (places : List (Position K)) :
    (places.map (turn v w)).sum =
      (w.longitude - v.longitude) * ((places.map (·.latitude)).sum - places.length * v.latitude) -
        (w.latitude - v.latitude) * ((places.map (·.longitude)).sum - places.length * v.longitude) := by
  induction places with
  | nil => simp
  | cons p places ih =>
    simp only [List.map_cons, List.sum_cons, List.length_cons, Nat.cast_succ, ih, turn]
    ring

/-- Twice the area inside a polygon, below zero if the inside is on the right. -/
def doubleArea (ring : List (Position K)) : K :=
  ((edges ring).map fun e => turn ⟨0, 0⟩ e.1 e.2).sum

end

variable {K : Type} [Field K] [LinearOrder K]

/-! ## The mean of the vertices -/

section

variable [IsStrictOrderedRing K] [Rounding K] {ring : List (Position K)}

/-- The mean lies as far to the left of a line as the vertices do in the mean. -/
theorem turn_center (some : ring ≠ []) (v w : Position K) :
    turn v w (center ring) = (ring.map (turn v w)).sum / ring.length := by
  have counted : (ring.length : K) ≠ 0 := Nat.cast_ne_zero.2 (List.length_eq_zero_iff.not.2 some)
  rw [sum_turn, Grid.center_eq, turn]
  field_simp

theorem turn_center_nonneg (some : ring ≠ []) {v w : Position K} (left : ∀ u ∈ ring, 0 ≤ turn v w u) :
    0 ≤ turn v w (center ring) := by
  rw [turn_center some]
  exact div_nonneg (List.sum_nonneg (List.forall_mem_map.2 left)) (Nat.cast_nonneg _)

theorem turn_center_pos {v w u : Position K} (left : ∀ u ∈ ring, 0 ≤ turn v w u) (there : u ∈ ring)
    (off : 0 < turn v w u) : 0 < turn v w (center ring) := by
  have some := List.ne_nil_of_mem there
  have part : turn v w u ≤ (ring.map (turn v w)).sum :=
    List.single_le_sum (List.forall_mem_map.2 left) _ (List.mem_map_of_mem there)
  rw [turn_center some]
  exact div_pos (off.trans_le part) (Nat.cast_pos.2 (List.length_pos_iff.2 some))

/-- The mean of the vertices of a convex polygon is inside it. -/
theorem Convex.contains_center {hand : Hand} (convex : Convex hand ring) :
    contains ring (center ring) = true := by
  apply convex.contains_of_deep
  intro e there
  obtain ⟨u, hu, off⟩ := convex.exists_inner there
  cases hand with
  | left => exact turn_center_pos (convex.inner e there) hu off
  | right => exact turn_center_pos (convex.inner e there) hu off

end

/-- A triangle is convex, on the hand that its corners turn to. -/
theorem exists_convex_triangle [IsStrictOrderedRing K] {a b c : Position K} (turns : turn a b c ≠ 0) :
    ∃ hand, Convex hand [a, b, c] := by
  have distinct : [a, b, c].Nodup := by
    have first : a ≠ b := fun same => turns (by rw [same, turn_rotate, turn_second])
    have second : a ≠ c := fun same => turns (by rw [same, turn_first])
    have third : b ≠ c := fun same => turns (by rw [same, turn_second])
    simp [first, second, third]
  have spread : ∃ u ∈ [a, b, c], ∃ v ∈ [a, b, c], ∃ w ∈ [a, b, c], turn u v w ≠ 0 :=
    ⟨a, by simp, b, by simp, c, by simp, turns⟩
  have corners : ∀ e ∈ edges [a, b, c], ∀ u ∈ [a, b, c],
      turn e.1 e.2 u = 0 ∨ turn e.1 e.2 u = turn a b c := by
    simp [edges, turn_rotate b c a, turn_rotate a b c]
  rcases lt_or_gt_of_ne turns with right | left
  · refine ⟨.right, distinct, spread, fun e he u hu => ?_⟩
    rw [depth, turn_swap]
    rcases corners e he u hu with none | whole
    · rw [none, neg_zero]
    · rw [whole]
      exact (neg_pos.2 right).le
  · refine ⟨.left, distinct, spread, fun e he u hu => ?_⟩
    rw [depth]
    rcases corners e he u hu with none | whole
    · rw [none]
    · rw [whole]
      exact left.le

/-! ## The boundary of a polygon -/

/-- A place is on a step when it lies some part of the way from the one end to the other. -/
def OnStep (e : Position K × Position K) (p : Position K) : Prop :=
  ∃ part, 0 ≤ part ∧ part ≤ 1 ∧ p.latitude = e.1.latitude + part * (e.2.latitude - e.1.latitude) ∧
    p.longitude = e.1.longitude + part * (e.2.longitude - e.1.longitude)

/-- A place is in a polygon when it is inside or on the boundary. -/
def Covers [Rounding K] (ring : List (Position K)) (p : Position K) : Prop :=
  contains ring p = true ∨ ∃ e ∈ edges ring, OnStep e p

/-- The vertices of a polygon are all different, and it meets itself only where an edge goes on from the one
before it. -/
structure Simple (ring : List (Position K)) : Prop where
  distinct : ring.Nodup
  apart : ∀ e ∈ edges ring, ∀ f ∈ edges ring, e ≠ f → ∀ p, OnStep e p → OnStep f p →
    p = e.2 ∧ p = f.1 ∨ p = e.1 ∧ p = f.2

/-- Two steps have nothing in common but an end: the second lies on one side of the line of the first, or
goes on from it in another direction. -/
def Clear (e f : Position K × Position K) : Prop :=
  0 < turn e.1 e.2 f.1 * turn e.1 e.2 f.2 ∨ e.2 = f.1 ∧ turn e.1 e.2 f.2 ≠ 0

instance [DecidableEq (Position K)] (e f : Position K × Position K) : Decidable (Clear e f) :=
  inferInstanceAs (Decidable (_ ∨ _))

section

variable {e f : Position K × Position K} {p : Position K} {part : K}

omit [LinearOrder K] in
theorem turn_of_part (latitude : p.latitude = e.1.latitude + part * (e.2.latitude - e.1.latitude))
    (longitude : p.longitude = e.1.longitude + part * (e.2.longitude - e.1.longitude))
    (v w : Position K) : turn v w p = (1 - part) * turn v w e.1 + part * turn v w e.2 := by
  rw [turn, latitude, longitude, turn, turn]
  ring

theorem OnStep.turn_eq_zero (on : OnStep e p) : turn e.1 e.2 p = 0 := by
  obtain ⟨part, -, -, latitude, longitude⟩ := on
  rw [turn_of_part latitude longitude, turn_first, turn_second, mul_zero, mul_zero, add_zero]

theorem Clear.meets [IsStrictOrderedRing K] (clear : Clear e f) (he : OnStep e p) (hf : OnStep f p) :
    p = e.2 ∧ p = f.1 := by
  obtain ⟨part, start, finish, latitude, longitude⟩ := hf
  have level := turn_of_part latitude longitude e.1 e.2
  rw [he.turn_eq_zero] at level
  rcases clear with one_side | ⟨goes_on, turns⟩
  · have off : turn e.1 e.2 f.1 ≠ 0 := left_ne_zero_of_mul one_side.ne'
    have between := Convex.min_le_combo (turn e.1 e.2 f.1 * turn e.1 e.2 f.1)
      (turn e.1 e.2 f.1 * turn e.1 e.2 f.2) (sub_nonneg.2 finish) start (sub_add_cancel 1 part)
    have balance : (1 - part) * (turn e.1 e.2 f.1 * turn e.1 e.2 f.1) +
        part * (turn e.1 e.2 f.1 * turn e.1 e.2 f.2) = 0 := by
      linear_combination (-turn e.1 e.2 f.1) * level
    rw [smul_eq_mul, smul_eq_mul, balance] at between
    exact absurd (lt_min (mul_self_pos.2 off) one_side) between.not_gt
  · rw [← goes_on, turn_second, mul_zero, zero_add, eq_comm, mul_eq_zero] at level
    have none := level.resolve_right turns
    rw [none, zero_mul, add_zero] at latitude longitude
    have first : p = f.1 := height_injective (Prod.ext latitude longitude)
    exact ⟨first.trans goes_on.symm, first⟩

/-- A polygon does not meet itself if each two of its edges are clear of each other. -/
theorem simple_of_clear [IsStrictOrderedRing K] {ring : List (Position K)} (distinct : ring.Nodup)
    (clear : ∀ e ∈ edges ring, ∀ f ∈ edges ring, e ≠ f → Clear e f ∨ Clear f e) : Simple ring := by
  refine ⟨distinct, fun e he f hf different p on_e on_f => ?_⟩
  rcases clear e he f hf different with clear | clear
  · exact .inl (clear.meets on_e on_f)
  · exact .inr (clear.meets on_f on_e).symm

end

end Polygon

namespace Grid

open Scalar SpectrumShare.Polygon

variable {K : Type} [Field K] [LinearOrder K] [Rounding K]

theorem contains_of_mem_latticePoints {polygon : List (Position K)} {step : K} {p : Position K}
    (there : p ∈ latticePoints polygon step) : contains polygon p = true := by
  rw [latticePoints_eq] at there
  obtain ⟨c, kept, rfl⟩ := List.mem_map.1 there
  exact (List.mem_filter.1 kept).2

/-- **Which points of a grid lie in its polygon.** A grid is never empty. All its points are inside the
polygon, unless no lattice place was found and the mean of the vertices stands for the area; the points lie
in the polygon, on the boundary counted, exactly if a place was found or the mean lies in it. In any case
they lie in every half-plane that holds the vertices, and if the polygon is convex, a triangle say, they are
inside. -/
theorem points_in_area [IsStrictOrderedRing K] {polygon : List (Position K)} {resolution : K}
    (enough : 3 ≤ (openRing polygon).length) (finite : isFinite resolution = true)
    (positive : 0 < resolution) :
    ∃ found, points polygon resolution = .ok found ∧ found ≠ [] ∧
      ((∀ p ∈ found, contains polygon p = true) ∨
        latticePoints polygon (resolution / 3600) = [] ∧ found = [center (openRing polygon)]) ∧
      ((∀ p ∈ found, Covers (openRing polygon) p) ↔
        latticePoints polygon (resolution / 3600) ≠ [] ∨
          Covers (openRing polygon) (center (openRing polygon))) ∧
      (∀ v w, (∀ u ∈ openRing polygon, 0 ≤ turn v w u) → ∀ p ∈ found, 0 ≤ turn v w p) ∧
      (∀ hand, Polygon.Convex hand (openRing polygon) → ∀ p ∈ found, contains polygon p = true) ∧
      ∀ a b c, openRing polygon = [a, b, c] → turn a b c ≠ 0 →
        ∀ p ∈ found, contains polygon p = true := by
  have answer := points_eq enough (isPositive_iff.2 ⟨finite, positive⟩)
  have some : openRing polygon ≠ [] := by
    rintro none
    rw [none] at enough
    cases enough
  by_cases none : latticePoints polygon (resolution / 3600) = []
  · rw [if_pos none] at answer
    have at_center {P : Position K → Prop} :
        (∀ p ∈ [center (openRing polygon)], P p) ↔ P (center (openRing polygon)) :=
      List.forall_mem_singleton
    have convex_inside {hand : Hand} (convex : Polygon.Convex hand (openRing polygon)) :
        ∀ p ∈ [center (openRing polygon)], contains polygon p = true := by
      rw [at_center, ← contains_openRing]
      exact convex.contains_center
    refine ⟨_, answer, List.cons_ne_nil _ _, .inr ⟨none, rfl⟩, ?_, ?_, fun _ => convex_inside, ?_⟩
    · rw [at_center]
      simp [none]
    · intro v w left
      exact at_center.2 (turn_center_nonneg some left)
    · intro a b c triangle turns
      obtain ⟨hand, convex⟩ := exists_convex_triangle turns
      exact convex_inside (triangle ▸ convex)
  · rw [if_neg none] at answer
    have inside : ∀ p ∈ latticePoints polygon (resolution / 3600), contains polygon p = true :=
      fun p => contains_of_mem_latticePoints
    have inside_open {p : Position K} (there : p ∈ latticePoints polygon (resolution / 3600)) :
        contains (openRing polygon) p = true := (contains_openRing polygon p).trans (inside p there)
    refine ⟨_, answer, none, .inl inside, ?_, ?_, fun _ _ => inside, fun _ _ _ _ _ => inside⟩
    · exact iff_of_true (fun p there => .inl (inside_open there)) (.inl none)
    · exact fun v w left p there => left_of_contains (inside_open there) left

/-- The triangle between the lattice places is protected inside. -/
theorem points_in_area_sliver :
    ∃ found, points sliver 3600 = .ok found ∧ found ≠ [] ∧ ∀ p ∈ found, contains sliver p = true := by
  have enough : 3 ≤ (openRing sliver).length := by decide +kernel
  have finite : isFinite (3600 : ℚ) = true := rfl
  obtain ⟨found, answer, some, -, -, -, -, triangle⟩ := points_in_area enough finite (by norm_num)
  have turns : turn (⟨1 / 4, 1 / 4⟩ : Position ℚ) ⟨1 / 4, 3 / 4⟩ ⟨3 / 4, 1 / 4⟩ ≠ 0 := by decide +kernel
  exact ⟨found, answer, some, triangle _ _ _ (by decide +kernel) turns⟩

/-- A corridor round a corner that lies between the lattice places of two arcseconds, three
ten-thousandths of a degree wide. -/
def corridor : List (Position ℚ) :=
  [⟨370001 / 10000, -1219999 / 10000⟩, ⟨370001 / 10000, -1219949 / 10000⟩,
    ⟨370004 / 10000, -1219949 / 10000⟩, ⟨370004 / 10000, -1219996 / 10000⟩,
    ⟨370051 / 10000, -1219996 / 10000⟩, ⟨370051 / 10000, -1219999 / 10000⟩]

/-- The corridor does not meet itself and is larger than a lattice cell. The one point that stands for it
lies beside it, in the corner that it goes round. -/
theorem corridor_protected_outside :
    3 ≤ (openRing corridor).length ∧ Simple (openRing corridor) ∧
      2 * (2 / 3600) ^ 2 < doubleArea (openRing corridor) ∧
      points corridor 2 = .ok [⟨138757 / 3750, -457493 / 3750⟩] ∧
      ¬Covers (openRing corridor) ⟨138757 / 3750, -457493 / 3750⟩ := by
  have off : ∀ e ∈ edges (openRing corridor), turn e.1 e.2 ⟨138757 / 3750, -457493 / 3750⟩ ≠ 0 := by
    decide +kernel
  refine ⟨by decide +kernel, simple_of_clear (by decide +kernel) (by decide +kernel), by decide +kernel,
    by decide +kernel, ?_⟩
  rintro (inside | ⟨e, there, on⟩)
  · exact absurd inside (by decide +kernel)
  · exact off e there on.turn_eq_zero

end Grid

end SpectrumShare
