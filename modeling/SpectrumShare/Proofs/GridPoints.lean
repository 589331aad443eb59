import SpectrumShare.Proofs.Lattice
import SpectrumShare.Proofs.Polygon

/-! # The points of a grid are the lattice inside its polygon

Only the box round a polygon is searched for lattice places, and it has a cell for every such place inside
the polygon. In exact arithmetic the points are those places, and the mean of the vertices if there is
none. -/

namespace SpectrumShare

open Scalar

namespace Polygon

variable {K : Type} [Field K] [LinearOrder K] [Rounding K]

theorem sameVertex_iff {a b : Position K} : sameVertex a b = true ↔ a = b := by
  obtain ⟨_, _⟩ := a
  obtain ⟨_, _⟩ := b
  rw [sameVertex, Bool.and_eq_true, same_iff, same_iff, Position.mk.injEq]

/-- A ring loses the repetition of its first vertex at the end. -/
theorem openRing_closed (first : Position K) (rest : List (Position K)) :
    openRing (first :: rest ++ [first]) = first :: rest := by
  have again : (first :: rest ++ [first]).getLast? = some first := List.getLast?_concat
  cases rest with
  | nil => simp [openRing, sameVertex_iff.2]
  | cons w rest =>
    rw [List.cons_append, List.cons_append] at again ⊢
    simp only [openRing, again, sameVertex_iff.2, if_true]
    rw [← List.cons_append, ← List.cons_append, List.dropLast_concat]

theorem openRing_open {ring : List (Position K)} {first : Position K} (starts : ring.head? = some first)
    (ends : ring.getLast? ≠ some first) : openRing ring = ring := by
  match ring with
  | [] => rfl
  | [_] => rfl
  | v :: w :: rest =>
    cases starts
    cases last : (first :: w :: rest).getLast? with
    | none => simp [openRing, last]
    | some u =>
      have apart : sameVertex first u = false := by
        rw [Bool.eq_false_iff, Ne, sameVertex_iff]
        rintro rfl
        exact ends last
      simp [openRing, last, apart]

theorem contains_openRing (ring : List (Position K)) (p : Position K) :
    contains (openRing ring) p = contains ring p := by
  cases ring with
  | nil => rfl
  | cons first rest =>
    by_cases closed : (first :: rest).getLast? = some first
    · obtain ⟨walk, parted⟩ := List.getLast?_eq_some_iff.1 closed
      cases walk with
      | nil => rw [parted]; rfl
      | cons v walk =>
        obtain ⟨rfl, -⟩ := List.cons.inj parted
        rw [parted, openRing_closed, contains_closed]
    · rw [openRing_open rfl closed]

end Polygon

namespace Grid

variable {K : Type} [Field K] [LinearOrder K] [Rounding K]

theorem foldl_least_le {v : K} {rest : List K} {x : K} (there : x ∈ v :: rest) :
    rest.foldl least v ≤ x := by
  have lesser : (least : K → K → K) = min := funext fun a => funext (least_eq_min a)
  rw [lesser]
  have least_of : (v :: rest).min? = some (rest.foldl min v) := List.min?_cons'
  exact (List.le_min?_iff least_of).1 le_rfl x there

theorem le_foldl_greatest {v : K} {rest : List K} {x : K} (there : x ∈ v :: rest) :
    x ≤ rest.foldl greatest v := by
  have greater : (greatest : K → K → K) = max := funext fun a => funext (greatest_eq_max a)
  rw [greater]
  have greatest_of : (v :: rest).max? = some (rest.foldl max v) := List.max?_cons'
  exact (List.max?_le_iff greatest_of).1 le_rfl x there

theorem center_eq (ring : List (Position K)) :
    Polygon.center ring =
      ⟨(ring.map (·.latitude)).sum / ring.length, (ring.map (·.longitude)).sum / ring.length⟩ := by
  simp only [Polygon.center, Scalar.sum, List.sum_eq_foldl, Nat.cast_zero]

/-- With enough vertices and a positive resolution a grid has what is found of the lattice. -/
theorem points_eq {polygon : List (Position K)} {resolution : K}
    (enough : 3 ≤ (Polygon.openRing polygon).length) (positive : isPositive resolution = true) :
    points polygon resolution =
      .ok (if latticePoints polygon (resolution / 3600) = [] then
          [Polygon.center (Polygon.openRing polygon)]
        else latticePoints polygon (resolution / 3600)) := by
  simp only [points, if_neg (not_lt.2 enough), if_pos positive, arcsecondsPerDegree_eq]
  split
  · rename_i none
    rw [if_pos none]
  · rename_i some
    rw [if_neg some]

theorem points_closed {ring : List (Position K)} {first : Position K} {resolution : K}
    (starts : ring.head? = some first) (ends : ring.getLast? ≠ some first) :
    points (ring ++ [first]) resolution = points ring resolution := by
  obtain ⟨rest, rfl⟩ := List.head?_eq_some_iff.1 starts
  have same_ring : Polygon.openRing (first :: rest ++ [first]) = Polygon.openRing (first :: rest) := by
    rw [Polygon.openRing_closed, Polygon.openRing_open starts ends]
  have same_places (step : K) :
      latticePoints (first :: rest ++ [first]) step = latticePoints (first :: rest) step := by
    simp only [latticePoints_eq, same_ring, Polygon.contains_closed]
  simp only [points, same_ring, same_places]

variable [IsStrictOrderedRing K] [FloorRing K]

/-- The next whole step upward from a value is not below the 64-bit range, nor the next one downward
above it: a span between such values is not cut short. -/
def Counted (step v : K) : Prop := Word.least ≤ ⌈v / step⌉ ∧ ⌊v / step⌋ ≤ Word.greatest

instance (step v : K) : Decidable (Counted step v) := inferInstanceAs (Decidable (_ ∧ _))

variable [Rounding.IsExact K] {step : K}

/-- A span holds every whole number of steps that lies between two of the values. -/
theorem Span.mem_indices_of (positive : 0 < step) {values : List K}
    (counted : ∀ v ∈ values, Counted step v) {i : Int} (above : ∃ v ∈ values, v ≤ i * step)
    (below : ∃ v ∈ values, i * step ≤ v) : i ∈ (Span.of step values).indices := by
  obtain ⟨u, hu, above⟩ := above
  obtain ⟨w, hw, below⟩ := below
  cases values with
  | nil => cases hu
  | cons v rest =>
    have low := counted _ (foldl_choice_mem least_choice v rest)
    have high := counted _ (foldl_choice_mem greatest_choice v rest)
    have from_first : ⌈rest.foldl least v / step⌉ ≤ i :=
      Int.ceil_le.2 ((div_le_iff₀ positive).2 ((foldl_least_le hu).trans above))
    have to_last : i ≤ ⌊rest.foldl greatest v / step⌋ :=
      Int.le_floor.2 ((le_div_iff₀ positive).2 (below.trans (le_foldl_greatest hw)))
    have low' := low.1
    have high' := high.2
    rw [Span.mem_indices]
    simp only [Span.of, ceil_eq, floor_eq, Word.saturate]
    omega

/-- The box of a polygon holds every lattice place inside it. -/
theorem mem_cells_of_contains (positive : 0 < step) {polygon : List (Position K)}
    (counted : ∀ v ∈ Polygon.openRing polygon, Counted step v.latitude ∧ Counted step v.longitude)
    {c : Int × Int} (inside : Polygon.contains polygon (node step c) = true) :
    c ∈ cells (Span.of step ((Polygon.openRing polygon).map (·.latitude)))
      (Span.of step ((Polygon.openRing polygon).map (·.longitude))) := by
  rw [← Polygon.contains_openRing] at inside
  obtain ⟨⟨south, hs, above⟩, ⟨north, hn, below⟩, ⟨west, hw, right⟩, ⟨east, he, left⟩⟩ :=
    Polygon.box_of_contains inside
  rw [mem_cells]
  constructor
  · apply Span.mem_indices_of positive
    · exact List.forall_mem_map.2 fun v hv => (counted v hv).1
    · exact ⟨_, List.mem_map_of_mem hs, above⟩
    · exact ⟨_, List.mem_map_of_mem hn, below.le⟩
  · apply Span.mem_indices_of positive
    · exact List.forall_mem_map.2 fun v hv => (counted v hv).2
    · exact ⟨_, List.mem_map_of_mem hw, right⟩
    · exact ⟨_, List.mem_map_of_mem he, left.le⟩

/-- The lattice places of a polygon are those inside it, row by row. -/
theorem exists_latticePoints (positive : 0 < step) {polygon : List (Position K)}
    (counted : ∀ v ∈ Polygon.openRing polygon, Counted step v.latitude ∧ Counted step v.longitude) :
    ∃ found : List (Int × Int), latticePoints polygon step = found.map (node step) ∧
      (∀ c, c ∈ found ↔ Polygon.contains polygon (node step c) = true) ∧
      found.Pairwise (Prod.Lex (· < ·) (· < ·)) := by
  refine ⟨_, latticePoints_eq polygon step, fun c => ?_, (cells_ascending _ _).filter _⟩
  rw [List.mem_filter]
  constructor
  · exact And.right
  · exact fun inside => ⟨mem_cells_of_contains positive counted inside, inside⟩

/-- **A grid is the lattice inside its polygon.** Let an area have three vertices or more, a repetition
of the first at the end not counted, and let no lattice index be cut off at the ends of the 64-bit range.
If there is a lattice place inside the polygon, the points of the grid are all of them, wherever on the
lattice they lie, each once, from south to north and from west to east. If there is none, the one point
is the mean of the vertices. And a polygon may be closed by its first vertex: the points stay the same. -/
theorem grid_exact {polygon : List (Position K)} {resolution : K}
    (enough : 3 ≤ (Polygon.openRing polygon).length) (finite : isFinite resolution = true)
    (positive : 0 < resolution)
    (counted : ∀ v ∈ Polygon.openRing polygon,
      Counted (resolution / 3600) v.latitude ∧ Counted (resolution / 3600) v.longitude) :
    ((∃ c, Polygon.contains polygon (node (resolution / 3600) c) = true) →
      ∃ found : List (Int × Int),
        points polygon resolution = .ok (found.map (node (resolution / 3600))) ∧
        (∀ c, c ∈ found ↔ Polygon.contains polygon (node (resolution / 3600) c) = true) ∧
        found.Pairwise (Prod.Lex (· < ·) (· < ·))) ∧
    ((∀ c, Polygon.contains polygon (node (resolution / 3600) c) = false) →
      points polygon resolution =
        .ok [⟨((Polygon.openRing polygon).map (·.latitude)).sum / (Polygon.openRing polygon).length,
          ((Polygon.openRing polygon).map (·.longitude)).sum / (Polygon.openRing polygon).length⟩]) ∧
    ∀ (ring : List (Position K)) (first : Position K) (spacing : K), ring.head? = some first →
      ring.getLast? ≠ some first → points (ring ++ [first]) spacing = points ring spacing := by
  have fine : 0 < resolution / 3600 := div_pos positive (by norm_num)
  obtain ⟨found, laid, mem, ascending⟩ := exists_latticePoints fine counted
  have answer := points_eq enough (isPositive_iff.2 ⟨finite, positive⟩)
  refine ⟨?_, ?_, fun _ _ _ => points_closed⟩
  · rintro ⟨c, inside⟩
    have some_found : found.map (node (resolution / 3600)) ≠ [] := by
      intro none
      rw [List.map_eq_nil_iff.1 none] at mem
      cases (mem c).2 inside
    refine ⟨found, ?_, mem, ascending⟩
    rw [answer, laid, if_neg some_found]
  · intro outside
    have none_found : found = [] := by
      apply List.eq_nil_iff_forall_not_mem.2
      intro c there
      have inside := (mem c).1 there
      rw [outside c] at inside
      cases inside
    rw [answer, laid, none_found, List.map_nil, if_pos rfl, center_eq]

/-- Two triangles that meet at a point, closed by the repetition of the first vertex. -/
def bowTie : List (Position ℚ) := [⟨0, 0⟩, ⟨4, 4⟩, ⟨4, 0⟩, ⟨0, 4⟩, ⟨0, 0⟩]

/-- A triangle between the lattice places of whole degrees. -/
def sliver : List (Position ℚ) := [⟨1 / 4, 1 / 4⟩, ⟨1 / 4, 3 / 4⟩, ⟨3 / 4, 1 / 4⟩]

theorem sliver_outside (c : Int × Int) : Polygon.contains sliver (node (3600 / 3600) c) = false := by
  by_contra inside
  obtain ⟨⟨v, hv, above⟩, ⟨w, hw, below⟩, -⟩ := Polygon.box_of_contains (Bool.not_eq_false _ ▸ inside)
  have low : ∀ v ∈ sliver, 1 / 4 ≤ v.latitude := by decide +kernel
  have high : ∀ v ∈ sliver, v.latitude ≤ 3 / 4 := by decide +kernel
  simp only [node] at above below
  have lower : (0 : ℚ) < c.1 := by linarith [low v hv]
  have upper : (c.1 : ℚ) < 1 := by linarith [high w hw]
  norm_cast at lower upper
  omega

/-- Of the two triangles the tip they meet in is not inside, and the places of the northern one come last.
The sliver is protected at its mean, whether it is closed or not. -/
theorem grid_exact_bowTie :
    (∃ found : List (Int × Int), points bowTie 3600 = .ok (found.map (node (3600 / 3600))) ∧
      (3, 2) ∈ found ∧ (2, 2) ∉ found ∧ found.Pairwise (Prod.Lex (· < ·) (· < ·))) ∧
    points sliver 3600 = .ok [⟨5 / 12, 5 / 12⟩] ∧
    points (sliver ++ [⟨1 / 4, 1 / 4⟩]) 3600 = .ok [⟨5 / 12, 5 / 12⟩] := by
  have inside : Polygon.contains bowTie (node (3600 / 3600) (3, 2)) = true := by decide +kernel
  have tip : Polygon.contains bowTie (node (3600 / 3600) (2, 2)) = false := by decide +kernel
  have counted_bowTie : ∀ v ∈ Polygon.openRing bowTie,
      Counted (3600 / 3600) v.latitude ∧ Counted (3600 / 3600) v.longitude := by decide +kernel
  have counted_sliver : ∀ v ∈ Polygon.openRing sliver,
      Counted (3600 / 3600) v.latitude ∧ Counted (3600 / 3600) v.longitude := by decide +kernel
  obtain ⟨lattice, -⟩ := grid_exact (by decide +kernel) rfl (by norm_num) counted_bowTie
  obtain ⟨-, mean, closed⟩ := grid_exact (by decide +kernel) rfl (by norm_num) counted_sliver
  obtain ⟨found, laid, mem, ascending⟩ := lattice ⟨_, inside⟩
  have at_mean : points sliver 3600 = .ok [⟨5 / 12, 5 / 12⟩] := by
    rw [mean sliver_outside]
    decide +kernel
  refine ⟨⟨found, laid, (mem _).2 inside, ?_, ascending⟩, at_mean, ?_⟩
  · rw [mem, tip]
    exact Bool.false_ne_true
  · rw [closed sliver ⟨1 / 4, 1 / 4⟩ 3600 rfl (by decide +kernel), at_mean]

end Grid

end SpectrumShare
