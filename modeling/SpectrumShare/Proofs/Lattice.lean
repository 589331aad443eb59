import SpectrumShare.Proofs.Cells
import SpectrumShare.Proofs.PointMap
import SpectrumShare.Proofs.Rounding

/-! # The points of a grid have different keys

A lattice whose step is not shorter than a micro-degree has one point to a key, wherever on the map it
lies, and its places are listed in the order of their keys. -/

namespace SpectrumShare

namespace Scalar

theorem foldl_choice_mem {α : Type} {choice : α → α → α}
    (chooses : ∀ a b, choice a b = a ∨ choice a b = b) (v : α) (rest : List α) :
    rest.foldl choice v ∈ v :: rest := by
  induction rest generalizing v with
  | nil => simp
  | cons w rest ih =>
    rcases chooses v w with same | same
    · rcases List.mem_cons.1 (ih (choice v w)) with first | later
      · rw [List.foldl_cons, first, same]
        exact List.mem_cons_self
      · exact List.mem_cons_of_mem _ (List.mem_cons_of_mem _ later)
    · rw [List.foldl_cons, same]
      exact List.mem_cons_of_mem _ (ih w)

variable {α : Type} [Scalar α]

theorem least_choice (a b : α) : least a b = a ∨ least a b = b := by
  rw [least]
  split
  · exact .inl rfl
  · exact .inr rfl

theorem greatest_choice (a b : α) : greatest a b = a ∨ greatest a b = b := by
  rw [greatest]
  split
  · exact .inl rfl
  · exact .inr rfl

end Scalar

namespace Polygon

variable {α : Type} [Scalar α]

theorem mem_of_mem_openRing {ring : List (Position α)} {v : Position α} (there : v ∈ openRing ring) :
    v ∈ ring := by
  unfold openRing at there
  split at there
  · split at there
    · split at there
      · exact List.mem_of_mem_dropLast there
      · exact there
    · exact there
  · exact there

end Polygon

namespace Grid

open Scalar

variable {K : Type} [Field K] [LinearOrder K] {step : K}

theorem arcsecondsPerDegree_eq [Rounding K] : (arcsecondsPerDegree : K) = 3600 := by
  simp [arcsecondsPerDegree]

variable [IsStrictOrderedRing K]

/-- A step of a micro-degree or more counts the degrees of the map in 64 bits. -/
theorem div_step_mem (fine : 1 ≤ step * 1000000) {degrees : K} (mapped : Mapped degrees) :
    (Word.least : K) ≤ degrees / step ∧ degrees / step ≤ (Word.greatest : K) := by
  have positive : 0 < step := by linarith
  have below_zero : (Word.least : K) ≤ 0 := by norm_num [Word.least]
  have above_zero : (0 : K) ≤ Word.greatest := by norm_num [Word.greatest]
  obtain ⟨least, greatest⟩ := mapped
  rw [le_div_iff₀ positive, div_le_iff₀ positive]
  have low : (Word.least : K) * (step * 1000000) ≤ Word.least :=
    mul_le_of_one_le_right below_zero fine
  have high : (Word.greatest : K) ≤ Word.greatest * (step * 1000000) :=
    le_mul_of_one_le_right above_zero fine
  constructor <;> linarith

variable [FloorRing K] [Rounding K] [Rounding.IsExact K]

/-- The lattice lies between the least and the greatest of the values it is laid over. -/
theorem Span.mapped_of_mem (fine : 1 ≤ step * 1000000) {values : List K}
    (mapped : ∀ v ∈ values, Mapped v) {i : Int} (there : i ∈ (Span.of step values).indices) :
    Mapped ((i : K) * step) := by
  obtain ⟨above, within⟩ := Span.mem_indices.1 there
  cases values with
  | nil => cases there
  | cons v rest =>
    have positive : 0 < step := by linarith
    have low_mapped : Mapped (rest.foldl least v) := mapped _ (foldl_choice_mem least_choice v rest)
    have high_mapped : Mapped (rest.foldl greatest v) :=
      mapped _ (foldl_choice_mem greatest_choice v rest)
    obtain ⟨low_least, low_greatest⟩ := div_step_mem fine low_mapped
    obtain ⟨high_least, high_greatest⟩ := div_step_mem fine high_mapped
    have first : (Span.of step (v :: rest)).first = ⌈rest.foldl least v / step⌉ := by
      rw [Span.of, ceil_eq]
      exact Word.saturate_of_mem (Int.le_ceil_iff.2 (by linarith)) (Int.ceil_le.2 low_greatest)
    have last : Word.saturate (floor (rest.foldl greatest v / step)) =
        ⌊rest.foldl greatest v / step⌋ := by
      rw [floor_eq]
      exact Word.saturate_of_mem (Int.le_floor.2 high_least) (Int.floor_le_iff.2 (by linarith))
    have count : (Span.of step (v :: rest)).count =
        (⌊rest.foldl greatest v / step⌋ - (Span.of step (v :: rest)).first + 1).toNat := by
      rw [← last]
      rfl
    rw [count] at within
    -- neither end was cut off at the ends of the 64-bit range
    refine low_mapped.between high_mapped ?_ ?_
    · rw [← div_le_iff₀ positive]
      refine (Int.le_ceil _).trans (Int.cast_le.2 ?_)
      rw [← first]
      omega
    · rw [← le_div_iff₀ positive]
      refine (Int.cast_le.2 ?_).trans (Int.floor_le _)
      omega

/-- Different steps of a lattice are told apart, in their order. -/
theorem toMicro_step_lt (fine : 1 ≤ step * 1000000) {i j : Int} (hi : Mapped ((i : K) * step))
    (hj : Mapped ((j : K) * step)) (before : i < j) :
    toMicro ((i : K) * step) < toMicro ((j : K) * step) := by
  apply toMicro_lt hi hj
  have next : (i : K) + 1 ≤ j := by exact_mod_cast before
  have positive : 0 ≤ step * 1000000 := by linarith
  calc (i : K) * step * 1000000 + 1 ≤ i * (step * 1000000) + step * 1000000 := by linarith
    _ = (i + 1) * (step * 1000000) := by ring
    _ ≤ j * (step * 1000000) := mul_le_mul_of_nonneg_right next positive
    _ = j * step * 1000000 := by ring

/-- The places of a lattice are listed from south to north and from west to east. -/
theorem latticePoints_ascending (fine : 1 ≤ step * 1000000) {polygon : List (Position K)}
    (latitudes : ∀ v ∈ polygon, Mapped v.latitude) (longitudes : ∀ v ∈ polygon, Mapped v.longitude) :
    (latticePoints polygon step).Pairwise fun p q => p.key.Before q.key := by
  have rows : ∀ v ∈ (Polygon.openRing polygon).map (·.latitude), Mapped v := by
    intro v there
    obtain ⟨p, hp, rfl⟩ := List.mem_map.1 there
    exact latitudes p (Polygon.mem_of_mem_openRing hp)
  have columns : ∀ v ∈ (Polygon.openRing polygon).map (·.longitude), Mapped v := by
    intro v there
    obtain ⟨p, hp, rfl⟩ := List.mem_map.1 there
    exact longitudes p (Polygon.mem_of_mem_openRing hp)
  rw [latticePoints_eq, List.pairwise_map]
  apply List.Pairwise.filter
  apply (cells_ascending _ _).imp_of_mem
  intro c d hc hd before
  obtain ⟨row_c, column_c⟩ := mem_cells.1 hc
  obtain ⟨row_d, column_d⟩ := mem_cells.1 hd
  cases before with
  | left _ _ before =>
    left
    exact toMicro_step_lt fine (Span.mapped_of_mem fine rows row_c)
      (Span.mapped_of_mem fine rows row_d) before
  | right _ before =>
    right
    exact ⟨rfl, toMicro_step_lt fine (Span.mapped_of_mem fine columns column_c)
      (Span.mapped_of_mem fine columns column_d) before⟩

/-- No two points of a grid share a key, if the grid is not finer than the keys and lies on the map. -/
theorem points_keys_nodup {polygon points : List (Position K)} {resolution : K}
    (fine : 3600 ≤ resolution * 1000000) (latitudes : ∀ v ∈ polygon, Mapped v.latitude)
    (longitudes : ∀ v ∈ polygon, Mapped v.longitude) (laid : Grid.points polygon resolution = .ok points) :
    (points.map Position.key).Nodup := by
  have step_fine : 1 ≤ resolution / arcsecondsPerDegree * 1000000 := by
    rw [arcsecondsPerDegree_eq]
    linarith
  rw [Grid.points] at laid
  split at laid
  · cases laid
  split at laid
  · split at laid
    · cases laid
      exact List.nodup_singleton _
    · rename_i found
      cases laid
      have ascending := latticePoints_ascending step_fine latitudes longitudes
      refine List.pairwise_map.2 (ascending.imp ?_)
      rintro p q (before | ⟨-, before⟩) same
      · exact before.ne (congrArg PointKey.latitude same)
      · exact before.ne (congrArg PointKey.longitude same)
  · cases laid

end Grid

end SpectrumShare
