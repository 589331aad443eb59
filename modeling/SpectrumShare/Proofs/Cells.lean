import Mathlib.Data.List.Basic
import SpectrumShare.Grid

/-! # The cells of a box of the lattice

A polygon is searched for lattice places one parallel after the other, and on each parallel one place after
the other. So the places found are those of the cells that are inside, row by row. -/

namespace SpectrumShare.Grid

open Scalar

variable {α : Type} [Scalar α]

/-- The whole numbers of a span in ascending order. -/
def Span.indices (span : Span) : List Int :=
  (List.range span.count).map fun k : Nat => span.first + k

theorem Span.mem_indices {span : Span} {i : Int} :
    i ∈ span.indices ↔ span.first ≤ i ∧ i < span.first + span.count := by
  rw [indices, List.mem_map]
  constructor
  · rintro ⟨k, there, rfl⟩
    have inside := List.mem_range.1 there
    omega
  · rintro ⟨above, below⟩
    exact ⟨(i - span.first).toNat, List.mem_range.2 (by omega), by omega⟩

theorem Span.indices_ascending (span : Span) : span.indices.Pairwise (· < ·) := by
  rw [indices, List.pairwise_map]
  exact List.pairwise_lt_range.imp fun before => by omega

theorem Span.gather_eq_flatMap {β : Type} (span : Span) (f : Int → List β) :
    gather f span.first span.count [] = span.indices.flatMap f := by
  rw [gather_eq, List.append_nil, indices, List.flatMap_map]

/-- The cells of a box from south to north, and from west to east in each row. -/
def cells (rows columns : Span) : List (Int × Int) :=
  rows.indices.flatMap fun i => columns.indices.map fun j => (i, j)

theorem mem_cells {rows columns : Span} {c : Int × Int} :
    c ∈ cells rows columns ↔ c.1 ∈ rows.indices ∧ c.2 ∈ columns.indices := by
  simp only [cells, List.mem_flatMap, List.mem_map]
  constructor
  · rintro ⟨i, row, j, column, rfl⟩
    exact ⟨row, column⟩
  · rintro ⟨row, column⟩
    exact ⟨c.1, row, c.2, column, rfl⟩

theorem cells_ascending (rows columns : Span) :
    (cells rows columns).Pairwise (Prod.Lex (· < ·) (· < ·)) := by
  rw [cells, List.pairwise_flatMap]
  constructor
  · intro i _
    rw [List.pairwise_map]
    exact columns.indices_ascending.imp fun before => .right _ before
  · apply rows.indices_ascending.imp
    intro i j before c hc d hd
    obtain ⟨_, _, rfl⟩ := List.mem_map.1 hc
    obtain ⟨_, _, rfl⟩ := List.mem_map.1 hd
    exact .left _ _ before

/-- The place of a lattice cell. -/
def node (step : α) (cell : Int × Int) : Position α :=
  ⟨((cell.1 : Int) : α) * step, ((cell.2 : Int) : α) * step⟩

theorem flatMap_ite {β γ : Type} (keep : β → Bool) (f : β → γ) (values : List β) :
    (values.flatMap fun v => if keep v then [f v] else []) = (values.filter keep).map f := by
  induction values with
  | nil => rfl
  | cons v values ih =>
    rw [List.flatMap_cons, ih, List.filter_cons]
    split
    · rfl
    · rfl

theorem parallel_eq (columns : Span) (step latitude : α) (meetings : List α) :
    parallel columns step latitude meetings =
      (columns.indices.filter fun j => Polygon.isBetween meetings (((j : Int) : α) * step)).map
        fun j => ⟨latitude, ((j : Int) : α) * step⟩ := by
  rw [parallel]
  split
  · rename_i empty
    rw [List.isEmpty_iff.1 empty]
    simp [Polygon.isBetween]
  · rw [Span.gather_eq_flatMap, ← flatMap_ite]

/-- What is found in the box of a polygon are the places of its cells that are inside. -/
theorem latticePoints_eq (polygon : List (Position α)) (step : α) :
    latticePoints polygon step =
      ((cells (Span.of step ((Polygon.openRing polygon).map (·.latitude)))
        (Span.of step ((Polygon.openRing polygon).map (·.longitude)))).filter fun c =>
          Polygon.contains polygon (node step c)).map (node step) := by
  rw [latticePoints, Span.gather_eq_flatMap, cells, List.filter_flatMap, List.map_flatMap]
  apply List.flatMap_congr
  intro i _
  rw [parallel_eq, List.filter_map, List.map_map]
  rfl

end SpectrumShare.Grid
