import SpectrumShare.Place
import SpectrumShare.SortedMap

/-! # Maps over points

A map holds its points by latitude and in each latitude by longitude, both ascending. -/
namespace SpectrumShare

structure PointMap (ν : Type) where
  rows : SortedMap (SortedMap ν)
  deriving DecidableEq, Repr

namespace PointMap

variable {ν μ : Type}

def empty : PointMap ν := ⟨.empty⟩

def get? (m : PointMap ν) (key : PointKey) : Option ν := do
  (← m.rows.get? key.latitude).get? key.longitude

def insert (m : PointMap ν) (key : PointKey) (value : ν) : PointMap ν :=
  ⟨m.rows.insert key.latitude
    (((m.rows.get? key.latitude).getD .empty).insert key.longitude value)⟩

/-- How many points there are. -/
def size (m : PointMap ν) : Nat := m.rows.entries.foldl (fun count row => count + row.2.size) 0

def isEmpty (m : PointMap ν) : Bool := m.rows.isEmpty

/-- The points in ascending order of latitude, then longitude. -/
def toList (m : PointMap ν) : List (PointKey × ν) :=
  m.rows.entries.flatMap fun row => row.2.entries.map fun e => (⟨row.1, e.1⟩, e.2)

def map (f : ν → μ) (m : PointMap ν) : PointMap μ := ⟨m.rows.map (SortedMap.map f)⟩

theorem get?_insert (m : PointMap ν) (key other : PointKey) (value : ν) :
    (m.insert key value).get? other = if other = key then some value else m.get? other := by
  obtain ⟨lat, lon⟩ := key
  obtain ⟨lat', lon'⟩ := other
  simp only [get?, insert, SortedMap.get?_insert, PointKey.mk.injEq]
  by_cases sameRow : lat' = lat
  · subst sameRow
    by_cases sameColumn : lon' = lon
    · simp [SortedMap.get?_insert, sameColumn]
    · cases h : m.rows.get? lat' <;>
        simp [SortedMap.get?_insert, sameColumn, SortedMap.get?_empty]
  · simp [sameRow]

end PointMap

end SpectrumShare
