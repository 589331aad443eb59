import Mathlib.Data.List.Sort
import SpectrumShare.PointMap

/-! # What a map over points holds

A map is known by what is found at each key, and its list names each key once, by ascending latitude and in
one latitude by ascending longitude. -/

namespace SpectrumShare

namespace SortedMap

variable {ν μ : Type}

theorem mem_entries (m : SortedMap ν) {key : Int} {value : ν} :
    (key, value) ∈ m.entries ↔ m.get? key = some value := by
  obtain ⟨entries, ascending⟩ := m
  simp only [get?]
  induction entries with
  | nil => simp
  | cons head rest ih =>
    obtain ⟨k, v⟩ := head
    obtain ⟨above, ordered⟩ := List.pairwise_cons.1 ascending
    rw [List.mem_cons, List.lookup_cons]
    by_cases here : key = k
    · subst here
      have once : (key, value) ∉ rest := by
        intro again
        have : key < key := above _ again
        omega
      simp [once, eq_comm]
    · have apart : (key == k) = false := by simpa using here
      simp [here, apart, ih ordered]

/-- A map is known by what is found at each key. -/
theorem ext_get? {a b : SortedMap ν} (same : ∀ key, a.get? key = b.get? key) : a = b := by
  apply ext_entries
  have apart : ∀ e f : Int × ν, e.1 < f.1 → f.1 < e.1 → e = f := by
    intro e f before after
    omega
  have perm : a.entries.Perm b.entries := by
    refine (List.perm_ext_iff_of_nodup ?_ ?_).2 ?_
    · exact a.ascending.imp fun before equal => by simp [equal] at before
    · exact b.ascending.imp fun before equal => by simp [equal] at before
    · rintro ⟨key, value⟩
      rw [mem_entries, mem_entries, same]
  exact perm.eq_of_pairwise (fun e f _ _ => apart e f) a.ascending b.ascending

theorem get?_map (f : ν → μ) (m : SortedMap ν) (key : Int) :
    (m.map f).get? key = (m.get? key).map f := by
  obtain ⟨entries, ascending⟩ := m
  simp only [get?, map]
  clear ascending
  induction entries with
  | nil => rfl
  | cons head rest ih =>
    rw [List.map_cons, List.lookup_cons, List.lookup_cons]
    cases key == head.1 <;> simp [ih]

theorem insertInto_ne_nil (key : Int) (value : ν) (entries : List (Int × ν)) :
    insertInto key value entries ≠ [] := by
  cases entries with
  | nil => simp [insertInto]
  | cons head rest =>
    simp only [insertInto]
    split
    · simp
    · split <;> simp

end SortedMap

/-- The order in which a map lists its points. -/
def PointKey.Before (a b : PointKey) : Prop :=
  a.latitude < b.latitude ∨ a.latitude = b.latitude ∧ a.longitude < b.longitude

namespace PointMap

variable {ν μ : Type}

theorem get?_eq_some {m : PointMap ν} {key : PointKey} {value : ν} :
    m.get? key = some value ↔
      ∃ row, m.rows.get? key.latitude = some row ∧ row.get? key.longitude = some value := by
  simp [get?, Option.bind_eq_some_iff]

/-- A map lists what is found in it. -/
theorem mem_toList (m : PointMap ν) {key : PointKey} {value : ν} :
    (key, value) ∈ m.toList ↔ m.get? key = some value := by
  rw [get?_eq_some]
  constructor
  · intro listed
    obtain ⟨⟨lat, row⟩, there, inside⟩ := List.mem_flatMap.1 listed
    obtain ⟨⟨lon, v⟩, found, same⟩ := List.mem_map.1 inside
    cases same
    exact ⟨row, m.rows.mem_entries.1 there, row.mem_entries.1 found⟩
  · rintro ⟨row, there, found⟩
    apply List.mem_flatMap.2
    refine ⟨(key.latitude, row), m.rows.mem_entries.2 there, List.mem_map.2 ?_⟩
    exact ⟨(key.longitude, value), row.mem_entries.2 found, rfl⟩

theorem mem_keys (m : PointMap ν) (key : PointKey) :
    key ∈ m.toList.map (·.1) ↔ (m.get? key).isSome := by
  rw [Option.isSome_iff_exists, List.mem_map]
  constructor
  · rintro ⟨⟨_, value⟩, listed, rfl⟩
    exact ⟨value, m.mem_toList.1 listed⟩
  · rintro ⟨value, found⟩
    exact ⟨(key, value), m.mem_toList.2 found, rfl⟩

/-- The points of a map are listed in strictly ascending order, so each once. -/
theorem toList_ascending (m : PointMap ν) :
    (m.toList.map (·.1)).Pairwise PointKey.Before := by
  refine List.pairwise_map.2 (List.pairwise_flatMap.2 ⟨?_, ?_⟩)
  · intro row _
    refine List.pairwise_map.2 (row.2.ascending.imp ?_)
    exact fun before => .inr ⟨rfl, before⟩
  · refine m.rows.ascending.imp ?_
    intro row row' before a ha b hb
    obtain ⟨e, _, rfl⟩ := List.mem_map.1 ha
    obtain ⟨f, _, rfl⟩ := List.mem_map.1 hb
    exact .inl before

theorem size_eq_length (m : PointMap ν) : m.size = m.toList.length := by
  have counted : ∀ (rows : List (Int × SortedMap ν)) (n : Nat),
      rows.foldl (fun count row => count + row.2.size) n =
        n + (rows.map fun row => row.2.entries.length).sum := by
    intro rows
    induction rows with
    | nil => exact fun n => rfl
    | cons row rest ih =>
      intro n
      rw [List.foldl_cons, ih, List.map_cons, List.sum_cons, SortedMap.size]
      omega
  simp [size, toList, counted, List.length_flatMap]

theorem get?_map (f : ν → μ) (m : PointMap ν) (key : PointKey) :
    (m.map f).get? key = (m.get? key).map f := by
  simp only [get?, map, SortedMap.get?_map]
  cases m.rows.get? key.latitude <;> simp [SortedMap.get?_map]

theorem toList_map (f : ν → μ) (m : PointMap ν) :
    (m.map f).toList = m.toList.map fun e => (e.1, f e.2) := by
  simp [toList, map, SortedMap.map, List.flatMap_map, List.map_flatMap, Function.comp_def]

/-- Every latitude that a map has a row for has a point. -/
def NoEmptyRow (m : PointMap ν) : Prop := ∀ row ∈ m.rows.entries, row.2.entries ≠ []

theorem noEmptyRow_empty : (empty : PointMap ν).NoEmptyRow := by
  intro row none
  cases none

theorem NoEmptyRow.insert {m : PointMap ν} (h : m.NoEmptyRow) (key : PointKey) (value : ν) :
    (m.insert key value).NoEmptyRow := by
  intro row there
  rcases SortedMap.mem_insertInto there with rfl | before
  · exact SortedMap.insertInto_ne_nil _ _ _
  · exact h row before

theorem NoEmptyRow.map {m : PointMap ν} (h : m.NoEmptyRow) (f : ν → μ) : (m.map f).NoEmptyRow := by
  intro row there
  obtain ⟨row, before, rfl⟩ := List.mem_map.1 there
  simpa [SortedMap.map] using h row before

theorem NoEmptyRow.exists_get? {m : PointMap ν} (h : m.NoEmptyRow) {lat : Int} {row : SortedMap ν}
    (there : m.rows.get? lat = some row) : ∃ lon value, m.get? ⟨lat, lon⟩ = some value := by
  obtain ⟨⟨lon, value⟩, found⟩ :=
    List.exists_mem_of_ne_nil _ (h (lat, row) (m.rows.mem_entries.2 there))
  exact ⟨lon, value, get?_eq_some.2 ⟨row, there, row.mem_entries.1 found⟩⟩

theorem NoEmptyRow.isEmpty_iff {m : PointMap ν} (h : m.NoEmptyRow) :
    m.isEmpty = true ↔ m.toList = [] := by
  rw [isEmpty, SortedMap.isEmpty, List.isEmpty_iff]
  constructor
  · intro none
    simp [toList, none]
  · intro none
    cases rows : m.rows.entries with
    | nil => rfl
    | cons row rest =>
      have there : row ∈ m.rows.entries := by simp [rows]
      obtain ⟨lon, value, found⟩ := h.exists_get? (m.rows.mem_entries.1 there)
      have listed := m.mem_toList.2 found
      simp [none] at listed

/-- Two maps without empty rows in which the same is found are one map. -/
theorem ext_get? {a b : PointMap ν} (ha : a.NoEmptyRow) (hb : b.NoEmptyRow)
    (same : ∀ key, a.get? key = b.get? key) : a = b := by
  have row : ∀ {a b : PointMap ν} {lat : Int} {row : SortedMap ν}, a.NoEmptyRow →
      (∀ key, a.get? key = b.get? key) → a.rows.get? lat = some row →
      b.rows.get? lat = some row := by
    intro a b lat row ha same there
    obtain ⟨lon, value, found⟩ := ha.exists_get? there
    obtain ⟨row', there', _⟩ := get?_eq_some.1 ((same _).symm.trans found)
    have rows : row = row' := by
      apply SortedMap.ext_get?
      intro lon
      have at_lon := same ⟨lat, lon⟩
      simpa [get?, there, there'] using at_lon
    rw [rows]
    exact there'
  have rows : a.rows = b.rows := by
    apply SortedMap.ext_get?
    intro lat
    apply Option.ext
    intro r
    exact ⟨row ha same, row hb fun key => (same key).symm⟩
  cases a
  cases b
  exact congrArg PointMap.mk rows

end PointMap

end SpectrumShare
