/-! # Maps over whole numbers in ascending order

A map is the list of its entries by ascending key, so equal maps are equal lists. Main statements:
what `insert` leaves at each key, and that the entries of a map stay in order. -/
namespace SpectrumShare

structure SortedMap (ν : Type) where
  entries : List (Int × ν)
  ascending : entries.Pairwise (fun a b => a.1 < b.1)
  deriving DecidableEq, Repr

namespace SortedMap

variable {ν μ : Type}

theorem ext_entries {a b : SortedMap ν} (h : a.entries = b.entries) : a = b := by
  cases a; cases b; cases h; rfl

def empty : SortedMap ν := ⟨[], .nil⟩

instance : Inhabited (SortedMap ν) := ⟨empty⟩

def size (m : SortedMap ν) : Nat := m.entries.length

def isEmpty (m : SortedMap ν) : Bool := m.entries.isEmpty

def get? (m : SortedMap ν) (key : Int) : Option ν := m.entries.lookup key

theorem get?_empty (key : Int) : (empty : SortedMap ν).get? key = none := rfl

/-- The entries with a value at a key, in its place in the order. -/
def insertInto (key : Int) (value : ν) : List (Int × ν) → List (Int × ν)
  | [] => [(key, value)]
  | (k, v) :: rest =>
    if key < k then (key, value) :: (k, v) :: rest
    else if k < key then (k, v) :: insertInto key value rest
    else (key, value) :: rest

theorem mem_insertInto {key : Int} {value : ν} {entries : List (Int × ν)} {e : Int × ν}
    (h : e ∈ insertInto key value entries) : e = (key, value) ∨ e ∈ entries := by
  induction entries with
  | nil => simpa [insertInto] using h
  | cons head rest ih =>
    obtain ⟨k, v⟩ := head
    simp only [insertInto] at h
    split at h
    · simpa using h
    · split at h
      · rcases List.mem_cons.1 h with h | h
        · exact .inr (by simp [h])
        · exact (ih h).imp_right (List.mem_cons_of_mem _)
      · rcases List.mem_cons.1 h with h | h
        · exact .inl h
        · exact .inr (List.mem_cons_of_mem _ h)

theorem ascending_insertInto {key : Int} {value : ν} {entries : List (Int × ν)}
    (h : entries.Pairwise (fun a b => a.1 < b.1)) :
    (insertInto key value entries).Pairwise (fun a b => a.1 < b.1) := by
  induction entries with
  | nil => simp [insertInto]
  | cons head rest ih =>
    obtain ⟨k, v⟩ := head
    obtain ⟨above, ordered⟩ := List.pairwise_cons.1 h
    simp only [insertInto]
    split
    · rename_i lower
      refine List.pairwise_cons.2 ⟨fun e he => ?_, h⟩
      rcases List.mem_cons.1 he with rfl | he
      · exact lower
      · exact Int.lt_trans lower (above e he)
    · split
      · rename_i higher
        refine List.pairwise_cons.2 ⟨fun e he => ?_, ih ordered⟩
        rcases mem_insertInto he with rfl | he
        · exact higher
        · exact above e he
      · rename_i notLower notHigher
        obtain rfl : key = k := by omega
        exact List.pairwise_cons.2 ⟨above, ordered⟩

def insert (m : SortedMap ν) (key : Int) (value : ν) : SortedMap ν :=
  ⟨insertInto key value m.entries, ascending_insertInto m.ascending⟩

theorem get?_insert (m : SortedMap ν) (key other : Int) (value : ν) :
    (m.insert key value).get? other = if other = key then some value else m.get? other := by
  obtain ⟨entries, ascending⟩ := m
  simp only [get?, insert]
  clear ascending
  induction entries with
  | nil =>
    by_cases h : other = key
    · simp [insertInto, h]
    · simp [insertInto, List.lookup_cons, h, beq_eq_false_iff_ne.2 h]
  | cons head rest ih =>
    obtain ⟨k, v⟩ := head
    simp only [insertInto]
    by_cases h : other = key
    · subst h
      split
      · simp
      · split
        · rename_i higher
          have : (other == k) = false := by simp; omega
          simpa [List.lookup_cons, this] using ih
        · simp
    · rw [if_neg h] at ih
      rw [if_neg h]
      have apart : (other == key) = false := by simpa using h
      split
      · simp [List.lookup_cons, apart]
      · split
        · by_cases hk : (other == k) <;> simp [List.lookup_cons, hk, ih]
        · rename_i notLower notHigher
          obtain rfl : key = k := by omega
          simp [List.lookup_cons, apart]

/-- The values changed in place. -/
def map (f : ν → μ) (m : SortedMap ν) : SortedMap μ where
  entries := m.entries.map fun e => (e.1, f e.2)
  ascending := List.pairwise_map.2 m.ascending

/-- The map of some entries, a later one standing for an earlier one with its key. -/
def ofList (entries : List (Int × ν)) : SortedMap ν :=
  entries.foldl (fun m e => m.insert e.1 e.2) empty

end SortedMap

end SpectrumShare
