import SpectrumShare.Proofs.Allocation.Share
import SpectrumShare.Proofs.Exact
import SpectrumShare.Proofs.PointMap

/-! # From appends to allowances

A store is known by the totals appended to it: a point holds what was appended to it, in order, whatever
the order of the points among them. The split of a store that began empty loses nothing and tells each value
by its place among the appends to its point. -/

namespace SpectrumShare

open Allocation

section

variable {α : Type}

/-- What was appended to a point, in order. -/
def appendedTo (key : PointKey) (history : List (PointKey × ChannelTotals α)) :
    List (ChannelTotals α) :=
  (history.filter fun e => decide (e.1 = key)).map (·.2)

theorem appendedTo_cons (key : PointKey) (e : PointKey × ChannelTotals α)
    (rest : List (PointKey × ChannelTotals α)) :
    appendedTo key (e :: rest) =
      if e.1 = key then e.2 :: appendedTo key rest else appendedTo key rest := by
  by_cases here : e.1 = key
  · simp [appendedTo, here]
  · simp [appendedTo, here]

theorem appendedTo_eq_nil {key : PointKey} {history : List (PointKey × ChannelTotals α)} :
    appendedTo key history = [] ↔ key ∉ history.map (·.1) := by
  simp only [appendedTo, List.map_eq_nil_iff, List.filter_eq_nil_iff, decide_eq_true_eq,
    List.mem_map, not_exists, not_and]

theorem mem_of_appendedTo {key : PointKey} {history : List (PointKey × ChannelTotals α)}
    {t : ChannelTotals α} (h : t ∈ appendedTo key history) : (key, t) ∈ history := by
  obtain ⟨⟨k, t⟩, found, rfl⟩ := List.mem_map.1 h
  obtain ⟨there, here⟩ := List.mem_filter.1 found
  obtain rfl : k = key := of_decide_eq_true here
  exact there

theorem appendedTo_one (key other : PointKey) (totals : List (ChannelTotals α)) :
    appendedTo other (totals.map fun t => (key, t)) = if other = key then totals else [] := by
  by_cases here : other = key
  · simp [appendedTo, List.filter_map, Function.comp_def, here]
  · simp [appendedTo, List.filter_map, Function.comp_def, here, Ne.symm here]

namespace Store

/-- Appends totals to points one after the other. -/
def appendAll (store : Store α) (history : List (PointKey × ChannelTotals α)) : Store α :=
  history.foldl (fun s e => s.append e.1 e.2.localTotal e.2.globalTotal) store

/-- The store that a history of appends leaves, having begun empty. -/
def ofHistory (history : List (PointKey × ChannelTotals α)) : Store α := appendAll .empty history

theorem get?_append (store : Store α) (key other : PointKey) (own all : α) :
    (store.append key own all).get? other =
      if other = key then
        some ⟨(store.totals key).localTotals ++ [own], (store.totals key).globalTotals ++ [all]⟩
      else store.get? other :=
  PointMap.get?_insert store key other _

theorem totals_append (store : Store α) (key other : PointKey) (own all : α) :
    (store.append key own all).totals other =
      if other = key then
        ⟨(store.totals key).localTotals ++ [own], (store.totals key).globalTotals ++ [all]⟩
      else store.totals other := by
  unfold totals
  rw [get?_append]
  by_cases here : other = key
  · simp [here, totals]
  · simp [here]

/-- A point holds what was appended to it, in order, and no other point changes. -/
theorem get?_appendAll (store : Store α) (history : List (PointKey × ChannelTotals α))
    (key : PointKey) :
    (store.appendAll history).get? key =
      if appendedTo key history = [] then store.get? key
      else some
        ⟨(store.totals key).localTotals ++ (appendedTo key history).map (·.localTotal),
          (store.totals key).globalTotals ++ (appendedTo key history).map (·.globalTotal)⟩ := by
  induction history generalizing store with
  | nil => rfl
  | cons e rest ih =>
    have next : (store.appendAll (e :: rest)).get? key =
        ((store.append e.1 e.2.localTotal e.2.globalTotal).appendAll rest).get? key := rfl
    rw [next, ih, appendedTo_cons, get?_append, totals_append]
    by_cases here : key = e.1
    · subst here
      by_cases last : appendedTo e.1 rest = []
      · simp [last]
      · simp [last]
    · simp [here, Ne.symm here]

theorem totals_appendAll (store : Store α) (history : List (PointKey × ChannelTotals α))
    (key : PointKey) :
    (store.appendAll history).totals key =
      ⟨(store.totals key).localTotals ++ (appendedTo key history).map (·.localTotal),
        (store.totals key).globalTotals ++ (appendedTo key history).map (·.globalTotal)⟩ := by
  rw [totals, get?_appendAll]
  by_cases untouched : appendedTo key history = []
  · simp [untouched, totals]
  · simp [untouched]

theorem appendAll_append (store : Store α) (before after : List (PointKey × ChannelTotals α)) :
    store.appendAll (before ++ after) = (store.appendAll before).appendAll after :=
  List.foldl_append

theorem record_eq_appendAll (store : Store α) (key : PointKey) (totals : List (ChannelTotals α)) :
    record store key totals = store.appendAll (totals.map fun t => (key, t)) := by
  rw [record, appendAll, List.foldl_map]

/-- A point that is recorded into a store has its totals appended, and the others are left alone. -/
theorem get?_record (store : Store α) (key other : PointKey) (totals : List (ChannelTotals α)) :
    (record store key totals).get? other =
      if other = key ∧ totals ≠ [] then some
        ⟨(store.totals key).localTotals ++ totals.map (·.localTotal),
          (store.totals key).globalTotals ++ totals.map (·.globalTotal)⟩
      else store.get? other := by
  rw [record_eq_appendAll, get?_appendAll, appendedTo_one]
  by_cases here : other = key
  · subst here
    by_cases none : totals = []
    · simp [none]
    · simp [none]
  · simp [here]

theorem totals_record (store : Store α) (key : PointKey) (totals : List (ChannelTotals α)) :
    (record store key totals).totals key =
      ⟨(store.totals key).localTotals ++ totals.map (·.localTotal),
        (store.totals key).globalTotals ++ totals.map (·.globalTotal)⟩ := by
  rw [record_eq_appendAll, totals_appendAll, appendedTo_one, if_pos rfl]

theorem totals_ofHistory (history : List (PointKey × ChannelTotals α)) (key : PointKey) :
    (ofHistory history).totals key =
      ⟨(appendedTo key history).map (·.localTotal), (appendedTo key history).map (·.globalTotal)⟩ :=
  totals_appendAll .empty history key

theorem get?_ofHistory (history : List (PointKey × ChannelTotals α)) (key : PointKey) :
    (ofHistory history).get? key =
      if key ∈ history.map (·.1) then some
        ⟨(appendedTo key history).map (·.localTotal), (appendedTo key history).map (·.globalTotal)⟩
      else none := by
  rw [ofHistory, get?_appendAll]
  by_cases there : key ∈ history.map (·.1)
  · have told : appendedTo key history ≠ [] := fun none => appendedTo_eq_nil.1 none there
    rw [if_pos there, if_neg told]
    rfl
  · rw [if_neg there, if_pos (appendedTo_eq_nil.2 there)]
    rfl

theorem noEmptyRow_ofHistory (history : List (PointKey × ChannelTotals α)) :
    (ofHistory history).NoEmptyRow := by
  have kept : ∀ store : Store α, store.NoEmptyRow → (store.appendAll history).NoEmptyRow := by
    induction history with
    | nil => exact fun store h => h
    | cons e rest ih => exact fun store h => ih _ (h.insert e.1 _)
  exact kept .empty PointMap.noEmptyRow_empty

theorem aligned_ofHistory (history : List (PointKey × ChannelTotals α)) :
    ∀ entry ∈ (ofHistory history).toList, entry.2.isAligned = true := by
  rintro ⟨key, totals⟩ listed
  have found := (PointMap.mem_toList _).1 listed
  rw [get?_ofHistory] at found
  split at found
  · cases found
    simp [PointTotals.isAligned]
  · cases found

end Store

theorem PointMap.get?_foldl_insert {ν : Type} (f : PointKey → ν) (keys : List PointKey)
    (m : PointMap ν) (key : PointKey) :
    (keys.foldl (fun b k => b.insert k (f k)) m).get? key =
      if key ∈ keys then some (f key) else m.get? key := by
  induction keys generalizing m with
  | nil => rfl
  | cons k rest ih =>
    rw [List.foldl_cons, ih, PointMap.get?_insert]
    by_cases later : key ∈ rest
    · simp [later]
    · by_cases here : key = k
      · simp [here]
      · simp [later, here]

theorem PointMap.noEmptyRow_foldl_insert {ν : Type} (f : PointKey → ν) (keys : List PointKey)
    {m : PointMap ν} (h : m.NoEmptyRow) :
    (keys.foldl (fun b k => b.insert k (f k)) m).NoEmptyRow := by
  induction keys generalizing m with
  | nil => exact h
  | cons k rest ih => exact ih (h.insert k _)

end

variable {α : Type} [Scalar α]

/-- What the appends to a point leave to each of a number of authorities, in the order of the appends. -/
def sharesAt (threshold : α) (peers : Nat) (history : List (PointKey × ChannelTotals α))
    (key : PointKey) : List α :=
  (appendedTo key history).map (·.share threshold peers)

/-- A store that began empty is split: its lists are aligned. -/
theorem ofStore_ofHistory (threshold : α) {peers : Nat} (positive : 0 < peers)
    (history : List (PointKey × ChannelTotals α)) :
    Allowances.ofStore (Store.ofHistory history) threshold peers =
      .ok ((Store.ofHistory history).map (Allowances.ofTotals threshold peers)) := by
  have aligned : (Store.ofHistory history).toList.find? (fun entry => !entry.2.isAligned) = none := by
    apply List.find?_eq_none.2
    intro entry listed
    simp [Store.aligned_ofHistory history entry listed]
  rw [Allowances.ofStore, if_neg positive.ne', aligned]

theorem get?_split (threshold : α) (peers : Nat) (history : List (PointKey × ChannelTotals α))
    (key : PointKey) :
    ((Store.ofHistory history).map (Allowances.ofTotals threshold peers)).get? key =
      if key ∈ history.map (·.1) then some (sharesAt threshold peers history key) else none := by
  rw [PointMap.get?_map, Store.get?_ofHistory]
  split
  · rw [Option.map_some, ofTotals_eq_share]
    rfl
  · rfl

/-- Each append to a point leaves one value. -/
theorem value?_split {threshold : α} {peers : Nat} {history : List (PointKey × ChannelTotals α)}
    {key : PointKey} {i : Nat} {v : α} :
    Allowances.value? ((Store.ofHistory history).map (Allowances.ofTotals threshold peers)) key i =
        some v ↔
      ∃ t, (appendedTo key history)[i]? = some t ∧ t.share threshold peers = v := by
  rw [Allowances.value?, get?_split]
  by_cases there : key ∈ history.map (·.1)
  · rw [if_pos there]
    simp [sharesAt, List.getElem?_map]
  · rw [if_neg there, appendedTo_eq_nil.2 there]
    simp

/-- **The split of a store is lossless.** Whatever was appended, in whatever order of the points: the
split has the points of the store and no other, in ascending order, and a point has a value for each
append to it, in order. It is what one gets by putting the points in one by one. A group of no
authorities is refused. -/
theorem history_shared (threshold : α) (peers : Nat) :
    (∀ store : Store α, Allowances.ofStore store threshold 0 = .error .emptyPeerGroup) ∧
    ∀ history : List (PointKey × ChannelTotals α), 0 < peers →
      ∃ (a : Allowances α) (keys : List PointKey),
        Allowances.ofStore (Store.ofHistory history) threshold peers = .ok a ∧
        keys.Pairwise PointKey.Before ∧
        (∀ key, key ∈ keys ↔ key ∈ history.map (·.1)) ∧
        a.size = keys.length ∧ (Store.ofHistory history).size = keys.length ∧
        (a.isEmpty = true ↔ keys = []) ∧ ((Store.ofHistory history).isEmpty = true ↔ keys = []) ∧
        a.places = keys.map (fun key => (key.position, sharesAt threshold peers history key)) ∧
        (∀ place : Position α, a.at? place =
          if place.key ∈ keys then some (sharesAt threshold peers history place.key) else none) ∧
        a = keys.foldl (fun b key => b.insert key (sharesAt threshold peers history key)) .empty := by
  refine ⟨fun store => rfl, fun history positive => ?_⟩
  let store := Store.ofHistory history
  let split : Allowances α := store.map (Allowances.ofTotals threshold peers)
  let keys := store.toList.map (·.1)
  have rows : store.NoEmptyRow := Store.noEmptyRow_ofHistory history
  have found : ∀ key, split.get? key =
      if key ∈ history.map (·.1) then some (sharesAt threshold peers history key) else none :=
    get?_split threshold peers history
  have appended : ∀ key, key ∈ keys ↔ key ∈ history.map (·.1) := by
    intro key
    rw [PointMap.mem_keys, Store.get?_ofHistory]
    split <;> simp [*]
  have listed : split.toList = keys.map fun key => (key, sharesAt threshold peers history key) := by
    have same_keys : split.toList.map (·.1) = keys := by
      simp [split, keys, PointMap.toList_map, Function.comp_def]
    rw [← same_keys, List.map_map]
    refine (List.map_id _).symm.trans (List.map_congr_left ?_)
    rintro ⟨key, values⟩ member
    have at_key := (PointMap.mem_toList _).1 member
    rw [found] at at_key
    split at at_key
    · cases at_key
      rfl
    · cases at_key
  refine ⟨split, keys, ofStore_ofHistory threshold positive history, store.toList_ascending, appended,
    ?_, ?_, ?_, ?_, ?_, ?_, ?_⟩
  · simp [PointMap.size_eq_length, listed]
  · simp [PointMap.size_eq_length, keys, store]
  · rw [(rows.map _).isEmpty_iff, listed, List.map_eq_nil_iff]
  · rw [rows.isEmpty_iff, List.map_eq_nil_iff]
  · simp [Allowances.places, listed]
  · intro place
    simp only [Allowances.at?, found, appended]
  · apply PointMap.ext_get? (rows.map _)
      (PointMap.noEmptyRow_foldl_insert _ _ PointMap.noEmptyRow_empty)
    intro key
    rw [PointMap.get?_foldl_insert, found]
    simp only [appended]
    rfl

/-- Two points of one latitude and one of another, appended to in turns. -/
def interleavedAppends : List (PointKey × ChannelTotals ℚ) :=
  [(⟨37000000, -121900000⟩, ⟨5, 20⟩), (⟨37000000, -122000000⟩, ⟨0, 10⟩),
    (⟨-33500000, 151000000⟩, ⟨2, 2⟩), (⟨37000000, -121900000⟩, ⟨1, 30⟩)]

theorem history_shared_interleaved :
    0 < 2 ∧ ∃ (a : Allowances ℚ) (keys : List PointKey),
      Allowances.ofStore (Store.ofHistory interleavedAppends) 50 2 = .ok a ∧
      keys.Pairwise PointKey.Before ∧ a.size = keys.length ∧
      a.at? ⟨37, -1219 / 10⟩ = some [20, 11] ∧ a.at? ⟨37, 0⟩ = none := by
  refine ⟨by decide, ?_⟩
  obtain ⟨a, keys, shared, ascending, appended, size, -, -, -, -, found, -⟩ :=
    (history_shared (50 : ℚ) 2).2 interleavedAppends (by decide)
  refine ⟨a, keys, shared, ascending, size, ?_, ?_⟩
  · rw [found, if_pos ((appended _).2 (by decide +kernel))]
    decide +kernel
  · rw [found, if_neg (mt (appended _).1 (by decide +kernel))]

end SpectrumShare
