import SpectrumShare.Document.Report
import SpectrumShare.Proofs.Json.Record
import SpectrumShare.Proofs.Text

/-! # The report file reads back

Keys and the order of a map survive their writing. So do the maps of a result, a result, a report, and the
text of a report file. -/

namespace SpectrumShare

open Json

/-! ### Keys -/

namespace SortedMap

theorem ofKey_toString {key : Int} (above : Word.least ≤ key) (below : key ≤ Word.greatest) :
    ofKey? (toString key) = some key := by
  rw [ofKey?, Text.ofSigned_toString, if_pos ⟨rfl, above, below⟩]

theorem isWritten_toString (key : Int) : Quoted.isWritten (toString key).toList = true := by
  have digit : ∀ c : Char, c.isDigit = true → ¬ c.toNat < 0x20 ∧ c ≠ '"' ∧ c ≠ '\\' := by
    intro c digit
    refine ⟨?_, ?_, ?_⟩
    · have above : '0'.toNat ≤ c.toNat := (Char.isDigit_iff_toNat.1 digit).1
      exact Nat.not_lt.2 (Nat.le_trans (by decide) above)
    · rintro rfl
      cases digit
    · rintro rfl
      cases digit
  apply Quoted.isWritten_of_plain
  intro c there
  rw [toList_toString_int] at there
  split at there
  · rcases List.mem_cons.1 there with rfl | later
    · decide
    · exact digit c (isDigit_of_mem_toString later)
  · exact digit c (isDigit_of_mem_toString there)

variable {ν : Type}

theorem insertInto_last {entries : List (Int × ν)} {key : Int} {value : ν}
    (last : ∀ e ∈ entries, e.1 < key) : insertInto key value entries = entries ++ [(key, value)] := by
  induction entries with
  | nil => rfl
  | cons head rest ih =>
    obtain ⟨k, v⟩ := head
    obtain ⟨first, others⟩ := List.forall_mem_cons.1 last
    have not_before : ¬ key < k := by
      intro before
      omega
    rw [insertInto, if_neg not_before, if_pos first, ih others, List.cons_append]

/-- The entries of a map make up the map. -/
theorem ofList_entries (m : SortedMap ν) : ofList m.entries = m := by
  -- over the entries still to come, all of which are greater than those already there
  have grows : ∀ (rest : List (Int × ν)) (done : SortedMap ν),
      (done.entries ++ rest).Pairwise (fun a b => a.1 < b.1) →
      (rest.foldl (fun m e => m.insert e.1 e.2) done).entries = done.entries ++ rest := by
    intro rest
    induction rest with
    | nil => exact fun done _ => (List.append_nil _).symm
    | cons e rest ih =>
      intro done ordered
      have last : ∀ d ∈ done.entries, d.1 < e.1 :=
        fun d there => (List.pairwise_append.1 ordered).2.2 d there e List.mem_cons_self
      have inserted : (done.insert e.1 e.2).entries = done.entries ++ [e] := insertInto_last last
      rw [List.append_cons, ← inserted] at ordered
      rw [List.foldl_cons, ih _ ordered, inserted, ← List.append_cons]
  exact ext_entries ((grows m.entries .empty m.ascending).trans (List.nil_append _))

end SortedMap

/-! ### Reports -/

/-- A key in the 64-bit range. -/
def Word.Holds (key : Int) : Prop := Word.least ≤ key ∧ key ≤ Word.greatest

theorem SortedMap.toJson_readsBack {ν : Type} {write : ν → Json} {read : Json → Option ν}
    {m : SortedMap ν} (keyed : ∀ e ∈ m.entries, Word.Holds e.1)
    (each : ∀ e ∈ m.entries, ReadsBack write read e.2) :
    ReadsBack (SortedMap.toJson write) (SortedMap.ofJson? read) m where
  written := by
    refine wellWrittenMembers_iff.2 fun member there => ?_
    obtain ⟨e, he, rfl⟩ := List.mem_map.1 there
    exact ⟨isWritten_toString e.1, (each e he).written⟩
  reads := by
    rw [SortedMap.toJson, SortedMap.ofJson?, mapM_written]
    · simp [ofList_entries]
    · intro e he
      dsimp only
      rw [ofKey_toString (keyed e he).1 (keyed e he).2, (each e he).reads]
      rfl

theorem EntityKind.name_readsBack (kind : EntityKind) :
    ReadsBack (fun kind : EntityKind => ofText kind.name) EntityKind.ofJson? kind where
  written := Quoted.isWritten_encode kind.name
  reads := by
    have named : EntityKind.ofName? kind.name = some kind := by
      cases kind <;> decide
    rw [EntityKind.ofJson?, ofText, name?, Quoted.decode_encode]
    exact named

section

variable {α : Type} [Numeral α]

/-- Every point is keyed in the 64-bit range, also where a row or a list is empty. -/
def Allowances.Keyed (a : Allowances α) : Prop :=
  ∀ row ∈ a.rows.entries, Word.Holds row.1 ∧ ∀ e ∈ row.2.entries, Word.Holds e.1

def Allowances.values (a : Allowances α) : List α := a.toList.flatMap (·.2)

theorem Allowances.toJson_readsBack {a : Allowances α} (keyed : a.Keyed)
    (each : ∀ v ∈ a.values, ReadsBack Numeral.toJson Numeral.ofJson? v) :
    ReadsBack Allowances.toJson Allowances.ofJson? a := by
  have listed : ∀ row ∈ a.rows.entries, ∀ e ∈ row.2.entries, ∀ v ∈ e.2, v ∈ a.values := by
    intro row hr e he v hv
    refine List.mem_flatMap.2 ⟨(⟨row.1, e.1⟩, e.2), ?_, hv⟩
    exact List.mem_flatMap.2 ⟨row, hr, List.mem_map.2 ⟨e, he, rfl⟩⟩
  obtain ⟨written, reads⟩ := SortedMap.toJson_readsBack (fun row hr => (keyed row hr).1)
    fun row hr => SortedMap.toJson_readsBack (keyed row hr).2
      fun e he => ofList_readsBack fun v hv => each v (listed row hr e he v hv)
  constructor
  · exact wellWritten_ofFields (List.forall_mem_singleton.2 written)
  · rw [Allowances.ofJson?, Allowances.toJson, fields_ofFields 1 rfl]
    simp only [Option.bind_eq_bind, Option.bind_some, required_found List.lookup_cons_self reads]
    rfl

theorem EntityReport.toJson_readsBack {r : EntityReport α}
    (result : ∀ a, r.result = some a → ReadsBack Allowances.toJson Allowances.ofJson? a) :
    ReadsBack EntityReport.toJson EntityReport.ofJson? r := by
  obtain ⟨id, kind, outcome⟩ := r
  obtain ⟨id_written, id_reads⟩ := ofText_readsBack id
  obtain ⟨kind_written, kind_reads⟩ := EntityKind.name_readsBack kind
  have optional : ReadsBack (ofOption Allowances.toJson) (nullable? Allowances.ofJson?) outcome := by
    cases outcome with
    | none => exact ⟨trivial, rfl⟩
    | some a =>
      obtain ⟨written, reads⟩ := result a rfl
      refine ⟨written, ?_⟩
      change (Allowances.ofJson? (Allowances.toJson a)).map some = _
      rw [reads]
      rfl
  let fields : Fields :=
    [("id", ofText id), ("kind", ofText kind.name), ("result", ofOption Allowances.toJson outcome)]
  have named : fields.required? "id" text? = some id := required_found rfl id_reads
  have told : fields.required? "kind" EntityKind.ofJson? = some kind := required_found rfl kind_reads
  have came : fields.optional? "result" Allowances.ofJson? = some outcome :=
    optional_found rfl optional.reads
  have parts : ∀ field ∈ fields, field.2.WellWritten := by
    simp only [fields, List.forall_mem_cons]
    exact ⟨id_written, kind_written, optional.written, nofun⟩
  constructor
  · exact wellWritten_ofFields parts
  · change EntityReport.ofJson? (ofFields fields) = _
    rw [EntityReport.ofJson?, fields_ofFields 3 rfl]
    simp only [Option.bind_eq_bind, Option.bind_some, named, told, came]
    rfl

/-- Reports that read back one by one read back from their file. -/
theorem EntityReport.read_write {reports : List (EntityReport α)}
    (each : ∀ r ∈ reports, ReadsBack EntityReport.toJson EntityReport.ofJson? r) :
    read? (write reports) = some reports := by
  obtain ⟨written, reads⟩ := ofList_readsBack each
  rw [read?, write, parse_render written]
  exact reads

end

theorem Double.toJson_readsBack {v : Float} (reads : Double.ofJson? (Double.toJson v) = some v) :
    ReadsBack Numeral.toJson Numeral.ofJson? v := (Double.stands reads).toReadsBack

/-- **The report file reads back.** Whatever the entities are called, wherever their points lie, and
whichever rows and lists are empty: if the values are finite, then the text of the file stands for just
the reports it was written from. Of the way in which doubles are written it is taken for granted that the
values read back one by one; that they are written as well-formed numbers follows. -/
theorem report_file_reads_back (reports : List (EntityReport Float))
    (keyed : ∀ r ∈ reports, ∀ a, r.result = some a → a.Keyed)
    (finite : ∀ r ∈ reports, ∀ a, r.result = some a → ∀ v ∈ a.values, v.isFinite = true)
    (prints : ∀ r ∈ reports, ∀ a, r.result = some a → ∀ v ∈ a.values, v.isFinite = true →
      Double.ofJson? (Double.toJson v) = some v) :
    EntityReport.read? (EntityReport.write reports) = some reports := by
  refine EntityReport.read_write fun r hr => EntityReport.toJson_readsBack fun a come => ?_
  refine Allowances.toJson_readsBack (keyed r hr a come) fun v hv => ?_
  exact Double.toJson_readsBack (prints r hr a come v hv (finite r hr a come v hv))

/-- A result with an empty row, an empty list, and keys at the ends of their range. -/
def wideResult : Allowances Float where
  rows := ⟨[(-9223372036854775808, ⟨[], .nil⟩),
    (-37000000, ⟨[(-122000000, [0.1, 1e-7, -0.0]), (0, []), (9223372036854775807, [1.5e300])],
      by decide⟩)], by decide⟩

/-- Two reports, of which one is named with quotes, escapes and characters beyond ASCII. -/
def oddReports : List (EntityReport Float) :=
  [⟨"\"odd\\name\"\n\t\x01\x7f – 𝄞", .fssBlocking, none⟩, ⟨"", .gwpz, some wideResult⟩]

theorem report_file_reads_back_odd :
    (∀ r ∈ oddReports, ∀ a, r.result = some a → a.Keyed) ∧
    (∀ r ∈ oddReports, ∀ a, r.result = some a → ∀ v ∈ a.values, v.isFinite = true) ∧
    (∀ r ∈ oddReports, ∀ a, r.result = some a → ∀ v ∈ a.values, v.isFinite = true →
      Double.ofJson? (Double.toJson v) = some v) ∧
    EntityReport.read? (EntityReport.write oddReports) = some oddReports := by
  have result : ∀ r ∈ oddReports, ∀ a, r.result = some a → a = wideResult := by
    intro r hr a come
    simp only [oddReports, List.mem_cons, List.not_mem_nil, or_false] at hr
    rcases hr with rfl | rfl
    · cases come
    · exact (Option.some.inj come).symm
  have keyed : wideResult.Keyed := by
    unfold Allowances.Keyed Word.Holds
    decide +kernel
  have finite : ∀ v ∈ wideResult.values, v.isFinite = true := by decide +kernel
  have prints : ∀ v ∈ wideResult.values, Double.ofJson? (Double.toJson v) = some v := by
    decide +kernel
  have all_keyed : ∀ r ∈ oddReports, ∀ a, r.result = some a → a.Keyed :=
    fun r hr a come => result r hr a come ▸ keyed
  have all_finite : ∀ r ∈ oddReports, ∀ a, r.result = some a → ∀ v ∈ a.values, v.isFinite = true :=
    fun r hr a come => result r hr a come ▸ finite
  have all_print : ∀ r ∈ oddReports, ∀ a, r.result = some a → ∀ v ∈ a.values, v.isFinite = true →
      Double.ofJson? (Double.toJson v) = some v := by
    intro r hr a come v hv _
    exact prints v (result r hr a come ▸ hv)
  exact ⟨all_keyed, all_finite, all_print,
    report_file_reads_back oddReports all_keyed all_finite all_print⟩

end SpectrumShare
