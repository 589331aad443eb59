import SpectrumShare.Json.Fields
import SpectrumShare.Proofs.Double.Text
import SpectrumShare.Proofs.Json.Parse

/-! # Records read back

A value reads back if its document is well formed and stands for it. Texts do, numbers that do so one by
one, and lists of what does; and the fields of a written record are found under their names. -/

namespace SpectrumShare

/-- A value whose document is well formed and reads back. -/
structure ReadsBack {ν : Type} (write : ν → Json) (read : Json → Option ν) (v : ν) : Prop where
  written : (write v).WellWritten
  reads : read (write v) = some v

/-- A number that is written as one and reads back. -/
structure Numeral.Stands {α : Type} [Numeral α] (v : α) : Prop extends
    ReadsBack Numeral.toJson Numeral.ofJson? v where
  number : ∃ text, Numeral.toJson v = .number text

/-- A double that reads back does so inside a document. -/
theorem Double.stands {v : Float} (reads : Double.ofJson? (Double.toJson v) = some v) :
    Numeral.Stands v := by
  obtain ⟨text, written, number⟩ := Double.isNumber_of_reads reads
  refine ⟨⟨?_, reads⟩, text, written⟩
  change (Double.toJson v).WellWritten
  rw [written]
  exact number

namespace Json

variable {ν : Type}

theorem wellWrittenItems_iff {items : List Json} :
    WellWrittenItems items ↔ ∀ item ∈ items, item.WellWritten := by
  induction items with
  | nil => simp [WellWrittenItems]
  | cons item rest ih => simp [WellWrittenItems, ih]

theorem wellWrittenMembers_iff {members : List (String × Json)} :
    WellWrittenMembers members ↔
      ∀ m ∈ members, Quoted.isWritten m.1.toList = true ∧ m.2.WellWritten := by
  induction members with
  | nil => simp [WellWrittenMembers]
  | cons member rest ih => simp [WellWrittenMembers, ih, and_assoc]

/-- What reads back item by item reads back as a list. -/
theorem mapM_written {β : Type} {write : ν → β} {read : β → Option ν} {values : List ν}
    (reads : ∀ v ∈ values, read (write v) = some v) : (values.map write).mapM read = some values := by
  induction values with
  | nil => rfl
  | cons v rest ih =>
    obtain ⟨first, others⟩ := List.forall_mem_cons.1 reads
    rw [List.map_cons, List.mapM_cons, first, ih others]
    rfl

theorem ofText_readsBack (text : String) : ReadsBack ofText text? text where
  written := Quoted.isWritten_encode text
  reads := Quoted.decode_encode text

theorem ofList_readsBack {write : ν → Json} {read : Json → Option ν} {values : List ν}
    (each : ∀ v ∈ values, ReadsBack write read v) : ReadsBack (ofList write) (list? read) values where
  written := by
    refine wellWrittenItems_iff.2 fun item there => ?_
    obtain ⟨v, hv, rfl⟩ := List.mem_map.1 there
    exact (each v hv).written
  reads := mapM_written fun v hv => (each v hv).reads

theorem fields_ofFields {fields : Fields} {names : List String} (least : Nat)
    (once : names.all (fun name => decide ((fields.map Prod.fst).count name ≤ 1)) = true) :
    (ofFields fields).fields? names least = some fields := by
  rw [ofFields, fields?, mapM_written]
  · simp only [Option.bind_eq_bind, Option.bind_some, once, ↓reduceIte]
  · intro field _
    simp [decodeMember, Quoted.decode_encode]

theorem required_found {fields : Fields} {name : String} {document : Json} {read : Json → Option ν}
    {v : ν} (found : fields.lookup name = some document) (reads : read document = some v) :
    fields.required? name read = some v := by
  rw [Fields.required?, found]
  exact reads

theorem orDefault_found {fields : Fields} {name : String} {document : Json} {read : Json → Option ν}
    {v default : ν} (found : fields.lookup name = some document) (reads : read document = some v) :
    fields.orDefault? name read default = some v := by
  rw [Fields.orDefault?, found]
  exact reads

theorem optional_found {fields : Fields} {name : String} {document : Json} {read : Json → Option ν}
    {v : Option ν} (found : fields.lookup name = some document)
    (reads : nullable? read document = some v) : fields.optional? name read = some v :=
  orDefault_found found reads

theorem wellWritten_ofFields {fields : Fields} (each : ∀ field ∈ fields, field.2.WellWritten) :
    (ofFields fields).WellWritten := by
  refine wellWrittenMembers_iff.2 fun member there => ?_
  obtain ⟨field, hf, rfl⟩ := List.mem_map.1 there
  exact ⟨Quoted.isWritten_encode field.1, each field hf⟩

end Json

end SpectrumShare
