import SpectrumShare.Proofs.Document.Stable
import SpectrumShare.Proofs.Document.Written

/-! # Additions that leave entities readable

The document of an entity is kept before it is read, so what is added to it has to have a meaning and must
not be nested too deeply. Edits with such additions leave all entities of a scenario readable. -/

namespace SpectrumShare

open Json
open Json.Field (untouched)

variable {α : Type} [Numeral α]

namespace Json

/-- A document that has a meaning everywhere and is nested at most so deeply. -/
def Fits (α : Type) [Numeral α] (depth : Nat) (document : Json) : Prop :=
  document.isMeaningful α = true ∧ document.depth ≤ depth

theorem Fits.deeper {depth limit : Nat} {document : Json} (h : document.Fits α depth)
    (more : depth ≤ limit) : document.Fits α limit := ⟨h.1, h.2.trans more⟩

theorem Sound.fits {depth : Nat} {document : Json} (h : document.Sound α depth) :
    document.Fits α depth := ⟨h.meaningful, h.shallow⟩

theorem fits_array {items : List Json} {depth : Nat} :
    (Json.array items).Fits α (depth + 1) ↔ ∀ item ∈ items, item.Fits α depth := by
  rw [Fits, isMeaningful, areMeaningful_iff, Json.depth, Nat.add_le_add_iff_right, depthOfItems_le]
  exact forall₂_and.symm

theorem fits_object {members : List (String × Json)} {depth : Nat} :
    (Json.object members).Fits α (depth + 1) ↔
      ∀ m ∈ members, (Quoted.decode? m.1).isSome = true ∧ m.2.Fits α depth := by
  rw [Fits, isMeaningful, haveMeaning_iff, Json.depth, Nat.add_le_add_iff_right, depthOfMembers_le,
    ← forall₂_and]
  simp only [Fits, and_assoc]

variable {document document' : Json} {depth : Nat}

/-- An edit keeps a record within its depth if it does so with each field and each addition. -/
theorem RecordEdit.fits {addable : Json → Prop} {fields : List Field}
    (h : RecordEdit addable fields document document')
    (fine : ∀ value, addable value → value.Fits α depth)
    (each : ∀ field ∈ fields, ∀ value value', field.edit value value' → value.Fits α depth →
      value'.Fits α depth) (before : document.Fits α (depth + 1)) : document'.Fits α (depth + 1) := by
  cases h with
  | permute order => exact fits_object.2 fun m hm => fits_object.1 before m (order.mem_iff.2 hm)
  | add named _ modest =>
    refine fits_object.2 (List.forall_mem_cons.2 ⟨⟨?_, fine _ modest⟩, fits_object.1 before⟩)
    rw [named]
    rfl
  | leaveOut => exact fits_object.2 (List.forall_mem_cons.1 (fits_object.1 before)).2
  | inside known _ edit =>
    obtain ⟨⟨meant, value⟩, others⟩ := List.forall_mem_cons.1 (fits_object.1 before)
    exact fits_object.2 (List.forall_mem_cons.2 ⟨⟨meant, each _ known _ _ edit value⟩, others⟩)

theorem ItemEdit.fits {edit : Json → Json → Prop} (h : ItemEdit edit document document')
    (each : ∀ value value', edit value value' → value.Fits α depth → value'.Fits α depth)
    (before : document.Fits α (depth + 1)) : document'.Fits α (depth + 1) := by
  cases h with
  | intro edited =>
    have items := fits_array.1 before
    simp only [List.forall_mem_append, List.forall_mem_cons] at items
    obtain ⟨first, item, rest⟩ := items
    refine fits_array.2 ?_
    simp only [List.forall_mem_append, List.forall_mem_cons]
    exact ⟨first, each _ _ edited item, rest⟩

variable (α) in
/-- What may be added to an entity anywhere. -/
def Modest : Json → Prop := Fits α 122

theorem untouched_fits (value value' : Json) (h : untouched value value')
    (_ : value.Fits α depth) : value'.Fits α depth := h.elim

theorem RecordEdit.modest_fits {fields : List Field}
    (h : RecordEdit (Modest α) fields document document')
    (plain : ∀ field ∈ fields, field.edit = untouched) (room : 122 ≤ depth)
    (before : document.Fits α (depth + 1)) : document'.Fits α (depth + 1) := by
  refine h.fits (fun value modest => modest.deeper room) ?_ before
  intro field there value value' edit
  rw [plain field there] at edit
  exact edit.elim

end Json

theorem FrequencyRange.schema_plain : ∀ field ∈ schema, field.edit = untouched := by
  simp [schema, Field.required]

theorem PatternSample.schema_plain : ∀ field ∈ schema, field.edit = untouched := by
  simp [schema, Field.required]

theorem Entity.edit_fits {document document' : Json} (h : Entity.Edit α (Modest α) document document')
    (before : document.Fits α 125) : document'.Fits α 125 := by
  have ranges : ∀ value value', FrequencyRange.Edit (Modest α) value value' →
      value.Fits α 124 → value'.Fits α 124 :=
    fun _ _ range => range.modest_fits FrequencyRange.schema_plain (by decide)
  have samples : ∀ value value', ItemEdit (PatternSample.Edit (Modest α)) value value' →
      value.Fits α 124 → value'.Fits α 124 :=
    fun _ _ edit => edit.fits fun _ _ sample => sample.modest_fits PatternSample.schema_plain (by decide)
  cases h with
  | @intro tag content _ _ typed edit =>
    refine edit.fits (fun value modest => modest.deeper (by decide)) ?_ before
    refine List.forall_mem_cons.2 ⟨untouched_fits, ?_⟩
    unfold schema
    split
    · simp only [RadarSensor.schema, List.forall_mem_cons]
      exact ⟨untouched_fits, untouched_fits, untouched_fits, untouched_fits, untouched_fits,
        untouched_fits, samples, List.forall_mem_nil _⟩
    · simp only [LicensedArea.schema, List.forall_mem_cons]
      exact ⟨untouched_fits, untouched_fits, untouched_fits, untouched_fits, List.forall_mem_nil _⟩
    · simp only [GrandfatheredArea.schema, List.forall_mem_cons]
      exact ⟨untouched_fits, untouched_fits, untouched_fits, ranges, List.forall_mem_nil _⟩
    · simp only [EarthStation.schema, List.forall_mem_cons]
      exact ⟨untouched_fits, untouched_fits, untouched_fits, untouched_fits, untouched_fits,
        untouched_fits, untouched_fits, ranges, untouched_fits, List.forall_mem_nil _⟩
    · simp only [EarthStation.schema, List.forall_mem_cons]
      exact ⟨untouched_fits, untouched_fits, untouched_fits, untouched_fits, untouched_fits,
        untouched_fits, untouched_fits, ranges, untouched_fits, List.forall_mem_nil _⟩
    · exact List.forall_mem_nil _

theorem Entity.isKept_of_fits {document : Json} (h : document.Fits α 125) :
    isKept α 2 document = true := by
  have shallow : 2 + document.depth ≤ depthLimit := by
    have := h.2
    unfold depthLimit
    omega
  rw [isKept, h.1, decide_eq_true shallow]
  rfl

namespace Scenario

theorem entityDocuments_toJson (s : Scenario α) :
    entityDocuments s.toJson = s.entities.map Entity.toJson := by
  obtain ⟨own, others, entities, licences, rules⟩ := s
  cases rules with
  | none => exact entityDocuments_eq (fields_ofFields 3 rfl) rfl
  | some rules => exact entityDocuments_eq (fields_ofFields 3 rfl) rfl

variable [Scalar α]

/-- An edit of a scenario with modest additions keeps all its entities within their depth. -/
theorem edit_fits {document document' : Json} {s : Scenario α} (reads : content? document = some s)
    (h : Edit α (Modest α) document document')
    (before : ∀ item ∈ entityDocuments document, item.Fits α 125) :
    ∀ item ∈ entityDocuments document', item.Fits α 125 := by
  obtain ⟨found, read, -⟩ := Option.bind_eq_some_iff.1 reads
  have distinct : ((schema α (Modest α)).map (·.name)).Nodup := by simp [schema]
  obtain ⟨found', read', kept⟩ := h.fields_kept distinct read
  simp only [schema, List.forall_mem_cons] at kept
  obtain ⟨-, -, entities, -⟩ := kept
  change Field.Kept _ (found.lookup "entities") (found'.lookup "entities") at entities
  have decoded : document.fields? names 3 = some found := read
  have decoded' : document'.fields? names 3 = some found' := read'
  unfold entityDocuments at before ⊢
  rw [decoded, Option.bind_some] at before
  rw [decoded', Option.bind_some]
  generalize found.lookup "entities" = value, found'.lookup "entities" = value' at entities before ⊢
  cases entities with
  | same => exact before
  | omitted spare => exact spare.elim
  | edited edit =>
    have edited : ItemEdit (Entity.Edit α (Modest α)) _ _ := edit
    cases edited with
    | intro item =>
      exact fits_array.1 ((ItemEdit.intro item).fits (fun _ _ => Entity.edit_fits) (fits_array.2 before))

end Scenario

end SpectrumShare
