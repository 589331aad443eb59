import SpectrumShare.Document.Scenario
import SpectrumShare.Proofs.Json.Record

/-! # Entities are kept before they are read

The document of an entity is kept as a whole until its type is known, and only then read. So a scenario is
what its content stands for if the documents of its entities can be kept, and no scenario otherwise. -/

namespace SpectrumShare

open Json (Fields)

variable {α : Type} [Numeral α]

namespace Json

/-- The type of a record is that of its only member of that name. -/
theorem tagged_eq_some {members : List (String × Json)} {tag : String} {document : Json} :
    tagged? (.object members) = some (tag, document) ↔
      ∃ key value, members.filter isTag = [(key, value)] ∧ text? value = some tag ∧
        .object (members.filter (!isTag ·)) = document := by
  rw [tagged?]
  split
  · rename_i key value found
    cases read : text? value <;> simp [found, read, and_assoc]
  · rename_i several
    constructor
    · nofun
    · rintro ⟨key, value, found, -⟩
      exact absurd found (several key value)

theorem isTag_encode (field : String × Json) :
    isTag (Quoted.encode field.1, field.2) = decide (field.1 = "type") := by
  rw [isTag, Quoted.decode_encode]
  by_cases here : field.1 = "type" <;> simp [here]

/-- A record with its type in front. -/
theorem tagged_withTag {fields : Fields} (others : ∀ field ∈ fields, field.1 ≠ "type") (tag : String) :
    tagged? (withTag tag (ofFields fields)) = some (tag, ofFields fields) := by
  have first : isTag (Quoted.encode "type", ofText tag) = true := by
    rw [isTag_encode ("type", ofText tag)]
    rfl
  have rest : ∀ member ∈ fields.map (fun field => (Quoted.encode field.1, field.2)),
      isTag member = false := by
    intro member there
    obtain ⟨field, hf, rfl⟩ := List.mem_map.1 there
    rw [isTag_encode]
    exact decide_eq_false (others field hf)
  have kept : (fields.map fun field => (Quoted.encode field.1, field.2)).filter (!isTag ·) =
      fields.map fun field => (Quoted.encode field.1, field.2) := by
    refine List.filter_eq_self.2 fun member there => ?_
    rw [rest member there]
    rfl
  have none : (fields.map fun field => (Quoted.encode field.1, field.2)).filter isTag = [] := by
    refine List.filter_eq_nil_iff.2 fun member there => ?_
    rw [rest member there]
    nofun
  refine tagged_eq_some.2 ⟨Quoted.encode "type", ofText tag, ?_, Quoted.decode_encode tag, ?_⟩
  · rw [List.filter_cons_of_pos first, none]
  · rw [List.filter_cons_of_neg (by simp [first]), kept, ofFields]

end Json

namespace Entity

/-- A record with a type in front is an entity of that type. -/
theorem content_withTag {document : Json} {fields : Fields} {tag : String} {e : Entity α}
    (record : document = .ofFields fields) (others : ∀ field ∈ fields, field.1 ≠ "type")
    (reads : ofTagged? tag document = some e) : content? (document.withTag tag) = some e := by
  subst record
  rw [content?, Json.tagged_withTag others]
  exact reads

end Entity

namespace Json

theorem mapM_guarded {β ν : Type} (test : β → Bool) (read : β → Option ν) (items : List β) :
    items.mapM (fun item => if test item then read item else none) =
      if items.all test then items.mapM read else none := by
  induction items with
  | nil => rfl
  | cons item rest ih =>
    rw [List.mapM_cons, List.mapM_cons, ih, List.all_cons]
    cases test item with
    | false => rfl
    | true =>
      cases rest.all test with
      | true => rfl
      | false => cases read item <;> rfl

end Json

namespace Scenario

variable [Scalar α]

/-- The scenario that the content of a document stands for. -/
def content? (document : Json) : Option (Scenario α) := readWith? Entity.content? document

/-- The documents of the entities in the document of a scenario. -/
def entityDocuments (document : Json) : List Json :=
  match (document.fields? names 3).bind (·.lookup "entities") with
  | some (.array items) => items
  | _ => []

theorem entityDocuments_eq {document : Json} {found : Fields}
    (read : document.fields? names 3 = some found) {items : List Json}
    (there : found.lookup "entities" = some (.array items)) : entityDocuments document = items := by
  rw [entityDocuments, read, Option.bind_some, there]

theorem ofJson_of_content {document : Json} {s : Scenario α} (reads : content? document = some s) :
    ofJson? document =
      if (entityDocuments document).all (Entity.isKept α 2) then some s else none := by
  rw [ofJson?]
  rw [content?] at reads
  unfold readWith? at reads ⊢
  obtain ⟨fields, found, reads⟩ := Option.bind_eq_some_iff.1 reads
  obtain ⟨own, owns, reads⟩ := Option.bind_eq_some_iff.1 reads
  obtain ⟨others, lists, reads⟩ := Option.bind_eq_some_iff.1 reads
  obtain ⟨entities, records, reads⟩ := Option.bind_eq_some_iff.1 reads
  obtain ⟨licences, granted, reads⟩ := Option.bind_eq_some_iff.1 reads
  obtain ⟨rules, ruled, reads⟩ := Option.bind_eq_some_iff.1 reads
  cases reads
  obtain ⟨value, there, listed⟩ := Option.bind_eq_some_iff.1 records
  cases value with
  | array items =>
    have kept : fields.required? "entities" (Json.list? (Entity.ofJson? 2)) =
        if items.all (Entity.isKept α 2) then some entities else none := by
      rw [Fields.required?, there]
      change items.mapM (fun item => if Entity.isKept α 2 item then Entity.content? item else none) = _
      have read : items.mapM Entity.content? = some entities := listed
      rw [Json.mapM_guarded, read]
    rw [entityDocuments_eq found there, found, Option.bind_eq_bind, Option.bind_some, owns, lists, kept,
      granted, ruled]
    cases items.all (Entity.isKept α 2) <;> rfl
  | _ => cases listed

end Scenario

end SpectrumShare
