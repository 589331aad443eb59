import Mathlib.Logic.Relation
import SpectrumShare.Double.Arithmetic
import SpectrumShare.Proofs.Document.Modest

/-! # The scenario format is stable

What a scenario is written as stands for it, and so does every text that comes of it by edits that carry no
meaning, unless something was added to an entity that cannot be kept. -/

namespace SpectrumShare.Scenario

open Json

section

variable {α : Type} [Numeral α] [Scalar α] {s : Scenario α} {document : Json}

theorem content_of_edits {addable : Json → Prop} (stands : ∀ v ∈ s.numbers, Numeral.Stands v)
    (edits : Relation.ReflTransGen (Edit α addable) s.toJson document) :
    content? document = some s := by
  induction edits with
  | refl => exact (toJson_within stands).reads
  | tail _ edit ih => exact edit_keeps _ _ edit s ih

theorem fits_of_edits (stands : ∀ v ∈ s.numbers, Numeral.Stands v)
    (edits : Relation.ReflTransGen (Edit α (Modest α)) s.toJson document) :
    ∀ item ∈ entityDocuments document, item.Fits α 125 := by
  induction edits with
  | refl =>
    rw [entityDocuments_toJson]
    intro item there
    obtain ⟨e, he, rfl⟩ := List.mem_map.1 there
    have inside : ∀ v ∈ e.numbers, v ∈ s.numbers := by
      intro v hv
      simp only [numbers, List.mem_append, List.mem_flatMap]
      exact .inl (.inl (.inr ⟨e, he, hv⟩))
    have within := Entity.toJson_within fun v hv => stands v (inside v hv)
    exact within.sound.fits.deeper (by decide)
  | tail before edit ih => exact edit_fits (content_of_edits stands before) edit ih

end

/-- **The scenario format is stable.** The text that is written for a scenario stands for it. So does every
text that comes of it by giving the members of its objects in another order, leaving out a member that says
what its absence says, and adding members with unknown names; what is added to an entity must have a
meaning and not be nested too deeply. Whatever else is added there, the text stands for the scenario if all
its entities can be kept and is refused if not. Of the way in which doubles are written it is taken for
granted that the numbers read back one by one. -/
theorem scenario_format_stable (s : Scenario Float) (finite : ∀ v ∈ s.numbers, v.isFinite = true)
    (prints : ∀ v ∈ s.numbers, v.isFinite = true → Double.ofJson? (Double.toJson v) = some v) :
    read? s.toJson.render = some s ∧
    (∀ document text, Relation.ReflTransGen (Edit Float (Modest Float)) s.toJson document →
      Json.parse? text = some document → read? text = some s) ∧
    ∀ document text, Relation.ReflTransGen (Edit Float anything) s.toJson document →
      Json.parse? text = some document →
      read? text = if (entityDocuments document).all (Entity.isKept Float 2) then some s else none := by
  have stands : ∀ v ∈ s.numbers, Numeral.Stands v :=
    fun v hv => Double.stands (prints v hv (finite v hv))
  have modest : ∀ document text, Relation.ReflTransGen (Edit Float (Modest Float)) s.toJson document →
      Json.parse? text = some document → read? text = some s := by
    intro document text edits parsed
    have kept : (entityDocuments document).all (Entity.isKept Float 2) = true :=
      List.all_eq_true.2 fun item there => Entity.isKept_of_fits (fits_of_edits stands edits item there)
    rw [read?, parsed, Option.bind_eq_bind, Option.bind_some,
      ofJson_of_content (content_of_edits stands edits), if_pos kept]
  refine ⟨?_, modest, ?_⟩
  · exact modest s.toJson _ .refl (parse_render (toJson_within stands).sound.written)
  · intro document text edits parsed
    rw [read?, parsed, Option.bind_eq_bind, Option.bind_some,
      ofJson_of_content (content_of_edits stands edits)]

/-- A scenario that protects one area. -/
def oneArea : Scenario Float :=
  ⟨[], [], [.ppa ⟨"a", [⟨37.5, -122.0⟩], none, []⟩], [], none⟩

/-- Its document with the entities in front and some fields for the area. -/
def oneAreaWith (fields : Fields) : Json :=
  ofFields [("entities", .array [ofFields fields]), ("local_grants", .array []),
    ("peer_grants", .array []), ("pal_records", .array [])]

/-- The fields of the area in another order, less those that say nothing. -/
def bareArea : Fields :=
  [("zone", ofList Position.toVertex [⟨37.5, -122.0⟩]), ("id", ofText "a"), ("type", ofText "ppa")]

/-- The document with a note in the area. -/
def notedArea (note : Json) : Json := oneAreaWith (("note", note) :: bareArea)

section

variable {addable : Json → Prop}

theorem oneAreaWith_edit {fields fields' : Fields} {content : Json}
    (typed : (ofFields fields).tagged? = some ("ppa", content))
    (edit : RecordEdit addable (.required "type" Field.untouched :: LicensedArea.schema)
      (ofFields fields) (ofFields fields')) :
    Edit Float addable (oneAreaWith fields) (oneAreaWith fields') := by
  have known : .required "entities" (ItemEdit (Entity.Edit Float addable)) ∈ schema Float addable := by
    simp [schema]
  have entity : Entity.Edit Float addable (ofFields fields) (ofFields fields') := .intro typed edit
  have listed : ItemEdit (Entity.Edit Float addable) (.array ([] ++ ofFields fields :: []))
      (.array ([] ++ ofFields fields' :: [])) := .intro entity
  exact .inside known (Quoted.decode_encode "entities") listed

/-- The document of the scenario with a note in its area. -/
theorem notedArea_edits {note : Json} (fine : addable note) :
    Relation.ReflTransGen (Edit Float addable) oneArea.toJson (notedArea note) := by
  let nothing : Fields := [("pal_ids", .array []), ("region_type", .null)]
  have turned : Edit Float addable oneArea.toJson (oneAreaWith (nothing ++ bareArea).reverse) :=
    .permute (@List.perm_middle _ _ [_, _] _)
  have reversed : Edit Float addable (oneAreaWith (nothing ++ bareArea).reverse)
      (oneAreaWith (nothing ++ bareArea)) := by
    refine oneAreaWith_edit rfl (.permute ?_)
    exact (List.reverse_perm _).map _
  have unlicensed : Edit Float addable (oneAreaWith (nothing ++ bareArea))
      (oneAreaWith (("region_type", .null) :: bareArea)) := by
    have known : .defaulted "pal_ids" (list? text?) [] Field.untouched ∈ LicensedArea.schema := by
      simp [LicensedArea.schema]
    refine oneAreaWith_edit rfl (.leaveOut (.tail _ known) (Quoted.decode_encode "pal_ids") ?_)
    rfl
  have unplaced : Edit Float addable (oneAreaWith (("region_type", .null) :: bareArea))
      (oneAreaWith bareArea) := by
    have known : .defaulted "region_type" (nullable? Region.ofJson?) none Field.untouched ∈
        LicensedArea.schema := by simp [LicensedArea.schema]
    refine oneAreaWith_edit rfl (.leaveOut (.tail _ known) (Quoted.decode_encode "region_type") ?_)
    rfl
  have noted : Edit Float addable (oneAreaWith bareArea) (notedArea note) := by
    refine oneAreaWith_edit rfl (.add (Quoted.decode_encode "note") ?_ fine)
    simp [LicensedArea.schema]
  exact .tail (.tail (.tail (.tail (.single turned) reversed) unlicensed) unplaced) noted

end

theorem notedArea_written {note : String} (number : isNumber note.toList = true) :
    (notedArea (.number note)).WellWritten := by
  have latitude : (Double.toJson 37.5).WellWritten := (Double.stands (by decide +kernel)).written
  have longitude : (Double.toJson (-122.0)).WellWritten := (Double.stands (by decide +kernel)).written
  have zone : (ofList Position.toVertex [(⟨37.5, -122.0⟩ : Position Float)]).WellWritten :=
    ⟨⟨latitude, longitude, trivial⟩, trivial⟩
  have area : (ofFields (("note", .number note) :: bareArea)).WellWritten := by
    refine wellWritten_ofFields ?_
    simp only [bareArea, List.forall_mem_cons]
    exact ⟨number, zone, Quoted.isWritten_encode "a", Quoted.isWritten_encode "ppa", List.forall_mem_nil _⟩
  refine wellWritten_ofFields ?_
  simp only [List.forall_mem_cons]
  exact ⟨⟨area, trivial⟩, trivial, trivial, trivial, List.forall_mem_nil _⟩

theorem scenario_format_stable_one_area :
    (∀ v ∈ oneArea.numbers, v.isFinite = true) ∧
    (∀ v ∈ oneArea.numbers, v.isFinite = true → Double.ofJson? (Double.toJson v) = some v) ∧
    read? (notedArea (.number "1e40")).render = some oneArea := by
  have finite : ∀ v ∈ oneArea.numbers, v.isFinite = true := by decide +kernel
  have prints : ∀ v ∈ oneArea.numbers, v.isFinite = true →
      Double.ofJson? (Double.toJson v) = some v := by decide +kernel
  have modest : Modest Float (.number "1e40") := ⟨by decide +kernel, by decide⟩
  have written : (notedArea (.number "1e40")).WellWritten :=
    notedArea_written (by decide +kernel)
  obtain ⟨-, read, -⟩ := scenario_format_stable oneArea finite prints
  exact ⟨finite, prints, read _ _ (notedArea_edits modest) (parse_render written)⟩

/-- A note that stands for no double makes the scenario unreadable. -/
theorem noted_area_refused :
    (∀ v ∈ oneArea.numbers, v.isFinite = true) ∧
    (∀ v ∈ oneArea.numbers, v.isFinite = true → Double.ofJson? (Double.toJson v) = some v) ∧
    Relation.ReflTransGen (Edit Float anything) oneArea.toJson (notedArea (.number "1e400")) ∧
    Json.parse? (notedArea (.number "1e400")).render = some (notedArea (.number "1e400")) ∧
    read? (notedArea (.number "1e400")).render = (none : Option (Scenario Float)) := by
  have written : (notedArea (.number "1e400")).WellWritten :=
    notedArea_written (by decide +kernel)
  refine ⟨by decide +kernel, by decide +kernel, notedArea_edits trivial, parse_render written, ?_⟩
  rw [read?, parse_render written]
  exact Option.isNone_iff_eq_none.1 (by decide +kernel)

end SpectrumShare.Scenario
