import SpectrumShare.Proofs.Document.Content
import SpectrumShare.Proofs.Json.Edit

/-! # Edits that the reader of a scenario does not see

For each kind of record its fields, with what may be left out, and that its reader does not see an edit. -/

namespace SpectrumShare

open Json
open Json.Field (untouched untouched_keeps)

variable {α : Type} [Numeral α] {addable : Json → Prop}

namespace FrequencyRange

def schema : List Field := [.required "low_hz" untouched, .required "high_hz" untouched]

abbrev Edit (addable : Json → Prop) : Json → Json → Prop := RecordEdit addable schema

theorem edit_keeps (document document' : Json) (h : Edit addable document document') :
    Keeps (ofJson? document : Option (FrequencyRange α)) (ofJson? document') := by
  refine h.keeps (by decide) fun found found' kept => ?_
  simp only [schema, List.forall_mem_cons] at kept
  obtain ⟨low, high, -⟩ := kept
  exact .bind (low.required untouched_keeps) fun _ =>
    .bind (high.required untouched_keeps) fun _ => .refl _

theorem option_keeps (document document' : Json) (h : Edit addable document document') :
    Keeps (nullable? (ofJson? (α := α)) document) (nullable? ofJson? document') :=
  h.nullable_keeps (edit_keeps document document' h)

end FrequencyRange

namespace Grant

variable [Scalar α]

variable (α) in
def schema : List Field :=
  [.required "id" untouched, .required "latitude" untouched, .required "longitude" untouched,
    .defaulted "height_agl_m" Numeral.ofJson? (Grant.defaultHeight : α) untouched,
    .required "max_eirp_dbm_per_mhz" untouched, .required "frequency" (FrequencyRange.Edit anything),
    .defaulted "category" Category.ofJson? .b untouched,
    .defaulted "managed" bool? true untouched]

variable (α) in
abbrev Edit : Json → Json → Prop := RecordEdit anything (schema α)

theorem edit_keeps (document document' : Json) (h : Edit α document document') :
    Keeps (ofJson? document : Option (Grant α)) (ofJson? document') := by
  have distinct : ((schema α).map (·.name)).Nodup := by simp [schema]
  refine h.keeps distinct fun found found' kept => ?_
  simp only [schema, List.forall_mem_cons] at kept
  obtain ⟨id, latitude, longitude, height, maxEirp, range, category, managed, -⟩ := kept
  exact .bind (id.required untouched_keeps) fun _ =>
    .bind (latitude.required untouched_keeps) fun _ =>
    .bind (longitude.required untouched_keeps) fun _ =>
    .bind (height.orDefault untouched_keeps) fun _ =>
    .bind (maxEirp.required untouched_keeps) fun _ =>
    .bind (range.required FrequencyRange.edit_keeps) fun _ =>
    .bind (category.orDefault untouched_keeps) fun _ =>
    .bind (managed.orDefault untouched_keeps) fun _ => .refl _

end Grant

namespace Licence

def schema : List Field :=
  [.required "pal_id" untouched, .required "primary_assignment" (FrequencyRange.Edit anything)]

abbrev Edit : Json → Json → Prop := RecordEdit anything schema

theorem edit_keeps (document document' : Json) (h : Edit document document') :
    Keeps (ofJson? document : Option (Licence α)) (ofJson? document') := by
  refine h.keeps (by decide) fun found found' kept => ?_
  simp only [schema, List.forall_mem_cons] at kept
  obtain ⟨id, assignment, -⟩ := kept
  exact .bind (id.required untouched_keeps) fun _ =>
    .bind (assignment.required FrequencyRange.edit_keeps) fun _ => .refl _

end Licence

namespace PatternSample

def schema : List Field := [.required "angle_deg" untouched, .required "gain_db" untouched]

abbrev Edit (addable : Json → Prop) : Json → Json → Prop := RecordEdit addable schema

theorem edit_keeps (document document' : Json) (h : Edit addable document document') :
    Keeps (ofJson? document : Option (PatternSample α)) (ofJson? document') := by
  refine h.keeps (by decide) fun found found' kept => ?_
  simp only [schema, List.forall_mem_cons] at kept
  obtain ⟨angle, gain, -⟩ := kept
  exact .bind (angle.required untouched_keeps) fun _ =>
    .bind (gain.required untouched_keeps) fun _ => .refl _

end PatternSample

namespace RadarSensor

variable (α) in
def schema (addable : Json → Prop) : List Field :=
  [.required "id" untouched, .required "latitude" untouched, .required "longitude" untouched,
    .required "height_agl_m" untouched, .required "antenna_azimuth_deg" untouched,
    .required "antenna_gain_dbi" untouched,
    .defaulted "azimuth_radiation_pattern" (list? (PatternSample.ofJson? (α := α))) []
      (ItemEdit (PatternSample.Edit addable))]

theorem edit_keeps (document document' : Json)
    (h : RecordEdit addable (schema α addable) document document') :
    Keeps (ofJson? document : Option (RadarSensor α)) (ofJson? document') := by
  have distinct : ((schema α addable).map (·.name)).Nodup := by simp [schema]
  refine h.keeps distinct fun found found' kept => ?_
  simp only [schema, List.forall_mem_cons] at kept
  obtain ⟨id, latitude, longitude, height, azimuth, gain, pattern, -⟩ := kept
  exact .bind (id.required untouched_keeps) fun _ =>
    .bind (latitude.required untouched_keeps) fun _ =>
    .bind (longitude.required untouched_keeps) fun _ =>
    .bind (height.required untouched_keeps) fun _ =>
    .bind (azimuth.required untouched_keeps) fun _ =>
    .bind (gain.required untouched_keeps) fun _ =>
    .bind (pattern.orDefault fun _ _ edit => edit.keeps PatternSample.edit_keeps) fun _ => .refl _

end RadarSensor

namespace LicensedArea

def schema : List Field :=
  [.required "id" untouched, .required "zone" untouched,
    .defaulted "region_type" (nullable? Region.ofJson?) none untouched,
    .defaulted "pal_ids" (list? text?) [] untouched]

theorem edit_keeps (document document' : Json) (h : RecordEdit addable schema document document') :
    Keeps (ofJson? document : Option (LicensedArea α)) (ofJson? document') := by
  refine h.keeps (by decide) fun found found' kept => ?_
  simp only [schema, List.forall_mem_cons] at kept
  obtain ⟨id, zone, region, licences, -⟩ := kept
  exact .bind (id.required untouched_keeps) fun _ =>
    .bind (zone.required untouched_keeps) fun _ =>
    .bind (region.orDefault untouched_keeps) fun _ =>
    .bind (licences.orDefault untouched_keeps) fun _ => .refl _

end LicensedArea

namespace GrandfatheredArea

variable (α) in
def schema (addable : Json → Prop) : List Field :=
  [.required "id" untouched, .required "zone" untouched,
    .defaulted "clutter" (nullable? Region.ofJson?) none untouched,
    .defaulted "operation_frequency_range" (nullable? (FrequencyRange.ofJson? (α := α))) none
      (FrequencyRange.Edit addable)]

theorem edit_keeps (document document' : Json)
    (h : RecordEdit addable (schema α addable) document document') :
    Keeps (ofJson? document : Option (GrandfatheredArea α)) (ofJson? document') := by
  have distinct : ((schema α addable).map (·.name)).Nodup := by simp [schema]
  refine h.keeps distinct fun found found' kept => ?_
  simp only [schema, List.forall_mem_cons] at kept
  obtain ⟨id, zone, clutter, range, -⟩ := kept
  exact .bind (id.required untouched_keeps) fun _ =>
    .bind (zone.required untouched_keeps) fun _ =>
    .bind (clutter.orDefault untouched_keeps) fun _ =>
    .bind (range.orDefault FrequencyRange.option_keeps) fun _ => .refl _

end GrandfatheredArea

namespace EarthStation

variable (α) in
def schema (addable : Json → Prop) : List Field :=
  [.required "id" untouched, .required "latitude" untouched, .required "longitude" untouched,
    .required "height_agl_m" untouched, .required "antenna_gain_dbi" untouched,
    .required "antenna_azimuth_deg" untouched, .required "antenna_elevation_deg" untouched,
    .defaulted "operation_frequency_range" (nullable? (FrequencyRange.ofJson? (α := α))) none
      (FrequencyRange.Edit addable),
    .defaulted "ttc_flag" (nullable? bool?) none untouched]

theorem edit_keeps (document document' : Json)
    (h : RecordEdit addable (schema α addable) document document') :
    Keeps (ofJson? document : Option (EarthStation α)) (ofJson? document') := by
  have distinct : ((schema α addable).map (·.name)).Nodup := by simp [schema]
  refine h.keeps distinct fun found found' kept => ?_
  simp only [schema, List.forall_mem_cons] at kept
  obtain ⟨id, latitude, longitude, height, gain, azimuth, elevation, range, telemetry, -⟩ := kept
  exact .bind (id.required untouched_keeps) fun _ =>
    .bind (latitude.required untouched_keeps) fun _ =>
    .bind (longitude.required untouched_keeps) fun _ =>
    .bind (height.required untouched_keeps) fun _ =>
    .bind (gain.required untouched_keeps) fun _ =>
    .bind (azimuth.required untouched_keeps) fun _ =>
    .bind (elevation.required untouched_keeps) fun _ =>
    .bind (range.orDefault FrequencyRange.option_keeps) fun _ =>
    .bind (telemetry.orDefault untouched_keeps) fun _ => .refl _

end EarthStation

/-- An edit of a record with a type is one of its fields, and leaves the type. -/
theorem Json.tagged_edit {fields : List Field} {document document' content : Json} {tag : String}
    (h : RecordEdit addable (.required "type" untouched :: fields) document document')
    (apart : ∀ field ∈ fields, field.name ≠ "type") (typed : document.tagged? = some (tag, content)) :
    ∃ content', document'.tagged? = some (tag, content') ∧ RecordEdit addable fields content content' := by
  have named_isTag : ∀ {key name : String} {value : Json}, Quoted.decode? key = some name →
      isTag (key, value) = decide (name = "type") := by
    intro key name value named
    rw [isTag, named]
    by_cases here : name = "type" <;> simp [here]
  cases h with
  | permute order =>
    obtain ⟨key, value, found, read, rfl⟩ := tagged_eq_some.1 typed
    have moved := order.filter isTag
    rw [found] at moved
    exact ⟨_, tagged_eq_some.2 ⟨key, value, (List.singleton_perm.1 moved).symm, read, rfl⟩,
      .permute (order.filter (!isTag ·))⟩
  | @add key name value members named unknown fine =>
    obtain ⟨typeKey, typeValue, found, read, rfl⟩ := tagged_eq_some.1 typed
    obtain ⟨plain, others⟩ := List.forall_mem_cons.1 unknown
    have other : isTag (key, value) = false := by
      rw [named_isTag named]
      exact decide_eq_false fun same => plain same.symm
    refine ⟨_, tagged_eq_some.2 ⟨typeKey, typeValue, ?_, read, rfl⟩, ?_⟩
    · rw [List.filter_cons_of_neg (by simp [other]), found]
    · rw [List.filter_cons_of_pos (by simp [other])]
      exact .add named others fine
  | @leaveOut key value members field known named spare =>
    obtain ⟨typeKey, typeValue, found, read, rfl⟩ := tagged_eq_some.1 typed
    rcases List.mem_cons.1 known with rfl | known
    · exact spare.elim
    · have other : isTag (key, value) = false := by
        rw [named_isTag named]
        exact decide_eq_false (apart field known)
      rw [List.filter_cons_of_neg (by simp [other])] at found
      refine ⟨_, tagged_eq_some.2 ⟨typeKey, typeValue, found, read, rfl⟩, ?_⟩
      rw [List.filter_cons_of_pos (by simp [other])]
      exact .leaveOut known named spare
  | @inside key value value' members field known named edit =>
    obtain ⟨typeKey, typeValue, found, read, rfl⟩ := tagged_eq_some.1 typed
    rcases List.mem_cons.1 known with rfl | known
    · exact edit.elim
    · have other : ∀ v, isTag (key, v) = false := by
        intro v
        rw [named_isTag named]
        exact decide_eq_false (apart field known)
      rw [List.filter_cons_of_neg (by simp [other])] at found
      refine ⟨_, tagged_eq_some.2 ⟨typeKey, typeValue, ?_, read, rfl⟩, ?_⟩
      · rw [List.filter_cons_of_neg (by simp [other]), found]
      · rw [List.filter_cons_of_pos (by simp [other]), List.filter_cons_of_pos (by simp [other])]
        exact .inside known named edit

namespace Entity

variable (α) in
/-- The fields of an entity of some type. -/
def schema (addable : Json → Prop) (tag : String) : List Field :=
  match tag with
  | "esc" => RadarSensor.schema α addable
  | "ppa" => LicensedArea.schema
  | "gwpz" => GrandfatheredArea.schema α addable
  | "fss_cochannel" | "fss_blocking" => EarthStation.schema α addable
  | _ => []

/-- One edit of an entity; its type is one of its members and may stand anywhere among them. -/
inductive Edit (α : Type) [Numeral α] (addable : Json → Prop) : Json → Json → Prop
  | intro {tag : String} {content document document' : Json}
      (typed : document.tagged? = some (tag, content))
      (edit : RecordEdit addable (.required "type" untouched :: schema α addable tag) document
        document') : Edit α addable document document'

theorem edit_keeps (document document' : Json) (h : Edit α addable document document') :
    Keeps (content? document : Option (Entity α)) (content? document') := by
  cases h with
  | @intro tag content _ _ typed edit =>
    have apart : ∀ field ∈ schema α addable tag, field.name ≠ "type" := by
      unfold schema
      split <;> simp [RadarSensor.schema, LicensedArea.schema, GrandfatheredArea.schema,
        EarthStation.schema]
    obtain ⟨content', typed', edited⟩ := tagged_edit edit apart typed
    have each : Keeps (ofTagged? tag content : Option (Entity α)) (ofTagged? tag content') := by
      unfold schema at edited
      split at edited
      · exact (RadarSensor.edit_keeps _ _ edited).map _
      · exact (LicensedArea.edit_keeps _ _ edited).map _
      · exact (GrandfatheredArea.edit_keeps _ _ edited).map _
      · exact (EarthStation.edit_keeps _ _ edited).map _
      · exact (EarthStation.edit_keeps _ _ edited).map _
      · have unknown : ∀ fields, (ofTagged? tag fields : Option (Entity α)) = none := by
          intro fields
          unfold ofTagged?
          split <;> simp_all
        rw [unknown, unknown]
        exact .refl none
    rw [content?, content?, typed, typed']
    exact each

end Entity

namespace ThresholdRule

variable (α) in
def schema : List Field :=
  [.required "noise_floor_dbm_per_rbw" untouched,
    .defaulted "reference_bandwidth_hz" (nullable? (Numeral.ofJson? (α := α))) none untouched,
    .required "margin_db" untouched]

variable (α) in
abbrev Edit : Json → Json → Prop := RecordEdit anything (schema α)

theorem edit_keeps (document document' : Json) (h : Edit α document document') :
    Keeps (ofJson? document : Option (ThresholdRule α)) (ofJson? document') := by
  have distinct : ((schema α).map (·.name)).Nodup := by simp [schema]
  refine h.keeps distinct fun found found' kept => ?_
  simp only [schema, List.forall_mem_cons] at kept
  obtain ⟨noiseFloor, referenceBandwidth, margin, -⟩ := kept
  exact .bind (noiseFloor.required untouched_keeps) fun _ =>
    .bind (referenceBandwidth.orDefault untouched_keeps) fun _ =>
    .bind (margin.required untouched_keeps) fun _ => .refl _

end ThresholdRule

section

variable [Scalar α]

namespace Rules

variable (α) in
/-- A rule of a kind may be left out where it is the standard one. -/
def ruleField (kind : EntityKind) : Field :=
  .defaulted (groupName kind) (ThresholdRule.ofJson? (α := α)) (standard.ruleFor kind)
    (ThresholdRule.Edit α)

variable (α) in
def schema : List Field :=
  [ruleField α .esc, ruleField α .ppa, ruleField α .gwpz, ruleField α .fssCochannel,
    ruleField α .fssBlocking,
    .defaulted "iap_bandwidth_hz" Numeral.ofJson? (standard.channelBandwidth : α) untouched,
    .defaulted "grid_resolution_arcsec" Numeral.ofJson? (standard.gridResolution : α) untouched,
    .defaulted "esc_rolloff_start_hz" Numeral.ofJson? (standard.rolloffStart : α) untouched,
    .defaulted "esc_rolloff_reference_hz" Numeral.ofJson? (standard.rolloffReference : α) untouched,
    .defaulted "esc_rolloff_base_db" Numeral.ofJson? (standard.rolloffBase : α) untouched,
    .defaulted "eirp_floor_dbm_per_mhz" Numeral.ofJson? (standard.eirpFloor : α) untouched]

variable (α) in
abbrev Edit : Json → Json → Prop := RecordEdit anything (schema α)

theorem edit_keeps (document document' : Json) (h : Edit α document document') :
    Keeps (ofJson? document : Option (Rules α)) (ofJson? document') := by
  have distinct : ((schema α).map (·.name)).Nodup := by simp [schema, ruleField, groupName]
  refine h.keeps distinct fun found found' kept => ?_
  simp only [schema, List.forall_mem_cons] at kept
  obtain ⟨esc, ppa, gwpz, fssCochannel, fssBlocking, bandwidth, resolution, start, reference, base, floor,
    -⟩ := kept
  exact .bind (esc.orDefault ThresholdRule.edit_keeps) fun _ =>
    .bind (ppa.orDefault ThresholdRule.edit_keeps) fun _ =>
    .bind (gwpz.orDefault ThresholdRule.edit_keeps) fun _ =>
    .bind (fssCochannel.orDefault ThresholdRule.edit_keeps) fun _ =>
    .bind (fssBlocking.orDefault ThresholdRule.edit_keeps) fun _ =>
    .bind (bandwidth.orDefault untouched_keeps) fun _ =>
    .bind (resolution.orDefault untouched_keeps) fun _ =>
    .bind (start.orDefault untouched_keeps) fun _ =>
    .bind (reference.orDefault untouched_keeps) fun _ =>
    .bind (base.orDefault untouched_keeps) fun _ =>
    .bind (floor.orDefault untouched_keeps) fun _ => .refl _

end Rules

namespace Scenario

variable (α) in
def schema (addable : Json → Prop) : List Field :=
  [.defaulted "local_grants" (list? (Grant.ofJson? (α := α))) [] (ItemEdit (Grant.Edit α)),
    .defaulted "peer_grants" (list? (list? (Grant.ofJson? (α := α)))) []
      (ItemEdit (ItemEdit (Grant.Edit α))),
    .required "entities" (ItemEdit (Entity.Edit α addable)),
    .defaulted "pal_records" (list? (Licence.ofJson? (α := α))) [] (ItemEdit Licence.Edit),
    .defaulted "rules" (nullable? (Rules.ofJson? (α := α))) none (Rules.Edit α)]

variable (α) in
/-- One edit of a scenario anywhere in its document. -/
abbrev Edit (addable : Json → Prop) : Json → Json → Prop := RecordEdit anything (schema α addable)

theorem edit_keeps (document document' : Json) (h : Edit α addable document document') :
    Keeps (content? document : Option (Scenario α)) (content? document') := by
  have distinct : ((schema α addable).map (·.name)).Nodup := by simp [schema]
  refine h.keeps distinct fun found found' kept => ?_
  simp only [schema, List.forall_mem_cons] at kept
  obtain ⟨own, others, entities, licences, rules, -⟩ := kept
  have lists : ∀ dumps dumps', ItemEdit (ItemEdit (Grant.Edit α)) dumps dumps' →
      Keeps (list? (list? (Grant.ofJson? (α := α))) dumps) (list? (list? Grant.ofJson?) dumps') :=
    fun _ _ edit => edit.keeps fun _ _ inner => inner.keeps Grant.edit_keeps
  exact .bind (own.orDefault fun _ _ edit => edit.keeps Grant.edit_keeps) fun _ =>
    .bind (others.orDefault lists) fun _ =>
    .bind (entities.required fun _ _ edit => edit.keeps Entity.edit_keeps) fun _ =>
    .bind (licences.orDefault fun _ _ edit => edit.keeps Licence.edit_keeps) fun _ =>
    .bind (rules.orDefault fun document document' edit =>
      edit.nullable_keeps (Rules.edit_keeps document document' edit)) fun _ => .refl _

end Scenario

end

end SpectrumShare
