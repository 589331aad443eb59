import SpectrumShare.Proofs.Document.Content

/-! # Scenarios read back

Everything in the document of a scenario has a meaning, nothing in it is nested deeply, and it stands for
the scenario. Each kind of record has this from its parts, down to the numbers. -/

namespace SpectrumShare

open Json (Fields)

variable {α : Type} [Numeral α]

/-- A document that has a meaning everywhere and is not nested too deeply. -/
structure Json.Sound (α : Type) [Numeral α] (depth : Nat) (document : Json) : Prop where
  written : document.WellWritten
  meaningful : document.isMeaningful α = true
  shallow : document.depth ≤ depth

/-- A value that reads back from such a document. -/
structure ReadsBackWithin (α : Type) [Numeral α] {ν : Type} (depth : Nat) (write : ν → Json)
    (read : Json → Option ν) (v : ν) : Prop where
  sound : (write v).Sound α depth
  reads : read (write v) = some v

namespace Json

variable {ν : Type}

theorem depthOfItems_le {items : List Json} {limit : Nat} :
    depthOfItems items ≤ limit ↔ ∀ item ∈ items, item.depth ≤ limit := by
  induction items with
  | nil => simp [depthOfItems]
  | cons item rest ih => rw [depthOfItems, Nat.max_le, ih, List.forall_mem_cons]

theorem depthOfMembers_le {members : List (String × Json)} {limit : Nat} :
    depthOfMembers members ≤ limit ↔ ∀ m ∈ members, m.2.depth ≤ limit := by
  induction members with
  | nil => simp [depthOfMembers]
  | cons member rest ih => rw [depthOfMembers, Nat.max_le, ih, List.forall_mem_cons]

theorem areMeaningful_iff {items : List Json} :
    areMeaningful α items = true ↔ ∀ item ∈ items, item.isMeaningful α = true := by
  induction items with
  | nil => simp [areMeaningful]
  | cons item rest ih => simp [areMeaningful, ih]

theorem haveMeaning_iff {members : List (String × Json)} :
    haveMeaning α members = true ↔
      ∀ m ∈ members, (Quoted.decode? m.1).isSome = true ∧ m.2.isMeaningful α = true := by
  induction members with
  | nil => simp [haveMeaning]
  | cons member rest ih => simp [haveMeaning, ih, and_assoc]

theorem Sound.deeper {document : Json} {depth limit : Nat} (h : document.Sound α depth)
    (more : depth ≤ limit) : document.Sound α limit :=
  ⟨h.written, h.meaningful, h.shallow.trans more⟩

@[simp] theorem text_ofText (text : String) : text? (ofText text) = some text :=
  Quoted.decode_encode text

theorem ofText_within (text : String) (depth : Nat) : ReadsBackWithin α depth ofText text? text where
  sound := ⟨Quoted.isWritten_encode text, by simp [ofText, isMeaningful, Quoted.decode_encode],
    Nat.zero_le _⟩
  reads := text_ofText text

theorem bool_within (value : Bool) (depth : Nat) : ReadsBackWithin α depth Json.bool bool? value :=
  ⟨⟨trivial, rfl, Nat.zero_le _⟩, rfl⟩

theorem ofFields_ne_null (fields : Fields) : ofFields fields ≠ .null := nofun

theorem nullable_of_present {read : Json → Option ν} {document : Json} (present : document ≠ .null) :
    nullable? read document = (read document).map some := nullable?.eq_2 read document present

theorem ofOption_within {write : ν → Json} {read : Json → Option ν} {value : Option ν} {depth : Nat}
    (there : ∀ v, value = some v → ReadsBackWithin α depth write read v ∧ write v ≠ .null) :
    ReadsBackWithin α depth (ofOption write) (nullable? read) value := by
  cases value with
  | none => exact ⟨⟨trivial, rfl, Nat.zero_le _⟩, rfl⟩
  | some v =>
    obtain ⟨within, present⟩ := there v rfl
    refine ⟨within.sound, ?_⟩
    rw [ofOption, nullable_of_present present, within.reads]
    rfl

/-- A record is read field by field. -/
theorem read_next {μ : Type} {first : Option ν} {rest : ν → Option μ} {v : ν} {w : μ}
    (found : first = some v) (later : rest v = some w) : (first >>= rest) = some w :=
  Option.bind_eq_some_iff.2 ⟨v, found, later⟩

theorem array_sound {items : List Json} {depth : Nat} (each : ∀ item ∈ items, item.Sound α depth) :
    (Json.array items).Sound α (depth + 1) where
  written := wellWrittenItems_iff.2 fun item there => (each item there).written
  meaningful := areMeaningful_iff.2 fun item there => (each item there).meaningful
  shallow := Nat.succ_le_succ (depthOfItems_le.2 fun item there => (each item there).shallow)

theorem ofList_within {write : ν → Json} {read : Json → Option ν} {values : List ν} {depth : Nat}
    (each : ∀ v ∈ values, ReadsBackWithin α depth write read v) :
    ReadsBackWithin α (depth + 1) (ofList write) (list? read) values := by
  refine ⟨array_sound fun item there => ?_, mapM_written fun v hv => (each v hv).reads⟩
  obtain ⟨v, hv, rfl⟩ := List.mem_map.1 there
  exact (each v hv).sound

theorem ofFields_sound {fields : Fields} {depth : Nat}
    (each : ∀ field ∈ fields, field.2.Sound α depth) : (ofFields fields).Sound α (depth + 1) where
  written := wellWritten_ofFields fun field hf => (each field hf).written
  meaningful := by
    refine haveMeaning_iff.2 fun member there => ?_
    obtain ⟨field, hf, rfl⟩ := List.mem_map.1 there
    exact ⟨by rw [Quoted.decode_encode]; rfl, (each field hf).meaningful⟩
  shallow := by
    refine Nat.succ_le_succ (depthOfMembers_le.2 fun member there => ?_)
    obtain ⟨field, hf, rfl⟩ := List.mem_map.1 there
    exact (each field hf).shallow

end Json

theorem Numeral.Stands.within {v : α} (h : Numeral.Stands v) (depth : Nat) :
    ReadsBackWithin α depth Numeral.toJson Numeral.ofJson? v := by
  obtain ⟨text, number⟩ := h.number
  have reads := h.reads
  refine ⟨⟨h.written, ?_, ?_⟩, reads⟩
  · rw [number] at reads ⊢
    rw [Json.isMeaningful, reads]
    rfl
  · rw [number]
    exact Nat.zero_le _

theorem Numeral.Stands.present {v : α} (h : Numeral.Stands v) : Numeral.toJson v ≠ .null := by
  obtain ⟨text, number⟩ := h.number
  rw [number]
  nofun

open Json

namespace Position

def numbers (p : Position α) : List α := [p.latitude, p.longitude]

theorem toVertex_within {p : Position α} (each : ∀ v ∈ p.numbers, Numeral.Stands v) :
    ReadsBackWithin α 1 toVertex ofVertex? p := by
  obtain ⟨latitude, longitude⟩ := p
  simp only [numbers, List.forall_mem_cons] at each
  obtain ⟨first, second, -⟩ := each
  have items : ∀ item ∈ [Numeral.toJson latitude, Numeral.toJson longitude], item.Sound α 0 := by
    simp only [List.forall_mem_cons]
    exact ⟨(first.within 0).sound, (second.within 0).sound, List.forall_mem_nil _⟩
  refine ⟨array_sound items, ?_⟩
  simp [toVertex, ofVertex?, first.reads, second.reads]

/-- A zone is read vertex by vertex. -/
theorem zone_within {zone : List (Position α)}
    (each : ∀ v ∈ zone.flatMap numbers, Numeral.Stands v) :
    ReadsBackWithin α 2 (ofList toVertex) (list? ofVertex?) zone :=
  ofList_within fun p hp => toVertex_within fun v hv => each v (List.mem_flatMap.2 ⟨p, hp, hv⟩)

end Position

namespace FrequencyRange

def numbers (r : FrequencyRange α) : List α := [r.low, r.high]

theorem toJson_within {r : FrequencyRange α} (each : ∀ v ∈ r.numbers, Numeral.Stands v) :
    ReadsBackWithin α 1 toJson ofJson? r := by
  obtain ⟨low, high⟩ := r
  simp only [numbers, List.forall_mem_cons] at each
  obtain ⟨lowest, highest, -⟩ := each
  constructor
  · refine ofFields_sound ?_
    simp only [List.forall_mem_cons]
    exact ⟨(lowest.within 0).sound, (highest.within 0).sound, List.forall_mem_nil _⟩
  · rw [toJson, ofJson?]
    exact read_next (fields_ofFields 2 rfl) <|
      read_next (required_found rfl lowest.reads) <|
      read_next (required_found rfl highest.reads) rfl

theorem option_within {range : Option (FrequencyRange α)}
    (each : ∀ v ∈ range.toList.flatMap numbers, Numeral.Stands v) :
    ReadsBackWithin α 1 (ofOption toJson) (nullable? ofJson?) range := by
  refine ofOption_within fun r found => ⟨toJson_within fun v hv => each v ?_, ofFields_ne_null _⟩
  exact List.mem_flatMap.2 ⟨r, Option.mem_toList.2 found, hv⟩

end FrequencyRange

theorem Region.toJson_within (r : Region) (depth : Nat) :
    ReadsBackWithin α depth Region.toJson Region.ofJson? r := by
  cases r <;> exact ⟨(ofText_within _ depth).sound, by decide⟩

theorem Region.option_within (region : Option Region) (depth : Nat) :
    ReadsBackWithin α depth (ofOption Region.toJson) (nullable? Region.ofJson?) region := by
  refine ofOption_within fun r _ => ⟨r.toJson_within depth, ?_⟩
  cases r <;> nofun

theorem Category.toJson_within (c : Category) (depth : Nat) :
    ReadsBackWithin α depth Category.toJson Category.ofJson? c := by
  cases c <;> exact ⟨(ofText_within _ depth).sound, by decide⟩

namespace Grant

def numbers (g : Grant α) : List α :=
  g.position.numbers ++ g.height :: g.maxEirp :: g.range.numbers

theorem toJson_within [Scalar α] {g : Grant α} (each : ∀ v ∈ g.numbers, Numeral.Stands v) :
    ReadsBackWithin α 2 toJson ofJson? g := by
  obtain ⟨id, ⟨latitude, longitude⟩, height, maxEirp, range, category, managed⟩ := g
  simp only [numbers, Position.numbers, List.forall_mem_append, List.forall_mem_cons] at each
  obtain ⟨⟨lat, lon, -⟩, high, most, band⟩ := each
  have ranges := FrequencyRange.toJson_within band
  have categories := category.toJson_within (α := α) 1
  constructor
  · refine ofFields_sound ?_
    simp only [List.forall_mem_cons]
    exact ⟨(ofText_within id 1).sound, (lat.within 1).sound, (lon.within 1).sound,
      (high.within 1).sound, (most.within 1).sound, ranges.sound, categories.sound,
      (bool_within managed 1).sound, List.forall_mem_nil _⟩
  · rw [toJson, ofJson?]
    exact read_next (fields_ofFields 6 rfl) <|
      read_next (required_found rfl (text_ofText id)) <|
      read_next (required_found rfl lat.reads) <|
      read_next (required_found rfl lon.reads) <|
      read_next (orDefault_found rfl high.reads) <|
      read_next (required_found rfl most.reads) <|
      read_next (required_found rfl ranges.reads) <|
      read_next (orDefault_found rfl categories.reads) <|
      read_next (orDefault_found rfl (bool_within (α := α) managed 1).reads) rfl

end Grant

namespace Licence

def numbers (l : Licence α) : List α := l.assignment.numbers

theorem toJson_within {l : Licence α} (each : ∀ v ∈ l.numbers, Numeral.Stands v) :
    ReadsBackWithin α 2 toJson ofJson? l := by
  obtain ⟨id, assignment⟩ := l
  have ranges := FrequencyRange.toJson_within each
  constructor
  · refine ofFields_sound ?_
    simp only [List.forall_mem_cons]
    exact ⟨(ofText_within id 1).sound, ranges.sound, List.forall_mem_nil _⟩
  · rw [toJson, ofJson?]
    exact read_next (fields_ofFields 2 rfl) <|
      read_next (required_found rfl (text_ofText id)) <|
      read_next (required_found rfl ranges.reads) rfl

end Licence

namespace PatternSample

def numbers (s : PatternSample α) : List α := [s.angle, s.gain]

theorem toJson_within {s : PatternSample α} (each : ∀ v ∈ s.numbers, Numeral.Stands v) :
    ReadsBackWithin α 1 toJson ofJson? s := by
  obtain ⟨angle, gain⟩ := s
  simp only [numbers, List.forall_mem_cons] at each
  obtain ⟨angles, gains, -⟩ := each
  constructor
  · refine ofFields_sound ?_
    simp only [List.forall_mem_cons]
    exact ⟨(angles.within 0).sound, (gains.within 0).sound, List.forall_mem_nil _⟩
  · rw [toJson, ofJson?]
    exact read_next (fields_ofFields 2 rfl) <|
      read_next (required_found rfl angles.reads) <|
      read_next (required_found rfl gains.reads) rfl

end PatternSample

namespace RadarSensor

def numbers (s : RadarSensor α) : List α :=
  s.position.numbers ++ s.height :: s.azimuth :: s.gain :: s.pattern.flatMap PatternSample.numbers

theorem toJson_within {s : RadarSensor α} (each : ∀ v ∈ s.numbers, Numeral.Stands v) :
    ReadsBackWithin α 3 toJson ofJson? s := by
  obtain ⟨id, ⟨latitude, longitude⟩, height, azimuth, gain, pattern⟩ := s
  simp only [numbers, Position.numbers, List.forall_mem_append, List.forall_mem_cons] at each
  obtain ⟨⟨lat, lon, -⟩, high, turned, gains, samples⟩ := each
  have patterns : ReadsBackWithin α 2 (ofList PatternSample.toJson) (list? PatternSample.ofJson?)
      pattern :=
    ofList_within fun p hp => PatternSample.toJson_within fun v hv =>
      samples v (List.mem_flatMap.2 ⟨p, hp, hv⟩)
  constructor
  · refine ofFields_sound ?_
    simp only [List.forall_mem_cons]
    exact ⟨(ofText_within id 2).sound, (lat.within 2).sound, (lon.within 2).sound,
      (high.within 2).sound, (turned.within 2).sound, (gains.within 2).sound, patterns.sound,
      List.forall_mem_nil _⟩
  · rw [toJson, ofJson?]
    exact read_next (fields_ofFields 6 rfl) <|
      read_next (required_found rfl (text_ofText id)) <|
      read_next (required_found rfl lat.reads) <|
      read_next (required_found rfl lon.reads) <|
      read_next (required_found rfl high.reads) <|
      read_next (required_found rfl turned.reads) <|
      read_next (required_found rfl gains.reads) <|
      read_next (orDefault_found rfl patterns.reads) rfl

end RadarSensor

namespace LicensedArea

def numbers (a : LicensedArea α) : List α := a.zone.flatMap Position.numbers

theorem toJson_within {a : LicensedArea α} (each : ∀ v ∈ a.numbers, Numeral.Stands v) :
    ReadsBackWithin α 3 toJson ofJson? a := by
  obtain ⟨id, zone, region, licences⟩ := a
  have zones := Position.zone_within each
  have regions := Region.option_within (α := α) region 2
  have names : ReadsBackWithin α 2 (ofList ofText) (list? text?) licences :=
    ofList_within fun name _ => ofText_within name 1
  constructor
  · refine ofFields_sound ?_
    simp only [List.forall_mem_cons]
    exact ⟨(ofText_within id 2).sound, zones.sound, regions.sound, names.sound, List.forall_mem_nil _⟩
  · rw [toJson, ofJson?]
    exact read_next (fields_ofFields 2 rfl) <|
      read_next (required_found rfl (text_ofText id)) <|
      read_next (required_found rfl zones.reads) <|
      read_next (optional_found rfl regions.reads) <|
      read_next (orDefault_found rfl names.reads) rfl

end LicensedArea

namespace GrandfatheredArea

def numbers (a : GrandfatheredArea α) : List α :=
  a.zone.flatMap Position.numbers ++ a.range.toList.flatMap FrequencyRange.numbers

theorem toJson_within {a : GrandfatheredArea α} (each : ∀ v ∈ a.numbers, Numeral.Stands v) :
    ReadsBackWithin α 3 toJson ofJson? a := by
  obtain ⟨id, zone, clutter, range⟩ := a
  simp only [numbers, List.forall_mem_append] at each
  have zones := Position.zone_within each.1
  have clutters := Region.option_within (α := α) clutter 2
  have ranges := FrequencyRange.option_within each.2
  constructor
  · refine ofFields_sound ?_
    simp only [List.forall_mem_cons]
    exact ⟨(ofText_within id 2).sound, zones.sound, clutters.sound, ranges.sound.deeper (by decide),
      List.forall_mem_nil _⟩
  · rw [toJson, ofJson?]
    exact read_next (fields_ofFields 2 rfl) <|
      read_next (required_found rfl (text_ofText id)) <|
      read_next (required_found rfl zones.reads) <|
      read_next (optional_found rfl clutters.reads) <|
      read_next (optional_found rfl ranges.reads) rfl

end GrandfatheredArea

namespace EarthStation

def numbers (s : EarthStation α) : List α :=
  s.position.numbers ++ s.height :: s.gain :: s.azimuth :: s.elevation ::
    s.range.toList.flatMap FrequencyRange.numbers

theorem toJson_within {s : EarthStation α} (each : ∀ v ∈ s.numbers, Numeral.Stands v) :
    ReadsBackWithin α 2 toJson ofJson? s := by
  obtain ⟨id, ⟨latitude, longitude⟩, height, gain, azimuth, elevation, range, telemetry⟩ := s
  simp only [numbers, Position.numbers, List.forall_mem_append, List.forall_mem_cons] at each
  obtain ⟨⟨lat, lon, -⟩, high, gains, turned, raised, band⟩ := each
  have ranges := FrequencyRange.option_within band
  have flags : ReadsBackWithin α 1 (ofOption Json.bool) (nullable? bool?) telemetry :=
    ofOption_within fun b _ => ⟨bool_within b 1, nofun⟩
  constructor
  · refine ofFields_sound ?_
    simp only [List.forall_mem_cons]
    exact ⟨(ofText_within id 1).sound, (lat.within 1).sound, (lon.within 1).sound,
      (high.within 1).sound, (gains.within 1).sound, (turned.within 1).sound, (raised.within 1).sound,
      ranges.sound, flags.sound, List.forall_mem_nil _⟩
  · rw [toJson, ofJson?]
    exact read_next (fields_ofFields 7 rfl) <|
      read_next (required_found rfl (text_ofText id)) <|
      read_next (required_found rfl lat.reads) <|
      read_next (required_found rfl lon.reads) <|
      read_next (required_found rfl high.reads) <|
      read_next (required_found rfl gains.reads) <|
      read_next (required_found rfl turned.reads) <|
      read_next (required_found rfl raised.reads) <|
      read_next (optional_found rfl ranges.reads) <|
      read_next (optional_found rfl flags.reads) rfl

end EarthStation

theorem Json.withTag_sound {document : Json} {depth : Nat} (tag : String)
    (h : document.Sound α depth) : (document.withTag tag).Sound α depth := by
  cases document with
  | object members =>
    obtain ⟨written, meaningful, shallow⟩ := h
    refine ⟨⟨Quoted.isWritten_encode "type", Quoted.isWritten_encode tag, written⟩, ?_, ?_⟩
    · refine haveMeaning_iff.2 (List.forall_mem_cons.2 ⟨⟨?_, ?_⟩, haveMeaning_iff.1 meaningful⟩)
      · rw [Quoted.decode_encode]
        rfl
      · exact (ofText_within tag 0).sound.meaningful
    · simpa [withTag, Json.depth, ofText, depthOfMembers] using shallow
  | _ => exact h

namespace Entity

def numbers : Entity α → List α
  | .esc sensor => sensor.numbers
  | .ppa area => area.numbers
  | .gwpz area => area.numbers
  | .fssCochannel station => station.numbers
  | .fssBlocking station => station.numbers

theorem toJson_within {e : Entity α} (each : ∀ v ∈ e.numbers, Numeral.Stands v) :
    ReadsBackWithin α 3 toJson content? e := by
  cases e with
  | esc sensor =>
    have within := RadarSensor.toJson_within each
    have reads := congrArg (Option.map Entity.esc) within.reads
    exact ⟨withTag_sound "esc" within.sound, content_withTag rfl (by simp) reads⟩
  | ppa area =>
    have within := LicensedArea.toJson_within each
    have reads := congrArg (Option.map Entity.ppa) within.reads
    exact ⟨withTag_sound "ppa" within.sound, content_withTag rfl (by simp) reads⟩
  | gwpz area =>
    have within := GrandfatheredArea.toJson_within each
    have reads := congrArg (Option.map Entity.gwpz) within.reads
    exact ⟨withTag_sound "gwpz" within.sound, content_withTag rfl (by simp) reads⟩
  | fssCochannel station =>
    have within := EarthStation.toJson_within each
    have reads := congrArg (Option.map Entity.fssCochannel) within.reads
    have sound := withTag_sound "fss_cochannel" within.sound
    exact ⟨sound.deeper (by decide), content_withTag rfl (by simp) reads⟩
  | fssBlocking station =>
    have within := EarthStation.toJson_within each
    have reads := congrArg (Option.map Entity.fssBlocking) within.reads
    have sound := withTag_sound "fss_blocking" within.sound
    exact ⟨sound.deeper (by decide), content_withTag rfl (by simp) reads⟩

end Entity

namespace ThresholdRule

def numbers (r : ThresholdRule α) : List α :=
  r.noiseFloor :: r.margin :: r.referenceBandwidth.toList

theorem toJson_within {r : ThresholdRule α} (each : ∀ v ∈ r.numbers, Numeral.Stands v) :
    ReadsBackWithin α 1 toJson ofJson? r := by
  obtain ⟨noiseFloor, referenceBandwidth, margin⟩ := r
  simp only [numbers, List.forall_mem_cons] at each
  obtain ⟨floors, margins, reference⟩ := each
  have bandwidths : ReadsBackWithin α 0 (ofOption Numeral.toJson) (nullable? Numeral.ofJson?)
      referenceBandwidth := by
    refine ofOption_within fun v found => ?_
    have stands := reference v (Option.mem_toList.2 found)
    exact ⟨stands.within 0, stands.present⟩
  constructor
  · refine ofFields_sound ?_
    simp only [List.forall_mem_cons]
    exact ⟨(floors.within 0).sound, bandwidths.sound, (margins.within 0).sound, List.forall_mem_nil _⟩
  · rw [toJson, ofJson?]
    exact read_next (fields_ofFields 3 rfl) <|
      read_next (required_found rfl floors.reads) <|
      read_next (optional_found rfl bandwidths.reads) <|
      read_next (required_found rfl margins.reads) rfl

end ThresholdRule

namespace Rules

def numbers (r : Rules α) : List α :=
  r.esc.numbers ++ r.ppa.numbers ++ r.gwpz.numbers ++ r.fssCochannel.numbers ++
    r.fssBlocking.numbers ++ [r.channelBandwidth, r.gridResolution, r.rolloffStart,
      r.rolloffReference, r.rolloffBase, r.eirpFloor]

theorem toJson_within [Scalar α] {r : Rules α} (each : ∀ v ∈ r.numbers, Numeral.Stands v) :
    ReadsBackWithin α 2 toJson ofJson? r := by
  obtain ⟨esc, ppa, gwpz, fssCochannel, fssBlocking, bandwidth, resolution, start, reference, base,
    floor⟩ := r
  simp only [numbers, List.forall_mem_append, List.forall_mem_cons] at each
  obtain ⟨⟨⟨⟨⟨first, second⟩, third⟩, fourth⟩, fifth⟩, widths, grids, starts, references, bases, floors,
    -⟩ := each
  have escs := ThresholdRule.toJson_within first
  have ppas := ThresholdRule.toJson_within second
  have gwpzs := ThresholdRule.toJson_within third
  have cochannels := ThresholdRule.toJson_within fourth
  have blockings := ThresholdRule.toJson_within fifth
  constructor
  · refine ofFields_sound ?_
    simp only [List.forall_mem_cons]
    exact ⟨escs.sound, ppas.sound, gwpzs.sound, cochannels.sound, blockings.sound,
      (widths.within 1).sound, (grids.within 1).sound, (starts.within 1).sound,
      (references.within 1).sound, (bases.within 1).sound, (floors.within 1).sound, List.forall_mem_nil _⟩
  · rw [toJson, ofJson?]
    exact read_next (fields_ofFields 0 rfl) <|
      read_next (orDefault_found rfl escs.reads) <|
      read_next (orDefault_found rfl ppas.reads) <|
      read_next (orDefault_found rfl gwpzs.reads) <|
      read_next (orDefault_found rfl cochannels.reads) <|
      read_next (orDefault_found rfl blockings.reads) <|
      read_next (orDefault_found rfl widths.reads) <|
      read_next (orDefault_found rfl grids.reads) <|
      read_next (orDefault_found rfl starts.reads) <|
      read_next (orDefault_found rfl references.reads) <|
      read_next (orDefault_found rfl bases.reads) <|
      read_next (orDefault_found rfl floors.reads) rfl

end Rules

namespace Radii

def numbers (r : Radii α) : List α :=
  [r.escCategoryA, r.escCategoryB, r.ppa, r.gwpz, r.fssCochannel, r.fssBlocking]

theorem toJson_within [Scalar α] {r : Radii α} (each : ∀ v ∈ r.numbers, Numeral.Stands v) :
    ReadsBackWithin α 1 toJson ofJson? r := by
  obtain ⟨escCategoryA, escCategoryB, ppa, gwpz, fssCochannel, fssBlocking⟩ := r
  simp only [numbers, List.forall_mem_cons] at each
  obtain ⟨firsts, seconds, ppas, gwpzs, cochannels, blockings, -⟩ := each
  constructor
  · refine ofFields_sound ?_
    simp only [List.forall_mem_cons]
    exact ⟨(firsts.within 0).sound, (seconds.within 0).sound, (ppas.within 0).sound,
      (gwpzs.within 0).sound, (cochannels.within 0).sound, (blockings.within 0).sound,
      List.forall_mem_nil _⟩
  · rw [toJson, ofJson?]
    exact read_next (fields_ofFields 0 rfl) <|
      read_next (orDefault_found rfl firsts.reads) <|
      read_next (orDefault_found rfl seconds.reads) <|
      read_next (orDefault_found rfl ppas.reads) <|
      read_next (orDefault_found rfl gwpzs.reads) <|
      read_next (orDefault_found rfl cochannels.reads) <|
      read_next (orDefault_found rfl blockings.reads) rfl

end Radii

namespace Scenario

def numbers (s : Scenario α) : List α :=
  s.own.flatMap Grant.numbers ++ s.others.flatten.flatMap Grant.numbers ++
    s.entities.flatMap Entity.numbers ++ s.licences.flatMap Licence.numbers ++
    s.rules.toList.flatMap Rules.numbers

variable [Scalar α]

theorem toJson_within {s : Scenario α} (each : ∀ v ∈ s.numbers, Numeral.Stands v) :
    ReadsBackWithin α 5 toJson content? s := by
  obtain ⟨own, others, entities, licences, rules⟩ := s
  simp only [numbers, List.forall_mem_append, List.forall_mem_flatMap] at each
  obtain ⟨⟨⟨⟨ours, theirs⟩, protects⟩, records⟩, ruled⟩ := each
  have owns : ReadsBackWithin α 4 (ofList Grant.toJson) (list? Grant.ofJson?) own := by
    refine ofList_within fun g hg => ?_
    have grant := Grant.toJson_within (ours g hg)
    exact ⟨grant.sound.deeper (by decide), grant.reads⟩
  have dumps : ReadsBackWithin α 4 (ofList (ofList Grant.toJson)) (list? (list? Grant.ofJson?))
      others := by
    refine ofList_within fun dump hd => ofList_within fun g hg => ?_
    exact Grant.toJson_within (theirs g (List.mem_flatten.2 ⟨dump, hd, hg⟩))
  have kept : ReadsBackWithin α 4 (ofList Entity.toJson) (list? Entity.content?) entities :=
    ofList_within fun e he => Entity.toJson_within (protects e he)
  have granted : ReadsBackWithin α 4 (ofList Licence.toJson) (list? Licence.ofJson?) licences := by
    refine ofList_within fun l hl => ?_
    have licence := Licence.toJson_within (records l hl)
    exact ⟨licence.sound.deeper (by decide), licence.reads⟩
  cases rules with
  | none =>
    constructor
    · refine ofFields_sound ?_
      simp only [List.append_nil, List.forall_mem_cons]
      exact ⟨owns.sound, dumps.sound, kept.sound, granted.sound, List.forall_mem_nil _⟩
    · rw [toJson, content?, readWith?]
      exact read_next (fields_ofFields 3 rfl) <|
        read_next (orDefault_found rfl owns.reads) <|
        read_next (orDefault_found rfl dumps.reads) <|
        read_next (required_found rfl kept.reads) <|
        read_next (orDefault_found rfl granted.reads) rfl
  | some rules =>
    have written : ReadsBackWithin α 2 Rules.toJson Rules.ofJson? rules :=
      Rules.toJson_within (ruled rules (by simp))
    have there : nullable? Rules.ofJson? rules.toJson = some (some rules) := by
      have present : rules.toJson ≠ .null := ofFields_ne_null _
      rw [nullable_of_present present, written.reads]
      rfl
    constructor
    · refine ofFields_sound ?_
      simp only [List.cons_append, List.nil_append, List.forall_mem_cons]
      exact ⟨owns.sound, dumps.sound, kept.sound, granted.sound, written.sound.deeper (by decide),
        List.forall_mem_nil _⟩
    · rw [toJson, content?, readWith?]
      exact read_next (fields_ofFields 3 rfl) <|
        read_next (orDefault_found rfl owns.reads) <|
        read_next (orDefault_found rfl dumps.reads) <|
        read_next (required_found rfl kept.reads) <|
        read_next (orDefault_found rfl granted.reads) <|
        read_next (optional_found rfl there) rfl

end Scenario

end SpectrumShare
