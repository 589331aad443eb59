import Mathlib.Data.List.Nodup
import SpectrumShare.Json.Fields

/-!
# Edits that a reader does not see

A reader looks its fields up by name and takes no notice of their order, of members with other names, or
of a member that says what its absence would say:

* `RecordEdit`, `ItemEdit`: one such edit of a record, and an edit of one item of a list;
* `RecordEdit.fields_kept`: after an edit each field is found as it was, or edited itself, or it is gone
  and stood at its default;
* `RecordEdit.keeps`, `ItemEdit.keeps`: so whatever is read from a record or a list is still read if that
  is so for each field or item.
-/

namespace SpectrumShare.Json

section

variable {ν μ : Type}

/-- Whatever is read before is read after. -/
def Keeps (before after : Option ν) : Prop := ∀ v, before = some v → after = some v

theorem Keeps.refl (result : Option ν) : Keeps result result := fun _ read => read

theorem Keeps.bind {before after : Option μ} {f g : μ → Option ν} (h : Keeps before after)
    (rest : ∀ v, Keeps (f v) (g v)) : Keeps (before >>= f) (after >>= g) := by
  intro w read
  obtain ⟨v, first, last⟩ := Option.bind_eq_some_iff.1 read
  exact Option.bind_eq_some_iff.2 ⟨v, h v first, rest v w last⟩

theorem Keeps.map {before after : Option μ} (h : Keeps before after) (f : μ → ν) :
    Keeps (f <$> before) (f <$> after) := by
  intro w read
  obtain ⟨v, first, rfl⟩ := Option.map_eq_some_iff.1 read
  exact Option.map_eq_some_iff.2 ⟨v, h v first, rfl⟩

end

/-- A field of a record: the values that may as well be left out, and the edits inside a value. -/
structure Field where
  name : String
  spare : Json → Prop
  edit : Json → Json → Prop

namespace Field

/-- No edit at all. -/
def untouched : Json → Json → Prop := fun _ _ => False

/-- A field that must be there. -/
def required (name : String) (edit : Json → Json → Prop) : Field := ⟨name, fun _ => False, edit⟩

/-- A field whose absence stands for a default. -/
def defaulted {ν : Type} (name : String) (read : Json → Option ν) (default : ν)
    (edit : Json → Json → Prop) : Field :=
  ⟨name, fun value => read value = some default, edit⟩

@[simp] theorem required_name (name : String) (edit : Json → Json → Prop) :
    (required name edit).name = name := rfl

@[simp] theorem defaulted_name {ν : Type} (name : String) (read : Json → Option ν) (default : ν)
    (edit : Json → Json → Prop) : (defaulted name read default edit).name = name := rfl

/-- What may become of the value of a field. -/
inductive Kept (field : Field) : Option Json → Option Json → Prop
  | same (value : Option Json) : Kept field value value
  | omitted {value : Json} (spare : field.spare value) : Kept field (some value) none
  | edited {value value' : Json} (edit : field.edit value value') : Kept field (some value) (some value')

variable {ν : Type} {found found' : Fields} {name : String} {read : Json → Option ν}
  {edit : Json → Json → Prop}

theorem untouched_keeps (value value' : Json) (h : untouched value value') :
    Keeps (read value) (read value') := h.elim

theorem Kept.required
    (kept : Kept (.required name edit) (found.lookup name) (found'.lookup name))
    (stable : ∀ value value', edit value value' → Keeps (read value) (read value')) :
    Keeps (found.required? name read) (found'.required? name read) := by
  unfold Fields.required?
  generalize found.lookup name = before, found'.lookup name = after at kept
  cases kept with
  | same => exact .refl _
  | omitted spare => exact spare.elim
  | edited edit => exact stable _ _ edit

theorem Kept.orDefault {default : ν}
    (kept : Kept (.defaulted name read default edit) (found.lookup name) (found'.lookup name))
    (stable : ∀ value value', edit value value' → Keeps (read value) (read value')) :
    Keeps (found.orDefault? name read default) (found'.orDefault? name read default) := by
  unfold Fields.orDefault?
  generalize found.lookup name = before, found'.lookup name = after at kept
  cases kept with
  | same => exact .refl _
  | @omitted value spare =>
    intro v before
    have same : read value = some default := spare
    exact same.symm.trans before
  | edited edit => exact stable _ _ edit

end Field

/-- No limit to what may be added. -/
def anything : Json → Prop := fun _ => True

/-- One edit of a record that its reader does not see: another order of the members, a further member
with a name that the reader does not know, a member less, or an edit inside one. -/
inductive RecordEdit (addable : Json → Prop) (fields : List Field) : Json → Json → Prop
  | permute {members members' : List (String × Json)} (order : members.Perm members') :
      RecordEdit addable fields (.object members) (.object members')
  | add {key name : String} {value : Json} {members : List (String × Json)}
      (named : Quoted.decode? key = some name) (unknown : ∀ field ∈ fields, field.name ≠ name)
      (fine : addable value) :
      RecordEdit addable fields (.object members) (.object ((key, value) :: members))
  | leaveOut {key : String} {value : Json} {members : List (String × Json)} {field : Field}
      (known : field ∈ fields) (named : Quoted.decode? key = some field.name)
      (spare : field.spare value) :
      RecordEdit addable fields (.object ((key, value) :: members)) (.object members)
  | inside {key : String} {value value' : Json} {members : List (String × Json)} {field : Field}
      (known : field ∈ fields) (named : Quoted.decode? key = some field.name)
      (edit : field.edit value value') :
      RecordEdit addable fields (.object ((key, value) :: members))
        (.object ((key, value') :: members))

/-- One edit of one item of a list. -/
inductive ItemEdit (edit : Json → Json → Prop) : Json → Json → Prop
  | intro {before after : List Json} {item item' : Json} (edited : edit item item') :
      ItemEdit edit (.array (before ++ item :: after)) (.array (before ++ item' :: after))

/-! ### Members by name -/

theorem fields_object {members : List (String × Json)} {names : List String} {least : Nat}
    {found : Fields} :
    fields? names least (.object members) = some found ↔
      members.mapM decodeMember = some found ∧
        ∀ name ∈ names, (found.map Prod.fst).count name ≤ 1 := by
  rw [fields?]
  cases members.mapM decodeMember with
  | none => simp
  | some decoded =>
    simp only [Option.bind_eq_bind, Option.bind_some, List.all_eq_true, decide_eq_true_eq,
      Option.ite_none_right_eq_some, Option.some.injEq]
    constructor
    · rintro ⟨once, rfl⟩
      exact ⟨rfl, once⟩
    · rintro ⟨rfl, once⟩
      exact ⟨once, rfl⟩

theorem mapM_cons_eq_some {β γ : Type} {f : β → Option γ} {a : β} {as : List β} {cs : List γ} :
    (a :: as).mapM f = some cs ↔ ∃ b bs, f a = some b ∧ as.mapM f = some bs ∧ b :: bs = cs := by
  rw [List.mapM_cons]
  cases f a with
  | none => simp
  | some b => cases as.mapM f <;> simp

/-- The results come in the order of what they are of. -/
theorem mapM_perm {β γ : Type} {f : β → Option γ} {as as' : List β} (order : as.Perm as') {cs : List γ}
    (read : as.mapM f = some cs) : ∃ cs', as'.mapM f = some cs' ∧ cs.Perm cs' := by
  induction order generalizing cs with
  | nil => exact ⟨cs, read, .refl _⟩
  | cons a _ ih =>
    obtain ⟨b, bs, first, others, rfl⟩ := mapM_cons_eq_some.1 read
    obtain ⟨bs', others', moved⟩ := ih others
    exact ⟨b :: bs', mapM_cons_eq_some.2 ⟨b, bs', first, others', rfl⟩, moved.cons b⟩
  | swap a a' as =>
    obtain ⟨b', both, second, others, rfl⟩ := mapM_cons_eq_some.1 read
    obtain ⟨b, bs, first, later, rfl⟩ := mapM_cons_eq_some.1 others
    have rest := mapM_cons_eq_some.2 ⟨b', bs, second, later, rfl⟩
    exact ⟨b :: b' :: bs, mapM_cons_eq_some.2 ⟨b, b' :: bs, first, rest, rfl⟩, .swap b b' bs⟩
  | trans _ _ ih ih' =>
    obtain ⟨ds, read', moved⟩ := ih read
    obtain ⟨es, read'', moved'⟩ := ih' read'
    exact ⟨es, read'', moved.trans moved'⟩

theorem mapM_decode_cons {key name : String} {value : Json} {members : List (String × Json)}
    {found : Fields} (named : Quoted.decode? key = some name) :
    ((key, value) :: members).mapM decodeMember = some found ↔
      ∃ rest, members.mapM decodeMember = some rest ∧ (name, value) :: rest = found := by
  have first : decodeMember (key, value) = some (name, value) := by
    rw [decodeMember, named]
    rfl
  rw [mapM_cons_eq_some, first]
  simp

theorem lookup_cons_of_ne {name other : String} (apart : other ≠ name) (value : Json) (rest : Fields) :
    List.lookup name ((other, value) :: rest) = rest.lookup name := by
  have unlike : (name == other) = false := beq_false_of_ne apart.symm
  rw [List.lookup_cons, unlike]

theorem lookup_eq_none_of_count {name : String} {rest : Fields}
    (absent : (rest.map Prod.fst).count name = 0) : rest.lookup name = none := by
  rw [List.lookup_eq_none_iff]
  intro entry there
  have other := List.count_eq_zero.1 absent
  rw [bne_iff_ne]
  rintro rfl
  exact other (List.mem_map_of_mem there)

/-- A member that is there once is found wherever it stands. -/
theorem lookup_perm {found found' : Fields} (order : found.Perm found') {name : String}
    (once : (found.map Prod.fst).count name ≤ 1) : found.lookup name = found'.lookup name := by
  induction order with
  | nil => rfl
  | cons entry _ ih =>
    obtain ⟨other, value⟩ := entry
    by_cases here : other = name
    · subst here
      rw [List.lookup_cons_self, List.lookup_cons_self]
    · rw [List.map_cons, List.count_cons_of_ne here] at once
      rw [lookup_cons_of_ne here, lookup_cons_of_ne here, ih once]
  | swap first second rest =>
    obtain ⟨one, value⟩ := first
    obtain ⟨two, value'⟩ := second
    by_cases here : one = name
    · by_cases twice : two = name
      · subst here twice
        simp at once
      · subst here
        rw [lookup_cons_of_ne twice, List.lookup_cons_self, List.lookup_cons_self]
    · rw [lookup_cons_of_ne here]
      by_cases there : two = name
      · subst there
        rw [List.lookup_cons_self, List.lookup_cons_self]
      · rw [lookup_cons_of_ne there, lookup_cons_of_ne there, lookup_cons_of_ne here]
  | @trans l₁ l₂ l₃ moved _ ih ih' =>
    have still : (l₂.map Prod.fst).count name ≤ 1 := by
      rwa [← (moved.map Prod.fst).count_eq]
    exact (ih once).trans (ih' still)

/-! ### Reading after an edit -/

section

variable {addable : Json → Prop} {fields : List Field} {document document' : Json} {least : Nat}

/-- After an edit each field is found as it was, or edited itself, or it is gone and stood at its
default. -/
theorem RecordEdit.fields_kept (h : RecordEdit addable fields document document')
    (distinct : (fields.map (·.name)).Nodup) {found : Fields}
    (read : document.fields? (fields.map (·.name)) least = some found) :
    ∃ found', document'.fields? (fields.map (·.name)) least = some found' ∧
      ∀ field ∈ fields, field.Kept (found.lookup field.name) (found'.lookup field.name) := by
  have same : ∀ field ∈ fields, ∀ other ∈ fields, field.name = other.name → field = other :=
    fun field hf other ho => List.inj_on_of_nodup_map distinct hf ho
  cases h with
  | permute order =>
    obtain ⟨decoded, once⟩ := fields_object.1 read
    obtain ⟨found', decoded', moved⟩ := mapM_perm order decoded
    refine ⟨found', fields_object.2 ⟨decoded', fun name hn => ?_⟩, fun field hf => ?_⟩
    · rw [← (moved.map Prod.fst).count_eq]
      exact once name hn
    · rw [← lookup_perm moved (once _ (List.mem_map_of_mem hf))]
      exact .same _
  | @add key name value members named unknown fine =>
    obtain ⟨decoded, once⟩ := fields_object.1 read
    have apart : ∀ known ∈ fields.map (·.name), name ≠ known := by
      intro known there
      obtain ⟨field, hf, rfl⟩ := List.mem_map.1 there
      exact (unknown field hf).symm
    refine ⟨(name, value) :: found, fields_object.2 ⟨?_, fun known there => ?_⟩, fun field hf => ?_⟩
    · exact (mapM_decode_cons named).2 ⟨found, decoded, rfl⟩
    · rw [List.map_cons, List.count_cons_of_ne (apart known there)]
      exact once known there
    · rw [lookup_cons_of_ne (apart _ (List.mem_map_of_mem hf))]
      exact .same _
  | @leaveOut key value members field known named spare =>
    obtain ⟨decoded, once⟩ := fields_object.1 read
    obtain ⟨rest, decoded', rfl⟩ := (mapM_decode_cons named).1 decoded
    refine ⟨rest, fields_object.2 ⟨decoded', fun name hn => ?_⟩, fun other ho => ?_⟩
    · exact Nat.le_trans List.count_le_count_cons (once name hn)
    · by_cases here : field.name = other.name
      · obtain rfl := same field known other ho here
        have gone := once field.name (List.mem_map_of_mem known)
        rw [List.map_cons, List.count_cons_self] at gone
        rw [List.lookup_cons_self, lookup_eq_none_of_count (by omega)]
        exact .omitted spare
      · rw [lookup_cons_of_ne here]
        exact .same _
  | @inside key value value' members field known named edit =>
    obtain ⟨decoded, once⟩ := fields_object.1 read
    obtain ⟨rest, decoded', rfl⟩ := (mapM_decode_cons named).1 decoded
    refine ⟨(field.name, value') :: rest, fields_object.2 ⟨?_, once⟩, fun other ho => ?_⟩
    · exact (mapM_decode_cons named).2 ⟨rest, decoded', rfl⟩
    · by_cases here : field.name = other.name
      · obtain rfl := same field known other ho here
        rw [List.lookup_cons_self, List.lookup_cons_self]
        exact .edited edit
      · rw [lookup_cons_of_ne here, lookup_cons_of_ne here]
        exact .same _

/-- What is read from the fields of a record is still read after an edit of it. -/
theorem RecordEdit.keeps {ν : Type} {build : Fields → Option ν}
    (h : RecordEdit addable fields document document') (distinct : (fields.map (·.name)).Nodup)
    (each : ∀ found found' : Fields,
      (∀ field ∈ fields, field.Kept (found.lookup field.name) (found'.lookup field.name)) →
      Keeps (build found) (build found')) :
    Keeps (document.fields? (fields.map (·.name)) least >>= build)
      (document'.fields? (fields.map (·.name)) least >>= build) := by
  intro v read
  obtain ⟨found, decoded, built⟩ := Option.bind_eq_some_iff.1 read
  obtain ⟨found', decoded', kept⟩ := h.fields_kept distinct decoded
  exact Option.bind_eq_some_iff.2 ⟨found', decoded', each found found' kept v built⟩

/-- Only objects are edited as records, so what may be null is as it was. -/
theorem RecordEdit.nullable_keeps {ν : Type} {read : Json → Option ν}
    (h : RecordEdit addable fields document document') (stable : Keeps (read document) (read document')) :
    Keeps (nullable? read document) (nullable? read document') := by
  cases h <;> exact stable.map some

theorem ItemEdit.keeps {ν : Type} {edit : Json → Json → Prop} {read : Json → Option ν}
    (h : ItemEdit edit document document')
    (stable : ∀ value value', edit value value' → Keeps (read value) (read value')) :
    Keeps (list? read document) (list? read document') := by
  cases h with
  | @intro before after item item' edited =>
    simp only [list?, List.mapM_append, List.mapM_cons]
    refine Keeps.bind (.refl _) fun first => ?_
    refine Keeps.bind (Keeps.bind (stable item item' edited) fun v => .refl _) fun others => .refl _

end

end SpectrumShare.Json
