import WrapperGen.Model.Document
import WrapperGen.Proofs.JsonRoom
import WrapperGen.Proofs.Nameable
/-!
# Types and shapes are read back

A type, a property and the fields of a shape are read back from their records, with no more room
than these fill, and whichever way the reader came to them. Of a shape the writer always writes the
array of properties, so a shape that was read needs a room of one bracket at least to be written
again.

Main statements: `TypeRef.readsBack`, `Property.readsBack`, `Shape.ofFields?_members` and
`Shape.depth_le_of_ofFields?`.
-/

namespace WrapperGen

open Json (Fields Provenance ReadsBack Value)

variable {provenance : Provenance} {room : Nat}

theorem TypeKind.choice?_word (kind : TypeKind) :
    Value.choice? words provenance room (.string kind.word) = some kind := lookup_word kind

/-! ## Types -/

namespace TypeRef

theorem toValues_eq_map (ts : List TypeRef) : toValues ts = ts.map toValue := by
  induction ts with
  | nil => rfl
  | cons t ts ih => rw [toValues, ih, List.map_cons]

theorem argumentsOfValue?_eq_list? (v : Value) :
    argumentsOfValue? provenance room v = Value.list? (ofValue? provenance) room v := by
  cases room <;> cases v <;> rfl

/-- The fields of a type. -/
def members (t : TypeRef) : List (String × Value) :=
  (match t.space with
    | none => []
    | some s => [("namespace", .string s)]) ++
  [("name", .string t.name), ("kind", .string t.kind.word)] ++
  (match t.arguments with
    | [] => []
    | a :: as => [("generic_arguments", .array ((a :: as).map toValue))])

theorem toValue_eq_object (t : TypeRef) : t.toValue = .object t.members := by
  obtain ⟨_ | s, name, kind, _ | ⟨a, as⟩⟩ := t <;> simp [toValue, members, toValues_eq_map]

theorem fields?_members (t : TypeRef) :
    (Value.object t.members).fields? fieldNames = some ⟨t.members⟩ := by
  apply Value.fields?_object
  · obtain ⟨_ | s, name, kind, _ | ⟨a, as⟩⟩ := t <;> simp [members, fieldNames]
  · decide

/-- The record of a type fits as soon as the array of its arguments does, which is only written when
there are any. -/
theorem forall_mem_members_iff (t : TypeRef) :
    (∀ m ∈ t.members, m.2.depth ≤ room) ↔
      t.arguments = [] ∨ (Value.array (t.arguments.map toValue)).depth ≤ room := by
  obtain ⟨_ | s, name, kind, _ | ⟨a, as⟩⟩ := t <;> simp [members]

theorem isPlain_toValue (t : TypeRef) : t.toValue.IsPlain := by
  induction t using inductOn with
  | step space name kind arguments ih =>
    rw [toValue_eq_object]
    cases space <;> cases arguments <;> simp_all [members]

theorem ofValue?_toValue {t : TypeRef} (h : t.toValue.depth ≤ room) :
    ofValue? provenance room t.toValue = some t := by
  induction t using inductOn generalizing room with
  | step space name kind arguments ih =>
    rw [toValue_eq_object] at h ⊢
    obtain ⟨inner, rfl, hmembers⟩ := Value.depth_object_le_iff.1 h
    rw [forall_mem_members_iff] at hmembers
    set fields : Fields := ⟨members ⟨space, name, kind, arguments⟩⟩ with hfields
    have hspace : fields.optional "namespace" none (Value.nullable? Value.string?) =
        some space := by
      cases space <;> cases arguments <;>
        simp [hfields, members, Fields.optional, Value.nullable?, Value.string?]
    have hname : fields.required "name" Value.string? = some name := by
      cases space <;> simp [hfields, members, Fields.required, Value.string?]
    have hkind : fields.optional "kind" .reference
        (Value.choice? TypeKind.words provenance inner) = some kind := by
      cases space <;> simp [hfields, members, Fields.optional, TypeKind.choice?_word]
    -- without arguments their field is left out, so the two cases are read in different ways
    have harguments : fields.optional "generic_arguments" [] (argumentsOfValue? provenance inner) =
        some arguments := by
      cases arguments with
      | nil => cases space <;> simp [hfields, members, Fields.optional]
      | cons a as =>
        obtain hnil | hdepth := hmembers
        · cases hnil
        obtain ⟨room, rfl, hitems⟩ := Value.depth_array_le_iff.1 hdepth
        rw [List.forall_mem_map] at hitems
        have hread := ReadsBack.list?_array fun b hb => ih b hb (hitems b hb)
        rw [← argumentsOfValue?_eq_list?] at hread
        cases space <;> simpa [hfields, members, Fields.optional] using hread
    rw [ofValue?, fields?_members]
    simp only [← hfields, hspace, hname, hkind, harguments, Option.bind_eq_bind,
      Option.bind_some, Option.pure_def]

theorem depth_toValue_le {v : Value} {t : TypeRef} (h : ofValue? provenance room v = some t) :
    t.toValue.depth ≤ room := by
  -- an argument is read with two brackets less: one for the type, one for the array it stands in
  induction room using Nat.strongRecOn generalizing v t with
  | ind room ih =>
    cases room with
    | zero => cases h
    | succ room =>
      simp only [ofValue?, Option.bind_eq_bind, Option.bind_eq_some_iff, Option.pure_def] at h
      obtain ⟨fields, -, space, -, name, -, kind, -, arguments, harguments, h⟩ := h
      cases h
      rw [toValue_eq_object, Value.depth_object_le_succ_iff, forall_mem_members_iff]
      refine (Fields.optional_eq_some harguments).imp_right ?_
      rintro ⟨w, hw⟩
      rw [argumentsOfValue?_eq_list?] at hw
      obtain ⟨inner, rfl, hitems⟩ := ReadsBack.forall_of_list? hw
      rw [Value.depth_array_le_succ_iff, List.forall_mem_map]
      intro a ha
      obtain ⟨w, hw⟩ := hitems a ha
      exact ih inner (by omega) hw

theorem readsBack (provenance : Provenance) : ReadsBack 0 toValue (ofValue? provenance) where
  isPlain := isPlain_toValue
  read?_write := ofValue?_toValue
  depth_le _ := depth_toValue_le

end TypeRef

/-! ## Properties -/

namespace Property

/-- The fields of a property. -/
def members (p : Property) : List (String × Value) :=
  [("name", .string p.name), ("type", p.type.toValue), ("can_write", .bool p.canWrite)] ++
    (if p.attributes.isEmpty then [] else [("attributes", .array (p.attributes.map .string))])

theorem fields?_members (p : Property) :
    (Value.object p.members).fields? fieldNames = some ⟨p.members⟩ := by
  apply Value.fields?_object
  · obtain ⟨name, type, canWrite, _ | ⟨a, as⟩⟩ := p <;> simp [members, fieldNames]
  · decide

theorem forall_mem_members_iff (p : Property) :
    (∀ m ∈ p.members, m.2.depth ≤ room) ↔ p.type.toValue.depth ≤ room ∧
      (p.attributes = [] ∨ (Value.array (p.attributes.map .string)).depth ≤ room) := by
  obtain ⟨name, type, canWrite, _ | ⟨a, as⟩⟩ := p <;> simp [members]

theorem ofValue?_toValue {p : Property} (h : p.toValue.depth ≤ room) :
    ofValue? provenance room p.toValue = some p := by
  obtain ⟨inner, rfl, hmembers⟩ := Value.depth_object_le_iff.1 h
  obtain ⟨htype, hattributes⟩ := (forall_mem_members_iff p).1 hmembers
  obtain ⟨name, type, canWrite, attributes⟩ := p
  set fields : Fields := ⟨members ⟨name, type, canWrite, attributes⟩⟩ with hfields
  have hname : fields.required "name" Value.string? = some name := by
    simp [hfields, members, Fields.required, Value.string?]
  have htype : fields.required "type" (TypeRef.ofValue? provenance inner) = some type := by
    simpa [hfields, members, Fields.required] using TypeRef.ofValue?_toValue htype
  have hcanWrite : fields.optional "can_write" true Value.bool? = some canWrite := by
    simp [hfields, members, Fields.optional, Value.bool?]
  have hattributes : fields.optional "attributes" []
      (Value.list? (fun _ => Value.string?) inner) = some attributes := by
    cases attributes with
    | nil => simp [hfields, members, Fields.optional]
    | cons a as =>
      have hread := ReadsBack.string.list.read?_write
        (hattributes.resolve_left (List.cons_ne_nil a as))
      simpa [hfields, members, Fields.optional] using hread
  rw [toValue, ofValue?, ← members, fields?_members]
  simp only [← hfields, hname, htype, hcanWrite, hattributes, Option.bind_eq_bind,
    Option.bind_some, Option.pure_def]

theorem readsBack (provenance : Provenance) : ReadsBack 0 toValue (ofValue? provenance) where
  isPlain p := by
    obtain ⟨name, type, canWrite, _ | ⟨a, as⟩⟩ := p <;>
      simp [toValue, TypeRef.isPlain_toValue]
  read?_write := ofValue?_toValue
  depth_le {room v p} _ h := by
    cases room with
    | zero => cases h
    | succ room =>
      simp only [ofValue?, Option.bind_eq_bind, Option.bind_eq_some_iff, Option.pure_def] at h
      obtain ⟨fields, -, name, -, type, htype, canWrite, -, attributes, hattributes, h⟩ := h
      cases h
      refine Value.depth_object_le_succ_iff.2 ((forall_mem_members_iff _).2 ⟨?_, ?_⟩)
      · obtain ⟨w, hw⟩ := Fields.required_eq_some htype
        exact TypeRef.depth_toValue_le hw
      · refine (Fields.optional_eq_some hattributes).imp_right ?_
        rintro ⟨w, hw⟩
        exact ReadsBack.string.depth_le_of_list? (Nat.zero_le _) hw

end Property

/-! ## Shapes -/

namespace Shape

theorem forall_mem_members_iff (s : Shape) :
    (∀ m ∈ s.members, m.2.depth ≤ room) ↔
      (Value.array (s.properties.map Property.toValue)).depth ≤ room := by
  obtain ⟨properties, hasDefaultConstructor, _ | method⟩ := s <;> simp [members, leadingMembers]

theorem isPlain_of_mem_members (s : Shape) : ∀ m ∈ s.members, m.2.IsPlain := by
  obtain ⟨properties, hasDefaultConstructor, _ | method⟩ := s <;>
    simpa [members, leadingMembers] using fun p _ => (Property.readsBack .direct).isPlain p

theorem fields?_members (s : Shape) :
    (Value.object s.members).fields? fieldNames = some ⟨s.members⟩ := by
  apply Value.fields?_object
  · obtain ⟨properties, hasDefaultConstructor, _ | method⟩ := s <;>
      simp [members, leadingMembers, fieldNames]
  · decide

/-- A shape is read back from its fields. -/
theorem ofFields?_members {s : Shape} (h : ∀ m ∈ s.members, m.2.depth ≤ room) :
    ofFields? provenance room ⟨s.members⟩ = some s := by
  rw [forall_mem_members_iff] at h
  obtain ⟨properties, hasDefaultConstructor, factory⟩ := s
  set fields : Fields := ⟨members ⟨properties, hasDefaultConstructor, factory⟩⟩ with hfields
  have hproperties : fields.optional "properties" []
      (Value.list? (Property.ofValue? provenance) room) = some properties := by
    simpa [hfields, members, leadingMembers, Fields.optional] using
      (Property.readsBack provenance).list.read?_write h
  have hconstructor : fields.optional "has_parameterless_constructor" true Value.bool? =
      some hasDefaultConstructor := by
    simp [hfields, members, leadingMembers, Fields.optional, Value.bool?]
  have hfactory : fields.optional "static_factory" none (Value.nullable? Value.string?) =
      some factory := by
    cases factory <;>
      simp [hfields, members, leadingMembers, Fields.optional, Value.nullable?, Value.string?]
  simp only [ofFields?, hproperties, hconstructor, hfactory, Option.bind_eq_bind,
    Option.bind_some, Option.pure_def]

/-- The fields of a shape that was read fit into the room, for there is one to open the array of
properties in. -/
theorem depth_le_of_ofFields? {fields : Fields} {s : Shape} (hroom : 0 < room)
    (h : ofFields? provenance room fields = some s) : ∀ m ∈ s.members, m.2.depth ≤ room := by
  simp only [ofFields?, Option.bind_eq_bind, Option.bind_eq_some_iff, Option.pure_def] at h
  obtain ⟨properties, hproperties, hasDefaultConstructor, -, factory, -, h⟩ := h
  cases h
  rw [forall_mem_members_iff]
  exact (Property.readsBack provenance).depth_le_of_optional hroom hproperties

end Shape

end WrapperGen
