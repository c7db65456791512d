import Mathlib.Data.Option.Basic
import WrapperGen.Assembly.Document
import WrapperGen.Proofs.ModelDocument
/-!
# Assembly documents are read back

1. Each record of an assembly is read back from its value when the value fits into the room, and
   what was read fits into the room it was read from, small rooms apart (`MethodParameter.readsBack`
   to `Assembly.readsBack`). Of what a document may leave out, the records write the arrays of
   properties, parameters, methods and types, none of them deeper than six brackets.
2. So a document holds what was written into it exactly when the assembly is valid and does not nest
   deeper than documents may, and to read a document and write it again loses nothing
   (`Assembly.read_write`).
-/

namespace WrapperGen

open Json (Fields ReadsBack Value)

variable {room : Nat}

/-! ## Methods -/

namespace MethodParameter

theorem readsBack : ReadsBack 0 toValue ofValue? where
  isPlain p := by simp [toValue, TypeRef.isPlain_toValue]
  read?_write {room p} h := by
    obtain ⟨inner, rfl, hmembers⟩ := Value.depth_object_le_iff.1 h
    have htype : p.type.toValue.depth ≤ inner := by simpa using hmembers
    rw [toValue, ofValue?, Value.fields?_object]
    · simp [Fields.required, Value.string?, TypeRef.ofValue?_toValue htype]
    · exact .refl fieldNames
    · decide
  depth_le {room v p} _ h := by
    cases room with
    | zero => cases h
    | succ room =>
      simp only [ofValue?, Option.bind_eq_bind, Option.bind_eq_some_iff, Option.pure_def] at h
      obtain ⟨fields, -, name, -, type, htype, h⟩ := h
      cases h
      obtain ⟨w, hw⟩ := Fields.required_eq_some htype
      simpa [toValue] using TypeRef.depth_toValue_le hw

end MethodParameter

namespace Method

theorem readsBack : ReadsBack 2 toValue ofValue? where
  isPlain m := by
    simpa [toValue, TypeRef.isPlain_toValue] using fun p _ => MethodParameter.readsBack.isPlain p
  read?_write {room m} h := by
    obtain ⟨inner, rfl, hmembers⟩ := Value.depth_object_le_iff.1 h
    obtain ⟨htype, hparameters⟩ : m.returnType.toValue.depth ≤ inner ∧
        (Value.array (m.parameters.map MethodParameter.toValue)).depth ≤ inner := by
      simpa using hmembers
    have hread := MethodParameter.readsBack.list.read?_write hparameters
    rw [toValue, ofValue?, Value.fields?_object]
    · simp [Fields.required, Fields.optional, Value.string?, Value.bool?,
        TypeRef.ofValue?_toValue htype, hread]
    · exact .refl fieldNames
    · decide
  depth_le {room v m} hroom h := by
    cases room with
    | zero => cases h
    | succ room =>
      simp only [ofValue?, Option.bind_eq_bind, Option.bind_eq_some_iff, Option.pure_def] at h
      obtain ⟨fields, -, name, -, isPublic, -, isStatic, -, isSpecial, -, isDeclared, -, returnType,
        htype, parameters, hparameters, h⟩ := h
      cases h
      obtain ⟨w, hw⟩ := Fields.required_eq_some htype
      have hdepth := MethodParameter.readsBack.depth_le_of_optional (by omega) hparameters
      simpa [toValue] using ⟨TypeRef.depth_toValue_le hw, hdepth⟩

end Method

/-! ## Type definitions -/

namespace TypeDefinition

/-- The fields of a type definition before those of its shape. -/
def leadingMembers (d : TypeDefinition) : List (String × Value) :=
  [("namespace", .ofString? d.space), ("name", .string d.name), ("kind", .string d.kind.word),
    ("is_exported", .bool d.isExported), ("is_abstract", .bool d.isAbstract)]

/-- The field of a type definition after those of its shape. -/
def methodsMember (d : TypeDefinition) : String × Value :=
  ("methods", .array (d.methods.map Method.toValue))

/-- All fields of a type definition. -/
def members (d : TypeDefinition) : List (String × Value) :=
  d.leadingMembers ++ d.shape.members ++ [d.methodsMember]

theorem toValue_eq_object (d : TypeDefinition) : d.toValue = .object d.members := rfl

/-- The fields of the shape are none of the definition's own. -/
theorem not_contains_of_mem_members (s : Shape) :
    ∀ m ∈ s.members, fieldNames.contains m.1 = false := by
  obtain ⟨properties, hasDefaultConstructor, _ | method⟩ := s <;>
    simp [Shape.members, Shape.leadingMembers, fieldNames]

theorem otherMembers_append (ms ms' : List (String × Value)) :
    otherMembers (ms ++ ms') = otherMembers ms ++ otherMembers ms' := List.filter_append ..

theorem otherMembers_members (d : TypeDefinition) : otherMembers d.members = d.shape.members := by
  have hleading : otherMembers d.leadingMembers = [] := by
    simp [otherMembers, leadingMembers, fieldNames]
  have hshape : otherMembers d.shape.members = d.shape.members :=
    List.filter_eq_self.2 fun m hm => by rw [not_contains_of_mem_members d.shape m hm]; rfl
  have hmethods : otherMembers [d.methodsMember] = [] := by
    simp [otherMembers, methodsMember, fieldNames]
  rw [members, otherMembers_append, otherMembers_append, hleading, hshape, hmethods,
    List.nil_append, List.append_nil]

theorem fields?_members (d : TypeDefinition) :
    (Value.object d.members).fields? fieldNames = some ⟨d.leadingMembers ++ [d.methodsMember]⟩ := by
  have hshape : (d.shape.members.filter fun m => fieldNames.contains m.1) = [] :=
    List.filter_eq_nil_iff.2 fun m hm => by rw [not_contains_of_mem_members d.shape m hm]; decide
  have hown : (d.members.filter fun m => fieldNames.contains m.1) =
      d.leadingMembers ++ [d.methodsMember] := by
    rw [members, List.filter_append, List.filter_append, hshape, List.append_nil]
    rfl
  rw [← Json.fields?_filter, hown, Value.fields?_object]
  · exact .refl fieldNames
  · decide

theorem forall_mem_members_iff (d : TypeDefinition) {P : String × Value → Prop} :
    (∀ m ∈ d.members, P m) ↔
      (∀ m ∈ d.leadingMembers, P m) ∧ (∀ m ∈ d.shape.members, P m) ∧ P d.methodsMember := by
  rw [members, List.forall_mem_append, List.forall_mem_append, List.forall_mem_singleton, and_assoc]

theorem isPlain_of_mem_leadingMembers (d : TypeDefinition) :
    ∀ m ∈ d.leadingMembers, m.2.IsPlain := by
  obtain ⟨_ | s, name, kind, isExported, isAbstract, shape, methods⟩ := d <;>
    simp [leadingMembers, Value.ofString?]

theorem depth_le_of_mem_leadingMembers (d : TypeDefinition) :
    ∀ m ∈ d.leadingMembers, m.2.depth ≤ room := by
  obtain ⟨_ | s, name, kind, isExported, isAbstract, shape, methods⟩ := d <;>
    simp [leadingMembers, Value.ofString?]

theorem ofValue?_toValue {d : TypeDefinition} (h : d.toValue.depth ≤ room) :
    ofValue? room d.toValue = some d := by
  obtain ⟨inner, rfl, hmembers⟩ := Value.depth_object_le_iff.1 h
  obtain ⟨-, hshape, hmethods⟩ := (forall_mem_members_iff d).1 hmembers
  -- the members of the shape are kept before they are read, so all of them have to fit
  have hfit : Value.membersFit inner d.shape.members = true :=
    Value.membersFit_iff.2 fun m hm =>
      (d.shape.isPlain_of_mem_members m hm).fits_iff.2 (hshape m hm)
  have hguard : (guard (Value.membersFit inner d.shape.members = true) : Option Unit) = some () :=
    if_pos hfit
  have hspace : (Value.ofString? d.space).nullable? Value.string? = some d.space := by
    cases d.space <;> rfl
  have hread : Value.list? Method.ofValue? inner (.array (d.methods.map Method.toValue)) =
      some d.methods := Method.readsBack.list.read?_write hmethods
  rw [toValue_eq_object, ofValue?, fields?_members, otherMembers_members, hguard,
    Shape.fields?_members]
  simp [leadingMembers, methodsMember, Fields.optional, Fields.required, hspace, Value.string?,
    TypeKind.choice?_word, Value.bool?, hread, Shape.ofFields?_members hshape]

theorem readsBack : ReadsBack 4 toValue ofValue? where
  isPlain d := by
    refine Value.isPlain_object_iff.2 ((forall_mem_members_iff d).2 ⟨?_, ?_, ?_⟩)
    · exact d.isPlain_of_mem_leadingMembers
    · exact d.shape.isPlain_of_mem_members
    · exact Method.readsBack.list.isPlain d.methods
  read?_write := ofValue?_toValue
  depth_le {room v d} hroom h := by
    unfold ofValue? at h
    split at h
    · next room members =>
      simp only [Option.bind_eq_bind, Option.bind_eq_some_iff, Option.pure_def] at h
      obtain ⟨fields, -, space, -, name, -, kind, -, isExported, -, isAbstract, -, methods,
        hmethods, -, -, shapeFields, -, shape, hshape, h⟩ := h
      cases h
      -- of the arrays that may have been missing that of the methods nests deepest
      refine Value.depth_object_le_succ_iff.2 ((forall_mem_members_iff _).2 ⟨?_, ?_, ?_⟩)
      · exact depth_le_of_mem_leadingMembers _
      · exact Shape.depth_le_of_ofFields? (by omega) hshape
      · exact Method.readsBack.depth_le_of_optional (by omega) hmethods
    · cases h

end TypeDefinition

/-! ## Assemblies -/

namespace Assembly

theorem readsBack : ReadsBack 6 toValue ofValueIn? where
  isPlain a := by
    simpa [toValue] using fun d _ => TypeDefinition.readsBack.isPlain d
  read?_write {room a} h := by
    obtain ⟨inner, rfl, hmembers⟩ := Value.depth_object_le_iff.1 h
    have htypes : (Value.array (a.types.map TypeDefinition.toValue)).depth ≤ inner := by
      simpa using hmembers
    have hread := TypeDefinition.readsBack.list.read?_write htypes
    rw [toValue, ofValueIn?, Value.fields?_object]
    · simp [Fields.required, Fields.optional, Value.string?, hread]
    · exact .refl fieldNames
    · decide
  depth_le {room v a} hroom h := by
    cases room with
    | zero => cases h
    | succ room =>
      simp only [ofValueIn?, Option.bind_eq_bind, Option.bind_eq_some_iff, Option.pure_def] at h
      obtain ⟨fields, -, name, -, types, htypes, h⟩ := h
      cases h
      simpa [toValue] using TypeDefinition.readsBack.depth_le_of_optional (by omega) htypes

/-- An assembly that documents may hold is read from its document when it is valid. -/
theorem read_write_of_depth_le {a : Assembly} (h : a.toValue.depth ≤ maxDepth) :
    read a.write = a.validate.map fun _ => a := by
  unfold read write
  rw [Value.read?_compact (readsBack.isPlain a)]
  simp only [ofValue, ofValue?, readsBack.read?_write h]
  -- what is left is the validity of the assembly that was written
  cases a.validate <;> rfl

/-- What was read from a document is valid and nests as deep as documents may. -/
theorem of_read_eq_ok {text : String} {a : Assembly} (h : read text = .ok a) :
    a.validate = .ok () ∧ a.toValue.depth ≤ maxDepth := by
  unfold read at h
  split at h
  · cases h
  unfold ofValue at h
  split at h
  · next v _ b hread =>
    obtain ⟨⟨⟩, hvalid, hb⟩ := bind_eq_ok_iff.1 h
    cases hb
    exact ⟨hvalid, readsBack.depth_le (by decide) hread⟩
  · cases h

/-- **Documents are read back.** The document of an assembly is read as that assembly exactly when
the assembly is valid and its record nests no deeper than documents may. So it is for every assembly
that was read from some text, however that text was laid out and whatever it left out: written again
it is a document of the same assembly. -/
theorem read_write (a : Assembly) :
    (read a.write = .ok a ↔ a.validate = .ok () ∧ a.toValue.depth ≤ maxDepth) ∧
      ∀ text, read text = .ok a → read a.write = .ok a := by
  have hwritten : a.validate = .ok () ∧ a.toValue.depth ≤ maxDepth → read a.write = .ok a := by
    rintro ⟨hvalid, hdepth⟩
    rw [read_write_of_depth_le hdepth, hvalid]
    rfl
  exact ⟨⟨of_read_eq_ok, hwritten⟩, fun text h => hwritten (of_read_eq_ok h)⟩

/-- Two types: one is named and no more, the other has an empty namespace and something in every
field. -/
def ballAssembly : Assembly :=
  ⟨"Balls", [
    ⟨none, "Ball", .reference, true, false, ⟨[], true, none⟩, []⟩,
    ⟨some "", "BallApi", .interface, false, true,
      ⟨[⟨"Sizes", .array (.plain "System" "Int32" .value), false, ["Required"]⟩], false,
        some "Create"⟩,
      [⟨"CreateBall", false, true, true, false, .void,
        [⟨"ball", ⟨none, "Ball", .reference, []⟩⟩]⟩]⟩]⟩

/-- The two types are read back, and so is an assembly whose document left out all that it could. -/
theorem read_write_balls :
    ballAssembly.validate = .ok () ∧ ballAssembly.toValue.depth = 8 ∧
      read ballAssembly.write = .ok ballAssembly ∧
      read "\x7b\"types\": [\x7b\"name\": \"Ball\"\x7d], \"assembly\": \"Balls\"\x7d" =
        .ok ⟨"Balls", ballAssembly.types.take 1⟩ ∧
      read (write ⟨"Balls", ballAssembly.types.take 1⟩) =
        .ok ⟨"Balls", ballAssembly.types.take 1⟩ :=
  have hread : read "\x7b\"types\": [\x7b\"name\": \"Ball\"\x7d], \"assembly\": \"Balls\"\x7d" =
      .ok ⟨"Balls", ballAssembly.types.take 1⟩ := rfl
  ⟨rfl, by decide, (read_write ballAssembly).1.2 ⟨rfl, by decide⟩, hread,
    (read_write _).2 _ hread⟩

end Assembly

end WrapperGen
