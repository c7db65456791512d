import Mathlib.Data.Option.Basic
import Mathlib.Logic.Relation
import WrapperGen.Proofs.ModelDocument
import WrapperGen.Proofs.RecordEdits
/-!
# Edited documents

1. A record that was read is read as the same record after its fields have changed as edits change
   them, from any room that it fits into. Each kind has its lemma (`TypeRef.carries_of_change` to
   `Assembly.carries_of_change`); that of type definitions looks at the fields twice, and at the
   members that are kept in between.
2. Rooms make no difference (`stableAt`, by induction on the room that was read from), so an edit of
   a part carries over what is read from the whole (`Document.Edit.readsOn`, by induction on where
   the edit is).
3. Hence a document that was edited any number of times is a document of the same assembly, as long
   as it nests no deeper than documents may (`Assembly.read_of_edits`).
-/

namespace WrapperGen

open Document (Edit FieldsChange Form Kind MembersChange)
open Json (Fields Provenance Value)

namespace Document

/-! ## Records that change -/

variable {k : Kind} {names : List String} {room room' : Nat} {v v' : Value}

/-- What is read from this room is read from every other room that the value fits into. -/
def StableAt (room : Nat) : Prop :=
  ∀ (provenance : Provenance) (form : Form) (room' : Nat) (v : Value),
    Carries (form.read? provenance) room room' v v

/-- What a field says, be it that it is missing. -/
def Field.answer (f : Field) (provenance : Provenance) (room : Nat) (fields : Fields) :
    Option f.form.Result :=
  (fields.get? f.name).elim f.form.missing? (f.form.read? provenance room)

theorem required_eq_elim {α : Type} (fields : Fields) (name : String) (read? : Value → Option α) :
    fields.required name read? = (fields.get? name).elim none read? := by
  unfold Fields.required
  cases fields.get? name <;> rfl

theorem optional_eq_elim {α : Type} (fields : Fields) (name : String) (missing : α)
    (read? : Value → Option α) :
    fields.optional name missing read? = (fields.get? name).elim (some missing) read? := by
  unfold Fields.optional
  cases fields.get? name <;> rfl

theorem mem_entries_of_get? {fields : Fields} {name : String} {w : Value}
    (h : fields.get? name = some w) : (name, w) ∈ fields.entries := by
  obtain ⟨before, after, hentries, -⟩ := List.lookup_eq_some_iff.1 h
  rw [hentries]
  exact List.mem_append_right _ List.mem_cons_self

/-- A record takes one bracket, and its fields have the room inside of it. -/
theorem exists_inner_room {fields : Fields} (hfields : v.fields? names = some fields)
    (hdepth : v.depth ≤ room) :
    ∃ inner, room = inner + 1 ∧ ∀ name, ∀ w ∈ fields.get? name, w.depth ≤ inner := by
  cases v with
  | object ms =>
    obtain ⟨inner, rfl, hmembers⟩ := Value.depth_object_le_iff.1 hdepth
    refine ⟨inner, rfl, fun name w hw => ?_⟩
    have hmem := mem_entries_of_get? hw
    rw [(fields?_eq_some_iff.1 hfields).2] at hmem
    exact hmembers _ (List.mem_filter.1 hmem).1
  | array items =>
    obtain ⟨inner, rfl, hitems⟩ := Value.depth_array_le_iff.1 hdepth
    refine ⟨inner, rfl, fun name w hw => ?_⟩
    have hmem := mem_entries_of_get? hw
    simp only [Value.fields?] at hfields
    split at hfields
    · cases hfields
      exact hitems w (List.of_mem_zip hmem).2
    · cases hfields
  | null | bool | number | string | textless => cases hfields

/-- After an edit every field says what it said. -/
theorem FieldsChange.exists_answers (h : FieldsChange k names v v') (hstable : StableAt room)
    {fields : Fields} (hfields : v.fields? names = some fields) (hdepth : v'.depth ≤ room') :
    ∃ inner fields', room' = inner + 1 ∧ v'.fields? names = some fields' ∧
      ∀ (f : Field) (provenance : Provenance), f ∈ k.fields ∧ f.name ∈ names →
        ∀ x, f.answer provenance room fields = some x →
          f.answer provenance inner fields' = some x := by
  obtain ⟨fields', hfields', hchanges⟩ := h fields hfields
  obtain ⟨inner, rfl, hroom⟩ := exists_inner_room hfields' hdepth
  refine ⟨inner, fields', rfl, hfields', ?_⟩
  rintro f provenance ⟨hf, hname⟩ x hx
  exact (hchanges f hf hname).answer (hstable provenance f.form inner) (hroom f.name) hx

/-- Readers in a row read on when each of them does. -/
theorem bind_eq_some_of_imp {α β : Type} {o o' : Option α} {next next' : α → Option β} {b : β}
    (h : ∀ a, o = some a → o' = some a) (hnext : ∀ a, next a = some b → next' a = some b)
    (hb : o.bind next = some b) : o'.bind next' = some b := by
  obtain ⟨a, ha, hb⟩ := Option.bind_eq_some_iff.1 hb
  exact Option.bind_eq_some_iff.2 ⟨a, h a ha, hnext a hb⟩

end Document

open Document

variable {room : Nat} {provenance : Provenance} {v v' : Value}

/-! ### Types -/

theorem TypeRef.argumentsOfValue?_eq :
    argumentsOfValue? provenance room = Value.list? (ofValue? provenance) room :=
  funext TypeRef.argumentsOfValue?_eq_list?

theorem TypeRef.carries_of_change (hstable : StableAt room)
    (h : FieldsChange .type TypeRef.fieldNames v v') (room' : Nat) :
    Carries (TypeRef.ofValue? provenance) (room + 1) room' v v' := by
  intro t hread hdepth
  simp only [TypeRef.ofValue?, Option.bind_eq_bind, optional_eq_elim, required_eq_elim,
    TypeRef.argumentsOfValue?_eq] at hread
  obtain ⟨fields, hfields, hread⟩ := Option.bind_eq_some_iff.1 hread
  obtain ⟨inner, fields', rfl, hfields', hsame⟩ := h.exists_answers hstable hfields hdepth
  simp only [TypeRef.ofValue?, Option.bind_eq_bind, optional_eq_elim, required_eq_elim,
    TypeRef.argumentsOfValue?_eq, hfields', Option.bind_some]
  refine bind_eq_some_of_imp (hsame ⟨"namespace", .nullableText⟩ provenance (by decide))
    (fun _ => ?_) hread
  refine bind_eq_some_of_imp (hsame ⟨"name", .text⟩ provenance (by decide)) fun _ => ?_
  refine bind_eq_some_of_imp (hsame ⟨"kind", .typeKind⟩ provenance (by decide)) fun _ => ?_
  exact bind_eq_some_of_imp (hsame ⟨"generic_arguments", .records .type⟩ provenance (by decide))
    fun _ => id

/-! ### Properties and methods -/

theorem Property.carries_of_change (hstable : StableAt room)
    (h : FieldsChange .property Property.fieldNames v v') (room' : Nat) :
    Carries (Property.ofValue? provenance) (room + 1) room' v v' := by
  intro p hread hdepth
  simp only [Property.ofValue?, Option.bind_eq_bind, optional_eq_elim, required_eq_elim] at hread
  obtain ⟨fields, hfields, hread⟩ := Option.bind_eq_some_iff.1 hread
  obtain ⟨inner, fields', rfl, hfields', hsame⟩ := h.exists_answers hstable hfields hdepth
  simp only [Property.ofValue?, Option.bind_eq_bind, optional_eq_elim, required_eq_elim, hfields',
    Option.bind_some]
  refine bind_eq_some_of_imp (hsame ⟨"name", .text⟩ provenance (by decide)) (fun _ => ?_) hread
  refine bind_eq_some_of_imp (hsame ⟨"type", .record .type⟩ provenance (by decide)) fun _ => ?_
  refine bind_eq_some_of_imp (hsame ⟨"can_write", .flag true⟩ provenance (by decide)) fun _ => ?_
  exact bind_eq_some_of_imp (hsame ⟨"attributes", .texts⟩ provenance (by decide)) fun _ => id

theorem MethodParameter.carries_of_change (hstable : StableAt room)
    (h : FieldsChange .parameter MethodParameter.fieldNames v v') (room' : Nat) :
    Carries MethodParameter.ofValue? (room + 1) room' v v' := by
  intro p hread hdepth
  simp only [MethodParameter.ofValue?, Option.bind_eq_bind, required_eq_elim] at hread
  obtain ⟨fields, hfields, hread⟩ := Option.bind_eq_some_iff.1 hread
  obtain ⟨inner, fields', rfl, hfields', hsame⟩ := h.exists_answers hstable hfields hdepth
  simp only [MethodParameter.ofValue?, Option.bind_eq_bind, required_eq_elim, hfields',
    Option.bind_some]
  refine bind_eq_some_of_imp (hsame ⟨"name", .text⟩ .direct (by decide)) (fun _ => ?_) hread
  exact bind_eq_some_of_imp (hsame ⟨"type", .record .type⟩ .direct (by decide)) fun _ => id

theorem Method.carries_of_change (hstable : StableAt room)
    (h : FieldsChange .method Method.fieldNames v v') (room' : Nat) :
    Carries Method.ofValue? (room + 1) room' v v' := by
  intro m hread hdepth
  simp only [Method.ofValue?, Option.bind_eq_bind, optional_eq_elim, required_eq_elim] at hread
  obtain ⟨fields, hfields, hread⟩ := Option.bind_eq_some_iff.1 hread
  obtain ⟨inner, fields', rfl, hfields', hsame⟩ := h.exists_answers hstable hfields hdepth
  simp only [Method.ofValue?, Option.bind_eq_bind, optional_eq_elim, required_eq_elim, hfields',
    Option.bind_some]
  refine bind_eq_some_of_imp (hsame ⟨"name", .text⟩ .direct (by decide)) (fun _ => ?_) hread
  refine bind_eq_some_of_imp (hsame ⟨"is_public", .flag true⟩ .direct (by decide)) fun _ => ?_
  refine bind_eq_some_of_imp (hsame ⟨"is_static", .flag false⟩ .direct (by decide)) fun _ => ?_
  refine bind_eq_some_of_imp (hsame ⟨"is_special_name", .flag false⟩ .direct (by decide))
    fun _ => ?_
  refine bind_eq_some_of_imp (hsame ⟨"declared_only", .flag true⟩ .direct (by decide)) fun _ => ?_
  refine bind_eq_some_of_imp (hsame ⟨"return_type", .record .type⟩ .direct (by decide))
    fun _ => ?_
  exact bind_eq_some_of_imp (hsame ⟨"parameters", .records .parameter⟩ .direct (by decide))
    fun _ => id

/-! ### Type definitions -/

namespace TypeDefinition

theorem mem_otherMembers {ms : List (String × Value)} {m : String × Value} :
    m ∈ otherMembers ms ↔ m ∈ ms ∧ m.1 ∉ fieldNames := by
  rw [otherMembers, List.mem_filter, Bool.not_eq_true', ← Bool.not_eq_true, List.contains_iff_mem]

/-- What a definition's own fields leave over has the fields of the shape. -/
theorem fields?_otherMembers (ms : List (String × Value)) :
    (Value.object (otherMembers ms)).fields? Shape.fieldNames =
      (Value.object ms).fields? Shape.fieldNames := by
  have hapart : ∀ name ∈ Shape.fieldNames, fieldNames.contains name = false := by decide
  have hknown : ((otherMembers ms).filter fun m => Shape.fieldNames.contains m.1) =
      ms.filter fun m => Shape.fieldNames.contains m.1 := by
    rw [otherMembers, List.filter_filter]
    refine List.filter_congr fun m _ => ?_
    cases hshape : Shape.fieldNames.contains m.1 with
    | false => rfl
    | true =>
      rw [hapart m.1 (List.contains_iff_mem.1 hshape)]
      rfl
  simp only [Value.fields?, hknown]

/-- The members that are kept for the shape still fit, those that belong to nothing included. -/
theorem membersFit_of_change {ms ms' : List (String × Value)} {inner : Nat}
    (h : MembersChange .definition ms ms') (hdepth : (Value.object ms').depth ≤ inner + 1)
    (hfit : Value.membersFit room (otherMembers ms) = true) :
    Value.membersFit inner (otherMembers ms') = true := by
  rw [Value.membersFit_iff] at hfit ⊢
  have hkept : ∀ m ∈ ms, m.1 ∉ fieldNames → m.2.IsWhole := fun m hm hother =>
    Value.isWhole_of_fits (hfit m (mem_otherMembers.2 ⟨hm, hother⟩))
  intro m hm
  obtain ⟨hmem, hother⟩ := mem_otherMembers.1 hm
  have hwhole := h.isWhole (· ∉ fieldNames) hkept m hmem hother
  exact hwhole.fits_iff.2 (Value.depth_object_le_succ_iff.1 hdepth m hmem)

theorem carries_of_change (hstable : StableAt room) {ms ms' : List (String × Value)}
    (h : MembersChange .definition ms ms') (room' : Nat) :
    Carries ofValue? (room + 1) room' (.object ms) (.object ms') := by
  intro d hread hdepth
  simp only [ofValue?, Option.bind_eq_bind, optional_eq_elim, required_eq_elim,
    fields?_otherMembers] at hread
  obtain ⟨fields, hfields, hread⟩ := Option.bind_eq_some_iff.1 hread
  obtain ⟨inner, fields', rfl, hfields', hsame⟩ :=
    (h.fields fieldNames (by decide)).exists_answers hstable hfields hdepth
  simp only [ofValue?, Option.bind_eq_bind, optional_eq_elim, required_eq_elim,
    fields?_otherMembers, hfields', Option.bind_some]
  refine bind_eq_some_of_imp (hsame ⟨"namespace", .nullableText⟩ .direct (by decide))
    (fun _ => ?_) hread
  refine bind_eq_some_of_imp (hsame ⟨"name", .text⟩ .direct (by decide)) fun _ => ?_
  refine bind_eq_some_of_imp (hsame ⟨"kind", .typeKind⟩ .direct (by decide)) fun _ => ?_
  refine bind_eq_some_of_imp (hsame ⟨"is_exported", .flag true⟩ .direct (by decide)) fun _ => ?_
  refine bind_eq_some_of_imp (hsame ⟨"is_abstract", .flag false⟩ .direct (by decide)) fun _ => ?_
  refine bind_eq_some_of_imp (hsame ⟨"methods", .records .method⟩ .direct (by decide)) fun _ => ?_
  refine bind_eq_some_of_imp (fun _ hguard => ?_) fun _ hread => ?_
  · rw [Option.guard_eq_some'] at hguard ⊢
    exact membersFit_of_change h hdepth hguard
  -- the fields of the shape are looked up on their own, so their changes are, too
  obtain ⟨shapeFields, hshapeFields, hread⟩ := Option.bind_eq_some_iff.1 hread
  obtain ⟨_, shapeFields', ⟨⟩, hshapeFields', hshape⟩ :=
    (h.fields Shape.fieldNames (by decide)).exists_answers hstable hshapeFields hdepth
  rw [hshapeFields', Option.bind_some]
  refine bind_eq_some_of_imp (fun s hs => ?_) (fun _ => id) hread
  simp only [Shape.ofFields?, Option.bind_eq_bind, optional_eq_elim] at hs ⊢
  refine bind_eq_some_of_imp (hshape ⟨"properties", .records .property⟩ .kept (by decide))
    (fun _ => ?_) hs
  refine bind_eq_some_of_imp
    (hshape ⟨"has_parameterless_constructor", .flag true⟩ .kept (by decide)) fun _ => ?_
  exact bind_eq_some_of_imp (hshape ⟨"static_factory", .nullableText⟩ .kept (by decide))
    fun _ => id

end TypeDefinition

/-! ### Assemblies -/

theorem Assembly.carries_of_change (hstable : StableAt room)
    (h : FieldsChange .assembly Assembly.fieldNames v v') (room' : Nat) :
    Carries Assembly.ofValueIn? (room + 1) room' v v' := by
  intro a hread hdepth
  simp only [Assembly.ofValueIn?, Option.bind_eq_bind, optional_eq_elim, required_eq_elim] at hread
  obtain ⟨fields, hfields, hread⟩ := Option.bind_eq_some_iff.1 hread
  obtain ⟨inner, fields', rfl, hfields', hsame⟩ := h.exists_answers hstable hfields hdepth
  simp only [Assembly.ofValueIn?, Option.bind_eq_bind, optional_eq_elim, required_eq_elim, hfields',
    Option.bind_some]
  refine bind_eq_some_of_imp (hsame ⟨"assembly", .text⟩ .direct (by decide)) (fun _ => ?_) hread
  exact bind_eq_some_of_imp (hsame ⟨"types", .records .definition⟩ .direct (by decide)) fun _ => id

/-! ## Rooms -/

namespace Document

/-- A record is read on after an edit of it as a whole and of each part of its fields. -/
structure RecordChange (k : Kind) (v v' : Value) : Prop where
  fields : FieldsChange k k.fieldNames v v'
  members (ms : List (String × Value)) (h : v = .object ms) :
    ∃ ms', v' = .object ms' ∧ MembersChange k ms ms'

variable {k : Kind} {room : Nat} {v v' : Value}

theorem RecordChange.refl (k : Kind) (v : Value) : RecordChange k v v where
  fields := .of_eq rfl
  members ms h := ⟨ms, h, membersChange_of_perm (.refl ms)⟩

theorem Kind.carries_of_change (k : Kind) (hstable : StableAt room) (h : RecordChange k v v')
    (provenance : Provenance) (room' : Nat) :
    Carries (k.read? provenance) (room + 1) room' v v' := by
  cases k with
  | assembly => exact Assembly.carries_of_change hstable h.fields room'
  | method => exact Method.carries_of_change hstable h.fields room'
  | parameter => exact MethodParameter.carries_of_change hstable h.fields room'
  | property => exact Property.carries_of_change hstable h.fields room'
  | type => exact TypeRef.carries_of_change hstable h.fields room'
  | definition =>
    cases v with
    | object ms =>
      obtain ⟨ms', rfl, hms⟩ := h.members ms rfl
      exact TypeDefinition.carries_of_change hstable hms room'
    | null | bool | number | string | textless | array => exact fun x hx => nomatch hx

theorem Kind.read?_zero (k : Kind) (provenance : Provenance) (v : Value) :
    k.read? provenance 0 v = none := by
  cases k with
  | definition => cases v <;> rfl
  | assembly | method | parameter | property | type => rfl

theorem stableAt (room : Nat) : StableAt room := by
  induction room using Nat.strongRecOn with
  | ind room ih =>
    intro provenance form room' v
    cases form with
    | text | nullableText | flag => exact fun x hx _ => hx
    | typeKind => exact .choice? TypeKind.words provenance room room' v
    | texts =>
      have hitem : ∀ room room' v, Carries (fun _ => Value.string?) room room' v v :=
        fun _ _ _ x hx _ => hx
      exact .list_self (fun inner _ => hitem inner) room' v
    | record k =>
      cases room with
      | zero =>
        intro x hx
        cases (k.read?_zero provenance v).symm.trans hx
      | succ room =>
        exact k.carries_of_change (ih room (Nat.lt_succ_self room)) (.refl k v) provenance room'
    | records k =>
      refine .list_self (fun inner hroom => ?_) room' v
      exact ih inner (by omega) provenance (.record k)

theorem Form.ReadsOn.refl (form : Form) (v : Value) : form.ReadsOn v v where
  isWhole := id
  carries provenance room room' := stableAt room provenance form room' v

/-! ## Edits -/

theorem RecordChange.readsOn (h : RecordChange k v v') (hwhole : v.IsWhole → v'.IsWhole) :
    Form.ReadsOn (.record k) v v' where
  isWhole := hwhole
  carries provenance room room' := by
    cases room with
    | zero =>
      intro x hx
      cases (k.read?_zero provenance v).symm.trans hx
    | succ room => exact k.carries_of_change (stableAt room) h provenance room'

theorem MembersChange.readsOn {ms ms' : List (String × Value)} (h : MembersChange k ms ms') :
    Form.ReadsOn (.record k) (.object ms) (.object ms') := by
  refine RecordChange.readsOn ⟨h.fields _ (List.Subset.refl _), ?_⟩ ?_
  · rintro _ ⟨⟩
    exact ⟨ms', rfl, h⟩
  · intro hwhole
    rw [Value.isWhole_object_iff] at hwhole ⊢
    exact fun m hm => h.isWhole (fun _ => True) (fun m hm _ => hwhole m hm) m hm trivial

theorem isWhole_replace {vs ws : List Value} (h : v.IsWhole → v'.IsWhole)
    (hwhole : (Value.array (vs ++ v :: ws)).IsWhole) : (Value.array (vs ++ v' :: ws)).IsWhole := by
  rw [Value.isWhole_array_iff, List.forall_mem_append, List.forall_mem_cons] at hwhole ⊢
  exact ⟨hwhole.1, h hwhole.2.1, hwhole.2.2⟩

theorem Form.ReadsOn.item (vs ws : List Value) (h : Form.ReadsOn (.record k) v v') :
    Form.ReadsOn (.records k) (.array (vs ++ v :: ws)) (.array (vs ++ v' :: ws)) where
  isWhole := isWhole_replace h.isWhole
  carries provenance room room' := by
    cases room with
    | zero => exact fun xs hxs => nomatch hxs
    | succ room =>
      refine Carries.list (fun inner => ?_) room'
      have hsame : ∀ us : List Value,
          List.Forall₂ (Carries (k.read? provenance) room inner) us us :=
        fun us => List.forall₂_same.2 fun w _ => stableAt room provenance (.record k) inner w
      exact List.rel_append (hsame vs) (.cons (h.carries provenance room inner) (hsame ws))

/-- An edit anywhere inside of a value makes no difference to what is read from it. -/
theorem Edit.readsOn {form : Form} (h : Edit form v v') : form.ReadsOn v v' := by
  induction h with
  | permute h => exact (membersChange_of_perm h).readsOn
  | insert ms hname hv => exact (membersChange_insert hname hv).readsOn
  | leaveOut ms hf hv => exact (membersChange_withMember hf (.leftOut hv) nofun).readsOn
  | fillIn hf hv hmissing =>
    exact (membersChange_withMember hf (.filledIn hv) fun _ => hmissing).readsOn
  | member ms hf _ ih => exact (membersChange_withMember hf (.inside ih) nofun).readsOn
  | place vs ws hf _ ih =>
    exact RecordChange.readsOn ⟨fieldsChange_place vs ws hf ih, nofun⟩ (isWhole_replace ih.isWhole)
  | item vs ws _ ih => exact ih.item vs ws

/-- Nor does any number of edits. -/
theorem readsOn_of_edits {form : Form} (h : Relation.ReflTransGen (Edit form) v v') :
    form.ReadsOn v v' := by
  induction h with
  | refl => exact .refl form v
  | tail _ hedit ih => exact ih.trans hedit.readsOn

end Document

/-! ## Documents -/

namespace Assembly

theorem ofValue_eq_ok_iff {a : Assembly} :
    ofValue v = .ok a ↔ ofValue? v = some a ∧ a.validate = .ok () := by
  unfold ofValue
  cases hread : ofValue? v with
  | none => exact iff_of_false nofun nofun
  | some b =>
    show (b.validate >>= fun _ => .ok b) = .ok a ↔ _
    rw [bind_eq_ok_iff, Option.some.injEq]
    constructor
    · rintro ⟨⟨⟩, hvalid, ⟨⟩⟩
      exact ⟨rfl, hvalid⟩
    · rintro ⟨rfl, hvalid⟩
      exact ⟨(), hvalid, rfl⟩

/-- **Edits that say nothing new make no difference.** A document that was accepted may have the
members of its records put into any order; members may be put in that none of the record's fields
has the name of, and members that say the usual be left out or filled in; in any records, whether
they stand in the assembly or deep inside of another one, and any number of times. As long as the
edited document nests no deeper than documents may, it is accepted and holds the same assembly. -/
theorem read_of_edits {text text' : String} {v v' : Value} {a : Assembly}
    (hread : read text = .ok a) (hv : Value.read? text = some v)
    (hedits : Relation.ReflTransGen (Edit (.record .assembly)) v v')
    (hdepth : v'.depth ≤ maxDepth) (hv' : Value.read? text' = some v') :
    read text' = .ok a := by
  simp only [read, hv, hv', ofValue_eq_ok_iff] at hread ⊢
  obtain ⟨hread, hvalid⟩ := hread
  exact ⟨(readsOn_of_edits hedits).carries .direct maxDepth maxDepth a hread hdepth, hvalid⟩

/-- A document of one type with these members. -/
def ballDocument (members : List (String × Value)) : Value :=
  .object [("types", .array [.object members]), ("assembly", .string "Balls")]

theorem edit_ballDocument {ms ms' : List (String × Value)}
    (h : Edit (.record .definition) (.object ms) (.object ms')) :
    Edit (.record .assembly) (ballDocument ms) (ballDocument ms') :=
  .member _ (f := ⟨"types", .records .definition⟩) (by decide) (.item [] [] h)

/-- A document that says of its type that it is a class, as is usual. -/
def plainBall : Value :=
  .object [("assembly", .string "Balls"), ("types", .array [.object
    [("kind", .string "class"), ("name", .string "Ball"),
      ("properties", .array [.array [.string "Size", .object [("name", .string "Int32")]]])]])]

/-- The document in another order, without the kind, with a note, and with the usual arguments,
none, of the type of the property; the property is written as an array. -/
def notedBall : Value :=
  ballDocument [("note", .array [.object []]),
    ("properties", .array [.array [.string "Size", .object
      [("generic_arguments", .array []), ("name", .string "Int32")]]]),
    ("name", .string "Ball")]

theorem edits_plainBall : Relation.ReflTransGen (Edit (.record .assembly)) plainBall notedBall := by
  have hplace : Edit (.record .property)
      (.array [.string "Size", .object [("name", .string "Int32")]])
      (.array [.string "Size", .object
        [("generic_arguments", .array []), ("name", .string "Int32")]]) :=
    .place [.string "Size"] [] (f := ⟨"type", .record .type⟩) rfl
      (.fillIn (f := ⟨"generic_arguments", .records .type⟩) (by decide)
        List.mem_cons_self (by decide))
  refine .head (.permute (.swap _ _ [])) ?_
  refine .head (edit_ballDocument
    (.leaveOut _ (f := ⟨"kind", .typeKind⟩) (by decide) List.mem_cons_self)) ?_
  refine .head (edit_ballDocument (.permute (.swap _ _ []))) ?_
  refine .head (edit_ballDocument (.member _ (f := ⟨"properties", .records .property⟩)
    (by decide) (.item [] [] hplace))) ?_
  exact .single (edit_ballDocument (.insert _ (by decide) (by simp)))

/-- An assembly in which all is usual that may be left out. -/
def usualBall : Assembly :=
  ⟨"Balls", [⟨none, "Ball", .reference, true, false,
    ⟨[⟨"Size", ⟨none, "Int32", .reference, []⟩, true, []⟩], true, none⟩, []⟩]⟩

/-- Both are documents of this assembly. -/
theorem read_of_edits_ball :
    plainBall.depth = 6 ∧ read plainBall.compact = .ok usualBall ∧
      notedBall.depth = 7 ∧ read notedBall.compact = .ok usualBall := by
  have hplain : Value.read? plainBall.compact = some plainBall :=
    Value.read?_compact (by simp [plainBall])
  have hnoted : Value.read? notedBall.compact = some notedBall :=
    Value.read?_compact (by simp [notedBall, ballDocument])
  have hread : read plainBall.compact = .ok usualBall := by
    rw [read, hplain]
    rfl
  have hdepth : notedBall.depth ≤ maxDepth := by decide
  exact ⟨by decide, hread, by decide, read_of_edits hread hplain edits_plainBall hdepth hnoted⟩

end Assembly

end WrapperGen
