import Mathlib.Data.List.Nodup
import WrapperGen.Assembly.Document
import WrapperGen.Proofs.JsonRoom
/-!
# Edits of records

The objects of an assembly document stand for records of six kinds, and each field of a record has a
form. A document may be edited in ways that say nothing new: members are put into another order,
members that no field has the name of are put in, and fields that say the usual are left out or
filled in.

1. Every edit of a record changes each of its fields in one of four ways (`Form.Changes`), whatever
   part of the fields is looked at (`MembersChange`). One lemma for permutations
   (`membersChange_of_perm`), one for new names (`membersChange_insert`) and one for single fields
   (`membersChange_withMember`) cover the edits of objects; `fieldsChange_place` covers records that
   are written as arrays.
2. What a field answers is carried over by each of these ways (`Form.Changes.answer`), once edits
   inside of its value carry over what is read there (`Form.ReadsOn`).
-/

namespace WrapperGen

open Json (Fields Provenance Value)

namespace Document

/-! ## Kinds and forms -/

/-- What an object of a document may stand for. -/
inductive Kind where
  | assembly
  | definition
  | method
  | parameter
  | property
  | type
  deriving DecidableEq, Repr, Inhabited

/-- What the value of a field may be. -/
inductive Form where
  | text
  /-- A text or null, which is usual. -/
  | nullableText
  /-- A word for the kind of a type, usually that for classes. -/
  | typeKind
  | flag (usual : Bool)
  /-- Texts, usually none. -/
  | texts
  | record (kind : Kind)
  /-- Records of one kind, usually none. -/
  | records (kind : Kind)
  deriving DecidableEq, Repr, Inhabited

/-- A field of a record. -/
structure Field where
  name : String
  form : Form
  deriving DecidableEq, Repr, Inhabited

/-- The fields of records, in the order in which arrays have them. A type definition has those of
its shape, too. -/
def Kind.fields : Kind → List Field
  | assembly => [⟨"assembly", .text⟩, ⟨"types", .records .definition⟩]
  | definition =>
    [⟨"namespace", .nullableText⟩, ⟨"name", .text⟩, ⟨"kind", .typeKind⟩,
      ⟨"is_exported", .flag true⟩, ⟨"is_abstract", .flag false⟩, ⟨"methods", .records .method⟩,
      ⟨"properties", .records .property⟩, ⟨"has_parameterless_constructor", .flag true⟩,
      ⟨"static_factory", .nullableText⟩]
  | method =>
    [⟨"name", .text⟩, ⟨"is_public", .flag true⟩, ⟨"is_static", .flag false⟩,
      ⟨"is_special_name", .flag false⟩, ⟨"declared_only", .flag true⟩,
      ⟨"return_type", .record .type⟩, ⟨"parameters", .records .parameter⟩]
  | parameter => [⟨"name", .text⟩, ⟨"type", .record .type⟩]
  | property =>
    [⟨"name", .text⟩, ⟨"type", .record .type⟩, ⟨"can_write", .flag true⟩, ⟨"attributes", .texts⟩]
  | type =>
    [⟨"namespace", .nullableText⟩, ⟨"name", .text⟩, ⟨"kind", .typeKind⟩,
      ⟨"generic_arguments", .records .type⟩]

/-- The names of a kind's fields. -/
def Kind.fieldNames (k : Kind) : List String := k.fields.map (·.name)

theorem Kind.nodup_fieldNames (k : Kind) : k.fieldNames.Nodup := by cases k <;> decide

/-- A kind has one field of a name. -/
theorem Kind.eq_of_name_eq {k : Kind} {f g : Field} (hf : f ∈ k.fields) (hg : g ∈ k.fields)
    (h : g.name = f.name) : g = f :=
  List.inj_on_of_nodup_map k.nodup_fieldNames hg hf h

/-- The values that say what a field says when it is left out. -/
def Form.usual : Form → List Value
  | text | record _ => []
  | nullableText => [.null]
  | typeKind => [.string "class", .object [("class", .null)]]
  | flag usual => [.bool usual]
  | texts | records _ => [.array []]

/-! ## Edits -/

/-- An edit of a value of some form, after which it says what it said before. What is put in or left
out is the first member, and which member is the first can be changed. -/
inductive Edit : Form → Value → Value → Prop
  | permute {k : Kind} {ms ms' : List (String × Value)} (h : ms.Perm ms') :
      Edit (.record k) (.object ms) (.object ms')
  | insert {k : Kind} (ms : List (String × Value)) {name : String} {v : Value}
      (hname : name ∉ k.fieldNames) (hv : v.IsPlain) :
      Edit (.record k) (.object ms) (.object ((name, v) :: ms))
  | leaveOut {k : Kind} (ms : List (String × Value)) {f : Field} {v : Value} (hf : f ∈ k.fields)
      (hv : v ∈ f.form.usual) : Edit (.record k) (.object ((f.name, v) :: ms)) (.object ms)
  | fillIn {k : Kind} {ms : List (String × Value)} {f : Field} {v : Value} (hf : f ∈ k.fields)
      (hv : v ∈ f.form.usual) (hmissing : f.name ∉ ms.map (·.1)) :
      Edit (.record k) (.object ms) (.object ((f.name, v) :: ms))
  /-- An edit inside of a field. -/
  | member {k : Kind} (ms : List (String × Value)) {f : Field} {v v' : Value} (hf : f ∈ k.fields)
      (h : Edit f.form v v') :
      Edit (.record k) (.object ((f.name, v) :: ms)) (.object ((f.name, v') :: ms))
  /-- An edit inside of a field of a record that is written as an array. -/
  | place {k : Kind} (vs ws : List Value) {f : Field} {v v' : Value}
      (hf : k.fields[vs.length]? = some f) (h : Edit f.form v v') :
      Edit (.record k) (.array (vs ++ v :: ws)) (.array (vs ++ v' :: ws))
  /-- An edit of one of several records. -/
  | item {k : Kind} (vs ws : List Value) {v v' : Value} (h : Edit (.record k) v v') :
      Edit (.records k) (.array (vs ++ v :: ws)) (.array (vs ++ v' :: ws))

/-! ## Reading forms -/

/-- What a record of a kind is read as. -/
def Kind.Record : Kind → Type
  | assembly => Assembly
  | definition => TypeDefinition
  | method => Method
  | parameter => MethodParameter
  | property => Property
  | type => TypeRef

/-- Reads a record of a kind. -/
def Kind.read? (provenance : Provenance) : (k : Kind) → (room : Nat) → Value → Option k.Record
  | assembly => Assembly.ofValueIn?
  | definition => TypeDefinition.ofValue?
  | method => Method.ofValue?
  | parameter => MethodParameter.ofValue?
  | property => Property.ofValue? provenance
  | type => TypeRef.ofValue? provenance

namespace Form

/-- What a value of a form is read as. -/
def Result : Form → Type
  | text => String
  | nullableText => Option String
  | typeKind => TypeKind
  | flag _ => Bool
  | texts => List String
  | record k => k.Record
  | records k => List k.Record

/-- What a field of the form says when it is left out, if it may be. -/
def missing? : (form : Form) → Option form.Result
  | text | record _ => none
  | nullableText => some (none : Option String)
  | typeKind => some TypeKind.reference
  | flag usual => some usual
  | texts => some ([] : List String)
  | records k => some ([] : List k.Record)

/-- Reads a value of a form. -/
def read? (provenance : Provenance) : (form : Form) → (room : Nat) → Value → Option form.Result
  | text => fun _ => Value.string?
  | nullableText => fun _ => Value.nullable? Value.string?
  | typeKind => Value.choice? TypeKind.words provenance
  | flag _ => fun _ => Value.bool?
  | texts => Value.list? fun _ => Value.string?
  | record k => k.read? provenance
  | records k => Value.list? (k.read? provenance)

variable {form : Form} {provenance : Provenance} {room : Nat} {v : Value}

theorem list?_array_nil {α : Type} (read? : Nat → Value → Option α) (room : Nat) :
    Value.list? read? room (.array []) =
      if (Value.array []).depth ≤ room then some [] else none := by
  cases room with
  | zero => rfl
  | succ room =>
    rw [if_pos (Value.depth_array_le_succ_iff.2 (List.forall_mem_nil _))]
    rfl

/-- A usual value says what is said without it, if there is room for it. -/
theorem read?_usual (hv : v ∈ form.usual) :
    form.read? provenance room v = if v.depth ≤ room then form.missing? else none := by
  cases form with
  | text => cases hv
  | record => cases hv
  | nullableText =>
    cases List.mem_singleton.1 hv
    rfl
  | flag =>
    cases List.mem_singleton.1 hv
    rfl
  | typeKind =>
    obtain rfl | hv := List.mem_cons.1 hv
    · rfl
    · cases List.mem_singleton.1 hv
      cases room with
      | zero => rfl
      | succ room =>
        rw [if_pos (Value.depth_object_le_succ_iff.2 (List.forall_mem_singleton.2 (Nat.zero_le _)))]
        cases provenance <;> rfl
  | texts =>
    cases List.mem_singleton.1 hv
    exact list?_array_nil _ room
  | records =>
    cases List.mem_singleton.1 hv
    exact list?_array_nil _ room

theorem isPlain_of_mem_usual (hv : v ∈ form.usual) : v.IsPlain := by
  cases form <;> simp [usual] at hv
  case typeKind => obtain rfl | rfl := hv <;> simp
  all_goals
    subst hv
    simp

end Form

/-! ## Reading on -/

/-- What is read from the first value is read from the second one, too, from any room that it fits
into. -/
def Carries {α : Type} (read? : Nat → Value → Option α) (room room' : Nat) (v v' : Value) : Prop :=
  ∀ x, read? room v = some x → v'.depth ≤ room' → read? room' v' = some x

namespace Carries

variable {α : Type} {read? : Nat → Value → Option α} {room room' : Nat}

/-- Arrays are carried over item by item. -/
theorem list {vs vs' : List Value}
    (h : ∀ room', List.Forall₂ (Carries read? room room') vs vs') (room' : Nat) :
    Carries (Value.list? read?) (room + 1) room' (.array vs) (.array vs') := by
  intro xs hread hdepth
  obtain ⟨inner, rfl, hitems⟩ := Value.depth_array_le_iff.1 hdepth
  have hcarry := h inner
  rw [Value.list?, mapM_eq_some_iff] at hread ⊢
  clear h hdepth
  induction hcarry generalizing xs with
  | nil =>
    cases hread
    exact .nil
  | cons hv _ ih =>
    obtain - | ⟨hx, hxs⟩ := hread
    obtain ⟨hfit, hfits⟩ := List.forall_mem_cons.1 hitems
    exact .cons (hv _ hx hfit) (ih _ hxs hfits)

theorem list_self (h : ∀ inner, room = inner + 1 → ∀ room' v, Carries read? inner room' v v)
    (room' : Nat) (v : Value) : Carries (Value.list? read?) room room' v v := by
  cases v with
  | array items =>
    cases room with
    | zero => exact fun xs hread => nomatch hread
    | succ room =>
      exact list (fun inner => List.forall₂_same.2 fun v _ => h room rfl inner v) room'
  | null | bool | number | string | textless | object =>
    cases room <;> exact fun xs hread => nomatch hread

theorem choice? (table : List (String × α)) (provenance : Provenance) (room room' : Nat)
    (v : Value) : Carries (Value.choice? table provenance) room room' v v := by
  intro x hread hdepth
  unfold Value.choice? at hread
  split at hread
  · exact hread
  · obtain ⟨inner, rfl, -⟩ := Value.depth_object_le_iff.1 hdepth
    exact hread
  · cases hread

end Carries

namespace Form

/-- The second value may stand for the first one wherever a value of the form is read. -/
structure ReadsOn (form : Form) (v v' : Value) : Prop where
  isWhole (h : v.IsWhole) : v'.IsWhole
  carries (provenance : Provenance) (room room' : Nat) :
    Carries (form.read? provenance) room room' v v'

theorem ReadsOn.trans {form : Form} {v w v' : Value} (h : form.ReadsOn v w)
    (h' : form.ReadsOn w v') : form.ReadsOn v v' where
  isWhole hv := h'.isWhole (h.isWhole hv)
  carries provenance room room' x hread :=
    -- the value in between is read from just the room that it fills
    h'.carries provenance w.depth room' x
      (h.carries provenance room w.depth x hread (Nat.le_refl _))

/-- What an edit of a record does to a field of it. -/
inductive Changes (form : Form) : Option Value → Option Value → Prop
  | same (o : Option Value) : Changes form o o
  | leftOut {v : Value} (h : v ∈ form.usual) : Changes form (some v) none
  | filledIn {v : Value} (h : v ∈ form.usual) : Changes form none (some v)
  | inside {v v' : Value} (h : form.ReadsOn v v') : Changes form (some v) (some v')

namespace Changes

variable {form : Form} {o o' : Option Value}

theorem isWhole (h : form.Changes o o') (ho : ∀ v ∈ o, v.IsWhole) : ∀ v ∈ o', v.IsWhole := by
  cases h with
  | same => exact ho
  | leftOut => exact fun _ hnone => nomatch hnone
  | filledIn hv =>
    rintro v ⟨⟩
    exact (isPlain_of_mem_usual hv).isWhole
  | inside h =>
    rintro v ⟨⟩
    exact h.isWhole (ho _ rfl)

/-- Whatever an edit does to a field, the field says what it said. -/
theorem answer {provenance : Provenance} {room room' : Nat} {x : form.Result}
    (h : form.Changes o o')
    (hstable : ∀ v, Carries (form.read? provenance) room room' v v)
    (hdepth : ∀ v ∈ o', v.depth ≤ room')
    (hx : o.elim form.missing? (form.read? provenance room) = some x) :
    o'.elim form.missing? (form.read? provenance room') = some x := by
  cases h with
  | same =>
    cases o with
    | none => exact hx
    | some v => exact hstable v x hx (hdepth v rfl)
  | leftOut hv =>
    rw [Option.elim_some, read?_usual hv] at hx
    split at hx
    · exact hx
    · cases hx
  | filledIn hv => rwa [Option.elim_some, read?_usual hv, if_pos (hdepth _ rfl)]
  | inside h => exact h.carries provenance room room' x hx (hdepth _ rfl)

end Changes

end Form

/-! ## Fields under edits -/

variable {k : Kind} {names : List String} {ms ms' : List (String × Value)} {v v' : Value}

/-- If the record has fields, the edited one has, and those of these names change in one of the
ways. -/
def FieldsChange (k : Kind) (names : List String) (v v' : Value) : Prop :=
  ∀ fields, v.fields? names = some fields → ∃ fields', v'.fields? names = some fields' ∧
    ∀ f ∈ k.fields, f.name ∈ names → f.form.Changes (fields.get? f.name) (fields'.get? f.name)

theorem FieldsChange.of_eq (h : v'.fields? names = v.fields? names) : FieldsChange k names v v' :=
  fun fields hfields => ⟨fields, h.trans hfields, fun _ _ _ => .same _⟩

/-- What an edit of an object does, as far as any part of the fields is concerned and any part of
the members. -/
structure MembersChange (k : Kind) (ms ms' : List (String × Value)) : Prop where
  fields (names : List String) (h : names ⊆ k.fieldNames) :
    FieldsChange k names (.object ms) (.object ms')
  isWhole (P : String → Prop) (h : ∀ m ∈ ms, P m.1 → m.2.IsWhole) :
    ∀ m ∈ ms', P m.1 → m.2.IsWhole

theorem membersChange_of_perm (h : ms.Perm ms') : MembersChange k ms ms' where
  fields names _ fields hfields := by
    obtain ⟨fields', hfields', hget⟩ := Json.fields?_perm h hfields
    exact ⟨fields', hfields', fun f _ _ => hget f.name ▸ .same _⟩
  isWhole P hwhole m hm := hwhole m (h.mem_iff.2 hm)

/-! ### Members -/

/-- The members with one more in front, if there is a value for it. -/
def withMember (name : String) (o : Option Value) (ms : List (String × Value)) :
    List (String × Value) := o.elim ms fun v => (name, v) :: ms

section WithMember

variable {name : String} {o o' : Option Value} {fields : Fields} {rest : List (String × Value)}

theorem fields?_eq_some_iff :
    (Value.object ms).fields? names = some fields ↔
      ((ms.filter fun m => names.contains m.1).map (·.1)).Nodup ∧
        fields = ⟨ms.filter fun m => names.contains m.1⟩ := by
  simp only [Value.fields?]
  split
  · next h => exact ⟨fun heq => ⟨h, (Option.some.inj heq).symm⟩, fun heq => heq.2 ▸ rfl⟩
  · next h => exact iff_of_false (Option.some_ne_none fields).symm fun heq => h heq.1

theorem fields?_withMember_of_notMem (hname : name ∉ names) :
    (Value.object (withMember name o ms)).fields? names = (Value.object ms).fields? names := by
  cases o with
  | none => rfl
  | some v =>
    rw [withMember, Option.elim_some, Value.fields?, Value.fields?, List.filter_cons_of_neg]
    rwa [List.contains_iff_mem]

theorem filter_contains_cons (hname : name ∈ names) (v : Value) (ms : List (String × Value)) :
    (((name, v) :: ms).filter fun m => names.contains m.1) =
      (name, v) :: ms.filter fun m => names.contains m.1 :=
  List.filter_cons_of_pos (List.contains_iff_mem.2 hname)

theorem fields?_withMember (hname : name ∈ names)
    (hrest : (Value.object ms).fields? names = some ⟨rest⟩) (hnew : name ∉ rest.map (·.1)) :
    (Value.object (withMember name o ms)).fields? names = some ⟨withMember name o rest⟩ := by
  cases o with
  | none => exact hrest
  | some v =>
    obtain ⟨hnodup, hrest⟩ := fields?_eq_some_iff.1 hrest
    cases hrest
    rw [withMember, Option.elim_some, fields?_eq_some_iff, filter_contains_cons hname,
      List.map_cons, List.nodup_cons]
    exact ⟨⟨hnew, hnodup⟩, rfl⟩

/-- Of the fields of an object one can be told from the others, which have other names. -/
theorem exists_rest_of_fields? (hname : name ∈ names) (hnew : o = none → name ∉ ms.map (·.1))
    (h : (Value.object (withMember name o ms)).fields? names = some fields) :
    ∃ rest, (Value.object ms).fields? names = some ⟨rest⟩ ∧ name ∉ rest.map (·.1) ∧
      fields = ⟨withMember name o rest⟩ := by
  cases o with
  | none =>
    refine ⟨fields.entries, h, fun hmem => hnew rfl ?_, rfl⟩
    rw [(fields?_eq_some_iff.1 h).2] at hmem
    exact List.map_subset _ (List.filter_subset_self _) hmem
  | some v =>
    rw [withMember, Option.elim_some, fields?_eq_some_iff, filter_contains_cons hname,
      List.map_cons, List.nodup_cons] at h
    obtain ⟨⟨hnew, hnodup⟩, hfields⟩ := h
    exact ⟨_, fields?_eq_some_iff.2 ⟨hnodup, rfl⟩, hnew, hfields⟩

theorem get?_withMember (hnew : name ∉ rest.map (·.1)) :
    (Fields.mk (withMember name o rest)).get? name = o := by
  cases o with
  | none =>
    rw [withMember, Option.elim_none, Fields.get?, List.lookup_eq_none_iff]
    rintro ⟨n, w⟩ hm
    have hne : name ≠ n := fun heq => hnew (heq ▸ List.mem_map_of_mem hm)
    exact bne_iff_ne.2 hne
  | some v => exact Fields.get?_cons_self v rest

theorem get?_withMember_of_ne {n : String} (h : n ≠ name) :
    (Fields.mk (withMember name o rest)).get? n = (Fields.mk rest).get? n := by
  cases o with
  | none => rfl
  | some v => exact Fields.get?_cons_of_ne h v rest

/-- Where a member is put in, left out or edited, its field is the only one that changes. -/
theorem membersChange_withMember {f : Field} (hf : f ∈ k.fields) (h : f.form.Changes o o')
    (hnew : o = none → f.name ∉ ms.map (·.1)) :
    MembersChange k (withMember f.name o ms) (withMember f.name o' ms) where
  fields names _ := by
    by_cases hname : f.name ∈ names
    · intro fields hfields
      obtain ⟨rest, hrest, hother, rfl⟩ := exists_rest_of_fields? hname hnew hfields
      refine ⟨_, fields?_withMember hname hrest hother, fun g hg _ => ?_⟩
      by_cases heq : g.name = f.name
      · cases k.eq_of_name_eq hf hg heq
        rwa [get?_withMember hother, get?_withMember hother]
      · rw [get?_withMember_of_ne heq, get?_withMember_of_ne heq]
        exact .same _
    · refine .of_eq ?_
      rw [fields?_withMember_of_notMem hname, fields?_withMember_of_notMem hname]
  isWhole P hwhole := by
    have hms : ∀ m ∈ ms, P m.1 → m.2.IsWhole := by
      intro m hm
      refine hwhole m ?_
      cases o with
      | none => exact hm
      | some v => exact List.mem_cons_of_mem _ hm
    cases ho' : o' with
    | none => exact hms
    | some v' =>
      refine List.forall_mem_cons.2 ⟨fun hP => h.isWhole ?_ v' ho', hms⟩
      rintro v ⟨⟩
      exact hwhole _ List.mem_cons_self hP

theorem membersChange_insert (hname : name ∉ k.fieldNames) (hv : v.IsPlain) :
    MembersChange k ms ((name, v) :: ms) where
  fields _ h := .of_eq (fields?_withMember_of_notMem (o := some v) fun hmem => hname (h hmem))
  isWhole _ hwhole := List.forall_mem_cons.2 ⟨fun _ => hv.isWhole, hwhole⟩

end WithMember

/-! ### Arrays -/

theorem lookup_zip {names : List String} (hnames : names.Nodup) {i : Nat} {name : String}
    (h : names[i]? = some name) (vs : List Value) : (names.zip vs).lookup name = vs[i]? := by
  induction names generalizing i vs with
  | nil => cases h
  | cons first names ih =>
    obtain ⟨hfirst, hnames⟩ := List.nodup_cons.1 hnames
    cases vs with
    | nil => rfl
    | cons v vs =>
      rw [List.zip_cons_cons, List.lookup_cons]
      cases i with
      | zero =>
        cases h
        rw [beq_self_eq_true]
        rfl
      | succ i =>
        have hmem : name ∈ names := List.mem_of_getElem? h
        rw [beq_false_of_ne (ne_of_mem_of_not_mem hmem hfirst)]
        exact ih hnames h vs

/-- In a record that is written as an array, places take the part of names. -/
theorem fieldsChange_place {f : Field} (vs ws : List Value) (hf : k.fields[vs.length]? = some f)
    (h : f.form.ReadsOn v v') :
    FieldsChange k k.fieldNames (.array (vs ++ v :: ws)) (.array (vs ++ v' :: ws)) := by
  intro fields hfields
  have hset : (vs ++ v :: ws).set vs.length v' = vs ++ v' :: ws := by simp
  have hlength : (vs ++ v' :: ws).length = (vs ++ v :: ws).length := by simp
  simp only [Value.fields?, hlength] at hfields ⊢
  split at hfields
  · next hfit =>
    cases hfields
    rw [if_pos hfit]
    refine ⟨_, rfl, fun g hg _ => ?_⟩
    obtain ⟨i, hi⟩ := List.mem_iff_getElem?.1 hg
    have hname : k.fieldNames[i]? = some g.name := by
      rw [Kind.fieldNames, List.getElem?_map, hi, Option.map_some]
    rw [Fields.get?, Fields.get?, lookup_zip k.nodup_fieldNames hname,
      lookup_zip k.nodup_fieldNames hname]
    by_cases hplace : i = vs.length
    · subst hplace
      cases hf.symm.trans hi
      rw [List.getElem?_append_right (Nat.le_refl _), List.getElem?_append_right (Nat.le_refl _),
        Nat.sub_self]
      exact .inside h
    · rw [← hset, List.getElem?_set_ne (Ne.symm hplace)]
      exact .same _
  · cases hfields

end Document

end WrapperGen
