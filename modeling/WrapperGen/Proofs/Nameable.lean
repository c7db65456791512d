import WrapperGen.Model.TypeRef
/-!
# Types that have a full name

A type is *nameable* when, from the outside in, every array has an element and every other type is
declared, with arguments that are nameable. The full name of a type exists exactly then
(`isSome_fullName?_iff`); the definition name asks for nothing but the type's own name, so a type
may be listed in a catalog and still not be nameable.
-/

namespace WrapperGen.TypeRef

/-- Proves a statement for a type from the statement for its arguments. -/
@[elab_as_elim]
theorem inductOn {P : TypeRef → Prop} (t : TypeRef)
    (step : ∀ space name kind arguments, (∀ a ∈ arguments, P a) →
      P ⟨space, name, kind, arguments⟩) : P t :=
  match t with
  | ⟨space, name, kind, arguments⟩ => step space name kind arguments fun a _ => inductOn a step
termination_by sizeOf t
decreasing_by
  have hlt := List.sizeOf_lt_of_mem ‹_ ∈ _›
  simp only [TypeRef.mk.sizeOf_spec]
  omega

/-- A type that a type literal can be written for. -/
inductive Nameable : TypeRef → Prop
  | array {space : Option String} {name : String} {element : TypeRef} {others : List TypeRef}
      (helement : Nameable element) : Nameable ⟨space, name, .array, element :: others⟩
  | declared {space : Option String} {name : String} {kind : TypeKind} {arguments : List TypeRef}
      (harray : kind ≠ .array) (hparameter : kind ≠ .genericParameter) (hname : name ≠ "")
      (hbracket : '<' ∉ name.toList) (harguments : ∀ a ∈ arguments, Nameable a) :
      Nameable ⟨space, name, kind, arguments⟩

theorem hasResolvableName_iff {kind : TypeKind} {name : String} :
    hasResolvableName kind name = true ↔
      kind ≠ .genericParameter ∧ name ≠ "" ∧ '<' ∉ name.toList := by
  simp [hasResolvableName, and_assoc]

theorem nameable_array_iff {space : Option String} {name : String} {element : TypeRef}
    {others : List TypeRef} :
    Nameable ⟨space, name, .array, element :: others⟩ ↔ Nameable element := by
  constructor
  · rintro (helement | ⟨harray, -, -, -, -⟩)
    · exact helement
    · exact absurd rfl harray
  · exact .array

theorem not_nameable_emptyArray {space : Option String} {name : String} :
    ¬ Nameable ⟨space, name, .array, []⟩ := by
  rintro (_ | ⟨harray, -, -, -, -⟩)
  exact harray rfl

theorem nameable_declared_iff {space : Option String} {name : String} {kind : TypeKind}
    {arguments : List TypeRef} (harray : kind ≠ .array) :
    Nameable ⟨space, name, kind, arguments⟩ ↔
      hasResolvableName kind name = true ∧ ∀ a ∈ arguments, Nameable a := by
  rw [hasResolvableName_iff]
  constructor
  · intro h
    cases h with
    | array helement => exact absurd rfl harray
    | declared _ hparameter hname hbracket harguments =>
      exact ⟨⟨hparameter, hname, hbracket⟩, harguments⟩
  · rintro ⟨⟨hparameter, hname, hbracket⟩, harguments⟩
    exact .declared harray hparameter hname hbracket harguments

/-! ## Full names -/

theorem isSome_fullNames?_iff {ts : List TypeRef} :
    (fullNames? ts).isSome = true ↔ ∀ t ∈ ts, (fullName? t).isSome = true := by
  induction ts with
  | nil => simp [fullNames?]
  | cons t ts ih =>
    rw [List.forall_mem_cons, ← ih, fullNames?]
    cases fullName? t <;> cases fullNames? ts <;> simp

theorem isSome_fullName?_array {space : Option String} {name : String} {element : TypeRef}
    {others : List TypeRef} :
    (fullName? ⟨space, name, .array, element :: others⟩).isSome = (fullName? element).isSome := by
  simp [fullName?]

theorem isSome_fullName?_declared_iff {space : Option String} {name : String} {kind : TypeKind}
    {arguments : List TypeRef} (harray : kind ≠ .array) :
    (fullName? ⟨space, name, kind, arguments⟩).isSome = true ↔
      hasResolvableName kind name = true ∧ ∀ a ∈ arguments, (fullName? a).isSome = true := by
  rw [← isSome_fullNames?_iff]
  cases arguments with
  | nil =>
    rw [fullName?, fullNames?]
    · simp
    · exact harray
  | cons first rest =>
    rw [fullName?, fullNames?]
    · cases fullName? first <;> cases fullNames? rest <;> simp
    · exact harray

/-- A type has a full name exactly when it is nameable. -/
theorem isSome_fullName?_iff {t : TypeRef} : t.fullName?.isSome = true ↔ t.Nameable := by
  induction t using inductOn with
  | step space name kind arguments ih =>
    by_cases harray : kind = .array
    · subst harray
      cases arguments with
      | nil => simp [fullName?, not_nameable_emptyArray]
      | cons element others =>
        rw [isSome_fullName?_array, ih element List.mem_cons_self, nameable_array_iff]
    · rw [isSome_fullName?_declared_iff harray, nameable_declared_iff harray]
      exact and_congr_right fun _ => forall₂_congr ih

instance : DecidablePred Nameable := fun _ => decidable_of_iff _ isSome_fullName?_iff

end WrapperGen.TypeRef
