import WrapperGen.Proofs.CallSurface
import WrapperGen.Proofs.OptionalTypes
import WrapperGen.Surface.Nested
/-!
# Nested types and the call surface

A caller has to make a value for each complex entry lifted to the call surface, and a run offers a
constructor function for each nested type. Entries are classified as they are declared; nested types
are classified once more after their wrapper is taken off, which takes off another one.

1. Both come from the types that are lifted: the nested ones are those that are complex
   (`mem_nestedTypes_iff`), the complex entries those whose optional form is
   (`mem_complexSurfaceTypes_iff`).
2. So they agree on every type that is no wrapper itself, and what is wrapped twice may be on one
   side only (`nested_types_agree_unless_wrapped_twice`, `doubly_wrapped_type_not_offered`).
-/

namespace WrapperGen.ParameterGroup

/-- The types of the entries lifted to the call surface, each without its optional wrapper. -/
def liftedTypes (gs : List ParameterGroup) : List TypeRef :=
  ((surface gs).filter (·.isLifted)).map (·.type.unwrapNullable)

/-- The types of the complex entries among them, of which the caller has to make values. -/
def complexSurfaceTypes (gs : List ParameterGroup) : List TypeRef :=
  ((surface gs).filter fun p => p.isLifted && p.isComplex).map (·.type.unwrapNullable)

/-- The lifted entries of a group are those of its settable properties. -/
theorem mem_lift_and_isLifted_iff {g : ParameterGroup} {p : SurfaceParameter} :
    p ∈ g.lift ∧ p.isLifted = true ↔
      g.isComplex = true ∧ ∃ q ∈ g.writable, p = g.liftProperty q := by
  unfold lift
  cases hg : g.isComplex with
  | true =>
    rw [if_pos rfl, List.mem_map]
    constructor
    · rintro ⟨⟨q, hq, rfl⟩, -⟩
      exact ⟨rfl, q, hq, rfl⟩
    · rintro ⟨-, q, hq, rfl⟩
      exact ⟨⟨q, hq, rfl⟩, rfl⟩
  | false =>
    rw [if_neg Bool.false_ne_true, List.mem_singleton]
    constructor
    · rintro ⟨rfl, h⟩
      exact absurd h Bool.false_ne_true
    · rintro ⟨h, -⟩
      exact absurd h Bool.false_ne_true

theorem mem_propertyTypes_iff {g : ParameterGroup} {t : TypeRef} :
    t ∈ g.propertyTypes ↔ ∃ p ∈ g.lift, p.isLifted = true ∧ p.type.unwrapNullable = t := by
  have hlift : (∃ p ∈ g.lift, p.isLifted = true ∧ p.type.unwrapNullable = t) ↔
      g.isComplex = true ∧ ∃ q ∈ g.writable, q.type.unwrapNullable = t := by
    constructor
    · rintro ⟨p, hp, hlifted, rfl⟩
      obtain ⟨hg, q, hq, rfl⟩ := mem_lift_and_isLifted_iff.1 ⟨hp, hlifted⟩
      exact ⟨hg, q, hq, rfl⟩
    · rintro ⟨hg, q, hq, rfl⟩
      obtain ⟨hp, hlifted⟩ := mem_lift_and_isLifted_iff.2 ⟨hg, q, hq, rfl⟩
      exact ⟨_, hp, hlifted, rfl⟩
  rw [hlift]
  unfold propertyTypes
  cases g.isComplex <;> simp

theorem mem_liftedTypes_iff {gs : List ParameterGroup} {t : TypeRef} :
    t ∈ liftedTypes gs ↔ ∃ g ∈ gs, t ∈ g.propertyTypes := by
  unfold liftedTypes
  simp only [List.mem_map, List.mem_filter, mem_surface, mem_propertyTypes_iff]
  constructor
  · rintro ⟨p, ⟨⟨g, hg, hp⟩, hlifted⟩, ht⟩
    exact ⟨g, hg, p, hp, hlifted, ht⟩
  · rintro ⟨g, hg, p, hp, hlifted, ht⟩
    exact ⟨p, ⟨⟨g, hg, hp⟩, hlifted⟩, ht⟩

theorem mem_nestedTypes_iff {gs : List ParameterGroup} {t : TypeRef} :
    t ∈ nestedTypes gs ↔ t ∈ liftedTypes gs ∧ t.isComplex = true := by
  unfold nestedTypes
  rw [mem_firstSeen, List.mem_filter, List.mem_flatMap, mem_liftedTypes_iff]

/-- An entry is classified as if its type were optional. -/
theorem isComplex_of_mem_surface {gs : List ParameterGroup} {p : SurfaceParameter}
    (hp : p ∈ surface gs) (hlifted : p.isLifted = true) :
    p.isComplex = p.type.unwrapNullable.nullable.isComplex := by
  obtain ⟨g, -, hmem⟩ := mem_surface.1 hp
  obtain ⟨-, q, -, rfl⟩ := mem_lift_and_isLifted_iff.1 ⟨hmem, hlifted⟩
  exact TypeRef.isComplex_congr (TypeRef.unwrapNullable_nullable _).symm

theorem mem_complexSurfaceTypes_iff {gs : List ParameterGroup} {t : TypeRef} :
    t ∈ complexSurfaceTypes gs ↔ t ∈ liftedTypes gs ∧ t.nullable.isComplex = true := by
  unfold complexSurfaceTypes liftedTypes
  simp only [List.mem_map, List.mem_filter, Bool.and_eq_true]
  constructor
  · rintro ⟨p, ⟨hp, hlifted, hcomplex⟩, rfl⟩
    rw [isComplex_of_mem_surface hp hlifted] at hcomplex
    exact ⟨⟨p, ⟨hp, hlifted⟩, rfl⟩, hcomplex⟩
  · rintro ⟨⟨p, ⟨hp, hlifted⟩, rfl⟩, hcomplex⟩
    rw [← isComplex_of_mem_surface hp hlifted] at hcomplex
    exact ⟨p, ⟨hp, hlifted, hcomplex⟩, rfl⟩

/-- **Nested types are those of the complex entries, unless they are wrapped twice.** No nested type
is listed twice. A type that is no wrapper itself is nested exactly when it is the type of a complex
entry. A lifted type that still is a wrapper belongs to a complex entry unless its kind makes it an
enumeration, and is nested exactly when it is complex without its second wrapper. -/
theorem nested_types_agree_unless_wrapped_twice (gs : List ParameterGroup) :
    (nestedTypes gs).Nodup ∧
      (∀ t : TypeRef, t.nullableUnderlying? = none →
        (t ∈ nestedTypes gs ↔ t ∈ complexSurfaceTypes gs)) ∧
      ∀ t u : TypeRef, t.nullableUnderlying? = some u →
        (t ∈ complexSurfaceTypes gs ↔ t ∈ liftedTypes gs ∧ t.isEnumeration = false) ∧
        (t ∈ nestedTypes gs ↔ t ∈ liftedTypes gs ∧ t.isComplex = true) := by
  refine ⟨nodup_firstSeen _, ?_, ?_⟩
  · intro t ht
    rw [mem_nestedTypes_iff, mem_complexSurfaceTypes_iff, TypeRef.isComplex_nullable_of_none ht]
  · intro t u ht
    refine ⟨?_, mem_nestedTypes_iff⟩
    rw [mem_complexSurfaceTypes_iff, TypeRef.isComplex_nullable_of_some ht, Bool.not_eq_true']

/-- A request for numbers of slots: a tenant for them, and a number that is optional twice. -/
def slotRequest : ParameterGroup :=
  ⟨"request", .plain "Api.Model" "SlotRequest" .reference, true,
    [.plain "Tenant" (.plain "Api.Model" "Tenant" .reference),
      .plain "Count" (.nullable (.nullable (.plain "System" "Int32" .value)))], 0⟩

theorem nested_types_agree_unless_wrapped_twice_slotRequest :
    let tenant := TypeRef.plain "Api.Model" "Tenant" .reference
    let count := (TypeRef.plain "System" "Int32" .value).nullable
    tenant ∈ nestedTypes [slotRequest] ∧ count ∈ complexSurfaceTypes [slotRequest] := by
  obtain ⟨-, hdeclared, hwrapped⟩ := nested_types_agree_unless_wrapped_twice [slotRequest]
  exact ⟨(hdeclared _ (by decide)).2 (by decide),
    (hwrapped _ _ (TypeRef.nullableUnderlying?_nullable _)).1.2 ⟨by decide, by decide⟩⟩

/-- **A type that is wrapped twice has no function.** The number of slots is a complex entry, so a
caller has to supply it, but its type is not among the nested ones. -/
theorem doubly_wrapped_type_not_offered :
    ¬ ∀ (gs : List ParameterGroup) (t : TypeRef),
      t ∈ nestedTypes gs ↔ t ∈ complexSurfaceTypes gs := by
  intro h
  have hcount := (h [slotRequest] (TypeRef.plain "System" "Int32" .value).nullable).2 (by decide)
  exact absurd hcount (by decide)

end WrapperGen.ParameterGroup
