import WrapperGen.Model.TypeRef
/-!
# Optional types

The optional wrapper around a type is taken off once. So whether a type is complex depends only on
what is under its wrapper (`isComplex_congr`). Where that is itself a wrapper, it counts as complex,
unless its kind makes it an enumeration (`isComplex_nullable_of_some`).
-/

namespace WrapperGen.TypeRef

theorem nullableUnderlying?_eq_some_iff {t u : TypeRef} :
    t.nullableUnderlying? = some u ↔
      t.space = some systemSpace ∧ t.name = nullableName ∧ t.arguments = [u] := by
  unfold nullableUnderlying?
  match ht : t.arguments with
  | [] => simp
  | [inner] => simp [and_assoc]
  | _ :: _ :: _ => simp

@[simp] theorem nullableUnderlying?_nullable (t : TypeRef) :
    t.nullable.nullableUnderlying? = some t := nullableUnderlying?_eq_some_iff.2 ⟨rfl, rfl, rfl⟩

theorem unwrapNullable_of_some {t u : TypeRef} (h : t.nullableUnderlying? = some u) :
    t.unwrapNullable = u := by
  unfold unwrapNullable
  rw [h]
  rfl

theorem unwrapNullable_of_none {t : TypeRef} (h : t.nullableUnderlying? = none) :
    t.unwrapNullable = t := by
  unfold unwrapNullable
  rw [h]
  rfl

@[simp] theorem unwrapNullable_nullable (t : TypeRef) : t.nullable.unwrapNullable = t :=
  unwrapNullable_of_some (nullableUnderlying?_nullable t)

/-- Types with the same type under their wrappers are complex alike. -/
theorem isComplex_congr {s t : TypeRef} (h : s.unwrapNullable = t.unwrapNullable) :
    s.isComplex = t.isComplex := by
  unfold isComplex
  rw [h]

theorem isComplex_nullable_of_none {t : TypeRef} (h : t.nullableUnderlying? = none) :
    t.nullable.isComplex = t.isComplex :=
  isComplex_congr ((unwrapNullable_nullable t).trans (unwrapNullable_of_none h).symm)

theorem isComplex_nullable_of_some {t u : TypeRef} (h : t.nullableUnderlying? = some u) :
    t.nullable.isComplex = !t.isEnumeration := by
  obtain ⟨-, -, harguments⟩ := nullableUnderlying?_eq_some_iff.1 h
  unfold isComplex
  simp [harguments]

end WrapperGen.TypeRef
