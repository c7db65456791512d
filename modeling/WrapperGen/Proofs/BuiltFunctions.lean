import WrapperGen.Proofs.WrapperBody
/-!
# What the builder builds

1. The parameters for a call surface, and those for settable properties, are built exactly when
   every type has a full name, and then each is made of its entry and its place
   (`surfaceParameters_eq_ok_iff`, `propertyParameters_eq_ok_iff`).
2. A constructor function is built exactly when its type has a full name and a shape and its
   parameters are built; its body is the block of an argument, and the object
   (`constructor_eq_ok_iff`).
-/

namespace WrapperGen.FunctionBuilder

/-! ## Parameters -/

/-- The full name asked for where a type is used, without the optional wrapper. -/
def literal? (t : TypeRef) : Option String := t.unwrapNullable.fullName?

/-- The parameter that an entry of the call surface makes at a position. -/
def surfaceSpec (position : Nat) (p : SurfaceParameter) : ParameterSpec :=
  ⟨p.name, literal? p.type, p.isComplex || p.type.isRequiredValue, position⟩

/-- The parameter that a settable property makes at a position. -/
def propertySpec (b : FunctionBuilder) (position : Nat) (q : Property) : ParameterSpec :=
  ⟨q.name, literal? q.type, q.type.isRequiredValue || b.isRequired q, position⟩

/-- What is made of the full name of a type is made when there is one. -/
theorem resolve_bind_eq_ok_iff {β : Type} {t : TypeRef} {use : String} (make : Option String → β)
    {b : β} :
    (resolve t use >>= fun name => (.ok (make (some name)) : Except Error β)) = .ok b ↔
      t.fullName?.isSome = true ∧ b = make t.fullName? := by
  unfold resolve
  cases t.fullName? with
  | none =>
    refine ⟨fun h => ?_, fun h => absurd h.1 Bool.false_ne_true⟩
    cases h
  | some name =>
    constructor
    · intro h
      exact ⟨rfl, (Except.ok.inj h).symm⟩
    · rintro ⟨-, rfl⟩
      rfl

theorem surfaceParameter_eq_ok_iff {e : Endpoint} {k : Nat} {p : SurfaceParameter}
    {spec : ParameterSpec} :
    surfaceParameter e k p = .ok spec ↔
      (literal? p.type).isSome = true ∧ spec = surfaceSpec k p :=
  resolve_bind_eq_ok_iff (t := p.type.unwrapNullable) fun name? : Option String =>
    (⟨p.name, name?, p.isComplex || p.type.isRequiredValue, k⟩ : ParameterSpec)

theorem propertyParameter_eq_ok_iff {b : FunctionBuilder} {typeName : String} {k : Nat}
    {q : Property} {spec : ParameterSpec} :
    b.propertyParameter typeName k q = .ok spec ↔
      (literal? q.type).isSome = true ∧ spec = b.propertySpec k q :=
  resolve_bind_eq_ok_iff (t := q.type.unwrapNullable) fun name? : Option String =>
    (⟨q.name, name?, q.type.isRequiredValue || b.isRequired q, k⟩ : ParameterSpec)

theorem isWalk_surfaceParameters (e : Endpoint) :
    IsWalk (surfaceParameter e) (surfaceParameters e) := ⟨fun _ => rfl, fun _ _ _ => rfl⟩

theorem isWalk_propertyParameters (b : FunctionBuilder) (typeName : String) :
    IsWalk (b.propertyParameter typeName) (b.propertyParameters typeName) :=
  ⟨fun _ => rfl, fun _ _ _ => rfl⟩

theorem surfaceParameters_eq_ok_iff {e : Endpoint} {k : Nat} {surface : List SurfaceParameter}
    {specs : List ParameterSpec} :
    surfaceParameters e k surface = .ok specs ↔
      (∀ p ∈ surface, (literal? p.type).isSome = true) ∧
        specs = (surface.zipIdx k).map fun d => surfaceSpec d.2 d.1 :=
  (isWalk_surfaceParameters e).eq_ok_iff_map surfaceParameter_eq_ok_iff

theorem propertyParameters_eq_ok_iff {b : FunctionBuilder} {typeName : String} {k : Nat}
    {qs : List Property} {specs : List ParameterSpec} :
    b.propertyParameters typeName k qs = .ok specs ↔
      (∀ q ∈ qs, (literal? q.type).isSome = true) ∧
        specs = (qs.zipIdx k).map fun d => b.propertySpec d.2 d.1 :=
  (isWalk_propertyParameters b typeName).eq_ok_iff_map propertyParameter_eq_ok_iff

/-! ## Constructor functions -/

theorem constructor_eq_ok_iff {catalog : Catalog} {b : FunctionBuilder} {noun : String}
    {t : TypeRef} {f : FunctionSpec} :
    b.constructor catalog noun t = .ok f ↔
      ∃ typeName shape, t.fullName? = some typeName ∧ catalog.describe t = .ok shape ∧
        (∀ q ∈ shape.writable, (literal? q.type).isSome = true) ∧
        f = ⟨b.functionName constructorVerb noun, .constructor,
          shape.writable.zipIdx.map fun d => b.propertySpec d.2 d.1,
          argumentBlock constructorObject typeName shape ++ [.emit constructorObject],
          some typeName⟩ := by
  unfold constructor
  simp only [bind_eq_ok_iff, resolve_eq_ok_iff, propertyParameters_eq_ok_iff]
  constructor
  · rintro ⟨typeName, hname, shape, hshape, specs, ⟨hliterals, rfl⟩, h⟩
    exact ⟨typeName, shape, hname, hshape, hliterals, (Except.ok.inj h).symm⟩
  · rintro ⟨typeName, shape, hname, hshape, hliterals, rfl⟩
    exact ⟨typeName, hname, shape, hshape, _, ⟨hliterals, rfl⟩, rfl⟩

end WrapperGen.FunctionBuilder
