import WrapperGen.Generation.Builder
import WrapperGen.Proofs.CallSurface
/-!
# The body of a wrapper

1. The entries of the surface that come from a complex parameter make one block of statements: the
   object, then one assignment for each writable property (`argument_of_isComplex`).
2. A simple parameter is its own argument, without any statement (`argument_of_not_isComplex`).
3. The body of a wrapper is the blocks of its parameters in declared order, and then the call
   (`body_of_wrapper`).
-/

namespace WrapperGen.FunctionBuilder

variable {catalog : Catalog}

theorem resolve_eq_ok_iff {t : TypeRef} {use name : String} :
    resolve t use = .ok name ↔ t.fullName? = some name := by
  unfold resolve
  cases t.fullName? <;> simp

/-! ## Arguments -/

/-- The block of statements that puts a complex argument together. -/
def argumentBlock (object typeName : String) (shape : Shape) : List Statement :=
  .construct object typeName (.ofShape shape) :: shape.writable.map (assignProperty object)

/-- The argument that belongs to a parameter declared at a place. -/
inductive ArgumentOf (catalog : Catalog) : Parameter × Nat → Argument → Prop where
  | simple {p : Parameter} {k : Nat} (hsimple : p.type.isComplex = false) :
      ArgumentOf catalog (p, k) ⟨[], p.name⟩
  | complex {p : Parameter} {k : Nat} {typeName : String} {shape : Shape}
      (hcomplex : p.type.isComplex = true)
      (hname : p.type.unwrapNullable.fullName? = some typeName)
      (hshape : catalog.describe p.type.unwrapNullable = .ok shape) :
      ArgumentOf catalog (p, k)
        ⟨argumentBlock (argumentObject k) typeName shape, argumentObject k⟩

/-- Lifted entries are assigned as the properties that they were lifted from. -/
theorem map_assignMember_liftProperty (object : String) (g : ParameterGroup)
    (ps : List Property) :
    (ps.map g.liftProperty).map (assignMember object) = ps.map (assignProperty object) := by
  rw [List.map_map]
  rfl

theorem groupType_lifted {p : Parameter} {g : ParameterGroup} (hg : g.type = p.type)
    (ps : List Property) : groupType p (ps.map g.liftProperty) = p.type := by
  cases ps with
  | nil => rfl
  | cons q ps => exact hg

theorem buildArgument_lifted {e : Endpoint} {k : Nat} {p : Parameter} {g : ParameterGroup}
    (hg : g.type = p.type) (ps : List Property) {a : Argument}
    (h : buildArgument catalog e k p (ps.map g.liftProperty) = .ok a) :
    ∃ typeName shape, p.type.unwrapNullable.fullName? = some typeName ∧
      catalog.describe p.type.unwrapNullable = .ok shape ∧
      a = ⟨.construct (argumentObject k) typeName (.ofShape shape) ::
        ps.map (assignProperty (argumentObject k)), argumentObject k⟩ := by
  unfold buildArgument at h
  rw [groupType_lifted hg ps] at h
  obtain ⟨typeName, hname, h⟩ := bind_eq_ok_iff.1 h
  obtain ⟨shape, hshape, h⟩ := bind_eq_ok_iff.1 h
  refine ⟨typeName, shape, resolve_eq_ok_iff.1 hname, hshape, ?_⟩
  rw [← map_assignMember_liftProperty (argumentObject k) g ps]
  exact (Except.ok.inj h).symm

/-- However many properties were lifted from a complex parameter, its argument is put together. -/
theorem argument_lifted {surface : List SurfaceParameter} {e : Endpoint} {k : Nat} {p : Parameter}
    (hp : p.type.isComplex = true) (g : ParameterGroup) (ps : List Property)
    (hmembers : surface.filter (·.groupPosition == k) = ps.map g.liftProperty) :
    argument catalog surface e k p = buildArgument catalog e k p (ps.map g.liftProperty) := by
  unfold argument
  rw [hmembers]
  match ps with
  | [] => exact if_pos hp
  | [_] => exact if_pos rfl
  | _ :: _ :: _ => rfl

theorem argument_of_isComplex {surface : List SurfaceParameter} {e : Endpoint} {k : Nat}
    {p : Parameter} (hp : p.type.isComplex = true) {g : ParameterGroup}
    (hg : ParameterGroup.ofParameter catalog k p = .ok g)
    (hmembers : surface.filter (·.groupPosition == k) = g.lift) {a : Argument}
    (h : argument catalog surface e k p = .ok a) : ArgumentOf catalog (p, k) a := by
  obtain ⟨shape, hshape, rfl⟩ := (ParameterGroup.ofParameter_of_isComplex hp).1 hg
  rw [argument_lifted hp _ shape.writable hmembers] at h
  obtain ⟨typeName, shape', hname, hshape', rfl⟩ := buildArgument_lifted (by rfl) _ h
  obtain rfl : shape = shape' := Except.ok.inj (hshape.symm.trans hshape')
  exact .complex hp hname hshape

theorem argument_of_not_isComplex {surface : List SurfaceParameter} {e : Endpoint} {k : Nat}
    {p : Parameter} (hp : p.type.isComplex = false) {g : ParameterGroup}
    (hg : ParameterGroup.ofParameter catalog k p = .ok g)
    (hmembers : surface.filter (·.groupPosition == k) = g.lift) {a : Argument}
    (h : argument catalog surface e k p = .ok a) : ArgumentOf catalog (p, k) a := by
  rw [ParameterGroup.ofParameter_of_not_isComplex hp k] at hg
  obtain rfl := Except.ok.inj hg
  unfold argument at h
  rw [hmembers] at h
  obtain rfl := Except.ok.inj h
  exact .simple hp

theorem isWalk_arguments (catalog : Catalog) (surface : List SurfaceParameter) (e : Endpoint) :
    IsWalk (argument catalog surface e) (arguments catalog surface e) :=
  ⟨fun _ => rfl, fun _ _ _ => rfl⟩

theorem arguments_eq_ok_iff {surface : List SurfaceParameter} {e : Endpoint} {k : Nat}
    {ps : List Parameter} {as : List Argument} :
    arguments catalog surface e k ps = .ok as ↔
      List.Forall₂ (fun d a => argument catalog surface e d.2 d.1 = .ok a) (ps.zipIdx k) as :=
  (isWalk_arguments catalog surface e).eq_ok_iff

/-- The arguments of a call are those that belong to its parameters. -/
theorem arguments_of_surface {e : Endpoint} {gs : List ParameterGroup}
    (hgs : ParameterGroup.ofParameters catalog e.parameters = .ok gs) {as : List Argument}
    (has : arguments catalog (ParameterGroup.surface gs) e 0 e.parameters = .ok as) :
    List.Forall₂ (ArgumentOf catalog) e.parameters.zipIdx as := by
  have hargs := arguments_eq_ok_iff.1 has
  refine List.forall₂_iff_zip.2 ⟨hargs.length_eq, ?_⟩
  rintro ⟨p, k⟩ a hmem
  obtain ⟨g, hg, hmembers⟩ := ParameterGroup.exists_group hgs (List.of_mem_zip hmem).1
  have ha := (List.forall₂_iff_zip.1 hargs).2 hmem
  cases hp : p.type.isComplex with
  | true => exact argument_of_isComplex hp hg hmembers ha
  | false => exact argument_of_not_isComplex hp hg hmembers ha

/-! ## The whole body -/

/-- A wrapper is built exactly when its parameters, its arguments and its output type are. -/
theorem wrapper_eq_ok_iff {b : FunctionBuilder} {verb : Verb} {noun : String}
    {surface : List SurfaceParameter} {e : Endpoint} {f : FunctionSpec} :
    b.wrapper catalog verb noun surface e = .ok f ↔
      ∃ specs as out, surfaceParameters e 1 surface = .ok specs ∧
        arguments catalog surface e 0 e.parameters = .ok as ∧ outputType e = .ok out ∧
        f = ⟨b.functionName verb.name noun, .wrapper, b.handleParameter :: specs,
          as.flatMap (·.statements) ++ [.invoke b.handle e.method (as.map (·.name))], out⟩ := by
  unfold wrapper
  simp only [bind_eq_ok_iff]
  constructor
  · rintro ⟨specs, hspecs, as, has, out, hout, h⟩
    exact ⟨specs, as, out, hspecs, has, hout, (Except.ok.inj h).symm⟩
  · rintro ⟨specs, as, out, hspecs, has, hout, rfl⟩
    exact ⟨specs, hspecs, as, has, out, hout, rfl⟩

/-- The body is the blocks of the parameters in declared order, and then the call. -/
theorem body_of_wrapper {b : FunctionBuilder} {verb : Verb} {noun : String} {e : Endpoint}
    {gs : List ParameterGroup} {f : FunctionSpec}
    (hgs : ParameterGroup.ofParameters catalog e.parameters = .ok gs)
    (hf : b.wrapper catalog verb noun (ParameterGroup.surface gs) e = .ok f) :
    ∃ as, List.Forall₂ (ArgumentOf catalog) e.parameters.zipIdx as ∧
      f.body = as.flatMap (·.statements) ++ [.invoke b.handle e.method (as.map (·.name))] := by
  obtain ⟨-, as, -, -, has, -, rfl⟩ := wrapper_eq_ok_iff.1 hf
  exact ⟨as, arguments_of_surface hgs has, rfl⟩

end WrapperGen.FunctionBuilder
