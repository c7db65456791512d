import WrapperGen.Proofs.BuiltFunctions
import WrapperGen.Proofs.Reconstruction
import WrapperGen.Text.Delimited
/-!
# Captured names

A builder invents names: one for the client, `obj` for the object of a constructor function, and
`obj` with a number for the object of an argument. Names of parameters and properties come from
elsewhere, and nothing keeps them apart from the invented ones (`capture_happens`). What can be said
is when they meet.

1. The objects of a wrapper have the names that belong to the places of its complex parameters, and
   no two of them share one (`objectNames_of_wrapper`, `nodup_objectNames`).
2. Its parameters have the name of the client and those on the call surface
   (`parameterNames_of_wrapper`).
3. So an invented name is captured exactly where a surface name is spelled like it
   (`captured_iff_spelled`).
-/

namespace WrapperGen

/-- The variable that a statement binds to a fresh object. -/
def Statement.constructed? : Statement → Option String
  | construct object _ _ => some object
  | _ => none

namespace FunctionSpec

/-- The variables that the body binds to fresh objects, in the order in which it does. -/
def objectNames (f : FunctionSpec) : List String := f.body.filterMap Statement.constructed?

def parameterNames (f : FunctionSpec) : List String := f.parameters.map (·.name)

/-- The body binds a variable that has the name of a parameter. -/
def CapturesObject (f : FunctionSpec) : Prop := ∃ x ∈ f.objectNames, x ∈ f.parameterNames

/-- A parameter after the first has the name of the client. -/
def CapturesHandle (f : FunctionSpec) (handle : String) : Prop :=
  ∃ p ∈ f.parameters, 0 < p.position ∧ p.name = handle

instance (f : FunctionSpec) : Decidable f.CapturesObject :=
  inferInstanceAs (Decidable (∃ x ∈ f.objectNames, x ∈ f.parameterNames))

instance (f : FunctionSpec) (handle : String) : Decidable (f.CapturesHandle handle) :=
  inferInstanceAs (Decidable (∃ p ∈ f.parameters, 0 < p.position ∧ p.name = handle))

end FunctionSpec

open ParameterGroup (ofParameters surface surfaceNames)

namespace FunctionBuilder

variable {catalog : Catalog}

/-! ## Objects -/

theorem filterMap_constructed_assigns (object : String) (qs : List Property) :
    (qs.map (assignProperty object)).filterMap Statement.constructed? = [] := by
  rw [List.filterMap_map]
  exact List.filterMap_eq_nil_iff.2 fun _ _ => rfl

theorem filterMap_constructed_argumentBlock (object typeName : String) (shape : Shape) :
    (argumentBlock object typeName shape).filterMap Statement.constructed? = [object] := by
  show object :: _ = [object]
  rw [filterMap_constructed_assigns]

/-- The blocks of parameters bind one variable for each complex one. -/
theorem filterMap_constructed_arguments {ds : List (Parameter × Nat)} {as : List Argument}
    (h : List.Forall₂ (ArgumentOf catalog) ds as) :
    (as.flatMap (·.statements)).filterMap Statement.constructed? = Execution.objectNames ds := by
  induction h with
  | nil => rfl
  | @cons d a ds as ha _ ih =>
    rw [List.flatMap_cons, List.filterMap_append, ih]
    cases ha with
    | simple hsimple =>
      rw [Execution.objectNames_cons_of_not_isComplex hsimple]
      rfl
    | complex hcomplex _ _ =>
      rw [Execution.objectNames_cons_of_isComplex hcomplex, filterMap_constructed_argumentBlock]
      rfl

theorem objectNames_of_wrapper {b : FunctionBuilder} {verb : Verb} {noun : String} {e : Endpoint}
    {gs : List ParameterGroup} {f : FunctionSpec}
    (hgs : ofParameters catalog e.parameters = .ok gs)
    (hf : b.wrapper catalog verb noun (surface gs) e = .ok f) :
    f.objectNames = Execution.objectNames e.parameters.zipIdx := by
  obtain ⟨as, has, hbody⟩ := body_of_wrapper hgs hf
  unfold FunctionSpec.objectNames
  rw [hbody, List.filterMap_append, filterMap_constructed_arguments has]
  exact List.append_nil _

theorem argumentObject_injective {i j : Nat} (h : argumentObject i = argumentObject j) :
    i = j := Text.toString_nat_injective ((String.append_right_inj _).1 h)

/-- The objects of a wrapper have different names. -/
theorem nodup_objectNames (ps : List Parameter) : (Execution.objectNames ps.zipIdx).Nodup := by
  have hplaces : (ps.zipIdx.map Prod.snd).Nodup := by
    rw [List.zipIdx_map_snd]
    exact List.nodup_range'
  -- the places are numbered apart, and the name of an object tells its place
  have hall := hplaces.map fun _ _ => argumentObject_injective
  rw [List.map_map] at hall
  exact hall.sublist (List.filter_sublist.map _)

theorem mem_objectNames_iff {ps : List Parameter} {x : String} :
    x ∈ Execution.objectNames ps.zipIdx ↔
      ∃ i p, ps[i]? = some p ∧ p.type.isComplex = true ∧ x = argumentObject i := by
  unfold Execution.objectNames
  rw [List.mem_map]
  constructor
  · rintro ⟨⟨p, i⟩, hd, rfl⟩
    obtain ⟨hmem, hp⟩ := List.mem_filter.1 hd
    exact ⟨i, p, List.mem_zipIdx_iff_getElem?.1 hmem, hp, rfl⟩
  · rintro ⟨i, p, hi, hp, rfl⟩
    exact ⟨(p, i), List.mem_filter.2 ⟨List.mem_zipIdx_iff_getElem?.2 hi, hp⟩, rfl⟩

theorem objectNames_of_constructor {b : FunctionBuilder} {noun : String} {t : TypeRef}
    {f : FunctionSpec} (hf : b.constructor catalog noun t = .ok f) :
    f.objectNames = [constructorObject] := by
  obtain ⟨typeName, shape, -, -, -, rfl⟩ := constructor_eq_ok_iff.1 hf
  unfold FunctionSpec.objectNames
  rw [List.filterMap_append, filterMap_constructed_argumentBlock]
  exact List.append_nil _

/-! ## Parameters -/

theorem exists_specs_of_wrapper {b : FunctionBuilder} {verb : Verb} {noun : String} {e : Endpoint}
    {gs : List ParameterGroup} {f : FunctionSpec}
    (hgs : ofParameters catalog e.parameters = .ok gs)
    (hf : b.wrapper catalog verb noun (surface gs) e = .ok f) :
    ∃ specs, f.parameters = b.handleParameter :: specs ∧
      specs.map (·.name) = e.parameters.flatMap (surfaceNames catalog) ∧
      specs.map (·.position) = List.range' 1 specs.length := by
  obtain ⟨specs, as, out, hspecs, -, -, rfl⟩ := wrapper_eq_ok_iff.1 hf
  obtain ⟨-, rfl⟩ := surfaceParameters_eq_ok_iff.1 hspecs
  refine ⟨_, rfl, ?_, ?_⟩
  · rw [← ParameterGroup.map_name_surface hgs]
    exact map_map_zipIdx surfaceSpec (fun _ _ => rfl) (surface gs) 1
  · rw [List.map_map, List.length_map, List.length_zipIdx]
    exact List.zipIdx_map_snd 1 (surface gs)

theorem parameterNames_of_wrapper {b : FunctionBuilder} {verb : Verb} {noun : String}
    {e : Endpoint} {gs : List ParameterGroup} {f : FunctionSpec}
    (hgs : ofParameters catalog e.parameters = .ok gs)
    (hf : b.wrapper catalog verb noun (surface gs) e = .ok f) :
    f.parameterNames = b.handle :: e.parameters.flatMap (surfaceNames catalog) := by
  obtain ⟨specs, hspecs, hnames, -⟩ := exists_specs_of_wrapper hgs hf
  unfold FunctionSpec.parameterNames
  rw [hspecs, List.map_cons, hnames]
  rfl

theorem parameterNames_of_constructor {b : FunctionBuilder} {noun : String} {t : TypeRef}
    {f : FunctionSpec} (hf : b.constructor catalog noun t = .ok f) :
    ∃ shape, catalog.describe t = .ok shape ∧ f.parameterNames = shape.writable.map (·.name) := by
  obtain ⟨typeName, shape, -, hshape, -, rfl⟩ := constructor_eq_ok_iff.1 hf
  exact ⟨shape, hshape, map_map_zipIdx b.propertySpec (fun _ _ => rfl) shape.writable 0⟩

/-! ## Captured names -/

theorem capturesHandle_of_wrapper_iff {b : FunctionBuilder} {verb : Verb} {noun : String}
    {e : Endpoint} {gs : List ParameterGroup} {f : FunctionSpec}
    (hgs : ofParameters catalog e.parameters = .ok gs)
    (hf : b.wrapper catalog verb noun (surface gs) e = .ok f) :
    f.CapturesHandle b.handle ↔ ∃ p ∈ e.parameters, b.handle ∈ surfaceNames catalog p := by
  obtain ⟨specs, hspecs, hnames, hpositions⟩ := exists_specs_of_wrapper hgs hf
  rw [← List.mem_flatMap, ← hnames, List.mem_map]
  unfold FunctionSpec.CapturesHandle
  rw [hspecs]
  constructor
  · rintro ⟨spec, hmem, hposition, hname⟩
    rcases List.mem_cons.1 hmem with rfl | hmem
    · exact absurd hposition (Nat.lt_irrefl 0)
    · exact ⟨spec, hmem, hname⟩
  · rintro ⟨spec, hmem, hname⟩
    have hposition : spec.position ∈ specs.map (·.position) := List.mem_map_of_mem hmem
    rw [hpositions, List.mem_range'_1] at hposition
    exact ⟨spec, List.mem_cons_of_mem _ hmem, hposition.1, hname⟩

/-- **Names are captured where they are spelled alike, and nowhere else.** The objects of a wrapper
have different names. One of them is also a parameter exactly when the client or an entry of the
call surface is spelled like the object of a complex parameter, and a later parameter has the name
of the client exactly when an entry of the call surface is spelled like it. The object of a
constructor function is a parameter exactly when a settable property is spelled like it. -/
theorem captured_iff_spelled :
    (∀ (catalog : Catalog) (b : FunctionBuilder) (verb : Verb) (noun : String) (e : Endpoint)
      (gs : List ParameterGroup) (f : FunctionSpec),
      ofParameters catalog e.parameters = .ok gs →
      b.wrapper catalog verb noun (surface gs) e = .ok f →
      f.objectNames.Nodup ∧
      (f.CapturesObject ↔ ∃ i p, e.parameters[i]? = some p ∧ p.type.isComplex = true ∧
        (argumentObject i = b.handle ∨
          ∃ q ∈ e.parameters, argumentObject i ∈ surfaceNames catalog q)) ∧
      (f.CapturesHandle b.handle ↔
        ∃ q ∈ e.parameters, b.handle ∈ surfaceNames catalog q)) ∧
    ∀ (catalog : Catalog) (b : FunctionBuilder) (noun : String) (t : TypeRef) (f : FunctionSpec),
      b.constructor catalog noun t = .ok f →
      (f.CapturesObject ↔ ∃ shape, catalog.describe t = .ok shape ∧
        ∃ q ∈ shape.writable, q.name = constructorObject) := by
  constructor
  · intro catalog b verb noun e gs f hgs hf
    have hobjects := objectNames_of_wrapper hgs hf
    refine ⟨?_, ?_, capturesHandle_of_wrapper_iff hgs hf⟩
    · rw [hobjects]
      exact nodup_objectNames e.parameters
    · unfold FunctionSpec.CapturesObject
      rw [hobjects, parameterNames_of_wrapper hgs hf]
      simp only [mem_objectNames_iff, List.mem_cons, List.mem_flatMap]
      constructor
      · rintro ⟨x, ⟨i, p, hi, hp, rfl⟩, hx⟩
        exact ⟨i, p, hi, hp, hx⟩
      · rintro ⟨i, p, hi, hp, hx⟩
        exact ⟨argumentObject i, ⟨i, p, hi, hp, rfl⟩, hx⟩
  · intro catalog b noun t f hf
    obtain ⟨shape, hshape, hnames⟩ := parameterNames_of_constructor hf
    unfold FunctionSpec.CapturesObject
    rw [objectNames_of_constructor hf, hnames, hshape]
    simp

/-- A type whose properties are spelled like invented names. -/
def ballTable : ShapeTable :=
  .ofList [("Api.Model.Ball", .ofProperties [
    .plain "obj" (.plain "System" "String" .reference),
    .plain "obj0" (.plain "System" "String" .reference),
    .plain "Sdk" (.plain "System" "String" .reference)])]

def ball : TypeRef := .plain "Api.Model" "Ball" .reference

def createBall : Endpoint := .ofParameters "BallApi" "CreateBall" .void [("ball", ball)]

/-- All three invented names of the functions for balls are captured. -/
theorem captured_iff_spelled_ball : ∃ gs f g,
    ofParameters ballTable.catalog createBall.parameters = .ok gs ∧
      FunctionBuilder.default.wrapper ballTable.catalog .new "Ball" (surface gs) createBall =
        .ok f ∧
      FunctionBuilder.default.constructor ballTable.catalog "Ball" ball = .ok g ∧
      f.CapturesObject ∧ f.CapturesHandle "Sdk" ∧ g.CapturesObject := by
  have hgs : ofParameters ballTable.catalog createBall.parameters = .ok _ := rfl
  have hg : FunctionBuilder.default.constructor ballTable.catalog "Ball" ball = .ok _ := rfl
  obtain ⟨hwrapper, hconstructor⟩ := captured_iff_spelled
  obtain ⟨-, hobject, hhandle⟩ := hwrapper _ .default .new "Ball" createBall _ _ hgs rfl
  refine ⟨_, _, _, hgs, rfl, hg, hobject.2 ?_, hhandle.2 ?_, (hconstructor _ _ _ _ _ hg).2 ?_⟩
  · exact ⟨0, _, rfl, by decide, .inr (by decide)⟩
  · decide
  · exact ⟨_, rfl, by decide⟩

/-- **Nothing keeps invented names apart.** It is not so that no object of a wrapper is a parameter,
nor that no later parameter has the name of the client, nor that no object of a constructor function
is a parameter. -/
theorem capture_happens :
    (¬ ∀ (catalog : Catalog) (b : FunctionBuilder) (verb : Verb) (noun : String) (e : Endpoint)
      (gs : List ParameterGroup) (f : FunctionSpec),
      ofParameters catalog e.parameters = .ok gs →
      b.wrapper catalog verb noun (surface gs) e = .ok f → ¬ f.CapturesObject) ∧
    (¬ ∀ (catalog : Catalog) (b : FunctionBuilder) (verb : Verb) (noun : String) (e : Endpoint)
      (gs : List ParameterGroup) (f : FunctionSpec),
      ofParameters catalog e.parameters = .ok gs →
      b.wrapper catalog verb noun (surface gs) e = .ok f → ¬ f.CapturesHandle b.handle) ∧
    ¬ ∀ (catalog : Catalog) (b : FunctionBuilder) (noun : String) (t : TypeRef)
      (f : FunctionSpec), b.constructor catalog noun t = .ok f → ¬ f.CapturesObject := by
  refine ⟨fun h => ?_, fun h => ?_, fun h => ?_⟩
  · exact h ballTable.catalog .default .new "Ball" createBall _ _ rfl rfl (by decide)
  · exact h ballTable.catalog .default .new "Ball" createBall _ _ rfl rfl (by decide)
  · exact h ballTable.catalog .default "Ball" ball _ rfl (by decide)

end FunctionBuilder

end WrapperGen
