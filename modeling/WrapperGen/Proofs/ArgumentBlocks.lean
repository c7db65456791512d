import WrapperGen.Proofs.NameCapture
/-!
# Arguments and constructor functions

A wrapper puts a complex argument together from the call surface; a constructor function makes a
value of the same type from its shape. They make it in the same way.

1. The statements about the object of an argument stand together, and they are the block for the
   shape of its type (`exists_block`, by induction on the arguments).
2. The body of a constructor function is this block under another name, and the object
   (`map_rename_argumentBlock`).
3. The parameters for the entries that come from one place are made of these entries
   (`map_parametersFrom`), so they ask for the types that the constructor function asks for.
-/

namespace WrapperGen

namespace Statement

/-- The object that a statement makes, sets a property of, or emits. -/
def subject? : Statement → Option String
  | construct object _ _ => some object
  | assign _ object _ => some object
  | invoke _ _ _ => none
  | emit object => some object

/-- The statement with another name for an object. Parameters keep their names. -/
def rename (old new : String) : Statement → Statement
  | construct object typeName path => construct (if object = old then new else object) typeName path
  | assign parameter object property =>
    assign parameter (if object = old then new else object) property
  | invoke target method arguments =>
    invoke target method (arguments.map fun x => if x = old then new else x)
  | emit object => emit (if object = old then new else object)

end Statement

namespace FunctionSpec

/-- The statements about an object, in the order of the body. -/
def statementsAbout (f : FunctionSpec) (object : String) : List Statement :=
  f.body.filter (·.subject? == some object)

/-- The parameters of a wrapper for the entries of its surface that come from a place. The first
parameter takes the client and stands for no entry. -/
def parametersFrom (f : FunctionSpec) (surface : List SurfaceParameter) (place : Nat) :
    List ParameterSpec :=
  ((surface.zip f.parameters.tail).filter (·.1.groupPosition == place)).map (·.2)

end FunctionSpec

/-- A wrapper makes its argument at a place as a constructor function makes its result. -/
structure MadeAlike (f : FunctionSpec) (surface : List SurfaceParameter) (place : Nat)
    (constructor : FunctionSpec) : Prop where
  /-- The statements about the object stand together: it is made, and then its properties are
  set. -/
  together : f.statementsAbout (FunctionBuilder.argumentObject place) <:+: f.body
  block : ∃ typeName shape, f.statementsAbout (FunctionBuilder.argumentObject place) =
    FunctionBuilder.argumentBlock (FunctionBuilder.argumentObject place) typeName shape
  /-- They are the body of the constructor function up to its end, with another object. -/
  body : ∃ statements, constructor.body = statements ++ [.emit FunctionBuilder.constructorObject] ∧
    f.statementsAbout (FunctionBuilder.argumentObject place) = statements.map
      (Statement.rename FunctionBuilder.constructorObject (FunctionBuilder.argumentObject place))
  names : (f.parametersFrom surface place).map (·.name) = constructor.parameters.map (·.name)
  typeNames : (f.parametersFrom surface place).map (·.typeName) =
    constructor.parameters.map (·.typeName)

open ParameterGroup (ofParameter ofParameters surface)

namespace FunctionBuilder

variable {catalog : Catalog}

/-! ## The block of an argument -/

theorem subject?_of_mem_argumentBlock {object typeName : String} {shape : Shape} {s : Statement}
    (hs : s ∈ argumentBlock object typeName shape) : s.subject? = some object := by
  rcases List.mem_cons.1 hs with rfl | hs
  · rfl
  · obtain ⟨q, -, rfl⟩ := List.mem_map.1 hs
    rfl

/-- A constructor function differs from the block of an argument in the name of the object. -/
theorem map_rename_argumentBlock (old new typeName : String) (shape : Shape) :
    (argumentBlock old typeName shape).map (Statement.rename old new) =
      argumentBlock new typeName shape := by
  have hassign : Statement.rename old new ∘ assignProperty old = assignProperty new := by
    funext q
    simp [Statement.rename, assignProperty]
  show Statement.construct (if old = old then new else old) typeName _ ::
    (shape.writable.map (assignProperty old)).map (Statement.rename old new) = _
  rw [if_pos rfl, List.map_map, hassign]
  rfl

/-- Statements of arguments are about the objects of their places. -/
theorem subject?_of_mem_arguments {ds : List (Parameter × Nat)} {as : List Argument}
    (has : List.Forall₂ (ArgumentOf catalog) ds as) {s : Statement}
    (hs : s ∈ as.flatMap (·.statements)) :
    ∃ k ∈ ds.map Prod.snd, s.subject? = some (argumentObject k) := by
  induction has with
  | nil => cases hs
  | @cons d a ds as ha _ ih =>
    rw [List.flatMap_cons, List.mem_append] at hs
    rcases hs with hs | hs
    · cases ha with
      | simple hsimple => cases hs
      | complex hcomplex hname hshape =>
        exact ⟨_, List.mem_cons_self, subject?_of_mem_argumentBlock hs⟩
    · obtain ⟨k, hk, hsubject⟩ := ih hs
      exact ⟨k, List.mem_cons_of_mem _ hk, hsubject⟩

theorem subject?_ne_of_mem_arguments {ds : List (Parameter × Nat)} {as : List Argument}
    (has : List.Forall₂ (ArgumentOf catalog) ds as) {k : Nat} (hk : k ∉ ds.map Prod.snd) :
    ∀ s ∈ as.flatMap (·.statements), s.subject? ≠ some (argumentObject k) := by
  intro s hs hsubject
  obtain ⟨j, hj, hsubject'⟩ := subject?_of_mem_arguments has hs
  have hjk : j = k := argumentObject_injective (Option.some.inj (hsubject'.symm.trans hsubject))
  exact hk (hjk ▸ hj)

/-- Among the statements of arguments stands the block of each complex parameter, and no other of
them is about its object. -/
theorem exists_block {ds : List (Parameter × Nat)} {as : List Argument}
    (has : List.Forall₂ (ArgumentOf catalog) ds as) (hplaces : (ds.map Prod.snd).Nodup)
    {p : Parameter} {k : Nat} (hmem : (p, k) ∈ ds) (hcomplex : p.type.isComplex = true) :
    ∃ typeName shape before after, p.type.unwrapNullable.fullName? = some typeName ∧
      catalog.describe p.type.unwrapNullable = .ok shape ∧
      as.flatMap (·.statements) =
        before ++ argumentBlock (argumentObject k) typeName shape ++ after ∧
      ∀ s ∈ before ++ after, s.subject? ≠ some (argumentObject k) := by
  induction has with
  | nil => cases hmem
  | @cons d a ds as ha hrest ih =>
    rw [List.map_cons, List.nodup_cons] at hplaces
    rw [List.flatMap_cons]
    rcases List.mem_cons.1 hmem with rfl | hmem
    · cases ha with
      | simple hsimple => exact absurd hcomplex (by simp [hsimple])
      | @complex _ _ typeName shape _ hname hshape =>
        exact ⟨typeName, shape, [], _, hname, hshape, rfl,
          subject?_ne_of_mem_arguments hrest hplaces.1⟩
    · obtain ⟨typeName, shape, before, after, hname, hshape, heq, hothers⟩ :=
        ih hplaces.2 hmem
      refine ⟨typeName, shape, a.statements ++ before, after, hname, hshape, ?_, ?_⟩
      · rw [heq, List.append_assoc, List.append_assoc, List.append_assoc]
      · -- the statements of the first argument belong to another place
        have hplace : k ∈ ds.map Prod.snd := List.mem_map_of_mem hmem
        have hfirst := subject?_ne_of_mem_arguments (k := k) (.cons ha .nil) (by
          rw [List.map_singleton, List.mem_singleton]
          exact fun h => hplaces.1 (h ▸ hplace))
        rw [List.flatMap_singleton] at hfirst
        intro s hs
        rw [List.append_assoc] at hs
        rcases List.mem_append.1 hs with hs | hs
        · exact hfirst s hs
        · exact hothers s hs

/-- Statements about an object that stand together are all that there are, if those before and after
are about no such object. -/
theorem statementsAbout_of_body {f : FunctionSpec} {object : String}
    {before block after : List Statement} (hbody : f.body = before ++ block ++ after)
    (hblock : ∀ s ∈ block, s.subject? = some object)
    (hothers : ∀ s ∈ before ++ after, s.subject? ≠ some object) :
    f.statementsAbout object = block ∧ f.statementsAbout object <:+: f.body := by
  rw [List.forall_mem_append] at hothers
  have hbefore : before.filter (·.subject? == some object) = [] :=
    List.filter_eq_nil_iff.2 fun s hs => by simpa using hothers.1 s hs
  have hafter : after.filter (·.subject? == some object) = [] :=
    List.filter_eq_nil_iff.2 fun s hs => by simpa using hothers.2 s hs
  have habout : f.statementsAbout object = block := by
    unfold FunctionSpec.statementsAbout
    rw [hbody, List.filter_append, List.filter_append, hbefore, hafter, List.append_nil,
      List.nil_append]
    exact List.filter_eq_self.2 fun s hs => by simpa using hblock s hs
  refine ⟨habout, before, after, ?_⟩
  rw [habout, hbody]

/-! ## The parameters for the entries of one place -/

theorem map_snd_filter_zip {α β γ : Type} {g : β → γ} {h : α → γ} (p : α → Bool) {l : List α}
    {m : List β} (heq : m.map g = l.map h) :
    (((l.zip m).filter (p ·.1)).map (·.2)).map g = (l.filter p).map h := by
  induction l generalizing m with
  | nil => rfl
  | cons a l ih =>
    cases m with
    | nil => cases heq
    | cons b m =>
      rw [List.map_cons, List.map_cons, List.cons.injEq] at heq
      rw [List.zip_cons_cons, List.filter_cons, List.filter_cons]
      by_cases ha : p a = true
      · rw [if_pos ha, if_pos ha, List.map_cons, List.map_cons, List.map_cons, ih heq.2, heq.1]
      · rw [if_neg ha, if_neg ha, ih heq.2]

/-- What can be told of parameters from their entries, can be told of those from one place. -/
theorem map_parametersFrom {γ : Type} {g : ParameterSpec → γ} {h : SurfaceParameter → γ}
    (hspec : ∀ k p, g (surfaceSpec k p) = h p) {f : FunctionSpec} {handle : ParameterSpec}
    {entries : List SurfaceParameter} {k : Nat}
    (hf : f.parameters = handle :: (entries.zipIdx k).map fun d => surfaceSpec d.2 d.1)
    (place : Nat) :
    (f.parametersFrom entries place).map g =
      (entries.filter (·.groupPosition == place)).map h := by
  unfold FunctionSpec.parametersFrom
  apply map_snd_filter_zip fun p : SurfaceParameter => p.groupPosition == place
  rw [hf]
  exact map_map_zipIdx surfaceSpec hspec entries k

/-! ## Both ways of making a value -/

/-- **A wrapper makes its arguments as constructor functions do.** Where a wrapper is built, there
is a constructor function under any noun for the type of each complex parameter, without its
optional wrapper. The wrapper makes the object of the parameter by the statements of this function,
and its parameters for it have the names and the types of the function's. -/
theorem arguments_made_as_constructors_do {b : FunctionBuilder} {verb : Verb} {noun : String}
    {e : Endpoint} {gs : List ParameterGroup} {f : FunctionSpec}
    (hgs : ofParameters catalog e.parameters = .ok gs)
    (hf : b.wrapper catalog verb noun (surface gs) e = .ok f) {i : Nat} {p : Parameter}
    (hi : e.parameters[i]? = some p) (hp : p.type.isComplex = true) (noun' : String) :
    ∃ c, b.constructor catalog noun' p.type.unwrapNullable = .ok c ∧
      MadeAlike f (surface gs) i c := by
  obtain ⟨specs, as, out, hspecs, has, -, heq⟩ := wrapper_eq_ok_iff.1 hf
  obtain ⟨hliterals, rfl⟩ := surfaceParameters_eq_ok_iff.1 hspecs
  have hplaces : (e.parameters.zipIdx.map Prod.snd).Nodup := by
    rw [List.zipIdx_map_snd]
    exact List.nodup_range'
  have hmem : (p, i) ∈ e.parameters.zipIdx := List.mem_zipIdx_iff_getElem?.2 hi
  obtain ⟨typeName, shape, before, after, hname, hshape, hstatements, hothers⟩ :=
    exists_block (arguments_of_surface hgs has) hplaces hmem hp
  -- what the surface has from this place is what a constructor function has parameters for
  obtain ⟨g, hg, hfrom⟩ := ParameterGroup.exists_group hgs hmem
  obtain ⟨shape', hshape', rfl⟩ := (ParameterGroup.ofParameter_of_isComplex hp).1 hg
  obtain rfl : shape = shape' := Except.ok.inj (hshape.symm.trans hshape')
  rw [ParameterGroup.lift, if_pos rfl] at hfrom
  have hsettable : ∀ q ∈ shape.writable, (literal? q.type).isSome = true := by
    intro q hq
    have hentry := hfrom ▸ List.mem_map_of_mem hq
    exact hliterals _ (List.mem_filter.1 hentry).1
  -- the call that ends the body is about no object
  have hbody : f.body = before ++ argumentBlock (argumentObject i) typeName shape ++
      (after ++ [.invoke b.handle e.method (as.map (·.name))]) := by
    rw [heq, hstatements, List.append_assoc _ after]
  have hcall : ∀ s ∈ before ++ (after ++ [.invoke b.handle e.method (as.map (·.name))]),
      s.subject? ≠ some (argumentObject i) := by
    rw [← List.append_assoc, List.forall_mem_append]
    refine ⟨hothers, ?_⟩
    intro s hs hsome
    rw [List.mem_singleton.1 hs] at hsome
    cases hsome
  obtain ⟨habout, htogether⟩ :=
    statementsAbout_of_body hbody (fun _ => subject?_of_mem_argumentBlock) hcall
  have hparameters : f.parameters = b.handleParameter ::
      ((surface gs).zipIdx 1).map fun d => surfaceSpec d.2 d.1 := by rw [heq]
  refine ⟨_, constructor_eq_ok_iff.2 ⟨typeName, shape, hname, hshape, hsettable, rfl⟩, ?_⟩
  refine
    { together := htogether
      block := ⟨typeName, shape, habout⟩
      body := ⟨_, rfl, by rw [habout, map_rename_argumentBlock]⟩
      names := ?names
      typeNames := ?typeNames }
  case names =>
    rw [map_parametersFrom (fun _ _ => rfl) hparameters, hfrom, List.map_map]
    exact (map_map_zipIdx b.propertySpec (fun _ _ => rfl) shape.writable 0).symm
  case typeNames =>
    rw [map_parametersFrom (fun _ _ => rfl) hparameters, hfrom, List.map_map]
    exact (map_map_zipIdx b.propertySpec (fun _ _ => rfl) shape.writable 0).symm

/-- The object for an optional parameter of `createSite` is a point like those of `NewPoint`. -/
theorem arguments_made_as_constructors_do_createSite : ∃ gs f c,
    ofParameters Execution.siteTable.catalog Execution.createSite.parameters = .ok gs ∧
      FunctionBuilder.default.wrapper Execution.siteTable.catalog .new "Site" (surface gs)
        Execution.createSite = .ok f ∧
      FunctionBuilder.default.constructor Execution.siteTable.catalog "Point"
        (.plain "Api.Model" "Point" .value) = .ok c ∧
      MadeAlike f (surface gs) 3 c ∧
      f.statementsAbout "obj3" =
        [.construct "obj3" "Api.Model.Point" .defaultConstructor,
          .assign "Latitude" "obj3" "Latitude"] := by
  have hgs : ofParameters Execution.siteTable.catalog Execution.createSite.parameters = .ok _ := rfl
  obtain ⟨c, hc, hmade⟩ := arguments_made_as_constructors_do hgs
    (rfl : FunctionBuilder.default.wrapper Execution.siteTable.catalog .new "Site" _
      Execution.createSite = _)
    (i := 3) rfl (by decide) "Point"
  exact ⟨_, _, c, hgs, rfl, hc, hmade, by decide⟩

end FunctionBuilder

end WrapperGen
