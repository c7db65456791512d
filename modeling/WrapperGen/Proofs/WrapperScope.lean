import WrapperGen.Proofs.NameCapture
import WrapperGen.Proofs.SurfaceOrder
/-!
# The scope of a wrapper's body

Whatever the names are, a wrapper reads and writes only what is there, and it uses each of its
parameters once.

1. Statements are in scope when each of them reads parameters of the function and writes to objects
   made before it (`WellScoped`). The blocks of arguments are, each in the scope that the blocks
   before it leave (`wellScoped_arguments`, by induction on the arguments).
2. What the block of one argument puts into its object is what the surface has from its place; no
   other block writes to this object, since objects are named by their places
   (`filterMap_assigned_arguments`).
3. So the surface is read once, in order, by the call and the objects that it is given
   (`wrapper_uses_each_parameter_once`).
-/

namespace WrapperGen

/-- Statements that read parameters and write to objects which are there: those in the list, and
those which are made before they are written to. -/
inductive WellScoped (parameters : List String) : List String → List Statement → Prop where
  | nil {objects : List String} : WellScoped parameters objects []
  | construct {objects : List String} {object typeName : String} {path : ConstructionPath}
      {rest : List Statement} (hrest : WellScoped parameters (object :: objects) rest) :
      WellScoped parameters objects (.construct object typeName path :: rest)
  | assign {objects : List String} {parameter object property : String} {rest : List Statement}
      (hparameter : parameter ∈ parameters) (hobject : object ∈ objects)
      (hrest : WellScoped parameters objects rest) :
      WellScoped parameters objects (.assign parameter object property :: rest)
  | invoke {objects : List String} {target method : String} {arguments : List String}
      {rest : List Statement} (htarget : target ∈ parameters)
      (harguments : ∀ x ∈ arguments, x ∈ parameters ∨ x ∈ objects)
      (hrest : WellScoped parameters objects rest) :
      WellScoped parameters objects (.invoke target method arguments :: rest)
  | emit {objects : List String} {object : String} {rest : List Statement}
      (hobject : object ∈ objects) (hrest : WellScoped parameters objects rest) :
      WellScoped parameters objects (.emit object :: rest)

/-- The parameter that a statement puts into an object. -/
def Statement.assigned? (object : String) : Statement → Option String
  | assign parameter x _ => if x = object then some parameter else none
  | _ => none

namespace FunctionSpec

/-- The parameters that the body puts into an object, in the order in which it does. -/
def assignedTo (f : FunctionSpec) (object : String) : List String :=
  f.body.filterMap (Statement.assigned? object)

/-- The parameters that an argument of the call stands for: those that are put into the object of a
complex parameter, and otherwise the argument itself. -/
def usedFor (f : FunctionSpec) (p : Parameter) (argument : String) : List String :=
  if p.type.isComplex then f.assignedTo argument else [argument]

theorem constructionCount_eq (f : FunctionSpec) : f.constructionCount = f.objectNames.length := by
  unfold constructionCount objectNames
  rw [List.length_filterMap_eq_countP]
  congr 1
  funext s
  cases s <;> rfl

end FunctionSpec

open ParameterGroup (ofParameters surface surfaceNames)

namespace FunctionBuilder

variable {catalog : Catalog}

/-! ## Blocks in scope -/

theorem wellScoped_assigns {parameters objects : List String} {object : String}
    (hobject : object ∈ objects) {qs : List Property} (hqs : ∀ q ∈ qs, q.name ∈ parameters)
    {rest : List Statement} (hrest : WellScoped parameters objects rest) :
    WellScoped parameters objects (qs.map (assignProperty object) ++ rest) := by
  induction qs with
  | nil => exact hrest
  | cons q qs ih =>
    rw [List.forall_mem_cons] at hqs
    exact .assign hqs.1 hobject (ih hqs.2)

/-- The blocks of arguments are in scope, and so is what comes after them if it is so where the
objects of all blocks are there. -/
theorem wellScoped_arguments {parameters : List String} {ds : List (Parameter × Nat)}
    {as : List Argument} (has : List.Forall₂ (ArgumentOf catalog) ds as)
    (hread : ∀ d ∈ ds, ∀ x ∈ surfaceNames catalog d.1, x ∈ parameters) {objects : List String}
    {rest : List Statement}
    (hrest : WellScoped parameters ((Execution.objectNames ds).reverse ++ objects) rest) :
    WellScoped parameters objects (as.flatMap (·.statements) ++ rest) := by
  induction has generalizing objects with
  | nil => exact hrest
  | @cons d a ds as ha _ ih =>
    rw [List.forall_mem_cons] at hread
    cases ha with
    | simple hsimple =>
      rw [Execution.objectNames_cons_of_not_isComplex hsimple] at hrest
      exact ih hread.2 hrest
    | @complex p k typeName shape hcomplex hname hshape =>
      rw [Execution.objectNames_cons_of_isComplex hcomplex, List.reverse_cons, List.append_assoc]
        at hrest
      rw [ParameterGroup.surfaceNames_of_describe hcomplex hshape] at hread
      rw [List.flatMap_cons, List.append_assoc]
      refine .construct (wellScoped_assigns List.mem_cons_self ?_ (ih hread.2 hrest))
      intro q hq
      exact hread.1 q.name (List.mem_map_of_mem hq)

/-- Arguments are surface names or objects. -/
theorem mem_of_mem_arguments {ds : List (Parameter × Nat)} {as : List Argument}
    (has : List.Forall₂ (ArgumentOf catalog) ds as) {x : String} (hx : x ∈ as.map (·.name)) :
    (∃ d ∈ ds, x ∈ surfaceNames catalog d.1) ∨ x ∈ Execution.objectNames ds := by
  induction has with
  | nil => cases hx
  | @cons d a ds as ha _ ih =>
    rw [List.map_cons, List.mem_cons] at hx
    cases ha with
    | @simple p k hsimple =>
      rw [Execution.objectNames_cons_of_not_isComplex hsimple]
      rcases hx with rfl | hx
      · refine .inl ⟨(p, k), List.mem_cons_self, ?_⟩
        rw [ParameterGroup.surfaceNames_of_not_isComplex hsimple]
        exact List.mem_cons_self
      · exact (ih hx).imp_left fun ⟨d, hd, hmem⟩ => ⟨d, List.mem_cons_of_mem _ hd, hmem⟩
    | @complex p k typeName shape hcomplex hname hshape =>
      rw [Execution.objectNames_cons_of_isComplex hcomplex]
      rcases hx with rfl | hx
      · exact .inr List.mem_cons_self
      · exact (ih hx).imp (fun ⟨d, hd, hmem⟩ => ⟨d, List.mem_cons_of_mem _ hd, hmem⟩)
          (List.mem_cons_of_mem _)

theorem isInvoke_of_mem_arguments {ds : List (Parameter × Nat)} {as : List Argument}
    (has : List.Forall₂ (ArgumentOf catalog) ds as) :
    ∀ s ∈ as.flatMap (·.statements), s.isInvoke = false := by
  induction has with
  | nil => simp
  | @cons d a ds as ha _ ih =>
    intro s hs
    rw [List.flatMap_cons, List.mem_append] at hs
    rcases hs with hs | hs
    · cases ha with
      | simple hsimple => cases hs
      | complex hcomplex hname hshape =>
        rcases List.mem_cons.1 hs with rfl | hs
        · rfl
        · obtain ⟨q, -, rfl⟩ := List.mem_map.1 hs
          rfl
    · exact ih s hs

/-! ## What is put into objects -/

theorem filterMap_assigned_argumentBlock (object typeName : String) (shape : Shape) :
    (argumentBlock object typeName shape).filterMap (Statement.assigned? object) =
      shape.writable.map (·.name) := by
  show (shape.writable.map (assignProperty object)).filterMap _ = _
  rw [List.filterMap_map, ← List.filterMap_eq_map]
  congr 1
  funext q
  exact if_pos rfl

theorem filterMap_assigned_argumentBlock_of_ne {object other : String} (h : object ≠ other)
    (typeName : String) (shape : Shape) :
    (argumentBlock object typeName shape).filterMap (Statement.assigned? other) = [] := by
  show (shape.writable.map (assignProperty object)).filterMap _ = _
  rw [List.filterMap_map, List.filterMap_eq_nil_iff]
  intro q _
  exact if_neg h

/-- The blocks of other places leave an object alone. -/
theorem filterMap_assigned_of_notMem {ds : List (Parameter × Nat)} {as : List Argument}
    (has : List.Forall₂ (ArgumentOf catalog) ds as) {k : Nat} (hk : k ∉ ds.map Prod.snd) :
    (as.flatMap (·.statements)).filterMap (Statement.assigned? (argumentObject k)) = [] := by
  induction has with
  | nil => rfl
  | @cons d a ds as ha _ ih =>
    rw [List.map_cons, List.mem_cons, not_or] at hk
    rw [List.flatMap_cons, List.filterMap_append, ih hk.2, List.append_nil]
    cases ha with
    | simple hsimple => rfl
    | complex hcomplex hname hshape =>
      apply filterMap_assigned_argumentBlock_of_ne
      intro h
      exact hk.1 (argumentObject_injective h).symm

/-- The object of a complex parameter gets what the surface has from it. -/
theorem filterMap_assigned_arguments {ds : List (Parameter × Nat)} {as : List Argument}
    (has : List.Forall₂ (ArgumentOf catalog) ds as) (hplaces : (ds.map Prod.snd).Nodup)
    {d : Parameter × Nat} {a : Argument} (hmem : (d, a) ∈ ds.zip as)
    (hcomplex : d.1.type.isComplex = true) :
    (as.flatMap (·.statements)).filterMap (Statement.assigned? a.name) =
      surfaceNames catalog d.1 := by
  induction has with
  | nil => cases hmem
  | @cons d' a' ds as ha hrest ih =>
    rw [List.map_cons, List.nodup_cons] at hplaces
    rw [List.flatMap_cons, List.filterMap_append]
    rw [List.zip_cons_cons, List.mem_cons] at hmem
    rcases hmem with heq | hmem
    · cases heq
      cases ha with
      | simple hsimple => exact absurd hcomplex (by simp [hsimple])
      | complex _ hname hshape =>
        rw [filterMap_assigned_argumentBlock, filterMap_assigned_of_notMem hrest hplaces.1,
          List.append_nil, ParameterGroup.surfaceNames_of_describe hcomplex hshape]
    · have hd := (List.forall₂_iff_zip.1 hrest).2 hmem
      have hplace : d.2 ∈ ds.map Prod.snd := List.mem_map_of_mem (List.of_mem_zip hmem).1
      rw [ih hplaces.2 hmem]
      -- the first block belongs to another place
      have hfirst := filterMap_assigned_of_notMem (k := d.2) (.cons ha .nil) (by
        rw [List.map_singleton, List.mem_singleton]
        exact fun h => hplaces.1 (h ▸ hplace))
      rw [List.flatMap_singleton] at hfirst
      cases hd with
      | simple hsimple => exact absurd hcomplex (by simp [hsimple])
      | complex _ _ _ => rw [hfirst, List.nil_append]

/-- Objects are the arguments of complex parameters. -/
theorem objectNames_eq_arguments {ds : List (Parameter × Nat)} {as : List Argument}
    (has : List.Forall₂ (ArgumentOf catalog) ds as) :
    Execution.objectNames ds = (((ds.map Prod.fst).zip (as.map (·.name))).filter
      (·.1.type.isComplex)).map (·.2) := by
  induction has with
  | nil => rfl
  | @cons d a ds as ha _ ih =>
    rw [List.map_cons, List.map_cons, List.zip_cons_cons, List.filter_cons]
    cases ha with
    | simple hsimple =>
      rw [Execution.objectNames_cons_of_not_isComplex hsimple, ih]
      rw [if_neg (by simp [hsimple])]
    | complex hcomplex _ _ =>
      rw [Execution.objectNames_cons_of_isComplex hcomplex, ih, if_pos hcomplex]
      rfl

/-- What arguments stand for is the surface, if that of each is what the surface has from it. -/
theorem flatten_usedFor {f : FunctionSpec} {ds : List (Parameter × Nat)} {as : List Argument}
    (h : List.Forall₂ (fun d a => f.usedFor d.1 a.name = surfaceNames catalog d.1) ds as) :
    (List.zipWith f.usedFor (ds.map Prod.fst) (as.map (·.name))).flatten =
      (ds.map Prod.fst).flatMap (surfaceNames catalog) := by
  induction h with
  | nil => rfl
  | cons hd _ ih =>
    rw [List.map_cons, List.map_cons, List.zipWith_cons_cons, List.flatten_cons, hd, ih,
      List.flatMap_cons]

end FunctionBuilder

/-! ## The length of the surface -/

namespace ParameterGroup

variable {catalog : Catalog}

theorem isComplex_of_ofParameter {p : Parameter} {k : Nat} {g : ParameterGroup}
    (h : ofParameter catalog k p = .ok g) : g.isComplex = p.type.isComplex := by
  cases hp : p.type.isComplex with
  | true =>
    obtain ⟨shape, -, rfl⟩ := (ofParameter_of_isComplex hp).1 h
    rfl
  | false =>
    rw [ofParameter_of_not_isComplex hp k] at h
    cases h
    rfl

theorem countP_isComplex_of_ofParameters {ps : List Parameter} {gs : List ParameterGroup}
    (h : ofParameters catalog ps = .ok gs) :
    gs.countP (·.isComplex) = ps.countP (·.type.isComplex) := by
  have hgroups := ofParametersFrom_eq_ok_iff.1 h
  have hkinds : gs.map (·.isComplex) = ps.map (·.type.isComplex) := by
    have hfst : ps = (ps.zipIdx 0).map Prod.fst := by simp
    rw [hfst, List.map_map, ← List.forall₂_eq_eq_eq, List.forall₂_map_left_iff,
      List.forall₂_map_right_iff]
    exact hgroups.flip.imp fun g d hd => isComplex_of_ofParameter hd
  have hcount := congrArg (List.countP id) hkinds
  rwa [List.countP_map, List.countP_map] at hcount

theorem length_surface {ps : List Parameter} {gs : List ParameterGroup}
    (h : ofParameters catalog ps = .ok gs) :
    (surface gs).length = (ps.length - ps.countP (·.type.isComplex)) +
      ((gs.filter (·.isComplex)).map (·.writable.length)).sum := by
  have hlen : gs.length = ps.length := by
    rw [← (ofParametersFrom_eq_ok_iff.1 h).length_eq, List.length_zipIdx]
  have hsplit : gs.length = gs.countP (·.isComplex) + gs.countP (fun g => !g.isComplex) := by
    simpa using List.length_eq_countP_add_countP (fun g : ParameterGroup => g.isComplex) (l := gs)
  rw [hlen, countP_isComplex_of_ofParameters h] at hsplit
  rw [length_surface_eq]
  omega

end ParameterGroup

/-! ## The whole wrapper -/

/-- A wrapper for an endpoint with parameters in these groups reads and writes what is there, and
uses each of its parameters once. -/
structure UsesEachOnce (b : FunctionBuilder) (e : Endpoint) (gs : List ParameterGroup)
    (f : FunctionSpec) : Prop where
  inScope : WellScoped f.parameterNames [] f.body
  /-- There is one object for each complex parameter, and each has its own variable. -/
  constructions : f.constructionCount = e.parameters.countP (·.type.isComplex)
  distinct : f.objectNames.Nodup
  /-- The client comes first, and the parameters are numbered in their order. -/
  handle : f.parameters.head? = some b.handleParameter
  positions : f.parameters.map (·.position) = List.range f.parameters.length
  count : f.parameters.length =
    1 + (e.parameters.length - e.parameters.countP (·.type.isComplex)) +
      ((gs.filter (·.isComplex)).map (·.writable.length)).sum
  /-- The body ends with its only call, and the call is given the objects for the complex
  parameters. What its arguments stand for is the parameters after the client, in their order. -/
  call : ∃ statements arguments, f.body = statements ++ [.invoke b.handle e.method arguments] ∧
    (∀ s ∈ statements, s.isInvoke = false) ∧ arguments.length = e.parameters.length ∧
    f.objectNames = ((e.parameters.zip arguments).filter (·.1.type.isComplex)).map (·.2) ∧
    (List.zipWith f.usedFor e.parameters arguments).flatten = f.parameterNames.tail

namespace FunctionBuilder

variable {catalog : Catalog}

theorem length_objectNames (ps : List Parameter) :
    (Execution.objectNames ps.zipIdx).length = ps.countP (·.type.isComplex) := by
  have hfst : ps = ps.zipIdx.map Prod.fst := by simp
  conv_rhs => rw [hfst]
  rw [Execution.objectNames, List.length_map, ← List.countP_eq_length_filter, List.countP_map]
  rfl

/-- **A wrapper uses each of its parameters once.** Whatever the names are, its body is in scope and
ends with its only call, and the call and the objects made for it read the parameters after the
client once each, in their order. -/
theorem wrapper_uses_each_parameter_once {b : FunctionBuilder} {verb : Verb} {noun : String}
    {e : Endpoint} {gs : List ParameterGroup} {f : FunctionSpec}
    (hgs : ofParameters catalog e.parameters = .ok gs)
    (hf : b.wrapper catalog verb noun (surface gs) e = .ok f) : UsesEachOnce b e gs f := by
  have hnames := parameterNames_of_wrapper hgs hf
  have hobjects := objectNames_of_wrapper hgs hf
  obtain ⟨specs, hspecs, hspecNames, hpositions⟩ := exists_specs_of_wrapper hgs hf
  obtain ⟨as, has, hbody⟩ := body_of_wrapper hgs hf
  have hfst : e.parameters.zipIdx.map Prod.fst = e.parameters := by simp
  have hread : ∀ d ∈ e.parameters.zipIdx, ∀ x ∈ surfaceNames catalog d.1,
      x ∈ f.parameterNames := by
    intro d hd x hx
    have hparameter : d.1 ∈ e.parameters := hfst ▸ List.mem_map_of_mem hd
    rw [hnames]
    exact List.mem_cons_of_mem _ (List.mem_flatMap.2 ⟨d.1, hparameter, hx⟩)
  -- what an argument stands for does not depend on the call, which puts nothing into objects
  have hused : List.Forall₂ (fun d a => f.usedFor d.1 a.name = surfaceNames catalog d.1)
      e.parameters.zipIdx as := by
    refine List.forall₂_iff_zip.2 ⟨has.length_eq, ?_⟩
    intro d a hmem
    unfold FunctionSpec.usedFor FunctionSpec.assignedTo
    cases (List.forall₂_iff_zip.1 has).2 hmem with
    | simple hsimple =>
      rw [if_neg (by simp [hsimple]), ParameterGroup.surfaceNames_of_not_isComplex hsimple]
    | complex hcomplex hname hshape =>
      rw [if_pos hcomplex, hbody, List.filterMap_append]
      refine (List.append_nil _).trans (filterMap_assigned_arguments has ?_ hmem hcomplex)
      rw [List.zipIdx_map_snd]
      exact List.nodup_range'
  refine
    { inScope := ?inScope
      constructions := ?constructions
      distinct := ?distinct
      handle := by rw [hspecs]; rfl
      positions := ?positions
      count := ?count
      call := ⟨_, as.map (·.name), hbody, isInvoke_of_mem_arguments has, ?length, ?objects, ?used⟩ }
  case inScope =>
    rw [hbody]
    refine wellScoped_arguments has hread (.invoke ?_ ?_ .nil)
    · rw [hnames]
      exact List.mem_cons_self
    · intro x hx
      rcases mem_of_mem_arguments has hx with ⟨d, hd, hmem⟩ | hmem
      · exact .inl (hread d hd x hmem)
      · exact .inr (List.mem_append_left _ (List.mem_reverse.2 hmem))
  case constructions => rw [f.constructionCount_eq, hobjects, length_objectNames]
  case distinct =>
    rw [hobjects]
    exact nodup_objectNames e.parameters
  case positions =>
    rw [hspecs, List.map_cons, hpositions, List.range_eq_range', List.length_cons,
      List.range'_succ]
    rfl
  case count =>
    have hlength := ParameterGroup.length_surface hgs
    have hsurface := congrArg List.length (ParameterGroup.map_name_surface hgs)
    rw [← hspecNames, List.length_map, List.length_map] at hsurface
    rw [hspecs, List.length_cons, ← hsurface, hlength]
    omega
  case length => rw [List.length_map, ← has.length_eq, List.length_zipIdx]
  case objects => rw [hobjects, objectNames_eq_arguments has, hfst]
  case used =>
    have hflatten := flatten_usedFor hused
    rw [hfst] at hflatten
    rw [hflatten, hnames]
    rfl

/-- The wrapper for creating sites makes three objects, one of them without properties. -/
theorem wrapper_uses_each_parameter_once_createSite : ∃ gs f,
    ofParameters Execution.siteTable.catalog Execution.createSite.parameters = .ok gs ∧
      FunctionBuilder.default.wrapper Execution.siteTable.catalog .new "Site" (surface gs)
        Execution.createSite = .ok f ∧
      f.parameterNames = ["Sdk", "Name", "Tenant", "dryRun", "Latitude"] ∧
      f.objectNames = ["obj0", "obj2", "obj3"] ∧
      UsesEachOnce .default Execution.createSite gs f := by
  have hgs : ofParameters Execution.siteTable.catalog Execution.createSite.parameters = .ok _ := rfl
  refine ⟨_, _, hgs, rfl, by decide, by decide, ?_⟩
  exact wrapper_uses_each_parameter_once hgs
    (rfl : FunctionBuilder.default.wrapper Execution.siteTable.catalog .new "Site" _
      Execution.createSite = _)

end FunctionBuilder

end WrapperGen
