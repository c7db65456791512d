import WrapperGen.Proofs.Execution
/-!
# What calling a wrapper does

A wrapper whose names do not collide calls its endpoint once, with one argument for each declared
parameter: the caller's value for a simple one, and for a complex one a fresh object on which just
the supplied properties are set.

1. Running the blocks of the parameters binds each object's variable to a fresh object and leaves
   every other variable alone (`run_blocks`, by induction on the parameters).
2. What a later block does leaves the objects of earlier ones as they are, since objects are only
   added to the store, and the variables that a block reads are bound by no block.
3. The call comes last and sees all objects (`wrapper_calls_endpoint`).
-/

namespace WrapperGen.Execution

open FunctionBuilder (ArgumentOf argumentObject argumentBlock)
open ParameterGroup (surfaceNames)

variable {α : Type} {catalog : Catalog} {supplied : String → Bool}

/-! ## Names -/

/-- The variables that are bound to objects, for parameters with their places. -/
def objectNames (ds : List (Parameter × Nat)) : List String :=
  (ds.filter (·.1.type.isComplex)).map fun d => argumentObject d.2

/-- All names in a wrapper for an endpoint: the client, the surface, and the objects. -/
def callNames (b : FunctionBuilder) (e : Endpoint) (surface : List SurfaceParameter) :
    List String :=
  b.handle :: surface.map (·.name) ++ objectNames e.parameters.zipIdx

theorem objectNames_cons_of_isComplex {d : Parameter × Nat} (h : d.1.type.isComplex = true)
    (ds : List (Parameter × Nat)) :
    objectNames (d :: ds) = argumentObject d.2 :: objectNames ds := by
  unfold objectNames
  rw [List.filter_cons, if_pos h, List.map_cons]

theorem objectNames_cons_of_not_isComplex {d : Parameter × Nat} (h : d.1.type.isComplex = false)
    (ds : List (Parameter × Nat)) : objectNames (d :: ds) = objectNames ds := by
  unfold objectNames
  rw [List.filter_cons, if_neg (by simp [h])]

/-! ## What arguments stand for -/

/-- The value that a call passes for a parameter: what the variable of a simple one holds, and for
a complex one an object with just those properties set that were supplied. -/
inductive Passed (catalog : Catalog) (supplied : String → Bool) (bindings : String → Value α)
    (store : List (Object α)) : Parameter → Value α → Prop where
  | simple {p : Parameter} (hsimple : p.type.isComplex = false) :
      Passed catalog supplied bindings store p (bindings p.name)
  | complex {p : Parameter} {typeName : String} {shape : Shape} {place : Nat}
      (hcomplex : p.type.isComplex = true)
      (hname : p.type.unwrapNullable.fullName? = some typeName)
      (hshape : catalog.describe p.type.unwrapNullable = .ok shape)
      (hobject : store[place]? = some (.ofShape supplied bindings typeName shape)) :
      Passed catalog supplied bindings store p (.object place)

theorem Object.ofShape_congr {bindings bindings' : String → Value α} {shape : Shape}
    (h : ∀ x ∈ shape.writable.map (·.name), bindings x = bindings' x) (typeName : String) :
    Object.ofShape supplied bindings typeName shape =
      Object.ofShape supplied bindings' typeName shape :=
  Object.fill_congr h ⟨typeName, .ofShape shape, fun _ => none⟩

theorem Passed.congr {bindings bindings' : String → Value α} {store : List (Object α)}
    {p : Parameter} {v : Value α} (h : Passed catalog supplied bindings store p v)
    (hread : ∀ x ∈ surfaceNames catalog p, bindings x = bindings' x) :
    Passed catalog supplied bindings' store p v := by
  cases h with
  | simple hsimple =>
    rw [ParameterGroup.surfaceNames_of_not_isComplex hsimple] at hread
    rw [hread p.name List.mem_cons_self]
    exact .simple hsimple
  | complex hcomplex hname hshape hobject =>
    rw [ParameterGroup.surfaceNames_of_describe hcomplex hshape] at hread
    rw [Object.ofShape_congr hread] at hobject
    exact .complex hcomplex hname hshape hobject

/-! ## Running the blocks -/

/-- What running the blocks of parameters comes to. -/
structure BlocksRun (catalog : Catalog) (supplied : String → Bool) (ds : List (Parameter × Nat))
    (as : List FunctionBuilder.Argument) (s t : State α) : Prop where
  runs : run supplied s (as.flatMap (·.statements)) = some t
  events : t.events = s.events
  bindings : ∀ x, x ∉ objectNames ds → t.bindings x = s.bindings x
  objects : (objectNames ds).map t.bindings =
    (List.range' s.store.length (objectNames ds).length).map .object
  store : ∃ created, t.store = s.store ++ created ∧ created.length = (objectNames ds).length
  passed : List.Forall₂ (fun d a => Passed catalog supplied s.bindings t.store d.1
    (t.bindings a.name)) ds as

theorem BlocksRun.nil (s : State α) : BlocksRun catalog supplied [] [] s s where
  runs := rfl
  events := rfl
  bindings := fun _ _ => rfl
  objects := rfl
  store := ⟨[], by simp, rfl⟩
  passed := .nil

theorem BlocksRun.cons_simple {p : Parameter} {k : Nat} (hp : p.type.isComplex = false)
    {ds : List (Parameter × Nat)} {as : List FunctionBuilder.Argument} {s t : State α}
    (hname : p.name ∉ objectNames ds) (h : BlocksRun catalog supplied ds as s t) :
    BlocksRun catalog supplied ((p, k) :: ds) (⟨[], p.name⟩ :: as) s t := by
  have hnames : objectNames ((p, k) :: ds) = objectNames ds :=
    objectNames_cons_of_not_isComplex hp ds
  refine ⟨h.runs, h.events, ?_, ?_, ?_, .cons ?_ h.passed⟩
  · rw [hnames]
    exact h.bindings
  · rw [hnames]
    exact h.objects
  · rw [hnames]
    exact h.store
  · show Passed catalog supplied s.bindings t.store p (t.bindings p.name)
    rw [h.bindings p.name hname]
    exact .simple hp

theorem BlocksRun.cons_complex {p : Parameter} {k : Nat} (hp : p.type.isComplex = true)
    {typeName : String} (hname : p.type.unwrapNullable.fullName? = some typeName) {shape : Shape}
    (hshape : catalog.describe p.type.unwrapNullable = .ok shape)
    {ds : List (Parameter × Nat)} {as : List FunctionBuilder.Argument} {s t : State α}
    (hown : argumentObject k ∉ shape.writable.map (·.name))
    (hfresh : argumentObject k ∉ objectNames ds)
    (hread : ∀ d ∈ ds, argumentObject k ∉ surfaceNames catalog d.1)
    (h : BlocksRun catalog supplied ds as
      ⟨Function.update s.bindings (argumentObject k) (.object s.store.length),
        s.store ++ [.ofShape supplied s.bindings typeName shape], s.events⟩ t) :
    BlocksRun catalog supplied ((p, k) :: ds)
      (⟨argumentBlock (argumentObject k) typeName shape, argumentObject k⟩ :: as) s t := by
  have hnames : objectNames ((p, k) :: ds) = argumentObject k :: objectNames ds :=
    objectNames_cons_of_isComplex hp ds
  -- no later block binds the variable of this object
  have hvar : t.bindings (argumentObject k) = .object s.store.length := by
    rw [h.bindings _ hfresh]
    exact Function.update_self _ _ _
  obtain ⟨created, hstore, hcreated⟩ := h.store
  rw [List.append_assoc] at hstore
  refine ⟨?_, h.events, ?_, ?_, ⟨_, hstore, ?_⟩, .cons ?_ ?_⟩
  · rw [List.flatMap_cons, run_append, run_argumentBlock typeName hown]
    exact h.runs
  · intro x hx
    rw [hnames, List.mem_cons, not_or] at hx
    rw [h.bindings x hx.2]
    exact Function.update_of_ne hx.1 _ _
  · rw [hnames, List.map_cons, hvar, h.objects, List.length_cons, List.range'_succ,
      List.map_cons, List.length_append]
    rfl
  · rw [hnames, List.length_append, hcreated, List.length_cons, Nat.add_comm]
    rfl
  · show Passed catalog supplied s.bindings t.store p (t.bindings (argumentObject k))
    rw [hvar]
    refine .complex hp hname hshape ?_
    rw [hstore, List.getElem?_append_right (Nat.le_refl _), Nat.sub_self]
    rfl
  · -- later blocks read none but variables from before this one
    have hboth := (List.forall₂_and_left _ _).2 ⟨hread, h.passed⟩
    refine hboth.imp fun d a hd => ?_
    exact hd.2.congr fun x hx => Function.update_of_ne (ne_of_mem_of_not_mem hx hd.1) _ _

/-- Running the blocks of parameters whose names are kept apart. -/
theorem run_blocks {ds : List (Parameter × Nat)} {as : List FunctionBuilder.Argument}
    (has : List.Forall₂ (ArgumentOf catalog) ds as) (hfresh : (objectNames ds).Nodup)
    (hread : ∀ d ∈ ds, ∀ x ∈ objectNames ds, x ∉ surfaceNames catalog d.1) (s : State α) :
    ∃ t, BlocksRun catalog supplied ds as s t := by
  induction has generalizing s with
  | nil => exact ⟨s, .nil s⟩
  | @cons d a ds as ha _ ih =>
    cases ha with
    | @simple p k hp =>
      have hnames := objectNames_cons_of_not_isComplex (d := (p, k)) hp ds
      rw [hnames] at hfresh hread
      obtain ⟨t, ht⟩ := ih hfresh (fun d hd => hread d (List.mem_cons_of_mem _ hd)) s
      refine ⟨t, .cons_simple hp (fun hmem => hread (p, k) List.mem_cons_self p.name hmem ?_) ht⟩
      rw [ParameterGroup.surfaceNames_of_not_isComplex hp]
      exact List.mem_cons_self
    | @complex p k typeName shape hp hname hshape =>
      have hnames := objectNames_cons_of_isComplex (d := (p, k)) hp ds
      rw [hnames] at hfresh hread
      rw [List.nodup_cons] at hfresh
      have hown := hread (p, k) List.mem_cons_self (argumentObject k) List.mem_cons_self
      rw [ParameterGroup.surfaceNames_of_describe hp hshape] at hown
      obtain ⟨t, ht⟩ := ih hfresh.2
        (fun d hd x hx => hread d (List.mem_cons_of_mem _ hd) x (List.mem_cons_of_mem _ hx))
        ⟨Function.update s.bindings (argumentObject k) (.object s.store.length),
          s.store ++ [.ofShape supplied s.bindings typeName shape], s.events⟩
      exact ⟨t, .cons_complex hp hname hshape hown hfresh.1
        (fun d hd => hread d (List.mem_cons_of_mem _ hd) _ List.mem_cons_self) ht⟩

/-! ## The call -/

/-- Where simple parameters hold no objects, the objects among the arguments are those that the
variables of the blocks are bound to. -/
theorem filterMap_place?_arguments {ds : List (Parameter × Nat)}
    {as : List FunctionBuilder.Argument} (has : List.Forall₂ (ArgumentOf catalog) ds as)
    {bindings : String → Value α}
    (hsimple : ∀ d ∈ ds, d.1.type.isComplex = false → (bindings d.1.name).place? = none) :
    (as.map fun a => bindings a.name).filterMap Value.place? =
      ((objectNames ds).map bindings).filterMap Value.place? := by
  induction has with
  | nil => rfl
  | @cons d a ds as ha _ ih =>
    have htail := ih fun d hd => hsimple d (List.mem_cons_of_mem _ hd)
    cases ha with
    | @simple p k hp =>
      rw [objectNames_cons_of_not_isComplex (d := (p, k)) hp, ← htail, List.map_cons,
        List.filterMap_cons_none (hsimple (p, k) List.mem_cons_self hp)]
    | @complex p k typeName shape hp _ _ =>
      rw [objectNames_cons_of_isComplex (d := (p, k)) hp, List.map_cons, List.map_cons,
        List.filterMap_cons, List.filterMap_cons, htail]

/-- The objects among the arguments are those that the blocks have made, each passed once. -/
theorem BlocksRun.places {ds : List (Parameter × Nat)} {as : List FunctionBuilder.Argument}
    {values : String → α} {t : State α} (has : List.Forall₂ (ArgumentOf catalog) ds as)
    (hread : ∀ d ∈ ds, ∀ x ∈ objectNames ds, x ∉ surfaceNames catalog d.1)
    (h : BlocksRun catalog supplied ds as (.start values) t) :
    (as.map fun a => t.bindings a.name).filterMap Value.place? =
      List.range t.store.length := by
  have hsimple : ∀ d ∈ ds, d.1.type.isComplex = false →
      (t.bindings d.1.name).place? = none := by
    intro d hd hp
    have hname : d.1.name ∉ objectNames ds := fun hmem => hread d hd _ hmem <| by
      rw [ParameterGroup.surfaceNames_of_not_isComplex hp]
      exact List.mem_cons_self
    rw [h.bindings _ hname]
    rfl
  obtain ⟨created, hstore, hcreated⟩ := h.store
  have hlen : t.store.length = (objectNames ds).length := by
    rw [hstore, ← hcreated]
    rfl
  rw [filterMap_place?_arguments has hsimple, h.objects, List.filterMap_map, hlen,
    List.range_eq_range']
  exact List.filterMap_some

/-- **Wrappers call their endpoints.** Where the names of a wrapper are kept apart, running its body
calls the endpoint's method on the client, and does nothing else that can be seen. The call has one
argument for each declared parameter, which is what that parameter stands for; the objects passed
are all objects there are, and no object is passed twice. -/
theorem wrapper_calls_endpoint {b : FunctionBuilder} {verb : Verb} {noun : String} {e : Endpoint}
    {gs : List ParameterGroup} {f : FunctionSpec}
    (hgs : ParameterGroup.ofParameters catalog e.parameters = .ok gs)
    (hf : b.wrapper catalog verb noun (ParameterGroup.surface gs) e = .ok f)
    (hnames : (callNames b e (ParameterGroup.surface gs)).Nodup) (supplied : String → Bool)
    (values : String → α) :
    ∃ (final : State α) (arguments : List (Value α)),
      run supplied (.start values) f.body = some final ∧
      final.events =
        [.called ⟨.given (values b.handle), e.method, arguments, final.store⟩] ∧
      arguments.length = e.parameters.length ∧
      (∀ (i : Nat) (p : Parameter) (v : Value α),
        e.parameters[i]? = some p → arguments[i]? = some v →
        Passed catalog supplied (fun x => .given (values x)) final.store p v) ∧
      arguments.filterMap Value.place? = List.range final.store.length := by
  obtain ⟨as, has, hbody⟩ := FunctionBuilder.body_of_wrapper hgs hf
  -- the names that a block reads and those that the blocks bind
  unfold callNames at hnames
  rw [ParameterGroup.map_name_surface hgs, List.cons_append, List.nodup_cons,
    List.nodup_append] at hnames
  obtain ⟨hhandle, -, hfresh, hapart⟩ := hnames
  have hread : ∀ d ∈ e.parameters.zipIdx, ∀ x ∈ objectNames e.parameters.zipIdx,
      x ∉ surfaceNames catalog d.1 := by
    intro d hd x hx hmem
    have hd' : d.1 ∈ e.parameters := by
      simpa using List.mem_map_of_mem (f := Prod.fst) hd
    exact hapart x (List.mem_flatMap.2 ⟨d.1, hd', hmem⟩) x hx rfl
  obtain ⟨t, ht⟩ : ∃ t, BlocksRun catalog supplied e.parameters.zipIdx as (.start values) t :=
    run_blocks has hfresh hread _
  have hclient : t.bindings b.handle = .given (values b.handle) :=
    ht.bindings _ fun hmem => hhandle (List.mem_append_right _ hmem)
  have hpassed : List.Forall₂
      (Passed catalog supplied (fun x => .given (values x)) t.store) e.parameters
      (as.map fun a => t.bindings a.name) := by
    have hfst : e.parameters = e.parameters.zipIdx.map Prod.fst := by simp
    rw [hfst, List.forall₂_map_left_iff, List.forall₂_map_right_iff]
    exact ht.passed
  refine ⟨t.observe (.called ⟨t.bindings b.handle, e.method,
    (as.map (·.name)).map t.bindings, t.store⟩), as.map fun a => t.bindings a.name,
    ?_, ?_, hpassed.length_eq.symm, ?_, ht.places has hread⟩
  · rw [hbody, run_append, ht.runs]
    rfl
  · show t.events ++ _ = _
    rw [ht.events, hclient, List.map_map]
    rfl
  · intro i p v hp hv
    obtain ⟨hi, rfl⟩ := List.getElem?_eq_some_iff.1 hp
    obtain ⟨hi', rfl⟩ := List.getElem?_eq_some_iff.1 hv
    exact (List.forall₂_iff_get.1 hpassed).2 i hi hi'

/-- A type with one property that can be set and one that cannot, a type with none, and a struct. -/
def siteTable : ShapeTable :=
  .ofList [
    ("Api.Model.SiteRequest", .ofProperties [
      .plain "Name" (.plain "System" "String" .reference),
      (Property.plain "Id" (.plain "System" "Int32" .value)).readOnly,
      .plain "Tenant" (.plain "Api.Model" "Tenant" .reference)]),
    ("Api.Model.Marker", (Shape.ofProperties []).withoutConstructor none),
    ("Api.Model.Point", .ofProperties [.plain "Latitude" (.plain "System" "Double" .value)])]

/-- An endpoint with a simple parameter among complex ones, the last of them optional. -/
def createSite : Endpoint :=
  .ofParameters "DcimApi" "CreateSite" .void [
    ("request", .plain "Api.Model" "SiteRequest" .reference),
    ("dryRun", .plain "System" "Boolean" .value),
    ("marker", .plain "Api.Model" "Marker" .reference),
    ("location", .nullable (.plain "Api.Model" "Point" .value))]

/-- The names of `createSite` are kept apart, and its wrapper passes three objects and one value of
the caller's. -/
theorem wrapper_calls_createSite : ∃ gs f,
    ParameterGroup.ofParameters siteTable.catalog createSite.parameters = .ok gs ∧
      FunctionBuilder.default.wrapper siteTable.catalog .new "Site" (ParameterGroup.surface gs)
        createSite = .ok f ∧
      (callNames .default createSite (ParameterGroup.surface gs)).Nodup ∧
      ∃ (final : State String) (arguments : List (Value String)),
        run (· == "Name") (.start id) f.body = some final ∧
        final.events = [.called ⟨.given "Sdk", "CreateSite", arguments, final.store⟩] ∧
        arguments.length = 4 ∧
        (∀ (i : Nat) (p : Parameter) (v : Value String),
          createSite.parameters[i]? = some p → arguments[i]? = some v →
          Passed siteTable.catalog (· == "Name") (fun x => .given x) final.store p v) ∧
        arguments.filterMap Value.place? = List.range final.store.length := by
  have hgs : ParameterGroup.ofParameters siteTable.catalog createSite.parameters = .ok _ := rfl
  refine ⟨_, _, hgs, rfl, by decide, ?_⟩
  exact wrapper_calls_endpoint (b := .default) (e := createSite) hgs
    (rfl : FunctionBuilder.default.wrapper siteTable.catalog .new "Site" _ createSite = _)
    (by decide) (· == "Name") id

end WrapperGen.Execution
