import Mathlib.Data.List.Induction
import WrapperGen.Data.Keyed
import WrapperGen.Data.Results
import WrapperGen.Generation.Run
/-!
# The state of a run

What a run has come to after some endpoints, told from the endpoints alone.

1. Processing an endpoint gives the constructor functions of the types it needs that no endpoint
   before it needed, and its wrapper, which depends on nothing but the endpoint (`process_eq`).
2. A state remembers the places of its units rightly (`RunState.Shelved`), and each step keeps it
   so (`RunState.Shelved.locate`).
3. After some endpoints the registry holds the types needed so far, in the order in which they
   were first needed, and each unit holds the functions that belong to it (`RunState.Holds`); a
   step keeps this (`RunState.Holds.step`), and so does a run (`holds_stateAfter`).
4. A step adds to the failures those of its new types, and then that of its endpoint
   (`failures_concat`).
-/

namespace WrapperGen

namespace Generator

/-! ## What single endpoints and types give -/

/-- The complex types of settable properties that an endpoint brings up; none if its verb, its noun
or its groups cannot be told. -/
def nestedOf (g : Generator) (e : Endpoint) : List TypeRef :=
  match g.prepare e with
  | .ok (_, _, groups) => ParameterGroup.nestedTypes groups
  | .error _ => []

/-- The wrapper of an endpoint, or what stands in the way of it. -/
def wrapperOf (g : Generator) (e : Endpoint) : Except Error FunctionSpec := do
  let (verb, noun, groups) ← g.prepare e
  g.builder.wrapper g.catalog verb noun (ParameterGroup.surface groups) e

/-- The constructor functions of the types for which one can be built. -/
def constructorsOf (g : Generator) (ts : List TypeRef) : List FunctionSpec :=
  successes g.constructorOf ts

/-- The failures of the types for which no constructor function can be built. -/
def constructorFailures (g : Generator) (ts : List TypeRef) : List Failure :=
  (errors g.constructorOf ts).map fun d => ⟨d.1.label, d.2⟩

/-- The wrappers of the endpoints for which one can be built. -/
def wrappersOf (g : Generator) (es : List Endpoint) : List FunctionSpec :=
  successes g.wrapperOf es

/-- The failures of the endpoints for which no wrapper can be built. -/
def endpointFailures (g : Generator) (es : List Endpoint) : List Failure :=
  (errors g.wrapperOf es).map fun d => ⟨d.1.qualifiedName, d.2⟩

/-- The types that some endpoints bring up, once each, in the order in which they come up. -/
def neededTypes (g : Generator) (es : List Endpoint) : List TypeRef :=
  firstSeen (es.flatMap g.nestedOf)

/-- The unit of the first endpoint that brings up a type. -/
def home (g : Generator) (es : List Endpoint) (t : TypeRef) : Option (Option String) :=
  (es.find? fun e => t ∈ g.nestedOf e).map g.unitOf

theorem constructorsOf_append (g : Generator) (ts us : List TypeRef) :
    g.constructorsOf (ts ++ us) = g.constructorsOf ts ++ g.constructorsOf us :=
  successes_append _ ts us

theorem constructorFailures_append (g : Generator) (ts us : List TypeRef) :
    g.constructorFailures (ts ++ us) = g.constructorFailures ts ++ g.constructorFailures us := by
  unfold constructorFailures
  rw [errors_append, List.map_append]

theorem wrappersOf_append (g : Generator) (es fs : List Endpoint) :
    g.wrappersOf (es ++ fs) = g.wrappersOf es ++ g.wrappersOf fs := successes_append _ es fs

theorem endpointFailures_append (g : Generator) (es fs : List Endpoint) :
    g.endpointFailures (es ++ fs) = g.endpointFailures es ++ g.endpointFailures fs := by
  unfold endpointFailures
  rw [errors_append, List.map_append]

/-! ## Processing an endpoint -/

theorem construct_of_mem (g : Generator) {c : Construction} {t : TypeRef}
    (h : t ∈ c.registry.types) : g.construct c t = c := by
  unfold construct
  rw [TypeRegistry.add_of_mem h]
  rfl

/-- A type that has not had its turn is registered, and gives a function or a failure. -/
theorem construct_of_notMem (g : Generator) {c : Construction} {t : TypeRef}
    (h : t ∉ c.registry.types) :
    g.construct c t = ⟨⟨c.registry.types ++ [t]⟩, c.functions ++ g.constructorsOf [t],
      c.failures ++ g.constructorFailures [t]⟩ := by
  unfold construct constructorsOf constructorFailures
  rw [TypeRegistry.add_of_notMem h]
  cases hf : g.constructorOf t with
  | ok f =>
    rw [successes_singleton_of_ok hf, errors_singleton_of_ok hf, List.map_nil, List.append_nil]
    rfl
  | error error =>
    rw [successes_singleton_of_error hf, errors_singleton_of_error hf, List.append_nil]
    rfl

/-- Types in a row: those that have not had their turn get it, once each. -/
theorem foldl_construct (g : Generator) (ts : List TypeRef) (c : Construction) :
    ts.foldl g.construct c = ⟨⟨c.registry.types ++ c.registry.missing ts⟩,
      c.functions ++ g.constructorsOf (c.registry.missing ts),
      c.failures ++ g.constructorFailures (c.registry.missing ts)⟩ := by
  induction ts generalizing c with
  | nil =>
    show c = _
    rw [show c.registry.missing [] = [] from rfl]
    simp [constructorsOf, successes, constructorFailures, errors]
  | cons t ts ih =>
    rw [List.foldl_cons]
    by_cases h : t ∈ c.registry.types
    · rw [construct_of_mem g h, ih, TypeRegistry.missing_cons_of_mem h]
    · rw [construct_of_notMem g h, ih, TypeRegistry.missing_cons_of_notMem h]
      generalize TypeRegistry.missing _ ts = fresh
      rw [show t :: fresh = [t] ++ fresh from rfl, constructorsOf_append,
        constructorFailures_append]
      simp only [List.append_assoc]

/-- Processing an endpoint, told from what the endpoint brings up and what is registered. -/
theorem process_eq (g : Generator) (registry : TypeRegistry) (failures : List Failure)
    (e : Endpoint) :
    g.process registry failures e =
      (⟨⟨registry.types ++ registry.missing (g.nestedOf e)⟩,
        g.constructorsOf (registry.missing (g.nestedOf e)),
        failures ++ g.constructorFailures (registry.missing (g.nestedOf e))⟩, g.wrapperOf e) := by
  unfold process nestedOf wrapperOf
  cases hprepare : g.prepare e with
  | ok known =>
    show (List.foldl _ _ _, _) = _
    rw [foldl_construct]
    rfl
  | error error =>
    show (_, _) = _
    rw [show registry.missing [] = [] from rfl]
    simp [constructorsOf, successes, constructorFailures, errors]
    rfl

/-! ## One step -/

theorem extend_extend (u : OutputUnit) (cs ws cs' ws' : List FunctionSpec) :
    (u.extend cs ws).extend cs' ws' = u.extend (cs ++ cs') (ws ++ ws') := by
  unfold OutputUnit.extend
  rw [List.append_assoc, List.append_assoc]

theorem locate_registry (s : RunState) (name : Option String) :
    (s.locate name).2.registry = s.registry := by
  unfold RunState.locate
  cases s.places.lookup name <;> rfl

theorem locate_failures (s : RunState) (name : Option String) :
    (s.locate name).2.report.failures = s.report.failures := by
  unfold RunState.locate
  cases s.places.lookup name <;> rfl

/-- A step, told from the endpoint and the state before it. -/
theorem step_eq (g : Generator) (s : RunState) (e : Endpoint) :
    g.step s e = ⟨⟨s.registry.types ++ s.registry.missing (g.nestedOf e)⟩,
      (s.locate (g.unitOf e)).2.places,
      ⟨(s.locate (g.unitOf e)).2.report.units.modify (s.locate (g.unitOf e)).1
          (·.extend (g.constructorsOf (s.registry.missing (g.nestedOf e))) (g.wrappersOf [e])),
        s.report.failures ++ g.constructorFailures (s.registry.missing (g.nestedOf e)) ++
          g.endpointFailures [e]⟩⟩ := by
  unfold step wrappersOf endpointFailures
  have hregistry := locate_registry s (g.unitOf e)
  have hfailures := locate_failures s (g.unitOf e)
  generalize s.locate (g.unitOf e) = located at hregistry hfailures ⊢
  obtain ⟨place, opened⟩ := located
  simp only at hregistry hfailures
  simp only [process_eq, hregistry, hfailures]
  cases h : g.wrapperOf e with
  | ok f =>
    rw [successes_singleton_of_ok h, errors_singleton_of_ok h, List.map_nil, List.append_nil]
    simp only [List.modify_modify_eq, Function.comp_def, extend_extend, List.append_nil,
      List.nil_append]
  | error error =>
    rw [successes_singleton_of_error h, errors_singleton_of_error h]
    rfl

end Generator

/-! ## Units and their places -/

namespace RunState

/-- The names of the units, in the order in which they were opened. -/
def unitNames (s : RunState) : List (Option String) := s.report.units.map (·.name)

/-- Every unit has its own name, and is remembered at its place. -/
structure Shelved (s : RunState) : Prop where
  nodup : s.unitNames.Nodup
  lookup : ∀ name place, s.places.lookup name = some place ↔ s.unitNames[place]? = some name

theorem shelved_start : start.Shelved := by
  refine ⟨List.nodup_nil, fun name place => ?_⟩
  show none = some place ↔ none = some name
  simp

theorem Shelved.congr {s t : RunState} (h : s.Shelved) (hplaces : t.places = s.places)
    (hnames : t.unitNames = s.unitNames) : t.Shelved := by
  refine ⟨hnames ▸ h.nodup, ?_⟩
  rw [hplaces, hnames]
  exact h.lookup

theorem Shelved.locate_of_mem {s : RunState} (h : s.Shelved) {name : Option String}
    (hname : name ∈ s.unitNames) :
    ∃ place, s.locate name = (place, s) ∧ s.unitNames[place]? = some name := by
  obtain ⟨place, hplace⟩ := List.mem_iff_getElem?.1 hname
  refine ⟨place, ?_, hplace⟩
  unfold locate
  rw [(h.lookup name place).2 hplace]

theorem Shelved.locate_of_notMem {s : RunState} (h : s.Shelved) {name : Option String}
    (hname : name ∉ s.unitNames) : s.locate name = (s.report.units.length, s.openUnit name) := by
  unfold locate
  cases hlookup : s.places.lookup name with
  | none => rfl
  | some place => exact absurd (List.mem_of_getElem? ((h.lookup name place).1 hlookup)) hname

theorem unitNames_openUnit (s : RunState) (name : Option String) :
    (s.openUnit name).unitNames = s.unitNames ++ [name] := List.map_append

theorem Shelved.openUnit {s : RunState} (h : s.Shelved) {name : Option String}
    (hname : name ∉ s.unitNames) : (s.openUnit name).Shelved := by
  have hlen : s.report.units.length = s.unitNames.length := (List.length_map _).symm
  constructor
  · rw [unitNames_openUnit, ← List.concat_eq_append]
    exact h.nodup.concat hname
  · intro other place
    show List.lookup other ((name, s.report.units.length) :: s.places) = some place ↔ _
    rw [unitNames_openUnit, List.lookup_cons, hlen, getElem?_concat_eq_some_iff]
    by_cases hother : other = name
    · subst hother
      have hnone : s.unitNames[place]? ≠ some other := fun e => hname (List.mem_of_getElem? e)
      simp [hnone, eq_comm]
    · rw [beq_false_of_ne hother]
      show List.lookup other s.places = some place ↔ _
      rw [h.lookup other place]
      simp [Ne.symm hother]

end RunState

namespace Generator

/-! ## Types and the endpoints that bring them up -/

theorem mem_neededTypes {g : Generator} {es : List Endpoint} {t : TypeRef} :
    t ∈ g.neededTypes es ↔ ∃ e ∈ es, t ∈ g.nestedOf e := by
  rw [neededTypes, mem_firstSeen, List.mem_flatMap]

theorem nodup_neededTypes (g : Generator) (es : List Endpoint) : (g.neededTypes es).Nodup :=
  nodup_firstSeen _

/-- The types that one more endpoint is the first to need. -/
def newTypes (g : Generator) (es : List Endpoint) (e : Endpoint) : List TypeRef :=
  (⟨g.neededTypes es⟩ : TypeRegistry).missing (g.nestedOf e)

theorem mem_newTypes {g : Generator} {es : List Endpoint} {e : Endpoint} {t : TypeRef} :
    t ∈ g.newTypes es e ↔ t ∈ g.nestedOf e ∧ t ∉ g.neededTypes es :=
  TypeRegistry.mem_missing

theorem neededTypes_concat (g : Generator) (es : List Endpoint) (e : Endpoint) :
    g.neededTypes (es ++ [e]) = g.neededTypes es ++ g.newTypes es e := by
  unfold neededTypes newTypes
  rw [List.flatMap_append, List.flatMap_singleton]
  exact (TypeRegistry.firstSeen_append_missing _ _).symm

theorem home_concat_of_mem {g : Generator} {es : List Endpoint} {t : TypeRef}
    (h : t ∈ g.neededTypes es) (e : Endpoint) : g.home (es ++ [e]) t = g.home es t := by
  obtain ⟨e', he', ht⟩ := mem_neededTypes.1 h
  have hsome : (es.find? fun e => t ∈ g.nestedOf e).isSome :=
    List.find?_isSome.2 ⟨e', he', by simpa using ht⟩
  unfold home
  rw [List.find?_append, Option.or_of_isSome hsome]

theorem home_concat_of_notMem {g : Generator} {es : List Endpoint} {t : TypeRef}
    (h : t ∉ g.neededTypes es) {e : Endpoint} (ht : t ∈ g.nestedOf e) :
    g.home (es ++ [e]) t = some (g.unitOf e) := by
  have hnone : (es.find? fun e => t ∈ g.nestedOf e) = none := by
    refine List.find?_eq_none.2 fun e' he' => ?_
    simpa using fun ht' => h (mem_neededTypes.2 ⟨e', he', ht'⟩)
  unfold home
  rw [List.find?_append, hnone, Option.none_or, List.find?_singleton, if_pos (by simpa using ht)]
  rfl

theorem mem_units_of_home {g : Generator} {es : List Endpoint} {t : TypeRef}
    {name : Option String} (h : g.home es t = some name) : name ∈ es.map g.unitOf := by
  obtain ⟨e, he, rfl⟩ := Option.map_eq_some_iff.1 h
  exact List.mem_map_of_mem (List.mem_of_find?_eq_some he)

/-- Every type that is needed has a home. -/
theorem exists_home {g : Generator} {es : List Endpoint} {t : TypeRef}
    (h : t ∈ g.neededTypes es) : ∃ name ∈ es.map g.unitOf, g.home es t = some name := by
  obtain ⟨e, he, ht⟩ := mem_neededTypes.1 h
  have hsome : (es.find? fun e => t ∈ g.nestedOf e).isSome :=
    List.find?_isSome.2 ⟨e, he, by simpa using ht⟩
  obtain ⟨e', he'⟩ := Option.isSome_iff_exists.1 hsome
  have hhome : g.home es t = some (g.unitOf e') := by
    unfold home
    rw [he']
    rfl
  exact ⟨_, mem_units_of_home hhome, hhome⟩

/-! ## What units hold -/

/-- The unit of a name after some endpoints: the constructor functions of the types that are at home
there, and the wrappers of its endpoints. -/
def unitAfter (g : Generator) (es : List Endpoint) (name : Option String) : OutputUnit :=
  ⟨name, g.constructorsOf ((g.neededTypes es).filter fun t => g.home es t = some name),
    g.wrappersOf (es.filter fun e => g.unitOf e = name)⟩

theorem unitAfter_of_notMem {g : Generator} {es : List Endpoint} {name : Option String}
    (h : name ∉ es.map g.unitOf) : g.unitAfter es name = ⟨name, [], []⟩ := by
  have htypes : ((g.neededTypes es).filter fun t => g.home es t = some name) = [] :=
    List.filter_eq_nil_iff.2 fun t _ => by simpa using fun e => h (mem_units_of_home e)
  have hendpoints : (es.filter fun e => g.unitOf e = name) = [] :=
    List.filter_eq_nil_iff.2 fun e he => by
      simpa using fun hname : g.unitOf e = name => h (hname ▸ List.mem_map_of_mem he)
  unfold unitAfter
  rw [htypes, hendpoints]
  rfl

/-- The homes of types that were needed before do not change, and new ones are at home with the
endpoint that brings them up. -/
theorem filter_home_concat (g : Generator) (es : List Endpoint) (e : Endpoint)
    (name : Option String) :
    ((g.neededTypes (es ++ [e])).filter fun t => g.home (es ++ [e]) t = some name) =
      ((g.neededTypes es).filter fun t => g.home es t = some name) ++
        if name = g.unitOf e then g.newTypes es e else [] := by
  rw [neededTypes_concat, List.filter_append]
  congr 1
  · refine List.filter_congr fun t ht => ?_
    rw [home_concat_of_mem ht]
  · have hhome : ∀ t ∈ g.newTypes es e, g.home (es ++ [e]) t = some (g.unitOf e) :=
      fun t ht => home_concat_of_notMem (mem_newTypes.1 ht).2 (mem_newTypes.1 ht).1
    split
    · next h =>
      refine List.filter_eq_self.2 fun t ht => ?_
      rw [hhome t ht, h]
      simp
    · next h =>
      refine List.filter_eq_nil_iff.2 fun t ht => ?_
      rw [hhome t ht]
      simpa using Ne.symm h

/-- One more endpoint extends its own unit, and no other. -/
theorem unitAfter_concat (g : Generator) (es : List Endpoint) (e : Endpoint)
    (name : Option String) :
    g.unitAfter (es ++ [e]) name =
      if name = g.unitOf e then
        (g.unitAfter es name).extend (g.constructorsOf (g.newTypes es e)) (g.wrappersOf [e])
      else g.unitAfter es name := by
  unfold unitAfter
  rw [filter_home_concat, List.filter_append]
  split
  · next h =>
    have hown : ([e].filter fun e => g.unitOf e = name) = [e] := by simp [h]
    rw [hown, constructorsOf_append, wrappersOf_append]
    rfl
  · next h =>
    have hother : ([e].filter fun e => g.unitOf e = name) = [] := by simp [Ne.symm h]
    rw [hother, List.append_nil, List.append_nil]

end Generator

namespace RunState

/-! ## The invariant of a run -/

/-- A state is what a run comes to after some endpoints. -/
structure Holds (g : Generator) (es : List Endpoint) (s : RunState) : Prop where
  shelved : s.Shelved
  registry : s.registry = ⟨g.neededTypes es⟩
  units : s.report.units = (firstSeen (es.map g.unitOf)).map (g.unitAfter es)

theorem Holds.unitNames {g : Generator} {es : List Endpoint} {s : RunState} (h : s.Holds g es) :
    s.unitNames = firstSeen (es.map g.unitOf) := by
  unfold RunState.unitNames
  rw [h.units, List.map_map]
  exact List.map_id _

theorem holds_start (g : Generator) : start.Holds g [] := ⟨shelved_start, rfl, rfl⟩

/-- Looking for the unit of an endpoint makes room for it and changes nothing else. -/
theorem Holds.locate {g : Generator} {es : List Endpoint} {s : RunState} (h : s.Holds g es)
    (e : Endpoint) :
    (s.locate (g.unitOf e)).2.Shelved ∧
      (firstSeen ((es ++ [e]).map g.unitOf))[(s.locate (g.unitOf e)).1]? = some (g.unitOf e) ∧
      (s.locate (g.unitOf e)).2.report.units =
        (firstSeen ((es ++ [e]).map g.unitOf)).map (g.unitAfter es) := by
  rw [List.map_append, List.map_singleton]
  by_cases hmem : g.unitOf e ∈ es.map g.unitOf
  · rw [firstSeen_concat_of_mem hmem]
    obtain ⟨place, hlocate, hplace⟩ :=
      h.shelved.locate_of_mem (by rw [h.unitNames, mem_firstSeen]; exact hmem)
    rw [hlocate]
    exact ⟨h.shelved, h.unitNames ▸ hplace, h.units⟩
  · have hnew : g.unitOf e ∉ s.unitNames := by rwa [h.unitNames, mem_firstSeen]
    have hlen : s.report.units.length = (firstSeen (es.map g.unitOf)).length := by
      rw [← h.unitNames]
      exact (List.length_map _).symm
    rw [firstSeen_concat_of_notMem hmem, h.shelved.locate_of_notMem hnew]
    refine ⟨h.shelved.openUnit hnew, ?_, ?_⟩
    · rw [hlen]
      exact List.getElem?_concat_length
    · show s.report.units ++ _ = _
      rw [h.units, List.map_append, List.map_singleton, Generator.unitAfter_of_notMem hmem]

/-- Each step keeps the invariant. -/
theorem Holds.step {g : Generator} {es : List Endpoint} {s : RunState} (h : s.Holds g es)
    (e : Endpoint) : (g.step s e).Holds g (es ++ [e]) := by
  obtain ⟨hshelved, hplace, hunits⟩ := h.locate e
  have hmissing : s.registry.missing (g.nestedOf e) = g.newTypes es e := by
    rw [h.registry]
    rfl
  rw [Generator.step_eq, hmissing]
  have hstep : (s.locate (g.unitOf e)).2.report.units.modify (s.locate (g.unitOf e)).1
      (·.extend (g.constructorsOf (g.newTypes es e)) (g.wrappersOf [e])) =
      (firstSeen ((es ++ [e]).map g.unitOf)).map (g.unitAfter (es ++ [e])) := by
    rw [hunits, modify_map_of_nodup (nodup_firstSeen _) hplace]
    exact List.map_congr_left fun name _ => (Generator.unitAfter_concat g es e name).symm
  refine ⟨hshelved.congr rfl ?_, ?_, hstep⟩
  · unfold RunState.unitNames
    rw [hstep, hunits, List.map_map, List.map_map]
    rfl
  · rw [h.registry, Generator.neededTypes_concat]

/-- A run keeps the invariant. -/
theorem holds_stateAfter (g : Generator) (es : List Endpoint) : (g.stateAfter es).Holds g es := by
  induction es using List.reverseRecOn with
  | nil => exact holds_start g
  | append_singleton es e ih =>
    unfold Generator.stateAfter
    rw [List.foldl_concat]
    exact ih.step e

end RunState

/-! ## Failures -/

namespace Generator

/-- One more endpoint adds the failures of its new types and its own. -/
theorem failures_concat (g : Generator) (es : List Endpoint) (e : Endpoint) :
    (g.run (es ++ [e])).failures = (g.run es).failures ++
      g.constructorFailures (g.newTypes es e) ++ g.endpointFailures [e] := by
  have hregistry := (RunState.holds_stateAfter g es).registry
  unfold run stateAfter at *
  rw [List.foldl_concat, step_eq, hregistry]
  rfl

/-- What fails in a run is the types whose constructor functions cannot be built, each of them once,
and the endpoints whose wrappers cannot. -/
theorem failures_perm (g : Generator) (es : List Endpoint) :
    (g.run es).failures.Perm
      (g.constructorFailures (g.neededTypes es) ++ g.endpointFailures es) := by
  induction es using List.reverseRecOn with
  | nil => exact .nil
  | append_singleton es e ih =>
    rw [failures_concat, neededTypes_concat, constructorFailures_append, endpointFailures_append]
    have hbefore := (ih.append_right (g.constructorFailures (g.newTypes es e))).append_right
      (g.endpointFailures [e])
    refine hbefore.trans ?_
    -- the failures of the new types move before those of the endpoints
    simp only [List.append_assoc]
    refine List.Perm.append_left _ ?_
    rw [← List.append_assoc, ← List.append_assoc]
    exact List.perm_append_comm.append_right _

end Generator

end WrapperGen
