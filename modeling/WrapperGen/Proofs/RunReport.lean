import WrapperGen.Proofs.RunState
/-!
# What a report contains

1. Over all units, a report has the wrappers of the endpoints and the constructor functions of the
   types that they bring up, each of them once (`wrappers_perm`, `constructors_perm`).
2. Every needed type has exactly one outcome: its function, in the unit of the first endpoint that
   brings it up, or its failure (`run_settles_each_type_once`).
3. The order of the endpoints decides in which units constructor functions stand, and the order of
   lists; units keep their names and their wrappers (`exists_unit_of_perm`), and all the rest is the
   same (`run_perm`).
4. Grouping decides in which units functions stand and nothing else (`grouping_only_places`).
-/

namespace WrapperGen.Generator

theorem units_run (g : Generator) (es : List Endpoint) :
    (g.run es).units = (firstSeen (es.map g.unitOf)).map (g.unitAfter es) :=
  (RunState.holds_stateAfter g es).units

theorem unitNames_run (g : Generator) (es : List Endpoint) :
    (g.run es).units.map (·.name) = firstSeen (es.map g.unitOf) :=
  (RunState.holds_stateAfter g es).unitNames

theorem nodup_unitNames_run (g : Generator) (es : List Endpoint) :
    ((g.run es).units.map (·.name)).Nodup := by
  rw [unitNames_run]
  exact nodup_firstSeen _

theorem eq_unitAfter {g : Generator} {es : List Endpoint} {u : OutputUnit}
    (h : u ∈ (g.run es).units) : u = g.unitAfter es u.name := by
  rw [units_run] at h
  obtain ⟨name, -, rfl⟩ := List.mem_map.1 h
  rfl

/-! ## All units together -/

/-- The units hold every wrapper once. -/
theorem wrappers_perm (g : Generator) (es : List Endpoint) :
    ((g.run es).units.flatMap (·.wrappers)).Perm (g.wrappersOf es) := by
  rw [units_run, List.flatMap_map]
  show (List.flatMap (fun name => successes g.wrapperOf _) _).Perm _
  rw [successes_flatMap]
  exact successes_perm _ (gather_perm (nodup_firstSeen _)
    fun e he => mem_firstSeen.2 (List.mem_map_of_mem he))

/-- The units hold the constructor function of every needed type once. -/
theorem constructors_perm (g : Generator) (es : List Endpoint) :
    ((g.run es).units.flatMap (·.constructors)).Perm (g.constructorsOf (g.neededTypes es)) := by
  have hkeys : ((firstSeen (es.map g.unitOf)).map some).Nodup :=
    (nodup_firstSeen _).map fun _ _ h => Option.some.inj h
  have hhome : ∀ t ∈ g.neededTypes es, g.home es t ∈ (firstSeen (es.map g.unitOf)).map some := by
    intro t ht
    obtain ⟨name, hname, hhome⟩ := exists_home ht
    rw [hhome]
    exact List.mem_map_of_mem (mem_firstSeen.2 hname)
  have hgather := gather_perm hkeys hhome
  rw [List.flatMap_map] at hgather
  rw [units_run, List.flatMap_map]
  show (List.flatMap (fun name => successes g.constructorOf _) _).Perm _
  rw [successes_flatMap]
  exact successes_perm _ hgather

/-! ## Types -/

/-- **Every type is settled once.** Take the types that the endpoints bring up, once each and in
the order in which they come up. Each has its home in exactly one unit, that of the first endpoint
that brings it up. The constructor functions of a unit are those of the types at home there, in this
order; there are no others. What fails is the types whose function cannot be built, each once, and
the endpoints whose wrapper cannot. -/
theorem run_settles_each_type_once (g : Generator) (es : List Endpoint) :
    (g.neededTypes es).Nodup ∧
      (∀ t ∈ g.neededTypes es, ∃! u, u ∈ (g.run es).units ∧ g.home es t = some u.name) ∧
      (∀ u ∈ (g.run es).units, u.constructors =
        g.constructorsOf ((g.neededTypes es).filter fun t => g.home es t = some u.name)) ∧
      ((g.run es).units.flatMap (·.constructors)).Perm (g.constructorsOf (g.neededTypes es)) ∧
      (g.run es).failures.Perm
        (g.constructorFailures (g.neededTypes es) ++ g.endpointFailures es) := by
  refine ⟨nodup_neededTypes g es, ?_, ?_, constructors_perm g es, failures_perm g es⟩
  · intro t ht
    obtain ⟨name, hname, hhome⟩ := exists_home ht
    refine ⟨g.unitAfter es name, ⟨?_, hhome⟩, ?_⟩
    · rw [units_run]
      exact List.mem_map_of_mem (mem_firstSeen.2 hname)
    · rintro u ⟨hu, hhome'⟩
      have hsame : u.name = name := Option.some.inj (hhome'.symm.trans hhome)
      rw [eq_unitAfter hu, hsame]
  · intro u hu
    rw [eq_unitAfter hu]
    rfl

/-! ## The order of endpoints -/

theorem neededTypes_perm (g : Generator) {es es' : List Endpoint} (h : es.Perm es') :
    (g.neededTypes es).Perm (g.neededTypes es') := by
  refine (List.perm_ext_iff_of_nodup (nodup_neededTypes g es) (nodup_neededTypes g es')).2
    fun t => ?_
  rw [mem_neededTypes, mem_neededTypes]
  simp only [h.mem_iff]

theorem unitNames_perm (g : Generator) {es es' : List Endpoint} (h : es.Perm es') :
    ((g.run es).units.map (·.name)).Perm ((g.run es').units.map (·.name)) := by
  refine (List.perm_ext_iff_of_nodup (nodup_unitNames_run g es) (nodup_unitNames_run g es')).2
    fun name => ?_
  rw [unitNames_run, unitNames_run, mem_firstSeen, mem_firstSeen, (h.map g.unitOf).mem_iff]

/-- A wrapper stands in the unit of its client type, wherever its endpoint comes in. -/
theorem exists_unit_of_perm {g : Generator} {es es' : List Endpoint} (h : es.Perm es')
    {u : OutputUnit} (hu : u ∈ (g.run es).units) :
    ∃ u' ∈ (g.run es').units, u'.name = u.name ∧ u.wrappers.Perm u'.wrappers := by
  have hname : u.name ∈ (g.run es').units.map (·.name) :=
    (unitNames_perm g h).mem_iff.1 (List.mem_map_of_mem hu)
  obtain ⟨u', hu', hsame⟩ := List.mem_map.1 hname
  refine ⟨u', hu', hsame, ?_⟩
  rw [eq_unitAfter hu, eq_unitAfter hu', hsame]
  exact successes_perm g.wrapperOf (h.filter _)

/-- The wrapper of an endpoint, or what stands in the way of it, when a run comes to it after other
endpoints. -/
def outcomeAfter (g : Generator) (before : List Endpoint) (e : Endpoint) :
    Except Error FunctionSpec :=
  (g.process (g.stateAfter before).registry (g.stateAfter before).report.failures e).2

theorem outcomeAfter_eq (g : Generator) (before : List Endpoint) (e : Endpoint) :
    g.outcomeAfter before e = g.wrapperOf e := by
  unfold outcomeAfter
  rw [process_eq]

/-- **The order of endpoints is immaterial.** Whatever the order of the endpoints, a run gives the
same wrappers, the same constructor functions and the same failures, each as often. It has units of
the same names, each name once, with the same wrappers in each; only constructor functions may move
from one unit to another. And whether an endpoint gets its wrapper is up to the endpoint, whatever
came before it. -/
theorem run_perm (g : Generator) {es es' : List Endpoint} (h : es.Perm es') :
    ((g.run es).units.flatMap (·.wrappers)).Perm ((g.run es').units.flatMap (·.wrappers)) ∧
      ((g.run es).units.flatMap (·.constructors)).Perm
        ((g.run es').units.flatMap (·.constructors)) ∧
      (g.run es).failures.Perm (g.run es').failures ∧
      ((g.run es).units.map (·.name)).Nodup ∧
      ((g.run es).units.map (·.name)).Perm ((g.run es').units.map (·.name)) ∧
      (∀ u ∈ (g.run es).units,
        ∃ u' ∈ (g.run es').units, u'.name = u.name ∧ u.wrappers.Perm u'.wrappers) ∧
      ∀ before before' e, g.outcomeAfter before e = g.outcomeAfter before' e := by
  have htypes := neededTypes_perm g h
  refine ⟨?_, ?_, ?_, nodup_unitNames_run g es, unitNames_perm g h,
    fun u hu => exists_unit_of_perm h hu, fun before before' e => ?_⟩
  · have hwrappers := successes_perm g.wrapperOf h
    exact (wrappers_perm g es).trans (hwrappers.trans (wrappers_perm g es').symm)
  · have hconstructors := successes_perm g.constructorOf htypes
    exact (constructors_perm g es).trans (hconstructors.trans (constructors_perm g es').symm)
  · have hfailures := ((errors_perm g.constructorOf htypes).map fun d => ⟨d.1.label, d.2⟩).append
      ((errors_perm g.wrapperOf h).map fun d => (⟨d.1.qualifiedName, d.2⟩ : Failure))
    exact (failures_perm g es).trans (hfailures.trans (failures_perm g es').symm)
  · rw [outcomeAfter_eq, outcomeAfter_eq]

/-- Racks refer to sites. -/
def rackTable : ShapeTable :=
  .ofList [
    ("Api.Model.Rack", .ofProperties [.plain "Site" (.plain "Api.Model" "Site" .reference)]),
    ("Api.Model.Site", .ofProperties [.plain "Name" (.plain "System" "String" .reference)])]

def racks : Generator := ⟨rackTable.catalog, .default, true⟩

def createRack : Endpoint :=
  .ofParameters "FloorApi" "CreateRack" .void [("rack", .plain "Api.Model" "Rack" .reference)]

/-- An endpoint whose verb cannot be told. -/
def mountRack : Endpoint :=
  .ofParameters "FloorApi" "MountRack" .void [("rack", .plain "Api.Model" "Rack" .reference)]

def updateRack : Endpoint :=
  .ofParameters "AuditApi" "UpdateRack" .void [("rack", .plain "Api.Model" "Rack" .reference)]

/-- Endpoints of two clients need sites: the one that comes first has the constructor function of
sites in its unit, and all the rest is as before. Each unit keeps the one wrapper it has. -/
theorem run_perm_racks :
    let forth := racks.run [createRack, mountRack, updateRack]
    let back := racks.run [updateRack, mountRack, createRack]
    (forth.units.map fun u => (u.name, u.constructors.length, u.wrappers.length)) =
        [(some "FloorApi", 1, 1), (some "AuditApi", 0, 1)] ∧
      (back.units.map fun u => (u.name, u.constructors.length, u.wrappers.length)) =
        [(some "AuditApi", 1, 1), (some "FloorApi", 0, 1)] ∧
      (forth.units.flatMap (·.wrappers)).Perm (back.units.flatMap (·.wrappers)) ∧
      (forth.units.flatMap (·.constructors)).Perm (back.units.flatMap (·.constructors)) ∧
      forth.failures.Perm back.failures ∧
      (forth.units.map (·.name)).Nodup ∧
      (forth.units.map (·.name)).Perm (back.units.map (·.name)) ∧
      (∀ u ∈ forth.units,
        ∃ u' ∈ back.units, u'.name = u.name ∧ u.wrappers.Perm u'.wrappers) ∧
      ∀ before before' e, racks.outcomeAfter before e = racks.outcomeAfter before' e := by
  refine ⟨by decide, by decide, ?_⟩
  exact run_perm racks (List.reverse_perm [updateRack, mountRack, createRack])

/-! ## Grouping -/

/-- The generator, with or without a unit for every client type. -/
def regroup (g : Generator) (grouped : Bool) : Generator := { g with grouped }

/-- Every endpoint has a wrapper in the report or a failure. -/
theorem wrapperCount_add_length_endpointFailures (g : Generator) (es : List Endpoint) :
    (g.run es).wrapperCount + (g.endpointFailures es).length = es.length := by
  unfold Report.wrapperCount endpointFailures
  rw [(wrappers_perm g es).length_eq, List.length_map]
  exact length_successes_add_length_errors g.wrapperOf es

/-- Units play no part in what fails. -/
theorem failures_regroup (g : Generator) (grouped : Bool) (es : List Endpoint) :
    ((g.regroup grouped).run es).failures = (g.run es).failures := by
  induction es using List.reverseRecOn with
  | nil => rfl
  | append_singleton es e ih =>
    rw [failures_concat, failures_concat, ih]
    rfl

/-- Without grouping, all that a run builds is in one unit. -/
theorem units_run_regroup_false (g : Generator) {es : List Endpoint} (h : es ≠ []) :
    ((g.regroup false).run es).units =
      [⟨none, g.constructorsOf (g.neededTypes es), g.wrappersOf es⟩] := by
  have hunit : (g.regroup false).unitOf = fun _ => none := rfl
  have hhome : ∀ t ∈ (g.regroup false).neededTypes es,
      (g.regroup false).home es t = some none := by
    intro t ht
    obtain ⟨name, hname, hhome⟩ := exists_home ht
    obtain ⟨e, -, rfl⟩ := List.mem_map.1 hname
    exact hhome
  rw [units_run, hunit, firstSeen_map_const none h, List.map_singleton]
  unfold unitAfter
  rw [List.filter_eq_self.2 fun t ht => decide_eq_true (hhome t ht),
    List.filter_eq_self.2 fun e _ => decide_eq_true (congrFun hunit e)]
  rfl

/-- A run with a unit for every client type and a run with one unit for all differ in where
functions stand, and in nothing else. -/
structure OnlyPlaces (g : Generator) (es : List Endpoint) : Prop where
  /-- With grouping, client types and units correspond, in the order in which they come up. -/
  names : ((g.regroup true).run es).units.map (·.name) =
    (firstSeen (es.map (·.declaringType))).map some
  distinct : (((g.regroup true).run es).units.map (·.name)).Nodup
  /-- The wrappers of a unit are those of the endpoints of its client type, in their order. -/
  wrappers : ∀ u ∈ ((g.regroup true).run es).units,
    u.wrappers = g.wrappersOf (es.filter fun e => some e.declaringType = u.name)
  /-- Without grouping, there is no unit if there are no endpoints, and one for all otherwise. -/
  ungrouped : ((g.regroup false).run es).units =
    if es = [] then [] else [⟨none, g.constructorsOf (g.neededTypes es), g.wrappersOf es⟩]
  /-- Every endpoint has a wrapper or a failure. -/
  count : ∀ grouped, ((g.regroup grouped).run es).wrapperCount +
    (g.endpointFailures es).length = es.length
  /-- What fails is endpoints, and types whose constructor functions cannot be built. -/
  failed : ∀ grouped, ((g.regroup grouped).run es).failures.Perm
    (g.constructorFailures (g.neededTypes es) ++ g.endpointFailures es)
  failures : ((g.regroup true).run es).failures = ((g.regroup false).run es).failures
  same_wrappers : (((g.regroup true).run es).units.flatMap (·.wrappers)).Perm
    (((g.regroup false).run es).units.flatMap (·.wrappers))
  /-- The one unit has the constructor functions in the order in which types are registered. -/
  registered : ((g.regroup false).stateAfter es).registry.types = g.neededTypes es
  /-- A unit of a client type has them in the same order, for the types that an endpoint of this
  client type is the first to bring up. -/
  constructors : ∀ u ∈ ((g.regroup true).run es).units,
    u.constructors = g.constructorsOf (((g.regroup false).stateAfter es).registry.types.filter
      fun t => (g.regroup true).home es t = some u.name)

/-- **Grouping places functions, and does nothing else.** -/
theorem grouping_only_places (g : Generator) (es : List Endpoint) : g.OnlyPlaces es := by
  have hregistered : ((g.regroup false).stateAfter es).registry.types = g.neededTypes es := by
    rw [(RunState.holds_stateAfter (g.regroup false) es).registry]
    rfl
  refine
    { names := ?names
      distinct := nodup_unitNames_run _ es
      wrappers := ?wrappers
      ungrouped := ?ungrouped
      count := fun grouped => wrapperCount_add_length_endpointFailures (g.regroup grouped) es
      failed := fun grouped => failures_perm (g.regroup grouped) es
      failures := ?failures
      same_wrappers := ?same_wrappers
      registered := hregistered
      constructors := ?constructors }
  case names =>
    rw [unitNames_run]
    show firstSeen (es.map fun e => some e.declaringType) = _
    rw [← firstSeen_map (fun _ _ => Option.some.inj), List.map_map]
    rfl
  case wrappers =>
    intro u hu
    rw [eq_unitAfter hu]
    rfl
  case ungrouped =>
    split
    · next h =>
      rw [h]
      rfl
    · next h => exact units_run_regroup_false g h
  case failures => rw [failures_regroup, failures_regroup]
  case same_wrappers =>
    exact (wrappers_perm (g.regroup true) es).trans (wrappers_perm (g.regroup false) es).symm
  case constructors =>
    intro u hu
    rw [hregistered, eq_unitAfter hu]
    rfl

end WrapperGen.Generator
