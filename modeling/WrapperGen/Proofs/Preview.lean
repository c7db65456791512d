import WrapperGen.Command.Inspect
import WrapperGen.Proofs.EndpointListing
/-!
# Inspections and runs

An inspection names the function of an endpoint without building it, from the verb and the noun
alone. It tells beforehand what a run over the same endpoints calls its wrappers.

1. What is found in an assembly has a verb, hence a noun, hence a name
   (`isSome_functionName?_of_mem_endpoints`).
2. A wrapper that is built has this name (`functionName?_of_wrapperOf`), and so have the wrappers of
   a unit (`map_name_wrappersOf`, by induction on the endpoints).
3. So a report lists the endpoints of a run under the names of their wrappers
   (`inspection_previews_run`).
-/

namespace WrapperGen

namespace Command

open Generator (outcomeAfter_eq)

namespace EndpointView

theorem isSome_functionName?_of_mem_endpoints (b : FunctionBuilder) {a : Assembly}
    {f : ClientFilter} {e : Endpoint} (h : e ∈ a.endpoints f) :
    (functionName? b e).isSome = true := by
  obtain ⟨verb, hverb⟩ := Assembly.exists_begins_of_mem_endpoints h
  have hverb : Verb.ofMethod e.method = .ok verb := Verb.ofMethod_eq_ok_iff.2 hverb
  obtain ⟨noun, hnoun⟩ := (Noun.ofEndpoint_stoppedBy hverb).exists_ok_iff.2 rfl
  unfold functionName?
  rw [hverb, hnoun]
  rfl

/-- A wrapper has the name that is told beforehand. -/
theorem functionName?_of_wrapperOf {g : Generator} {e : Endpoint} {f : FunctionSpec}
    (h : g.wrapperOf e = .ok f) : functionName? g.builder e = some f.name := by
  unfold Generator.wrapperOf at h
  obtain ⟨⟨verb, noun, groups⟩, hprepare, h⟩ := bind_eq_ok_iff.1 h
  obtain ⟨specs, as, out, -, -, -, rfl⟩ := FunctionBuilder.wrapper_eq_ok_iff.1 h
  unfold Generator.prepare at hprepare
  obtain ⟨verb', hverb, hprepare⟩ := bind_eq_ok_iff.1 hprepare
  obtain ⟨noun', hnoun, hprepare⟩ := bind_eq_ok_iff.1 hprepare
  obtain ⟨groups', -, hprepare⟩ := bind_eq_ok_iff.1 hprepare
  cases hprepare
  unfold functionName?
  rw [hverb, hnoun]

/-- So have the wrappers of endpoints in a row: names are told of all, and those without a wrapper
are passed over. -/
theorem map_name_wrappersOf (g : Generator) (es : List Endpoint) :
    (g.wrappersOf es).map (fun f => some f.name) =
      (es.filter fun e => (g.wrapperOf e).isOk).map (functionName? g.builder) := by
  induction es with
  | nil => rfl
  | cons e es ih =>
    rw [← List.singleton_append, Generator.wrappersOf_append, List.map_append, ih,
      List.filter_append, List.map_append]
    congr 1
    unfold Generator.wrappersOf
    cases h : g.wrapperOf e with
    | ok f =>
      rw [successes_singleton_of_ok h, List.filter_singleton, h]
      exact congrArg (fun name => [name]) (functionName?_of_wrapperOf h).symm
    | error error =>
      rw [successes_singleton_of_error h, List.filter_singleton, h]
      rfl

end EndpointView

/-- What is told of endpoints, beside a run over them. -/
structure Previews (views : List EndpointView) (g : Generator) (es : List Endpoint) : Prop where
  /-- Every endpoint is listed, in order and with the name of a function. -/
  lists : List.Forall₂ (fun e v => v.endpoint = e.qualifiedName ∧ v.returns = e.returnType.label ∧
    v.parameters = e.parameters.map (fun p => p.name ++ ": " ++ p.type.label) ∧
    v.function.isSome = true) es views
  /-- A wrapper that the run builds when it comes to an endpoint has the name listed for it. -/
  named : ∀ (i : Nat) (e : Endpoint) (v : EndpointView), es[i]? = some e → views[i]? = some v →
    ∀ f, g.outcomeAfter (es.take i) e = .ok f → v.function = some f.name
  /-- The wrappers of a unit have the names listed for those of its endpoints that get one. -/
  units : ∀ u ∈ (g.run es).units, u.wrappers.map (fun f => some f.name) =
    ((es.zip views).filter fun d =>
      decide (g.unitOf d.1 = u.name) && (g.wrapperOf d.1).isOk).map (·.2.function)

/-- **An inspection tells what a run calls its wrappers.** For every assembly and configuration, the
detailed report lists the endpoints that a run goes through and counts them, and the name listed for
an endpoint is that of its wrapper, if the run builds one. -/
theorem inspection_previews_run (c : Config) (a : Assembly) (catalog : Catalog) :
    (InspectReport.ofAssembly c true a).summary.endpointCount = (a.endpoints c.filter).length ∧
      ∃ views, (InspectReport.ofAssembly c true a).endpoints = some views ∧
        Previews views (c.generator catalog) (a.endpoints c.filter) := by
  refine ⟨a.endpointCount_summary c.filter, _, rfl, ?lists, ?named, ?units⟩
  case lists =>
    rw [List.forall₂_map_right_iff, List.forall₂_same]
    intro e he
    exact ⟨rfl, rfl, rfl, EndpointView.isSome_functionName?_of_mem_endpoints c.builder he⟩
  case named =>
    intro i e v he hv f hf
    rw [List.getElem?_map, he] at hv
    cases hv
    rw [outcomeAfter_eq] at hf
    exact EndpointView.functionName?_of_wrapperOf hf
  case units =>
    intro u hu
    have hwrappers : u.wrappers = (c.generator catalog).wrappersOf
        ((a.endpoints c.filter).filter fun e => (c.generator catalog).unitOf e = u.name) := by
      rw [Generator.eq_unitAfter hu]
      rfl
    -- the list of views goes through the endpoints, so filtering pairs is filtering endpoints
    have hzip : (a.endpoints c.filter).zip
        ((a.endpoints c.filter).map (EndpointView.ofEndpoint c.builder)) =
        (a.endpoints c.filter).map fun e => (e, EndpointView.ofEndpoint c.builder e) :=
      List.map_prod_left_eq_zip.symm
    rw [hwrappers, EndpointView.map_name_wrappersOf, List.filter_filter, hzip, List.filter_map,
      List.map_map]
    congr 2
    funext e
    exact Bool.and_comm _ _

end Command

end WrapperGen
