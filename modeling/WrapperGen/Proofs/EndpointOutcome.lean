import WrapperGen.Data.Obstacles
import WrapperGen.Proofs.BuiltFunctions
import WrapperGen.Proofs.Nameable
import WrapperGen.Proofs.RunReport
/-!
# When an endpoint gets its wrapper

What may stand in the way of a wrapper, said without building it:

1. the method name starts with no verb;
2. the table has no shape for the type of a complex parameter;
3. the type of an entry of the call surface is not nameable;
4. the type of a complex parameter is not nameable;
5. the payload is neither nothing nor nameable.

`Endpoint.obstacles` lists the errors that these make, in this order, and within one of them in the
order of parameters or of the call surface. Each stage of building a wrapper is stopped by its part
of the list, so that the wrapper is stopped by all of it (`wrapperOf_stoppedBy`). An endpoint gets
its wrapper exactly when the list is empty, and otherwise one failure, with the first error of the
list (`endpoint_outcome`).
-/

namespace WrapperGen

open ParameterGroup (ofParameter ofParameters surface)

/-! ## What an endpoint asks for -/

/-- The name starts with the word for a verb, up to the case of ASCII letters. -/
def Verb.Begins (verb : Verb) (method : String) : Prop :=
  ∃ head rest, Text.SameSpelling head verb.methodHead.toList ∧ method.toList = head ++ rest

/-- The table lists the definition of the type. -/
def ShapeTable.Lists (table : ShapeTable) (t : TypeRef) : Prop :=
  ∃ name shape, t.definitionName? = some name ∧ table.get? name = some shape

/-- The names and types of the entries that a parameter brings to the call surface. -/
def ShapeTable.surfaceEntries (table : ShapeTable) (p : Parameter) : List (String × TypeRef) :=
  if p.type.isComplex then
    match table.describe p.type.unwrapNullable with
    | .ok shape => shape.writable.map fun q => (q.name, q.type)
    | .error _ => []
  else [(p.name, p.type)]

/-- All that building a wrapper for an endpoint asks for. -/
structure Endpoint.Buildable (table : ShapeTable) (e : Endpoint) : Prop where
  verb : ∃ verb : Verb, verb.Begins e.method
  listed : ∀ p ∈ e.parameters, p.type.isComplex = true → table.Lists p.type.unwrapNullable
  /-- The types on the call surface, each without its optional wrapper. -/
  surface : ∀ p ∈ e.parameters, ∀ entry ∈ table.surfaceEntries p, entry.2.unwrapNullable.Nameable
  arguments : ∀ p ∈ e.parameters, p.type.isComplex = true → p.type.unwrapNullable.Nameable
  output : e.returnType.payload.isVoidLike = true ∨ e.returnType.payload.Nameable

/-! ## Obstacles -/

theorem Verb.isSome_remainder?_iff {verb : Verb} {method : String} :
    (verb.remainder? method).isSome = true ↔ verb.Begins method := by
  unfold Verb.remainder? Verb.Begins
  rw [Option.isSome_map, Option.isSome_iff_exists]
  simp only [Text.dropHead?_eq_some_iff]
  exact exists_comm

theorem Verb.isSome_ofMethod?_iff {method : String} :
    (ofMethod? method).isSome = true ↔ ∃ verb : Verb, verb.Begins method := by
  unfold ofMethod?
  rw [List.find?_isSome]
  constructor
  · rintro ⟨verb, -, h⟩
    exact ⟨verb, isSome_remainder?_iff.1 h⟩
  · rintro ⟨verb, h⟩
    refine ⟨verb, ?_, isSome_remainder?_iff.2 h⟩
    cases verb <;> decide

instance (method : String) : Decidable (∃ verb : Verb, verb.Begins method) :=
  decidable_of_iff _ Verb.isSome_ofMethod?_iff

/-- What keeps a type from being named for a use. -/
def TypeRef.nameObstacles (t : TypeRef) (use : String) : List Error :=
  if t.Nameable then [] else [.unresolvableTypeName use]

/-- What keeps a table from giving the shape of a type. -/
def ShapeTable.obstacles (table : ShapeTable) (t : TypeRef) : List Error :=
  match t.definitionName? with
  | none => [.unresolvableTypeName ("type '" ++ t.name ++ "' requested from the catalog")]
  | some name => if (table.get? name).isSome then [] else [.typeIntrospection name absent]

namespace Endpoint

def verbObstacles (e : Endpoint) : List Error :=
  if ∃ verb : Verb, verb.Begins e.method then [] else [.unrecognizedVerb e.method]

def listingObstacles (table : ShapeTable) (e : Endpoint) : List Error :=
  e.parameters.flatMap fun p =>
    if p.type.isComplex then table.obstacles p.type.unwrapNullable else []

def surfaceObstacles (table : ShapeTable) (e : Endpoint) : List Error :=
  (e.parameters.flatMap table.surfaceEntries).flatMap fun entry =>
    entry.2.unwrapNullable.nameObstacles ("parameter '" ++ entry.1 ++ "' of " ++ e.qualifiedName)

def argumentObstacles (e : Endpoint) : List Error :=
  e.parameters.flatMap fun p =>
    if p.type.isComplex then
      p.type.unwrapNullable.nameObstacles ("argument '" ++ p.name ++ "' of " ++ e.qualifiedName)
    else []

def outputObstacles (e : Endpoint) : List Error :=
  if e.returnType.payload.isVoidLike then []
  else e.returnType.payload.nameObstacles ("return type of " ++ e.qualifiedName)

/-- All that stands in the way of a wrapper for the endpoint, in the order in which it is met. -/
def obstacles (table : ShapeTable) (e : Endpoint) : List Error :=
  e.verbObstacles ++ e.listingObstacles table ++
    (e.surfaceObstacles table ++ (e.argumentObstacles ++ e.outputObstacles))

end Endpoint

theorem TypeRef.nameObstacles_eq_nil_iff {t : TypeRef} {use : String} :
    t.nameObstacles use = [] ↔ t.Nameable := by
  simp [nameObstacles]

theorem ShapeTable.obstacles_eq_nil_iff {table : ShapeTable} {t : TypeRef} :
    table.obstacles t = [] ↔ table.Lists t := by
  unfold obstacles Lists
  cases t.definitionName? with
  | none => simp
  | some name => simp [Option.isSome_iff_exists]

/-- Nothing stands in the way of a wrapper exactly when there is all that it asks for. -/
theorem Endpoint.obstacles_eq_nil_iff {table : ShapeTable} {e : Endpoint} :
    e.obstacles table = [] ↔ e.Buildable table := by
  have hverb : e.verbObstacles = [] ↔ ∃ verb : Verb, verb.Begins e.method := by
    simp [verbObstacles]
  have hlisted : e.listingObstacles table = [] ↔
      ∀ p ∈ e.parameters, p.type.isComplex = true → table.Lists p.type.unwrapNullable := by
    simp [listingObstacles, ShapeTable.obstacles_eq_nil_iff]
  have hsurface : e.surfaceObstacles table = [] ↔ ∀ p ∈ e.parameters,
      ∀ entry ∈ table.surfaceEntries p, entry.2.unwrapNullable.Nameable := by
    simp only [surfaceObstacles, List.flatMap_eq_nil_iff, TypeRef.nameObstacles_eq_nil_iff,
      List.mem_flatMap]
    exact ⟨fun h p hp entry hentry => h entry ⟨p, hp, hentry⟩,
      fun h entry ⟨p, hp, hentry⟩ => h p hp entry hentry⟩
  have harguments : e.argumentObstacles = [] ↔
      ∀ p ∈ e.parameters, p.type.isComplex = true → p.type.unwrapNullable.Nameable := by
    simp [argumentObstacles, TypeRef.nameObstacles_eq_nil_iff]
  have houtput : e.outputObstacles = [] ↔
      e.returnType.payload.isVoidLike = true ∨ e.returnType.payload.Nameable := by
    unfold outputObstacles
    cases e.returnType.payload.isVoidLike <;> simp [TypeRef.nameObstacles_eq_nil_iff]
  simp only [obstacles, List.append_eq_nil_iff, hverb, hlisted, hsurface, harguments, houtput]
  constructor
  · rintro ⟨⟨hverb, hlisted⟩, hsurface, harguments, houtput⟩
    exact ⟨hverb, hlisted, hsurface, harguments, houtput⟩
  · intro h
    exact ⟨⟨h.verb, h.listed⟩, h.surface, h.arguments, h.output⟩

/-! ## What stops each stage -/

theorem resolve_stoppedBy (t : TypeRef) (use : String) :
    StoppedBy (t.nameObstacles use) (FunctionBuilder.resolve t use) := by
  unfold TypeRef.nameObstacles FunctionBuilder.resolve
  rw [← if_congr TypeRef.isSome_fullName?_iff rfl rfl]
  cases t.fullName? with
  | none => exact .error _ []
  | some name => exact .free name

theorem ShapeTable.describe_stoppedBy (table : ShapeTable) (t : TypeRef) :
    StoppedBy (table.obstacles t) (table.describe t) := by
  unfold ShapeTable.obstacles ShapeTable.describe
  cases t.definitionName? with
  | none => exact .error _ []
  | some name =>
    cases hget : table.get? name with
    | none => simp only [hget]; exact .error _ []
    | some shape => simp only [hget]; exact .free shape

theorem Verb.ofMethod_stoppedBy (e : Endpoint) : StoppedBy e.verbObstacles (ofMethod e.method) := by
  unfold Endpoint.verbObstacles ofMethod
  rw [← if_congr Verb.isSome_ofMethod?_iff rfl rfl]
  cases ofMethod? e.method with
  | none => exact .error _ []
  | some verb => exact .free verb

/-- Once there is a verb, there is a noun. -/
theorem Noun.ofEndpoint_stoppedBy {e : Endpoint} {verb : Verb}
    (h : Verb.ofMethod e.method = .ok verb) : StoppedBy [] (ofEndpoint e) := by
  unfold ofEndpoint
  rw [h]
  -- the branches choose between the names of the method and of the payload; each of them is a noun
  show StoppedBy [] (if _ then _ else _)
  split
  · split
    · split
      · exact .free _
      · exact .free _
    · exact .free _
  · exact .free _

variable {table : ShapeTable}

/-! ## Groups and the call surface -/

theorem ParameterGroup.ofParameters_stoppedBy (e : Endpoint) :
    StoppedBy (e.listingObstacles table) (ofParameters table.catalog e.parameters) := by
  refine (isWalk_ofParametersFrom table.catalog).stoppedBy fun d _ => ?_
  unfold ofParameter
  cases d.1.type.isComplex with
  | true => exact (table.describe_stoppedBy d.1.type.unwrapNullable).map _
  | false => exact .free _

theorem ParameterGroup.map_entry_lift {p : Parameter} {k : Nat} {g : ParameterGroup}
    (h : ofParameter table.catalog k p = .ok g) :
    g.lift.map (fun q => (q.name, q.type)) = table.surfaceEntries p := by
  unfold ShapeTable.surfaceEntries
  cases hp : p.type.isComplex with
  | true =>
    obtain ⟨shape, hshape, rfl⟩ := (ofParameter_of_isComplex hp).1 h
    have hdescribe : table.describe p.type.unwrapNullable = .ok shape := hshape
    rw [if_pos rfl, hdescribe, lift, if_pos rfl, List.map_map]
    rfl
  | false =>
    rw [ofParameter_of_not_isComplex hp k] at h
    rw [← Except.ok.inj h]
    rfl

namespace FunctionBuilder

/-- The parameters of a wrapper are stopped by the types on the call surface. -/
theorem surfaceParameters_stoppedBy {e : Endpoint} {gs : List ParameterGroup}
    (hgs : ofParameters table.catalog e.parameters = .ok gs) :
    StoppedBy (e.surfaceObstacles table) (surfaceParameters e 1 (surface gs)) := by
  have hentries : (surface gs).map (fun q => (q.name, q.type)) =
      e.parameters.flatMap table.surfaceEntries :=
    ParameterGroup.map_surface ParameterGroup.map_entry_lift hgs
  unfold Endpoint.surfaceObstacles
  rw [← hentries, List.flatMap_map]
  refine (isWalk_surfaceParameters e).stoppedBy fun d _ => ?_
  exact (resolve_stoppedBy d.1.type.unwrapNullable _).map _

/-! ## Arguments -/

/-- An argument is stopped by the type of its parameter, if that is complex; its shape is known. -/
theorem argument_stoppedBy {e : Endpoint} {gs : List ParameterGroup}
    (hgs : ofParameters table.catalog e.parameters = .ok gs) {d : Parameter × Nat}
    (hd : d ∈ e.parameters.zipIdx) :
    StoppedBy
      (if d.1.type.isComplex then
        d.1.type.unwrapNullable.nameObstacles
          ("argument '" ++ d.1.name ++ "' of " ++ e.qualifiedName)
      else [])
      (argument table.catalog (surface gs) e d.2 d.1) := by
  obtain ⟨g, hg, hmembers⟩ := ParameterGroup.exists_group hgs hd
  cases hp : d.1.type.isComplex with
  | true =>
    obtain ⟨shape, hshape, rfl⟩ := (ParameterGroup.ofParameter_of_isComplex hp).1 hg
    rw [argument_lifted hp _ shape.writable hmembers, if_pos rfl]
    unfold buildArgument
    rw [groupType_lifted (by rfl)]
    refine (resolve_stoppedBy d.1.type.unwrapNullable _).bind_free fun typeName _ => ?_
    -- the group has been made of this shape, so asking for it once more cannot fail
    rw [hshape]
    exact .free _
  | false =>
    rw [ParameterGroup.ofParameter_of_not_isComplex hp d.2] at hg
    obtain rfl := Except.ok.inj hg
    rw [if_neg (by decide)]
    unfold argument
    rw [hmembers]
    exact .free _

theorem arguments_stoppedBy {e : Endpoint} {gs : List ParameterGroup}
    (hgs : ofParameters table.catalog e.parameters = .ok gs) :
    StoppedBy e.argumentObstacles (arguments table.catalog (surface gs) e 0 e.parameters) :=
  (isWalk_arguments table.catalog (surface gs) e).stoppedBy fun _ hd => argument_stoppedBy hgs hd

theorem outputType_stoppedBy (e : Endpoint) : StoppedBy e.outputObstacles (outputType e) := by
  unfold Endpoint.outputObstacles outputType
  split
  · exact .free none
  · exact (resolve_stoppedBy e.returnType.payload _).map some

/-- A wrapper is stopped by the call surface, then by its arguments, then by its output type. -/
theorem wrapper_stoppedBy {b : FunctionBuilder} {verb : Verb} {noun : String} {e : Endpoint}
    {gs : List ParameterGroup} (hgs : ofParameters table.catalog e.parameters = .ok gs) :
    StoppedBy (e.surfaceObstacles table ++ (e.argumentObstacles ++ e.outputObstacles))
      (b.wrapper table.catalog verb noun (surface gs) e) :=
  (surfaceParameters_stoppedBy hgs).bind fun _ _ =>
    (arguments_stoppedBy hgs).bind fun _ _ => (outputType_stoppedBy e).map _

end FunctionBuilder

/-! ## Constructor functions -/

/-- The settable properties of a type, if the table has its shape. -/
def ShapeTable.settable (table : ShapeTable) (t : TypeRef) : List Property :=
  match table.describe t with
  | .ok shape => shape.writable
  | .error _ => []

/-- All that stands in the way of a constructor function for a type, in the order in which it is
met: the type's own name, its shape, and the types of its settable properties. -/
def ShapeTable.constructorObstacles (table : ShapeTable) (t : TypeRef) : List Error :=
  t.nameObstacles ("constructor type '" ++ t.name ++ "'") ++ (table.obstacles t ++
    (table.settable t).flatMap fun q => q.type.unwrapNullable.nameObstacles
      ("property '" ++ q.name ++ "' of '" ++ t.label ++ "'"))

namespace FunctionBuilder

theorem propertyParameters_stoppedBy (b : FunctionBuilder) (typeName : String)
    (qs : List Property) :
    StoppedBy
      (qs.flatMap fun q => q.type.unwrapNullable.nameObstacles
        ("property '" ++ q.name ++ "' of '" ++ typeName ++ "'"))
      (b.propertyParameters typeName 0 qs) := by
  refine (isWalk_propertyParameters b typeName).stoppedBy fun d _ => ?_
  exact (resolve_stoppedBy d.1.type.unwrapNullable _).map _

theorem constructor_stoppedBy (b : FunctionBuilder) (noun : String) (t : TypeRef) :
    StoppedBy (table.constructorObstacles t) (b.constructor table.catalog noun t) := by
  refine (resolve_stoppedBy t _).bind fun typeName hname => ?_
  have hlabel : t.label = typeName := by
    unfold TypeRef.label
    rw [resolve_eq_ok_iff.1 hname]
  refine (table.describe_stoppedBy t).bind fun shape hshape => ?_
  have hsettable : table.settable t = shape.writable := by
    unfold ShapeTable.settable
    rw [hshape]
  -- the obstacles speak of the label and the settable properties, which by now are these
  rw [hlabel, hsettable]
  exact (propertyParameters_stoppedBy b typeName shape.writable).map _

end FunctionBuilder

/-! ## Endpoints -/

namespace Generator

/-- The generator that answers from a table. -/
def ofTable (table : ShapeTable) (b : FunctionBuilder) (grouped : Bool) : Generator :=
  ⟨table.catalog, b, grouped⟩

theorem prepare_stoppedBy (table : ShapeTable) (b : FunctionBuilder) (grouped : Bool)
    (e : Endpoint) :
    StoppedBy (e.verbObstacles ++ e.listingObstacles table)
      ((ofTable table b grouped).prepare e) := by
  refine (Verb.ofMethod_stoppedBy e).bind fun verb hverb => ?_
  refine (Noun.ofEndpoint_stoppedBy hverb).bind fun noun _ => ?_
  exact (ParameterGroup.ofParameters_stoppedBy e).map _

theorem groups_of_prepare {e : Endpoint} {g : Generator} {verb : Verb} {noun : String}
    {gs : List ParameterGroup} (h : g.prepare e = .ok (verb, noun, gs)) :
    ofParameters g.catalog e.parameters = .ok gs := by
  unfold prepare at h
  obtain ⟨verb', -, h⟩ := bind_eq_ok_iff.1 h
  obtain ⟨noun', -, h⟩ := bind_eq_ok_iff.1 h
  obtain ⟨gs', hgs, h⟩ := bind_eq_ok_iff.1 h
  cases h
  exact hgs

/-- The wrapper of an endpoint is stopped by what stands in its way. -/
theorem wrapperOf_stoppedBy (table : ShapeTable) (b : FunctionBuilder) (grouped : Bool)
    (e : Endpoint) :
    StoppedBy (e.obstacles table) ((ofTable table b grouped).wrapperOf e) := by
  refine (prepare_stoppedBy table b grouped e).bind ?_
  rintro ⟨verb, noun, gs⟩ hprepare
  exact FunctionBuilder.wrapper_stoppedBy (groups_of_prepare hprepare)

/-- What an endpoint adds to the failures of a run: the first error in its way, if there is one. -/
def ownFailure (table : ShapeTable) (e : Endpoint) : List Failure :=
  ((e.obstacles table).head?.map fun error => ⟨e.qualifiedName, error⟩).toList

theorem endpointFailures_eq (table : ShapeTable) (b : FunctionBuilder) (grouped : Bool)
    (es : List Endpoint) :
    (ofTable table b grouped).endpointFailures es = es.flatMap (ownFailure table) := by
  have hown : ∀ e, (ofTable table b grouped).endpointFailures [e] = ownFailure table e := by
    intro e
    have h := wrapperOf_stoppedBy table b grouped e
    unfold endpointFailures ownFailure
    -- the failures of a run over this endpoint alone
    cases hf : (ofTable table b grouped).wrapperOf e with
    | ok f =>
      rw [errors_singleton_of_ok hf, h.exists_ok_iff.1 ⟨f, hf⟩]
      rfl
    | error error =>
      rw [errors_singleton_of_error hf, h.eq_error_iff.1 hf]
      rfl
  induction es with
  | nil => rfl
  | cons e es ih =>
    rw [← List.singleton_append, endpointFailures_append, ih, hown]
    rfl

/-- **When an endpoint gets its wrapper.** Whatever a run has processed before, it builds the
wrapper of an endpoint exactly when there is all that this asks for, and otherwise fails with the
first error in its way. So the report on a run has the wrappers of just those endpoints that have
nothing in their way, and one failure, under its own name, for each of the others; what else fails
is types. -/
theorem endpoint_outcome (table : ShapeTable) (b : FunctionBuilder) (grouped : Bool) :
    (∀ before e,
      ((∃ f, (ofTable table b grouped).outcomeAfter before e = .ok f) ↔ e.Buildable table) ∧
      (e.Buildable table ↔ e.obstacles table = []) ∧
      ∀ error, (ofTable table b grouped).outcomeAfter before e = .error error ↔
        (e.obstacles table).head? = some error) ∧
    ∀ es,
      (((ofTable table b grouped).run es).units.flatMap (·.wrappers)).Perm
        (successes ((ofTable table b grouped).outcomeAfter []) es) ∧
      ((ofTable table b grouped).run es).failures.Perm
        ((ofTable table b grouped).constructorFailures
            ((ofTable table b grouped).neededTypes es) ++
          es.flatMap (ownFailure table)) := by
  refine ⟨fun before e => ?_, fun es => ⟨?_, ?_⟩⟩
  · have h := wrapperOf_stoppedBy table b grouped e
    rw [outcomeAfter_eq]
    refine ⟨?_, Endpoint.obstacles_eq_nil_iff.symm, fun error => h.eq_error_iff⟩
    rw [h.exists_ok_iff, Endpoint.obstacles_eq_nil_iff]
  · have houtcome : (ofTable table b grouped).outcomeAfter [] =
        (ofTable table b grouped).wrapperOf := funext (outcomeAfter_eq _ [])
    rw [houtcome]
    exact wrappers_perm _ es
  · rw [← endpointFailures_eq]
    exact failures_perm _ es

/-- A page of something left open can be listed, but no type literal names it. -/
example :
    (Endpoint.ofParameters "PageApi" "UpdatePage" .void
      [("page", .generic "Api.Model" "Page" [.parameter "T"])]).obstacles
        (.ofList [("Api.Model.Page", .ofProperties [])]) =
      [.unresolvableTypeName "argument 'page' of PageApi.UpdatePage"] := by
  decide

end Generator

end WrapperGen
