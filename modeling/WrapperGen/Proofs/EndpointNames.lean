import WrapperGen.Assembly.Discovery
import WrapperGen.Proofs.EndpointOutcome
import WrapperGen.Text.Bytes
/-!
# Names of endpoints

1. No name begins with the words of two verbs, so the order in which verbs are tried is immaterial
   (`Verb.eq_of_begins`, `Verb.find?_eq_ofMethod?`).
2. A name is that of an endpoint exactly when it has a verb (`Method.namesEndpoint_iff`).
3. So no endpoint of an assembly fails for want of a verb, and all that fails in a run over them
   concerns types (`discovery_agrees_with_naming`).
-/

namespace WrapperGen

/-! ## Verbs -/

namespace Verb

/-- A name that begins with the word for a verb has the first letter of that word. -/
theorem head?_of_begins {verb : Verb} {method : String} (h : verb.Begins method) :
    method.toList.head?.map Char.toLower = verb.methodHead.toList.head?.map Char.toLower := by
  obtain ⟨head, rest, hspell, hmethod⟩ := h
  rw [hmethod, ← List.head?_map, ← List.head?_map, List.map_append, hspell, List.head?_append]
  cases verb <;> rfl

/-- No name begins with the words of two verbs. -/
theorem eq_of_begins {verb verb' : Verb} {method : String} (h : verb.Begins method)
    (h' : verb'.Begins method) : verb = verb' := by
  have hletter := (head?_of_begins h).symm.trans (head?_of_begins h')
  -- the words begin with different letters
  revert hletter
  cases verb <;> cases verb' <;> decide

theorem find?_eq_some_iff {order : List Verb} (horder : ∀ verb, verb ∈ order) {method : String}
    {verb : Verb} :
    (order.find? fun verb => (verb.remainder? method).isSome) = some verb ↔
      verb.Begins method := by
  constructor
  · intro h
    have hsome := List.find?_some h
    exact isSome_remainder?_iff.1 hsome
  · intro h
    cases hfind : order.find? fun verb => (verb.remainder? method).isSome with
    | none =>
      have hnone := List.find?_eq_none.1 hfind verb (horder verb)
      exact absurd (isSome_remainder?_iff.2 h) hnone
    | some verb' =>
      have hsome := List.find?_some hfind
      rw [eq_of_begins h (isSome_remainder?_iff.1 hsome)]

/-- The word for a verb can be taken off the bytes of a name. -/
theorem remainder?_eq_stripHead? (verb : Verb) (method : String) :
    verb.remainder? method =
      (Text.stripHead? verb.methodHead.toList method.toList).map String.ofList := by
  rw [Text.stripHead?_eq_dropHead?, remainder?]

theorem mem_all (verb : Verb) : verb ∈ all := by
  cases verb <;> decide

/-- The verb of a name does not depend on the order in which verbs are tried. -/
theorem find?_eq_ofMethod? {order : List Verb} (horder : ∀ verb, verb ∈ order) (method : String) :
    (order.find? fun verb => (verb.remainder? method).isSome) = ofMethod? method :=
  Option.ext fun _ => (find?_eq_some_iff horder).trans (find?_eq_some_iff mem_all).symm

theorem ofMethod_eq_ok_iff {method : String} {verb : Verb} :
    ofMethod method = .ok verb ↔ verb.Begins method := by
  rw [← find?_eq_some_iff mem_all]
  show _ ↔ ofMethod? method = some verb
  unfold ofMethod
  cases ofMethod? method <;> simp

end Verb

/-! ## Discovery -/

namespace Method

/-- The words of discovery are those of the verbs. -/
theorem endpointHeads_eq : endpointHeads = Verb.all.map Verb.methodHead := rfl

theorem sameSpelling_take_iff {head : List Char} {text : List Char} :
    Text.SameSpelling (text.take head.length) head ↔
      ∃ head' rest, Text.SameSpelling head' head ∧ text = head' ++ rest := by
  constructor
  · intro h
    exact ⟨_, _, h, (List.take_append_drop _ _).symm⟩
  · rintro ⟨head', rest, h, rfl⟩
    have hlen : head'.length = head.length := by simpa using congrArg List.length h
    rwa [← hlen, List.take_left]

/-- The words can be looked for in the bytes of a name. -/
theorem namesEndpoint_eq_any_stripHead? (name : String) :
    namesEndpoint name =
      endpointHeads.any fun head => (Text.stripHead? head.toList name.toList).isSome := by
  unfold namesEndpoint
  refine List.any_congr rfl fun head => ?_
  rw [Bool.eq_iff_iff, decide_eq_true_iff, ← String.length_toList, sameSpelling_take_iff,
    Text.stripHead?_eq_dropHead?, Option.isSome_iff_exists]
  simp only [Text.dropHead?_eq_some_iff]
  exact exists_comm

/-- Discovery takes a name for that of an endpoint exactly when it has a verb. -/
theorem namesEndpoint_iff {name : String} :
    namesEndpoint name = true ↔ ∃ verb, Verb.ofMethod name = .ok verb := by
  unfold namesEndpoint
  simp only [endpointHeads_eq, List.any_map, List.any_eq_true, Function.comp_apply,
    decide_eq_true_eq, Verb.ofMethod_eq_ok_iff, ← String.length_toList, sameSpelling_take_iff]
  exact ⟨fun ⟨verb, _, h⟩ => ⟨verb, h⟩, fun ⟨verb, h⟩ => ⟨verb, Verb.mem_all verb, h⟩⟩

end Method

theorem Assembly.exists_begins_of_mem_endpoints {a : Assembly} {f : ClientFilter} {e : Endpoint}
    (h : e ∈ a.endpoints f) : ∃ verb : Verb, verb.Begins e.method := by
  unfold Assembly.endpoints at h
  obtain ⟨d, -, he⟩ := List.mem_flatMap.1 h
  obtain ⟨m, hm, rfl⟩ := List.mem_map.1 he
  have hnames : Method.namesEndpoint m.name = true := by
    have hendpoint := (List.mem_filter.1 hm).2
    simp only [Method.isEndpoint, Bool.and_eq_true] at hendpoint
    exact hendpoint.2
  obtain ⟨verb, hverb⟩ := Method.namesEndpoint_iff.1 hnames
  exact ⟨verb, Verb.ofMethod_eq_ok_iff.1 hverb⟩

/-! ## Failures that concern types -/

/-- Some type has no full name, or the catalog does not know it. -/
def Error.ConcernsType (error : Error) : Prop :=
  error.isUnresolvableTypeName = true ∨ error.isTypeIntrospection = true

theorem Error.ConcernsType.isUnrecognizedVerb {error : Error} (h : error.ConcernsType) :
    error.isUnrecognizedVerb = false := by
  cases error with
  | unrecognizedVerb method => simp [ConcernsType, isUnresolvableTypeName, isTypeIntrospection] at h
  | _ => rfl

theorem Error.ConcernsType.isLocal {error : Error} (h : error.ConcernsType) :
    error.isLocal = true := by
  unfold Error.isLocal
  rcases h with h | h
  · simp [h]
  · simp [h]

theorem concernsType_of_mem_nameObstacles {t : TypeRef} {use : String} {error : Error}
    (h : error ∈ t.nameObstacles use) : error.ConcernsType := by
  unfold TypeRef.nameObstacles at h
  split at h
  · cases h
  · rw [List.mem_singleton.1 h]
    exact .inl rfl

theorem concernsType_of_mem_tableObstacles {table : ShapeTable} {t : TypeRef} {error : Error}
    (h : error ∈ table.obstacles t) : error.ConcernsType := by
  unfold ShapeTable.obstacles at h
  split at h
  · rw [List.mem_singleton.1 h]
    exact .inl rfl
  · split at h
    · cases h
    · rw [List.mem_singleton.1 h]
      exact .inr rfl

/-- What stands in the way of an endpoint that has a verb is types. -/
theorem concernsType_of_mem_obstacles {table : ShapeTable} {e : Endpoint}
    (hverb : ∃ verb : Verb, verb.Begins e.method) {error : Error} (h : error ∈ e.obstacles table) :
    error.ConcernsType := by
  unfold Endpoint.obstacles at h
  rw [Endpoint.verbObstacles, if_pos hverb, List.nil_append] at h
  -- what is left comes from the catalog, the call surface, the arguments and the output type
  rcases List.mem_append.1 h with h | h
  · obtain ⟨p, -, h⟩ := List.mem_flatMap.1 h
    split at h
    · exact concernsType_of_mem_tableObstacles h
    · cases h
  rcases List.mem_append.1 h with h | h
  · obtain ⟨entry, -, h⟩ := List.mem_flatMap.1 h
    exact concernsType_of_mem_nameObstacles h
  rcases List.mem_append.1 h with h | h
  · obtain ⟨p, -, h⟩ := List.mem_flatMap.1 h
    split at h
    · exact concernsType_of_mem_nameObstacles h
    · cases h
  · unfold Endpoint.outputObstacles at h
    split at h
    · cases h
    · exact concernsType_of_mem_nameObstacles h

theorem concernsType_of_mem_constructorObstacles {table : ShapeTable} {t : TypeRef} {error : Error}
    (h : error ∈ table.constructorObstacles t) : error.ConcernsType := by
  unfold ShapeTable.constructorObstacles at h
  rcases List.mem_append.1 h with h | h
  · exact concernsType_of_mem_nameObstacles h
  rcases List.mem_append.1 h with h | h
  · exact concernsType_of_mem_tableObstacles h
  · obtain ⟨q, -, h⟩ := List.mem_flatMap.1 h
    exact concernsType_of_mem_nameObstacles h

/-! ## Runs over the endpoints of an assembly -/

open Generator (ofTable ownFailure)

theorem concernsType_of_mem_failures {a : Assembly} {f : ClientFilter} {b : FunctionBuilder}
    {grouped : Bool} {failure : Failure}
    (h : failure ∈ ((ofTable a.shapes b grouped).run (a.endpoints f)).failures) :
    failure.error.ConcernsType := by
  rw [(Generator.failures_perm _ _).mem_iff, List.mem_append] at h
  rcases h with h | h
  · unfold Generator.constructorFailures at h
    obtain ⟨d, hd, rfl⟩ := List.mem_map.1 h
    have hfails := error_of_mem_errors hd
    exact concernsType_of_mem_constructorObstacles
      ((FunctionBuilder.constructor_stoppedBy b _ d.1).mem_of_eq_error hfails)
  · rw [Generator.endpointFailures_eq] at h
    obtain ⟨e, he, h⟩ := List.mem_flatMap.1 h
    unfold ownFailure at h
    rw [Option.mem_toList, Option.map_eq_some_iff] at h
    obtain ⟨error, herror, rfl⟩ := h
    exact concernsType_of_mem_obstacles (Assembly.exists_begins_of_mem_endpoints he)
      (List.mem_of_mem_head? herror)

/-- **Discovery and naming agree.** A name is taken for that of an endpoint exactly when it has a
verb. Both look at as many bytes of the name as a word has, and bytes that end inside a character
spell nothing; no name has two verbs, so the order in which verbs are tried is immaterial. Hence no
run over the endpoints of an assembly, with the shapes of that assembly, fails for want of a verb:
all of its failures concern types, and each is local. -/
theorem discovery_agrees_with_naming :
    (∀ name, Method.namesEndpoint name = true ↔ ∃ verb, Verb.ofMethod name = .ok verb) ∧
    (∀ name, Method.namesEndpoint name =
      Method.endpointHeads.any fun head => (Text.stripHead? head.toList name.toList).isSome) ∧
    (∀ (name : String) (verb : Verb), verb.remainder? name =
      (Text.stripHead? verb.methodHead.toList name.toList).map String.ofList) ∧
    (∀ (name : String) (verb verb' : Verb), (verb.remainder? name).isSome = true →
      (verb'.remainder? name).isSome = true → verb = verb') ∧
    (∀ (name : String) (order : List Verb), order.Perm Verb.all →
      (order.find? fun verb => (verb.remainder? name).isSome) = Verb.ofMethod? name) ∧
    ∀ (a : Assembly) (f : ClientFilter) (b : FunctionBuilder) (grouped : Bool),
      ∀ failure ∈ ((ofTable a.shapes b grouped).run (a.endpoints f)).failures,
        failure.error.isUnrecognizedVerb = false ∧
        (failure.error.isUnresolvableTypeName = true ∨ failure.error.isTypeIntrospection = true) ∧
        failure.error.isLocal = true := by
  refine ⟨fun _ => Method.namesEndpoint_iff, Method.namesEndpoint_eq_any_stripHead?,
    fun name verb => verb.remainder?_eq_stripHead? name, ?_, ?_, ?_⟩
  · intro name verb verb' h h'
    exact Verb.eq_of_begins (Verb.isSome_remainder?_iff.1 h) (Verb.isSome_remainder?_iff.1 h')
  · intro name order horder
    exact Verb.find?_eq_ofMethod? (fun verb => horder.mem_iff.2 verb.mem_all) name
  · intro a f b grouped failure h
    have hconcerns := concernsType_of_mem_failures h
    exact ⟨hconcerns.isUnrecognizedVerb, hconcerns, hconcerns.isLocal⟩

/-- An assembly with one client and one endpoint, which takes a type that is not listed. The third
byte of the other method's name is the first half of a character. -/
def rackAssembly : Assembly where
  name := "Racks"
  types := [{
    space := some "Api"
    name := "RackApi"
    kind := .reference
    isExported := true
    isAbstract := false
    shape := .ofProperties []
    methods := [
      ⟨"getRack", true, false, false, true, .plain "Api.Model" "Rack" .reference,
        [⟨"filter", .plain "Api.Model" "RackFilter" .reference⟩]⟩,
      ⟨"Geéks", true, false, false, true, .void, []⟩] }]

/-- The endpoint of the assembly fails for its type, and not for its verb. -/
theorem discovery_agrees_with_naming_racks :
    ((rackAssembly.endpoints .all).map (·.method)) = ["getRack"] ∧
      ((ofTable rackAssembly.shapes .default true).run (rackAssembly.endpoints .all)).failures =
        [⟨"RackApi.getRack", .typeIntrospection "Api.Model.RackFilter" ShapeTable.absent⟩] ∧
      (∀ verb : Verb, (verb.remainder? "getRack").isSome = true → verb = .read) ∧
      ([Verb.modify, .remove, .new, .read].find? fun verb =>
        (verb.remainder? "getRack").isSome) = Verb.ofMethod? "getRack" ∧
      ∀ failure ∈ ((ofTable rackAssembly.shapes .default true).run
          (rackAssembly.endpoints .all)).failures,
        failure.error.isUnrecognizedVerb = false ∧
        (failure.error.isUnresolvableTypeName = true ∨ failure.error.isTypeIntrospection = true) ∧
        failure.error.isLocal = true := by
  obtain ⟨-, -, -, hunique, horder, hrun⟩ := discovery_agrees_with_naming
  exact ⟨by decide, by decide, fun verb h => hunique "getRack" verb .read h (by decide),
    horder "getRack" _ (List.reverse_perm Verb.all), hrun rackAssembly .all .default true⟩

end WrapperGen
