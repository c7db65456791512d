import WrapperGen.Naming.Noun
import WrapperGen.Proofs.EndpointNames
import WrapperGen.Proofs.WrapperBody
/-!
# Nouns of endpoints that return nothing

Whether an endpoint returns nothing is asked twice: for the noun of its return type as declared, and
for the output type of the payload that the return type carries.

1. The payload is what is left once types with a single argument are opened, and it is opened no
   further (`TypeRef.payload_eq_iff`).
2. A wrapper has no output type exactly when the payload is nothing (`outputType_eq_none_iff`).
3. An endpoint is named after its method exactly when the declared type is nothing, or when both
   names make the same noun (`Noun.ofEndpoint_eq`).
4. So the two answers agree on a return type that carries itself, and a promise of a bare promise is
   where they differ (`untyped_wrapper_noun`, `promise_of_promise_names_no_rack`).
-/

namespace WrapperGen

/-! ## What a type carries -/

namespace TypeRef

/-- The type is a nesting of types with a single argument around the other, which has none or
several. -/
inductive Carries : TypeRef → TypeRef → Prop where
  | itself {t : TypeRef} (h : ∀ inner, t.arguments ≠ [inner]) : Carries t t
  | opened {space : Option String} {name : String} {kind : TypeKind} {inner p : TypeRef}
      (h : Carries inner p) : Carries ⟨space, name, kind, [inner]⟩ p

theorem carries_payload (t : TypeRef) : t.Carries t.payload := by
  induction t using payload.induct with
  | case1 space name kind inner ih => exact .opened ih
  | case2 space name kind => exact .itself (by simp)
  | case3 space name kind a b rest => exact .itself (by simp)

theorem payload_of_ne {t : TypeRef} (h : ∀ inner, t.arguments ≠ [inner]) : t.payload = t := by
  obtain ⟨space, name, kind, arguments⟩ := t
  match arguments with
  | [] => rfl
  | [inner] => exact absurd rfl (h inner)
  | _ :: _ :: _ => rfl

theorem payload_eq_iff {t p : TypeRef} : t.payload = p ↔ t.Carries p := by
  constructor
  · rintro rfl
    exact carries_payload t
  · intro h
    induction h with
    | itself h => exact payload_of_ne h
    | opened _ ih => exact ih

theorem Carries.of_arguments {t inner p : TypeRef} (h : t.arguments = [inner])
    (hcarries : inner.Carries p) : t.Carries p := by
  obtain ⟨space, name, kind, arguments⟩ := t
  obtain rfl : arguments = [inner] := h
  exact .opened hcarries

/-- Of the types that are nothing, only the void type can have arguments. -/
theorem isVoidLike_of_arguments {t inner : TypeRef} (h : t.arguments = [inner]) :
    t.isVoidLike = t.isVoid := by
  unfold isVoidLike
  simp only [h, List.isEmpty_cons, Bool.and_false, Bool.false_and, Bool.or_false]

/-- A type that is nothing by its name has one of three names. -/
theorem name_of_isVoidLike {t : TypeRef} (h : t.isVoidLike = true) (hkind : t.kind ≠ .void) :
    t.name ∈ ["Void", "Task", "ValueTask"] := by
  unfold isVoidLike isVoid at h
  simp only [Bool.or_eq_true, Bool.and_eq_true, beq_iff_eq] at h
  rcases h with (hvoid | ⟨-, hname⟩) | ⟨-, hname | hname⟩
  · exact absurd hvoid hkind
  · simp [hname]
  · simp [hname]
  · simp [hname]

end TypeRef

/-! ## Nouns -/

namespace Noun

/-- The three names are nouns already. -/
theorem ofName_simpleName_of_isVoidLike {t : TypeRef} (h : t.isVoidLike = true)
    (hkind : t.kind ≠ .void) : ofName t.simpleName ∈ ["Void", "Task", "ValueTask"] := by
  have hname := TypeRef.name_of_isVoidLike h hkind
  unfold TypeRef.simpleName
  simp only [List.mem_cons, List.not_mem_nil, or_false] at hname
  rcases hname with hname | hname | hname
  · rw [hname]
    decide +kernel
  · rw [hname]
    decide +kernel
  · rw [hname]
    decide +kernel

/-- The name that the noun of an endpoint is made from, given what its own name says after the
verb. -/
def endpointSource (e : Endpoint) (rest : String) : String :=
  if e.returnType.isVoidLike && !rest.isEmpty then rest else e.returnType.payload.simpleName

theorem ofEndpoint_of_remainder? {e : Endpoint} {verb : Verb} {rest : String}
    (hrest : verb.remainder? e.method = some rest) :
    ofEndpoint e = .ok (ofName (endpointSource e rest)) := by
  have hbegins : verb.Begins e.method := by
    rw [← Verb.isSome_remainder?_iff, hrest]
    rfl
  unfold ofEndpoint endpointSource
  rw [Verb.ofMethod_eq_ok_iff.2 hbegins]
  show (if _ then _ else _) = _
  cases e.returnType.isVoidLike with
  | false => rfl
  | true =>
    simp only [hrest]
    cases rest.isEmpty <;> rfl

theorem ofEndpoint_eq {e : Endpoint} {verb : Verb} {rest : String}
    (hrest : verb.remainder? e.method = some rest) (hne : rest ≠ "") :
    ofEndpoint e =
      .ok (if e.returnType.isVoidLike then ofName rest else ofType e.returnType) := by
  have hempty : rest.isEmpty = false := by
    rw [Bool.eq_false_iff, ne_eq, String.isEmpty_iff]
    exact hne
  rw [ofEndpoint_of_remainder? hrest, endpointSource, hempty]
  cases e.returnType.isVoidLike <;> rfl

end Noun

namespace FunctionBuilder

variable {b : FunctionBuilder} {catalog : Catalog} {noun : String}
  {surface : List SurfaceParameter} {e : Endpoint} {f : FunctionSpec}

theorem outputType_eq_none_iff {verb : Verb} (hf : b.wrapper catalog verb noun surface e = .ok f) :
    f.outputType = none ↔ e.returnType.payload.isVoidLike = true := by
  obtain ⟨_, _, out, -, -, hout, rfl⟩ := wrapper_eq_ok_iff.1 hf
  unfold outputType at hout
  split at hout
  · next h => simp [h, ← Except.ok.inj hout]
  · next h =>
    obtain ⟨name, -, hname⟩ := bind_eq_ok_iff.1 hout
    simp [h, ← Except.ok.inj hname]

/-- **A wrapper without an output type is named after its method, if the return type carries
itself.** There is no output type exactly when the return type is some nesting of types with a
single argument around one that is nothing. Without any nesting the noun is that of the method. With
it, and unless the outermost type is itself void, the noun is that of the payload, so `Void`, `Task`
or `ValueTask` where the payload is nothing by its name; it is that of the method only if both names
make one noun. -/
theorem untyped_wrapper_noun {verb own : Verb} {rest : String}
    (hf : b.wrapper catalog verb noun surface e = .ok f)
    (hrest : own.remainder? e.method = some rest) (hne : rest ≠ "") :
    (f.outputType = none ↔ ∃ p, e.returnType.Carries p ∧ p.isVoidLike = true) ∧
    (f.outputType = none →
      ((∀ inner, e.returnType.arguments ≠ [inner]) →
        Noun.ofEndpoint e = .ok (Noun.ofName rest)) ∧
      (∀ inner p, e.returnType.arguments = [inner] → e.returnType.isVoid = false →
        inner.Carries p →
        Noun.ofEndpoint e = .ok (Noun.ofName p.simpleName) ∧
        (p.kind ≠ .void → Noun.ofName p.simpleName ∈ ["Void", "Task", "ValueTask"])) ∧
      (Noun.ofEndpoint e = .ok (Noun.ofName rest) ↔
        e.returnType.isVoidLike = true ∨ Noun.ofType e.returnType = Noun.ofName rest)) := by
  have hnoun := Noun.ofEndpoint_eq hrest hne
  refine ⟨?_, fun hnone => ⟨fun hitself => ?_, fun inner p harguments hvoid hcarries => ?_, ?_⟩⟩
  · rw [outputType_eq_none_iff hf]
    simp only [← TypeRef.payload_eq_iff, exists_eq_left']
  · have hlike := (outputType_eq_none_iff hf).1 hnone
    rw [TypeRef.payload_of_ne hitself] at hlike
    rw [hnoun, if_pos hlike]
  · have hpayload : e.returnType.payload = p :=
      TypeRef.payload_eq_iff.2 (.of_arguments harguments hcarries)
    have hlike : e.returnType.isVoidLike = false := by
      rw [TypeRef.isVoidLike_of_arguments harguments, hvoid]
    have hlast := (outputType_eq_none_iff hf).1 hnone
    rw [hpayload] at hlast
    rw [hnoun, hlike, Noun.ofType, hpayload]
    exact ⟨rfl, Noun.ofName_simpleName_of_isVoidLike hlast⟩
  · rw [hnoun]
    by_cases hlike : e.returnType.isVoidLike = true
    · simp [hlike]
    · simp [hlike]

/-- A promise without a result. -/
def barePromise : TypeRef := .plain TypeRef.tasksSpace "Task" .reference

/-- A promise of a promise without a result. -/
def promiseOfPromise : TypeRef :=
  .generic TypeRef.tasksSpace ("Task" ++ arityMark.toString ++ "1") [barePromise]

/-- A method without parameters. -/
def updateRack (returnType : TypeRef) : Endpoint := ⟨"RackApi", "UpdateRack", returnType, []⟩

/-- The function that calls it, without an output type. -/
def modifyRack : FunctionSpec :=
  ⟨"ModifyRack", .wrapper, [default.handleParameter],
    [.invoke default.handle "UpdateRack" []], none⟩

theorem untyped_wrapper_noun_updateRack :
    default.wrapper ShapeTable.empty.catalog .modify "Rack" [] (updateRack barePromise) =
        .ok modifyRack ∧
      Verb.modify.remainder? "UpdateRack" = some "Rack" ∧ "Rack" ≠ "" ∧
      modifyRack.outputType = none ∧ Noun.ofEndpoint (updateRack barePromise) = .ok "Rack" := by
  have hf : default.wrapper ShapeTable.empty.catalog .modify "Rack" [] (updateRack barePromise) =
      .ok modifyRack := rfl
  have hrest : Verb.modify.remainder? "UpdateRack" = some "Rack" := by decide
  have hne : "Rack" ≠ "" := by decide
  obtain ⟨-, hnone⟩ := untyped_wrapper_noun hf hrest hne
  have hnoun := (hnone rfl).1 (by simp [updateRack, barePromise, TypeRef.plain])
  have hrack : Noun.ofName "Rack" = "Rack" := by decide +kernel
  rw [hrack] at hnoun
  exact ⟨hf, hrest, hne, rfl, hnoun⟩

/-- A promise of a bare promise carries nothing, and the noun is its name. -/
theorem promise_of_promise_names_no_rack :
    ¬ ∀ (b : FunctionBuilder) (catalog : Catalog) (verb own : Verb) (noun rest : String)
      (gs : List ParameterGroup) (e : Endpoint) (f : FunctionSpec),
      ParameterGroup.ofParameters catalog e.parameters = .ok gs →
      b.wrapper catalog verb noun (ParameterGroup.surface gs) e = .ok f →
      own.remainder? e.method = some rest → rest ≠ "" → f.outputType = none →
      Noun.ofEndpoint e = .ok (Noun.ofName rest) := by
  intro h
  have hnoun : Noun.ofEndpoint (updateRack promiseOfPromise) = .ok (Noun.ofName "Rack") :=
    h default ShapeTable.empty.catalog .modify .modify "Rack" "Rack" []
      (updateRack promiseOfPromise) modifyRack rfl rfl (by decide) (by decide) rfl
  have htask : Noun.ofEndpoint (updateRack promiseOfPromise) = .ok "Task" := by decide +kernel
  have hrack : Noun.ofName "Rack" = "Rack" := by decide +kernel
  rw [htask, hrack] at hnoun
  exact absurd (Except.ok.inj hnoun) (by decide)

end FunctionBuilder

end WrapperGen
