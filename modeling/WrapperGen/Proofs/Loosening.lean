import WrapperGen.Data.Agreement
import WrapperGen.Proofs.BuiltFunctions
import WrapperGen.Proofs.OptionalTypes
import WrapperGen.Proofs.Reconstruction
import WrapperGen.Surface.Nested
/-!
# What becomes of functions when types are made optional

Parameters of an endpoint and properties listed in a catalog may be made optional, any selection of
them that are not so already. Every stage takes the wrapper off again before it looks at the type,
so that it gives what it gave, or fails as it failed.

1. Loosened parameters have loosened groups, and these a loosened surface and the same nested types
   (`ofParameters_agree`, `forall₂_surface`, `nestedTypes_eq`).
2. The arguments of a call are the same (`arguments_agree`).
3. So a function is the same, except that a value which has become optional need not be supplied
   any more, unless there is another reason to (`optional_types_only_loosen`).
-/

namespace WrapperGen

open List (Forall₂)

/-! ## Lists related one by one -/

variable {α β γ : Type} {R : α → β → Prop} {l : List α} {m : List β}

theorem map_eq_of_forall₂ {f : α → γ} {g : β → γ} (h : Forall₂ R l m)
    (hfg : ∀ a b, R a b → g b = f a) : m.map g = l.map f := by
  induction h with
  | nil => rfl
  | cons hab _ ih => rw [List.map_cons, List.map_cons, hfg _ _ hab, ih]

theorem rel_getElem?_of_forall₂ (h : Forall₂ R l m) (i : Nat) : Option.Rel R l[i]? m[i]? := by
  induction h generalizing i with
  | nil => exact .none
  | cons hab _ ih =>
    cases i with
    | zero => exact .some hab
    | succ i => exact ih i

/-! ## Loosening -/

/-- The type itself, or its optional form if it is none already. -/
inductive TypeRef.LoosenedTo : TypeRef → TypeRef → Prop
  | kept (t : TypeRef) : LoosenedTo t t
  | wrapped {t : TypeRef} (h : t.nullableUnderlying? = none) : LoosenedTo t t.nullable

structure Parameter.LoosenedTo (p p' : Parameter) : Prop where
  name : p'.name = p.name
  type : p.type.LoosenedTo p'.type
  position : p'.position = p.position

structure Property.LoosenedTo (q q' : Property) : Prop where
  name : q'.name = q.name
  type : q.type.LoosenedTo q'.type
  canWrite : q'.canWrite = q.canWrite
  attributes : q'.attributes = q.attributes

structure Shape.LoosenedTo (s s' : Shape) : Prop where
  properties : Forall₂ Property.LoosenedTo s.properties s'.properties
  hasDefaultConstructor : s'.hasDefaultConstructor = s.hasDefaultConstructor
  factory : s'.factory = s.factory

/-- Some parameters of an endpoint have become optional. -/
structure Endpoint.LoosenedTo (e e' : Endpoint) : Prop where
  declaringType : e'.declaringType = e.declaringType
  method : e'.method = e.method
  returnType : e'.returnType = e.returnType
  parameters : Forall₂ Parameter.LoosenedTo e.parameters e'.parameters

/-- Some properties that a catalog lists have become optional. -/
def Catalog.LoosenedTo (c c' : Catalog) : Prop :=
  ∀ t, Agree Shape.LoosenedTo (c.describe t) (c'.describe t)

/-- Some properties that a table lists have become optional. -/
def ShapeTable.LoosenedTo (table table' : ShapeTable) : Prop :=
  Forall₂ (fun d d' => d'.1 = d.1 ∧ d.2.LoosenedTo d'.2) table.entries table'.entries

theorem ShapeTable.LoosenedTo.get? {table table' : ShapeTable} (h : table.LoosenedTo table')
    (name : String) : Option.Rel Shape.LoosenedTo (table.get? name) (table'.get? name) := by
  obtain ⟨entries⟩ := table
  obtain ⟨entries'⟩ := table'
  change Forall₂ _ entries entries' at h
  unfold ShapeTable.get?
  induction h with
  | nil => exact .none
  | @cons d d' rest rest' hd _ ih =>
    obtain ⟨n, s⟩ := d
    obtain ⟨n', s'⟩ := d'
    obtain ⟨rfl, hs⟩ := hd
    simp only [List.lookup_cons]
    by_cases hn : name = n'
    · rw [beq_iff_eq.2 hn]
      exact .some hs
    · rw [beq_false_of_ne hn]
      exact ih

theorem ShapeTable.LoosenedTo.catalog {table table' : ShapeTable} (h : table.LoosenedTo table') :
    table.catalog.LoosenedTo table'.catalog := by
  intro t
  show Agree _ (table.describe t) (table'.describe t)
  unfold describe
  cases t.definitionName? with
  | none => exact .error _
  | some key =>
    have hkey := h.get? key
    simp only
    generalize table.get? key = s? at hkey
    generalize table'.get? key = s?' at hkey
    cases hkey with
    | none => exact .error _
    | some hs => exact .ok hs

/-! ## Loosened types -/

/-- A type `s` has become `t`, so that no value is required any more: it was a value type, which has
become optional, and there is no other reason to supply one. -/
def Freed (s t : TypeRef) (otherwise : Bool) : Prop :=
  t = s.nullable ∧ s.isValueType = true ∧ otherwise = false

theorem TypeRef.ne_nullable (t : TypeRef) : t ≠ t.nullable := by
  intro h
  have hsize := congrArg sizeOf h
  simp [nullable] at hsize
  omega

namespace TypeRef.LoosenedTo

variable {s t : TypeRef}

theorem unwrapNullable (h : s.LoosenedTo t) : t.unwrapNullable = s.unwrapNullable := by
  cases h with
  | kept => rfl
  | wrapped hs => rw [unwrapNullable_nullable, unwrapNullable_of_none hs]

theorem isComplex (h : s.LoosenedTo t) : t.isComplex = s.isComplex :=
  isComplex_congr h.unwrapNullable

theorem literal? (h : s.LoosenedTo t) :
    FunctionBuilder.literal? t = FunctionBuilder.literal? s := by
  unfold FunctionBuilder.literal?
  rw [h.unwrapNullable]

theorem required_of_freed {otherwise : Bool} (h : s.LoosenedTo t) (hfreed : Freed s t otherwise) :
    (s.isRequiredValue || otherwise) = true ∧ (t.isRequiredValue || otherwise) = false := by
  obtain ⟨heq, hvalue, rfl⟩ := hfreed
  cases h with
  | kept => exact absurd heq s.ne_nullable
  | wrapped hs =>
    unfold TypeRef.isRequiredValue
    rw [hs, hvalue, nullableUnderlying?_nullable]
    exact ⟨rfl, rfl⟩

theorem required_of_not_freed {otherwise : Bool} (h : s.LoosenedTo t)
    (hkept : ¬ Freed s t otherwise) :
    (t.isRequiredValue || otherwise) = (s.isRequiredValue || otherwise) := by
  cases h with
  | kept => rfl
  | wrapped hs =>
    cases otherwise with
    | true => rw [Bool.or_true, Bool.or_true]
    | false =>
      -- what could not be required before has lost nothing
      have hvalue : s.isValueType = false := by
        simpa using fun hvalue => hkept ⟨rfl, hvalue, rfl⟩
      unfold TypeRef.isRequiredValue
      rw [hvalue, nullableUnderlying?_nullable]
      simp

end TypeRef.LoosenedTo

/-! ## Groups and the call surface -/

structure ParameterGroup.LoosenedTo (g g' : ParameterGroup) : Prop where
  name : g'.name = g.name
  type : g.type.LoosenedTo g'.type
  isComplex : g'.isComplex = g.isComplex
  properties : Forall₂ Property.LoosenedTo g.properties g'.properties
  position : g'.position = g.position

structure SurfaceParameter.LoosenedTo (p p' : SurfaceParameter) : Prop where
  name : p'.name = p.name
  type : p.type.LoosenedTo p'.type
  isComplex : p'.isComplex = p.isComplex
  groupName : p'.groupName = p.groupName
  groupPosition : p'.groupPosition = p.groupPosition
  groupType : p.groupType.LoosenedTo p'.groupType
  property : p'.property = p.property

theorem forall₂_settable {qs qs' : List Property} (h : Forall₂ Property.LoosenedTo qs qs') :
    Forall₂ Property.LoosenedTo (qs.filter (·.canWrite)) (qs'.filter (·.canWrite)) :=
  List.rel_filter (fun q q' hq => show q.canWrite = true ↔ q'.canWrite = true by rw [hq.canWrite]) h

theorem Shape.LoosenedTo.writable {s s' : Shape} (h : s.LoosenedTo s') :
    Forall₂ Property.LoosenedTo s.writable s'.writable := forall₂_settable h.properties

theorem Shape.LoosenedTo.path {s s' : Shape} (h : s.LoosenedTo s') :
    ConstructionPath.ofShape s' = ConstructionPath.ofShape s := by
  unfold ConstructionPath.ofShape
  rw [h.hasDefaultConstructor, h.factory]

namespace ParameterGroup

variable {c c' : Catalog}

theorem ofParameter_agree (hc : c.LoosenedTo c') {p p' : Parameter} (hp : p.LoosenedTo p')
    (k : Nat) : Agree LoosenedTo (ofParameter c k p) (ofParameter c' k p') := by
  unfold ofParameter
  rw [hp.type.isComplex]
  by_cases hcomplex : p.type.isComplex = true
  · rw [if_pos hcomplex, if_pos hcomplex, hp.type.unwrapNullable]
    refine (hc p.type.unwrapNullable).bind fun s s' hs => .ok ?_
    exact ⟨hp.name, hp.type, rfl, hs.properties, rfl⟩
  · rw [if_neg hcomplex, if_neg hcomplex]
    exact .ok ⟨hp.name, hp.type, rfl, .nil, rfl⟩

theorem ofParameters_agree (hc : c.LoosenedTo c') {ps ps' : List Parameter}
    (hps : Forall₂ Parameter.LoosenedTo ps ps') :
    Agree (Forall₂ LoosenedTo) (ofParameters c ps) (ofParameters c' ps') :=
  (isWalk_ofParametersFrom c).agree (isWalk_ofParametersFrom c')
    (fun k _ _ hp => ofParameter_agree hc hp k) hps 0

theorem forall₂_lift {g g' : ParameterGroup} (h : g.LoosenedTo g') :
    Forall₂ SurfaceParameter.LoosenedTo g.lift g'.lift := by
  unfold lift
  rw [h.isComplex]
  by_cases hcomplex : g.isComplex = true
  · rw [if_pos hcomplex, if_pos hcomplex]
    rw [List.forall₂_map_left_iff, List.forall₂_map_right_iff]
    refine (forall₂_settable h.properties).imp fun q q' hq => ?_
    exact ⟨hq.name, hq.type, hq.type.isComplex, h.name, h.position, h.type, congrArg some hq.name⟩
  · rw [if_neg hcomplex, if_neg hcomplex]
    exact .cons ⟨h.name, h.type, rfl, h.name, h.position, h.type, rfl⟩ .nil

theorem forall₂_insertByPosition {g g' : ParameterGroup} (hg : g.LoosenedTo g')
    {gs gs' : List ParameterGroup} (hgs : Forall₂ LoosenedTo gs gs') :
    Forall₂ LoosenedTo (insertByPosition g gs) (insertByPosition g' gs') := by
  induction hgs with
  | nil => exact .cons hg .nil
  | @cons h h' _ _ hh hrest ih =>
    rw [insertByPosition, insertByPosition, hg.position, hh.position]
    by_cases hle : g.position ≤ h.position
    · rw [if_pos hle, if_pos hle]
      exact .cons hg (.cons hh hrest)
    · rw [if_neg hle, if_neg hle]
      exact .cons hh ih

theorem forall₂_surface {gs gs' : List ParameterGroup} (h : Forall₂ LoosenedTo gs gs') :
    Forall₂ SurfaceParameter.LoosenedTo (surface gs) (surface gs') := by
  have hsorted : Forall₂ LoosenedTo (sortByPosition gs) (sortByPosition gs') := by
    induction h with
    | nil => exact .nil
    | cons hg _ ih => exact forall₂_insertByPosition hg ih
  exact List.rel_flatMap hsorted fun _ _ hg => forall₂_lift hg

theorem propertyTypes_eq {g g' : ParameterGroup} (h : g.LoosenedTo g') :
    g'.propertyTypes = g.propertyTypes := by
  have htypes : g'.writable.map (·.type.unwrapNullable) = g.writable.map (·.type.unwrapNullable) :=
    map_eq_of_forall₂ (forall₂_settable h.properties) fun _ _ hq => hq.type.unwrapNullable
  unfold propertyTypes
  rw [h.isComplex, htypes]

/-- Nested types are told without their wrappers. -/
theorem nestedTypes_eq {gs gs' : List ParameterGroup} (h : Forall₂ LoosenedTo gs gs') :
    nestedTypes gs' = nestedTypes gs := by
  unfold nestedTypes
  rw [List.flatMap_def, List.flatMap_def, map_eq_of_forall₂ h fun _ _ hg => propertyTypes_eq hg]

end ParameterGroup

/-! ## Arguments -/

open ParameterGroup (ofParameters surface nestedTypes)

namespace FunctionBuilder

variable {c c' : Catalog} {e e' : Endpoint}

theorem qualifiedName_eq (he : e.LoosenedTo e') : e'.qualifiedName = e.qualifiedName := by
  unfold Endpoint.qualifiedName
  rw [he.declaringType, he.method]

theorem groupType_unwrapNullable_eq {p p' : Parameter} (hp : p.LoosenedTo p')
    {members members' : List SurfaceParameter}
    (h : Forall₂ SurfaceParameter.LoosenedTo members members') :
    (groupType p' members').unwrapNullable = (groupType p members).unwrapNullable := by
  cases h with
  | nil => exact hp.type.unwrapNullable
  | cons hfirst _ => exact hfirst.groupType.unwrapNullable

theorem map_assignMember_eq (object : String) {members members' : List SurfaceParameter}
    (h : Forall₂ SurfaceParameter.LoosenedTo members members') :
    members'.map (assignMember object) = members.map (assignMember object) := by
  refine map_eq_of_forall₂ h fun p p' hp => ?_
  unfold assignMember
  rw [hp.name, hp.property]

theorem buildArgument_agree (hc : c.LoosenedTo c') (he : e.LoosenedTo e') {p p' : Parameter}
    (hp : p.LoosenedTo p') (k : Nat) {members members' : List SurfaceParameter}
    (h : Forall₂ SurfaceParameter.LoosenedTo members members') :
    Agree (· = ·) (buildArgument c e k p members) (buildArgument c' e' k p' members') := by
  unfold buildArgument
  simp only [groupType_unwrapNullable_eq hp h, hp.name, qualifiedName_eq he,
    map_assignMember_eq _ h]
  refine Agree.bind_same fun typeName => ?_
  refine (hc _).bind fun s s' hs => ?_
  rw [hs.path]
  exact .ok rfl

theorem argument_agree (hc : c.LoosenedTo c') (he : e.LoosenedTo e')
    {entries entries' : List SurfaceParameter}
    (hentries : Forall₂ SurfaceParameter.LoosenedTo entries entries') {p p' : Parameter}
    (hp : p.LoosenedTo p') (k : Nat) :
    Agree (· = ·) (argument c entries e k p) (argument c' entries' e' k p') := by
  have hmembers : Forall₂ SurfaceParameter.LoosenedTo
      (entries.filter (·.groupPosition == k)) (entries'.filter (·.groupPosition == k)) :=
    List.rel_filter (fun q q' hq =>
      show (q.groupPosition == k) = true ↔ (q'.groupPosition == k) = true by rw [hq.groupPosition])
      hentries
  unfold argument
  generalize entries.filter (·.groupPosition == k) = members at hmembers
  generalize entries'.filter (·.groupPosition == k) = members' at hmembers
  -- the cases of the builder: nothing lifted, one entry, several
  cases hmembers with
  | nil =>
    simp only
    rw [hp.type.isComplex, hp.name]
    by_cases hcomplex : p.type.isComplex = true
    · rw [if_pos hcomplex, if_pos hcomplex]
      exact buildArgument_agree hc he hp k .nil
    · rw [if_neg hcomplex, if_neg hcomplex]
      exact .ok rfl
  | @cons q q' _ _ hq hrest =>
    cases hrest with
    | nil =>
      have hlift : q'.isLifted = q.isLifted := congrArg Option.isSome hq.property
      simp only
      rw [hlift, hq.name]
      by_cases hlifted : q.isLifted = true
      · rw [if_pos hlifted, if_pos hlifted]
        exact buildArgument_agree hc he hp k (.cons hq .nil)
      · rw [if_neg hlifted, if_neg hlifted]
        exact .ok rfl
    | cons hr hrest => exact buildArgument_agree hc he hp k (.cons hq (.cons hr hrest))

theorem arguments_agree (hc : c.LoosenedTo c') (he : e.LoosenedTo e')
    {entries entries' : List SurfaceParameter}
    (hentries : Forall₂ SurfaceParameter.LoosenedTo entries entries') :
    Agree (· = ·) (arguments c entries e 0 e.parameters)
      (arguments c' entries' e' 0 e'.parameters) := by
  rw [← List.forall₂_eq_eq_eq]
  exact (isWalk_arguments c entries e).agree (isWalk_arguments c' entries' e')
    (fun k _ _ hp => argument_agree hc he hentries hp k) he.parameters 0

end FunctionBuilder

/-! ## Functions -/

/-- The same parameter, except that it need not be supplied any more if it has been freed. -/
structure ParameterSpec.LoosenedTo (freed : Prop) (p p' : ParameterSpec) : Prop where
  name : p'.name = p.name
  typeName : p'.typeName = p.typeName
  position : p'.position = p.position
  required_of_freed : freed → p.required = true ∧ p'.required = false
  required_of_not_freed : ¬ freed → p'.required = p.required

/-- The same function, except that some of its parameters need not be supplied any more. -/
structure FunctionSpec.LoosenedTo (freed : Nat → Prop) (f f' : FunctionSpec) : Prop where
  name : f'.name = f.name
  kind : f'.kind = f.kind
  body : f'.body = f.body
  outputType : f'.outputType = f.outputType
  parameters : ∀ i : Nat,
    Option.Rel (ParameterSpec.LoosenedTo (freed i)) f.parameters[i]? f'.parameters[i]?

/-- What stands at a place of two lists has been freed, given how to tell its type and whether there
is another reason to require it. -/
def FreedAt (type : α → TypeRef) (otherwise : α → Bool) (xs xs' : List α) (i : Nat) : Prop :=
  ∃ x x', xs[i]? = some x ∧ xs'[i]? = some x' ∧ Freed (type x) (type x') (otherwise x)

/-- The handle stands before the surface and is not freed. -/
def FreedAfterHandle (entries entries' : List SurfaceParameter) : Nat → Prop
  | 0 => False
  | i + 1 => FreedAt (·.type) (·.isComplex) entries entries' i

namespace FunctionBuilder

variable {c c' : Catalog} {e e' : Endpoint}

/-- Parameters that are made of the members of two lists, which free some of them. -/
theorem loosened_map_zipIdx {xs xs' : List α} {S : α → α → Prop} {type : α → TypeRef}
    {otherwise : α → Bool} (make : Nat → α → ParameterSpec) (h : Forall₂ S xs xs')
    (hmake : ∀ k x x', S x x' → ParameterSpec.LoosenedTo (Freed (type x) (type x') (otherwise x))
      (make k x) (make k x')) (k i : Nat) :
    Option.Rel (ParameterSpec.LoosenedTo (FreedAt type otherwise xs xs' i))
      ((xs.zipIdx k).map fun d => make d.2 d.1)[i]?
      ((xs'.zipIdx k).map fun d => make d.2 d.1)[i]? := by
  rw [List.getElem?_map, List.getElem?_map, List.getElem?_zipIdx, List.getElem?_zipIdx]
  unfold FreedAt
  have hi := rel_getElem?_of_forall₂ h i
  generalize xs[i]? = x? at hi
  generalize xs'[i]? = x?' at hi
  cases hi with
  | none => exact .none
  | @some x x' hx =>
    have hfreed : (∃ y y', some x = some y ∧ some x' = some y' ∧
        Freed (type y) (type y') (otherwise y)) ↔ Freed (type x) (type x') (otherwise x) := by
      simp
    rw [hfreed]
    exact .some (hmake _ _ _ hx)

theorem surfaceSpec_loosened (k : Nat) {p p' : SurfaceParameter} (h : p.LoosenedTo p') :
    ParameterSpec.LoosenedTo (Freed p.type p'.type p.isComplex) (surfaceSpec k p)
      (surfaceSpec k p') where
  name := h.name
  typeName := h.type.literal?
  position := rfl
  required_of_freed hfreed := by
    show (p.isComplex || p.type.isRequiredValue) = true ∧
      (p'.isComplex || p'.type.isRequiredValue) = false
    rw [h.isComplex, Bool.or_comm, Bool.or_comm p.isComplex]
    exact h.type.required_of_freed hfreed
  required_of_not_freed hkept := by
    show (p'.isComplex || p'.type.isRequiredValue) = (p.isComplex || p.type.isRequiredValue)
    rw [h.isComplex, Bool.or_comm, Bool.or_comm p.isComplex]
    exact h.type.required_of_not_freed hkept

theorem propertySpec_loosened {b : FunctionBuilder} {markers : List String}
    (hb : b.isRequired = hasMarker markers) (k : Nat) {q q' : Property} (h : q.LoosenedTo q') :
    ParameterSpec.LoosenedTo (Freed q.type q'.type (hasMarker markers q)) (b.propertySpec k q)
      (b.propertySpec k q') := by
  have hmarker : hasMarker markers q' = hasMarker markers q := by
    unfold hasMarker
    rw [h.attributes]
  unfold propertySpec
  rw [hb, hmarker]
  exact ⟨h.name, h.type.literal?, rfl, h.type.required_of_freed, h.type.required_of_not_freed⟩

theorem surfaceParameters_agree (he : e.LoosenedTo e') {entries entries' : List SurfaceParameter}
    (h : Forall₂ SurfaceParameter.LoosenedTo entries entries') (k : Nat) :
    Agree (fun specs specs' => ∀ i : Nat, Option.Rel
        (ParameterSpec.LoosenedTo (FreedAt (·.type) (·.isComplex) entries entries' i))
        specs[i]? specs'[i]?)
      (surfaceParameters e k entries) (surfaceParameters e' k entries') := by
  have hwalk : Agree (Forall₂ fun _ _ => True) (surfaceParameters e k entries)
      (surfaceParameters e' k entries') := by
    refine (isWalk_surfaceParameters e).agree (isWalk_surfaceParameters e')
      (fun k p p' hp => ?_) h k
    unfold surfaceParameter
    rw [hp.type.unwrapNullable, hp.name, qualifiedName_eq he]
    exact Agree.bind_same fun _ => .ok trivial
  -- they fail alike, and where they do not, what they give is known
  refine hwalk.mono fun specs specs' hspecs hspecs' _ i => ?_
  rw [(surfaceParameters_eq_ok_iff.1 hspecs).2, (surfaceParameters_eq_ok_iff.1 hspecs').2]
  exact loosened_map_zipIdx surfaceSpec h (fun k _ _ hp => surfaceSpec_loosened k hp) k i

theorem argumentBlock_eq (object typeName : String) {s s' : Shape} (h : s.LoosenedTo s') :
    argumentBlock object typeName s' = argumentBlock object typeName s := by
  have hassign : s'.writable.map (assignProperty object) =
      s.writable.map (assignProperty object) := by
    refine map_eq_of_forall₂ h.writable fun q q' hq => ?_
    unfold assignProperty
    rw [hq.name]
  unfold argumentBlock
  rw [h.path, hassign]

theorem outputType_eq (he : e.LoosenedTo e') : outputType e' = outputType e := by
  unfold outputType
  rw [he.returnType, qualifiedName_eq he]

theorem wrapper_agree (b : FunctionBuilder) (hc : c.LoosenedTo c') (he : e.LoosenedTo e')
    {entries entries' : List SurfaceParameter}
    (h : Forall₂ SurfaceParameter.LoosenedTo entries entries') (verb : Verb) (noun : String) :
    Agree (FunctionSpec.LoosenedTo (FreedAfterHandle entries entries'))
      (b.wrapper c verb noun entries e) (b.wrapper c' verb noun entries' e') := by
  unfold wrapper
  refine (surfaceParameters_agree he h 1).bind fun specs specs' hspecs => ?_
  refine (arguments_agree hc he h).bind fun as as' has => ?_
  subst has
  rw [outputType_eq he, he.method]
  refine Agree.bind_same fun out => ?_
  refine .ok ⟨rfl, rfl, rfl, rfl, fun i => ?_⟩
  cases i with
  | zero => exact .some ⟨rfl, rfl, rfl, False.elim, fun _ => rfl⟩
  | succ i => exact hspecs i

theorem constructor_agree {b : FunctionBuilder} {markers : List String}
    (hb : b.isRequired = hasMarker markers) (hc : c.LoosenedTo c') (noun : String) (t : TypeRef) :
    Agree (fun f f' => ∃ s s', c.describe t = .ok s ∧ c'.describe t = .ok s' ∧
        f.LoosenedTo (FreedAt (·.type) (hasMarker markers) s.writable s'.writable) f')
      (b.constructor c noun t) (b.constructor c' noun t) := by
  have hbuilt : Agree (fun _ _ => True) (b.constructor c noun t) (b.constructor c' noun t) := by
    unfold constructor
    refine Agree.bind_same fun typeName => ?_
    refine (hc t).bind fun s s' hs => ?_
    have hwalk : Agree (Forall₂ fun _ _ => True) (b.propertyParameters typeName 0 s.writable)
        (b.propertyParameters typeName 0 s'.writable) := by
      refine (isWalk_propertyParameters b typeName).agree (isWalk_propertyParameters b typeName)
        (fun k q q' hq => ?_) hs.writable 0
      unfold propertyParameter
      rw [hq.type.unwrapNullable, hq.name]
      exact Agree.bind_same fun _ => .ok trivial
    exact hwalk.bind fun _ _ _ => .ok trivial
  -- they fail alike, and where they do not, what they give is known
  refine hbuilt.mono fun f f' hf hf' _ => ?_
  obtain ⟨typeName, s, hname, hs, -, rfl⟩ := constructor_eq_ok_iff.1 hf
  obtain ⟨typeName', s', hname', hs', -, rfl⟩ := constructor_eq_ok_iff.1 hf'
  obtain rfl : typeName = typeName' := Option.some.inj (hname.symm.trans hname')
  have hdescribe := hc t
  rw [hs, hs'] at hdescribe
  have hshape : s.LoosenedTo s' := Agree.ok_iff.1 hdescribe
  refine ⟨s, s', hs, hs', rfl, rfl, ?_, rfl, fun i => ?_⟩
  · exact congrArg (· ++ [.emit constructorObject]) (argumentBlock_eq _ _ hshape)
  · exact loosened_map_zipIdx b.propertySpec hshape.writable
      (fun k _ _ hq => propertySpec_loosened hb k hq) 0 i

/-- **Making types optional only loosens functions.** When parameters of an endpoint and properties
in a catalog become optional, grouping fails as before or gives groups with the nested types of
before; the wrapper fails as before or is the same, except that entries of the surface which were of
a simple value type, and have become optional, need not be supplied any more; and constructor
functions fail as before or are the same, except for such properties that no marker requires. -/
theorem optional_types_only_loosen {b : FunctionBuilder} {markers : List String}
    (hb : b.isRequired = hasMarker markers) (hc : c.LoosenedTo c') (he : e.LoosenedTo e') :
    Agree (fun gs gs' => nestedTypes gs' = nestedTypes gs ∧ ∀ (verb : Verb) (noun : String),
        Agree (FunctionSpec.LoosenedTo (FreedAfterHandle (surface gs) (surface gs')))
          (b.wrapper c verb noun (surface gs) e) (b.wrapper c' verb noun (surface gs') e'))
      (ofParameters c e.parameters) (ofParameters c' e'.parameters) ∧
    ∀ (noun : String) (t : TypeRef),
      Agree (fun f f' => ∃ s s', c.describe t = .ok s ∧ c'.describe t = .ok s' ∧
          f.LoosenedTo (FreedAt (·.type) (hasMarker markers) s.writable s'.writable) f')
        (b.constructor c noun t) (b.constructor c' noun t) := by
  refine ⟨?_, constructor_agree hb hc⟩
  refine (ParameterGroup.ofParameters_agree hc he.parameters).mono fun gs gs' _ _ hgs => ?_
  exact ⟨ParameterGroup.nestedTypes_eq hgs,
    wrapper_agree b hc he (ParameterGroup.forall₂_surface hgs)⟩

end FunctionBuilder

namespace Execution

/-- The tenant of a site and the latitude of a point have become optional. -/
def looseSiteTable : ShapeTable :=
  .ofList [
    ("Api.Model.SiteRequest", .ofProperties [
      .plain "Name" (.plain "System" "String" .reference),
      (Property.plain "Id" (.plain "System" "Int32" .value)).readOnly,
      .plain "Tenant" (.nullable (.plain "Api.Model" "Tenant" .reference))]),
    ("Api.Model.Marker", (Shape.ofProperties []).withoutConstructor none),
    ("Api.Model.Point", .ofProperties [
      .plain "Latitude" (.nullable (.plain "System" "Double" .value))])]

/-- Whether to make the site has become optional. -/
def looseCreateSite : Endpoint :=
  .ofParameters "DcimApi" "CreateSite" .void [
    ("request", .plain "Api.Model" "SiteRequest" .reference),
    ("dryRun", .nullable (.plain "System" "Boolean" .value)),
    ("marker", .plain "Api.Model" "Marker" .reference),
    ("location", .nullable (.plain "Api.Model" "Point" .value))]

theorem siteTable_loosenedTo : siteTable.LoosenedTo looseSiteTable :=
  .cons ⟨rfl, .cons ⟨rfl, .kept _, rfl, rfl⟩ (.cons ⟨rfl, .kept _, rfl, rfl⟩
    (.cons ⟨rfl, .wrapped (by decide), rfl, rfl⟩ .nil)), rfl, rfl⟩
  (.cons ⟨rfl, .nil, rfl, rfl⟩
  (.cons ⟨rfl, .cons ⟨rfl, .wrapped (by decide), rfl, rfl⟩ .nil, rfl, rfl⟩ .nil))

theorem createSite_loosenedTo : createSite.LoosenedTo looseCreateSite where
  declaringType := rfl
  method := rfl
  returnType := rfl
  parameters := .cons ⟨rfl, .kept _, rfl⟩ (.cons ⟨rfl, .wrapped (by decide), rfl⟩
    (.cons ⟨rfl, .kept _, rfl⟩ (.cons ⟨rfl, .kept _, rfl⟩ .nil)))

end Execution

open Execution in
/-- The tenant is complex and has to be supplied still. -/
theorem FunctionBuilder.optional_types_only_loosen_createSite : ∃ gs gs' f f',
    ofParameters siteTable.catalog createSite.parameters = .ok gs ∧
      ofParameters looseSiteTable.catalog looseCreateSite.parameters = .ok gs' ∧
      nestedTypes gs' = nestedTypes gs ∧
      FunctionBuilder.default.wrapper siteTable.catalog .new "Site" (surface gs)
        createSite = .ok f ∧
      FunctionBuilder.default.wrapper looseSiteTable.catalog .new "Site" (surface gs')
        looseCreateSite = .ok f' ∧
      f.LoosenedTo (FreedAfterHandle (surface gs) (surface gs')) f' ∧
      f.parameters.map (·.required) = [true, false, true, true, true] ∧
      f'.parameters.map (·.required) = [true, false, true, false, false] := by
  obtain ⟨hloose, -⟩ := FunctionBuilder.optional_types_only_loosen (b := .default) rfl
    siteTable_loosenedTo.catalog createSite_loosenedTo
  have hgs : ofParameters siteTable.catalog createSite.parameters = .ok _ := rfl
  have hgs' : ofParameters looseSiteTable.catalog looseCreateSite.parameters = .ok _ := rfl
  rw [hgs, hgs'] at hloose
  obtain ⟨hnested, hwrapper⟩ := Agree.ok_iff.1 hloose
  exact ⟨_, _, _, _, hgs, hgs', hnested, rfl, rfl, Agree.ok_iff.1 (hwrapper .new "Site"), rfl, rfl⟩

end WrapperGen
