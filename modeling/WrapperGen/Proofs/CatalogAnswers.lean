import Mathlib.Data.List.Nodup
import WrapperGen.Proofs.AssemblyDocument
/-!
# What the catalog of an assembly answers

The catalog of an assembly is a table made of its types. A document that can be read has no two
types of one definition name, so nothing is lost in the table:

1. a table of distinct names holds its entries as they come (`ShapeTable.ofList_of_nodup`), and one
   that was added to answers with what was added last (`ShapeTable.get?_insertAll`);
2. the table of an assembly has under a name the shape of the type that is found by it
   (`Assembly.get?_shapes`);
3. so it answers for every type from the document alone, and in whatever order the document lists
   its types (`Assembly.catalog_answers`).
-/

namespace WrapperGen

/-! ## Tables -/

namespace ShapeTable

/-- The table with more shapes, added one after another. -/
def insertAll (table : ShapeTable) (added : List (String × Shape)) : ShapeTable :=
  added.foldl (fun table e => table.insert e.1 e.2) table

theorem insertEntry_of_notMem {name : String} (shape : Shape) {entries : List (String × Shape)}
    (h : name ∉ entries.map (·.1)) :
    insertEntry name shape entries = entries ++ [(name, shape)] := by
  induction entries with
  | nil => rfl
  | cons e entries ih =>
    obtain ⟨n, s⟩ := e
    rw [List.map_cons, List.mem_cons, not_or] at h
    rw [insertEntry, if_neg (Ne.symm h.1), ih h.2, List.cons_append]

theorem insertAll_of_nodup {table : ShapeTable} {added : List (String × Shape)}
    (h : ((table.entries ++ added).map (·.1)).Nodup) :
    table.insertAll added = ⟨table.entries ++ added⟩ := by
  induction added generalizing table with
  | nil =>
    rw [List.append_nil]
    rfl
  | cons e added ih =>
    have hnew : e.1 ∉ table.entries.map (·.1) := by
      rw [List.map_append, List.map_cons] at h
      intro hmem
      exact (List.nodup_append.1 h).2.2 _ hmem _ List.mem_cons_self rfl
    have hfirst : table.insert e.1 e.2 = ⟨table.entries ++ [e]⟩ :=
      congrArg ShapeTable.mk (insertEntry_of_notMem e.2 hnew)
    have hrest : ((table.entries ++ [e] ++ added).map (·.1)).Nodup := by
      rwa [List.append_assoc, List.singleton_append]
    show (table.insert e.1 e.2).insertAll added = _
    rw [hfirst, ih hrest, List.append_assoc, List.singleton_append]

/-- A table of distinct names holds its entries as they come. -/
theorem ofList_of_nodup {entries : List (String × Shape)} (h : (entries.map (·.1)).Nodup) :
    ofList entries = ⟨entries⟩ := @insertAll_of_nodup .empty entries h

theorem get?_insert (table : ShapeTable) (name key : String) (shape : Shape) :
    (table.insert name shape).get? key = ([(name, shape)].lookup key).or (table.get? key) := by
  by_cases h : key = name
  · subst h
    simp [get?_insert_self]
  · simp [get?_insert_of_ne table h, List.lookup_cons, beq_false_of_ne h]

/-- What was added last under a name counts. -/
theorem get?_insertAll (table : ShapeTable) (added : List (String × Shape)) (key : String) :
    (table.insertAll added).get? key = (added.reverse.lookup key).or (table.get? key) := by
  induction added generalizing table with
  | nil => rfl
  | cons e added ih =>
    show ((table.insert e.1 e.2).insertAll added).get? key = _
    rw [ih, get?_insert, List.reverse_cons, List.lookup_append, Option.or_assoc]

theorem describe_congr {table table' : ShapeTable} (h : ∀ key, table.get? key = table'.get? key)
    (t : TypeRef) : table.describe t = table'.describe t := by
  simp only [describe, h]

theorem describe_of_none (table : ShapeTable) {t : TypeRef} (h : t.definitionName? = none) :
    table.describe t =
      .error (.unresolvableTypeName ("type '" ++ t.name ++ "' requested from the catalog")) := by
  simp only [describe, h]

theorem describe_of_some (table : ShapeTable) {t : TypeRef} {key : String}
    (h : t.definitionName? = some key) :
    table.describe t = match table.get? key with
      | some shape => .ok shape
      | none => .error (.typeIntrospection key absent) := by
  simp only [describe, h]
  cases table.get? key <;> rfl

end ShapeTable

/-! ## The table of an assembly -/

namespace Assembly

variable {a : Assembly}

/-- A valid assembly names each of its types once. -/
theorem nodup_definitionNames (h : a.validate = .ok ()) :
    (a.types.map (·.definitionName)).Nodup := by
  rw [← repeated_eq_nil_iff]
  unfold validate at h
  split at h
  · cases h
  · split at h
    · next hnone => exact hnone
    · cases h

theorem find?_eq_some_iff (hnodup : (a.types.map (·.definitionName)).Nodup) {key : String}
    {d : TypeDefinition} : a.find? key = some d ↔ d ∈ a.types ∧ d.definitionName = key := by
  constructor
  · intro h
    exact ⟨List.mem_of_find?_eq_some h, by simpa using List.find?_some h⟩
  · rintro ⟨hd, rfl⟩
    have hfound : (a.find? d.definitionName).isSome = true :=
      List.find?_isSome.2 ⟨d, hd, by simp⟩
    obtain ⟨d', hd'⟩ := Option.isSome_iff_exists.1 hfound
    have hname : d'.definitionName = d.definitionName := by simpa using List.find?_some hd'
    rw [hd', List.inj_on_of_nodup_map hnodup (List.mem_of_find?_eq_some hd') hd hname]

theorem find?_perm (hnodup : (a.types.map (·.definitionName)).Nodup) {types : List TypeDefinition}
    (h : types.Perm a.types) (key : String) :
    ({ a with types := types } : Assembly).find? key = a.find? key := by
  have hnodup' : (types.map (·.definitionName)).Nodup := (h.map _).nodup_iff.2 hnodup
  refine Option.ext fun d => ?_
  rw [find?_eq_some_iff hnodup, find?_eq_some_iff hnodup', h.mem_iff]

theorem shapes_eq (hnodup : (a.types.map (·.definitionName)).Nodup) :
    a.shapes = ⟨a.types.map fun d => (d.definitionName, d.shape)⟩ := by
  refine ShapeTable.ofList_of_nodup ?_
  rwa [List.map_map]

/-- The table has under a name the shape of the type that is found by it. -/
theorem get?_shapes (hnodup : (a.types.map (·.definitionName)).Nodup) (key : String) :
    a.shapes.get? key = (a.find? key).map (·.shape) := by
  rw [shapes_eq hnodup, ShapeTable.get?, find?]
  clear hnodup
  induction a.types with
  | nil => rfl
  | cons d types ih =>
    rw [List.map_cons, List.lookup_cons, List.find?_cons, BEq.comm, ih]
    cases d.definitionName == key <;> rfl

/-- The definition name of a reference to a type is that of the type. -/
theorem definitionName?_typeRef {d : TypeDefinition}
    (h : TypeRef.hasResolvableName d.kind d.name = true) :
    d.typeRef.definitionName? = some d.definitionName := if_pos h

/-- A type has no definition name, or none that is found, or gets the shape of the one found. -/
theorem describe_cases (hnodup : (a.types.map (·.definitionName)).Nodup) (t : TypeRef) :
    (t.definitionName? = none ∧ a.shapes.describe t =
      .error (.unresolvableTypeName ("type '" ++ t.name ++ "' requested from the catalog"))) ∨
    (∃ key, t.definitionName? = some key ∧ a.find? key = none ∧
      a.shapes.describe t = .error (.typeIntrospection key ShapeTable.absent)) ∨
    ∃ key d, t.definitionName? = some key ∧ a.find? key = some d ∧
      a.shapes.describe t = .ok d.shape := by
  cases hkey : t.definitionName? with
  | none => exact .inl ⟨rfl, ShapeTable.describe_of_none _ hkey⟩
  | some key =>
    have hdescribe := ShapeTable.describe_of_some a.shapes hkey
    rw [get?_shapes hnodup] at hdescribe
    cases hfind : a.find? key with
    | none =>
      rw [hfind] at hdescribe
      exact .inr (.inl ⟨key, rfl, hfind, hdescribe⟩)
    | some d =>
      rw [hfind] at hdescribe
      exact .inr (.inr ⟨key, d, rfl, hfind, hdescribe⟩)

/-- What a table answers that has the shapes of an assembly and no others. -/
structure AnsweredBy (a : Assembly) (table : ShapeTable) : Prop where
  shape : ∀ t shape, table.describe t = .ok shape ↔
    ∃ key d, t.definitionName? = some key ∧ a.find? key = some d ∧ d.shape = shape
  nameless : ∀ t use, table.describe t = .error (.unresolvableTypeName use) ↔
    t.definitionName? = none ∧ use = "type '" ++ t.name ++ "' requested from the catalog"
  unlisted : ∀ t key reason, table.describe t = .error (.typeIntrospection key reason) ↔
    t.definitionName? = some key ∧ a.find? key = none ∧ reason = ShapeTable.absent
  contains : ∀ t, table.contains t = true ↔ ∃ shape, table.describe t = .ok shape
  size : table.size = a.types.length
  /-- References to the types themselves, and constructed from them. -/
  own : ∀ d ∈ a.types, TypeRef.hasResolvableName d.kind d.name = true → ∀ arguments,
    table.describe { d.typeRef with arguments := arguments } = .ok d.shape

theorem answeredBy_shapes (hnodup : (a.types.map (·.definitionName)).Nodup) :
    a.AnsweredBy a.shapes := by
  have hshape : ∀ t shape, a.shapes.describe t = .ok shape ↔
      ∃ key d, t.definitionName? = some key ∧ a.find? key = some d ∧ d.shape = shape := by
    intro t shape
    rcases describe_cases hnodup t with ⟨hkey, h⟩ | ⟨key, hkey, hfind, h⟩ | ⟨key, d, hkey, hfind, h⟩
    · simp [h, hkey]
    · simp [h, hkey, hfind]
    · simp [h, hkey, hfind]
  refine
    { shape := hshape
      nameless := ?nameless
      unlisted := ?unlisted
      contains := ?contains
      size := by rw [shapes_eq hnodup, ShapeTable.size, List.length_map]
      own := ?own }
  case nameless =>
    intro t use
    rcases describe_cases hnodup t with ⟨hkey, h⟩ | ⟨key, hkey, -, h⟩ | ⟨key, d, hkey, -, h⟩
    · simp [h, hkey, eq_comm]
    · simp [h, hkey]
    · simp [h, hkey]
  case unlisted =>
    intro t key reason
    rcases describe_cases hnodup t with
      ⟨hkey, h⟩ | ⟨key', hkey, hfind, h⟩ | ⟨key', d, hkey, hfind, h⟩
    · simp [h, hkey]
    · simp only [h, hkey, Except.error.injEq, Error.typeIntrospection.injEq, Option.some.injEq]
      constructor
      · rintro ⟨rfl, rfl⟩
        exact ⟨rfl, hfind, rfl⟩
      · rintro ⟨rfl, -, rfl⟩
        exact ⟨rfl, rfl⟩
    · simp only [h, hkey, reduceCtorEq, Option.some.injEq, false_iff, not_and]
      rintro rfl hnone
      rw [hfind] at hnone
      cases hnone
  case contains =>
    intro t
    rw [ShapeTable.contains]
    rcases describe_cases hnodup t with ⟨hkey, h⟩ | ⟨key, hkey, hfind, h⟩ | ⟨key, d, hkey, hfind, h⟩
    · simp [h, hkey]
    · simp [h, hkey, hfind, get?_shapes hnodup]
    · simp [h, hkey, hfind, get?_shapes hnodup]
  case own =>
    intro d hd hname arguments
    exact (hshape _ _).2 ⟨d.definitionName, d, definitionName?_typeRef hname,
      (find?_eq_some_iff hnodup).2 ⟨hd, rfl⟩, rfl⟩

theorem get?_shapes_perm (hnodup : (a.types.map (·.definitionName)).Nodup)
    {types : List TypeDefinition} (h : types.Perm a.types) (key : String) :
    ({ a with types := types } : Assembly).shapes.get? key = a.shapes.get? key := by
  rw [get?_shapes hnodup, get?_shapes ((h.map _).nodup_iff.2 hnodup), find?_perm hnodup h]

/-- **The catalog of an assembly answers from its document.** Of a document that was read: the
catalog has the shapes of its types and no others; the order of its types makes no difference; and
where shapes were added, the last one under the name of a type counts before that of the
document. -/
theorem catalog_answers {text : String} (h : read text = .ok a) :
    a.AnsweredBy a.shapes ∧
      (∀ types : List TypeDefinition, types.Perm a.types → ∀ t,
        ({ a with types := types } : Assembly).shapes.describe t = a.shapes.describe t) ∧
      ∀ added t, (a.shapes.insertAll added).describe t =
        match t.definitionName?.bind fun key => added.reverse.lookup key with
        | some shape => .ok shape
        | none => a.shapes.describe t := by
  have hnodup := nodup_definitionNames (of_read_eq_ok h).1
  refine ⟨answeredBy_shapes hnodup, ?_, ?_⟩
  · intro types hperm t
    exact ShapeTable.describe_congr (get?_shapes_perm hnodup hperm) t
  · intro added t
    cases hkey : t.definitionName? with
    | none => rw [ShapeTable.describe_of_none _ hkey, ShapeTable.describe_of_none _ hkey]; rfl
    | some key =>
      rw [ShapeTable.describe_of_some _ hkey, ShapeTable.describe_of_some _ hkey,
        ShapeTable.get?_insertAll, Option.bind_some]
      cases added.reverse.lookup key <;> rfl

/-- A generic type of pages and a type of sites. -/
def siteAssembly : Assembly :=
  ⟨"Sites", [
    ⟨some "Api.Model", "Page`1", .reference, true, false,
      .ofProperties [.plain "Count" (.plain "System" "Int32" .value)], []⟩,
    ⟨none, "Site", .value, true, false,
      (Shape.ofProperties []).withoutConstructor (some "Create"), []⟩]⟩

/-- Pages of sites have the shape of pages, and sites the shape that was added for them last. -/
theorem catalog_answers_siteAssembly :
    let page : TypeRef := .generic "Api.Model" "Page`1" [⟨none, "Site", .value, []⟩]
    let site : TypeRef := ⟨none, "Site", .value, []⟩
    let added := [("Site", Shape.ofProperties []), ("Rack", .ofProperties []),
      ("Site", .ofProperties [.plain "Name" page])]
    ∃ text, read text = .ok siteAssembly ∧ siteAssembly.shapes.size = 2 ∧
      siteAssembly.shapes.describe page =
        .ok (.ofProperties [.plain "Count" (.plain "System" "Int32" .value)]) ∧
      siteAssembly.shapes.describe (.plain "Api.Model" "Site" .value) =
        .error (.typeIntrospection "Api.Model.Site" ShapeTable.absent) ∧
      (siteAssembly.shapes.insertAll added).describe site =
        .ok (.ofProperties [.plain "Name" page]) := by
  intro page site added
  have hread : read siteAssembly.write = .ok siteAssembly :=
    (read_write_of_depth_le (by decide)).trans rfl
  obtain ⟨hanswered, -, hadded⟩ := catalog_answers hread
  refine ⟨_, hread, hanswered.size, ?_, ?_, ?_⟩
  · exact hanswered.own _ List.mem_cons_self (by decide) _
  · exact (hanswered.unlisted _ _ _).2 ⟨by decide, by decide, rfl⟩
  · have hlast : (site.definitionName?.bind fun key => added.reverse.lookup key) =
        some (.ofProperties [.plain "Name" page]) := by decide
    rw [hadded added site, hlast]

end Assembly

end WrapperGen
