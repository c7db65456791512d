import WrapperGen.Model.Error
import WrapperGen.Model.Shape
/-!
# Catalogs

A catalog answers what the shape of a type is. A shape table is a catalog made of entries, one for
each definition name; inserting under a name that is there replaces its shape.

Main statements: `get?_insert_self` and `get?_insert_of_ne`.
-/

namespace WrapperGen

/-- Whatever can describe types. -/
structure Catalog where
  describe : TypeRef → Except Error Shape

/-- Shapes listed under definition names. -/
structure ShapeTable where
  entries : List (String × Shape)
  deriving DecidableEq, Repr, Inhabited

namespace ShapeTable

def empty : ShapeTable := ⟨[]⟩

/-- The shape listed under a definition name. -/
def get? (table : ShapeTable) (name : String) : Option Shape := table.entries.lookup name

/-- The entries with one more, in place of an earlier one of its name. -/
def insertEntry (name : String) (shape : Shape) : List (String × Shape) → List (String × Shape)
  | [] => [(name, shape)]
  | (n, s) :: rest =>
    if n = name then (name, shape) :: rest else (n, s) :: insertEntry name shape rest

/-- Adds a shape, or replaces the one listed under the name. -/
def insert (table : ShapeTable) (name : String) (shape : Shape) : ShapeTable :=
  ⟨insertEntry name shape table.entries⟩

/-- The table of a list of entries, of which the last one under each name counts. -/
def ofList (entries : List (String × Shape)) : ShapeTable :=
  entries.foldl (fun table e => table.insert e.1 e.2) empty

def size (table : ShapeTable) : Nat := table.entries.length

def isEmpty (table : ShapeTable) : Bool := table.entries.isEmpty

/-- Why the shape of a type that no entry describes is not known. -/
def absent : String := "type is not present in the assembly metadata"

/-- The shape of a type: that of its definition, whatever its arguments. -/
def describe (table : ShapeTable) (t : TypeRef) : Except Error Shape :=
  match t.definitionName? with
  | none => .error (.unresolvableTypeName ("type '" ++ t.name ++ "' requested from the catalog"))
  | some key =>
    match table.get? key with
    | none => .error (.typeIntrospection key absent)
    | some shape => .ok shape

/-- The table can describe the type. -/
def contains (table : ShapeTable) (t : TypeRef) : Bool :=
  match t.definitionName? with
  | none => false
  | some key => (table.get? key).isSome

/-- The catalog that answers from the table. -/
def catalog (table : ShapeTable) : Catalog := ⟨table.describe⟩

theorem get?_insert_self (table : ShapeTable) (name : String) (shape : Shape) :
    (table.insert name shape).get? name = some shape := by
  obtain ⟨entries⟩ := table
  simp only [get?, insert]
  induction entries with
  | nil => simp [insertEntry]
  | cons e rest ih =>
    obtain ⟨n, s⟩ := e
    simp only [insertEntry]
    split
    · simp
    · next h => simpa [List.lookup_cons, beq_false_of_ne (Ne.symm h)] using ih

theorem get?_insert_of_ne (table : ShapeTable) {name other : String} (h : other ≠ name)
    (shape : Shape) : (table.insert name shape).get? other = table.get? other := by
  obtain ⟨entries⟩ := table
  simp only [get?, insert]
  induction entries with
  | nil => simp [insertEntry, List.lookup_cons, beq_false_of_ne h]
  | cons e rest ih =>
    obtain ⟨n, s⟩ := e
    simp only [insertEntry]
    split
    · next he =>
      subst he
      simp [List.lookup_cons, beq_false_of_ne h]
    · simp only [List.lookup_cons, ih]

end ShapeTable

end WrapperGen
