/-!
# Type references

A reference to a reflected type is structural: two references are the same type exactly when
namespace, name, kind and arguments agree. The one element type of an array is its argument.

A reference has three texts:

1. the definition name, `Namespace.Name` with the arity mark kept, under which catalogs list it;
2. the full name, the form used in type literals: `A.Pair[X,Y]`, `X[]`;
3. the label, which is the full name or a placeholder when there is none.
-/

namespace WrapperGen

/-- What a reflected type is. -/
inductive TypeKind where
  /-- A class or record. -/
  | reference
  /-- A struct, primitives included. -/
  | value
  | enumeration
  | interface
  | array
  /-- An open parameter such as `T`. -/
  | genericParameter
  | void
  deriving DecidableEq, Repr, Inhabited

/-- A structural reference to a reflected type. -/
structure TypeRef where
  /-- The declaring namespace. -/
  space : Option String
  /-- The reflected name, arity mark included. -/
  name : String
  kind : TypeKind
  /-- Generic arguments in order; the element type of an array. -/
  arguments : List TypeRef
  deriving Repr, Inhabited

/-- The character between a generic type's name and the number of its parameters. -/
def arityMark : Char := '\x60'

/-- The namespace of the platform's own types. -/
def systemSpace : String := "System"

/-- A name after its namespace; an empty namespace counts as none. -/
def qualify (space : Option String) (name : String) : String :=
  match space with
  | none => name
  | some s => if s.isEmpty then name else s ++ "." ++ name

namespace TypeRef

/-! ## Equality -/

mutual

/-- Equality of references, decided on their structure. -/
def decEq : (s t : TypeRef) → Decidable (s = t)
  | ⟨s₁, n₁, k₁, as⟩, ⟨s₂, n₂, k₂, bs⟩ =>
    match decEqList as bs with
    | isFalse h => isFalse fun e => h (by cases e; rfl)
    | isTrue h =>
      if e : s₁ = s₂ ∧ n₁ = n₂ ∧ k₁ = k₂ then
        isTrue (by obtain ⟨rfl, rfl, rfl⟩ := e; rw [h])
      else isFalse fun e' => e (by cases e'; exact ⟨rfl, rfl, rfl⟩)

/-- Equality of argument lists. -/
def decEqList : (ss ts : List TypeRef) → Decidable (ss = ts)
  | [], [] => isTrue rfl
  | [], _ :: _ => isFalse (by simp)
  | _ :: _, [] => isFalse (by simp)
  | s :: ss, t :: ts =>
    match decEq s t with
    | isFalse h => isFalse fun e => h (by cases e; rfl)
    | isTrue h =>
      match decEqList ss ts with
      | isFalse h' => isFalse fun e => h' (by cases e; rfl)
      | isTrue h' => isTrue (by rw [h, h'])

end

instance : DecidableEq TypeRef := decEq

/-! ## Building references -/

/-- A reference without arguments. -/
def plain (space name : String) (kind : TypeKind) : TypeRef := ⟨some space, name, kind, []⟩

/-- A class of constructed generic type. -/
def generic (space name : String) (arguments : List TypeRef) : TypeRef :=
  ⟨some space, name, .reference, arguments⟩

/-- The name of the optional wrapper around value types. -/
def nullableName : String := "Nullable" ++ arityMark.toString ++ "1"

/-- The optional form of a type. -/
def nullable (inner : TypeRef) : TypeRef := ⟨some systemSpace, nullableName, .value, [inner]⟩

/-- The array of a type. -/
def array (element : TypeRef) : TypeRef :=
  ⟨element.space, element.name ++ "[]", .array, [element]⟩

/-- An open generic parameter. -/
def parameter (name : String) : TypeRef := ⟨none, name, .genericParameter, []⟩

/-- The type of methods that return nothing. -/
def void : TypeRef := plain systemSpace "Void" .void

/-! ## Names -/

/-- The part of a name before its arity mark. -/
def baseName (name : String) : String :=
  String.ofList (name.toList.takeWhile (· ≠ arityMark))

/-- The name without its arity mark. -/
def simpleName (t : TypeRef) : String := baseName t.name

/-- The name stands for a declared type: no open parameter, no empty name, and no angle bracket,
which only names made by a compiler have. -/
def hasResolvableName (kind : TypeKind) (name : String) : Bool :=
  kind != .genericParameter && !name.isEmpty && !name.toList.contains '<'

/-- `Namespace.Name` with the arity mark kept. -/
def definitionName? (t : TypeRef) : Option String :=
  if hasResolvableName t.kind t.name then some (qualify t.space t.name) else none

mutual

/-- The name in type-literal form. An array needs only its element's name. -/
def fullName? : TypeRef → Option String
  | ⟨space, name, kind, arguments⟩ =>
    match kind with
    | .array =>
      match arguments with
      | [] => none
      | element :: _ => (fullName? element).map (· ++ "[]")
    | _ =>
      if hasResolvableName kind name then
        match arguments with
        | [] => some (qualify space (baseName name))
        | first :: rest =>
          match fullName? first, fullNames? rest with
          | some n, some ns =>
            some (qualify space (baseName name) ++ "[" ++ ",".intercalate (n :: ns) ++ "]")
          | _, _ => none
      else none

/-- The full names of all the types, if each has one. -/
def fullNames? : List TypeRef → Option (List String)
  | [] => some []
  | t :: ts =>
    match fullName? t, fullNames? ts with
    | some n, some ns => some (n :: ns)
    | _, _ => none

end

/-- The full name, or a placeholder with the bare name. -/
def label (t : TypeRef) : String :=
  match t.fullName? with
  | some name => name
  | none => "<unresolved " ++ t.name ++ ">"

/-! ## Kinds -/

/-- Structs and enumerations. -/
def isValueType (t : TypeRef) : Bool := t.kind == .value || t.kind == .enumeration

def isEnumeration (t : TypeRef) : Bool := t.kind == .enumeration

/-- The void type, told by its kind or by its name. -/
def isVoid (t : TypeRef) : Bool :=
  t.kind == .void || (t.space == some systemSpace && t.name == "Void")

/-- A constructed generic; an array is none. -/
def isGeneric (t : TypeRef) : Bool := t.kind != .array && !t.arguments.isEmpty

/-- The wrapped type of an optional type. -/
def nullableUnderlying? (t : TypeRef) : Option TypeRef :=
  match t.arguments with
  | [inner] => if t.space = some systemSpace ∧ t.name = nullableName then some inner else none
  | _ => none

/-- The type without one optional wrapper. -/
def unwrapNullable (t : TypeRef) : TypeRef := t.nullableUnderlying?.getD t

/-- A value type that cannot be absent. -/
def isRequiredValue (t : TypeRef) : Bool := t.isValueType && t.nullableUnderlying?.isNone

/-! ## Simple and complex types -/

/-- The platform types that are passed as they are. -/
def simpleSystemNames : List String :=
  ["String", "Boolean", "Byte", "SByte", "Int16", "UInt16", "Int32", "UInt32", "Int64", "UInt64",
    "Single", "Double", "Decimal", "DateTime", "DateTimeOffset", "Guid", "TimeSpan", "Uri"]

/-- Enumerations and the primitive-like platform types pass to a call as one parameter; every
other type is complex, and its properties are lifted. Being optional changes nothing. -/
def isComplex (t : TypeRef) : Bool :=
  let u := t.unwrapNullable
  !(u.isEnumeration ||
    (u.space == some systemSpace && u.arguments.isEmpty && simpleSystemNames.contains u.name))

/-! ## Payloads -/

/-- The namespace of the platform's promise types. -/
def tasksSpace : String := "System.Threading.Tasks"

/-- The type that carries the payload: types with a single argument, arrays among them, are
opened from the outside in. -/
def payload : TypeRef → TypeRef
  | ⟨_, _, _, [inner]⟩ => payload inner
  | ⟨space, name, kind, []⟩ => ⟨space, name, kind, []⟩
  | ⟨space, name, kind, a :: b :: rest⟩ => ⟨space, name, kind, a :: b :: rest⟩

/-- The void type and the bare promises: a method that returns one returns nothing. -/
def isVoidLike (t : TypeRef) : Bool :=
  t.isVoid ||
    (t.space == some tasksSpace && t.arguments.isEmpty &&
      (t.name == "Task" || t.name == "ValueTask"))

end TypeRef

end WrapperGen
