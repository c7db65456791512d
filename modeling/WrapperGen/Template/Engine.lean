import WrapperGen.Model.Error
import WrapperGen.Template.Render
/-!
# Template sets

Templates registered under names. Registering a text that is no template changes nothing, and a
later template takes the place of an earlier one of its name. Objects of a context are gone through
in ascending order of their names.
-/

namespace WrapperGen.Template

/-- Templates by name. -/
structure TemplateSet where
  entries : List (String × List Node)
  deriving Repr, Inhabited

namespace TemplateSet

def empty : TemplateSet := ⟨[]⟩

/-- The template of a name. -/
def get? (set : TemplateSet) (name : String) : Option (List Node) := set.entries.lookup name

def contains (set : TemplateSet) (name : String) : Bool := (set.get? name).isSome

/-- Puts a template under a name. -/
def insert (set : TemplateSet) (name : String) (nodes : List Node) : TemplateSet :=
  ⟨(name, nodes) :: set.entries.filter (·.1 != name)⟩

theorem get?_insert_self (set : TemplateSet) (name : String) (nodes : List Node) :
    (set.insert name nodes).get? name = some nodes := by
  unfold get? insert
  exact List.lookup_cons_self

/-- The set of one template, or no template if it could not be read. -/
def ofNodes? (name : String) : Option (List Node) → TemplateSet
  | some nodes => empty.insert name nodes
  | none => empty

/-- Registers the template that a text writes. -/
def register (set : TemplateSet) (name text : String) : Except Error TemplateSet :=
  match Node.ofText? text with
  | some nodes => .ok (set.insert name nodes)
  | none => .error (.serialization ("Failed to register template '" ++ name ++ "'"))

/-- The error for a template that is missing or cannot be rendered. -/
def renderingFailed : Error := .serialization "Template rendering failed"

/-- The text of a template in a context. -/
def render (set : TemplateSet) (name : String) (context : Json.Value) : Except Error String :=
  match set.get? name with
  | none => .error renderingFailed
  | some nodes =>
    match renderAll (.ofValue context.sorted) nodes with
    | .ok text => .ok text
    | .error () => .error renderingFailed

end TemplateSet

end WrapperGen.Template
