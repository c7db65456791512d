import WrapperGen.Model.Error
import WrapperGen.Text.Affix
/-!
# Verbs

A method name starts with a word for what the method does. Four such words are known, up to the
case of ASCII letters, and each gives the verb of the wrapper function.
-/

namespace WrapperGen

/-- The verb of a wrapper function. -/
inductive Verb where
  | read
  | new
  | remove
  | modify
  deriving DecidableEq, Repr, Inhabited

namespace Verb

def all : List Verb := [read, new, remove, modify]

/-- The verb as function names spell it. -/
def name : Verb → String
  | read => "Read"
  | new => "New"
  | remove => "Remove"
  | modify => "Modify"

/-- The word that starts the names of methods with this verb. -/
def methodHead : Verb → String
  | read => "Get"
  | new => "Create"
  | remove => "Delete"
  | modify => "Update"

/-- What a method name says after the word for the verb. -/
def remainder? (verb : Verb) (method : String) : Option String :=
  (Text.dropHead? verb.methodHead.toList method.toList).map String.ofList

/-- The first verb whose word starts the method name. -/
def ofMethod? (method : String) : Option Verb :=
  all.find? fun verb => (verb.remainder? method).isSome

/-- The verb of a method name. -/
def ofMethod (method : String) : Except Error Verb :=
  match ofMethod? method with
  | some verb => .ok verb
  | none => .error (.unrecognizedVerb method)

end Verb

end WrapperGen
