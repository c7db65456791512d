import WrapperGen.Model.Endpoint
import WrapperGen.Naming.Verb
import WrapperGen.Text.Uppercase
/-!
# Nouns

The noun of a function says what it handles. It comes from a name in four steps:

1. the arity mark and all after it are dropped;
2. a tail `Response`, then a tail `Result`, is dropped, both up to the case of ASCII letters, and
   then a tail `List`, spelled exactly so, unless nothing would be left;
3. the word is put into the singular;
4. its first letter is capitalized.
-/

namespace WrapperGen.Noun

open WrapperGen.Text

/-- The plural endings of which the last two letters go. -/
def esEndings : List (List Char) :=
  [['s', 's', 'e', 's'], ['s', 'h', 'e', 's'], ['c', 'h', 'e', 's'], ['x', 'e', 's']]

/-- The singular of an English word by its ending: the first rule that fits is applied. -/
def singularChars (word : List Char) : List Char :=
  match dropTail? ['i', 'e', 's'] word with
  | some stem => stem ++ ['y']
  | none =>
    if esEndings.any fun ending => (dropTail? ending word).isSome then word.dropLast.dropLast
    else
      match dropTail? ['s'] word with
      | some (c :: stem) => c :: stem
      | _ => word

/-- The word without a tail `List`, unless the tail is all of it. -/
def dropListTail (word : List Char) : List Char :=
  if ['L', 'i', 's', 't'].isSuffixOf word && word.length != 4 then word.take (word.length - 4)
  else word

/-- The word without what marks it as a response. -/
def stripDecorations (word : List Char) : List Char :=
  let word := (dropTail? ['R', 'e', 's', 'p', 'o', 'n', 's', 'e'] word).getD word
  let word := (dropTail? ['R', 'e', 's', 'u', 'l', 't'] word).getD word
  dropListTail word

/-- The noun of a name. -/
def chars (name : List Char) : List Char :=
  capitalize (singularChars (stripDecorations (name.takeWhile (· ≠ arityMark))))

/-- The singular of a word. -/
def singular (word : String) : String := String.ofList (singularChars word.toList)

/-- The noun of a bare type name or of the rest of a method name. -/
def ofName (name : String) : String := String.ofList (chars name.toList)

/-- The noun of a type: that of its payload's name. -/
def ofType (t : TypeRef) : String := ofName t.payload.simpleName

/-- The noun of an endpoint. One that returns nothing is named after its method, if the method's
name says anything after the verb; every other one after its return type. -/
def ofEndpoint (e : Endpoint) : Except Error String := do
  let verb ← Verb.ofMethod e.method
  if e.returnType.isVoidLike then
    match verb.remainder? e.method with
    | some rest => if rest.isEmpty then return ofType e.returnType else return ofName rest
    | none => return ofType e.returnType
  else return ofType e.returnType

end WrapperGen.Noun
