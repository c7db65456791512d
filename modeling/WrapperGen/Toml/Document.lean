import WrapperGen.Json.Value
import WrapperGen.Toml.Text
/-!
# TOML documents

The part of TOML in which every value is a string, a truth value, an array or a table: a document
with a number, a date or an array of tables is refused. No key may get two values. A table may be
spread over dotted keys of one section and over headers, but its header may occur once.
-/

namespace WrapperGen.Toml

/-- How a table came to be. -/
inductive TableOrigin where
  /-- By braces; nothing can be added. -/
  | braces
  /-- By a header of its own. -/
  | header
  /-- By the header of a table inside. -/
  | implied
  /-- By dotted keys. -/
  | dotted
  deriving DecidableEq, Repr, Inhabited

/-- A value. -/
inductive Value where
  | string (s : String)
  | bool (b : Bool)
  | array (items : List Value)
  | table (origin : TableOrigin) (entries : List (String × Value))
  deriving Repr, Inhabited

/-- The entries of a table. -/
abbrev Entries := List (String × Value)

namespace Value

mutual

/-- The same value in JSON. -/
def toJson : Value → Json.Value
  | string s => .string s
  | bool b => .bool b
  | array items => .array (itemsToJson items)
  | table _ entries => .object (entriesToJson entries)

def itemsToJson : List Value → List Json.Value
  | [] => []
  | v :: vs => toJson v :: itemsToJson vs

def entriesToJson : Entries → List (String × Json.Value)
  | [] => []
  | (name, v) :: es => (name, toJson v) :: entriesToJson es

end

end Value

namespace Entries

/-- The entries with the value of a name changed. -/
def replace (es : Entries) (name : String) (v : Value) : Entries :=
  es.map fun e => if e.1 = name then (name, v) else e

/-- Adds a value under a key. A new part of the key makes a table; an old one has to be a table made
by dotted keys. -/
def assign? (v : Value) : (key : List String) → Entries → Option Entries
  | [], _ => none
  | [name], es => if (es.lookup name).isSome then none else some (es ++ [(name, v)])
  | name :: key, es =>
    match es.lookup name with
    | none => (assign? v key []).map fun inner => es ++ [(name, .table .dotted inner)]
    | some (.table .dotted inner) =>
      (assign? v key inner).map fun inner => replace es name (.table .dotted inner)
    | some _ => none

/-- Makes the table of a header. -/
def openTable? : (header : List String) → Entries → Option Entries
  | [], _ => none
  | [name], es =>
    match es.lookup name with
    | none => some (es ++ [(name, .table .header [])])
    | some (.table .implied inner) => some (replace es name (.table .header inner))
    | some _ => none
  | name :: header, es =>
    match es.lookup name with
    | none => (openTable? header []).map fun inner => es ++ [(name, .table .implied inner)]
    | some (.table .braces _) => none
    | some (.table origin inner) =>
      (openTable? header inner).map fun inner => replace es name (.table origin inner)
    | some _ => none

/-- Changes the entries of the table at a header. -/
def within? (change : Entries → Option Entries) : (header : List String) → Entries → Option Entries
  | [], es => change es
  | name :: header, es =>
    match es.lookup name with
    | some (.table origin inner) =>
      (within? change header inner).map fun inner => replace es name (.table origin inner)
    | _ => none

end Entries

/-! ## Reading -/

/-- What follows a comment, if there is one. -/
def skipComment : List Char → List Char
  | '#' :: rest => rest.dropWhile isPlain
  | text => text

/-- What follows the rest of a line without content. -/
def endLine? (text : List Char) : Option (List Char) :=
  match skipComment (skipBlanks text) with
  | [] => some []
  | rest => dropNewline? rest

/-- The text from its first content on, over lines and comments. -/
def skipLines : (fuel : Nat) → List Char → List Char
  | 0, text => text
  | fuel + 1, text =>
    match skipBlanks text with
    | [] => []
    | rest =>
      match endLine? rest with
      | some rest => skipLines fuel rest
      | none => rest

/-- The text from its first content on. -/
def skip (text : List Char) : List Char := skipLines text.length text

/-- A key inside of braces with what follows the sign after it. Lines may end and comments may stand
on both sides of the sign. -/
def dropEquals? : List String × List Char → Option (List String × List Char)
  | (key, text) =>
    match skip text with
    | '=' :: rest => some (key, skip rest)
    | _ => none

mutual

/-- Reads a value. The fuel bounds how many values and separators are read. -/
def readValue? : (fuel : Nat) → List Char → Option (Value × List Char)
  | 0, _ => none
  | fuel + 1, text =>
    match text with
    | '[' :: rest => (readItems? fuel [] (skip rest)).map fun (vs, rest) => (.array vs, rest)
    | '\x7b' :: rest =>
      (readPairs? fuel [] (skip rest)).map fun (es, rest) => (.table .braces es, rest)
    | 't' :: 'r' :: 'u' :: 'e' :: rest => some (.bool true, rest)
    | 'f' :: 'a' :: 'l' :: 's' :: 'e' :: rest => some (.bool false, rest)
    | text => (readString? text).map fun (s, rest) => (.string s, rest)

/-- Reads the items of an array up to its end. -/
def readItems? : (fuel : Nat) → (done : List Value) → List Char → Option (List Value × List Char)
  | 0, _, _ => none
  | _ + 1, done, ']' :: rest => some (done.reverse, rest)
  | fuel + 1, done, text =>
    match readValue? fuel text with
    | none => none
    | some (v, rest) =>
      match skip rest with
      | ',' :: rest => readItems? fuel (v :: done) (skip rest)
      | ']' :: rest => some ((v :: done).reverse, rest)
      | _ => none

/-- Reads the entries of a table in braces up to its end. -/
def readPairs? : (fuel : Nat) → (done : Entries) → List Char → Option (Entries × List Char)
  | 0, _, _ => none
  | _ + 1, done, '\x7d' :: rest => some (done, rest)
  | fuel + 1, done, text =>
    match (readKey? (text.length + 1) text).bind dropEquals? with
    | none => none
    | some (key, rest) =>
      match readValue? fuel rest with
      | none => none
      | some (v, rest) =>
        match Entries.assign? v key done, skip rest with
        | some done, ',' :: rest => readPairs? fuel done (skip rest)
        | some done, '\x7d' :: rest => some (done, rest)
        | _, _ => none

end

/-- A document up to some line: all entries, and the header of the section. -/
structure Reader where
  entries : Entries
  header : List String
  deriving Repr, Inhabited

/-- Reads a header or an entry, and the rest of its line. -/
def Reader.readLine? (r : Reader) (text : List Char) : Option (Reader × List Char) :=
  match text with
  | '[' :: rest => do
    let (header, rest) ← readKey? (rest.length + 1) (skipBlanks rest)
    let ']' :: rest := rest | none
    let rest ← endLine? rest
    let entries ← r.entries.openTable? header
    return (⟨entries, header⟩, rest)
  | text => do
    let (key, rest) ← readKey? (text.length + 1) text
    let '=' :: rest := rest | none
    let (v, rest) ← readValue? (rest.length + 1) (skipBlanks rest)
    let rest ← endLine? rest
    let entries ← Entries.within? (Entries.assign? v key) r.header r.entries
    return ({ r with entries }, rest)

/-- Reads lines up to the end of the text. -/
def Reader.run? : (fuel : Nat) → Reader → List Char → Option Entries
  | 0, _, _ => none
  | fuel + 1, r, text =>
    match skip text with
    | [] => some r.entries
    | text =>
      match r.readLine? text with
      | none => none
      | some (r, rest) => Reader.run? fuel r rest

/-- The text without a byte order mark. -/
def dropMark : List Char → List Char
  | c :: rest => if c.toNat = 0xFEFF then rest else c :: rest
  | [] => []

/-- The entries of a document. -/
def read? (text : String) : Option Entries :=
  Reader.run? (text.length + 1) ⟨[], []⟩ (dropMark text.toList)

end WrapperGen.Toml
