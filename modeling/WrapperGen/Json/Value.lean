/-!
# JSON values

Objects keep their members as written, in order and with repetitions. Numbers keep their decimal
value: an integer of at most 64 bits is one, and any other number is a decimal. A string that
escapes half of a surrogate pair is well formed but has no text; it may stand where nobody reads it.
-/

namespace WrapperGen.Json

/-- A JSON number. -/
inductive Number where
  /-- Written as an integer, from -2⁶³ to 2⁶⁴ - 1, and not as minus zero. -/
  | integer (n : Int)
  /-- The number ± coefficient · 10 ^ exponent. -/
  | decimal (negative : Bool) (coefficient : Nat) (exponent : Int)
  deriving DecidableEq, Repr, Inhabited

/-- A JSON value. -/
inductive Value where
  | null
  | bool (b : Bool)
  | number (n : Number)
  | string (s : String)
  /-- A string that has no text, or an object with such a name. -/
  | textless
  | array (items : List Value)
  | object (members : List (String × Value))
  deriving BEq, Repr, Inhabited

/-! ## Numbers -/

namespace Number

/-- The decimal digits of a number. -/
def digits (n : Nat) : List Char := (toString n).toList

/-- The number without the zeros at the end of its coefficient. At most `fuel` of them go. -/
def dropZeros : (fuel : Nat) → (coefficient : Nat) → (exponent : Int) → Nat × Int
  | 0, c, e => (c, e)
  | fuel + 1, c, e => if c ≠ 0 ∧ c % 10 = 0 then dropZeros fuel (c / 10) (e + 1) else (c, e)

/-- The digits of a decimal, laid out. A point that falls among the first sixteen places or at
most four places before the first digit is written; otherwise one digit stands before the point
and an exponent follows. -/
def layout (digits : List Char) (exponent : Int) : List Char :=
  let point : Int := digits.length + exponent
  if 0 ≤ exponent ∧ point ≤ 16 then digits ++ List.replicate exponent.toNat '0' ++ ['.', '0']
  else if 0 < point ∧ point ≤ 16 then
    digits.take point.toNat ++ '.' :: digits.drop point.toNat
  else if -5 < point ∧ point ≤ 0 then
    ['0', '.'] ++ List.replicate (-point).toNat '0' ++ digits
  else
    let tail := 'e' :: (toString (point - 1)).toList
    match digits with
    | [] => tail
    | [d] => d :: tail
    | d :: rest => d :: '.' :: rest ++ tail

/-- The text of a number. -/
def chars : Number → List Char
  | integer n => (toString n).toList
  | decimal negative coefficient exponent =>
    let sign := if negative then ['-'] else []
    if coefficient = 0 then sign ++ ['0', '.', '0']
    else
      let (c, e) := dropZeros (digits coefficient).length coefficient exponent
      sign ++ layout (digits c) e

/-! ### Doubles

A decimal is turned into a double in two steps, each of which rounds: the digits that fit into 64
bits make a double, and a power of ten, itself a double, is multiplied to it. So close to the
greatest double it is these steps that say whether a number still has one. -/

/-- The least magnitude that does not round to a finite double. -/
def doubleBound : Nat := Nat.pow 2 1024 - Nat.pow 2 970

/-- The number whose bits but the first 53 are rounded away, half of the last place to even. -/
def toDouble (n : Nat) : Nat :=
  let place := Nat.pow 2 (n.log2 - 52)
  let kept := n / place
  let left := n % place
  if place < 2 * left ∨ (2 * left = place ∧ kept % 2 = 1) then (kept + 1) * place else kept * place

/-- The digits of a decimal that fit into 64 bits, with the exponent that makes up for the others.
At most `fuel` of them go. -/
def significand : (fuel : Nat) → (coefficient : Nat) → (exponent : Int) → Nat × Int
  | 0, c, e => (c, e)
  | fuel + 1, c, e => if c < Nat.pow 2 64 then (c, e) else significand fuel (c / 10) (e + 1)

/-- The number has a finite double. -/
def isFinite : Number → Bool
  | integer _ => true
  | decimal _ coefficient exponent =>
    let (c, e) := significand (digits coefficient).length coefficient exponent
    c == 0 || e < 0 ||
      (e ≤ 308 && toDouble c * toDouble (Nat.pow 10 e.toNat) < doubleBound)

end Number

/-! ## Values -/

namespace Value

def ofString? : Option String → Value
  | none => null
  | some s => string s

def ofNat (n : Nat) : Value := number (.integer n)

/-- The member of a name, the last one if there are several. -/
def member? (v : Value) (name : String) : Option Value :=
  match v with
  | object members => members.reverse.lookup name
  | _ => none

/-- The items of an array; any other value has none. -/
def items : Value → List Value
  | array items => items
  | _ => []

mutual

/-- The value nests at most `room` arrays and objects deep, its numbers are finite, and all of it
has a text. -/
def fits : (room : Nat) → Value → Bool
  | _, null => true
  | _, bool _ => true
  | _, string _ => true
  | _, number n => n.isFinite
  | _, textless => false
  | 0, array _ => false
  | 0, object _ => false
  | room + 1, array items => allFit room items
  | room + 1, object members => membersFit room members

/-- Each item fits. -/
def allFit : (room : Nat) → List Value → Bool
  | _, [] => true
  | room, v :: vs => fits room v && allFit room vs

/-- The value of each member fits. -/
def membersFit : (room : Nat) → List (String × Value) → Bool
  | _, [] => true
  | room, (_, v) :: ms => fits room v && membersFit room ms

end

/-- Puts a member among members in ascending order of names, in place of one of its name. -/
def insertMember (name : String) (v : Value) : List (String × Value) → List (String × Value)
  | [] => [(name, v)]
  | (n, w) :: rest =>
    if name < n then (name, v) :: (n, w) :: rest
    else if name = n then (name, v) :: rest
    else (n, w) :: insertMember name v rest

mutual

/-- The value with the members of every object in ascending order of names, of which each occurs
once: the last member of a name counts. -/
def sorted : Value → Value
  | null => null
  | bool b => bool b
  | number n => number n
  | string s => string s
  | textless => textless
  | array items => array (sortedItems items)
  | object members => object (sortedMembers members)

def sortedItems : List Value → List Value
  | [] => []
  | v :: vs => sorted v :: sortedItems vs

/-- The members sorted; earlier ones are put in only where no later one has their name. -/
def sortedMembers : List (String × Value) → List (String × Value)
  | [] => []
  | (n, v) :: ms =>
    let rest := sortedMembers ms
    if rest.any (·.1 == n) then rest else insertMember n (sorted v) rest

end

end Value

end WrapperGen.Json
