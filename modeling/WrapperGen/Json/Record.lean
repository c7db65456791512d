import WrapperGen.Json.Value
/-!
# Reading records

A record is an object with a member for each field, or an array of the fields' values in order.
In an object, members of other names are passed over and no field may occur twice; in an array,
fields at the end may be missing. Which fields have to be there is for each record to say.

Readers take the number of arrays and objects that may still be opened, the *room*.

Main statements: `fields?_perm` and `fields?_filter` say that neither the order of members nor
members of other names matter.
-/

namespace WrapperGen.Json

/-- The values of a record's fields, by name. -/
structure Fields where
  entries : List (String × Value)
  deriving Repr, Inhabited

namespace Fields

/-- The value of a field, if the record has it. -/
def get? (fields : Fields) (name : String) : Option Value := fields.entries.lookup name

/-- A field that has to be there. -/
def required {α : Type} (fields : Fields) (name : String) (read? : Value → Option α) : Option α :=
  (fields.get? name).bind read?

/-- A field with a value for when it is missing. -/
def optional {α : Type} (fields : Fields) (name : String) (missing : α)
    (read? : Value → Option α) : Option α :=
  match fields.get? name with
  | none => some missing
  | some v => read? v

end Fields

/-- How a reader comes to a value. -/
inductive Provenance where
  /-- It is read where it stands. -/
  | direct
  /-- It was kept among members that nobody had asked for yet, and is read later. -/
  | kept
  deriving DecidableEq, Repr, Inhabited

namespace Value

/-- The fields of a record with the given names. -/
def fields? (names : List String) : Value → Option Fields
  | object members =>
    let known := members.filter fun m => names.contains m.1
    if (known.map (·.1)).Nodup then some ⟨known⟩ else none
  | array items => if items.length ≤ names.length then some ⟨names.zip items⟩ else none
  | _ => none

/-! ## Readers of single values -/

def string? : Value → Option String
  | string s => some s
  | _ => none

def bool? : Value → Option Bool
  | bool b => some b
  | _ => none

/-- A number below 2⁶⁴ written as an integer. -/
def natural? : Value → Option Nat
  | number (.integer (.ofNat n)) => some n
  | _ => none

/-- The value null, or one that the reader takes. -/
def nullable? {α : Type} (read? : Value → Option α) : Value → Option (Option α)
  | null => some none
  | v => (read? v).map some

/-- An array of values that the reader takes with the room left inside. -/
def list? {α : Type} (read? : Nat → Value → Option α) : (room : Nat) → Value → Option (List α)
  | room + 1, array items => items.mapM (read? room)
  | _, _ => none

/-- A value that says nothing: null, or empty braces, too, where the value was kept. -/
def isNothing : Provenance → Value → Bool
  | _, null => true
  | .kept, object [] => true
  | _, _ => false

/-- A word of a table: a string, or an object whose one member has that name and says nothing. -/
def choice? {α : Type} (table : List (String × α)) (provenance : Provenance) :
    (room : Nat) → Value → Option α
  | _, string s => table.lookup s
  | _ + 1, object [(name, v)] => if isNothing provenance v then table.lookup name else none
  | _, _ => none

end Value

/-! ## Order and other members -/

theorem lookup_eq_of_perm {l l' : List (String × Value)} (h : l.Perm l')
    (hd : (l.map (·.1)).Nodup) (name : String) : l.lookup name = l'.lookup name := by
  induction h with
  | nil => rfl
  | cons x _ ih =>
    simp only [List.map_cons, List.nodup_cons] at hd
    obtain ⟨n, v⟩ := x
    simp [List.lookup_cons, ih hd.2]
  | swap x y l =>
    obtain ⟨n, v⟩ := x
    obtain ⟨m, w⟩ := y
    simp only [List.map_cons, List.nodup_cons, List.mem_cons, not_or] at hd
    simp only [List.lookup_cons]
    by_cases h₁ : name = n
    · by_cases h₂ : name = m
      · exact absurd (h₂.symm.trans h₁) hd.1.1
      · simp [beq_false_of_ne h₂]
    · simp [beq_false_of_ne h₁]
  | trans h₁ _ ih₁ ih₂ => rw [ih₁ hd, ih₂ ((h₁.map _).nodup_iff.1 hd)]

/-- Members in another order give fields that answer alike. -/
theorem fields?_perm {names : List String} {ms ms' : List (String × Value)} (h : ms.Perm ms')
    {fields : Fields} (hf : (Value.object ms).fields? names = some fields) :
    ∃ fields', (Value.object ms').fields? names = some fields' ∧
      ∀ name, fields'.get? name = fields.get? name := by
  have hk := h.filter fun m => names.contains m.1
  simp only [Value.fields?] at hf ⊢
  split at hf
  · next hd =>
    cases hf
    rw [if_pos ((hk.map _).nodup_iff.1 hd)]
    exact ⟨_, rfl, fun name => (lookup_eq_of_perm hk hd name).symm⟩
  · cases hf

/-- Members of other names make no difference. -/
theorem fields?_filter (names : List String) (ms : List (String × Value)) :
    (Value.object (ms.filter fun m => names.contains m.1)).fields? names =
      (Value.object ms).fields? names := by
  simp [Value.fields?, List.filter_filter]

end WrapperGen.Json
