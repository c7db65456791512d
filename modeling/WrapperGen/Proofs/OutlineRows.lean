import WrapperGen.Console.Outline
import WrapperGen.Text.Delimited
/-!
# Rows of outlines

An outline without colours is read line by line. A row of it has a level, a key or a dash, and the
text of a leaf, which may be empty; the row above a block has no text, and neither has that of an
empty string.

1. A row is told by its line (`Row.chars_injective`): a key has no blanks and no colon, so neither
   the indentation before it nor the leaf after it can be taken for a part of it.
2. The rows below a key or a dash are the deeper ones that follow. So rows tell members and items,
   whatever shallower row comes next (`memberRows_append_inj`, `itemRows_append_inj`, by mutual
   induction on the values), and what follows an empty string is never deeper.

What is told of a value is what is shown of it: its leaves are told by their texts only.
-/

namespace WrapperGen.Console

open Json (Value)

/-! ## What is shown -/

mutual

/-- The value with every leaf replaced by the text that is displayed for it. -/
def shown : Value → Value
  | .array (v :: vs) => .array (shown v :: shownItems vs)
  | .object ((name, v) :: ms) => .object ((name, shown v) :: shownMembers ms)
  | .array [] => .string (String.ofList (leafText false (.array [])))
  | .object [] => .string (String.ofList (leafText false (.object [])))
  | .null => .string (String.ofList (leafText false .null))
  | .bool b => .string (String.ofList (leafText false (.bool b)))
  | .number n => .string (String.ofList (leafText false (.number n)))
  | .string s => .string (String.ofList (leafText false (.string s)))
  | .textless => .string (String.ofList (leafText false .textless))

def shownItems : List Value → List Value
  | [] => []
  | v :: vs => shown v :: shownItems vs

def shownMembers : List (String × Value) → List (String × Value)
  | [] => []
  | (name, v) :: ms => (name, shown v) :: shownMembers ms

end

/-! ## Rows -/

/-- What keys are made of: letters, digits and underscores, for instance. -/
def isKeyChar (c : Char) : Bool := !Text.isBlank c && c != ':'

/-- A line of an outline. -/
structure Row where
  level : Nat
  /-- The key of a member; an item has none. -/
  key : Option (List Char)
  /-- The text of a leaf; there is none above a block. -/
  leaf : List Char
  deriving DecidableEq, Repr, Inhabited

namespace Row

/-- What stands before the leaf, without its blanks. -/
def label (r : Row) : List Char :=
  match r.key with
  | none => ['-']
  | some key => key ++ [':']

/-- What stands after the label. -/
def tail (r : Row) : List Char := if r.leaf = [] then [] else ' ' :: r.leaf

/-- The line, without blanks at its end. -/
def chars (r : Row) : List Char := indentation r.level ++ (r.label ++ r.tail)

/-- The key is a word. -/
def IsKeyed (r : Row) : Prop := ∀ key ∈ r.key, key.all isKeyChar = true

theorem notMem_of_isKeyed {r : Row} (h : r.IsKeyed) {key : List Char} (hkey : r.key = some key)
    {c : Char} (hc : isKeyChar c = false) : c ∉ key := fun hmem =>
  Bool.eq_false_iff.1 hc (List.all_eq_true.1 (h key hkey) c hmem)

theorem tail_injective {r r' : Row} (h : r.tail = r'.tail) : r.leaf = r'.leaf := by
  unfold tail at h
  split at h
  · next hr =>
    split at h
    · next hr' => rw [hr, hr']
    · cases h
  · split at h
    · cases h
    · exact (List.cons.inj h).2

/-- A label does not begin with a blank, so the level ends where it begins. -/
theorem exists_label_eq_cons {r : Row} (h : r.IsKeyed) :
    ∃ c rest, r.label = c :: rest ∧ c ≠ ' ' := by
  unfold label
  cases hkey : r.key with
  | none => exact ⟨_, _, rfl, by decide⟩
  | some key =>
    cases key with
    | nil => exact ⟨_, _, rfl, by decide⟩
    | cons c key =>
      refine ⟨c, _, rfl, ?_⟩
      rintro rfl
      exact notMem_of_isKeyed h hkey (by decide) List.mem_cons_self

/-- A dash is no key: what follows a dash is a blank or nothing. -/
theorem dash_ne_key {r : Row} (h : r.IsKeyed) {key : List Char} (hkey : r.key = some key)
    (r' : Row) (rest : List Char) : '-' :: r'.tail ≠ key ++ ':' :: rest := by
  intro heq
  cases key with
  | nil => cases heq
  | cons c key =>
    obtain ⟨-, htail⟩ := List.cons.inj heq
    unfold tail at htail
    split at htail
    · exact absurd htail.symm (by simp)
    · cases key with
      | nil => cases htail
      | cons d key =>
        obtain ⟨hblank, -⟩ := List.cons.inj htail
        refine notMem_of_isKeyed h hkey (c := ' ') (by decide) ?_
        rw [hblank]
        exact List.mem_cons_of_mem _ List.mem_cons_self

theorem eq_of_replicate_append_eq {m n : Nat} {c d : Char} {x y : List Char} (hc : c ≠ ' ')
    (hd : d ≠ ' ') (h : List.replicate m ' ' ++ c :: x = List.replicate n ' ' ++ d :: y) :
    m = n ∧ c :: x = d :: y := by
  induction m generalizing n with
  | zero =>
    cases n with
    | zero => exact ⟨rfl, h⟩
    | succ n => exact absurd (List.cons.inj h).1 hc
  | succ m ih =>
    cases n with
    | zero => exact absurd (List.cons.inj h).1.symm hd
    | succ n =>
      obtain ⟨hmn, hrest⟩ := ih (List.cons.inj h).2
      exact ⟨congrArg (· + 1) hmn, hrest⟩

/-- A row is told by its line. -/
theorem chars_injective {r r' : Row} (h : r.IsKeyed) (h' : r'.IsKeyed)
    (heq : r.chars = r'.chars) : r = r' := by
  obtain ⟨c, x, hlabel, hc⟩ := exists_label_eq_cons h
  obtain ⟨d, y, hlabel', hd⟩ := exists_label_eq_cons h'
  have hparts : r.level = r'.level ∧ r.label ++ r.tail = r'.label ++ r'.tail := by
    unfold chars at heq
    rw [hlabel, hlabel', List.cons_append, List.cons_append] at heq ⊢
    obtain ⟨hlevel, hrest⟩ := eq_of_replicate_append_eq hc hd heq
    exact ⟨by omega, hrest⟩
  obtain ⟨hlevel, hrest⟩ := hparts
  have hkeys : r.key = r'.key ∧ r.tail = r'.tail := by
    unfold label at hrest
    cases hkey : r.key with
    | none =>
      cases hkey' : r'.key with
      | none =>
        rw [hkey, hkey'] at hrest
        exact ⟨rfl, (List.cons.inj hrest).2⟩
      | some key' =>
        rw [hkey, hkey', List.append_assoc] at hrest
        exact absurd hrest (dash_ne_key h' hkey' r _)
    | some key =>
      cases hkey' : r'.key with
      | none =>
        rw [hkey, hkey', List.append_assoc] at hrest
        exact absurd hrest.symm (dash_ne_key h hkey r' _)
      | some key' =>
        rw [hkey, hkey', List.append_assoc, List.append_assoc] at hrest
        obtain ⟨rfl, htail⟩ := Text.eq_and_eq_of_append_mark
          (notMem_of_isKeyed h hkey (by decide)) (notMem_of_isKeyed h' hkey' (by decide)) hrest
        exact ⟨rfl, htail⟩
  have hleaf := tail_injective hkeys.2
  obtain ⟨level, key, leaf⟩ := r
  obtain ⟨level', key', leaf'⟩ := r'
  rw [Row.mk.injEq]
  exact ⟨hlevel, hkeys.1, hleaf⟩

end Row

/-! ## The rows of a value -/

/-- The text of a leaf, and nothing for a value that goes below. -/
def headLeaf (v : Value) : List Char := if isNested v then [] else leafText false v

mutual

/-- The rows below the key or the dash of a value. -/
def rowsBelow (level : Nat) : Value → List Row
  | .object members => memberRows level members
  | .array items => itemRows level items
  | _ => []

def memberRows (level : Nat) : List (String × Value) → List Row
  | [] => []
  | (name, v) :: ms =>
    ⟨level, some name.toList, headLeaf v⟩ :: rowsBelow (level + 1) v ++ memberRows level ms

def itemRows (level : Nat) : List Value → List Row
  | [] => []
  | v :: vs => ⟨level, none, headLeaf v⟩ :: rowsBelow (level + 1) v ++ itemRows level vs

end

/-- A value is a leaf, with no rows below, or an object or array with some. -/
theorem isNested_cases (v : Value) :
    (isNested v = false ∧ (∀ level, rowsBelow level v = []) ∧
      shown v = .string (String.ofList (leafText false v))) ∨
      (isNested v = true ∧ ((∃ m ms, v = .object (m :: ms)) ∨ ∃ w ws, v = .array (w :: ws))) := by
  match v with
  | .array [] => exact .inl ⟨rfl, fun _ => rfl, rfl⟩
  | .array (w :: ws) => exact .inr ⟨rfl, .inr ⟨w, ws, rfl⟩⟩
  | .object [] => exact .inl ⟨rfl, fun _ => rfl, rfl⟩
  | .object (m :: ms) => exact .inr ⟨rfl, .inl ⟨m, ms, rfl⟩⟩
  | .null => exact .inl ⟨rfl, fun _ => rfl, rfl⟩
  | .bool _ => exact .inl ⟨rfl, fun _ => rfl, rfl⟩
  | .number _ => exact .inl ⟨rfl, fun _ => rfl, rfl⟩
  | .string _ => exact .inl ⟨rfl, fun _ => rfl, rfl⟩
  | .textless => exact .inl ⟨rfl, fun _ => rfl, rfl⟩

/-! ### Rows tell values -/

/-- What comes next is not as deep. -/
def EndsBlock (level : Nat) (rows : List Row) : Prop := ∀ r ∈ rows.head?, r.level < level

theorem EndsBlock.ne {level : Nat} {rows rest : List Row} {r : Row} (h : EndsBlock level rows)
    (hr : r.level = level) : rows ≠ r :: rest := by
  rintro rfl
  exact absurd (h r rfl) (by omega)

theorem endsBlock_memberRows {level : Nat} {rest : List Row} (h : EndsBlock level rest)
    (ms : List (String × Value)) : EndsBlock (level + 1) (memberRows level ms ++ rest) := by
  cases ms with
  | nil => exact fun r hr => Nat.lt_succ_of_lt (h r hr)
  | cons m ms =>
    intro r hr
    cases hr
    exact Nat.lt_succ_self level

theorem endsBlock_itemRows {level : Nat} {rest : List Row} (h : EndsBlock level rest)
    (vs : List Value) : EndsBlock (level + 1) (itemRows level vs ++ rest) := by
  cases vs with
  | nil => exact fun r hr => Nat.lt_succ_of_lt (h r hr)
  | cons v vs =>
    intro r hr
    cases hr
    exact Nat.lt_succ_self level

/-- The rows below a value that is no leaf begin with one at their level. -/
theorem exists_rowsBelow_eq_cons {v : Value} (h : isNested v = true) (level : Nat) :
    ∃ r rest, rowsBelow level v = r :: rest ∧ r.level = level := by
  obtain ⟨hleaf, -⟩ | ⟨-, ⟨m, ms, rfl⟩ | ⟨w, ws, rfl⟩⟩ := isNested_cases v
  · rw [hleaf] at h
    cases h
  · exact ⟨_, _, rfl, rfl⟩
  · exact ⟨_, _, rfl, rfl⟩

/-- Nothing is below a leaf, so a deeper row after it belongs to another value. -/
theorem leaf_append_inj {v v' : Value} {level : Nat} {rest rest' : List Row}
    (hleaf : isNested v = false) (hhead : headLeaf v = headLeaf v') (hrest : EndsBlock level rest)
    (h : rowsBelow level v ++ rest = rowsBelow level v' ++ rest') :
    shown v = shown v' ∧ rest = rest' := by
  obtain ⟨-, hrows, hshown⟩ | ⟨hnested, -⟩ := isNested_cases v
  · rw [hrows, List.nil_append] at h
    obtain ⟨hleaf', hrows', hshown'⟩ | ⟨hnested', -⟩ := isNested_cases v'
    · rw [hrows', List.nil_append] at h
      rw [headLeaf, headLeaf, hleaf, hleaf', if_neg Bool.false_ne_true,
        if_neg Bool.false_ne_true] at hhead
      exact ⟨by rw [hshown, hshown', hhead], h⟩
    · obtain ⟨r, more, hmore, hlevel⟩ := exists_rowsBelow_eq_cons hnested' level
      rw [hmore] at h
      exact absurd h (hrest.ne hlevel)
  · rw [hleaf] at hnested
    cases hnested

mutual

/-- The rows below two values of one text tell the values, whatever shallower rows follow. -/
theorem rowsBelow_append_inj (v : Value) {v' : Value} {level : Nat} {rest rest' : List Row}
    (hhead : headLeaf v = headLeaf v') (hrest : EndsBlock level rest)
    (hrest' : EndsBlock level rest')
    (h : rowsBelow level v ++ rest = rowsBelow level v' ++ rest') :
    shown v = shown v' ∧ rest = rest' := by
  match v with
  | .object (m :: ms) =>
    obtain ⟨-, hrows, -⟩ | ⟨-, ⟨m', ms', rfl⟩ | ⟨w', ws', rfl⟩⟩ := isNested_cases v'
    · rw [hrows, List.nil_append] at h
      exact absurd h.symm (hrest'.ne rfl)
    · obtain ⟨hms, hend⟩ := memberRows_append_inj (m :: ms) hrest hrest' h
      exact ⟨congrArg Value.object hms, hend⟩
    · exact absurd (List.cons.inj h).1 (by simp)
  | .array (w :: ws) =>
    obtain ⟨-, hrows, -⟩ | ⟨-, ⟨m', ms', rfl⟩ | ⟨w', ws', rfl⟩⟩ := isNested_cases v'
    · rw [hrows, List.nil_append] at h
      exact absurd h.symm (hrest'.ne rfl)
    · exact absurd (List.cons.inj h).1 (by simp)
    · obtain ⟨hws, hend⟩ := itemRows_append_inj (w :: ws) hrest hrest' h
      exact ⟨congrArg Value.array hws, hend⟩
  | .array [] => exact leaf_append_inj rfl hhead hrest h
  | .object [] => exact leaf_append_inj rfl hhead hrest h
  | .null => exact leaf_append_inj rfl hhead hrest h
  | .bool _ => exact leaf_append_inj rfl hhead hrest h
  | .number _ => exact leaf_append_inj rfl hhead hrest h
  | .string _ => exact leaf_append_inj rfl hhead hrest h
  | .textless => exact leaf_append_inj rfl hhead hrest h

theorem memberRows_append_inj (ms : List (String × Value)) {ms' : List (String × Value)}
    {level : Nat} {rest rest' : List Row} (hrest : EndsBlock level rest)
    (hrest' : EndsBlock level rest')
    (h : memberRows level ms ++ rest = memberRows level ms' ++ rest') :
    shownMembers ms = shownMembers ms' ∧ rest = rest' := by
  match ms, ms' with
  | [], [] => exact ⟨rfl, h⟩
  | [], (name', v') :: ms' => exact absurd h (hrest.ne rfl)
  | (name, v) :: ms, [] => exact absurd h.symm (hrest'.ne rfl)
  | (name, v) :: ms, (name', v') :: ms' =>
    simp only [memberRows, List.cons_append, List.append_assoc] at h
    obtain ⟨hrow, hrows⟩ := List.cons.inj h
    obtain ⟨-, hname, hhead⟩ := Row.mk.inj hrow
    obtain ⟨hv, hmore⟩ := rowsBelow_append_inj v hhead (endsBlock_memberRows hrest ms)
      (endsBlock_memberRows hrest' ms') hrows
    obtain ⟨hms, hend⟩ := memberRows_append_inj ms hrest hrest' hmore
    rw [shownMembers, shownMembers, hv, hms, String.toList_injective (Option.some.inj hname)]
    exact ⟨rfl, hend⟩

theorem itemRows_append_inj (vs : List Value) {vs' : List Value} {level : Nat}
    {rest rest' : List Row} (hrest : EndsBlock level rest) (hrest' : EndsBlock level rest')
    (h : itemRows level vs ++ rest = itemRows level vs' ++ rest') :
    shownItems vs = shownItems vs' ∧ rest = rest' := by
  match vs, vs' with
  | [], [] => exact ⟨rfl, h⟩
  | [], v' :: vs' => exact absurd h (hrest.ne rfl)
  | v :: vs, [] => exact absurd h.symm (hrest'.ne rfl)
  | v :: vs, v' :: vs' =>
    simp only [itemRows, List.cons_append, List.append_assoc] at h
    obtain ⟨hrow, hrows⟩ := List.cons.inj h
    obtain ⟨-, -, hhead⟩ := Row.mk.inj hrow
    obtain ⟨hv, hmore⟩ := rowsBelow_append_inj v hhead (endsBlock_itemRows hrest vs)
      (endsBlock_itemRows hrest' vs') hrows
    obtain ⟨hvs, hend⟩ := itemRows_append_inj vs hrest hrest' hmore
    rw [shownItems, shownItems, hv, hvs]
    exact ⟨rfl, hend⟩

end

end WrapperGen.Console
