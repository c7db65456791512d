import WrapperGen.Data.Results
import WrapperGen.Json.Reader
import WrapperGen.Json.Writer
/-!
# Reading back what was written

1. A token other than a number ends where its text ends, whatever follows (`Token.read?_chars`), so
   a row of such tokens is read back from its text (`Token.lex?_flatMap_chars`).
2. The tokens of a value lead the reader from the place where a value has to follow to the place
   where that value was read, whatever frames are open (`Reader.run?_tokens`, by induction on the
   value; an array or object goes on item by item, with the items read so far in its frame).
3. So a value without numbers is read back from its compact text (`Value.read?_compact`).
-/

namespace WrapperGen.Json

/-! ## Strings -/

namespace Token

theorem hexValue?_hexDigit {n : Nat} (h : n < 16) : hexValue? (hexDigit n) = some n := by
  revert n
  decide

/-- The escape of a control character writes its code. -/
theorem hex4?_control {n : Nat} (h : n < 0x20) :
    hex4? '0' '0' (hexDigit (n / 16)) (hexDigit (n % 16)) = some n := by
  have hzero : hexValue? '0' = some 0 := by decide
  have hhigh := hexValue?_hexDigit (n := n / 16) (by omega)
  have hlow := hexValue?_hexDigit (n := n % 16) (by omega)
  have hcode : (0 * 16 + n / 16) * 16 + n % 16 = n := by omega
  simp only [hex4?, hzero, hhigh, hlow, Option.bind_eq_bind, Option.bind_some, Option.pure_def,
    hcode]

theorem charOfUnit?_control {c : Char} (h : c.toNat < 0x20) : charOfUnit? c.toNat = some c := by
  unfold charOfUnit?
  rw [if_neg (by omega), Char.ofNat_toNat]

theorem readString?_letter {x c : Char} (hx : x ≠ 'u') (h : unescape? x = some c)
    (done rest : List Char) :
    readString? (some done) ('\\' :: x :: rest) = readString? (some (c :: done)) rest := by
  simp [readString?, hx, h, push]

/-- An escaped character is read as itself. -/
theorem readString?_escapeChar (c : Char) (done rest : List Char) :
    readString? (some done) (escapeChar c ++ rest) = readString? (some (c :: done)) rest := by
  unfold escapeChar
  split
  · next h => subst h; exact readString?_letter (by decide) (by decide) done rest
  split
  · next h => subst h; exact readString?_letter (by decide) (by decide) done rest
  split
  · next h => subst h; exact readString?_letter (by decide) (by decide) done rest
  split
  · next h => subst h; exact readString?_letter (by decide) (by decide) done rest
  split
  · next h => subst h; exact readString?_letter (by decide) (by decide) done rest
  split
  · next h => subst h; exact readString?_letter (by decide) (by decide) done rest
  split
  · next h => subst h; exact readString?_letter (by decide) (by decide) done rest
  split
  · next hcontrol =>
    -- the one escape that is read through its code, and not through a letter
    simp [readString?, hex4?_control hcontrol, charOfUnit?_control hcontrol, push]
  · next _ hslash _ _ _ _ _ hcontrol => simp [readString?, hslash, hcontrol, push]

theorem readString?_flatMap_escapeChar (text done rest : List Char) :
    readString? (some done) (text.flatMap escapeChar ++ '"' :: rest) =
      some (string (String.ofList (done.reverse ++ text)), rest) := by
  induction text generalizing done with
  | nil => simp [readString?, ofRead]
  | cons c text ih =>
    rw [List.flatMap_cons, List.append_assoc, readString?_escapeChar, ih, List.reverse_cons,
      List.append_assoc, List.singleton_append]

theorem read?_quote (s : String) (rest : List Char) :
    read? (quote s ++ rest) = some (string s, rest) := by
  have h := readString?_flatMap_escapeChar s.toList [] rest
  rw [List.reverse_nil, List.nil_append, String.ofList_toList] at h
  show readString? (some []) (s.toList.flatMap escapeChar ++ ['"'] ++ rest) = _
  rw [List.append_assoc]
  exact h

/-! ## Tokens -/

def isNumber : Token → Bool
  | number _ => true
  | _ => false

/-- A token other than a number ends where its text ends. -/
theorem read?_chars {t : Token} (h : t.isNumber = false) (rest : List Char) :
    read? (t.chars ++ rest) = some (t, rest) := by
  cases t with
  | string s => exact read?_quote s rest
  | bool b => cases b <;> rfl
  | number n => cases h
  | _ => rfl

theorem exists_chars_eq_cons {t : Token} (h : t.isNumber = false) :
    ∃ c rest, t.chars = c :: rest ∧ isBlank c = false := by
  cases t with
  | bool b => cases b <;> exact ⟨_, _, rfl, by decide⟩
  | number n => cases h
  | _ => exact ⟨_, _, rfl, by decide⟩

theorem lexFrom?_flatMap_chars {ts : List Token} (h : ∀ t ∈ ts, t.isNumber = false) {fuel : Nat}
    (hfuel : ts.length < fuel) (done : List Token) :
    lexFrom? fuel done (ts.flatMap chars) = some (done.reverse ++ ts) := by
  -- a token takes one unit of fuel, so there is always more fuel than tokens
  induction ts generalizing fuel done with
  | nil =>
    obtain ⟨fuel, rfl⟩ := Nat.exists_eq_add_of_lt hfuel
    simp [lexFrom?]
  | cons t ts ih =>
    rw [List.forall_mem_cons] at h
    obtain ⟨c, more, hchars, hblank⟩ := exists_chars_eq_cons h.1
    have hread := read?_chars h.1 (ts.flatMap chars)
    rw [hchars, List.cons_append] at hread
    cases fuel with
    | zero => cases hfuel
    | succ fuel =>
      rw [List.length_cons] at hfuel
      rw [List.flatMap_cons, hchars, List.cons_append, lexFrom?, List.dropWhile_cons_of_neg
        (by simp [hblank])]
      simp only [hread]
      rw [ih h.2 (by omega), List.reverse_cons, List.append_assoc, List.singleton_append]

theorem length_le_length_flatMap_chars {ts : List Token} (h : ∀ t ∈ ts, t.isNumber = false) :
    ts.length ≤ (ts.flatMap chars).length := by
  induction ts with
  | nil => exact Nat.le_refl 0
  | cons t ts ih =>
    rw [List.forall_mem_cons] at h
    obtain ⟨c, more, hchars, -⟩ := exists_chars_eq_cons h.1
    have hrest := ih h.2
    rw [List.flatMap_cons, hchars, List.length_append, List.length_cons, List.length_cons]
    omega

/-- Tokens other than numbers are read back from their text. -/
theorem lex?_flatMap_chars {ts : List Token} (h : ∀ t ∈ ts, t.isNumber = false) :
    lex? (ts.flatMap chars) = some ts := by
  have hlength := length_le_length_flatMap_chars h
  unfold lex?
  rw [lexFrom?_flatMap_chars h (by omega), List.reverse_nil, List.nil_append]

end Token

/-! ## Values -/

/-- The member as the reader keeps it. -/
def ReadMember.ofMember (m : String × Value) : ReadMember := (some m.1, m.2)

theorem Value.ofRead_map_ofMember (done : List (String × Value)) :
    ofRead (done.map ReadMember.ofMember) = .object done.reverse := by
  have hmembers : (done.reverse.map ReadMember.ofMember).mapM ReadMember.toMember? =
      some done.reverse := mapM_map_eq_some fun _ _ => rfl
  unfold ofRead
  rw [← List.map_reverse, hmembers]

namespace Reader

/-- An array that was just opened goes on with the first token of an item. -/
theorem run?_firstItem (v : Value) (frames : List Frame) (rest : List Token) :
    run? ⟨.firstItem, frames⟩ (v.tokens ++ rest) =
      run? ⟨.value, .array [] :: frames⟩ (v.tokens ++ rest) := by
  cases v with
  | array items => cases items <;> rfl
  | object members => cases members <;> rfl
  | _ => rfl

mutual

/-- The tokens of a value are read as that value. -/
theorem run?_tokens (v : Value) (frames : List Frame) (rest : List Token) :
    run? ⟨.value, frames⟩ (v.tokens ++ rest) = run? ⟨.after v, frames⟩ rest := by
  match v with
  | .null => rfl
  | .bool _ => rfl
  | .number _ => rfl
  | .string _ => rfl
  | .textless => rfl
  | .array [] => rfl
  | .array (v :: vs) =>
    -- the bracket opens an array whose first item is read like any value; the others are one walk
    show run? ⟨.firstItem, frames⟩ (v.tokens ++ Value.moreItems vs ++ [.closeArray] ++ rest) = _
    rw [List.append_assoc, List.append_assoc, run?_firstItem, run?_tokens v]
    exact run?_moreItems vs [] v frames rest
  | .object [] => rfl
  | .object ((n, v) :: ms) =>
    -- the bracket, the name and the colon come first
    show run? ⟨.value, .object [] (some n) :: frames⟩
      (v.tokens ++ Value.moreMembers ms ++ [.closeObject] ++ rest) = _
    rw [List.append_assoc, List.append_assoc, run?_tokens v]
    exact run?_moreMembers ms [] n v frames rest

/-- The items after one that was read are read into its array. -/
theorem run?_moreItems (vs done : List Value) (v : Value) (frames : List Frame)
    (rest : List Token) :
    run? ⟨.after v, .array done :: frames⟩ (Value.moreItems vs ++ .closeArray :: rest) =
      run? ⟨.after (.array (done.reverse ++ v :: vs)), frames⟩ rest := by
  match vs with
  | [] =>
    show run? ⟨.after (.array (v :: done).reverse), frames⟩ rest = _
    rw [List.reverse_cons]
  | w :: ws =>
    show run? ⟨.value, .array (v :: done) :: frames⟩
      (w.tokens ++ Value.moreItems ws ++ .closeArray :: rest) = _
    rw [List.append_assoc, run?_tokens w, run?_moreItems ws (v :: done) w, List.reverse_cons,
      List.append_assoc, List.singleton_append]

/-- The members after one that was read are read into its object. -/
theorem run?_moreMembers (ms done : List (String × Value)) (n : String) (v : Value)
    (frames : List Frame) (rest : List Token) :
    run? ⟨.after v, .object (done.map ReadMember.ofMember) (some n) :: frames⟩
        (Value.moreMembers ms ++ .closeObject :: rest) =
      run? ⟨.after (.object (done.reverse ++ (n, v) :: ms)), frames⟩ rest := by
  match ms with
  | [] =>
    -- every name that was read has a text, so the members make an object
    show run? ⟨.after (.ofRead (((n, v) :: done).map ReadMember.ofMember)), frames⟩ rest = _
    rw [Value.ofRead_map_ofMember, List.reverse_cons]
  | (m, w) :: ms =>
    show run? ⟨.value, .object (((n, v) :: done).map ReadMember.ofMember) (some m) :: frames⟩
      (w.tokens ++ Value.moreMembers ms ++ .closeObject :: rest) = _
    rw [List.append_assoc, run?_tokens w, run?_moreMembers ms ((n, v) :: done) m w,
      List.reverse_cons, List.append_assoc, List.singleton_append]

end

end Reader

/-- A value is read back from its tokens. -/
theorem Value.ofTokens?_tokens (v : Value) : ofTokens? v.tokens = some v := by
  have h := Reader.run?_tokens v [] []
  rw [List.append_nil] at h
  unfold ofTokens? Reader.start
  rw [h]
  rfl

namespace Value

/-- No number occurs in the value, and all of it has a text. -/
inductive IsPlain : Value → Prop
  | null : IsPlain null
  | bool (b : Bool) : IsPlain (bool b)
  | string (s : String) : IsPlain (string s)
  | array {items : List Value} (h : ∀ v ∈ items, IsPlain v) : IsPlain (array items)
  | object {members : List (String × Value)} (h : ∀ m ∈ members, IsPlain m.2) :
      IsPlain (object members)

theorem mem_moreItems {t : Token} {vs : List Value} (h : t ∈ moreItems vs) :
    t = .comma ∨ ∃ v ∈ vs, t ∈ v.tokens := by
  induction vs with
  | nil => cases h
  | cons v vs ih =>
    simp only [moreItems, List.cons_append, List.mem_cons, List.mem_append] at h
    obtain rfl | h | h := h
    · exact .inl rfl
    · exact .inr ⟨v, List.mem_cons_self, h⟩
    · exact (ih h).imp_right fun ⟨w, hw, hmem⟩ => ⟨w, List.mem_cons_of_mem v hw, hmem⟩

theorem mem_moreMembers {t : Token} {ms : List (String × Value)} (h : t ∈ moreMembers ms) :
    t = .comma ∨ (∃ n, t = .string n) ∨ t = .colon ∨ ∃ m ∈ ms, t ∈ m.2.tokens := by
  induction ms with
  | nil => cases h
  | cons m ms ih =>
    obtain ⟨n, v⟩ := m
    simp only [moreMembers, List.cons_append, List.mem_cons, List.mem_append] at h
    obtain rfl | rfl | rfl | h | h := h
    · exact .inl rfl
    · exact .inr (.inl ⟨n, rfl⟩)
    · exact .inr (.inr (.inl rfl))
    · exact .inr (.inr (.inr ⟨(n, v), List.mem_cons_self, h⟩))
    · exact (ih h).imp_right (.imp_right (.imp_right
        fun ⟨m, hm, hmem⟩ => ⟨m, List.mem_cons_of_mem _ hm, hmem⟩))

/-- No token of a plain value is a number. -/
theorem IsPlain.isNumber_eq_false {v : Value} (h : v.IsPlain) :
    ∀ t ∈ v.tokens, t.isNumber = false := by
  induction h with
  | null => decide
  | bool b => cases b <;> decide
  | string s => exact List.forall_mem_singleton.2 rfl
  | @array items _ ih =>
    intro t ht
    cases items with
    | nil => revert t; decide
    | cons v vs =>
      simp only [tokens, List.cons_append, List.mem_cons, List.mem_append, List.not_mem_nil,
        or_false] at ht
      rw [List.forall_mem_cons] at ih
      obtain rfl | (ht | ht) | rfl := ht
      · rfl
      · exact ih.1 t ht
      · obtain rfl | ⟨w, hw, ht⟩ := mem_moreItems ht
        · rfl
        · exact ih.2 w hw t ht
      · rfl
  | @object members _ ih =>
    intro t ht
    cases members with
    | nil => revert t; decide
    | cons m ms =>
      obtain ⟨n, v⟩ := m
      simp only [tokens, List.cons_append, List.mem_cons, List.mem_append, List.not_mem_nil,
        or_false] at ht
      rw [List.forall_mem_cons] at ih
      obtain rfl | rfl | rfl | (ht | ht) | rfl := ht
      · rfl
      · rfl
      · rfl
      · exact ih.1 t ht
      · obtain rfl | ⟨n, rfl⟩ | rfl | ⟨m, hm, ht⟩ := mem_moreMembers ht
        · rfl
        · rfl
        · rfl
        · exact ih.2 m hm t ht
      · rfl

/-- **A plain value is read back from its compact text.** -/
theorem read?_compact {v : Value} (h : v.IsPlain) : read? v.compact = some v := by
  unfold read? compact
  rw [String.toList_ofList, Token.lex?_flatMap_chars h.isNumber_eq_false, Option.bind_some,
    ofTokens?_tokens]

end Value

end WrapperGen.Json
