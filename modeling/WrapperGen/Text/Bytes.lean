import WrapperGen.Text.Affix
/-!
# Texts and bytes

A character takes one to four bytes in UTF-8, so a byte offset may fall inside a character or beyond
the text. `cutAt? n text` cuts a text after `n` bytes where it can be cut, and
`stripHead? affix text` removes a head that has as many bytes as the affix and spells it.

Main statements: `cutAt?_eq_some_iff`, and `stripHead?_eq_dropHead?`, which says that counting bytes
or characters makes no difference to heads.
-/

namespace WrapperGen.Text

/-- How many bytes a text takes. -/
def byteCount : List Char → Nat
  | [] => 0
  | c :: text => c.utf8Size + byteCount text

/-- The parts of a text before and after a byte offset, if no character lies across it. -/
def cutAt? : (offset : Nat) → List Char → Option (List Char × List Char)
  | 0, text => some ([], text)
  | _ + 1, [] => none
  | offset + 1, c :: text =>
    if c.utf8Size ≤ offset + 1 then
      (cutAt? (offset + 1 - c.utf8Size) text).map fun (head, rest) => (c :: head, rest)
    else none

theorem byteCount_eq_zero_iff {text : List Char} : byteCount text = 0 ↔ text = [] := by
  cases text with
  | nil => simp [byteCount]
  | cons c text =>
    have hpos := c.utf8Size_pos
    simp only [byteCount, reduceCtorEq, iff_false]
    omega

theorem cutAt?_zero_eq_some_iff {text head rest : List Char} :
    cutAt? 0 text = some (head, rest) ↔ text = head ++ rest ∧ byteCount head = 0 := by
  rw [byteCount_eq_zero_iff, cutAt?]
  constructor
  · intro h
    cases h
    exact ⟨rfl, rfl⟩
  · rintro ⟨rfl, rfl⟩
    rfl

/-- A cut is a way to write the text as two parts, of which the first has the right size. -/
theorem cutAt?_eq_some_iff {offset : Nat} {text head rest : List Char} :
    cutAt? offset text = some (head, rest) ↔ text = head ++ rest ∧ byteCount head = offset := by
  induction text generalizing offset head with
  | nil =>
    cases offset with
    | zero => exact cutAt?_zero_eq_some_iff
    | succ offset =>
      simp only [cutAt?, reduceCtorEq, false_iff, not_and]
      intro h
      rw [(List.append_eq_nil_iff.1 h.symm).1]
      simp [byteCount]
  | cons c text ih =>
    cases offset with
    | zero => exact cutAt?_zero_eq_some_iff
    | succ offset =>
      have hpos := c.utf8Size_pos
      rw [cutAt?]
      split
      · next hle =>
        rw [Option.map_eq_some_iff]
        constructor
        · rintro ⟨⟨head', rest'⟩, hcut, h⟩
          cases h
          obtain ⟨rfl, hcount⟩ := ih.1 hcut
          refine ⟨rfl, ?_⟩
          simp only [byteCount]
          omega
        · rintro ⟨htext, hcount⟩
          cases head with
          | nil => simp [byteCount] at hcount
          | cons d head =>
            simp only [List.cons_append, List.cons.injEq] at htext
            obtain ⟨rfl, rfl⟩ := htext
            simp only [byteCount] at hcount
            exact ⟨(head, rest), ih.2 ⟨rfl, by omega⟩, rfl⟩
      · next hlt =>
        simp only [reduceCtorEq, false_iff, not_and]
        intro htext hcount
        cases head with
        | nil => simp [byteCount] at hcount
        | cons d head =>
          simp only [List.cons_append, List.cons.injEq] at htext
          simp only [byteCount, ← htext.1] at hcount
          omega

/-! ## Heads -/

/-- What follows a head of the text that has as many bytes as the affix and spells it. -/
def stripHead? (affix text : List Char) : Option (List Char) :=
  (cutAt? (byteCount affix) text).bind fun (head, rest) =>
    if SameSpelling head affix then some rest else none

/-- Lowering an ASCII letter keeps its size. -/
theorem utf8Size_toLower (c : Char) : c.toLower.utf8Size = c.utf8Size := by
  unfold Char.toLower
  split
  · simp only [Char.utf8Size]
    grind
  · rfl

theorem SameSpelling.byteCount_eq {s t : List Char} (h : SameSpelling s t) :
    byteCount s = byteCount t := by
  have hlower : ∀ u : List Char, byteCount (u.map Char.toLower) = byteCount u := by
    intro u
    induction u with
    | nil => rfl
    | cons c u ih => simp only [List.map_cons, byteCount, utf8Size_toLower, ih]
  rw [← hlower s, ← hlower t, h]

/-- Heads can be found by their bytes. -/
theorem stripHead?_eq_dropHead? (affix text : List Char) :
    stripHead? affix text = dropHead? affix text := by
  refine Option.ext fun rest => ?_
  rw [dropHead?_eq_some_iff, stripHead?, Option.bind_eq_some_iff]
  constructor
  · rintro ⟨⟨head, rest'⟩, hcut, h⟩
    simp only at h
    split at h
    · next hspell =>
      cases h
      exact ⟨head, hspell, (cutAt?_eq_some_iff.1 hcut).1⟩
    · cases h
  · rintro ⟨head, hspell, htext⟩
    exact ⟨(head, rest), cutAt?_eq_some_iff.2 ⟨htext, hspell.byteCount_eq⟩, if_pos hspell⟩

end WrapperGen.Text
