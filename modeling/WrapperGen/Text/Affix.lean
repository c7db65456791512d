/-!
# Affixes up to the case of ASCII letters

`dropHead? affix text` removes a head of `text` that spells `affix`, and `dropTail? affix text` a
tail. Two characters spell the same when they agree once ASCII capitals are lowered, so a
character outside ASCII spells only itself.

Main statements: `dropHead?_eq_some_iff` and `dropTail?_eq_some_iff` say that what is left is
exactly what stands beside a spelling of the affix, `EndsLike.sameSpelling` that a text has one
ending of each length, `dropTail?_append` that what the ends of text and affix have in common makes
no difference, and `sameSpelling_dropEnding_iff` what a text spells once an ending is off.
-/

namespace WrapperGen.Text

/-- Two texts spell the same when they agree up to the case of ASCII letters. -/
def SameSpelling (s t : List Char) : Prop := s.map Char.toLower = t.map Char.toLower

instance (s t : List Char) : Decidable (SameSpelling s t) :=
  inferInstanceAs (Decidable (s.map Char.toLower = t.map Char.toLower))

/-- What follows a head of the text that spells the affix. -/
def dropHead? : List Char → List Char → Option (List Char)
  | [], text => some text
  | _ :: _, [] => none
  | a :: affix, c :: text => if a.toLower = c.toLower then dropHead? affix text else none

/-- What precedes a tail of the text that spells the affix. -/
def dropTail? (affix text : List Char) : Option (List Char) :=
  (dropHead? affix.reverse text.reverse).map List.reverse

@[simp] theorem dropHead?_nil (text : List Char) : dropHead? [] text = some text := by
  cases text <;> rfl

theorem dropHead?_eq_some_iff {affix text rest : List Char} :
    dropHead? affix text = some rest ↔ ∃ head, SameSpelling head affix ∧ text = head ++ rest := by
  induction affix generalizing text with
  | nil => simp [SameSpelling, eq_comm]
  | cons a affix ih =>
    cases text with
    | nil =>
      simp only [dropHead?, reduceCtorEq, false_iff, not_exists, not_and]
      rintro head hs ht
      simp only [List.nil_eq, List.append_eq_nil_iff] at ht
      simp [SameSpelling, ht.1] at hs
    | cons c text =>
      simp only [dropHead?]
      split
      · next h =>
        rw [ih]
        constructor
        · rintro ⟨head, hs, rfl⟩
          refine ⟨c :: head, ?_, rfl⟩
          simp only [SameSpelling, List.map_cons] at hs ⊢
          rw [hs, h]
        · rintro ⟨head, hs, ht⟩
          cases head with
          | nil => simp [SameSpelling] at hs
          | cons d head =>
            simp only [List.cons_append, List.cons.injEq] at ht
            simp only [SameSpelling, List.map_cons, List.cons.injEq] at hs
            exact ⟨head, hs.2, ht.2⟩
      · next h =>
        simp only [reduceCtorEq, false_iff, not_exists, not_and]
        rintro head hs ht
        cases head with
        | nil => simp [SameSpelling] at hs
        | cons d head =>
          simp only [List.cons_append, List.cons.injEq] at ht
          simp only [SameSpelling, List.map_cons, List.cons.injEq] at hs
          exact h (by rw [← hs.1, ht.1])

theorem SameSpelling.reverse {s t : List Char} (h : SameSpelling s t) :
    SameSpelling s.reverse t.reverse := by
  simp only [SameSpelling, List.map_reverse] at h ⊢
  rw [h]

theorem dropTail?_eq_some_iff {affix text stem : List Char} :
    dropTail? affix text = some stem ↔ ∃ tail, SameSpelling tail affix ∧ text = stem ++ tail := by
  simp only [dropTail?, Option.map_eq_some_iff, dropHead?_eq_some_iff]
  constructor
  · rintro ⟨rest, ⟨head, hs, ht⟩, rfl⟩
    exact ⟨head.reverse, by simpa using hs.reverse, by simpa using congrArg List.reverse ht⟩
  · rintro ⟨tail, hs, rfl⟩
    exact ⟨stem.reverse, ⟨tail.reverse, hs.reverse, by simp⟩, by simp⟩

/-! ## Endings -/

/-- The text ends in a spelling of the affix. -/
def EndsLike (affix text : List Char) : Prop :=
  ∃ stem tail, SameSpelling tail affix ∧ text = stem ++ tail

theorem isSome_dropTail?_iff {affix text : List Char} :
    (dropTail? affix text).isSome = true ↔ EndsLike affix text := by
  rw [Option.isSome_iff_exists]
  exact exists_congr fun _ => dropTail?_eq_some_iff

theorem dropTail?_eq_none_iff {affix text : List Char} :
    dropTail? affix text = none ↔ ¬ EndsLike affix text := by
  rw [← isSome_dropTail?_iff, Option.not_isSome_iff_eq_none]

instance (affix text : List Char) : Decidable (EndsLike affix text) :=
  decidable_of_iff _ isSome_dropTail?_iff

theorem SameSpelling.length_eq {s t : List Char} (h : SameSpelling s t) : s.length = t.length := by
  simpa using congrArg List.length h

theorem EndsLike.length_le {affix text : List Char} (h : EndsLike affix text) :
    affix.length ≤ text.length := by
  obtain ⟨stem, tail, hspell, rfl⟩ := h
  rw [List.length_append, hspell.length_eq]
  exact Nat.le_add_left ..

/-- A text has one ending of each length. -/
theorem EndsLike.sameSpelling {affix affix' text : List Char} (h : EndsLike affix text)
    (h' : EndsLike affix' text) (hlength : affix.length = affix'.length) :
    SameSpelling affix affix' := by
  obtain ⟨stem, tail, hspell, rfl⟩ := h
  obtain ⟨stem', tail', hspell', htext⟩ := h'
  have htails : tail.length = tail'.length := by
    rw [hspell.length_eq, hspell'.length_eq, hlength]
  obtain ⟨-, rfl⟩ := List.append_inj' htext htails
  exact hspell.symm.trans hspell'

theorem SameSpelling.exists_append {text affix ending : List Char}
    (h : SameSpelling text (affix ++ ending)) :
    ∃ front back, SameSpelling front affix ∧ SameSpelling back ending ∧ text = front ++ back := by
  unfold SameSpelling at h
  rw [List.map_append] at h
  obtain ⟨front, back, rfl, hfront, hback⟩ := List.map_eq_append_iff.1 h
  exact ⟨front, back, hfront, hback, rfl⟩

theorem EndsLike.of_append {affix ending text : List Char} (h : EndsLike (affix ++ ending) text) :
    EndsLike ending text := by
  obtain ⟨stem, tail, hspell, rfl⟩ := h
  obtain ⟨front, back, -, hback, rfl⟩ := hspell.exists_append
  exact ⟨stem ++ front, back, hback, (List.append_assoc ..).symm⟩

/-- What the ends of text and affix have in common can be left out. -/
theorem dropTail?_append {ending tail : List Char} (h : SameSpelling tail ending)
    (affix text : List Char) :
    dropTail? (affix ++ ending) (text ++ tail) = dropTail? affix text := by
  refine Option.ext fun stem => ?_
  rw [dropTail?_eq_some_iff, dropTail?_eq_some_iff]
  constructor
  · rintro ⟨whole, hspell, htext⟩
    obtain ⟨front, back, hfront, hback, rfl⟩ := hspell.exists_append
    rw [← List.append_assoc] at htext
    have hlength : tail.length = back.length := by rw [h.length_eq, hback.length_eq]
    exact ⟨front, hfront, (List.append_inj' htext hlength).1⟩
  · rintro ⟨front, hfront, rfl⟩
    refine ⟨front ++ tail, ?_, List.append_assoc ..⟩
    unfold SameSpelling at *
    rw [List.map_append, List.map_append, hfront, h]

theorem endsLike_append_iff {ending tail : List Char} (h : SameSpelling tail ending)
    (affix text : List Char) : EndsLike (affix ++ ending) (text ++ tail) ↔ EndsLike affix text := by
  rw [← isSome_dropTail?_iff, dropTail?_append h, isSome_dropTail?_iff]

/-- Texts that end differently end in no affix of the other ending. -/
theorem not_endsLike_append {ending tail : List Char} (hne : ¬ SameSpelling tail ending)
    (hlength : tail.length = ending.length) (affix text : List Char) :
    ¬ EndsLike (affix ++ ending) (text ++ tail) := by
  intro h
  have htail : EndsLike tail (text ++ tail) := ⟨text, tail, rfl, rfl⟩
  exact hne (htail.sameSpelling h.of_append hlength)

/-! ## Taking an ending off -/

/-- The text without a tail that spells the affix. -/
def dropEnding (affix text : List Char) : List Char := (dropTail? affix text).getD text

theorem dropEnding_append {affix tail : List Char} (h : SameSpelling tail affix)
    (text : List Char) : dropEnding affix (text ++ tail) = text := by
  rw [dropEnding, dropTail?_eq_some_iff.2 ⟨tail, h, rfl⟩, Option.getD_some]

theorem dropEnding_of_not_endsLike {affix text : List Char} (h : ¬ EndsLike affix text) :
    dropEnding affix text = text := by
  rw [dropEnding, dropTail?_eq_none_iff.2 h, Option.getD_none]

theorem dropEnding_isPrefix (affix text : List Char) : dropEnding affix text <+: text := by
  by_cases h : EndsLike affix text
  · obtain ⟨stem, tail, hspell, rfl⟩ := h
    rw [dropEnding_append hspell]
    exact List.prefix_append _ _
  · exact ⟨[], (List.append_nil _).trans (dropEnding_of_not_endsLike h)⟩

theorem sameSpelling_nil_iff {text : List Char} : SameSpelling text [] ↔ text = [] := by
  simp [SameSpelling]

/-- What is left spells a word shorter than the ending if the text spells that word, with the ending
or without. -/
theorem sameSpelling_dropEnding_iff {affix word : List Char} (hshort : word.length < affix.length)
    (text : List Char) :
    SameSpelling (dropEnding affix text) word ↔
      SameSpelling text (word ++ affix) ∨ SameSpelling text word := by
  by_cases h : EndsLike affix text
  · have hlong := h.length_le
    obtain ⟨stem, tail, hspell, rfl⟩ := h
    rw [dropEnding_append hspell]
    constructor
    · intro hstem
      left
      unfold SameSpelling at *
      rw [List.map_append, List.map_append, hstem, hspell]
    · rintro (hwhole | hword)
      · obtain ⟨front, back, hfront, hback, heq⟩ := hwhole.exists_append
        have hlength : tail.length = back.length := by rw [hspell.length_eq, hback.length_eq]
        rw [(List.append_inj' heq hlength).1]
        exact hfront
      · rw [hword.length_eq] at hlong
        omega
  · rw [dropEnding_of_not_endsLike h]
    constructor
    · exact .inr
    · rintro (hwhole | hword)
      · obtain ⟨front, back, -, hback, rfl⟩ := hwhole.exists_append
        exact absurd ⟨front, back, hback, rfl⟩ h
      · exact hword

end WrapperGen.Text
