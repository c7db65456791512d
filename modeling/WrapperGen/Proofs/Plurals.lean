import WrapperGen.Proofs.DecoratedNames
/-!
# Nouns of plurals

The singular of a word goes by its ending, and most rules are told from each other by a letter or
two.

1. A word that does not end in `s` is its own singular, and one that ends in `ss` loses a letter
   (`singularChars_of_not_endsLike`, `singularChars_of_double_s`).
2. Whatever the rules do, they leave something of a word, and add nothing but a `y`
   (`singularOf_singularChars`).
3. A word with `es` added loses it again after `ss`, `sh`, `ch` and `x`, and one with `ies` added is
   taken for the plural of one in `y` (`singularChars_append_es`, `singularChars_append_ies`).
4. So a plural has the noun of its singular, unless it is one in `sses`
   (`plural_noun_unless_double_s`, `double_s_loses_a_letter`).
-/

namespace WrapperGen.Noun

open Text

/-- What words end in whose plural adds `es`. -/
def pluralStems : List (List Char) := [['s', 's'], ['s', 'h'], ['c', 'h'], ['x']]

theorem esEndings_eq : esEndings = pluralStems.map (· ++ ['e', 's']) := rfl

/-! ## Last letters -/

theorem exists_last_of_mem_pluralStems {stem word : List Char} (hstem : stem ∈ pluralStems)
    (h : EndsLike stem word) :
    ∃ last, EndsLike [last] word ∧ (last = 's' ∧ stem = ['s', 's'] ∨ last = 'h' ∨ last = 'x') := by
  simp only [pluralStems, List.mem_cons, List.not_mem_nil, or_false] at hstem
  rcases hstem with rfl | rfl | rfl | rfl
  · exact ⟨'s', EndsLike.of_append (show EndsLike (['s'] ++ ['s']) word from h), .inl ⟨rfl, rfl⟩⟩
  · exact ⟨'h', EndsLike.of_append (show EndsLike (['s'] ++ ['h']) word from h), .inr (.inl rfl)⟩
  · exact ⟨'h', EndsLike.of_append (show EndsLike (['c'] ++ ['h']) word from h), .inr (.inl rfl)⟩
  · exact ⟨'x', h, .inr (.inr rfl)⟩

/-- Of the stems only `ss` ends in `s`. -/
theorem not_endsLike_of_mem_pluralStems {stem word : List Char} (hstem : stem ∈ pluralStems)
    (h : EndsLike stem word) {letter : Char} (hletter : letter.toLower ∉ ['h', 'x'])
    (hs : stem = ['s', 's'] → letter.toLower ≠ 's') : ¬ EndsLike [letter] word := by
  obtain ⟨last, hlast, hcases⟩ := exists_last_of_mem_pluralStems hstem h
  intro hends
  have hsame : last.toLower = letter.toLower := (List.cons.inj (hlast.sameSpelling hends rfl)).1
  rw [← hsame] at hletter hs
  rcases hcases with ⟨rfl, hdouble⟩ | rfl | rfl
  · exact hs hdouble rfl
  · exact hletter (by decide)
  · exact hletter (by decide)

/-- Responses, results and lists end in `e` or `t`. -/
theorem stripDecorations_of_not_endsLike {word : List Char} (he : ¬ EndsLike ['e'] word)
    (ht : ¬ EndsLike ['t'] word) : stripDecorations word = word := by
  have hresponse : ¬ EndsLike responseWord word := fun h =>
    he (EndsLike.of_append
      (show EndsLike (['R', 'e', 's', 'p', 'o', 'n', 's'] ++ ['e']) word from h))
  have hresult : ¬ EndsLike resultWord word := fun h =>
    ht (EndsLike.of_append (show EndsLike (['R', 'e', 's', 'u', 'l'] ++ ['t']) word from h))
  have hlist : ¬ listWord <:+ word := by
    rintro ⟨stem, rfl⟩
    exact ht ⟨stem ++ ['L', 'i', 's'], ['t'], rfl, by simp [listWord]⟩
  rw [stripDecorations_eq, dropEnding_of_not_endsLike hresponse, dropEnding_of_not_endsLike hresult,
    dropListTail_of_not_suffix hlist]

theorem chars_of_not_endsLike {word : List Char} (hmark : arityMark ∉ word)
    (he : ¬ EndsLike ['e'] word) (ht : ¬ EndsLike ['t'] word) :
    chars word = capitalize (singularChars word) := by
  rw [chars, takeWhile_of_unmarked hmark, stripDecorations_of_not_endsLike he ht]

/-! ## Singulars -/

theorem any_esEndings_eq (word : List Char) :
    (esEndings.any fun ending => (dropTail? ending word).isSome) =
      pluralStems.any fun stem => decide (EndsLike (stem ++ ['e', 's']) word) := by
  rw [esEndings_eq, List.any_map]
  refine List.any_congr rfl fun stem => ?_
  rw [Function.comp_apply, Bool.eq_iff_iff, isSome_dropTail?_iff, decide_eq_true_iff]

theorem any_esEndings_of_not_endsLike {word : List Char} (h : ¬ EndsLike ['e', 's'] word) :
    (esEndings.any fun ending => (dropTail? ending word).isSome) = false := by
  rw [any_esEndings_eq, List.any_eq_false]
  intro stem _ hends
  exact h (EndsLike.of_append (of_decide_eq_true hends))

/-- Without `es` at the end only the last rule is left. -/
theorem singularChars_of_not_es {word : List Char} (h : ¬ EndsLike ['e', 's'] word) :
    singularChars word = ((dropTail? ['s'] word).filter (! ·.isEmpty)).getD word := by
  have hies : dropTail? ['i', 'e', 's'] word = none := by
    rw [dropTail?_eq_none_iff]
    intro hends
    exact h (EndsLike.of_append (show EndsLike (['i'] ++ ['e', 's']) word from hends))
  simp only [singularChars, hies, any_esEndings_of_not_endsLike h, Bool.false_eq_true, if_false]
  match dropTail? ['s'] word with
  | none => rfl
  | some [] => rfl
  | some (_ :: _) => rfl

theorem singularChars_of_not_endsLike {word : List Char} (h : ¬ EndsLike ['s'] word) :
    singularChars word = word := by
  have hes : ¬ EndsLike ['e', 's'] word := fun hends =>
    h (EndsLike.of_append (show EndsLike (['e'] ++ ['s']) word from hends))
  rw [singularChars_of_not_es hes, dropTail?_eq_none_iff.2 h, Option.filter_none, Option.getD_none]

theorem singularChars_of_double_s {word : List Char} (h : EndsLike ['s', 's'] word) :
    singularChars word = word.dropLast := by
  have hes : ¬ EndsLike ['e', 's'] word := fun hends =>
    absurd (h.sameSpelling hends rfl) (by decide)
  rw [singularChars_of_not_es hes]
  obtain ⟨stem, tail, hspell, rfl⟩ := h
  match tail, hspell.length_eq with
  | [c, d], _ =>
    have hd : SameSpelling [d] ['s'] := (List.cons.inj hspell).2
    have hs : dropTail? ['s'] (stem ++ [c, d]) = some (stem ++ [c]) :=
      dropTail?_eq_some_iff.2 ⟨[d], hd, by simp⟩
    have hlast : (stem ++ [c, d]).dropLast = stem ++ [c] := by simp
    rw [hs, hlast]
    cases stem <;> rfl

theorem singularChars_append_es {stem word : List Char} (hstem : stem ∈ pluralStems)
    (h : EndsLike stem word) : singularChars (word ++ ['e', 's']) = word := by
  have hies : dropTail? ['i', 'e', 's'] (word ++ ['e', 's']) = none := by
    rw [dropTail?_eq_none_iff]
    intro hends
    have hi : EndsLike ['i'] word :=
      (endsLike_append_iff rfl ['i'] word).1 hends
    exact not_endsLike_of_mem_pluralStems hstem h (by decide) (fun _ => by decide) hi
  have hes :
      (esEndings.any fun ending => (dropTail? ending (word ++ ['e', 's'])).isSome) = true := by
    rw [any_esEndings_eq, List.any_eq_true]
    exact ⟨stem, hstem, decide_eq_true ((endsLike_append_iff rfl stem word).2 h)⟩
  simp only [singularChars, hies, hes, if_true]
  simp

theorem singularChars_append_ies (word : List Char) :
    singularChars (word ++ ['i', 'e', 's']) = word ++ ['y'] := by
  have hies : dropTail? ['i', 'e', 's'] (word ++ ['i', 'e', 's']) = some word :=
    dropTail?_eq_some_iff.2 ⟨_, rfl, rfl⟩
  simp only [singularChars, hies]

/-- What the rules make of words: `ies` becomes `y`, a tail `es` or `s` goes if anything stands
before it, and other words stay. -/
inductive SingularOf : List Char → List Char → Prop where
  | ies {stem tail : List Char} (htail : SameSpelling tail ['i', 'e', 's']) :
      SingularOf (stem ++ tail) (stem ++ ['y'])
  | es {stem tail : List Char} (htail : SameSpelling tail ['e', 's']) (hstem : stem ≠ []) :
      SingularOf (stem ++ tail) stem
  | s {stem tail : List Char} (htail : SameSpelling tail ['s']) (hstem : stem ≠ []) :
      SingularOf (stem ++ tail) stem
  | itself {word : List Char} : SingularOf word word

theorem singularOf_dropLast_dropLast {stem word : List Char} (hstem : stem ∈ pluralStems)
    (h : EndsLike (stem ++ ['e', 's']) word) : SingularOf word word.dropLast.dropLast := by
  obtain ⟨front, tail, hspell, rfl⟩ := h
  obtain ⟨back, ending, hback, hending, rfl⟩ := hspell.exists_append
  have hne : front ++ back ≠ [] := by
    intro hnil
    rw [(List.append_eq_nil_iff.1 hnil).2] at hback
    have hnonempty : ∀ stem ∈ pluralStems, stem ≠ [] := by decide
    exact hnonempty stem hstem (sameSpelling_nil_iff.1 hback.symm)
  match ending, hending.length_eq with
  | [c, d], _ =>
    have hlast : (front ++ (back ++ [c, d])).dropLast.dropLast = front ++ back := by
      simp [← List.append_assoc]
    rw [hlast, ← List.append_assoc]
    exact .es hending hne

theorem singularOf_singularChars (word : List Char) : SingularOf word (singularChars word) := by
  unfold singularChars
  rw [any_esEndings_eq]
  split
  · next stem h =>
    obtain ⟨tail, hspell, rfl⟩ := dropTail?_eq_some_iff.1 h
    exact .ies hspell
  · split
    · next h =>
      obtain ⟨stem, hstem, hends⟩ := List.any_eq_true.1 h
      exact singularOf_dropLast_dropLast hstem (of_decide_eq_true hends)
    · split
      · next c stem h =>
        obtain ⟨tail, hspell, rfl⟩ := dropTail?_eq_some_iff.1 h
        exact .s hspell (List.cons_ne_nil c stem)
      · exact .itself

@[simp] theorem singularChars_eq_nil_iff {word : List Char} :
    singularChars word = [] ↔ word = [] := by
  constructor
  · intro h
    have hword := singularOf_singularChars word
    generalize singularChars word = singular at h hword
    cases hword with
    | ies htail => simp at h
    | es htail hstem => exact absurd h hstem
    | s htail hstem => exact absurd h hstem
    | itself => exact h
  · rintro rfl
    rfl

/-- Only a `y` may be new in a singular. -/
theorem mem_of_mem_singularChars {c : Char} {word : List Char} (h : c ∈ singularChars word) :
    c ∈ word ∨ c = 'y' := by
  have hword := singularOf_singularChars word
  generalize singularChars word = singular at h hword
  cases hword with
  | ies htail =>
    rcases List.mem_append.1 h with hstem | hy
    · exact .inl (List.mem_append_left _ hstem)
    · exact .inr (List.mem_singleton.1 hy)
  | es htail hstem => exact .inl (List.mem_append_left _ h)
  | s htail hstem => exact .inl (List.mem_append_left _ h)
  | itself => exact .inl h

/-! ## Nouns -/

theorem capitalize_ne_capitalize_dropLast {word : List Char} (h : 2 ≤ word.length) :
    capitalize word ≠ capitalize word.dropLast := by
  intro heq
  have hlength := congrArg List.length heq
  match word, h with
  | c :: d :: rest, _ =>
    simp only [capitalize, List.dropLast_cons_cons, List.length_append, List.length_cons,
      List.length_dropLast] at hlength
    omega

/-- The noun of a name is made of its singular, if nothing marks it as a response. -/
theorem ofName_of_not_endsLike {word : String} (hmark : arityMark ∉ word.toList)
    (he : ¬ EndsLike ['e'] word.toList) (ht : ¬ EndsLike ['t'] word.toList) :
    ofName word = String.ofList (capitalize (singularChars word.toList)) := by
  rw [ofName, chars_of_not_endsLike hmark he ht]

/-- A name that goes on in letters is marked where the name is. -/
theorem ofName_append {word tail : String} (last : Char) (hmark : arityMark ∉ word.toList)
    (htail : arityMark ∉ tail.toList) (hlast : EndsLike [last] tail.toList)
    (he : ¬ SameSpelling [last] ['e']) (ht : ¬ SameSpelling [last] ['t']) :
    ofName (word ++ tail) =
      String.ofList (capitalize (singularChars (word.toList ++ tail.toList))) := by
  have hends : EndsLike [last] (word ++ tail).toList := by
    obtain ⟨stem, ending, hspell, htext⟩ := hlast
    exact ⟨word.toList ++ stem, ending, hspell, by
      rw [String.toList_append, htext, List.append_assoc]⟩
  have hnone : arityMark ∉ (word ++ tail).toList := by
    rw [String.toList_append, List.mem_append]
    exact not_or.2 ⟨hmark, htail⟩
  rw [ofName_of_not_endsLike hnone (fun h => he (hends.sameSpelling h rfl))
    (fun h => ht (hends.sameSpelling h rfl)), String.toList_append]

/-- **A plural has the noun of its singular, unless it is one in `sses`.** After `ss`, `sh`, `ch`
and `x` the plural in `es` has the word itself for its noun. So has the word, but for one in `ss`,
whose noun lacks its last letter. The plural in `ies` always has the noun of the word in `y`. -/
theorem plural_noun_unless_double_s {word : String} (hmark : arityMark ∉ word.toList) :
    (∀ stem ∈ pluralStems, EndsLike stem word.toList →
      ofName (word ++ "es") = String.ofList (capitalize word.toList) ∧
      (ofName (word ++ "es") = ofName word ↔ stem ≠ ['s', 's'])) ∧
    (EndsLike ['s', 's'] word.toList →
      ofName word = String.ofList (capitalize word.toList.dropLast)) ∧
    ofName (word ++ "ies") = ofName (word ++ "y") := by
  have hword : ∀ stem ∈ pluralStems, EndsLike stem word.toList →
      ofName word = String.ofList (capitalize (singularChars word.toList)) := by
    intro stem hstem hends
    exact ofName_of_not_endsLike hmark
      (not_endsLike_of_mem_pluralStems hstem hends (by decide) fun _ => by decide)
      (not_endsLike_of_mem_pluralStems hstem hends (by decide) fun _ => by decide)
  refine ⟨fun stem hstem hends => ?_, fun hends => ?_, ?_⟩
  · have hplural : ofName (word ++ "es") = String.ofList (capitalize word.toList) := by
      rw [ofName_append 's' hmark (by decide) (by decide) (by decide) (by decide)]
      exact congrArg (String.ofList <| capitalize ·) (singularChars_append_es hstem hends)
    refine ⟨hplural, ?_⟩
    rw [hplural, hword stem hstem hends, String.ofList_inj]
    by_cases hdouble : stem = ['s', 's']
    · subst hdouble
      rw [singularChars_of_double_s hends]
      simpa using capitalize_ne_capitalize_dropLast hends.length_le
    · have hs : ¬ EndsLike ['s'] word.toList :=
        not_endsLike_of_mem_pluralStems hstem hends (by decide) fun h => absurd h hdouble
      rw [singularChars_of_not_endsLike hs]
      simpa using hdouble
  · rw [hword ['s', 's'] (by decide) hends, singularChars_of_double_s hends]
  · have hy : ¬ EndsLike ['s'] (word.toList ++ ['y']) := by
      intro hs
      have hends : EndsLike ['y'] (word.toList ++ ['y']) := ⟨word.toList, ['y'], rfl, rfl⟩
      exact absurd (hends.sameSpelling hs rfl) (by decide)
    rw [ofName_append 's' hmark (by decide) (by decide) (by decide) (by decide),
      ofName_append 'y' hmark (by decide) (by decide) (by decide) (by decide)]
    calc String.ofList (capitalize (singularChars (word.toList ++ "ies".toList)))
        = String.ofList (capitalize (word.toList ++ ['y'])) :=
          congrArg (String.ofList <| capitalize ·) (singularChars_append_ies word.toList)
      _ = String.ofList (capitalize (singularChars (word.toList ++ "y".toList))) :=
          congrArg (String.ofList <| capitalize ·) (singularChars_of_not_endsLike hy).symm

theorem plural_noun_unless_double_s_mesh :
    arityMark ∉ "Mesh".toList ∧ EndsLike ['s', 'h'] "Mesh".toList ∧
    ofName "Meshes" = ofName "Mesh" ∧ ofName "Meshes" = "Mesh" := by
  have hmark : arityMark ∉ "Mesh".toList := by decide
  have hends : EndsLike ['s', 'h'] "Mesh".toList := by decide
  obtain ⟨hplural, hsame⟩ := (plural_noun_unless_double_s hmark).1 ['s', 'h'] (by decide) hends
  exact ⟨hmark, hends, hsame.2 (by decide), hplural⟩

/-- The word in `ss` is taken for a plural itself. -/
theorem double_s_loses_a_letter :
    ¬ ∀ word : String, arityMark ∉ word.toList → ∀ stem ∈ pluralStems,
      EndsLike stem word.toList → ofName (word ++ "es") = ofName word := by
  intro h
  have heq := h "Address" (by decide) ['s', 's'] (by decide) (by decide)
  have hplural : ofName ("Address" ++ "es") = "Address" := by decide
  have hword : ofName "Address" = "Addres" := by decide
  rw [hplural, hword] at heq
  exact absurd heq (by decide)

end WrapperGen.Noun
