import WrapperGen.Naming.Noun
import WrapperGen.Text.Delimited
/-!
# Decorated names

A name may say that it stands for a list, a result or a response, and how many parameters it has.
All that is taken off before the noun is made.

1. Each decoration comes off where it stands, and nothing that stands before it ends in one that was
   looked for earlier (`stripDecorations_decorated`).
2. So a decorated name has the noun of its stem, whatever follows an arity mark
   (`decorations_keep_noun`).
-/

namespace WrapperGen.Noun

open Text

def responseWord : List Char := ['R', 'e', 's', 'p', 'o', 'n', 's', 'e']

def resultWord : List Char := ['R', 'e', 's', 'u', 'l', 't']

def listWord : List Char := ['L', 'i', 's', 't']

theorem stripDecorations_eq (word : List Char) :
    stripDecorations word =
      dropListTail (dropEnding resultWord (dropEnding responseWord word)) := rfl

/-! ## Lists -/

theorem dropListTail_append {word : List Char} (h : word ≠ []) :
    dropListTail (word ++ listWord) = word := by
  have hends : listWord.isSuffixOf (word ++ listWord) = true :=
    List.isSuffixOf_iff_suffix.2 (List.suffix_append _ _)
  have hlength : (word ++ listWord).length = word.length + 4 := List.length_append
  have hpos : 0 < word.length := List.length_pos_iff.2 h
  have hlong : ((word ++ listWord).length != 4) = true := by
    rw [bne_iff_ne, hlength]
    omega
  show (if (listWord.isSuffixOf _ && _) = true then _ else _) = _
  rw [hends, hlong, if_pos (by rfl), hlength, Nat.add_sub_cancel, List.take_left]

theorem dropListTail_of_not_suffix {word : List Char} (h : ¬ listWord <:+ word) :
    dropListTail word = word := by
  have hends : listWord.isSuffixOf word = false := by
    rw [Bool.eq_false_iff, ne_eq, List.isSuffixOf_iff_suffix]
    exact h
  show (if (listWord.isSuffixOf _ && _) = true then _ else _) = _
  rw [hends, Bool.false_and, if_neg Bool.false_ne_true]

/-- A word in `List` is that tail alone, or has a stem before it. -/
theorem dropListTail_cases (word : List Char) :
    dropListTail word = word ∨ dropListTail word ≠ [] ∧ word = dropListTail word ++ listWord := by
  by_cases h : listWord <:+ word
  · obtain ⟨stem, rfl⟩ := h
    by_cases hstem : stem = []
    · subst hstem
      exact .inl rfl
    · rw [dropListTail_append hstem]
      exact .inr ⟨hstem, rfl⟩
  · exact .inl (dropListTail_of_not_suffix h)

/-! ## Stems and decorations -/

/-- A stem: a word in which no decoration is left. -/
structure Undecorated (word : List Char) : Prop where
  nonempty : word ≠ []
  unmarked : arityMark ∉ word
  noResponse : ¬ EndsLike responseWord word
  noResult : ¬ EndsLike resultWord word
  noList : ¬ listWord <:+ word

/-- The decorations of a name, each of which may be missing. Only `List` has to be spelled
exactly. -/
structure Decorations (list result response : List Char) : Prop where
  list : list = [] ∨ list = listWord
  result : result = [] ∨ SameSpelling result resultWord
  response : response = [] ∨ SameSpelling response responseWord

theorem Undecorated.noResponse_decorated {word list result : List Char} (h : Undecorated word)
    (hlist : list = [] ∨ list = listWord) (hresult : result = [] ∨ SameSpelling result resultWord) :
    ¬ EndsLike responseWord (word ++ list ++ result) := by
  rcases hresult with rfl | hresult
  · rw [List.append_nil]
    rcases hlist with rfl | rfl
    · rw [List.append_nil]
      exact h.noResponse
    · have hother : ¬ SameSpelling listWord ['o', 'n', 's', 'e'] := by decide
      exact not_endsLike_append hother rfl ['R', 'e', 's', 'p'] word
  · have hother : ¬ SameSpelling result ['s', 'p', 'o', 'n', 's', 'e'] := fun h =>
      absurd (hresult.symm.trans h) (by decide)
    exact not_endsLike_append hother hresult.length_eq ['R', 'e'] (word ++ list)

theorem Undecorated.noResult_decorated {word list : List Char} (h : Undecorated word)
    (hlist : list = [] ∨ list = listWord) : ¬ EndsLike resultWord (word ++ list) := by
  rcases hlist with rfl | rfl
  · rw [List.append_nil]
    exact h.noResult
  · have hother : ¬ SameSpelling listWord ['s', 'u', 'l', 't'] := by decide
    exact not_endsLike_append hother rfl ['R', 'e'] word

theorem dropEnding_optional {affix text tail : List Char}
    (htail : tail = [] ∨ SameSpelling tail affix) (h : ¬ EndsLike affix text) :
    dropEnding affix (text ++ tail) = text := by
  rcases htail with rfl | hspell
  · rw [List.append_nil, dropEnding_of_not_endsLike h]
  · exact dropEnding_append hspell text

/-- What a stem is decorated with comes off. -/
theorem stripDecorations_decorated {word list result response : List Char} (h : Undecorated word)
    (hd : Decorations list result response) :
    stripDecorations (word ++ list ++ result ++ response) = word := by
  rw [stripDecorations_eq,
    dropEnding_optional hd.response (h.noResponse_decorated hd.list hd.result),
    dropEnding_optional hd.result (h.noResult_decorated hd.list)]
  rcases hd.list with rfl | rfl
  · rw [List.append_nil, dropListTail_of_not_suffix h.noList]
  · exact dropListTail_append h.nonempty

/-! ## The noun of a decorated name -/

/-- Nothing spells the mark but itself. -/
theorem mark_notMem_of_sameSpelling {word affix : List Char} (h : SameSpelling word affix)
    (haffix : arityMark ∉ affix.map Char.toLower) : arityMark ∉ word := by
  intro hmem
  rw [← h] at haffix
  exact haffix (List.mem_map_of_mem (f := Char.toLower) hmem)

theorem Undecorated.unmarked_decorated {word list result response : List Char}
    (h : Undecorated word) (hd : Decorations list result response) :
    arityMark ∉ word ++ list ++ result ++ response := by
  have hlist : arityMark ∉ list := by
    rcases hd.list with rfl | rfl <;> decide
  have hresult : arityMark ∉ result := by
    rcases hd.result with rfl | hspell
    · exact List.not_mem_nil
    · exact mark_notMem_of_sameSpelling hspell (by decide)
  have hresponse : arityMark ∉ response := by
    rcases hd.response with rfl | hspell
    · exact List.not_mem_nil
    · exact mark_notMem_of_sameSpelling hspell (by decide)
  simp only [List.mem_append, h.unmarked, hlist, hresult, hresponse, or_self, not_false_eq_true]

theorem chars_decorated {word list result response : List Char} (h : Undecorated word)
    (hd : Decorations list result response) :
    chars (word ++ list ++ result ++ response) = capitalize (singularChars word) ∧
    ∀ rest, chars (word ++ list ++ result ++ response ++ arityMark :: rest) =
      capitalize (singularChars word) := by
  have hmark := h.unmarked_decorated hd
  have hstrip := stripDecorations_decorated h hd
  refine ⟨?_, fun rest => ?_⟩
  · rw [chars, takeWhile_of_unmarked hmark, hstrip]
  · rw [chars, takeWhile_append_mark hmark, hstrip]

/-- **Decorations keep the noun.** A stem with any of `List`, a result and a response after it, in
this order, has the noun of the stem, which is its singular with a capital letter. Whatever stands
after an arity mark makes no difference. -/
theorem decorations_keep_noun {word list result response : String} (h : Undecorated word.toList)
    (hd : Decorations list.toList result.toList response.toList) :
    ofName (word ++ list ++ result ++ response) = ofName word ∧
    (∀ rest, ofName (word ++ list ++ result ++ response ++ arityMark.toString ++ rest) =
      ofName word) ∧
    ofName word = String.ofList (capitalize (singularChars word.toList)) := by
  obtain ⟨hplain, hmarked⟩ := chars_decorated h hd
  have hword : chars word.toList = capitalize (singularChars word.toList) := by
    simpa using (chars_decorated h ⟨.inl rfl, .inl rfl, .inl rfl⟩).1
  refine ⟨?_, fun rest => ?_, ?_⟩
  · simp only [ofName, String.toList_append, hplain, hword]
  · have hrest : (word ++ list ++ result ++ response ++ arityMark.toString ++ rest).toList =
        word.toList ++ list.toList ++ result.toList ++ response.toList ++
          arityMark :: rest.toList := by
      simp [String.toList_append]
    rw [ofName, hrest, hmarked, ofName, hword]
  · rw [ofName, hword]

/-- A list of playlists. The tail of the stem is not spelled as the decoration is. -/
theorem decorations_keep_noun_playlist :
    Undecorated "Playlist".toList ∧
      Decorations "List".toList "resulT".toList "RESPONSE".toList ∧
      ofName "PlaylistListresulTRESPONSE" = "Playlist" ∧
      ofName ("PlaylistListresulTRESPONSE" ++ arityMark.toString ++ "1[List]") = "Playlist" := by
  have hword : Undecorated "Playlist".toList :=
    ⟨by decide, by decide, by decide, by decide, by decide⟩
  have hd : Decorations "List".toList "resulT".toList "RESPONSE".toList :=
    ⟨.inr rfl, .inr (by decide), .inr (by decide)⟩
  obtain ⟨hplain, hmarked, hnoun⟩ := decorations_keep_noun hword hd
  have hplaylist : ofName "Playlist" = "Playlist" := hnoun.trans (by decide)
  exact ⟨hword, hd, hplain.trans hplaylist, (hmarked "1[List]").trans hplaylist⟩

end WrapperGen.Noun
