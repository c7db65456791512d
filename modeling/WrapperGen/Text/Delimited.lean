import Mathlib.Data.List.TakeWhile
/-!
# Delimited texts

A text that is made of several can be told apart again where each of them ends visibly.

1. A word over some characters ends before any other one (`eq_and_eq_of_append_eq`), and where two
   are followed by the same text, one such character in it is enough (`eq_and_eq_of_append_same`).
2. A text without a mark ends before the first one (`takeWhile_append_mark`,
   `eq_and_eq_of_append_mark`).
3. Neither of two texts heads the other, so nothing can be added to make them equal
   (`append_ne_append`).
4. Texts that each end visibly can stand in a row up to a closing text (`Delimited.join`).
5. Texts that are ended by what is between them, and by what closes them, can stand in a list with a
   separator (`items_append_inj`).
-/

namespace WrapperGen.Text

variable {α β : Type} {kind : Char → Bool}

/-! ## Words -/

/-- All the characters are of the kind. -/
def Over (kind : Char → Bool) (text : String) : Prop := text.toList.all kind = true

/-- There is a first character, and it is not of the kind. -/
def Stops (kind : Char → Bool) (text : String) : Prop :=
  text.toList.head?.any (fun c => !kind c) = true

instance (kind : Char → Bool) (text : String) : Decidable (Over kind text) :=
  inferInstanceAs (Decidable (_ = true))

instance (kind : Char → Bool) (text : String) : Decidable (Stops kind text) :=
  inferInstanceAs (Decidable (_ = true))

theorem Over.append {v w : String} (hv : Over kind v) (hw : Over kind w) : Over kind (v ++ w) := by
  unfold Over at *
  rw [String.toList_append, List.all_append, hv, hw]
  rfl

theorem stops_iff {s : String} :
    Stops kind s ↔ ∃ c cs, s.toList = c :: cs ∧ kind c = false := by
  unfold Stops
  cases s.toList with
  | nil => simp
  | cons c cs => simp

theorem Stops.append {s : String} (h : Stops kind s) (t : String) : Stops kind (s ++ t) := by
  obtain ⟨c, cs, hs, hc⟩ := stops_iff.1 h
  refine stops_iff.2 ⟨c, cs ++ t.toList, ?_, hc⟩
  rw [String.toList_append, hs, List.cons_append]

theorem Stops.mono {kind' : Char → Bool} (hkind : ∀ c, kind' c = true → kind c = true) {s : String}
    (h : Stops kind s) : Stops kind' s := by
  obtain ⟨c, cs, hs, hc⟩ := stops_iff.1 h
  refine stops_iff.2 ⟨c, cs, hs, Bool.eq_false_iff.2 ?_⟩
  intro hc'
  rw [hkind c hc'] at hc
  exact Bool.true_eq_false.mp hc

theorem Over.stops_not {s : String} (h : Over kind s) (hne : s ≠ "") :
    Stops (fun c => !kind c) s := by
  obtain ⟨c, cs, hs⟩ := List.exists_cons_of_ne_nil (mt String.toList_eq_nil_iff.1 hne)
  have hc : kind c = true := List.all_eq_true.1 h c (hs ▸ List.mem_cons_self)
  exact stops_iff.2 ⟨c, cs, hs, by rw [hc]; rfl⟩

/-- Texts that begin with characters of different kinds are different. -/
theorem Stops.ne {s t : String} (hs : Stops kind s) (ht : Stops (fun c => !kind c) t) : s ≠ t := by
  rintro rfl
  obtain ⟨c, cs, hc, hkind⟩ := stops_iff.1 hs
  obtain ⟨d, ds, hd, hother⟩ := stops_iff.1 ht
  obtain rfl : c = d := (List.cons.inj (hc.symm.trans hd)).1
  rw [hkind] at hother
  exact Bool.true_eq_false.mp hother

theorem takeWhile_append_of_stops {v s : String} (hv : Over kind v) (hs : Stops kind s) :
    (v ++ s).toList.takeWhile kind = v.toList := by
  obtain ⟨c, cs, hchars, hc⟩ := stops_iff.1 hs
  rw [String.toList_append, List.takeWhile_append_of_pos (List.all_eq_true.1 hv), hchars,
    List.takeWhile_cons_of_neg (Bool.eq_false_iff.1 hc), List.append_nil]

theorem dropWhile_append_of_stops {v s : String} (hv : Over kind v) (hs : Stops kind s) :
    (v ++ s).toList.dropWhile kind = s.toList := by
  obtain ⟨c, cs, hchars, hc⟩ := stops_iff.1 hs
  rw [String.toList_append, List.dropWhile_append_of_pos (List.all_eq_true.1 hv), hchars,
    List.dropWhile_cons_of_neg (Bool.eq_false_iff.1 hc)]

/-- Words are told from what follows them. -/
theorem eq_and_eq_of_append_eq {v w s t : String} (hv : Over kind v) (hw : Over kind w)
    (hs : Stops kind s) (ht : Stops kind t) (h : v ++ s = w ++ t) : v = w ∧ s = t := by
  have hword : v = w := by
    apply String.toList_injective
    rw [← takeWhile_append_of_stops hv hs, h, takeWhile_append_of_stops hw ht]
  subst hword
  exact ⟨rfl, (String.append_right_inj v).1 h⟩

/-- A text with a character of another kind in it is a word and a text that stops it. -/
theorem exists_word_of_not_over {text : String} (h : ¬ Over kind text) :
    ∃ word stop, text = word ++ stop ∧ Over kind word ∧ Stops kind stop := by
  have hsplit : text = String.ofList (text.toList.takeWhile kind) ++
      String.ofList (text.toList.dropWhile kind) := by
    rw [← String.ofList_append, List.takeWhile_append_dropWhile, String.ofList_toList]
  refine ⟨_, _, hsplit, ?_, ?_⟩
  · unfold Over
    rw [String.toList_ofList]
    exact List.all_takeWhile
  · cases hrest : text.toList.dropWhile kind with
    | nil => exact absurd (List.all_eq_true.2 (List.dropWhile_eq_nil_iff.1 hrest)) h
    | cons c cs =>
      refine stops_iff.2 ⟨c, cs, String.toList_ofList, ?_⟩
      have hc := List.head?_dropWhile_not kind text.toList
      rw [hrest] at hc
      simpa using hc

/-- The same text may follow two words if it has a character of another kind in it. -/
theorem eq_and_eq_of_append_same {v w after s t : String} (hv : Over kind v) (hw : Over kind w)
    (hafter : ¬ Over kind after) (h : v ++ (after ++ s) = w ++ (after ++ t)) : v = w ∧ s = t := by
  obtain ⟨word, stop, rfl, hword, hstop⟩ := exists_word_of_not_over hafter
  have hgrouped : v ++ word ++ (stop ++ s) = w ++ word ++ (stop ++ t) := by
    simpa only [String.append_assoc] using h
  obtain ⟨hwords, hrest⟩ := eq_and_eq_of_append_eq (hv.append hword) (hw.append hword)
    (hstop.append s) (hstop.append t) hgrouped
  exact ⟨(String.append_left_inj word).1 hwords, (String.append_right_inj stop).1 hrest⟩

/-! ## Marks -/

theorem takeWhile_of_unmarked {mark : Char} {text : List Char} (h : mark ∉ text) :
    text.takeWhile (· ≠ mark) = text := by
  rw [List.takeWhile_eq_self_iff]
  intro c hc
  exact decide_eq_true (ne_of_mem_of_not_mem hc h)

theorem takeWhile_append_mark {mark : Char} {text : List Char} (h : mark ∉ text)
    (rest : List Char) : (text ++ mark :: rest).takeWhile (· ≠ mark) = text := by
  have htext : ∀ c ∈ text, decide (c ≠ mark) = true := fun c hc =>
    decide_eq_true (ne_of_mem_of_not_mem hc h)
  rw [List.takeWhile_append_of_pos htext, List.takeWhile_cons_of_neg (by simp), List.append_nil]

/-- Two texts are cut alike by the first mark. -/
theorem eq_and_eq_of_append_mark {mark : Char} {s t x y : List Char} (hs : mark ∉ s) (ht : mark ∉ t)
    (h : s ++ mark :: x = t ++ mark :: y) : s = t ∧ x = y := by
  have hst : s = t := by rw [← takeWhile_append_mark hs x, h, takeWhile_append_mark ht]
  subst hst
  exact ⟨rfl, (List.cons.inj (List.append_cancel_left h)).2⟩

/-! ## Numbers -/

theorem over_isDigit_toString (n : Nat) : Over Char.isDigit (toString n) := by
  unfold Over
  rw [Nat.toString_eq_ofList_toDigits, String.toList_ofList, List.all_eq_true]
  intro c hc
  exact Nat.isDigit_of_mem_toDigits (by decide) (by decide) hc

theorem toString_nat_injective {m n : Nat} (h : toString m = toString n) : m = n := by
  rw [Nat.toString_eq_ofList_toDigits, Nat.toString_eq_ofList_toDigits, String.ofList_inj] at h
  rw [← Nat.ofDigitChars_ten_toDigits (n := m), h, Nat.ofDigitChars_ten_toDigits]

/-! ## Beginnings -/

/-- Neither text heads the other. -/
def Apart (s t : String) : Prop := ¬ s.toList <+: t.toList ∧ ¬ t.toList <+: s.toList

instance (s t : String) : Decidable (Apart s t) := inferInstanceAs (Decidable (_ ∧ _))

theorem Apart.symm {s t : String} (h : Apart s t) : Apart t s := ⟨h.2, h.1⟩

theorem append_ne_append {s t : String} (h : Apart s t) (x y : String) : s ++ x ≠ t ++ y := by
  intro heq
  have hchars : s.toList ++ x.toList = t.toList ++ y.toList := by
    rw [← String.toList_append, heq, String.toList_append]
  have hs : s.toList <+: s.toList ++ x.toList := List.prefix_append _ _
  have ht : t.toList <+: s.toList ++ x.toList := hchars ▸ List.prefix_append _ _
  rcases List.prefix_or_prefix_of_prefix hs ht with hst | hts
  · exact h.1 hst
  · exact h.2 hts

/-! ## Rows -/

/-- Whatever follows them, the texts of those that fit can be told from each other. -/
def Delimited (Fits : α → Prop) (write : α → String) : Prop :=
  ∀ ⦃a b : α⦄, Fits a → Fits b → ∀ ⦃x y : String⦄, write a ++ x = write b ++ y → a = b ∧ x = y

theorem Delimited.join {Fits : α → Prop} {write : α → String} {close : String}
    (hwrite : Delimited Fits write)
    (hclose : ∀ a, Fits a → ∀ x y, write a ++ x ≠ close ++ y) :
    Delimited (fun l : List α => ∀ a ∈ l, Fits a)
      (fun l => String.join (l.map write) ++ close) := by
  intro l m hl hm x y h
  induction l generalizing m with
  | nil =>
    cases m with
    | nil => exact ⟨rfl, (String.append_right_inj _).1 h⟩
    | cons b m =>
      simp only [List.map_nil, String.join_nil, String.empty_append, List.map_cons,
        String.join_cons, String.append_assoc] at h
      exact absurd h.symm (hclose b (hm b List.mem_cons_self) _ _)
  | cons a l ih =>
    cases m with
    | nil =>
      simp only [List.map_nil, String.join_nil, String.empty_append, List.map_cons,
        String.join_cons, String.append_assoc] at h
      exact absurd h (hclose a (hl a List.mem_cons_self) _ _)
    | cons b m =>
      simp only [List.map_cons, String.join_cons, String.append_assoc] at h ih
      obtain ⟨hab, hrest⟩ := hwrite (hl a List.mem_cons_self) (hm b List.mem_cons_self) h
      obtain ⟨hlm, hxy⟩ := ih (fun c hc => hl c (List.mem_cons_of_mem _ hc))
        (fun c hc => hm c (List.mem_cons_of_mem _ hc)) hrest
      exact ⟨List.cons_eq_cons.2 ⟨hab, hlm⟩, hxy⟩

/-! ## Lists with separators -/

/-- What follows the first item of a list that a separator parts and a text closes. -/
def otherItems (separator close : String) (items : List String) : String :=
  String.join (items.map (separator ++ ·)) ++ close

section Lists

variable {separator close : String}

@[simp]
theorem otherItems_nil : otherItems separator close [] = close := by
  rw [otherItems, List.map_nil, String.join_nil, String.empty_append]

@[simp]
theorem otherItems_cons (item : String) (items : List String) :
    otherItems separator close (item :: items) =
      separator ++ (item ++ otherItems separator close items) := by
  simp only [otherItems, List.map_cons, String.join_cons, String.append_assoc]

theorem intercalate_cons_append_close (item : String) (items : List String) :
    separator.intercalate (item :: items) ++ close = item ++ otherItems separator close items := by
  induction items generalizing item with
  | nil => rw [String.intercalate_singleton, otherItems_nil]
  | cons next items ih =>
    rw [String.intercalate_cons_cons, String.append_assoc, ih, otherItems_cons, String.append_assoc]

theorem stops_otherItems (hseparator : Stops kind separator) (hclose : Stops kind close)
    (items : List String) : Stops kind (otherItems separator close items) := by
  cases items with
  | nil =>
    rw [otherItems_nil]
    exact hclose
  | cons item items =>
    rw [otherItems_cons]
    exact hseparator.append _

/-- The texts of the two, each with something behind it that stops it, tell what they have under the
key and what is behind. -/
def KeyTold (kind : Char → Bool) (write : α → String) (key : α → β) (a b : α) : Prop :=
  ∀ ⦃x y : String⦄, Stops kind x → Stops kind y → write a ++ x = write b ++ y →
    key a = key b ∧ x = y

variable {write : α → String} {key : α → β} {as bs : List α} {x y : String}

theorem otherItems_append_inj (hseparator : Stops kind separator) (hclose : Stops kind close)
    (hapart : Apart separator close) (htold : ∀ a ∈ as, ∀ b ∈ bs, KeyTold kind write key a b)
    (h : otherItems separator close (as.map write) ++ x =
      otherItems separator close (bs.map write) ++ y) : as.map key = bs.map key ∧ x = y := by
  induction as generalizing bs with
  | nil =>
    cases bs with
    | nil => exact ⟨rfl, (String.append_right_inj _).1 h⟩
    | cons b bs =>
      simp only [List.map_nil, List.map_cons, otherItems_nil, otherItems_cons,
        String.append_assoc] at h
      exact absurd h.symm (append_ne_append hapart _ _)
  | cons a as ih =>
    cases bs with
    | nil =>
      simp only [List.map_nil, List.map_cons, otherItems_nil, otherItems_cons,
        String.append_assoc] at h
      exact absurd h (append_ne_append hapart _ _)
    | cons b bs =>
      simp only [List.map_cons, otherItems_cons, String.append_assoc,
        String.append_right_inj] at h
      obtain ⟨hab, hrest⟩ := htold a List.mem_cons_self b List.mem_cons_self
        ((stops_otherItems hseparator hclose _).append x)
        ((stops_otherItems hseparator hclose _).append y) h
      obtain ⟨hothers, hxy⟩ := ih (fun a ha b hb =>
        htold a (List.mem_cons_of_mem _ ha) b (List.mem_cons_of_mem _ hb)) hrest
      exact ⟨by rw [List.map_cons, List.map_cons, hab, hothers], hxy⟩

/-- The keys of the items are told, and what is behind their list. -/
theorem items_append_inj (hseparator : Stops kind separator) (hclose : Stops kind close)
    (hapart : Apart separator close) {a b : α}
    (htold : ∀ c ∈ a :: as, ∀ d ∈ b :: bs, KeyTold kind write key c d)
    (h : write a ++ (otherItems separator close (as.map write) ++ x) =
      write b ++ (otherItems separator close (bs.map write) ++ y)) :
    (a :: as).map key = (b :: bs).map key ∧ x = y := by
  -- with a separator in front as well, the first items are like the others
  refine otherItems_append_inj hseparator hclose hapart htold (x := x) (y := y) ?_
  simpa only [List.map_cons, otherItems_cons, String.append_assoc, String.append_right_inj] using h

end Lists

end WrapperGen.Text
