import Mathlib.Data.List.DropRight
import Mathlib.Data.List.Forall2
import WrapperGen.Proofs.OutlineRows
/-!
# Reading outlines

Blanks at the ends of the lines of an outline tell nothing: those after the last line are trimmed
off, and a blank after a colon or a dash comes of an empty string.

1. The texts of leaves take one line and do not end in blanks (`isSettled_leafText`), so the lines
   of an outline show its rows (`shows_memberLines`).
2. The text of an outline tells its rows (`rows_eq_of_text`).
3. Showing is all that displaying does to a value (`memberLines_shown`).
4. Hence an outline tells a value up to the texts of its leaves, and nothing less
   (`outline_eq_iff_shown`).
-/

namespace WrapperGen.Console

open Json (Value)

/-! ## Legible values -/

/-- The text takes one line and does not end in a blank. -/
def IsSettled (text : List Char) : Prop := '\n' ∉ text ∧ Text.trimEnd text = text

/-- The value can be outlined so that it can be read: its keys are words, and its strings take one
line each and do not end in blanks. -/
inductive Legible : Value → Prop
  | null : Legible .null
  | bool (b : Bool) : Legible (.bool b)
  | number (n : Json.Number) : Legible (.number n)
  | string {s : String} (h : IsSettled s.toList) : Legible (.string s)
  | array {items : List Value} (h : ∀ v ∈ items, Legible v) : Legible (.array items)
  | object {members : List (String × Value)}
      (hnames : ∀ m ∈ members, m.1.toList.all isKeyChar = true)
      (h : ∀ m ∈ members, Legible m.2) : Legible (.object members)

/-! ## Blanks at the ends of texts -/

theorem trimEnd_eq_rdropWhile (text : List Char) :
    Text.trimEnd text = text.rdropWhile Text.isBlank := rfl

theorem trimEnd_append {text tail : List Char} (h : Text.trimEnd tail ≠ []) :
    Text.trimEnd (text ++ tail) = text ++ Text.trimEnd tail := by
  have hkept : (tail.reverse.dropWhile Text.isBlank).isEmpty = false := by
    rw [List.isEmpty_eq_false_iff]
    exact fun hnil => h (by rw [Text.trimEnd, hnil, List.reverse_nil])
  rw [Text.trimEnd, List.reverse_append, List.dropWhile_append, hkept, if_neg Bool.false_ne_true,
    List.reverse_append, List.reverse_reverse, Text.trimEnd]

theorem isSettled_of_all {text : List Char} (h : text.all (!Text.isBlank ·) = true) :
    IsSettled text := by
  have hkept : ∀ c ∈ text, Text.isBlank c = false := fun c hc =>
    Bool.not_eq_eq_eq_not.1 (List.all_eq_true.1 h c hc)
  constructor
  · intro hline
    exact absurd (hkept _ hline) (by decide)
  · rw [trimEnd_eq_rdropWhile, List.rdropWhile_eq_self_iff]
    intro hne hblank
    rw [hkept _ (List.getLast_mem hne)] at hblank
    exact Bool.false_ne_true hblank

/-! ### Texts of leaves -/

/-- What numbers are written with. -/
def isFigure (c : Char) : Bool := c.isDigit || c == '-' || c == '.' || c == 'e'

theorem isBlank_of_isFigure {c : Char} (h : isFigure c = true) : Text.isBlank c = false := by
  simp only [isFigure, Bool.or_eq_true, beq_iff_eq] at h
  rcases h with ((hdigit | rfl) | rfl) | rfl
  · have hcode : 48 ≤ c.toNat ∧ c.toNat ≤ 57 := by
      simpa [Char.isDigit, UInt32.le_iff_toNat_le] using hdigit
    simp only [Text.isBlank, Bool.or_eq_false_iff, Bool.and_eq_false_iff, decide_eq_false_iff_not,
      beq_eq_false_iff_ne]
    omega
  · decide
  · decide
  · decide

theorem all_isFigure_toString (n : Nat) : (toString n).toList.all isFigure = true := by
  rw [List.all_eq_true]
  intro c hc
  have hdigit := List.all_eq_true.1 (Text.over_isDigit_toString n) c hc
  rw [isFigure, hdigit]
  rfl

theorem all_isFigure_toString_int (n : Int) : (toString n).toList.all isFigure = true := by
  cases n with
  | ofNat n => exact all_isFigure_toString n
  | negSucc n =>
    show ("-" ++ toString (n + 1)).toList.all isFigure = true
    rw [String.toList_append, List.all_append, all_isFigure_toString]
    decide

theorem all_isFigure_layout {digits : List Char} (h : digits.all isFigure = true) (exponent : Int) :
    (Json.Number.layout digits exponent).all isFigure = true := by
  have hzeros : ∀ n, (List.replicate n '0').all isFigure = true := by
    intro n
    rw [List.all_eq_true]
    rintro c hc
    rw [(List.mem_replicate.1 hc).2]
    decide
  have hpart : ∀ n, (digits.take n).all isFigure = true ∧ (digits.drop n).all isFigure = true := by
    intro n
    rwa [← Bool.and_eq_true, ← List.all_append, List.take_append_drop]
  have htail : ∀ n : Int, ('e' :: (toString n).toList).all isFigure = true := fun n => by
    rw [List.all_cons, all_isFigure_toString_int]
    decide
  unfold Json.Number.layout
  simp only
  split
  · rw [List.all_append, List.all_append, h, hzeros]
    decide
  split
  · rw [List.all_append, List.all_cons, (hpart _).1, (hpart _).2]
    decide
  split
  · rw [List.all_append, List.all_append, h, hzeros]
    decide
  · split
    · exact htail _
    · rw [List.all_cons, htail]
      rw [List.all_cons] at h
      rw [(Bool.and_eq_true_iff.1 h).1]
      rfl
    · rw [List.all_cons, Bool.and_eq_true] at h
      rw [List.cons_append, List.cons_append, List.all_cons, List.all_cons, List.all_append, htail,
        h.1, h.2]
      decide

theorem all_isFigure_chars (n : Json.Number) : n.chars.all isFigure = true := by
  cases n with
  | integer n => exact all_isFigure_toString_int n
  | decimal negative coefficient exponent =>
    have hsign : (if negative then ['-'] else []).all isFigure = true := by
      cases negative <;> decide
    have hdigits : ∀ n, (Json.Number.digits n).all isFigure = true := all_isFigure_toString
    unfold Json.Number.chars
    simp only
    split
    · rw [List.all_append, hsign]
      decide
    · rw [List.all_append, hsign, all_isFigure_layout (hdigits _)]
      rfl

theorem isSettled_leafText {v : Value} (h : Legible v) : IsSettled (leafText false v) := by
  cases h with
  | null => exact isSettled_of_all (by decide)
  | bool b => cases b <;> exact isSettled_of_all (by decide)
  | number n =>
    refine isSettled_of_all (List.all_eq_true.2 fun c hc => ?_)
    rw [isBlank_of_isFigure (List.all_eq_true.1 (all_isFigure_chars n) c hc)]
    rfl
  | string h => exact h
  | array h => exact isSettled_of_all (show ['[', ']'].all _ = true by decide)
  | object hnames h => exact isSettled_of_all (show ['\x7b', '\x7d'].all _ = true by decide)

/-! ## Lines show rows -/

/-- The line is that of the row, up to blanks at its end. -/
structure Shows (line : List Char) (r : Row) : Prop where
  oneLine : '\n' ∉ line
  trimEnd_eq : Text.trimEnd line = r.chars
  keyed : r.IsKeyed

theorem Row.exists_label_eq_concat (r : Row) :
    ∃ first c, r.label = first ++ [c] ∧ Text.isBlank c = false := by
  unfold label
  cases r.key with
  | none => exact ⟨[], '-', rfl, by decide⟩
  | some key => exact ⟨key, ':', rfl, by decide⟩

theorem Row.notMem_label {r : Row} (h : r.IsKeyed) : '\n' ∉ indentation r.level ++ r.label := by
  rw [List.mem_append, not_or]
  refine ⟨fun hmem => absurd (List.mem_replicate.1 hmem).2 (by decide), ?_⟩
  unfold label
  cases hkey : r.key with
  | none => decide
  | some key =>
    rw [List.mem_append, not_or]
    exact ⟨notMem_of_isKeyed h hkey (by decide), by decide⟩

theorem shows_headLine {v : Value} (h : Legible v) {level : Nat} {key : Option (List Char)}
    (hkey : (Row.mk level key (headLeaf v)).IsKeyed) :
    Shows (headLine false v (indentation level ++ (Row.mk level key (headLeaf v)).label))
      ⟨level, key, headLeaf v⟩ := by
  obtain ⟨hline, htrim⟩ := isSettled_leafText h
  have hhead := Row.notMem_label hkey
  obtain ⟨first, c, hlabel, hc⟩ := Row.exists_label_eq_concat ⟨level, key, headLeaf v⟩
  have hstop : Text.trimEnd (indentation level ++ (Row.mk level key (headLeaf v)).label) =
      indentation level ++ (Row.mk level key (headLeaf v)).label := by
    rw [hlabel, ← List.append_assoc, Text.trimEnd_concat _ hc]
  refine ⟨?_, ?_, hkey⟩
  · unfold headLine
    split
    · exact hhead
    · rw [List.mem_append, List.mem_cons, not_or, not_or]
      exact ⟨hhead, by decide, hline⟩
  · unfold headLine Row.chars Row.tail
    cases hnested : isNested v with
    | true =>
      rw [if_pos rfl, hstop, headLeaf, hnested, if_pos rfl, if_pos rfl, List.append_nil]
    | false =>
      have hleaf : headLeaf v = leafText false v := by
        rw [headLeaf, hnested, if_neg Bool.false_ne_true]
      rw [if_neg Bool.false_ne_true]
      by_cases hempty : leafText false v = []
      · rw [hleaf, hempty, if_pos rfl, List.append_nil,
          Text.trimEnd_append_blank (List.forall_mem_singleton.2 rfl)]
        rwa [hleaf, hempty] at hstop
      · have hkept : Text.trimEnd (leafText false v) ≠ [] := by rwa [htrim]
        rw [List.append_cons, trimEnd_append hkept, htrim, hleaf, if_neg hempty,
          List.append_assoc, List.append_assoc]
        rfl

theorem Legible.member {members : List (String × Value)} (h : Legible (.object members)) :
    ∀ m ∈ members, m.1.toList.all isKeyChar = true ∧ Legible m.2 := by
  cases h with
  | object hnames h => exact fun m hm => ⟨hnames m hm, h m hm⟩

theorem Legible.item {items : List Value} (h : Legible (.array items)) :
    ∀ v ∈ items, Legible v := by
  cases h with
  | array h => exact h

mutual

theorem shows_below (v : Value) (h : Legible v) (level : Nat) :
    List.Forall₂ Shows (if isNested v then blockLines false level v else [])
      (rowsBelow level v) := by
  match v with
  | .object (m :: ms) => exact shows_memberLines (m :: ms) h.member level
  | .array (w :: ws) => exact shows_itemLines (w :: ws) h.item level
  | .array [] => exact .nil
  | .object [] => exact .nil
  | .null => exact .nil
  | .bool _ => exact .nil
  | .number _ => exact .nil
  | .string _ => exact .nil
  | .textless => exact .nil

theorem shows_memberLines (ms : List (String × Value))
    (h : ∀ m ∈ ms, m.1.toList.all isKeyChar = true ∧ Legible m.2) (level : Nat) :
    List.Forall₂ Shows (memberLines false level ms) (memberRows level ms) := by
  match ms with
  | [] => exact .nil
  | (name, v) :: ms =>
    obtain ⟨hname, hv⟩ := h _ List.mem_cons_self
    have hkey : (Row.mk level (some name.toList) (headLeaf v)).IsKeyed := by
      rintro key ⟨rfl⟩
      exact hname
    rw [memberLines, memberRows, List.append_assoc]
    exact .cons (shows_headLine hv hkey) (List.rel_append (shows_below v hv (level + 1))
      (shows_memberLines ms (fun m hm => h m (List.mem_cons_of_mem _ hm)) level))

theorem shows_itemLines (vs : List Value) (h : ∀ v ∈ vs, Legible v) (level : Nat) :
    List.Forall₂ Shows (itemLines false level vs) (itemRows level vs) := by
  match vs with
  | [] => exact .nil
  | v :: vs =>
    have hv := h v List.mem_cons_self
    have hkey : (Row.mk level none (headLeaf v)).IsKeyed := fun key hnone => nomatch hnone
    rw [itemLines, itemRows]
    exact .cons (shows_headLine hv hkey) (List.rel_append (shows_below v hv (level + 1))
      (shows_itemLines vs (fun w hw => h w (List.mem_cons_of_mem _ hw)) level))

end

/-! ### Texts tell rows -/

/-- Lines in a text. -/
def linesText (lines : List (List Char)) : List Char := lines.flatMap (· ++ ['\n'])

theorem linesText_cons (line : List Char) (lines : List (List Char)) :
    linesText (line :: lines) = line ++ ['\n'] ++ linesText lines := rfl

theorem Row.chars_ne_nil {r : Row} (h : r.IsKeyed) : r.chars ≠ [] := by
  obtain ⟨c, rest, hlabel, -⟩ := exists_label_eq_cons h
  rw [chars, hlabel]
  simp

theorem Shows.trimEnd_linesText {line : List Char} {r : Row} (h : Shows line r) :
    Text.trimEnd (linesText [line]) = r.chars := by
  rw [linesText_cons, linesText, List.flatMap_nil, List.append_nil,
    Text.trimEnd_append_blank (List.forall_mem_singleton.2 rfl), h.trimEnd_eq]

theorem trimEnd_linesText_ne_nil {line : List Char} {lines : List (List Char)} {rows : List Row}
    (h : List.Forall₂ Shows (line :: lines) rows) :
    Text.trimEnd (linesText (line :: lines)) ≠ [] := by
  induction lines generalizing line rows with
  | nil =>
    obtain - | ⟨hline, -⟩ := h
    rw [hline.trimEnd_linesText]
    exact Row.chars_ne_nil hline.keyed
  | cons next lines ih =>
    obtain - | ⟨hline, hrest⟩ := h
    rw [linesText_cons, trimEnd_append (ih hrest)]
    simp

/-- What is trimmed off a text is at the end of its last line. -/
theorem trimEnd_linesText_cons {next : List Char} {lines : List (List Char)} {rows : List Row}
    (h : List.Forall₂ Shows (next :: lines) rows) (line : List Char) :
    Text.trimEnd (linesText (line :: next :: lines)) =
      line ++ '\n' :: Text.trimEnd (linesText (next :: lines)) := by
  rw [linesText_cons, trimEnd_append (trimEnd_linesText_ne_nil h), List.append_assoc]
  rfl

/-- The text of the last line is no text of several lines. -/
theorem Shows.chars_ne_append {line : List Char} {r : Row} (h : Shows line r) (s t : List Char) :
    r.chars ≠ s ++ '\n' :: t := by
  intro heq
  have hmem : '\n' ∈ Text.trimEnd line := by
    rw [h.trimEnd_eq, heq]
    exact List.mem_append_right _ List.mem_cons_self
  rw [trimEnd_eq_rdropWhile] at hmem
  exact h.oneLine ((List.rdropWhile_prefix Text.isBlank line).subset hmem)

theorem rows_eq_of_text {lines lines' : List (List Char)} {rows rows' : List Row}
    (h : List.Forall₂ Shows lines rows) (h' : List.Forall₂ Shows lines' rows')
    (heq : Text.trimEnd (linesText lines) = Text.trimEnd (linesText lines')) : rows = rows' := by
  induction h generalizing lines' rows' with
  | nil =>
    cases h' with
    | nil => rfl
    | cons hline' hrest' => exact absurd heq.symm (trimEnd_linesText_ne_nil (.cons hline' hrest'))
  | cons hline hrest ih =>
    cases h' with
    | nil => exact absurd heq (trimEnd_linesText_ne_nil (.cons hline hrest))
    | cons hline' hrest' =>
      cases hrest with
      | nil =>
        rw [hline.trimEnd_linesText] at heq
        cases hrest' with
        | nil =>
          rw [hline'.trimEnd_linesText] at heq
          rw [Row.chars_injective hline.keyed hline'.keyed heq]
        | cons hnext' hrest' =>
          rw [trimEnd_linesText_cons (.cons hnext' hrest')] at heq
          exact absurd heq (hline.chars_ne_append _ _)
      | cons hnext hrest =>
        rw [trimEnd_linesText_cons (.cons hnext hrest)] at heq
        cases hrest' with
        | nil =>
          rw [hline'.trimEnd_linesText] at heq
          exact absurd heq.symm (hline'.chars_ne_append _ _)
        | cons hnext' hrest' =>
          rw [trimEnd_linesText_cons (.cons hnext' hrest')] at heq
          obtain ⟨rfl, hmore⟩ := Text.eq_and_eq_of_append_mark hline.oneLine hline'.oneLine heq
          rw [Row.chars_injective hline.keyed hline'.keyed
            (hline.trimEnd_eq.symm.trans hline'.trimEnd_eq), ih (.cons hnext' hrest') hmore]

/-! ## Sorting and showing -/

/-- A property of the members is kept when one with it is put among them. -/
theorem forall_insertMember {P : String × Value → Prop} {name : String} {v : Value}
    (hv : P (name, v)) {ms : List (String × Value)} (h : ∀ m ∈ ms, P m) :
    ∀ m ∈ Value.insertMember name v ms, P m := by
  induction ms with
  | nil => exact List.forall_mem_cons.2 ⟨hv, h⟩
  | cons first ms ih =>
    obtain ⟨hfirst, hrest⟩ := List.forall_mem_cons.1 h
    unfold Value.insertMember
    split
    · exact List.forall_mem_cons.2 ⟨hv, h⟩
    split
    · exact List.forall_mem_cons.2 ⟨hv, hrest⟩
    · exact List.forall_mem_cons.2 ⟨hfirst, ih hrest⟩

mutual

theorem legible_sorted (v : Value) (h : Legible v) : Legible v.sorted := by
  match v with
  | .null => exact h
  | .bool _ => exact h
  | .number _ => exact h
  | .string _ => exact h
  | .textless => exact h
  | .array items => exact .array (legible_sortedItems items h.item)
  | .object members =>
    have hmembers := legible_sortedMembers members h.member
    exact .object (fun m hm => (hmembers m hm).1) fun m hm => (hmembers m hm).2

theorem legible_sortedItems (vs : List Value) (h : ∀ v ∈ vs, Legible v) :
    ∀ v ∈ Value.sortedItems vs, Legible v := by
  match vs with
  | [] => exact h
  | v :: vs =>
    obtain ⟨hv, hvs⟩ := List.forall_mem_cons.1 h
    exact List.forall_mem_cons.2 ⟨legible_sorted v hv, legible_sortedItems vs hvs⟩

theorem legible_sortedMembers (ms : List (String × Value))
    (h : ∀ m ∈ ms, m.1.toList.all isKeyChar = true ∧ Legible m.2) :
    ∀ m ∈ Value.sortedMembers ms, m.1.toList.all isKeyChar = true ∧ Legible m.2 := by
  match ms with
  | [] => exact h
  | (name, v) :: ms =>
    obtain ⟨⟨hname, hv⟩, hms⟩ := List.forall_mem_cons.1 h
    have hrest := legible_sortedMembers ms hms
    unfold Value.sortedMembers
    simp only
    split
    · exact hrest
    · exact forall_insertMember ⟨hname, legible_sorted v hv⟩ hrest

end

/-- What is displayed for a leaf is displayed as it is, and nothing else is changed. -/
theorem isNested_shown (v : Value) : isNested (shown v) = isNested v := by
  obtain ⟨hleaf, -, hshown⟩ | ⟨-, ⟨m, ms, rfl⟩ | ⟨w, ws, rfl⟩⟩ := isNested_cases v
  · rw [hshown, hleaf]
    rfl
  · rfl
  · rfl

theorem headLine_shown (v : Value) (head : List Char) :
    headLine false (shown v) head = headLine false v head := by
  unfold headLine
  rw [isNested_shown]
  obtain ⟨hleaf, -, hshown⟩ | ⟨hnested, -⟩ := isNested_cases v
  · rw [hleaf, if_neg Bool.false_ne_true, if_neg Bool.false_ne_true, hshown]
    exact congrArg (head ++ ' ' :: ·) String.toList_ofList
  · rw [hnested, if_pos rfl, if_pos rfl]

/-- Whatever would be below a leaf, nothing is. -/
theorem below_leaf {v : Value} (h : isNested v = false) (lines lines' : List (List Char)) :
    (if isNested v then lines else []) = if isNested v then lines' else [] := by
  rw [h, if_neg Bool.false_ne_true, if_neg Bool.false_ne_true]

mutual

theorem below_shown (v : Value) (level : Nat) :
    (if isNested v then blockLines false level (shown v) else []) =
      if isNested v then blockLines false level v else [] := by
  match v with
  | .object (m :: ms) => exact memberLines_shown (m :: ms) level
  | .array (w :: ws) => exact itemLines_shown (w :: ws) level
  | .array [] => exact below_leaf rfl _ _
  | .object [] => exact below_leaf rfl _ _
  | .null => exact below_leaf rfl _ _
  | .bool _ => exact below_leaf rfl _ _
  | .number _ => exact below_leaf rfl _ _
  | .string _ => exact below_leaf rfl _ _
  | .textless => exact below_leaf rfl _ _

theorem memberLines_shown (ms : List (String × Value)) (level : Nat) :
    memberLines false level (shownMembers ms) = memberLines false level ms := by
  match ms with
  | [] => rfl
  | (name, v) :: ms =>
    rw [shownMembers, memberLines, memberLines, headLine_shown, isNested_shown,
      below_shown v (level + 1), memberLines_shown ms level]

theorem itemLines_shown (vs : List Value) (level : Nat) :
    itemLines false level (shownItems vs) = itemLines false level vs := by
  match vs with
  | [] => rfl
  | v :: vs =>
    rw [shownItems, itemLines, itemLines, headLine_shown, isNested_shown,
      below_shown v (level + 1), itemLines_shown vs level]

end

/-! ## Reading back -/

theorem outline_object (ms : List (String × Value)) :
    outline false (.object ms) =
      String.ofList (Text.trimEnd (linesText (memberLines false 0 (Value.sortedMembers ms)))) := rfl

theorem shown_object_eq_iff (ms ms' : List (String × Value)) :
    shown (.object ms) = shown (.object ms') ↔ shownMembers ms = shownMembers ms' := by
  cases ms with
  | nil =>
    cases ms' with
    | nil => exact iff_of_true rfl rfl
    | cons m' ms' => exact iff_of_false Value.noConfusion (List.cons_ne_nil _ _).symm
  | cons m ms =>
    cases ms' with
    | nil => exact iff_of_false Value.noConfusion (List.cons_ne_nil _ _)
    | cons m' ms' => exact Value.object.injEq _ _ ▸ Iff.rfl

/-- Outlines of objects that can be read are the same if and only if the objects are, up to the
texts of their leaves. -/
theorem outline_eq_iff_shown {ms ms' : List (String × Value)} (h : Legible (.object ms))
    (h' : Legible (.object ms')) :
    outline false (.object ms) = outline false (.object ms') ↔
      shown (Value.object ms).sorted = shown (Value.object ms').sorted := by
  have hsorted := (legible_sorted _ h).member
  have hsorted' := (legible_sorted _ h').member
  rw [outline_object, outline_object, Value.sorted, Value.sorted, shown_object_eq_iff]
  constructor
  · intro heq
    have hrows := rows_eq_of_text (shows_memberLines _ hsorted 0) (shows_memberLines _ hsorted' 0)
      (String.ofList_inj.1 heq)
    have hend : EndsBlock 0 [] := fun r hr => nomatch hr
    exact (memberRows_append_inj _ hend hend (congrArg (· ++ []) hrows)).1
  · intro heq
    rw [← memberLines_shown (Value.sortedMembers ms), heq, memberLines_shown]

/-- `{"z":[{"k":""},null],"a":true}` and `{"a":"true","z":[{"k":""},"none"]}` have one outline. -/
theorem outline_eq_iff_shown_nested :
    Legible (.object [("z", .array [.object [("k", .string "")], .null]), ("a", .bool true)]) ∧
      Legible (.object
        [("a", .string "true"), ("z", .array [.object [("k", .string "")], .string "none"])]) ∧
      outline false
          (.object [("z", .array [.object [("k", .string "")], .null]), ("a", .bool true)]) =
        outline false (.object [("a", .string "true"),
          ("z", .array [.object [("k", .string "")], .string "none"])]) := by
  have hinner : Legible (.object [("k", .string "")]) :=
    .object (by decide) (List.forall_mem_singleton.2 (.string ⟨by decide, by decide⟩))
  have h : Legible
      (.object [("z", .array [.object [("k", .string "")], .null]), ("a", .bool true)]) :=
    .object (by decide) (List.forall_mem_cons.2
      ⟨.array (List.forall_mem_cons.2 ⟨hinner, List.forall_mem_singleton.2 .null⟩),
        List.forall_mem_singleton.2 (.bool true)⟩)
  have h' : Legible (.object
      [("a", .string "true"), ("z", .array [.object [("k", .string "")], .string "none"])]) :=
    .object (by decide) (List.forall_mem_cons.2 ⟨.string ⟨by decide, by decide⟩,
      List.forall_mem_singleton.2 (.array (List.forall_mem_cons.2
        ⟨hinner, List.forall_mem_singleton.2 (.string ⟨by decide, by decide⟩)⟩))⟩)
  exact ⟨h, h', (outline_eq_iff_shown h h').2 (by cbv)⟩

end WrapperGen.Console
