import WrapperGen.Proofs.Nameable
import WrapperGen.Surface.Nested
import WrapperGen.Text.Delimited
/-!
# Types told by their literals

The full name of a type leaves out the kinds and the arity marks, and sets arguments and arrays in
brackets. Of a *well-formed* type it leaves out nothing else.

1. What stands before the first bracket is a namespace and a base, which the last dot parts
   (`qualify_injective`).
2. After it come the arguments, then as many pairs of brackets as the type is an array; a pair has
   nothing inside, and an argument begins with something else (`argumentText_append_inj`).
3. So the full name of a type can be told from what follows it, if that is a comma or a closing
   bracket (`WellFormed.told`), and two types of one full name differ in their kinds at most
   (`full_names_tell_types`).
-/

namespace WrapperGen.TypeRef

open Text (Over Stops KeyTold)

/-! ## Well-formed types -/

/-- What type literals are made of outside of brackets. -/
def isNameChar (c : Char) : Bool := !([',', '[', ']'].contains c)

/-- What a declared name is made of before its arity mark. -/
def isBaseChar (c : Char) : Bool := !([arityMark, '<', '.', ',', '[', ']'].contains c)

/-- The name of a type that is declared with this many parameters. -/
def declaredName (base : String) : (arity : Nat) → String
  | 0 => base
  | n + 1 => base ++ arityMark.toString ++ toString (n + 1)

/-- A type as it is reflected: the mark in its name counts its arguments, and an array is made of
its element. -/
inductive WellFormed : TypeRef → Prop
  | declared {space : Option String} {base : String} {kind : TypeKind} {arguments : List TypeRef}
      (harray : kind ≠ .array) (hparameter : kind ≠ .genericParameter)
      (hspace : ∀ s ∈ space, s ≠ "" ∧ Over isNameChar s)
      (hbase : base ≠ "" ∧ Over isBaseChar base)
      (harguments : ∀ a ∈ arguments, WellFormed a) :
      WellFormed ⟨space, declaredName base arguments.length, kind, arguments⟩
  | array {element : TypeRef} (helement : WellFormed element) : WellFormed (array element)

mutual

/-- The type with every kind forgotten, but for what is an array. -/
def kindless : TypeRef → TypeRef
  | ⟨space, name, kind, arguments⟩ =>
    ⟨space, name, if kind = .array then .array else .reference, kindlessAll arguments⟩

/-- The types with every kind forgotten, but for what is an array. -/
def kindlessAll : List TypeRef → List TypeRef
  | [] => []
  | t :: ts => kindless t :: kindlessAll ts

end

theorem kindlessAll_eq_map (ts : List TypeRef) : kindlessAll ts = ts.map kindless := by
  induction ts with
  | nil => rfl
  | cons t ts ih => rw [kindlessAll, ih, List.map_cons]

theorem kindless_array (t : TypeRef) : (array t).kindless = array t.kindless := by
  obtain ⟨space, name, kind, arguments⟩ := t
  rfl

theorem kindless_declared {space : Option String} {name : String} {kind : TypeKind}
    {arguments : List TypeRef} (harray : kind ≠ .array) :
    kindless ⟨space, name, kind, arguments⟩ =
      ⟨space, name, .reference, arguments.map kindless⟩ := by
  rw [kindless, if_neg harray, kindlessAll_eq_map]

/-! ## Names before brackets -/

theorem over_isNameChar_of_isBaseChar {base : String} (h : Over isBaseChar base) :
    Over isNameChar base := by
  unfold Over at *
  rw [List.all_eq_true] at *
  intro c hc
  have hbase := h c hc
  simp only [isBaseChar, isNameChar, List.contains_cons, List.contains_nil, Bool.not_eq_true',
    Bool.or_eq_false_iff] at hbase ⊢
  exact hbase.2.2.2

theorem over_qualify {space : Option String} {base : String}
    (hspace : ∀ s ∈ space, s ≠ "" ∧ Over isNameChar s) (hbase : Over isBaseChar base) :
    Over isNameChar (qualify space base) := by
  cases space with
  | none => exact over_isNameChar_of_isBaseChar hbase
  | some s =>
    obtain ⟨hne, hs⟩ := hspace s rfl
    have hempty : ¬ s.isEmpty = true := by simpa using hne
    rw [qualify, if_neg hempty]
    exact (hs.append (by decide)).append (over_isNameChar_of_isBaseChar hbase)

theorem dot_notMem_of_over {base : String} (h : Over isBaseChar base) : '.' ∉ base.toList := by
  intro hmem
  have hdot := List.all_eq_true.1 h '.' hmem
  exact absurd hdot (by decide)

theorem toList_qualify_none (base : String) : (qualify none base).toList = base.toList := rfl

theorem toList_qualify_some {s base : String} (hs : s ≠ "") :
    (qualify (some s) base).toList = s.toList ++ '.' :: base.toList := by
  have hempty : ¬ s.isEmpty = true := by simpa using hs
  rw [qualify, if_neg hempty, String.toList_append, String.toList_append, List.append_assoc]
  rfl

/-- Two texts are cut alike by the last of a character. -/
theorem eq_and_eq_of_append_cons {c : Char} {l l' r r' : List Char} (hr : c ∉ r) (hr' : c ∉ r')
    (h : l ++ c :: r = l' ++ c :: r') : l = l' ∧ r = r' := by
  rcases List.append_eq_append_iff.1 h with ⟨mid, hl, hrest⟩ | ⟨mid, hl, hrest⟩
  · cases mid with
    | nil => exact ⟨by simpa using hl.symm, (List.cons.inj hrest).2⟩
    | cons d mid => exact absurd (by simp [(List.cons.inj hrest).2]) hr
  · cases mid with
    | nil => exact ⟨by simpa using hl, (List.cons.inj hrest).2.symm⟩
    | cons d mid => exact absurd (by simp [(List.cons.inj hrest).2]) hr'

/-- The last dot parts the namespace from the base. -/
theorem qualify_injective {space space' : Option String} {base base' : String}
    (hspace : ∀ s ∈ space, s ≠ "") (hspace' : ∀ s ∈ space', s ≠ "")
    (hbase : '.' ∉ base.toList) (hbase' : '.' ∉ base'.toList)
    (h : qualify space base = qualify space' base') : space = space' ∧ base = base' := by
  cases space with
  | none =>
    cases space' with
    | none => exact ⟨rfl, h⟩
    | some s' =>
      have hdot := congrArg ('.' ∈ ·.toList) h
      simp [toList_qualify_some (hspace' s' rfl), toList_qualify_none, hbase] at hdot
  | some s =>
    cases space' with
    | none =>
      have hdot := congrArg ('.' ∈ ·.toList) h
      simp [toList_qualify_some (hspace s rfl), toList_qualify_none, hbase'] at hdot
    | some s' =>
      have hchars := congrArg String.toList h
      rw [toList_qualify_some (hspace s rfl), toList_qualify_some (hspace' s' rfl)] at hchars
      obtain ⟨hs, hb⟩ := eq_and_eq_of_append_cons hbase hbase' hchars
      exact ⟨congrArg some (String.toList_injective hs), String.toList_injective hb⟩

/-! ## Labels of well-formed types -/

theorem toList_declaredName_succ (base : String) (n : Nat) :
    (declaredName base (n + 1)).toList =
      base.toList ++ arityMark :: (toString (n + 1)).toList := by
  rw [declaredName, String.toList_append, String.toList_append, List.append_assoc]
  rfl

theorem ne_of_mem_of_over {base : String} (h : Over isBaseChar base) {sign : Char}
    (hsign : isBaseChar sign = false) {c : Char} (hc : c ∈ base.toList) : c ≠ sign := by
  rintro rfl
  exact Bool.eq_false_iff.1 hsign (List.all_eq_true.1 h c hc)

theorem baseName_declaredName {base : String} (h : Over isBaseChar base) (arity : Nat) :
    baseName (declaredName base arity) = base := by
  have hbase : arityMark ∉ base.toList := fun hmem => ne_of_mem_of_over h (by decide) hmem rfl
  cases arity with
  | zero => rw [declaredName, baseName, Text.takeWhile_of_unmarked hbase, String.ofList_toList]
  | succ n =>
    rw [baseName, toList_declaredName_succ, Text.takeWhile_append_mark hbase, String.ofList_toList]

theorem bracket_notMem_declaredName {base : String} (h : Over isBaseChar base) (arity : Nat) :
    '<' ∉ (declaredName base arity).toList := by
  have hbase : '<' ∉ base.toList := fun hmem => ne_of_mem_of_over h (by decide) hmem rfl
  cases arity with
  | zero => exact hbase
  | succ n =>
    have hdigits : '<' ∉ (toString (n + 1)).toList := fun hmem =>
      absurd (List.all_eq_true.1 (Text.over_isDigit_toString (n + 1)) _ hmem) (by decide)
    rw [toList_declaredName_succ, List.mem_append, List.mem_cons, not_or, not_or]
    exact ⟨hbase, by decide, hdigits⟩

theorem declaredName_ne_empty {base : String} (h : base ≠ "") (arity : Nat) :
    declaredName base arity ≠ "" := by
  cases arity with
  | zero => exact h
  | succ n => simp [declaredName]

theorem WellFormed.nameable {t : TypeRef} (h : t.WellFormed) : t.Nameable := by
  induction h with
  | declared harray hparameter _ hbase _ ih =>
    exact .declared harray hparameter (declaredName_ne_empty hbase.1 _)
      (bracket_notMem_declaredName hbase.2 _) ih
  | array _ ih => exact .array ih

/-- The full name of a well-formed type is its label. -/
theorem WellFormed.fullName?_eq {t : TypeRef} (h : t.WellFormed) : t.fullName? = some t.label := by
  obtain ⟨name, hname⟩ := Option.isSome_iff_exists.1 (isSome_fullName?_iff.2 h.nameable)
  simp only [label, hname]

theorem fullNames?_eq {ts : List TypeRef} (h : ∀ t ∈ ts, t.WellFormed) :
    fullNames? ts = some (ts.map label) := by
  induction ts with
  | nil => rfl
  | cons t ts ih =>
    rw [List.forall_mem_cons] at h
    rw [fullNames?, h.1.fullName?_eq, ih h.2, List.map_cons]

theorem label_array {t : TypeRef} (h : t.WellFormed) : (array t).label = t.label ++ "[]" := by
  have hname : (array t).fullName? = some (t.label ++ "[]") := by
    rw [array, fullName?, h.fullName?_eq, Option.map_some]
  simp only [label, hname]

/-- The arguments of a type as its full name tells them. -/
def argumentText : (names : List String) → String
  | [] => ""
  | n :: names => "[" ++ (n ++ Text.otherItems "," "]" names)

theorem label_declared {space : Option String} {base : String} {kind : TypeKind}
    {arguments : List TypeRef} (harray : kind ≠ .array) (hparameter : kind ≠ .genericParameter)
    (hbase : base ≠ "" ∧ Over isBaseChar base) (harguments : ∀ a ∈ arguments, a.WellFormed) :
    label ⟨space, declaredName base arguments.length, kind, arguments⟩ =
      qualify space base ++ argumentText (arguments.map label) := by
  have hresolvable : hasResolvableName kind (declaredName base arguments.length) = true :=
    hasResolvableName_iff.2 ⟨hparameter, declaredName_ne_empty hbase.1 _,
      bracket_notMem_declaredName hbase.2 _⟩
  have hname : fullName? ⟨space, declaredName base arguments.length, kind, arguments⟩ =
      some (qualify space base ++ argumentText (arguments.map label)) := by
    cases arguments with
    | nil =>
      rw [fullName?, if_pos hresolvable, baseName_declaredName hbase.2, List.map_nil,
        argumentText, String.append_empty]
      exact harray
    | cons a others =>
      rw [List.forall_mem_cons] at harguments
      rw [fullName?, if_pos hresolvable, harguments.1.fullName?_eq,
        fullNames?_eq harguments.2, baseName_declaredName hbase.2, List.map_cons, argumentText,
        ← Text.intercalate_cons_append_close]
      · simp only [String.append_assoc]
      · exact harray
  simp only [label, hname]

/-! ## Where a label ends -/

/-- What follows an argument begins with another one. -/
def isArgumentChar (c : Char) : Bool := c != ',' && c != ']'

/-- The text begins with what may follow an argument. -/
def EndsArgument (text : String) : Prop := Stops isArgumentChar text

instance (text : String) : Decidable (EndsArgument text) :=
  inferInstanceAs (Decidable (Stops _ text))

/-- The array of the array, and so on, of a type. -/
def arrays : Nat → TypeRef → TypeRef
  | 0, t => t
  | n + 1, t => arrays n (array t)

def arrayMarks : Nat → String
  | 0 => ""
  | n + 1 => "[]" ++ arrayMarks n

theorem kindless_arrays (n : Nat) (t : TypeRef) : (arrays n t).kindless = arrays n t.kindless := by
  induction n generalizing t with
  | zero => rfl
  | succ n ih => rw [arrays, ih, kindless_array, arrays]

theorem EndsArgument.ne_open {x : String} (h : EndsArgument x) (y : String) : x ≠ "[" ++ y :=
  Stops.ne h (Stops.append (by decide) y)

theorem arrayMarks_succ_append (n : Nat) (x : String) :
    arrayMarks (n + 1) ++ x = "[" ++ ("]" ++ (arrayMarks n ++ x)) := by
  have hpair : "[]" = "[" ++ "]" := by decide
  rw [arrayMarks, hpair, String.append_assoc, String.append_assoc]

/-- The brackets of an array are one pair more after its element. -/
theorem label_array_append {t : TypeRef} (h : t.WellFormed) (n : Nat) (x : String) :
    (array t).label ++ (arrayMarks n ++ x) = t.label ++ (arrayMarks (n + 1) ++ x) := by
  rw [label_array h, arrayMarks, String.append_assoc, String.append_assoc]

theorem arrayMarks_append_inj {m n : Nat} {x y : String} (hx : EndsArgument x)
    (hy : EndsArgument y) (h : arrayMarks m ++ x = arrayMarks n ++ y) : m = n ∧ x = y := by
  induction m generalizing n with
  | zero =>
    cases n with
    | zero => exact ⟨rfl, (String.append_right_inj _).1 h⟩
    | succ n =>
      rw [arrayMarks, String.empty_append, arrayMarks_succ_append] at h
      exact absurd h (hx.ne_open _)
  | succ m ih =>
    cases n with
    | zero =>
      rw [arrayMarks, String.empty_append, arrayMarks_succ_append] at h
      exact absurd h.symm (hy.ne_open _)
    | succ n =>
      rw [arrayMarks_succ_append, arrayMarks_succ_append, String.append_right_inj,
        String.append_right_inj] at h
      obtain ⟨rfl, hxy⟩ := ih h
      exact ⟨rfl, hxy⟩

/-- Nothing inside of brackets begins like a closing bracket. -/
theorem starts_label {t : TypeRef} (h : t.WellFormed) :
    Stops (fun c => !isNameChar c) t.label := by
  induction h with
  | @declared space base _ arguments harray hparameter hspace hbase harguments _ =>
    rw [label_declared harray hparameter hbase harguments]
    have hne : qualify space base ≠ "" := by
      intro hempty
      have hchars := congrArg String.toList hempty
      cases space with
      | none => exact hbase.1 (String.toList_injective hchars)
      | some s =>
        rw [toList_qualify_some (hspace s rfl).1] at hchars
        simp at hchars
    exact ((over_qualify hspace hbase.2).stops_not hne).append _
  | array helement ih =>
    rw [label_array helement]
    exact ih.append _

theorem stops_argumentText (names : List String) (n : Nat) {x : String} (hx : EndsArgument x) :
    Stops isNameChar (argumentText names ++ (arrayMarks n ++ x)) := by
  cases names with
  | nil =>
    rw [argumentText, String.empty_append]
    cases n with
    | zero =>
      rw [arrayMarks, String.empty_append]
      refine Stops.mono (fun c hc => ?_) hx
      simp only [isNameChar, List.contains_cons, List.contains_nil, Bool.not_eq_true',
        Bool.or_eq_false_iff] at hc
      simp [isArgumentChar, bne, hc.1, hc.2.2.1]
    | succ n =>
      rw [arrayMarks_succ_append]
      exact Stops.append (by decide) _
  | cons m names =>
    rw [argumentText, String.append_assoc]
    exact Stops.append (by decide) _

/-! ## Types told from what follows their labels -/

/-- The label of the type, with pairs of brackets after it, tells all but kinds. -/
def Told (s : TypeRef) : Prop :=
  ∀ ⦃t : TypeRef⦄, t.WellFormed → ∀ ⦃m n : Nat⦄ ⦃x y : String⦄, EndsArgument x → EndsArgument y →
    s.label ++ (arrayMarks m ++ x) = t.label ++ (arrayMarks n ++ y) →
      (arrays m s).kindless = (arrays n t).kindless ∧ x = y

/-- With no brackets after the labels, the label alone tells it. -/
theorem Told.keyTold {s t : TypeRef} (hs : s.Told) (ht : t.WellFormed) :
    KeyTold isArgumentChar label kindless s t := by
  intro x y hx hy h
  exact hs ht (m := 0) (n := 0) hx hy (by simpa only [arrayMarks, String.empty_append] using h)

theorem argumentText_append_inj {as bs : List TypeRef} (has : ∀ a ∈ as, a.WellFormed ∧ a.Told)
    (hbs : ∀ b ∈ bs, b.WellFormed) {m n : Nat} {x y : String} (hx : EndsArgument x)
    (hy : EndsArgument y)
    (h : argumentText (as.map label) ++ (arrayMarks m ++ x) =
      argumentText (bs.map label) ++ (arrayMarks n ++ y)) :
    as.map kindless = bs.map kindless ∧ m = n ∧ x = y := by
  -- an opening bracket that is not closed at once is that of arguments
  have hpair : ∀ {a : TypeRef} {names : List String} {k : Nat} {z w : String}, a.WellFormed →
      EndsArgument w → argumentText (a.label :: names) ++ z ≠ arrayMarks k ++ w := by
    intro a names k z w ha hw heq
    rw [argumentText, String.append_assoc, String.append_assoc] at heq
    cases k with
    | zero =>
      rw [arrayMarks, String.empty_append] at heq
      exact hw.ne_open _ heq.symm
    | succ k =>
      rw [arrayMarks_succ_append, String.append_right_inj] at heq
      exact Stops.ne (Stops.append (by decide) _) ((starts_label ha).append _) heq.symm
  cases as with
  | nil =>
    cases bs with
    | nil =>
      obtain ⟨rfl, hxy⟩ := arrayMarks_append_inj hx hy ((String.append_right_inj _).1 h)
      exact ⟨rfl, rfl, hxy⟩
    | cons b bs =>
      rw [List.map_nil, argumentText, String.empty_append] at h
      exact absurd h.symm (hpair (hbs b List.mem_cons_self) hx)
  | cons a as =>
    cases bs with
    | nil =>
      have heq : argumentText (a.label :: as.map label) ++ (arrayMarks m ++ x) =
          arrayMarks n ++ y := h.trans String.empty_append
      exact absurd heq (hpair (has a List.mem_cons_self).1 hy)
    | cons b bs =>
      have htold : ∀ c ∈ a :: as, ∀ d ∈ b :: bs, KeyTold isArgumentChar label kindless c d :=
        fun c hc d hd => (has c hc).2.keyTold (hbs d hd)
      simp only [List.map_cons, argumentText, String.append_assoc, String.append_right_inj] at h
      obtain ⟨hkeys, hmarks⟩ :=
        Text.items_append_inj (by decide) (by decide) (by decide) htold h
      obtain ⟨rfl, hxy⟩ := arrayMarks_append_inj hx hy hmarks
      exact ⟨hkeys, rfl, hxy⟩

theorem told_declared {space : Option String} {base : String} {kind : TypeKind}
    {arguments : List TypeRef} (harray : kind ≠ .array) (hparameter : kind ≠ .genericParameter)
    (hspace : ∀ s ∈ space, s ≠ "" ∧ Over isNameChar s) (hbase : base ≠ "" ∧ Over isBaseChar base)
    (harguments : ∀ a ∈ arguments, a.WellFormed ∧ a.Told) :
    Told ⟨space, declaredName base arguments.length, kind, arguments⟩ := by
  intro t ht m n x y hx hy h
  rw [label_declared harray hparameter hbase fun a ha => (harguments a ha).1] at h
  induction ht generalizing n with
  | @declared space' base' kind' arguments' harray' hparameter' hspace' hbase' harguments' _ =>
    rw [label_declared harray' hparameter' hbase' harguments', String.append_assoc,
      String.append_assoc] at h
    obtain ⟨hname, hrest⟩ := Text.eq_and_eq_of_append_eq (over_qualify hspace hbase.2)
      (over_qualify hspace' hbase'.2) (stops_argumentText _ m hx) (stops_argumentText _ n hy) h
    obtain ⟨rfl, rfl⟩ := qualify_injective (fun s hs => (hspace s hs).1)
      (fun s hs => (hspace' s hs).1) (dot_notMem_of_over hbase.2) (dot_notMem_of_over hbase'.2)
      hname
    obtain ⟨hmap, rfl, hxy⟩ := argumentText_append_inj harguments harguments' hx hy hrest
    have hlength : arguments.length = arguments'.length := by
      simpa using congrArg List.length hmap
    refine ⟨?_, hxy⟩
    rw [kindless_arrays, kindless_arrays, kindless_declared harray, kindless_declared harray',
      hmap, hlength]
  | array helement ih =>
    rw [label_array_append helement] at h
    exact ih h

theorem WellFormed.told {s : TypeRef} (hs : s.WellFormed) : s.Told := by
  induction hs with
  | declared harray hparameter hspace hbase harguments ih =>
    exact told_declared harray hparameter hspace hbase fun a ha => ⟨harguments a ha, ih a ha⟩
  | array helement ih =>
    intro t ht m n x y hx hy h
    rw [label_array_append helement] at h
    exact ih ht (m := m + 1) hx hy h

/-! ## Types of one full name -/

theorem WellFormed.kindless {t : TypeRef} (h : t.WellFormed) : t.kindless.WellFormed := by
  induction h with
  | @declared space base _ arguments harray hparameter hspace hbase _ ih =>
    rw [kindless_declared harray, ← List.length_map TypeRef.kindless]
    refine .declared (by decide) (by decide) hspace hbase ?_
    intro a' ha'
    obtain ⟨a, ha, rfl⟩ := List.mem_map.1 ha'
    exact ih a ha
  | array _ ih =>
    rw [kindless_array]
    exact .array ih

/-- Kinds make no difference to the full name. -/
theorem label_kindless {t : TypeRef} (h : t.WellFormed) : t.kindless.label = t.label := by
  induction h with
  | @declared space base _ arguments harray hparameter hspace hbase harguments ih =>
    have hlabels : (arguments.map TypeRef.kindless).map label = arguments.map label := by
      rw [List.map_map]
      exact List.map_congr_left ih
    have hwell : ∀ a ∈ arguments.map TypeRef.kindless, a.WellFormed := by
      intro a' ha'
      obtain ⟨a, ha, rfl⟩ := List.mem_map.1 ha'
      exact (harguments a ha).kindless
    rw [label_declared harray hparameter hbase harguments, kindless_declared harray,
      ← List.length_map TypeRef.kindless, label_declared (by decide) (by decide) hbase hwell,
      hlabels]
  | array helement ih =>
    rw [kindless_array, label_array helement.kindless, label_array helement, ih]

/-- **Full names tell types up to their kinds.** Two well-formed types have full names, and the same
one exactly when they are the same type but for the kinds of what is no array. So where a registry
takes two types for different ones, kinds aside, their literals differ. -/
theorem full_names_tell_types {s t : TypeRef} (hs : s.WellFormed) (ht : t.WellFormed) :
    s.fullName?.isSome = true ∧ t.fullName?.isSome = true ∧
      (s.fullName? = t.fullName? ↔ s.kindless = t.kindless) ∧
      ∀ r : TypeRegistry, ((r.add s.kindless).2.add t.kindless).1 = true →
        s.fullName? ≠ t.fullName? := by
  have htold : s.fullName? = t.fullName? → s.kindless = t.kindless := by
    intro h
    rw [hs.fullName?_eq, ht.fullName?_eq, Option.some.injEq] at h
    have hends : EndsArgument "]" := by decide
    exact (hs.told.keyTold ht hends hends (congrArg (· ++ "]") h)).1
  refine ⟨isSome_fullName?_iff.2 hs.nameable, isSome_fullName?_iff.2 ht.nameable, ⟨htold, ?_⟩, ?_⟩
  · intro h
    rw [hs.fullName?_eq, ht.fullName?_eq, ← label_kindless hs, h, label_kindless ht]
  · intro r hnew hname
    rw [htold hname, TypeRegistry.add_of_mem (r.mem_add_self _)] at hnew
    exact Bool.false_ne_true hnew

/-- Slots by the names of their racks, of one kind or another. -/
def slotsByRack (kind : TypeKind) : TypeRef :=
  array (generic "System.Collections.Generic" "Dictionary`2"
    [plain "System" "String" .reference, array (array ⟨none, "Slot", kind, []⟩)])

theorem wellFormed_slotsByRack {kind : TypeKind} (harray : kind ≠ .array)
    (hparameter : kind ≠ .genericParameter) : (slotsByRack kind).WellFormed := by
  have hslot := @WellFormed.declared none "Slot" kind [] harray hparameter (by simp) (by decide)
    (by simp)
  have hstring := @WellFormed.declared (some "System") "String" .reference [] (by decide)
    (by decide) (by decide) (by decide) (by simp)
  have htable := @WellFormed.declared (some "System.Collections.Generic") "Dictionary" .reference
    [plain "System" "String" .reference, array (array ⟨none, "Slot", kind, []⟩)] (by decide)
    (by decide) (by decide) (by decide) ?_
  · have hname : "Dictionary`2" = declaredName "Dictionary" 2 := by decide
    rw [slotsByRack, generic, hname]
    exact htable.array
  · intro a ha
    rcases List.mem_cons.1 ha with rfl | ha
    · exact hstring
    · rw [List.mem_singleton.1 ha]
      exact hslot.array.array

/-- The kind of slots is not told, but whether there are lists of them is. -/
theorem full_names_tell_types_slotsByRack :
    (slotsByRack .value).WellFormed ∧ (slotsByRack .enumeration).WellFormed ∧
      (slotsByRack .value).fullName? =
        some "System.Collections.Generic.Dictionary[System.String,Slot[][]][]" ∧
      (slotsByRack .value).fullName? = (slotsByRack .enumeration).fullName? ∧
      (slotsByRack .value).fullName? ≠ (array (slotsByRack .value)).fullName? := by
  have hvalue : (slotsByRack .value).WellFormed := wellFormed_slotsByRack (by decide) (by decide)
  have hother : (slotsByRack .enumeration).WellFormed :=
    wellFormed_slotsByRack (by decide) (by decide)
  refine ⟨hvalue, hother, by decide, ?_, ?_⟩
  · exact (full_names_tell_types hvalue hother).2.2.1.2 (by decide)
  · exact (full_names_tell_types hvalue hvalue.array).2.2.2 .empty (by decide)

end WrapperGen.TypeRef
