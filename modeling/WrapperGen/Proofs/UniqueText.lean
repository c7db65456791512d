import WrapperGen.Proofs.FunctionText
import WrapperGen.Text.Delimited
/-!
# Functions told by their texts

Where names are made of letters, and types of letters and the signs of type literals, the text of a
function tells everything about the function but what it is for.

1. The attribute of a parameter tells its place, and its lines tell the parameter and whether it is
   the last (`parameterAttribute_append_inj`, `delimited_parameterText`).
2. What follows the first word of a line tells its form (`formMark_line`), and then the words in it
   are found one after another (`delimited_statementText`).
3. The texts of the parameters, and those of the statements, stand in rows, which end visibly
   (`parameterTexts_append_inj`, `functions_told_by_texts`).
-/

namespace WrapperGen

open Text (Over Stops Apart Delimited KeyTold)

/-! ## Plain names and types -/

/-- Letters, digits and underscores. Characters outside ASCII count as letters. -/
def isWordChar (c : Char) : Bool := c.isAlphanum || c == '_' || 127 < c.toNat

/-- A name without any other character; an identifier is one. -/
def IsWord (name : String) : Prop := Over isWordChar name

/-- The characters of function names. -/
def isFunctionNameChar (c : Char) : Bool := isWordChar c || c == '-'

/-- The characters of type literals. -/
def isTypeChar (c : Char) : Bool := isWordChar c || ['.', '+', ',', '[', ']'].contains c

/-- A text that can stand for a type. -/
@[mk_iff]
structure IsTypeLiteral (name : String) : Prop where
  ne_empty : name ≠ ""
  chars : Over isTypeChar name

@[mk_iff]
structure ParameterSpec.IsPlain (p : ParameterSpec) : Prop where
  name : IsWord p.name
  type : ∀ t ∈ p.typeName, IsTypeLiteral t

def ConstructionPath.IsPlain : ConstructionPath → Prop
  | .defaultConstructor => True
  | .factory method => IsWord method

def Statement.IsPlain : Statement → Prop
  | .construct object typeName path => IsWord object ∧ IsTypeLiteral typeName ∧ path.IsPlain
  | .assign parameter object property => IsWord parameter ∧ IsWord object ∧ IsWord property
  | .invoke target method arguments =>
    IsWord target ∧ IsWord method ∧ ∀ a ∈ arguments, IsWord a
  | .emit object => IsWord object

/-- All names and types in the function are plain. -/
@[mk_iff]
structure FunctionSpec.IsPlain (f : FunctionSpec) : Prop where
  name : Over isFunctionNameChar f.name
  outputType : ∀ t ∈ f.outputType, IsTypeLiteral t
  parameters : ∀ p ∈ f.parameters, p.IsPlain
  body : ∀ s ∈ f.body, s.IsPlain

instance (name : String) : Decidable (IsWord name) := inferInstanceAs (Decidable (Over _ _))

instance (name : String) : Decidable (IsTypeLiteral name) :=
  decidable_of_iff _ (isTypeLiteral_iff name).symm

instance (p : ParameterSpec) : Decidable p.IsPlain :=
  decidable_of_iff _ (ParameterSpec.isPlain_iff p).symm

instance : (path : ConstructionPath) → Decidable path.IsPlain
  | .defaultConstructor => inferInstanceAs (Decidable True)
  | .factory method => inferInstanceAs (Decidable (IsWord method))

instance : (s : Statement) → Decidable s.IsPlain
  | .construct .. => inferInstanceAs (Decidable (_ ∧ _ ∧ _))
  | .assign .. => inferInstanceAs (Decidable (_ ∧ _ ∧ _))
  | .invoke .. => inferInstanceAs (Decidable (_ ∧ _ ∧ _))
  | .emit object => inferInstanceAs (Decidable (IsWord object))

instance (f : FunctionSpec) : Decidable f.IsPlain :=
  decidable_of_iff _ (FunctionSpec.isPlain_iff f).symm

namespace PowerShell

/-! ## Words between texts -/

/-- A word is told from the text that follows it. -/
theorem word_append_inj {v w s t x y : String} (hv : IsWord v) (hw : IsWord w)
    (hs : Stops isWordChar s) (ht : Stops isWordChar t) (h : v ++ (s ++ x) = w ++ (t ++ y)) :
    v = w ∧ s ++ x = t ++ y :=
  Text.eq_and_eq_of_append_eq hv hw (hs.append x) (ht.append y) h

/-! ## Parameters -/

theorem parameterAttribute_append_inj {p q : ParameterSpec} {x y : String}
    (h : parameterAttribute p ++ x = parameterAttribute q ++ y) :
    p.required = q.required ∧ p.position = q.position ∧ x = y := by
  have hposition : ∀ {x y : String}, toString p.position ++ (")]" ++ x) =
      toString q.position ++ (")]" ++ y) → p.position = q.position ∧ x = y := by
    intro x y h
    obtain ⟨hnumber, hrest⟩ := Text.eq_and_eq_of_append_eq (Text.over_isDigit_toString _)
      (Text.over_isDigit_toString _) (Stops.append (by decide) x) (Stops.append (by decide) y) h
    exact ⟨Text.toString_nat_injective hnumber, (String.append_right_inj _).1 hrest⟩
  unfold parameterAttribute at h
  cases hp : p.required <;> cases hq : q.required <;>
    simp only [hp, hq, if_true, Bool.false_eq_true, if_false, String.append_assoc] at h
  · exact ⟨rfl, hposition ((String.append_right_inj _).1 h)⟩
  · exact absurd h (Text.append_ne_append (by decide) _ _)
  · exact absurd h (Text.append_ne_append (by decide) _ _)
  · exact ⟨rfl, hposition ((String.append_right_inj _).1 h)⟩

/-- A line about a type is told from the text that follows it, which begins in another way. -/
theorem typeLine_append_inj {before after close x y : String} (hafter : ¬ Over isTypeChar after)
    (hclose : Apart before close)
    {s t : Option String} (hs : ∀ n ∈ s, IsTypeLiteral n) (ht : ∀ n ∈ t, IsTypeLiteral n)
    (h : typeLine before after s ++ (close ++ x) = typeLine before after t ++ (close ++ y)) :
    s = t ∧ x = y := by
  have hwritten : ∀ {n : String}, IsTypeLiteral n → typeLine before after (some n) =
      before ++ (n ++ after) := by
    intro n hn
    have hempty : ¬ n.isEmpty = true := by simpa using hn.ne_empty
    rw [typeLine, if_neg hempty]
    simp only [String.join_cons, String.join_nil, String.append_empty]
  cases s with
  | none =>
    cases t with
    | none => exact ⟨rfl, (String.append_right_inj close).1 ((String.append_right_inj _).1 h)⟩
    | some n =>
      rw [hwritten (ht n rfl), String.append_assoc] at h
      simp only [typeLine, String.empty_append] at h
      exact absurd h (Text.append_ne_append hclose.symm _ _)
  | some m =>
    cases t with
    | none =>
      rw [hwritten (hs m rfl), String.append_assoc] at h
      simp only [typeLine, String.empty_append] at h
      exact absurd h (Text.append_ne_append hclose _ _)
    | some n =>
      rw [hwritten (hs m rfl), hwritten (ht n rfl)] at h
      simp only [String.append_assoc, String.append_right_inj] at h
      obtain ⟨rfl, hrest⟩ :=
        Text.eq_and_eq_of_append_same (hs m rfl).chars (ht n rfl).chars hafter h
      exact ⟨rfl, (String.append_right_inj close).1 hrest⟩

/-- The lines of a parameter tell the parameter, and whether it is the last. -/
theorem delimited_parameterText : Delimited (fun d : Bool × ParameterSpec => d.2.IsPlain)
    (fun d => parameterText d.1 d.2) := by
  rintro ⟨l, p⟩ ⟨l', q⟩ hp hq x y h
  simp only [parameterText, String.join_cons, String.join_nil, String.append_empty,
    String.append_assoc, String.append_right_inj] at h
  obtain ⟨hrequired, hposition, h⟩ := parameterAttribute_append_inj h
  obtain ⟨htype, h⟩ := typeLine_append_inj (by decide) (by decide) hp.type hq.type
    ((String.append_right_inj _).1 h)
  -- a comma ends the name, or the line does
  have hends : p.name = q.name ∧ l = l' ∧ x = y := by
    cases l <;> cases l' <;>
      simp only [if_true, Bool.false_eq_true, if_false, String.empty_append] at h
    · obtain ⟨hname, h⟩ := Text.eq_and_eq_of_append_same hp.name hq.name (by decide) h
      exact ⟨hname, rfl, (String.append_right_inj _).1 h⟩
    · obtain ⟨-, h⟩ := word_append_inj hp.name hq.name (by decide) (by decide) h
      exact absurd h (Text.append_ne_append (by decide) _ _)
    · obtain ⟨-, h⟩ := word_append_inj hp.name hq.name (by decide) (by decide) h
      exact absurd h (Text.append_ne_append (by decide) _ _)
    · obtain ⟨hname, h⟩ := Text.eq_and_eq_of_append_same hp.name hq.name (by decide) h
      exact ⟨hname, rfl, h⟩
  obtain ⟨hname, rfl, rfl⟩ := hends
  obtain ⟨n, t, r, i⟩ := p
  obtain ⟨n', t', r', i'⟩ := q
  simp only at hname htype hrequired hposition
  subst hname htype hrequired hposition
  exact ⟨rfl, rfl⟩

/-! ## Statements -/

/-- What follows the first word of a line, but for blanks and the sign of an assignment. -/
def formMark? (text : String) : Option Char :=
  ((text.toList.drop 1).dropWhile isWordChar).find? fun c => c != ' ' && c != '='

/-- The mark of the form of a statement. -/
def formMark : Statement → Char
  | .construct _ _ .defaultConstructor => 'N'
  | .construct _ _ (.factory _) => '['
  | .assign .. => '('
  | .invoke .. => '.'
  | .emit _ => '\n'

theorem formMark?_append {first v s : String} {mark : Char} (hfirst : first.toList.length = 1)
    (hv : IsWord v) (hs : Stops isWordChar s)
    (hmark : s.toList.find? (fun c => c != ' ' && c != '=') = some mark) (x : String) :
    formMark? (first ++ (v ++ (s ++ x))) = some mark := by
  have hdrop : (first ++ (v ++ (s ++ x))).toList.drop 1 = (v ++ (s ++ x)).toList := by
    rw [String.toList_append, ← hfirst, List.drop_left]
  unfold formMark?
  rw [hdrop, Text.dropWhile_append_of_stops hv (hs.append x), String.toList_append,
    List.find?_append, hmark]
  rfl

/-- The text of a line, word by word. -/
theorem line_construct_default (object typeName : String) :
    line (.construct object typeName .defaultConstructor) =
      "$" ++ (object ++ (" = New-Object -TypeName \"" ++ (typeName ++ "\""))) := by
  show "$" ++ object ++ " = New-Object -TypeName \"" ++ typeName ++ "\"" = _
  simp only [String.append_assoc]

theorem line_construct_factory (object typeName method : String) :
    line (.construct object typeName (.factory method)) =
      "$" ++ (object ++ (" = [" ++ (typeName ++ ("]::" ++ (method ++ "()"))))) := by
  show "$" ++ object ++ " = [" ++ typeName ++ "]::" ++ method ++ "()" = _
  simp only [String.append_assoc]

theorem line_assign (parameter object property : String) :
    line (.assign parameter object property) =
      "i" ++ ("f" ++ (" ($PSBoundParameters.ContainsKey('" ++ (parameter ++ ("')) \x7b $" ++
        (object ++ ("." ++ (property ++ (" = $" ++ (parameter ++ " \x7d"))))))))) := by
  have hif : "if ($PSBoundParameters.ContainsKey('" =
      "i" ++ ("f" ++ " ($PSBoundParameters.ContainsKey('") := by decide
  have hbrace : "')) \x7b $" = "')) \x7b " ++ "$" := by decide
  have hsign : " = $" = " = " ++ "$" := by decide
  show "if ($PSBoundParameters.ContainsKey('" ++ parameter ++ "')) \x7b " ++ ("$" ++ object) ++
    "." ++ property ++ " = " ++ ("$" ++ parameter) ++ " \x7d" = _
  simp only [hif, hbrace, hsign, String.append_assoc]

theorem line_invoke (target method : String) (arguments : List String) :
    line (.invoke target method arguments) =
      "$" ++ (target ++ ("." ++ (method ++ ("(" ++
        (", ".intercalate (arguments.map reference) ++ ")"))))) := by
  show "$" ++ target ++ "." ++ method ++ "(" ++ ", ".intercalate (arguments.map reference) ++
    ")" = _
  simp only [String.append_assoc]

theorem line_emit (object : String) : line (.emit object) = "$" ++ object := rfl

/-- A line tells the form of its statement. -/
theorem formMark_line {s : Statement} (hs : s.IsPlain) (x : String) :
    formMark? (line s ++ ("\n" ++ x)) = some (formMark s) := by
  cases s with
  | construct object typeName path =>
    cases path with
    | defaultConstructor =>
      show _ = some 'N'
      simp only [line_construct_default, String.append_assoc]
      exact formMark?_append (by decide) hs.1 (by decide) (by decide) _
    | factory method =>
      show _ = some '['
      simp only [line_construct_factory, String.append_assoc]
      exact formMark?_append (by decide) hs.1 (by decide) (by decide) _
  | assign parameter object property =>
    show _ = some '('
    simp only [line_assign, String.append_assoc]
    exact formMark?_append (by decide) (by decide : Over isWordChar "f") (by decide) (by decide) _
  | invoke target method arguments =>
    show _ = some '.'
    simp only [line_invoke, String.append_assoc]
    exact formMark?_append (by decide) hs.1 (by decide) (by decide) _
  | emit object =>
    show _ = some '\n'
    simp only [line_emit, String.append_assoc]
    exact formMark?_append (by decide) hs (by decide) (by decide) _

theorem keyTold_reference {a b : String} (ha : IsWord a) (hb : IsWord b) :
    KeyTold isWordChar reference id a b := by
  intro x y hx hy h
  simp only [reference, String.append_assoc, String.append_right_inj] at h
  exact Text.eq_and_eq_of_append_eq ha hb hx hy h

/-- The arguments of a call are told, and what is behind the parenthesis that closes them. -/
theorem arguments_append_inj {names names' : List String} (hnames : ∀ a ∈ names, IsWord a)
    (hnames' : ∀ a ∈ names', IsWord a) {x y : String}
    (h : ", ".intercalate (names.map reference) ++ (")" ++ x) =
      ", ".intercalate (names'.map reference) ++ (")" ++ y)) : names = names' ∧ x = y := by
  -- an argument begins with its sign, and the parenthesis does not
  have hclose : ∀ {a : String} {names : List String} {x y : String},
      ", ".intercalate ((a :: names).map reference) ++ ")" ++ x ≠ ")" ++ y := by
    intro a names x y
    rw [List.map_cons, Text.intercalate_cons_append_close, reference, String.append_assoc,
      String.append_assoc]
    exact Text.append_ne_append (by decide) _ _
  rw [← String.append_assoc, ← String.append_assoc] at h
  cases names with
  | nil =>
    cases names' with
    | nil => exact ⟨rfl, (String.append_right_inj _).1 h⟩
    | cons b names' => exact absurd h.symm hclose
  | cons a names =>
    cases names' with
    | nil => exact absurd h hclose
    | cons b names' =>
      have htold : ∀ c ∈ a :: names, ∀ d ∈ b :: names', KeyTold isWordChar reference id c d :=
        fun c hc d hd => keyTold_reference (hnames c hc) (hnames' d hd)
      simp only [List.map_cons, Text.intercalate_cons_append_close, String.append_assoc] at h
      simpa only [List.map_id] using
        Text.items_append_inj (by decide) (by decide) (by decide) htold h

/-- The line of a statement tells the statement. -/
theorem delimited_statementText : Delimited Statement.IsPlain statementText := by
  intro s t hs ht x y h
  simp only [statementText, String.join_cons, String.join_nil, String.append_empty,
    String.append_assoc, String.append_right_inj] at h
  have hform : formMark s = formMark t := by
    have hmarks := congrArg formMark? h
    rw [formMark_line hs, formMark_line ht] at hmarks
    exact Option.some.inj hmarks
  rcases s with ⟨o, n, _ | m⟩ | ⟨p, o, q⟩ | ⟨o, m, l⟩ | o <;>
    rcases t with ⟨o', n', _ | m'⟩ | ⟨p', o', q'⟩ | ⟨o', m', l'⟩ | o' <;>
    -- different forms have different marks, so that what is left are two lines of one form
    try (refine absurd hform ?_; simp [formMark]; done)
  · simp only [line_construct_default, String.append_assoc, String.append_right_inj] at h
    obtain ⟨ho, hafter⟩ := Text.eq_and_eq_of_append_same hs.1 ht.1 (by decide) h
    obtain ⟨hn, hend⟩ := Text.eq_and_eq_of_append_same hs.2.1.chars ht.2.1.chars (by decide) hafter
    subst ho hn
    exact ⟨rfl, (String.append_right_inj _).1 hend⟩
  · simp only [line_construct_factory, String.append_assoc, String.append_right_inj] at h
    obtain ⟨ho, hafter⟩ := Text.eq_and_eq_of_append_same hs.1 ht.1 (by decide) h
    obtain ⟨hn, hcall⟩ := Text.eq_and_eq_of_append_same hs.2.1.chars ht.2.1.chars (by decide) hafter
    obtain ⟨hm, hend⟩ := Text.eq_and_eq_of_append_same hs.2.2 ht.2.2 (by decide) hcall
    subst ho hn hm
    exact ⟨rfl, (String.append_right_inj _).1 hend⟩
  · simp only [line_assign, String.append_assoc, String.append_right_inj] at h
    obtain ⟨hp, hthen⟩ := Text.eq_and_eq_of_append_same hs.1 ht.1 (by decide) h
    obtain ⟨ho, hafter⟩ := Text.eq_and_eq_of_append_same hs.2.1 ht.2.1 (by decide) hthen
    obtain ⟨hq, hvalue⟩ := Text.eq_and_eq_of_append_same hs.2.2 ht.2.2 (by decide) hafter
    subst hp ho hq
    simp only [String.append_right_inj] at hvalue
    exact ⟨rfl, hvalue⟩
  · simp only [line_invoke, String.append_assoc, String.append_right_inj] at h
    obtain ⟨ho, hafter⟩ := Text.eq_and_eq_of_append_same hs.1 ht.1 (by decide) h
    obtain ⟨hm, hcall⟩ := Text.eq_and_eq_of_append_same hs.2.1 ht.2.1 (by decide) hafter
    obtain ⟨hl, hend⟩ := arguments_append_inj hs.2.2 ht.2.2 hcall
    subst ho hm hl
    exact ⟨rfl, (String.append_right_inj _).1 hend⟩
  · simp only [line_emit, String.append_assoc, String.append_right_inj] at h
    obtain ⟨ho, hend⟩ := Text.eq_and_eq_of_append_same hs ht (by decide) h
    subst ho
    exact ⟨rfl, hend⟩

/-! ## Functions -/

/-- Parameters that know whether they are the last. -/
def marked : List ParameterSpec → List (Bool × ParameterSpec)
  | [] => []
  | p :: ps => (ps.isEmpty, p) :: marked ps

theorem map_snd_marked (ps : List ParameterSpec) : (marked ps).map Prod.snd = ps := by
  induction ps with
  | nil => rfl
  | cons p ps ih => rw [marked, List.map_cons, ih]

theorem parameterTexts_eq (ps : List ParameterSpec) :
    parameterTexts ps = (marked ps).map fun d => parameterText d.1 d.2 := by
  induction ps with
  | nil => rfl
  | cons p ps ih => rw [parameterTexts, marked, List.map_cons, ih]

/-- The rows of the parameters end before the parenthesis. -/
theorem parameterTexts_append_inj {ps qs : List ParameterSpec} (hps : ∀ p ∈ ps, p.IsPlain)
    (hqs : ∀ q ∈ qs, q.IsPlain) {x y : String}
    (h : String.join (parameterTexts ps) ++ ("    )\n\n" ++ x) =
      String.join (parameterTexts qs) ++ ("    )\n\n" ++ y)) : ps = qs ∧ x = y := by
  have hclose : ∀ d : Bool × ParameterSpec, d.2.IsPlain → ∀ x y,
      parameterText d.1 d.2 ++ x ≠ "    )\n\n" ++ y := by
    intro d _ x y
    simp only [parameterText, String.join_cons, String.append_assoc]
    exact Text.append_ne_append (by decide) _ _
  have hplain : ∀ {ps : List ParameterSpec}, (∀ p ∈ ps, p.IsPlain) →
      ∀ d ∈ marked ps, d.2.IsPlain := by
    intro ps hps d hd
    apply hps
    rw [← map_snd_marked ps]
    exact List.mem_map_of_mem hd
  rw [parameterTexts_eq, parameterTexts_eq, ← String.append_assoc, ← String.append_assoc] at h
  obtain ⟨hmarked, hxy⟩ := delimited_parameterText.join hclose (hplain hps) (hplain hqs) h
  refine ⟨?_, hxy⟩
  rw [← map_snd_marked ps, hmarked, map_snd_marked]

/-- A text that ends with a brace keeps it when its last end of line is trimmed. -/
theorem trimEnd_append_brace (text : String) :
    Text.trimEnd (text ++ "\x7d\n").toList = (text ++ "\x7d").toList := by
  have hlines : (text ++ "\x7d\n").toList = text.toList ++ ['\x7d'] ++ ['\n'] := by simp
  have hblank : ∀ c ∈ ['\n'], Text.isBlank c = true := by
    intro c hc
    rw [List.mem_singleton.1 hc]
    decide
  have hbrace : Text.isBlank '\x7d' = false := by decide
  rw [hlines, Text.trimEnd_append_blank hblank, Text.trimEnd_concat _ hbrace]
  simp

/-- Nothing but the last end of line is trimmed. -/
theorem emit_eq_ok (f : FunctionSpec) :
    emit f = .ok ("function " ++ (f.name ++ (" \x7b\n    [CmdletBinding()]\n" ++
      (typeLine "    [OutputType([" "])]\n" f.outputType ++ ("    param(\n" ++
        (String.join (parameterTexts f.parameters) ++ ("    )\n\n" ++
          (String.join (f.body.map statementText) ++ "\x7d")))))))) := by
  have htext : functionText f = "function " ++ (f.name ++ (" \x7b\n    [CmdletBinding()]\n" ++
      (typeLine "    [OutputType([" "])]\n" f.outputType ++ ("    param(\n" ++
        (String.join (parameterTexts f.parameters) ++ ("    )\n\n" ++
          String.join (f.body.map statementText))))))) ++ "\x7d\n" := by
    simp only [functionText, String.join_cons, String.join_nil, String.append_empty,
      String.append_assoc]
  rw [emit_eq, htext, trimEnd_append_brace, String.ofList_toList]
  simp only [String.append_assoc]

/-- **The text of a function tells the function.** Two functions with plain names and types have the
same text exactly when they are the same but for what they are for. -/
theorem functions_told_by_texts {f g : FunctionSpec} (hf : f.IsPlain) (hg : g.IsPlain) :
    emit f = emit g ↔ f = { g with kind := f.kind } := by
  constructor
  case mpr =>
    intro h
    rw [emit_eq_ok, emit_eq_ok, h]
  intro h
  rw [emit_eq_ok, emit_eq_ok] at h
  have htext := (String.append_right_inj _).1 (Except.ok.inj h)
  obtain ⟨hname, hhead⟩ := Text.eq_and_eq_of_append_eq hf.name hg.name
    (Stops.append (by decide) _) (Stops.append (by decide) _) htext
  obtain ⟨houtput, hparam⟩ := typeLine_append_inj (by decide) (by decide) hf.outputType
    hg.outputType ((String.append_right_inj _).1 hhead)
  obtain ⟨hparameters, hlines⟩ := parameterTexts_append_inj hf.parameters hg.parameters hparam
  -- lines are indented, and the brace after them is not
  have hclose : ∀ s : Statement, s.IsPlain → ∀ x y, statementText s ++ x ≠ "\x7d" ++ y := by
    intro s _ x y
    simp only [statementText, String.join_cons, String.append_assoc]
    exact Text.append_ne_append (by decide) _ _
  have hend : String.join (f.body.map statementText) ++ "\x7d" ++ "" =
      String.join (g.body.map statementText) ++ "\x7d" ++ "" := by rw [hlines]
  obtain ⟨hbody, -⟩ := delimited_statementText.join hclose hf.body hg.body hend
  obtain ⟨name, kind, parameters, body, outputType⟩ := f
  obtain ⟨name', kind', parameters', body', outputType'⟩ := g
  simp only at hname houtput hparameters hbody
  subst hname houtput hparameters hbody
  rfl

/-- A function with a parameter of each sort. -/
def newPoint : FunctionSpec :=
  ⟨"NewPoint", .constructor,
    [⟨"Latitude", some "System.Double", true, 0⟩, ⟨"Label", none, false, 1⟩],
    [.construct "obj" "Api.Model.Point" .defaultConstructor, .assign "Latitude" "obj" "Latitude",
      .assign "Label" "obj" "Label", .emit "obj"],
    some "Api.Model.Point"⟩

/-- It has the text of the same function for another purpose, but not that of the function which
gives no type for its result. -/
theorem functions_told_by_texts_newPoint :
    emit newPoint = emit { newPoint with kind := .wrapper } ∧
      emit newPoint ≠ emit { newPoint with outputType := none } := by
  have hplain : newPoint.IsPlain := by decide
  have hwrapper : ({ newPoint with kind := .wrapper } : FunctionSpec).IsPlain := by decide
  have huntyped : ({ newPoint with outputType := none } : FunctionSpec).IsPlain := by decide
  constructor
  · exact (functions_told_by_texts hplain hwrapper).2 rfl
  · intro h
    exact absurd ((functions_told_by_texts hplain huntyped).1 h) (by decide)

end PowerShell

end WrapperGen
