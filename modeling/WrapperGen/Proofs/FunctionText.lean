import WrapperGen.PowerShell.Emission
import Mathlib.Data.List.Forall2
/-!
# The text of a function

The template of functions writes every function, and what it writes is laid out line by line
(`PowerShell.render_functionTemplate`). So no function is without a text (`PowerShell.emit_eq`).

1. The template is text, members of the context, conditions and loops (`nodes_of_functionTemplate`).
2. Where no block gives names, a member of the innermost value is found by its name
   (`Context.evaluate_member`), and conditions and loops do what they say (`render_conditional`,
   `render_each`).
3. A loop over the parameters knows which of them is the last (`render_parameters`).
-/

namespace WrapperGen.Template

open Json (Value)

/-! ## Members, conditions and loops -/

/-- The tag that writes a member of the innermost value. -/
def member (name : String) : Argument := .path ⟨.scope 0, [name], name⟩

/-- The head of a block whose helper is given one value. -/
def given (helper : String) (a : Argument) : Head := ⟨helper, ⟨[a], []⟩, []⟩

namespace Context

/-- No block around gave a name. -/
def Nameless (c : Context) : Prop := ∀ s ∈ c.scopes, s.names = []

theorem nameless_ofValue (v : Value) : (ofValue v).Nameless := by
  intro s hs
  rw [List.mem_singleton.1 hs]
  rfl

theorem Nameless.enter {c : Context} (h : c.Nameless) {s : Scope} (hs : s.names = []) :
    (c.enter s).Nameless := by
  intro s' hs'
  rcases List.mem_cons.1 hs' with rfl | hs'
  · exact hs
  · exact h s' hs'

theorem Nameless.named?_eq_none {c : Context} (h : c.Nameless) (name : String) :
    c.named? name = none := by
  unfold named?
  rw [List.findSome?_eq_none_iff]
  intro s hs
  rw [h s hs]
  rfl

theorem Nameless.followFrom {c : Context} (h : c.Nameless) (names : List String) :
    c.followFrom 0 names = follow names c.innermost.value := by
  have hnamed : names.head?.bind c.named? = none := by
    cases names with
    | nil => rfl
    | cons name names => exact h.named?_eq_none name
  unfold Context.followFrom
  rw [hnamed]
  rfl

theorem evaluate_member {c : Context} (h : c.Nameless) {members : List (String × Value)}
    (hobject : c.innermost.value = .object members) {name : String} {v : Value}
    (hmember : (Value.object members).member? name = some v) :
    c.evaluate (member name) = .ok (some v) := by
  show c.followFrom 0 [name] = _
  rw [h.followFrom, hobject]
  simp only [follow, memberOf, hmember]
  rfl

theorem writtenText_member {c : Context} {name : String} {v : Value}
    (hhelper : Helper.ofName? name = none) (hv : c.evaluate (member name) = .ok (some v)) :
    c.writtenText (member name) = .ok (textOf v) := by
  unfold writtenText
  have hname : c.nameOf (member name) = .ok name := rfl
  rw [hname, hv]
  simp only [bind, Except.bind, hhelper]
  rfl

theorem supply_given {c : Context} {a : Argument} {v : Value} (h : c.evaluate a = .ok (some v)) :
    c.supply ⟨[a], []⟩ = .ok ⟨[some v], []⟩ := by
  unfold supply
  simp only [evaluateAll, evaluateSettings, h]
  rfl

end Context

theorem TemplateSet.render_eq_ok {set : TemplateSet} {name text : String} {nodes : List Node}
    {context : Value} (hname : set.get? name = some nodes)
    (htext : renderAll (.ofValue context.sorted) nodes = .ok text) :
    set.render name context = .ok text := by
  unfold render
  rw [hname]
  simp only [htext]

/-- Nodes write their texts one after another. -/
theorem renderAll_eq_ok {c : Context} {nodes : List Node} {texts : List String}
    (h : List.Forall₂ (fun n text => render c n = .ok text) nodes texts) :
    renderAll c nodes = .ok (String.join texts) := by
  induction h with
  | nil => rw [renderAll, String.join_nil]
  | cons hn _ ih =>
    rw [renderAll, hn, ih, String.join_cons]
    rfl

theorem render_text (c : Context) (s : String) : render c (.text s) = .ok s := by
  rw [render]

theorem render_member {c : Context} {name : String} {v : Value}
    (hhelper : Helper.ofName? name = none) (hv : c.evaluate (member name) = .ok (some v)) :
    render c (.value (member name)) = .ok (textOf v) := by
  rw [render]
  exact Context.writtenText_member hhelper hv

/-- A condition takes its body where its value is true, or where it is false. -/
theorem render_conditional {c : Context} {helper : String} {positive : Bool}
    (hhelper : Helper.ofName? helper = some (.conditional positive)) {a : Argument} {v : Value}
    (hv : c.evaluate a = .ok (some v)) (body : List Node) :
    render c (.block (given helper a) body none) =
      if isTrue v = positive then renderAll c body else .ok "" := by
  rw [render]
  simp only [given, Context.supply_given hv, bind, Except.bind, hhelper, Supply.first?,
    List.head?_cons, Option.map_some, Option.getD_some, renderBranch]
  have hholds : Supply.holds ⟨[some v], []⟩ v = isTrue v := by
    unfold Supply.holds Supply.setting?
    cases v <;> rfl
  rw [hholds]

/-- A loop takes its body for each item. -/
theorem render_each {c : Context} {a : Argument} {items : List Value}
    (hv : c.evaluate a = .ok (some (.array items))) {body : List Node} {texts : List String}
    (htexts : (loopScopes [] items.length 0 (items.map fun v => (none, v))).mapM
      (fun s => renderAll (c.enter s) body) = .ok texts) :
    render c (.block (given "each" a) body none) = .ok (String.join texts) := by
  rw [render]
  have hhelper : Helper.ofName? "each" = some .each := by decide
  simp only [given, Context.supply_given hv, bind, Except.bind, hhelper, Supply.first?,
    List.head?_cons, Option.map_some, Option.getD_some, Scope.ofLoop?]
  cases hscopes : loopScopes [] items.length 0 (items.map fun v => (none, v)) with
  | nil =>
    rw [hscopes, List.mapM_nil] at htexts
    cases htexts
    simp only [renderBranch]
    rfl
  | cons s scopes =>
    rw [hscopes] at htexts
    simp only [htexts]
    rfl

end WrapperGen.Template

namespace WrapperGen.PowerShell

open Json (Value)
open Template

/-! ## The nodes of the template -/

/-- What the template has for a parameter. -/
def parameterNodes : List Node :=
  [.text "        ", .value (member "attribute"), .text "\n",
    .block (given "if" (member "type_name"))
      [.text "        [", .value (member "type_name"), .text "]\n"] none,
    .text "        $", .value (member "name"),
    .block (given "unless" (.path ⟨.marks 0, ["last"], "@last"⟩)) [.text ","] none,
    .text "\n"]

/-- What the template has for a statement. -/
def statementNodes : List Node :=
  [.text "    ", .value (.path ⟨.scope 0, [], "this"⟩), .text "\n"]

/-- The template of functions. -/
def functionNodes : List Node :=
  [.text "function ", .value (member "name"), .text " \x7b\n    [CmdletBinding()]\n",
    .block (given "if" (member "output_type"))
      [.text "    [OutputType([", .value (member "output_type"), .text "])]\n"] none,
    .text "    param(\n", .block (given "each" (member "parameters")) parameterNodes none,
    .text "    )\n\n", .block (given "each" (member "body")) statementNodes none,
    .text "\x7d\n"]

/-- Reading a template takes its characters one by one. -/
theorem ofText?_of_toList {text : String} {chars : List Char} (h : text.toList = chars) :
    Node.ofText? text = (cut? (chars.length + 1) true chars).bind fun pieces =>
      (Builder.empty.run? (trim ⟨false, false⟩ pieces)).bind Builder.result? := by
  subst h
  unfold Node.ofText? Part.ofText?
  rw [String.length_toList]
  cases cut? (text.length + 1) true text.toList <;> rfl

set_option maxRecDepth 20000 in
/-- The template is read as its nodes. -/
theorem nodes_of_functionTemplate : Node.ofText? functionTemplate = some functionNodes := by
  have hchars : functionTemplate.toList =
      functionTemplateLines.flatMap fun l => l.toList ++ ['\n'] := by
    unfold functionTemplate
    rw [String.toList_join, List.flatMap_map]
    simp only [String.toList_append, String.reduceToList]
  simp only [functionTemplateLines, tag, String.toList_append, String.reduceToList,
    List.flatMap_cons, List.flatMap_nil, List.cons_append, List.nil_append] at hchars
  rw [ofText?_of_toList hchars]
  clear hchars
  rfl

/-! ## What the template writes -/

/-- A line about a type, which is left out where there is none. -/
def typeLine (before after : String) : Option String → String
  | none => ""
  | some t => if t.isEmpty then "" else String.join [before, t, after]

/-- The lines of a parameter. All but the last end with a comma. -/
def parameterText (isLast : Bool) (p : ParameterSpec) : String :=
  String.join ["        ", parameterAttribute p, "\n", typeLine "        [" "]\n" p.typeName,
    "        $", p.name, if isLast then "" else ",", "\n"]

/-- The lines of parameters. -/
def parameterTexts : List ParameterSpec → List String
  | [] => []
  | p :: ps => parameterText ps.isEmpty p :: parameterTexts ps

/-- The line of a statement. -/
def statementText (s : Statement) : String := String.join ["    ", line s, "\n"]

/-- The lines of a function. -/
def functionText (f : FunctionSpec) : String :=
  String.join ["function ", f.name, " \x7b\n    [CmdletBinding()]\n",
    typeLine "    [OutputType([" "])]\n" f.outputType, "    param(\n",
    String.join (parameterTexts f.parameters), "    )\n\n",
    String.join (f.body.map statementText), "\x7d\n"]

theorem sorted_parameterContext (p : ParameterSpec) :
    (parameterContext p).sorted = parameterContext p := by
  have htype : (Value.ofString? p.typeName).sorted = Value.ofString? p.typeName := by
    cases p.typeName <;> rfl
  unfold parameterContext
  simp only [Value.sorted, Value.sortedMembers, htype]
  rfl

theorem sortedItems_map {α : Type} {f : α → Value} (hf : ∀ a, (f a).sorted = f a) (l : List α) :
    Value.sortedItems (l.map f) = l.map f := by
  induction l with
  | nil => rfl
  | cons a l ih => rw [List.map_cons, Value.sortedItems, hf, ih]

theorem sorted_functionContext (f : FunctionSpec) :
    (functionContext f).sorted = functionContext f := by
  have htype : (Value.ofString? f.outputType).sorted = Value.ofString? f.outputType := by
    cases f.outputType <;> rfl
  have hbody := sortedItems_map (f := fun s => Value.string (line s)) (fun _ => rfl) f.body
  have hparameters := sortedItems_map sorted_parameterContext f.parameters
  unfold functionContext
  simp only [Value.sorted, Value.sortedMembers, htype, hbody, hparameters]
  rfl

/-- A condition on a type writes the line about it. -/
theorem render_typeLine {c : Context} {name : String} {type? : Option String}
    (hhelper : Helper.ofName? name = none)
    (hv : c.evaluate (member name) = .ok (some (.ofString? type?))) (before after : String) :
    render c (.block (given "if" (member name)) [.text before, .value (member name), .text after]
        none) = .ok (typeLine before after type?) := by
  have hif : Helper.ofName? "if" = some (.conditional true) := by decide
  rw [render_conditional hif hv]
  cases type? with
  | none => rfl
  | some t =>
    by_cases ht : t.isEmpty
    · have hfalse : Template.isTrue (.string t) = false := by simp [Template.isTrue, ht]
      rw [Value.ofString?, hfalse, typeLine, if_pos ht]
      rfl
    · have htrue : Template.isTrue (.string t) = true := by simp [Template.isTrue, ht]
      rw [Value.ofString?, if_pos htrue, typeLine, if_neg ht]
      exact renderAll_eq_ok (.cons (render_text c before) (.cons (render_member hhelper hv)
        (.cons (render_text c after) .nil)))

/-- The members of a parameter. -/
theorem evaluate_parameterContext {c : Context} (hc : c.Nameless) {p : ParameterSpec}
    (hp : c.innermost.value = parameterContext p) :
    c.evaluate (member "attribute") = .ok (some (.string (parameterAttribute p))) ∧
      c.evaluate (member "name") = .ok (some (.string p.name)) ∧
      c.evaluate (member "type_name") = .ok (some (.ofString? p.typeName)) :=
  ⟨Context.evaluate_member hc hp rfl, Context.evaluate_member hc hp rfl,
    Context.evaluate_member hc hp rfl⟩

/-- A parameter that knows whether it is the last writes its lines. -/
theorem renderAll_parameterNodes {c : Context} (hc : c.Nameless) {p : ParameterSpec}
    (hp : c.innermost.value = parameterContext p) {isLast : Bool}
    (hlast : c.innermost.marks.lookup "last" = some (.bool isLast)) :
    renderAll c parameterNodes = .ok (parameterText isLast p) := by
  obtain ⟨hattribute, hname, htype⟩ := evaluate_parameterContext hc hp
  have hmark : c.evaluate (.path ⟨.marks 0, ["last"], "@last"⟩) = .ok (some (.bool isLast)) := by
    rw [← hlast]
    rfl
  have hcomma : render c (.block (given "unless" (.path ⟨.marks 0, ["last"], "@last"⟩))
      [.text ","] none) = .ok (if isLast then "" else ",") := by
    have hunless : Helper.ofName? "unless" = some (.conditional false) := by decide
    rw [render_conditional hunless hmark]
    cases isLast <;> rfl
  have htyped := render_typeLine (by decide) htype "        [" "]\n"
  exact renderAll_eq_ok (.cons (render_text c "        ")
    (.cons (render_member (by decide) hattribute) (.cons (render_text c "\n") (.cons htyped
      (.cons (render_text c "        $") (.cons (render_member (by decide) hname) (.cons hcomma
        (.cons (render_text c "\n") .nil))))))))

/-- The loop over parameters, from some of them on. -/
theorem render_parameters {c : Context} (hc : c.Nameless) (count : Nat) (ps : List ParameterSpec)
    (i : Nat) (hcount : i + ps.length = count) :
    (loopScopes [] count i ((ps.map parameterContext).map fun v => (none, v))).mapM
        (fun s => renderAll (c.enter s) parameterNodes) = .ok (parameterTexts ps) := by
  induction ps generalizing i with
  | nil => rfl
  | cons p ps ih =>
    rw [List.length_cons] at hcount
    have hlast : (i + 1 == count) = ps.isEmpty := by
      cases ps with
      | nil => simpa using hcount
      | cons q qs =>
        rw [List.length_cons] at hcount
        simp only [List.isEmpty_cons, beq_eq_false_iff_ne]
        omega
    simp only [List.map_cons, loopScopes, List.mapM_cons]
    rw [hlast, renderAll_parameterNodes (hc.enter rfl) rfl rfl, ih (i + 1) (by omega)]
    rfl

/-- The value of a scope writes its text. -/
theorem renderAll_statementNodes {c : Context} (hc : c.Nameless) {s : Statement}
    (hs : c.innermost.value = .string (line s)) :
    renderAll c statementNodes = .ok (statementText s) := by
  have hvalue : c.evaluate (.path ⟨.scope 0, [], "this"⟩) = .ok (some (.string (line s))) := by
    show c.followFrom 0 [] = _
    rw [hc.followFrom, hs]
    rfl
  have htext : render c (.value (.path ⟨.scope 0, [], "this"⟩)) = .ok (line s) := by
    have hname : c.nameOf (.path ⟨.scope 0, [], "this"⟩) = .ok "this" := rfl
    have hhelper : Helper.ofName? "this" = none := by decide
    rw [render, Context.writtenText, hname, hvalue]
    simp only [bind, Except.bind, hhelper]
    rfl
  exact renderAll_eq_ok (.cons (render_text c "    ") (.cons htext
    (.cons (render_text c "\n") .nil)))

/-- The loop over statements, from some of them on. -/
theorem render_statements {c : Context} (hc : c.Nameless) (count : Nat) (body : List Statement)
    (i : Nat) :
    (loopScopes [] count i ((body.map fun s => Value.string (line s)).map fun v => (none, v))).mapM
        (fun s => renderAll (c.enter s) statementNodes) = .ok (body.map statementText) := by
  induction body generalizing i with
  | nil => rfl
  | cons s body ih =>
    simp only [List.map_cons, loopScopes, List.mapM_cons]
    rw [renderAll_statementNodes (hc.enter rfl) rfl, ih (i + 1)]
    rfl

/-- The nodes of the template write a function. -/
theorem renderAll_functionNodes (f : FunctionSpec) :
    renderAll (.ofValue (functionContext f)) functionNodes = .ok (functionText f) := by
  have hc := Context.nameless_ofValue (functionContext f)
  generalize hcontext : Context.ofValue (functionContext f) = c at hc ⊢
  have hvalue : c.innermost.value = functionContext f := by rw [← hcontext]; rfl
  have hname : c.evaluate (member "name") = .ok (some (.string f.name)) :=
    Context.evaluate_member hc hvalue rfl
  have houtput : c.evaluate (member "output_type") = .ok (some (.ofString? f.outputType)) :=
    Context.evaluate_member hc hvalue rfl
  have hparameters : c.evaluate (member "parameters") =
      .ok (some (.array (f.parameters.map parameterContext))) :=
    Context.evaluate_member hc hvalue rfl
  have hbody : c.evaluate (member "body") =
      .ok (some (.array (f.body.map fun s => .string (line s)))) :=
    Context.evaluate_member hc hvalue rfl
  have htyped := render_typeLine (by decide) houtput "    [OutputType([" "])]\n"
  have hloop := render_each hparameters (render_parameters hc _ f.parameters 0 (by simp))
  have hstatements := render_each hbody (render_statements hc _ f.body 0)
  exact renderAll_eq_ok (.cons (render_text c "function ")
    (.cons (render_member (by decide) hname)
      (.cons (render_text c " \x7b\n    [CmdletBinding()]\n") (.cons htyped
        (.cons (render_text c "    param(\n") (.cons hloop (.cons (render_text c "    )\n\n")
          (.cons hstatements (.cons (render_text c "\x7d\n") .nil)))))))))

/-- The template is there from the start. -/
theorem get?_templates : templates.get? functionTemplateName = some functionNodes := by
  unfold templates
  rw [nodes_of_functionTemplate]
  exact TemplateSet.get?_insert_self _ _ _

/-- The template writes every function. -/
theorem render_functionTemplate (f : FunctionSpec) :
    templates.render functionTemplateName (functionContext f) = .ok (functionText f) := by
  refine TemplateSet.render_eq_ok get?_templates ?_
  rw [sorted_functionContext]
  exact renderAll_functionNodes f

/-- **Every function has a text.** It is the text of the template without the blanks at its end. -/
theorem emit_eq (f : FunctionSpec) :
    emit f = .ok (String.ofList (Text.trimEnd (functionText f).toList)) := by
  unfold emit
  rw [render_functionTemplate]
  rfl

end WrapperGen.PowerShell
