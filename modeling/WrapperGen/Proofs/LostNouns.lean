import WrapperGen.Proofs.BuiltFunctions
import WrapperGen.Proofs.DecoratedNames
import WrapperGen.Proofs.EndpointNouns
import WrapperGen.Proofs.Plurals
import WrapperGen.Proofs.Preview
import WrapperGen.Proofs.RunReport
import WrapperGen.Text.Delimited
/-!
# Names that lose their noun

1. Nothing is left of a word exactly when it is made of a result and a response, each of which may
   be missing (`Noun.stripDecorations_eq_nil_iff`). The singular and the capital letter leave
   something of what is left (`Noun.ofName_eq_empty_iff`).
2. No arity mark gets into a noun (`Noun.mark_notMem_ofName`).
3. Every function of a run is named after a type or after what an endpoint returns or does
   (`Generator.exists_namedAfter`), and its name is a bare verb exactly when that name loses its
   noun (`noun_lost_iff`).
-/

namespace WrapperGen

open Text TypeRef

namespace Noun

/-! ## What is left of a word -/

theorem dropListTail_eq_nil_iff {word : List Char} : dropListTail word = [] ↔ word = [] := by
  constructor
  · intro h
    rcases dropListTail_cases word with hsame | ⟨hne, -⟩
    · exact hsame.symm.trans h
    · exact absurd h hne
  · rintro rfl
    rfl

theorem stripDecorations_isPrefix (word : List Char) : stripDecorations word <+: word := by
  have hlist : ∀ word, dropListTail word <+: word := by
    intro word
    rcases dropListTail_cases word with hsame | ⟨-, hword⟩
    · exact ⟨[], (List.append_nil _).trans hsame⟩
    · exact ⟨listWord, hword.symm⟩
  rw [stripDecorations_eq]
  exact (hlist _).trans ((dropEnding_isPrefix _ _).trans (dropEnding_isPrefix _ _))

/-- Nothing is left of a result, of a response, and of a result in a response. -/
theorem stripDecorations_eq_nil_iff {word : List Char} :
    stripDecorations word = [] ↔
      word = [] ∨ SameSpelling word responseWord ∨ SameSpelling word resultWord ∨
        SameSpelling word (resultWord ++ responseWord) := by
  rw [stripDecorations_eq, dropListTail_eq_nil_iff, ← sameSpelling_nil_iff,
    sameSpelling_dropEnding_iff (by decide), sameSpelling_dropEnding_iff (by decide),
    sameSpelling_dropEnding_iff (by decide), List.nil_append, List.nil_append,
    sameSpelling_nil_iff]
  tauto

/-- The names of which nothing is left, up to an arity mark and the case of ASCII letters. -/
def lostNames : List String := ["", "Response", "Result", "ResultResponse"]

/-- Nothing of the name makes a noun. -/
def LosesNoun (name : String) : Prop :=
  ∃ lost ∈ lostNames, SameSpelling (baseName name).toList lost.toList

instance (name : String) : Decidable (LosesNoun name) :=
  inferInstanceAs (Decidable (∃ lost ∈ lostNames, _))

theorem losesNoun_iff {name : String} :
    LosesNoun name ↔ stripDecorations (baseName name).toList = [] := by
  rw [stripDecorations_eq_nil_iff, ← sameSpelling_nil_iff]
  simp only [LosesNoun, lostNames, List.mem_cons, List.not_mem_nil, or_false, exists_eq_or_imp,
    exists_eq_left]
  exact Iff.rfl

theorem ofName_eq (name : String) : ofName name =
    String.ofList (capitalize (singularChars (stripDecorations (baseName name).toList))) := by
  rw [ofName, chars, baseName, String.toList_ofList]

theorem ofName_eq_empty_iff {name : String} : ofName name = "" ↔ LosesNoun name := by
  rw [losesNoun_iff, ofName_eq, String.ofList_eq_empty_iff, capitalize_eq_nil_iff,
    singularChars_eq_nil_iff]

theorem mark_notMem_ofName (name : String) : arityMark ∉ (ofName name).toList := by
  rw [ofName_eq, String.toList_ofList]
  intro hnoun
  have hsingular := mem_of_mem_capitalize hnoun (by decide) (by decide)
  have hleft := (mem_of_mem_singularChars hsingular).resolve_right (by decide)
  have hbase := (stripDecorations_isPrefix _).subset hleft
  rw [baseName, String.toList_ofList] at hbase
  simpa using List.mem_takeWhile_imp hbase

end Noun

/-! ## Names of functions -/

/-- The function is named by a verb and no noun. -/
def FunctionSpec.IsBare (b : FunctionBuilder) (f : FunctionSpec) : Prop :=
  ∃ verb : Verb, f.name = b.functionName verb.name ""

/-- No verb heads another one. -/
theorem Verb.apart_name {verb verb' : Verb} (h : verb ≠ verb') : Apart verb.name verb'.name := by
  revert h
  cases verb <;> cases verb' <;> decide

theorem FunctionBuilder.functionName_eq_bare_iff {b : FunctionBuilder} {verb verb' : Verb}
    {noun : String} :
    b.functionName verb.name noun = b.functionName verb'.name "" ↔ verb = verb' ∧ noun = "" := by
  unfold functionName
  constructor
  · intro h
    by_cases hverb : verb = verb'
    · subst hverb
      exact ⟨rfl, (String.append_right_inj _).1 h⟩
    · rw [String.append_assoc, String.append_assoc] at h
      exact absurd h (append_ne_append (Verb.apart_name hverb) _ _)
  · rintro ⟨rfl, rfl⟩
    rfl

namespace Generator

variable {g : Generator} {es : List Endpoint}

/-- What the functions of a run are named after: the types that endpoints bring up, and what the
endpoints return or do. -/
inductive NamedAfter (g : Generator) (es : List Endpoint) : FunctionSpec → String → Prop where
  | type {t : TypeRef} {f : FunctionSpec} (ht : t ∈ g.neededTypes es)
      (hf : g.constructorOf t = .ok f) : NamedAfter g es f t.payload.simpleName
  | endpoint {e : Endpoint} {f : FunctionSpec} {verb : Verb} {rest : String} (he : e ∈ es)
      (hf : g.wrapperOf e = .ok f) (hrest : verb.remainder? e.method = some rest) :
      NamedAfter g es f (Noun.endpointSource e rest)

theorem NamedAfter.exists_name_eq {f : FunctionSpec} {source : String}
    (h : g.NamedAfter es f source) :
    ∃ verb : Verb, f.name = g.builder.functionName verb.name (Noun.ofName source) := by
  cases h with
  | type ht hf =>
    obtain ⟨typeName, shape, -, -, -, rfl⟩ := FunctionBuilder.constructor_eq_ok_iff.1 hf
    exact ⟨.new, rfl⟩
  | @endpoint e f verb rest he hf hrest =>
    have hname := Command.EndpointView.functionName?_of_wrapperOf hf
    have hbegins : verb.Begins e.method := by
      rw [← Verb.isSome_remainder?_iff, hrest]
      rfl
    unfold Command.EndpointView.functionName? at hname
    rw [Verb.ofMethod_eq_ok_iff.2 hbegins, Noun.ofEndpoint_of_remainder? hrest] at hname
    exact ⟨verb, (Option.some.inj hname).symm⟩

/-- A function is named by a verb alone when what it is named after loses its noun. -/
theorem NamedAfter.isBare_iff {f : FunctionSpec} {source : String} (h : g.NamedAfter es f source) :
    f.IsBare g.builder ↔ Noun.LosesNoun source := by
  obtain ⟨verb, hname⟩ := h.exists_name_eq
  unfold FunctionSpec.IsBare
  simp only [hname, FunctionBuilder.functionName_eq_bare_iff, exists_and_right, exists_eq',
    true_and, Noun.ofName_eq_empty_iff]

theorem exists_namedAfter {u : OutputUnit} (hu : u ∈ (g.run es).units) {f : FunctionSpec}
    (hf : f ∈ u.functions) : ∃ source, g.NamedAfter es f source := by
  rw [eq_unitAfter hu] at hf
  rcases List.mem_append.1 hf with hf | hf
  · obtain ⟨t, ht, hf⟩ := mem_successes.1 hf
    exact ⟨_, .type (List.mem_filter.1 ht).1 hf⟩
  · obtain ⟨e, he, hf⟩ := mem_successes.1 hf
    obtain ⟨⟨verb, noun, groups⟩, hprepare, -⟩ := bind_eq_ok_iff.1 hf
    obtain ⟨verb', hverb, -⟩ := bind_eq_ok_iff.1 hprepare
    have hsome := Verb.isSome_remainder?_iff.2 (Verb.ofMethod_eq_ok_iff.1 hverb)
    obtain ⟨rest, hrest⟩ := Option.isSome_iff_exists.1 hsome
    exact ⟨_, .endpoint (List.mem_filter.1 he).1 hf hrest⟩

end Generator

/-- **Which names lose their noun.** A name makes an empty noun exactly when, up to an arity mark
and the case of ASCII letters, it is empty, `Response`, `Result` or `ResultResponse`, and no noun
has an arity mark in it. The singular and the capital letter make no word empty. So a function of a
run is named by a verb alone exactly when the name that it is named after is one of these. -/
theorem noun_lost_iff :
    (∀ name, Noun.ofName name = "" ↔ Noun.LosesNoun name) ∧
    (∀ name, arityMark ∉ (Noun.ofName name).toList) ∧
    (∀ word, Noun.singular word = "" ↔ word = "") ∧
    (∀ word, capitalize word = [] ↔ word = []) ∧
    ∀ (g : Generator) (es : List Endpoint), ∀ u ∈ (g.run es).units, ∀ f ∈ u.functions,
      ∃ source, g.NamedAfter es f source ∧ (f.IsBare g.builder ↔ Noun.LosesNoun source) := by
  refine ⟨fun _ => Noun.ofName_eq_empty_iff, Noun.mark_notMem_ofName, fun word => ?_,
    fun _ => capitalize_eq_nil_iff, fun g es u hu f hf => ?_⟩
  · rw [Noun.singular, String.ofList_eq_empty_iff, Noun.singularChars_eq_nil_iff,
      String.toList_eq_nil_iff]
  · obtain ⟨source, hsource⟩ := Generator.exists_namedAfter hu hf
    exact ⟨source, hsource, hsource.isBare_iff⟩

/-- An endpoint that returns nothing, and whose name says nothing after the verb but that it is a
result. -/
def deleteResult : Endpoint := .ofParameters "FloorApi" "DeleteRESULT" .void []

theorem noun_lost_iff_deleteResult :
    let f : FunctionSpec :=
      ⟨"Remove", .wrapper, [FunctionBuilder.default.handleParameter],
        [.invoke "Sdk" "DeleteRESULT" []], none⟩
    ⟨some "FloorApi", [], [f]⟩ ∈ (Generator.racks.run [deleteResult]).units ∧
      ∃ source, Generator.racks.NamedAfter [deleteResult] f source ∧ Noun.LosesNoun source := by
  intro f
  have hu : ⟨some "FloorApi", [], [f]⟩ ∈ (Generator.racks.run [deleteResult]).units := by decide
  obtain ⟨-, -, -, -, hruns⟩ := noun_lost_iff
  obtain ⟨source, hsource, hbare⟩ := hruns Generator.racks [deleteResult] _ hu f (by decide)
  exact ⟨hu, source, hsource, hbare.1 ⟨.remove, rfl⟩⟩

end WrapperGen
