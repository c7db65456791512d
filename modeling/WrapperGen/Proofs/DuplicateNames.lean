import Mathlib.Data.List.Perm.Basic
import Mathlib.Data.List.Sort
import WrapperGen.Proofs.RunReport
/-!
# Names that several functions share

1. An element recurs at one place at most (`RecursAt.unique`), and does so somewhere exactly when it
   occurs twice or more (`exists_recursAt_iff`).
2. One more element at the end is listed when it has occurred once before, and in no other case
   (`repeated_concat`). So `repeated` lists what recurs, in the order of these places, and is the
   only list that does (`eq_repeated_iff`).
3. The warnings of a run go through its units and list what recurs among the names in each; the
   functions are all kept (`duplicate_names_reported`).
-/

namespace WrapperGen

/-! ## Second occurrences -/

section Recurring

variable {α : Type} [DecidableEq α] {a b x : α} {l l' : List α} {i j : Nat}

/-- The element occurs at this place for the second time. -/
def RecursAt (l : List α) (a : α) (i : Nat) : Prop := l[i]? = some a ∧ (l.take i).count a = 1

theorem RecursAt.lt_length (h : RecursAt l a i) : i < l.length :=
  (List.getElem?_eq_some_iff.1 h.1).1

/-- Up to any later place there are two occurrences. -/
theorem RecursAt.two_le_count_take (h : RecursAt l a i) (hij : i < j) : 2 ≤ (l.take j).count a := by
  have htake : l.take (i + 1) = l.take i ++ [a] := by
    rw [List.take_add_one, h.1, Option.toList_some]
  have hcount : (l.take (i + 1)).count a = 2 := by
    rw [htake, List.count_append, h.2, List.count_singleton_self]
  rw [← hcount]
  exact (List.take_sublist_take_left hij).count_le a

theorem RecursAt.unique (h : RecursAt l a i) (h' : RecursAt l a j) : i = j := by
  rcases Nat.lt_trichotomy i j with hlt | heq | hgt
  · exact absurd (h.two_le_count_take hlt) (by rw [h'.2]; decide)
  · exact heq
  · exact absurd (h'.two_le_count_take hgt) (by rw [h.2]; decide)

/-- What comes after the list makes no difference. -/
theorem RecursAt.append (h : RecursAt l a i) (m : List α) : RecursAt (l ++ m) a i := by
  have hlt := h.lt_length
  constructor
  · rw [List.getElem?_append_left hlt]
    exact h.1
  · rw [List.take_append_of_le_length hlt.le]
    exact h.2

theorem recursAt_concat (h : l.count a = 1) : RecursAt (l ++ [a]) a l.length := by
  constructor
  · rw [List.getElem?_append_right (Nat.le_refl _), Nat.sub_self, List.getElem?_cons_zero]
  · rw [List.take_left]
    exact h

theorem exists_recursAt_iff : (∃ i, RecursAt l a i) ↔ 2 ≤ l.count a := by
  constructor
  · rintro ⟨i, h⟩
    have htwo := h.two_le_count_take h.lt_length
    rwa [List.take_length] at htwo
  · intro h
    -- the element recurs before the last place, or at it
    induction l using List.reverseRecOn with
    | nil => simp at h
    | append_singleton l x ih =>
      by_cases hbefore : 2 ≤ l.count a
      · obtain ⟨i, hi⟩ := ih hbefore
        exact ⟨i, hi.append [x]⟩
      · rw [List.count_append, List.count_singleton] at h
        split at h
        · next hx =>
          obtain rfl := beq_iff_eq.1 hx
          exact ⟨l.length, recursAt_concat (by omega)⟩
        · omega

/-- The first element recurs before the second one does. -/
def RecursBefore (l : List α) (a b : α) : Prop := ∃ i j, RecursAt l a i ∧ RecursAt l b j ∧ i < j

theorem RecursBefore.append (h : RecursBefore l a b) (m : List α) : RecursBefore (l ++ m) a b := by
  obtain ⟨i, j, ha, hb, hij⟩ := h
  exact ⟨i, j, ha.append m, hb.append m, hij⟩

instance (l : List α) : Std.Asymm (RecursBefore l) where
  asymm a b h h' := by
    obtain ⟨i, j, ha, hb, hij⟩ := h
    obtain ⟨j', i', hb', ha', hji⟩ := h'
    have hi := ha.unique ha'
    have hj := hb.unique hb'
    omega

/-! ## Lists of what recurs -/

/-- The second list has each element that the first one repeats, once, in the order in which they
recur. -/
structure ListsRepeated (l told : List α) : Prop where
  members : ∀ a, a ∈ told ↔ 2 ≤ l.count a
  once : told.Nodup
  order : told.Pairwise (RecursBefore l)

/-- There is only one such list. -/
theorem ListsRepeated.unique {told told' : List α} (h : ListsRepeated l told)
    (h' : ListsRepeated l told') : told = told' :=
  h.order.eq_of_mem_iff h'.order fun a => (h.members a).trans (h'.members a).symm

/-- One more element at the end is listed if it was seen and is not listed yet. -/
theorem repeatedAfter_concat (before told l : List α) (a : α) :
    repeatedAfter before told (l ++ [a]) = repeatedAfter before told l ++
      if (a ∈ before ∨ a ∈ l) ∧ a ∉ told ∧ a ∉ repeatedAfter before told l then [a] else [] := by
  induction l generalizing before told with
  | nil => simp [repeatedAfter]
  | cons b l ih =>
    rw [List.cons_append, repeatedAfter, repeatedAfter]
    by_cases hb : b ∈ before ∧ b ∉ told
    · rw [if_pos hb, if_pos hb, ih, List.cons_append]
      congr 2
      -- on both sides `b` is seen and is listed
      refine if_congr ?_ rfl rfl
      by_cases hab : a = b
      · subst hab
        simp
      · simp [hab]
    · rw [if_neg hb, if_neg hb, ih]
      congr 1
      refine if_congr ?_ rfl rfl
      simp only [List.mem_cons]
      tauto

theorem repeated_concat (l : List α) (a : α) :
    repeated (l ++ [a]) = repeated l ++ if l.count a = 1 then [a] else [] := by
  rw [repeated, repeatedAfter_concat, ← repeated]
  congr 1
  refine if_congr ?_ rfl rfl
  have hseen : a ∈ l ↔ 1 ≤ l.count a := List.one_le_count_iff.symm
  rw [mem_repeated, hseen]
  constructor
  · rintro ⟨hbefore | hone, -, hlisted⟩
    · cases hbefore
    · omega
  · intro hcount
    exact ⟨.inr (by omega), List.not_mem_nil, by omega⟩

theorem listsRepeated_repeated (l : List α) : ListsRepeated l (repeated l) := by
  refine ⟨fun a => mem_repeated, ?_, ?_⟩
  · induction l using List.reverseRecOn with
    | nil => exact List.nodup_nil
    | append_singleton l a ih =>
      rw [repeated_concat]
      split
      · next hcount =>
        have hnew : a ∉ repeated l := by rw [mem_repeated]; omega
        exact List.concat_eq_append ▸ ih.concat hnew
      · rwa [List.append_nil]
  · induction l using List.reverseRecOn with
    | nil => exact .nil
    | append_singleton l a ih =>
      have hold : (repeated l).Pairwise (RecursBefore (l ++ [a])) := ih.imp (·.append [a])
      rw [repeated_concat]
      split
      · next hcount =>
        -- what is listed has recurred within the list, and the new element does so at its end
        refine List.pairwise_append.2 ⟨hold, List.pairwise_singleton _ _, ?_⟩
        intro b hb c hc
        obtain rfl := List.mem_singleton.1 hc
        obtain ⟨i, hi⟩ := exists_recursAt_iff.2 (mem_repeated.1 hb)
        exact ⟨i, l.length, hi.append _, recursAt_concat hcount, hi.lt_length⟩
      · rwa [List.append_nil]

theorem eq_repeated_iff {told : List α} : told = repeated l ↔ ListsRepeated l told := by
  constructor
  · rintro rfl
    exact listsRepeated_repeated l
  · intro h
    exact h.unique (listsRepeated_repeated l)

end Recurring

/-! ## Units and runs -/

/-- The names of a unit's functions, those that make values first. -/
theorem OutputUnit.functionNames_eq (u : OutputUnit) :
    u.functionNames = u.constructors.map (·.name) ++ u.wrappers.map (·.name) := List.map_append

namespace Generator

/-- All units together have the function of every type and of every endpoint for which one can be
built. -/
theorem functions_perm (g : Generator) (es : List Endpoint) :
    ((g.run es).units.flatMap (·.functions)).Perm
      (g.constructorsOf (g.neededTypes es) ++ g.wrappersOf es) := by
  have hsplit := List.flatMap_append_perm (g.run es).units (·.constructors) (·.wrappers)
  exact hsplit.symm.trans ((constructors_perm g es).append (wrappers_perm g es))

/-- **Shared names are reported exactly.** The duplicate names of a unit are the names that occur
at least twice among its functions, those that make values first, each of them once and in the order
of second occurrences; there are none exactly when all names are different. The warnings of a run
are these names, unit by unit, and the units of the run have all the functions that were built,
whatever their names. -/
theorem duplicate_names_reported :
    (∀ (u : OutputUnit) (names : List String), names = u.duplicateNames ↔
      ListsRepeated (u.constructors.map (·.name) ++ u.wrappers.map (·.name)) names) ∧
    (∀ u : OutputUnit, u.duplicateNames = [] ↔
      (u.constructors.map (·.name) ++ u.wrappers.map (·.name)).Nodup) ∧
    ∀ (g : Generator) (es : List Endpoint),
      (∃ warnings : List (List (String × String)),
        List.Forall₂ (fun u unitWarnings => ∃ names, ListsRepeated u.functionNames names ∧
          unitWarnings = names.map fun name => (u.label, name)) (g.run es).units warnings ∧
        (g.run es).duplicates = warnings.flatten) ∧
      (∀ u ∈ (g.run es).units, u.functions =
        g.constructorsOf ((g.neededTypes es).filter fun t => g.home es t = some u.name) ++
          g.wrappersOf (es.filter fun e => g.unitOf e = u.name)) ∧
      ((g.run es).units.flatMap (·.functions)).Perm
        (g.constructorsOf (g.neededTypes es) ++ g.wrappersOf es) := by
  refine ⟨fun u names => ?_, fun u => ?_, fun g es => ⟨?_, fun u hu => ?_, functions_perm g es⟩⟩
  · rw [← OutputUnit.functionNames_eq]
    exact eq_repeated_iff
  · rw [← OutputUnit.functionNames_eq]
    exact repeated_eq_nil_iff
  · refine ⟨(g.run es).units.map fun u => u.duplicateNames.map fun name => (u.label, name), ?_, ?_⟩
    · rw [List.forall₂_map_right_iff, List.forall₂_same]
      exact fun u _ => ⟨u.duplicateNames, listsRepeated_repeated _, rfl⟩
    · rw [Report.duplicates, List.flatMap_def]
  · rw [eq_unitAfter hu]
    rfl

/-- A function of a name that does nothing. -/
def bareFunction (kind : FunctionKind) (name : String) : FunctionSpec := ⟨name, kind, [], [], none⟩

/-- Names that recur among wrappers, and across constructor functions and wrappers. -/
def twinUnit : OutputUnit where
  name := some "FloorApi"
  constructors := ["NewRack", "NewSite"].map (bareFunction .constructor)
  wrappers := ["ReadSite", "NewSite", "NewRack", "NewRack", "ReadSite"].map (bareFunction .wrapper)

/-- What recurs first is told first, and what occurs three times is told once. -/
theorem duplicate_names_reported_twins :
    twinUnit.duplicateNames = ["NewSite", "NewRack", "ReadSite"] ∧
      ListsRepeated
        ["NewRack", "NewSite", "ReadSite", "NewSite", "NewRack", "NewRack", "ReadSite"]
        ["NewSite", "NewRack", "ReadSite"] := by
  have htold : twinUnit.duplicateNames = ["NewSite", "NewRack", "ReadSite"] := by decide
  exact ⟨htold, (duplicate_names_reported.1 twinUnit _).1 htold.symm⟩

end Generator

end WrapperGen
