import WrapperGen.Proofs.OutputFiles
/-!
# Runs that go on

A run over more endpoints goes on where a run over the first of them has stopped, so its report
extends the earlier one: nothing that was reported is taken back or moved.

1. A step adds at the ends of the failures, the units and the functions of a unit
   (`extends_step`), and so does a run that goes on (`extends_run_append`, by induction on what is
   added).
2. A unit is left as it is by endpoints of other units (`unitAfter_append_of_notMem`).
3. So are its files, where the endpoints that are added belong to other clients (`run_extends`).
-/

namespace WrapperGen

/-! ## Reports that extend others -/

/-- A unit has the functions of another and maybe more after them. -/
structure OutputUnit.Extends (u u' : OutputUnit) : Prop where
  name : u'.name = u.name
  constructors : u.constructors <+: u'.constructors
  wrappers : u.wrappers <+: u'.wrappers

namespace OutputUnit.Extends

theorem refl (u : OutputUnit) : u.Extends u := ⟨rfl, List.prefix_rfl, List.prefix_rfl⟩

theorem trans {u v w : OutputUnit} (h : u.Extends v) (h' : v.Extends w) : u.Extends w :=
  ⟨h'.name.trans h.name, h.constructors.trans h'.constructors, h.wrappers.trans h'.wrappers⟩

theorem of_extend (u : OutputUnit) (cs ws : List FunctionSpec) : u.Extends (u.extend cs ws) :=
  ⟨rfl, List.prefix_append _ _, List.prefix_append _ _⟩

end OutputUnit.Extends

/-- A report has the failures of another and maybe more after them, and units that extend those of
the other, at their places, and maybe more after them. -/
structure Report.Extends (r r' : Report) : Prop where
  failures : r.failures <+: r'.failures
  names : r.units.map (·.name) <+: r'.units.map (·.name)
  units : ∀ (i : Nat) (u : OutputUnit), r.units[i]? = some u →
    ∃ u', r'.units[i]? = some u' ∧ u.Extends u'

namespace Report.Extends

theorem refl (r : Report) : r.Extends r :=
  ⟨List.prefix_rfl, List.prefix_rfl, fun _ u hu => ⟨u, hu, .refl u⟩⟩

theorem trans {r s t : Report} (h : r.Extends s) (h' : s.Extends t) : r.Extends t := by
  refine ⟨h.failures.trans h'.failures, h.names.trans h'.names, ?_⟩
  intro i u hu
  obtain ⟨v, hv, huv⟩ := h.units i u hu
  obtain ⟨w, hw, hvw⟩ := h'.units i v hv
  exact ⟨w, hw, huv.trans hvw⟩

theorem of_isInitial {r r' : Report} (hfailures : r.failures <+: r'.failures)
    (hunits : r.units <+: r'.units) : r.Extends r' := by
  refine ⟨hfailures, hunits.map _, ?_⟩
  intro i u hu
  obtain ⟨more, hmore⟩ := hunits
  refine ⟨u, ?_, .refl u⟩
  rw [← hmore, List.getElem?_append_left (List.getElem?_eq_some_iff.1 hu).1]
  exact hu

/-- More functions in the unit at one place. -/
theorem modify (r : Report) (place : Nat) (cs ws : List FunctionSpec) :
    r.Extends ⟨r.units.modify place (·.extend cs ws), r.failures⟩ := by
  refine ⟨List.prefix_rfl, ?_, ?_⟩
  · have hnames : (r.units.modify place (·.extend cs ws)).map (·.name) = r.units.map (·.name) := by
      apply List.ext_getElem
      · simp
      · intro i hi hi'
        rw [List.getElem_map, List.getElem_map, List.getElem_modify]
        split <;> rfl
    exact hnames ▸ List.prefix_rfl
  · intro i u hu
    by_cases hi : place = i
    · subst hi
      refine ⟨u.extend cs ws, ?_, .of_extend u cs ws⟩
      rw [List.getElem?_modify_eq, hu]
      rfl
    · exact ⟨u, (List.getElem?_modify_ne _ _ hi).trans hu, .refl u⟩

end Report.Extends

namespace Generator

/-! ## Steps and runs -/

theorem extends_locate (s : RunState) (name : Option String) :
    s.report.Extends (s.locate name).2.report := by
  unfold RunState.locate
  cases s.places.lookup name with
  | some place => exact .refl _
  | none => exact .of_isInitial List.prefix_rfl (List.prefix_append _ _)

/-- A step takes nothing back. -/
theorem extends_step (g : Generator) (s : RunState) (e : Endpoint) :
    s.report.Extends (g.step s e).report := by
  have hlocated := extends_locate s (g.unitOf e)
  have hmodified := hlocated.trans (.modify _ (s.locate (g.unitOf e)).1
    (g.constructorsOf (s.registry.missing (g.nestedOf e))) (g.wrappersOf [e]))
  rw [step_eq]
  -- the failures are those from before the step, whose units are the modified ones
  refine hmodified.trans (.of_isInitial ?_ List.prefix_rfl)
  show (s.locate (g.unitOf e)).2.report.failures <+: _
  rw [locate_failures, List.append_assoc]
  exact List.prefix_append _ _

/-- A run that goes on takes nothing back. -/
theorem extends_run_append (g : Generator) (es es' : List Endpoint) :
    (g.run es).Extends (g.run (es ++ es')) := by
  induction es' using List.reverseRecOn with
  | nil =>
    rw [List.append_nil]
    exact .refl _
  | append_singleton es' e ih =>
    refine ih.trans ?_
    unfold run stateAfter
    rw [← List.append_assoc, List.foldl_concat]
    exact extends_step g _ e

/-! ## Units that are left alone -/

theorem unitAfter_append_of_notMem (g : Generator) (es : List Endpoint) {es' : List Endpoint}
    {name : Option String} (h : name ∉ es'.map g.unitOf) :
    g.unitAfter (es ++ es') name = g.unitAfter es name := by
  induction es' using List.reverseRecOn with
  | nil => rw [List.append_nil]
  | append_singleton es' e ih =>
    rw [List.map_append, List.mem_append, not_or, List.map_singleton, List.mem_singleton] at h
    rw [← List.append_assoc, unitAfter_concat, if_neg h.2]
    exact ih h.1

/-- Endpoints of other units leave all units as they are. -/
theorem units_prefix_of_disjoint (g : Generator) {es es' : List Endpoint}
    (h : ∀ name ∈ es.map g.unitOf, name ∉ es'.map g.unitOf) :
    (g.run es).units <+: (g.run (es ++ es')).units := by
  rw [units_run, units_run, List.map_append, firstSeen_append, List.map_append]
  have hkept : (firstSeen (es.map g.unitOf)).map (g.unitAfter (es ++ es')) =
      (firstSeen (es.map g.unitOf)).map (g.unitAfter es) := by
    apply List.map_congr_left
    intro name hname
    exact unitAfter_append_of_notMem g es (h name (mem_firstSeen.1 hname))
  rw [hkept]
  exact List.prefix_append _ _

end Generator

/-! ## Files -/

/-- Units that come first have their files first. -/
theorem Code.files_prefix_of_units_prefix {naming : FileNaming} {units units' : List OutputUnit}
    (h : units <+: units') :
    ∃ code code', ofUnits naming units = .ok code ∧ ofUnits naming units' = .ok code' ∧
      code.files <+: code'.files := by
  obtain ⟨more, rfl⟩ := h
  obtain ⟨code, hcode, -⟩ := exists_ofUnits naming units
  obtain ⟨later, hlater, -⟩ := exists_ofUnits naming more
  refine ⟨code, ⟨code.files ++ later.files⟩, hcode, ?_, List.prefix_append _ _⟩
  unfold ofUnits at hcode hlater ⊢
  obtain ⟨files, hfiles, hcode⟩ := bind_eq_ok_iff.1 hcode
  obtain ⟨files', hfiles', hlater⟩ := bind_eq_ok_iff.1 hlater
  cases hcode
  cases hlater
  rw [List.filter_append, List.mapM_append, hfiles, hfiles']
  rfl

namespace Generator

/-- **A run that goes on extends its report.** The failures, the names of the units, and the
functions of each unit stay where they are, and what is new comes after them. With a unit for every
client type, endpoints of other client types leave the units as they are, and their files too. -/
theorem run_extends (g : Generator) (es es' : List Endpoint) :
    (g.run es).Extends (g.run (es ++ es')) ∧
      (g.grouped = true →
        (∀ e ∈ es, ∀ e' ∈ es', e'.declaringType ≠ e.declaringType) →
        (g.run es).units <+: (g.run (es ++ es')).units ∧
          ∀ naming : FileNaming, ∃ code code', Code.ofReport naming (g.run es) = .ok code ∧
            Code.ofReport naming (g.run (es ++ es')) = .ok code' ∧
            code.files <+: code'.files) := by
  refine ⟨extends_run_append g es es', ?_⟩
  intro hgrouped hothers
  have hunit : ∀ e : Endpoint, g.unitOf e = some e.declaringType := fun _ => if_pos hgrouped
  have hdisjoint : ∀ name ∈ es.map g.unitOf, name ∉ es'.map g.unitOf := by
    intro name hname hname'
    obtain ⟨e, he, rfl⟩ := List.mem_map.1 hname
    obtain ⟨e', he', heq⟩ := List.mem_map.1 hname'
    rw [hunit, hunit] at heq
    exact hothers e he e' he' (Option.some.inj heq)
  have hunits := units_prefix_of_disjoint g hdisjoint
  exact ⟨hunits, fun naming => Code.files_prefix_of_units_prefix hunits⟩

/-- An endpoint of another client needs sites too. The constructor function of sites stays where it
is, and so does the failure of the endpoint that cannot be built. -/
theorem run_extends_racks :
    let before := [createRack, mountRack]
    racks.grouped = true ∧
      (∀ e ∈ before, ∀ e' ∈ [updateRack], e'.declaringType ≠ e.declaringType) ∧
      ((racks.run before).units.map fun u => (u.name, u.constructors.length)) =
        [(some "FloorApi", 1)] ∧
      ((racks.run (before ++ [updateRack])).units.map fun u => (u.name, u.constructors.length)) =
        [(some "FloorApi", 1), (some "AuditApi", 0)] ∧
      (racks.run before).Extends (racks.run (before ++ [updateRack])) ∧
      (racks.run before).units <+: (racks.run (before ++ [updateRack])).units ∧
      ∀ naming : FileNaming, ∃ code code', Code.ofReport naming (racks.run before) = .ok code ∧
        Code.ofReport naming (racks.run (before ++ [updateRack])) = .ok code' ∧
        code.files <+: code'.files := by
  have hothers : ∀ e ∈ [createRack, mountRack], ∀ e' ∈ [updateRack],
      e'.declaringType ≠ e.declaringType := by decide
  obtain ⟨hextends, hunits⟩ := run_extends racks [createRack, mountRack] [updateRack]
  exact ⟨rfl, hothers, by decide, by decide, hextends, hunits rfl hothers⟩

end Generator

end WrapperGen
