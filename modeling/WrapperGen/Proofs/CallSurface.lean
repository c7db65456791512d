import Mathlib.Data.List.Nodup
import WrapperGen.Data.Results
import WrapperGen.Surface.Lifted
/-!
# The surface of a declared parameter list

1. Grouping succeeds exactly when the catalog describes every complex parameter, and then the
   groups stand at the places of their parameters (`ofParametersFrom_eq_ok_iff`).
2. Such groups are in order already, so the surface is what they are lifted to, one after another
   (`surface_ofParameters`).
3. The part of the surface that comes from one place is what the group there is lifted to
   (`filter_lifted`, `exists_group`).
4. Every parameter gives its own names to the surface (`map_name_surface`).
-/

namespace WrapperGen.ParameterGroup

variable {catalog : Catalog}

/-! ## Groups of declared parameters -/

theorem ofParameter_of_isComplex {p : Parameter} (h : p.type.isComplex = true) {k : Nat}
    {g : ParameterGroup} :
    ofParameter catalog k p = .ok g ↔
      ∃ shape, catalog.describe p.type.unwrapNullable = .ok shape ∧
        g = ⟨p.name, p.type, true, shape.properties, k⟩ := by
  unfold ofParameter
  rw [if_pos h, bind_eq_ok_iff]
  refine exists_congr fun shape => and_congr_right fun _ => ?_
  exact ⟨fun e => (Except.ok.inj e).symm, fun e => congrArg Except.ok e.symm⟩

theorem ofParameter_of_not_isComplex {p : Parameter} (h : p.type.isComplex = false) (k : Nat) :
    ofParameter catalog k p = .ok ⟨p.name, p.type, false, [], k⟩ := by
  unfold ofParameter
  rw [if_neg (by simp [h])]
  rfl

theorem position_of_ofParameter {p : Parameter} {k : Nat} {g : ParameterGroup}
    (h : ofParameter catalog k p = .ok g) : g.position = k := by
  cases hp : p.type.isComplex with
  | true =>
    obtain ⟨shape, -, rfl⟩ := (ofParameter_of_isComplex hp).1 h
    rfl
  | false =>
    rw [ofParameter_of_not_isComplex hp k] at h
    rw [← Except.ok.inj h]

theorem isWalk_ofParametersFrom (catalog : Catalog) :
    IsWalk (ofParameter catalog) (ofParametersFrom catalog) := ⟨fun _ => rfl, fun _ _ _ => rfl⟩

/-- Grouping a list succeeds when grouping each parameter at its place does. -/
theorem ofParametersFrom_eq_ok_iff {ps : List Parameter} {k : Nat} {gs : List ParameterGroup} :
    ofParametersFrom catalog k ps = .ok gs ↔
      List.Forall₂ (fun d g => ofParameter catalog d.2 d.1 = .ok g) (ps.zipIdx k) gs :=
  (isWalk_ofParametersFrom catalog).eq_ok_iff

/-- Groups stand at the places where their parameters are declared. -/
theorem map_position_of_ofParametersFrom {ps : List Parameter} {k : Nat}
    {gs : List ParameterGroup} (h : ofParametersFrom catalog k ps = .ok gs) :
    gs.map (·.position) = List.range' k ps.length := by
  have h' := ofParametersFrom_eq_ok_iff.1 h
  have hlen : gs.length = ps.length := by rw [← h'.length_eq, List.length_zipIdx]
  refine List.ext_getElem (by simp [hlen]) fun i hi hi' => ?_
  rw [List.length_map] at hi
  have hz : i < (ps.zipIdx k).length := by rw [List.length_zipIdx]; omega
  have hg := (List.forall₂_iff_get.1 h').2 i hz hi
  simpa using position_of_ofParameter hg

/-! ## Sorting -/

theorem insertByPosition_perm (g : ParameterGroup) (gs : List ParameterGroup) :
    (insertByPosition g gs).Perm (g :: gs) := by
  induction gs with
  | nil => exact .refl _
  | cons h gs ih =>
    rw [insertByPosition]
    by_cases hle : g.position ≤ h.position
    · rw [if_pos hle]
    · rw [if_neg hle]
      exact (ih.cons h).trans (.swap g h gs)

theorem sortByPosition_perm (gs : List ParameterGroup) : (sortByPosition gs).Perm gs := by
  induction gs with
  | nil => exact .refl _
  | cons g gs ih => exact (insertByPosition_perm g _).trans (ih.cons g)

/-- The surface has what the groups are lifted to, in whatever order they come. -/
theorem mem_surface {gs : List ParameterGroup} {p : SurfaceParameter} :
    p ∈ surface gs ↔ ∃ g ∈ gs, p ∈ g.lift := by
  unfold surface
  rw [List.mem_flatMap]
  exact exists_congr fun g => and_congr_left fun _ => (sortByPosition_perm gs).mem_iff

theorem insertByPosition_of_forall_le {g : ParameterGroup} {gs : List ParameterGroup}
    (h : ∀ g' ∈ gs, g.position ≤ g'.position) : insertByPosition g gs = g :: gs := by
  cases gs with
  | nil => rfl
  | cons g' gs => rw [insertByPosition, if_pos (h g' List.mem_cons_self)]

theorem sortByPosition_of_pairwise {gs : List ParameterGroup}
    (h : gs.Pairwise fun g g' => g.position ≤ g'.position) : sortByPosition gs = gs := by
  induction h with
  | nil => rfl
  | @cons g gs hle _ ih =>
    show insertByPosition g (sortByPosition gs) = g :: gs
    rw [ih, insertByPosition_of_forall_le hle]

/-- The surface of declared parameters is made in the order of their declaration. -/
theorem surface_ofParameters {ps : List Parameter} {gs : List ParameterGroup}
    (h : ofParameters catalog ps = .ok gs) : surface gs = gs.flatMap lift := by
  have hpos : (gs.map (·.position)).Pairwise (· ≤ ·) := by
    rw [map_position_of_ofParametersFrom h]
    exact List.pairwise_le_range'
  rw [surface, sortByPosition_of_pairwise (List.pairwise_map.1 hpos)]

/-! ## Where entries come from -/

theorem groupPosition_of_mem_lift {g : ParameterGroup} {p : SurfaceParameter} (h : p ∈ g.lift) :
    p.groupPosition = g.position := by
  unfold lift at h
  split at h
  · obtain ⟨q, -, rfl⟩ := List.mem_map.1 h
    rfl
  · rw [List.mem_singleton.1 h]
    rfl

theorem filter_lift_self (g : ParameterGroup) :
    g.lift.filter (·.groupPosition == g.position) = g.lift :=
  List.filter_eq_self.2 fun _ h => by simpa using groupPosition_of_mem_lift h

theorem filter_lift_of_ne {g : ParameterGroup} {k : Nat} (h : g.position ≠ k) :
    g.lift.filter (·.groupPosition == k) = [] :=
  List.filter_eq_nil_iff.2 fun _ hp => by simpa [groupPosition_of_mem_lift hp] using h

/-- What comes from the place of a group is the group's own. -/
theorem filter_lifted {gs : List ParameterGroup} (hnodup : (gs.map (·.position)).Nodup)
    {g : ParameterGroup} (hg : g ∈ gs) :
    (gs.flatMap lift).filter (·.groupPosition == g.position) = g.lift := by
  induction gs with
  | nil => cases hg
  | cons h gs ih =>
    rw [List.map_cons, List.nodup_cons] at hnodup
    rw [List.flatMap_cons, List.filter_append]
    rcases List.mem_cons.1 hg with rfl | hmem
    · have hrest : (gs.flatMap lift).filter (·.groupPosition == g.position) = [] := by
        rw [List.filter_flatMap, List.flatMap_eq_nil_iff]
        intro g' hg'
        exact filter_lift_of_ne fun e => hnodup.1 (e ▸ List.mem_map_of_mem hg')
      rw [filter_lift_self, hrest, List.append_nil]
    · have hne : h.position ≠ g.position := fun e => hnodup.1 (e ▸ List.mem_map_of_mem hmem)
      rw [filter_lift_of_ne hne, List.nil_append, ih hnodup.2 hmem]

/-- The entries of the surface of declared parameters that come from one place. -/
theorem filter_surface {ps : List Parameter} {gs : List ParameterGroup}
    (h : ofParameters catalog ps = .ok gs) {g : ParameterGroup} (hg : g ∈ gs) :
    (surface gs).filter (·.groupPosition == g.position) = g.lift := by
  rw [surface_ofParameters h]
  refine filter_lifted ?_ hg
  rw [map_position_of_ofParametersFrom h]
  exact List.nodup_range'

/-- The group of a declared parameter, and what it gives to the call surface. -/
theorem exists_group {ps : List Parameter} {gs : List ParameterGroup}
    (h : ofParameters catalog ps = .ok gs) {d : Parameter × Nat} (hd : d ∈ ps.zipIdx) :
    ∃ g, ofParameter catalog d.2 d.1 = .ok g ∧
      (surface gs).filter (·.groupPosition == d.2) = g.lift := by
  have hgroups := ofParametersFrom_eq_ok_iff.1 h
  obtain ⟨i, hi, rfl⟩ := List.mem_iff_get.1 hd
  have hig : i.val < gs.length := hgroups.length_eq ▸ i.isLt
  have hg := (List.forall₂_iff_get.1 hgroups).2 i.val i.isLt hig
  have hmembers := filter_surface h (List.get_mem gs ⟨i.val, hig⟩)
  rw [position_of_ofParameter hg] at hmembers
  exact ⟨_, hg, hmembers⟩

/-- What the groups of parameters give to the surface one by one, the surface gives in declared
order. -/
theorem map_surface {β : Type} {f : SurfaceParameter → β} {entries : Parameter → List β}
    (hlift : ∀ {p k g}, ofParameter catalog k p = .ok g → g.lift.map f = entries p)
    {ps : List Parameter} {gs : List ParameterGroup} (h : ofParameters catalog ps = .ok gs) :
    (surface gs).map f = ps.flatMap entries := by
  rw [surface_ofParameters h]
  have hgroups := ofParametersFrom_eq_ok_iff.1 h
  clear h
  generalize 0 = k at hgroups
  induction ps generalizing k gs with
  | nil =>
    rw [List.zipIdx_nil, List.forall₂_nil_left_iff] at hgroups
    rw [hgroups]
    rfl
  | cons p ps ih =>
    rw [List.zipIdx_cons, List.forall₂_cons_left_iff] at hgroups
    obtain ⟨g, gs, hg, hgs, rfl⟩ := hgroups
    rw [List.flatMap_cons, List.map_append, hlift hg, ih _ hgs, List.flatMap_cons]

/-! ## Names -/

/-- The names under which a parameter appears on the surface. -/
def surfaceNames (catalog : Catalog) (p : Parameter) : List String :=
  if p.type.isComplex then
    match catalog.describe p.type.unwrapNullable with
    | .ok shape => shape.writable.map (·.name)
    | .error _ => []
  else [p.name]

theorem surfaceNames_of_not_isComplex {p : Parameter} (h : p.type.isComplex = false) :
    surfaceNames catalog p = [p.name] := if_neg (by simp [h])

theorem surfaceNames_of_describe {p : Parameter} (h : p.type.isComplex = true) {shape : Shape}
    (hshape : catalog.describe p.type.unwrapNullable = .ok shape) :
    surfaceNames catalog p = shape.writable.map (·.name) := by
  unfold surfaceNames
  rw [if_pos h, hshape]

theorem map_name_lift {p : Parameter} {k : Nat} {g : ParameterGroup}
    (h : ofParameter catalog k p = .ok g) : g.lift.map (·.name) = surfaceNames catalog p := by
  cases hp : p.type.isComplex with
  | true =>
    obtain ⟨shape, hshape, rfl⟩ := (ofParameter_of_isComplex hp).1 h
    rw [surfaceNames_of_describe hp hshape, lift, if_pos rfl, List.map_map]
    rfl
  | false =>
    rw [ofParameter_of_not_isComplex hp k] at h
    rw [← Except.ok.inj h, surfaceNames_of_not_isComplex hp]
    rfl

/-- The names on the surface are those of the parameters, in declared order. -/
theorem map_name_surface {ps : List Parameter} {gs : List ParameterGroup}
    (h : ofParameters catalog ps = .ok gs) :
    (surface gs).map (·.name) = ps.flatMap (surfaceNames catalog) := map_surface map_name_lift h

end WrapperGen.ParameterGroup
