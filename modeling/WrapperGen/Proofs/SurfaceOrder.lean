import Mathlib.Algebra.Ring.Nat
import Mathlib.Data.List.Nodup
import WrapperGen.Data.FirstSeen
import WrapperGen.Proofs.CallSurface
/-!
# The order of a call surface

The surface of groups in whatever order, and at whatever positions.

1. Sorting puts groups in ascending order and keeps the order of those at one position
   (`pairwise_sortByPosition`, `filter_sortByPosition`), so groups at different positions are sorted
   in one way only (`sortByPosition_eq_of_perm`).
2. Each group gives the surface a block of entries: its settable properties if it is complex,
   otherwise itself (`BlockOf`). The blocks stand in the order of the sorted groups
   (`layout_surface`).
3. So the declared order can be told from the surface (`surface_recovers_order`).
-/

namespace WrapperGen.ParameterGroup

/-! ## Sorting -/

theorem pairwise_insertByPosition {g : ParameterGroup} {gs : List ParameterGroup}
    (h : gs.Pairwise fun g g' => g.position ≤ g'.position) :
    (insertByPosition g gs).Pairwise fun g g' => g.position ≤ g'.position := by
  induction h with
  | nil => exact List.pairwise_singleton _ _
  | @cons g' gs hle hgs ih =>
    rw [insertByPosition]
    split
    · next hfirst =>
      refine .cons ?_ (.cons hle hgs)
      rw [List.forall_mem_cons]
      exact ⟨hfirst, fun g'' hmem => Nat.le_trans hfirst (hle g'' hmem)⟩
    · next hlater =>
      refine .cons (fun g'' hmem => ?_) ih
      rcases List.mem_cons.1 ((insertByPosition_perm g gs).mem_iff.1 hmem) with rfl | hmem
      · exact Nat.le_of_not_le hlater
      · exact hle g'' hmem

theorem pairwise_sortByPosition (gs : List ParameterGroup) :
    (sortByPosition gs).Pairwise fun g g' => g.position ≤ g'.position := by
  induction gs with
  | nil => exact .nil
  | cons g gs ih => exact pairwise_insertByPosition ih

/-- A group comes before those at its own position. -/
theorem filter_insertByPosition (g : ParameterGroup) (gs : List ParameterGroup) (k : Nat) :
    (insertByPosition g gs).filter (·.position == k) = (g :: gs).filter (·.position == k) := by
  induction gs with
  | nil => rfl
  | cons g' gs ih =>
    rw [insertByPosition]
    split
    · rfl
    · next hlater =>
      rw [List.filter_cons, ih, List.filter_cons, List.filter_cons, List.filter_cons]
      -- the two groups are at different positions, so one of them is left out
      by_cases hg : g.position = k
      · have hg' : g'.position ≠ k := by omega
        simp [hg, hg']
      · simp [hg]

theorem filter_sortByPosition (gs : List ParameterGroup) (k : Nat) :
    (sortByPosition gs).filter (·.position == k) = gs.filter (·.position == k) := by
  induction gs with
  | nil => rfl
  | cons g gs ih =>
    show (insertByPosition g (sortByPosition gs)).filter _ = _
    rw [filter_insertByPosition, List.filter_cons, List.filter_cons, ih]

theorem sortByPosition_eq_of_perm {gs gs' : List ParameterGroup}
    (hnodup : (gs.map (·.position)).Nodup) (h : gs'.Perm gs) :
    sortByPosition gs' = sortByPosition gs := by
  have hsorted : (sortByPosition gs').Perm (sortByPosition gs) :=
    (sortByPosition_perm gs').trans (h.trans (sortByPosition_perm gs).symm)
  refine hsorted.eq_of_pairwise ?_ (pairwise_sortByPosition gs') (pairwise_sortByPosition gs)
  intro g g' hg hg' hle hge
  exact List.inj_on_of_nodup_map hnodup (h.mem_iff.1 ((sortByPosition_perm gs').mem_iff.1 hg))
    ((sortByPosition_perm gs).mem_iff.1 hg') (Nat.le_antisymm hle hge)

/-! ## Blocks -/

/-- The entries that a group gives to the surface. -/
inductive BlockOf : ParameterGroup → List SurfaceParameter → Prop where
  | complex {g : ParameterGroup} (h : g.isComplex = true) :
      BlockOf g ((g.properties.filter (·.canWrite)).map fun p =>
        { name := p.name, type := p.type, isComplex := p.type.isComplex, groupName := g.name,
          groupPosition := g.position, groupType := g.type, property := some p.name })
  | simple {g : ParameterGroup} (h : g.isComplex = false) :
      BlockOf g [
        { name := g.name, type := g.type, isComplex := false, groupName := g.name,
          groupPosition := g.position, groupType := g.type, property := none }]

theorem blockOf_lift (g : ParameterGroup) : BlockOf g g.lift := by
  unfold lift
  cases hg : g.isComplex with
  | true => exact .complex hg
  | false => exact .simple hg

/-- The group gives the surface an entry. -/
def Contributes (g : ParameterGroup) : Prop :=
  g.isComplex = false ∨ ∃ p ∈ g.properties, p.canWrite = true

instance (g : ParameterGroup) : Decidable g.Contributes := inferInstanceAs (Decidable (_ ∨ _))

theorem contributes_iff {g : ParameterGroup} : g.Contributes ↔ ∃ p, p ∈ g.lift := by
  unfold Contributes lift writable
  cases g.isComplex with
  | true => simp
  | false => simp

theorem mem_map_groupPosition_surface {gs : List ParameterGroup} {k : Nat} :
    k ∈ (surface gs).map (·.groupPosition) ↔ ∃ g ∈ gs, g.Contributes ∧ g.position = k := by
  simp only [List.mem_map, mem_surface, contributes_iff]
  constructor
  · rintro ⟨p, ⟨g, hg, hp⟩, rfl⟩
    exact ⟨g, hg, ⟨p, hp⟩, (groupPosition_of_mem_lift hp).symm⟩
  · rintro ⟨g, hg, ⟨p, hp⟩, rfl⟩
    exact ⟨p, ⟨g, hg, hp⟩, groupPosition_of_mem_lift hp⟩

theorem length_lift (g : ParameterGroup) :
    g.lift.length = if g.isComplex then g.writable.length else 1 := by
  unfold lift
  split
  · rw [List.length_map]
  · rfl

/-- Simple groups have one entry each, complex ones one for each settable property. -/
theorem length_surface_eq (gs : List ParameterGroup) :
    (surface gs).length = gs.countP (fun g => !g.isComplex) +
      ((gs.filter (·.isComplex)).map (·.writable.length)).sum := by
  have hperm : (surface gs).Perm (gs.flatMap lift) := (sortByPosition_perm gs).flatMap_right lift
  rw [hperm.length_eq]
  clear hperm
  induction gs with
  | nil => rfl
  | cons g gs ih =>
    rw [List.flatMap_cons, List.length_append, ih, length_lift, List.countP_cons, List.filter_cons]
    cases g.isComplex with
    | true =>
      rw [if_pos rfl, if_pos rfl, if_neg (by decide), List.map_cons, List.sum_cons]
      omega
    | false =>
      rw [if_neg Bool.false_ne_true, if_pos (by decide), if_neg Bool.false_ne_true]
      omega

/-- What comes from one position is the blocks of the groups there, in the order given. -/
theorem filter_surface_eq (gs : List ParameterGroup) (k : Nat) :
    (surface gs).filter (·.groupPosition == k) =
      (gs.filter (·.position == k)).flatMap lift := by
  rw [← filter_sortByPosition, surface]
  induction sortByPosition gs with
  | nil => rfl
  | cons g order ih =>
    rw [List.flatMap_cons, List.filter_append, ih, List.filter_cons]
    by_cases hg : g.position = k
    · subst hg
      rw [filter_lift_self, if_pos (by simp), List.flatMap_cons]
    · rw [filter_lift_of_ne hg, if_neg (by simpa using hg), List.nil_append]

theorem pairwise_groupPosition_surface (gs : List ParameterGroup) :
    ((surface gs).map (·.groupPosition)).Pairwise (· ≤ ·) := by
  rw [List.pairwise_map, surface, List.pairwise_flatMap]
  constructor
  · intro g _
    refine List.pairwise_of_forall_mem_list fun p hp q hq => ?_
    exact Nat.le_of_eq ((groupPosition_of_mem_lift hp).trans (groupPosition_of_mem_lift hq).symm)
  · refine (pairwise_sortByPosition gs).imp fun hle p hp q hq => ?_
    rw [groupPosition_of_mem_lift hp, groupPosition_of_mem_lift hq]
    exact hle

/-! ## The whole surface -/

/-- The entries are those of the groups in ascending order, where groups at one position keep the
order given. -/
structure Layout (gs : List ParameterGroup) (entries : List SurfaceParameter) : Prop where
  count : entries.length = gs.countP (fun g => !g.isComplex) +
    ((gs.filter (·.isComplex)).map (·.writable.length)).sum
  ascending : (entries.map (·.groupPosition)).Pairwise (· ≤ ·)
  /-- Each group has its entries in a row. -/
  blocks : ∃ (order : List ParameterGroup) (blocks : List (List SurfaceParameter)),
    order.Perm gs ∧ (∀ k, order.filter (·.position == k) = gs.filter (·.position == k)) ∧
    List.Forall₂ BlockOf order blocks ∧ entries = blocks.flatten
  /-- What comes from one position is the entries of the groups there, in the order given. -/
  together : ∀ k, ∃ blocks : List (List SurfaceParameter),
    List.Forall₂ BlockOf (gs.filter (·.position == k)) blocks ∧
    entries.filter (·.groupPosition == k) = blocks.flatten

theorem forall₂_blockOf_lift (gs : List ParameterGroup) :
    List.Forall₂ BlockOf gs (gs.map lift) := by
  rw [List.forall₂_map_right_iff, List.forall₂_same]
  exact fun g _ => blockOf_lift g

theorem layout_surface (gs : List ParameterGroup) : Layout gs (surface gs) where
  count := length_surface_eq gs
  ascending := pairwise_groupPosition_surface gs
  blocks := ⟨sortByPosition gs, _, sortByPosition_perm gs, filter_sortByPosition gs,
    forall₂_blockOf_lift _, List.flatMap_def⟩
  together := fun k => ⟨_, forall₂_blockOf_lift _, by rw [filter_surface_eq, List.flatMap_def]⟩

/-- The positions on the surface, in the order of first occurrences, are those of the groups with an
entry, in ascending order. -/
theorem firstSeen_groupPosition_surface {gs : List ParameterGroup}
    (hnodup : (gs.map (·.position)).Nodup) :
    firstSeen ((surface gs).map (·.groupPosition)) =
      ((gs.filter fun g => g.Contributes).map (·.position)).mergeSort := by
  have hmerged := List.mergeSort_perm ((gs.filter fun g => g.Contributes).map (·.position))
    fun i j => decide (i ≤ j)
  have hcontributing : ((gs.filter fun g => g.Contributes).map (·.position)).Nodup :=
    hnodup.sublist (List.filter_sublist.map _)
  refine List.Perm.eq_of_pairwise (fun _ _ _ _ => Nat.le_antisymm)
    ((pairwise_groupPosition_surface gs).sublist (firstSeen_sublist _)) ?_ ?_
  · refine (List.pairwise_mergeSort ?_ ?_ _).imp of_decide_eq_true
    · intro i j k hij hjk
      exact decide_eq_true (Nat.le_trans (of_decide_eq_true hij) (of_decide_eq_true hjk))
    · intro i j
      rw [Bool.or_eq_true, decide_eq_true_iff, decide_eq_true_iff]
      exact Nat.le_total i j
  · refine (List.perm_ext_iff_of_nodup (nodup_firstSeen _) (hmerged.nodup_iff.2 hcontributing)).2 ?_
    intro k
    rw [mem_firstSeen, mem_map_groupPosition_surface, hmerged.mem_iff]
    simp only [List.mem_map, List.mem_filter, decide_eq_true_eq, and_assoc]

/-- **A surface recovers the declared order.** Groups give their entries in blocks that stand in
ascending order, and those at one position in the order of the groups. Where positions are
different, the order in which the groups come makes no difference, and the positions met along the
surface are those of the groups that have an entry, in ascending order. -/
theorem surface_recovers_order (gs : List ParameterGroup) :
    Layout gs (surface gs) ∧
    ((gs.map (·.position)).Nodup →
      (∀ gs', gs'.Perm gs → surface gs' = surface gs) ∧
      firstSeen ((surface gs).map (·.groupPosition)) =
        ((gs.filter fun g => g.Contributes).map (·.position)).mergeSort) := by
  refine ⟨layout_surface gs, fun hnodup => ⟨fun gs' hperm => ?_, ?_⟩⟩
  · rw [surface, sortByPosition_eq_of_perm hnodup hperm, surface]
  · exact firstSeen_groupPosition_surface hnodup

/-- Groups out of order: a number, a rack with a property that cannot be set, and a request on which
nothing can be set. -/
def shuffledGroups : List ParameterGroup :=
  [⟨"limit", .plain "System" "Int32" .value, false, [], 5⟩,
    ⟨"rack", .plain "Api.Model" "Rack" .reference, true,
      [.plain "Name" (.plain "System" "String" .reference),
        (Property.plain "Id" (.plain "System" "Int32" .value)).readOnly,
        .plain "Site" (.plain "Api.Model" "Site" .reference)], 1⟩,
    ⟨"marker", .plain "Api.Model" "Marker" .reference, true, [], 3⟩]

theorem surface_recovers_order_shuffled :
    (shuffledGroups.map (·.position)).Nodup ∧
      (surface shuffledGroups).map (·.name) = ["Name", "Site", "limit"] ∧
      surface shuffledGroups.reverse = surface shuffledGroups ∧
      ((shuffledGroups.filter fun g => g.Contributes).map (·.position)).mergeSort = [1, 5] := by
  have hnodup : (shuffledGroups.map (·.position)).Nodup := by decide
  obtain ⟨-, hdistinct⟩ := surface_recovers_order shuffledGroups
  obtain ⟨hperm, hpositions⟩ := hdistinct hnodup
  exact ⟨hnodup, by decide, hperm _ (List.reverse_perm _), hpositions.symm.trans (by decide)⟩

end WrapperGen.ParameterGroup
