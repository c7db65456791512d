import Mathlib.Data.List.Nodup
/-!
# Lists with keys

1. Where keys are distinct, changing the entry at the place of one key changes the entry of that
   key (`modify_map_of_nodup`).
2. Gathering the members of a list by keys that cover it loses none (`gather_perm`).
-/

namespace WrapperGen

variable {α β κ : Type} [DecidableEq κ]

omit [DecidableEq κ] in
theorem getElem?_concat_eq_some_iff {l : List κ} {a b : κ} {i : Nat} :
    (l ++ [a])[i]? = some b ↔ l[i]? = some b ∨ i = l.length ∧ a = b := by
  rcases Nat.lt_trichotomy i l.length with h | rfl | h
  · rw [List.getElem?_append_left h]
    simp [Nat.ne_of_lt h]
  · simp
  · rw [List.getElem?_eq_none (by simp; omega), List.getElem?_eq_none (by omega)]
    simp [Nat.ne_of_gt h]

theorem modify_map_of_nodup {keys : List κ} (hnodup : keys.Nodup) {i : Nat} {k : κ}
    (hk : keys[i]? = some k) (f : κ → β) (change : β → β) :
    (keys.map f).modify i change = keys.map fun k' => if k' = k then change (f k') else f k' := by
  obtain ⟨hi, rfl⟩ := List.getElem?_eq_some_iff.1 hk
  refine List.ext_getElem (by simp) fun j hj hj' => ?_
  rw [List.length_modify, List.length_map] at hj
  rw [List.getElem_modify, List.getElem_map, List.getElem_map]
  by_cases h : i = j
  · subst h
    rw [if_pos rfl, if_pos rfl]
  · have hne : keys[j] ≠ keys[i] := fun e => h ((hnodup.getElem_inj_iff).1 e).symm
    rw [if_neg h, if_neg hne]

/-- Nothing is lost or doubled when members are gathered by distinct keys that cover them. -/
theorem gather_perm {key : α → κ} {keys : List κ} (hnodup : keys.Nodup) {l : List α}
    (hl : ∀ a ∈ l, key a ∈ keys) :
    (keys.flatMap fun k => l.filter fun a => key a = k).Perm l := by
  induction keys generalizing l with
  | nil =>
    have hnil : l = [] := List.eq_nil_iff_forall_not_mem.2 fun a ha => by simpa using hl a ha
    rw [hnil]
    exact .nil
  | cons k keys ih =>
    rw [List.nodup_cons] at hnodup
    -- what the other keys gather is what they gather from the members without this key
    have hothers : (keys.flatMap fun k' => l.filter fun a => key a = k') =
        keys.flatMap fun k' => (l.filter fun a => !decide (key a = k)).filter fun a =>
          key a = k' := by
      refine List.flatMap_congr fun k' hk' => ?_
      rw [List.filter_filter]
      refine List.filter_congr fun a _ => ?_
      by_cases h : key a = k'
      · have hne : k' ≠ k := ne_of_mem_of_not_mem hk' hnodup.1
        simp [h, hne]
      · simp [h]
    rw [List.flatMap_cons, hothers]
    refine ((List.Perm.refl _).append (ih hnodup.2 fun a ha => ?_)).trans
      (List.filter_append_perm _ l)
    obtain ⟨hmem, hkey⟩ := List.mem_filter.1 ha
    exact (List.mem_cons.1 (hl a hmem)).resolve_left (by simpa using hkey)

end WrapperGen
