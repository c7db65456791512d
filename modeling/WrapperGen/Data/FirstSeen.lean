/-!
# First occurrences

`firstSeen l` lists the elements of `l` once each, in the order in which they first occur, and
`repeated l` those that occur again, in the order in which they first recur.

Main statements: `mem_firstSeen`, `nodup_firstSeen`, `firstSeen_filter`, `firstSeen_append`,
`firstSeen_map`, `mem_repeated` and `repeated_eq_nil_iff`.
-/

namespace WrapperGen

variable {α : Type} [DecidableEq α]

/-- Each element once, in the order of first occurrences. -/
def firstSeen : List α → List α
  | [] => []
  | a :: as => a :: (firstSeen as).filter (· ≠ a)

@[simp] theorem mem_firstSeen {a : α} {l : List α} : a ∈ firstSeen l ↔ a ∈ l := by
  induction l with
  | nil => rfl
  | cons b l ih =>
    simp only [firstSeen, List.mem_cons, List.mem_filter, ih, decide_eq_true_eq]
    by_cases h : a = b <;> simp [h]

theorem nodup_firstSeen (l : List α) : (firstSeen l).Nodup := by
  induction l with
  | nil => exact List.nodup_nil
  | cons a l ih =>
    simp only [firstSeen, List.nodup_cons, List.mem_filter]
    exact ⟨by simp, ih.filter _⟩

theorem firstSeen_sublist (l : List α) : (firstSeen l).Sublist l := by
  induction l with
  | nil => exact List.Sublist.slnil
  | cons a l ih => exact (List.filter_sublist.trans ih).cons_cons a

theorem firstSeen_filter (p : α → Bool) (l : List α) :
    firstSeen (l.filter p) = (firstSeen l).filter p := by
  induction l with
  | nil => rfl
  | cons a l ih =>
    by_cases h : p a = true
    · simp only [firstSeen, List.filter_cons, h, if_true, ih, List.filter_filter, Bool.and_comm]
    · simp only [firstSeen, List.filter_cons, h, Bool.false_eq_true, if_false, ih,
        List.filter_filter]
      refine List.filter_congr fun b _ => ?_
      by_cases hb : b = a
      · simp [hb, h]
      · simp [hb]

theorem firstSeen_append (l m : List α) :
    firstSeen (l ++ m) = firstSeen l ++ (firstSeen m).filter (· ∉ l) := by
  induction l with
  | nil => exact (List.filter_eq_self.2 (by simp)).symm
  | cons a l ih =>
    rw [List.cons_append, firstSeen, ih, List.filter_append, firstSeen, List.cons_append,
      List.filter_filter]
    congr 2
    refine List.filter_congr fun b _ => ?_
    by_cases h : b = a <;> simp [h]

theorem firstSeen_concat_of_mem {a : α} {l : List α} (h : a ∈ l) :
    firstSeen (l ++ [a]) = firstSeen l := by
  simp [firstSeen_append, firstSeen, h]

theorem firstSeen_concat_of_notMem {a : α} {l : List α} (h : a ∉ l) :
    firstSeen (l ++ [a]) = firstSeen l ++ [a] := by
  simp [firstSeen_append, firstSeen, h]

theorem firstSeen_map {β : Type} [DecidableEq β] {f : α → β} (hf : ∀ a b, f a = f b → a = b)
    (l : List α) : firstSeen (l.map f) = (firstSeen l).map f := by
  induction l with
  | nil => rfl
  | cons a l ih =>
    rw [List.map_cons, firstSeen, ih, firstSeen, List.map_cons, List.filter_map]
    congr 2
    refine List.filter_congr fun b _ => ?_
    exact decide_eq_decide.2 (not_congr ⟨hf b a, fun h => h ▸ rfl⟩)

theorem firstSeen_map_const {β : Type} (a : α) {l : List β} (h : l ≠ []) :
    firstSeen (l.map fun _ => a) = [a] := by
  obtain ⟨b, l, rfl⟩ := List.exists_cons_of_ne_nil h
  rw [List.map_cons, firstSeen, List.filter_eq_nil_iff.2]
  intro c hc
  obtain ⟨_, -, rfl⟩ := List.mem_map.1 (mem_firstSeen.1 hc)
  simp

/-- The elements that occur again once `before` has been seen; those in `told` are left out. -/
def repeatedAfter (before told : List α) : List α → List α
  | [] => []
  | a :: as =>
    if a ∈ before ∧ a ∉ told then a :: repeatedAfter before (a :: told) as
    else repeatedAfter (a :: before) told as

/-- Each element that occurs more than once, in the order of second occurrences. -/
def repeated (l : List α) : List α := repeatedAfter [] [] l

theorem mem_repeatedAfter {a : α} {before told l : List α} :
    a ∈ repeatedAfter before told l ↔
      a ∉ told ∧ (a ∈ before ∧ a ∈ l ∨ 2 ≤ l.count a) := by
  induction l generalizing before told with
  | nil => simp [repeatedAfter]
  | cons b l ih =>
    simp only [repeatedAfter]
    by_cases hb : b ∈ before ∧ b ∉ told
    · rw [if_pos hb, List.mem_cons, ih]
      by_cases h : a = b
      · subst h; simp [hb.1, hb.2]
      · simp [h, List.count_cons_of_ne (Ne.symm h)]
    · rw [if_neg hb, ih]
      by_cases h : a = b
      · subst h
        simp only [List.mem_cons, true_or, true_and, List.count_cons_self]
        have : a ∈ l ↔ 1 ≤ l.count a := List.one_le_count_iff.symm
        simp only [and_true, this]
        constructor
        · rintro ⟨ht, h | h⟩
          · exact ⟨ht, .inr (by omega)⟩
          · exact ⟨ht, .inr (by omega)⟩
        · rintro ⟨ht, h | h⟩
          · exact absurd ⟨h, ht⟩ hb
          · exact ⟨ht, .inl (by omega)⟩
      · simp [h, List.count_cons_of_ne (Ne.symm h)]

theorem mem_repeated {a : α} {l : List α} : a ∈ repeated l ↔ 2 ≤ l.count a := by
  simp [repeated, mem_repeatedAfter]

theorem repeated_eq_nil_iff {l : List α} : repeated l = [] ↔ l.Nodup := by
  rw [List.eq_nil_iff_forall_not_mem, List.nodup_iff_count]
  refine forall_congr' fun a => ?_
  rw [mem_repeated]
  omega

end WrapperGen
