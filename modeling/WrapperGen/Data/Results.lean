import Mathlib.Data.List.Forall2
/-!
# Results

A step that may fail gives a value or an error. Over a list it gives the values of the members for
which it succeeds, and the errors of the others. A walk over a list stops at the first error.

Main statements: `bind_eq_ok_iff`, `IsWalk.eq_ok_iff`, `IsWalk.eq_ok_iff_map` and
`length_successes_add_length_errors`.
-/

namespace WrapperGen

variable {ε α β : Type}

/-- Steps in a row give a value when each of them does. -/
theorem bind_eq_ok_iff {x : Except ε α} {k : α → Except ε β} {b : β} :
    (x >>= k) = .ok b ↔ ∃ a, x = .ok a ∧ k a = .ok b := by
  cases x with
  | ok a =>
    constructor
    · intro h
      exact ⟨a, rfl, h⟩
    · rintro ⟨a', ha, h⟩
      cases ha
      exact h
  | error e =>
    constructor
    · intro h
      cases h
    · rintro ⟨a, ha, -⟩
      cases ha

/-- The walk takes the step at each place of a list, up to the first that fails. -/
structure IsWalk (step : Nat → α → Except ε β) (walk : Nat → List α → Except ε (List β)) :
    Prop where
  nil : ∀ k, walk k [] = .ok []
  cons : ∀ k a l, walk k (a :: l) = do
    let b ← step k a
    let bs ← walk (k + 1) l
    return b :: bs

namespace IsWalk

variable {step : Nat → α → Except ε β} {walk : Nat → List α → Except ε (List β)}

/-- A walk gives values when all of its steps do. -/
theorem eq_ok_iff (h : IsWalk step walk) {k : Nat} {l : List α} {bs : List β} :
    walk k l = .ok bs ↔ List.Forall₂ (fun d b => step d.2 d.1 = .ok b) (l.zipIdx k) bs := by
  induction l generalizing k bs with
  | nil =>
    rw [h.nil, List.zipIdx_nil, List.forall₂_nil_left_iff]
    exact ⟨fun h => (Except.ok.inj h).symm, fun h => congrArg Except.ok h.symm⟩
  | cons a l ih =>
    rw [h.cons, List.zipIdx_cons, List.forall₂_cons_left_iff, bind_eq_ok_iff]
    constructor
    · rintro ⟨b, hb, h⟩
      obtain ⟨rest, hrest, h⟩ := bind_eq_ok_iff.1 h
      exact ⟨b, rest, hb, ih.1 hrest, (Except.ok.inj h).symm⟩
    · rintro ⟨b, rest, hb, hrest, rfl⟩
      exact ⟨b, hb, bind_eq_ok_iff.2 ⟨rest, ih.2 hrest, rfl⟩⟩

/-- A walk whose steps make their values from the members makes a list of them, if it can. -/
theorem eq_ok_iff_map (h : IsWalk step walk) {Possible : α → Prop} {make : Nat → α → β}
    (hstep : ∀ {k a b}, step k a = .ok b ↔ Possible a ∧ b = make k a) {k : Nat} {l : List α}
    {bs : List β} :
    walk k l = .ok bs ↔ (∀ a ∈ l, Possible a) ∧ bs = (l.zipIdx k).map fun d => make d.2 d.1 := by
  have hpossible : (∀ d ∈ l.zipIdx k, Possible d.1) ↔ ∀ a ∈ l, Possible a := by
    rw [← List.forall_mem_map (P := Possible), List.zipIdx_map_fst]
  have hmake : List.Forall₂ (fun d b => b = make d.2 d.1) (l.zipIdx k) bs ↔
      bs = (l.zipIdx k).map fun d => make d.2 d.1 := by
    rw [eq_comm, ← List.forall₂_eq_eq_eq, List.forall₂_map_left_iff]
    exact ⟨fun h => h.imp fun _ _ => Eq.symm, fun h => h.imp fun _ _ => Eq.symm⟩
  simp only [h.eq_ok_iff, hstep]
  rw [List.forall₂_and_left (p := fun d : α × Nat => Possible d.1), hpossible, hmake]

end IsWalk

/-- What can be told of values from the members that they are made from, whatever the places. -/
theorem map_map_zipIdx {γ : Type} (make : Nat → α → β) {g : β → γ} {h : α → γ}
    (hmake : ∀ k a, g (make k a) = h a) (l : List α) (k : Nat) :
    ((l.zipIdx k).map fun d => make d.2 d.1).map g = l.map h := by
  rw [List.map_map]
  have hcomp : (g ∘ fun d : α × Nat => make d.2 d.1) = h ∘ Prod.fst := by
    funext d
    exact hmake d.2 d.1
  rw [hcomp, ← List.map_map, List.zipIdx_map_fst]

/-- Steps over a list that may find nothing give values when each of them does. -/
theorem mapM_eq_some_iff {f : α → Option β} {l : List α} {bs : List β} :
    l.mapM f = some bs ↔ List.Forall₂ (fun a b => f a = some b) l bs := by
  induction l generalizing bs with
  | nil =>
    rw [List.mapM_nil, List.forall₂_nil_left_iff]
    exact ⟨fun h => (Option.some.inj h).symm, fun h => congrArg some h.symm⟩
  | cons a l ih =>
    rw [List.mapM_cons, List.forall₂_cons_left_iff, Option.bind_eq_bind, Option.bind_eq_some_iff]
    constructor
    · rintro ⟨b, hb, h⟩
      obtain ⟨rest, hrest, h⟩ := Option.bind_eq_some_iff.1 h
      exact ⟨b, rest, hb, ih.1 hrest, (Option.some.inj h).symm⟩
    · rintro ⟨b, rest, hb, hrest, rfl⟩
      exact ⟨b, hb, Option.bind_eq_some_iff.2 ⟨rest, ih.2 hrest, rfl⟩⟩

/-- Steps that take back what was done to the members of a list give the list. -/
theorem mapM_map_eq_some {f : β → Option α} {g : α → β} {l : List α}
    (h : ∀ a ∈ l, f (g a) = some a) : (l.map g).mapM f = some l := by
  rw [mapM_eq_some_iff, List.forall₂_map_left_iff, List.forall₂_same]
  exact h

/-- What a step that may fail makes of the members of a list, where it succeeds. -/
def successes (step : α → Except ε β) (l : List α) : List β :=
  l.filterMap fun a => (step a).toOption

/-- The members of a list for which a step fails, with their errors. -/
def errors (step : α → Except ε β) (l : List α) : List (α × ε) :=
  l.filterMap fun a =>
    match step a with
    | .ok _ => none
    | .error e => some (a, e)

theorem mem_successes {step : α → Except ε β} {l : List α} {b : β} :
    b ∈ successes step l ↔ ∃ a ∈ l, step a = .ok b := by
  unfold successes
  rw [List.mem_filterMap]
  refine exists_congr fun a => and_congr_right fun _ => ?_
  cases step a <;> simp [Except.toOption]

theorem successes_append (step : α → Except ε β) (l m : List α) :
    successes step (l ++ m) = successes step l ++ successes step m := List.filterMap_append

theorem errors_append (step : α → Except ε β) (l m : List α) :
    errors step (l ++ m) = errors step l ++ errors step m := List.filterMap_append

theorem successes_singleton_of_ok {step : α → Except ε β} {a : α} {b : β} (h : step a = .ok b) :
    successes step [a] = [b] := by
  simp [successes, h, Except.toOption]

theorem successes_singleton_of_error {step : α → Except ε β} {a : α} {e : ε}
    (h : step a = .error e) : successes step [a] = [] := by
  simp [successes, h, Except.toOption]

theorem errors_singleton_of_ok {step : α → Except ε β} {a : α} {b : β} (h : step a = .ok b) :
    errors step [a] = [] := by
  simp [errors, h]

theorem errors_singleton_of_error {step : α → Except ε β} {a : α} {e : ε}
    (h : step a = .error e) : errors step [a] = [(a, e)] := by
  simp [errors, h]

theorem error_of_mem_errors {step : α → Except ε β} {l : List α} {d : α × ε}
    (h : d ∈ errors step l) : step d.1 = .error d.2 := by
  obtain ⟨a, -, ha⟩ := List.mem_filterMap.1 h
  split at ha
  · cases ha
  · next e he =>
    cases ha
    exact he

theorem successes_flatMap {κ : Type} (step : α → Except ε β) (f : κ → List α) (ks : List κ) :
    (ks.flatMap fun k => successes step (f k)) = successes step (ks.flatMap f) :=
  (List.filterMap_flatMap ..).symm

theorem successes_perm (step : α → Except ε β) {l m : List α} (h : l.Perm m) :
    (successes step l).Perm (successes step m) := h.filterMap _

theorem errors_perm (step : α → Except ε β) {l m : List α} (h : l.Perm m) :
    (errors step l).Perm (errors step m) := h.filterMap _

/-- Every member succeeds or fails. -/
theorem length_successes_add_length_errors (step : α → Except ε β) (l : List α) :
    (successes step l).length + (errors step l).length = l.length := by
  induction l with
  | nil => rfl
  | cons a l ih =>
    rw [← List.singleton_append, successes_append, errors_append, List.length_append,
      List.length_append, List.length_append, ← ih]
    cases h : step a with
    | ok b =>
      rw [successes_singleton_of_ok h, errors_singleton_of_ok h]
      simp only [List.length_cons, List.length_nil]
      omega
    | error e =>
      rw [successes_singleton_of_error h, errors_singleton_of_error h]
      simp only [List.length_cons, List.length_nil]
      omega

end WrapperGen
