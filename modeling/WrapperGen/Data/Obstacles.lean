import WrapperGen.Data.Results
/-!
# Obstacles

The obstacles to a step are all the errors that stand in its way, in the order in which they are
met. A step is *stopped by* them if it gives a value when there are none, and otherwise fails with
the first. What stops steps in a row, or a walk over a list, is what stops each of them.

Main statements: `StoppedBy.bind`, `StoppedBy.exists_ok_iff`, `StoppedBy.eq_error_iff` and
`IsWalk.stoppedBy`.
-/

namespace WrapperGen

variable {ε α β : Type}

/-- A step gives a value if there are no obstacles, and else fails with the first of them. -/
inductive StoppedBy : List ε → Except ε α → Prop
  | free (a : α) : StoppedBy [] (.ok a)
  | error (e : ε) (more : List ε) : StoppedBy (e :: more) (.error e)

namespace StoppedBy

theorem exists_ok_iff {os : List ε} {x : Except ε α} (h : StoppedBy os x) :
    (∃ a, x = .ok a) ↔ os = [] := by
  cases h with
  | free a => simp
  | error e more => simp

theorem eq_error_iff {os : List ε} {x : Except ε α} (h : StoppedBy os x) {e : ε} :
    x = .error e ↔ os.head? = some e := by
  cases h with
  | free a => simp
  | error e' more => simp

theorem mem_of_eq_error {os : List ε} {x : Except ε α} (h : StoppedBy os x) {e : ε}
    (he : x = .error e) : e ∈ os := List.mem_of_mem_head? (h.eq_error_iff.1 he)

/-- Two steps in a row, of which the second meets the same obstacles whatever the first gives. -/
theorem bind {os os' : List ε} {x : Except ε α} {k : α → Except ε β} (hx : StoppedBy os x)
    (hk : ∀ a, x = .ok a → StoppedBy os' (k a)) : StoppedBy (os ++ os') (x >>= k) := by
  cases hx with
  | free a => exact hk a rfl
  | error e more => exact .error e (more ++ os')

/-- A step after which nothing fails. -/
theorem bind_free {os : List ε} {x : Except ε α} {k : α → Except ε β} (hx : StoppedBy os x)
    (hk : ∀ a, x = .ok a → StoppedBy [] (k a)) : StoppedBy os (x >>= k) := by
  have h := hx.bind hk
  rwa [List.append_nil] at h

theorem map {os : List ε} {x : Except ε α} (hx : StoppedBy os x) (f : α → β) :
    StoppedBy os (x >>= fun a => .ok (f a)) := hx.bind_free fun a _ => .free (f a)

end StoppedBy

/-- A walk is stopped by what stops its steps, in the order of the list. -/
theorem IsWalk.stoppedBy {step : Nat → α → Except ε β} {walk : Nat → List α → Except ε (List β)}
    (hwalk : IsWalk step walk) {obstacles : α → List ε} {k : Nat} {l : List α}
    (h : ∀ d ∈ l.zipIdx k, StoppedBy (obstacles d.1) (step d.2 d.1)) :
    StoppedBy (l.flatMap obstacles) (walk k l) := by
  induction l generalizing k with
  | nil =>
    rw [hwalk.nil]
    exact .free []
  | cons a l ih =>
    rw [List.zipIdx_cons] at h
    have hrest := ih fun d hd => h d (List.mem_cons_of_mem _ hd)
    rw [hwalk.cons, List.flatMap_cons]
    exact (h (a, k) List.mem_cons_self).bind fun b _ => hrest.map (b :: ·)

end WrapperGen
