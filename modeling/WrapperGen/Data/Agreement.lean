import WrapperGen.Data.Results
/-!
# Results that agree

Two steps agree on a relation if both give values, and these are related, or both fail with the same
error.

Main statements: `Agree.bind` and `IsWalk.agree`. Steps in a row agree if each of them does on what
those before it give, and so do walks over lists whose members are related one by one.
-/

namespace WrapperGen

variable {ε α β γ δ : Type}

/-- Both give values that are related, or both fail with the same error. -/
inductive Agree (R : α → β → Prop) : Except ε α → Except ε β → Prop
  | ok {a : α} {b : β} (h : R a b) : Agree R (.ok a) (.ok b)
  | error (e : ε) : Agree R (.error e) (.error e)

namespace Agree

variable {R : α → β → Prop} {S : γ → δ → Prop} {x : Except ε α} {y : Except ε β}

theorem ok_iff {a : α} {b : β} : Agree R (.ok a : Except ε α) (.ok b) ↔ R a b := by
  constructor
  · intro h
    cases h with
    | ok h => exact h
  · exact .ok

theorem mono {R' : α → β → Prop} (h : Agree R x y)
    (hR : ∀ a b, x = .ok a → y = .ok b → R a b → R' a b) : Agree R' x y := by
  cases h with
  | ok h => exact .ok (hR _ _ rfl rfl h)
  | error e => exact .error e

theorem bind {k : α → Except ε γ} {l : β → Except ε δ} (h : Agree R x y)
    (hk : ∀ a b, R a b → Agree S (k a) (l b)) : Agree S (x >>= k) (y >>= l) := by
  cases h with
  | ok h => exact hk _ _ h
  | error e => exact .error e

/-- Of two steps in a row only the second may differ. -/
theorem bind_same {x : Except ε α} {k : α → Except ε γ} {l : α → Except ε δ}
    (hk : ∀ a, Agree S (k a) (l a)) : Agree S (x >>= k) (x >>= l) := by
  cases x with
  | ok a => exact hk a
  | error e => exact .error e

end Agree

/-- Walks over related lists agree if their steps do on related members. -/
theorem IsWalk.agree {R : α → β → Prop} {S : γ → δ → Prop} {step : Nat → α → Except ε γ}
    {walk : Nat → List α → Except ε (List γ)} {step' : Nat → β → Except ε δ}
    {walk' : Nat → List β → Except ε (List δ)} (hwalk : IsWalk step walk)
    (hwalk' : IsWalk step' walk') (hstep : ∀ k a b, R a b → Agree S (step k a) (step' k b))
    {l : List α} {m : List β} (h : List.Forall₂ R l m) (k : Nat) :
    Agree (List.Forall₂ S) (walk k l) (walk' k m) := by
  induction h generalizing k with
  | nil =>
    rw [hwalk.nil, hwalk'.nil]
    exact .ok .nil
  | cons hab _ ih =>
    rw [hwalk.cons, hwalk'.cons]
    refine (hstep k _ _ hab).bind fun c d hcd => ?_
    exact (ih (k + 1)).bind fun cs ds hrest => .ok (.cons hcd hrest)

end WrapperGen
