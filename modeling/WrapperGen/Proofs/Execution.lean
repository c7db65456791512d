import Mathlib.Logic.Function.Basic
import WrapperGen.Proofs.WrapperBody
/-!
# What function bodies do

A body is run statement by statement. A variable is found by its exact name. It holds a value that
the caller gave, of which nothing is known, or an object; objects live in a store and are told
apart by their places there. A statement that has no meaning, such as setting a property of what is
no object, stops the run.

1. `run_append`: statements run one after another.
2. `run_assigns`: assignments set what the caller supplied, and nothing else.
3. `run_argumentBlock`: the block of a complex argument makes one fresh object, with just the
   supplied properties set, and binds one variable to it.
-/

namespace WrapperGen.Execution

variable {α : Type}

/-- What a variable or a property holds. -/
inductive Value (α : Type) where
  /-- A value of the caller's. -/
  | given (a : α)
  /-- The object at a place of the store. -/
  | object (place : Nat)
  deriving DecidableEq

/-- The place of an object. -/
def Value.place? : Value α → Option Nat
  | given _ => none
  | object place => some place

/-- An object, with how it was made and what has been set on it. -/
structure Object (α : Type) where
  typeName : String
  path : ConstructionPath
  properties : String → Option (Value α)

/-- The object with one more property set. -/
def Object.set (o : Object α) (property : String) (v : Value α) : Object α :=
  { o with properties := Function.update o.properties property (some v) }

/-- A call of a method. -/
structure Call (α : Type) where
  target : Value α
  method : String
  arguments : List (Value α)
  /-- All objects, as the method finds them. -/
  store : List (Object α)

/-- What can be seen of a run from outside. -/
inductive Event (α : Type) where
  /-- A method was called, and its result emitted. -/
  | called (call : Call α)
  | emitted (v : Value α)

/-- The state of a run. -/
structure State (α : Type) where
  bindings : String → Value α
  store : List (Object α)
  /-- What has happened so far. -/
  events : List (Event α)

namespace State

/-- Every variable holds what the caller gave. -/
def start (values : String → α) : State α := ⟨fun x => .given (values x), [], []⟩

/-- Binds a variable to a fresh object on which nothing is set. -/
def create (s : State α) (object typeName : String) (path : ConstructionPath) : State α :=
  { s with
    bindings := Function.update s.bindings object (.object s.store.length)
    store := s.store ++ [⟨typeName, path, fun _ => none⟩] }

/-- Puts an object into the place of another. -/
def put (s : State α) (place : Nat) (o : Object α) : State α :=
  { s with store := s.store.set place o }

/-- Sets a property of the object that a variable holds. -/
def assign (s : State α) (object property : String) (v : Value α) : Option (State α) :=
  match s.bindings object with
  | .given _ => none
  | .object place => (s.store[place]?).map fun o => s.put place (o.set property v)

/-- Adds an event. -/
def observe (s : State α) (event : Event α) : State α := { s with events := s.events ++ [event] }

end State

/-- Runs a statement, given which parameters the caller supplied. -/
def step (supplied : String → Bool) (s : State α) : Statement → Option (State α)
  | .construct object typeName path => some (s.create object typeName path)
  | .assign parameter object property =>
    if supplied parameter then s.assign object property (s.bindings parameter) else some s
  | .invoke target method arguments =>
    some (s.observe (.called ⟨s.bindings target, method, arguments.map s.bindings, s.store⟩))
  | .emit object => some (s.observe (.emitted (s.bindings object)))

/-- Runs statements one after another. -/
def run (supplied : String → Bool) (s : State α) : List Statement → Option (State α)
  | [] => some s
  | statement :: rest => (step supplied s statement).bind fun s => run supplied s rest

variable {supplied : String → Bool}

theorem run_append (s : State α) (l m : List Statement) :
    run supplied s (l ++ m) = (run supplied s l).bind fun s => run supplied s m := by
  induction l generalizing s with
  | nil => rfl
  | cons statement l ih =>
    rw [List.cons_append, run, run]
    cases step supplied s statement with
    | none => rfl
    | some s => exact ih s

/-! ## Blocks of assignments -/

/-- The object after supplied ones of some properties have been set. -/
def Object.fill (supplied : String → Bool) (bindings : String → Value α) (names : List String)
    (o : Object α) : Object α :=
  { o with properties := fun q =>
      if q ∈ names ∧ supplied q = true then some (bindings q) else o.properties q }

theorem Object.fill_nil (bindings : String → Value α) (o : Object α) :
    o.fill supplied bindings [] = o := by
  simp [fill]

theorem Object.fill_cons_of_supplied {x : String} (h : supplied x = true)
    (bindings : String → Value α) (names : List String) (o : Object α) :
    (o.set x (bindings x)).fill supplied bindings names =
      o.fill supplied bindings (x :: names) := by
  unfold fill set
  congr 1
  funext q
  by_cases hq : q = x
  · subst hq
    simp [h]
  · simp [hq]

theorem Object.fill_cons_of_not_supplied {x : String} (h : supplied x = false)
    (bindings : String → Value α) (names : List String) (o : Object α) :
    o.fill supplied bindings names = o.fill supplied bindings (x :: names) := by
  unfold fill
  congr 1
  funext q
  by_cases hq : q = x
  · subst hq
    simp [h]
  · simp [hq]

theorem Object.fill_congr {bindings bindings' : String → Value α} {names : List String}
    (h : ∀ x ∈ names, bindings x = bindings' x) (o : Object α) :
    o.fill supplied bindings names = o.fill supplied bindings' names := by
  unfold fill
  congr 1
  funext q
  by_cases hq : q ∈ names
  · rw [h q hq]
  · simp [hq]

/-- Assignments to an object set what was supplied of their properties, and change nothing else. -/
theorem run_assigns {object : String} {place : Nat} (ps : List Property) {s : State α}
    {o : Object α} (hvar : s.bindings object = .object place)
    (hstore : s.store[place]? = some o) :
    run supplied s (ps.map (FunctionBuilder.assignProperty object)) =
      some (s.put place (o.fill supplied s.bindings (ps.map (·.name)))) := by
  induction ps generalizing s o with
  | nil =>
    obtain ⟨hlt, rfl⟩ := List.getElem?_eq_some_iff.1 hstore
    rw [List.map_nil, List.map_nil, Object.fill_nil, State.put, List.set_getElem_self]
    rfl
  | cons p ps ih =>
    obtain ⟨hlt, -⟩ := List.getElem?_eq_some_iff.1 hstore
    rw [List.map_cons, List.map_cons, run]
    cases h : supplied p.name with
    | true =>
      have hstep : step supplied s (FunctionBuilder.assignProperty object p) =
          some (s.put place (o.set p.name (s.bindings p.name))) := by
        show (if supplied p.name then _ else _) = _
        rw [if_pos h, State.assign, hvar]
        show Option.map _ s.store[place]? = _
        rw [hstore]
        rfl
      have hrest := ih (s := s.put place (o.set p.name (s.bindings p.name))) hvar
        (List.getElem?_set_self hlt)
      rw [hstep, Option.bind_some, hrest, ← Object.fill_cons_of_supplied h]
      simp only [State.put, List.set_set]
    | false =>
      have hstep : step supplied s (FunctionBuilder.assignProperty object p) = some s :=
        if_neg (by rw [h]; decide)
      rw [hstep, Option.bind_some, ih hvar hstore, ← Object.fill_cons_of_not_supplied h]

/-- An object on which just those writable properties of its type are set that were supplied. -/
def Object.ofShape (supplied : String → Bool) (bindings : String → Value α) (typeName : String)
    (shape : Shape) : Object α :=
  ⟨typeName, .ofShape shape, fun q =>
    if q ∈ shape.writable.map (·.name) ∧ supplied q = true then some (bindings q) else none⟩

/-- The block of a complex argument makes one object, and binds one variable to it. -/
theorem run_argumentBlock {object : String} (typeName : String) {shape : Shape}
    (hobject : object ∉ shape.writable.map (·.name)) (s : State α) :
    run supplied s (FunctionBuilder.argumentBlock object typeName shape) =
      some ⟨Function.update s.bindings object (.object s.store.length),
        s.store ++ [.ofShape supplied s.bindings typeName shape], s.events⟩ := by
  have hread : ∀ x ∈ shape.writable.map (·.name),
      (s.create object typeName (.ofShape shape)).bindings x = s.bindings x := by
    intro x hx
    exact Function.update_of_ne (ne_of_mem_of_not_mem hx hobject) _ _
  have hstore : (s.create object typeName (.ofShape shape)).store[s.store.length]? =
      some ⟨typeName, .ofShape shape, fun _ => none⟩ := by
    simp [State.create]
  show (some (s.create object typeName (.ofShape shape))).bind _ = _
  rw [Option.bind_some, run_assigns shape.writable (Function.update_self _ _ _) hstore,
    Object.fill_congr hread, State.put]
  simp only [State.create]
  rw [List.set_append_right _ _ (Nat.le_refl _), Nat.sub_self]
  rfl

end WrapperGen.Execution
