import WrapperGen.Data.FirstSeen
import WrapperGen.Surface.Group
/-!
# Nested types

A complex group may have properties whose types are complex too. A caller has to make values of
these types, so each gets a constructor function, once in a run; the registry keeps which types
have theirs.

Main statements: `add_of_mem`, `add_of_notMem`, and `firstSeen_append_missing`, which says that a
registry filled from a list gets the first occurrences of whatever is met after it.
-/

namespace WrapperGen

namespace ParameterGroup

/-- The types of the group's settable properties, each without its optional wrapper. -/
def propertyTypes (g : ParameterGroup) : List TypeRef :=
  if g.isComplex then g.writable.map (·.type.unwrapNullable) else []

/-- The complex types of settable properties, in the order of first occurrences. -/
def nestedTypes (groups : List ParameterGroup) : List TypeRef :=
  firstSeen ((groups.flatMap propertyTypes).filter (·.isComplex))

end ParameterGroup

/-- The types that have a constructor function already. -/
structure TypeRegistry where
  types : List TypeRef
  deriving DecidableEq, Repr, Inhabited

namespace TypeRegistry

def empty : TypeRegistry := ⟨[]⟩

def contains (r : TypeRegistry) (t : TypeRef) : Bool := decide (t ∈ r.types)

def size (r : TypeRegistry) : Nat := r.types.length

def isEmpty (r : TypeRegistry) : Bool := r.types.isEmpty

/-- Registers a type, and tells whether it was not registered before. -/
def add (r : TypeRegistry) (t : TypeRef) : Bool × TypeRegistry :=
  if r.contains t then (false, r) else (true, ⟨r.types ++ [t]⟩)

/-- The types of a list that a registry does not have, once each. -/
def missing (r : TypeRegistry) (ts : List TypeRef) : List TypeRef :=
  firstSeen (ts.filter fun t => !r.contains t)

theorem contains_iff {r : TypeRegistry} {t : TypeRef} : r.contains t = true ↔ t ∈ r.types :=
  decide_eq_true_iff

theorem add_of_mem {r : TypeRegistry} {t : TypeRef} (h : t ∈ r.types) : r.add t = (false, r) := by
  rw [add, if_pos (contains_iff.2 h)]

theorem add_of_notMem {r : TypeRegistry} {t : TypeRef} (h : t ∉ r.types) :
    r.add t = (true, ⟨r.types ++ [t]⟩) := by
  rw [add, if_neg (mt contains_iff.1 h)]

theorem mem_add_self (r : TypeRegistry) (t : TypeRef) : t ∈ (r.add t).2.types := by
  by_cases h : t ∈ r.types
  · rwa [add_of_mem h]
  · rw [add_of_notMem h]
    exact List.mem_append_right _ List.mem_cons_self

theorem mem_missing {r : TypeRegistry} {t : TypeRef} {ts : List TypeRef} :
    t ∈ r.missing ts ↔ t ∈ ts ∧ t ∉ r.types := by
  simp [missing, contains]

theorem missing_cons_of_mem {r : TypeRegistry} {t : TypeRef} (h : t ∈ r.types)
    (ts : List TypeRef) : r.missing (t :: ts) = r.missing ts := by
  simp [missing, contains, h]

theorem missing_cons_of_notMem {r : TypeRegistry} {t : TypeRef} (h : t ∉ r.types)
    (ts : List TypeRef) :
    r.missing (t :: ts) = t :: (⟨r.types ++ [t]⟩ : TypeRegistry).missing ts := by
  have hr : r.contains t = false := by simpa [contains] using h
  simp only [missing, List.filter_cons, hr, Bool.not_false, if_true, firstSeen,
    ← firstSeen_filter, List.filter_filter]
  congr 2
  refine List.filter_congr fun u _ => ?_
  simp only [contains, List.mem_append, List.mem_singleton]
  by_cases hu : u = t <;> simp [hu]

/-- What the first types of a list leave missing completes the list of first occurrences. -/
theorem firstSeen_append_missing (ts us : List TypeRef) :
    firstSeen ts ++ (⟨firstSeen ts⟩ : TypeRegistry).missing us = firstSeen (ts ++ us) := by
  rw [firstSeen_append, missing, ← firstSeen_filter]
  simp [contains]

end TypeRegistry

end WrapperGen
