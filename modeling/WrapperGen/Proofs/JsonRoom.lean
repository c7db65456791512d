import WrapperGen.Json.Record
import WrapperGen.Proofs.JsonText
/-!
# Reading back from a room

A reader is given the number of arrays and objects that it may open, and a value needs as many as it
nests deep. So a record can be read back when it does not nest deeper than the room, and what a
reader took from some room mostly fits there when it is written: only an array that the document
left out and the record writes as an empty one can take more, and that matters in the smallest rooms
alone.

Main statements: `IsWhole.fits_iff` and the law `ReadsBack` with `ReadsBack.list`.
-/

namespace WrapperGen.Json

namespace Value

/-! ## Depth -/

mutual

/-- How deep arrays and objects nest. -/
def depth : Value → Nat
  | array items => itemsDepth items + 1
  | object members => membersDepth members + 1
  | null | bool _ | number _ | string _ | textless => 0

def itemsDepth : List Value → Nat
  | [] => 0
  | v :: vs => max (depth v) (itemsDepth vs)

def membersDepth : List (String × Value) → Nat
  | [] => 0
  | (_, v) :: ms => max (depth v) (membersDepth ms)

end

@[simp] theorem depth_null : null.depth = 0 := rfl

@[simp] theorem depth_bool (b : Bool) : (bool b).depth = 0 := rfl

@[simp] theorem depth_string (s : String) : (string s).depth = 0 := rfl

theorem itemsDepth_le_iff {vs : List Value} {room : Nat} :
    itemsDepth vs ≤ room ↔ ∀ v ∈ vs, v.depth ≤ room := by
  induction vs with
  | nil => simp [itemsDepth]
  | cons v vs ih => rw [itemsDepth, Nat.max_le, ih, List.forall_mem_cons]

theorem membersDepth_le_iff {ms : List (String × Value)} {room : Nat} :
    membersDepth ms ≤ room ↔ ∀ m ∈ ms, m.2.depth ≤ room := by
  induction ms with
  | nil => simp [membersDepth]
  | cons m ms ih => rw [membersDepth, Nat.max_le, ih, List.forall_mem_cons]

/-- An array fits into a room that has a bracket for it and room for each item inside. -/
theorem depth_array_le_iff {vs : List Value} {room : Nat} :
    (array vs).depth ≤ room ↔ ∃ inner, room = inner + 1 ∧ ∀ v ∈ vs, v.depth ≤ inner := by
  cases room with
  | zero => simp [depth]
  | succ room => simp [depth, itemsDepth_le_iff]

theorem depth_object_le_iff {ms : List (String × Value)} {room : Nat} :
    (object ms).depth ≤ room ↔ ∃ inner, room = inner + 1 ∧ ∀ m ∈ ms, m.2.depth ≤ inner := by
  cases room with
  | zero => simp [depth]
  | succ room => simp [depth, membersDepth_le_iff]

@[simp] theorem depth_array_le_succ_iff {vs : List Value} {room : Nat} :
    (array vs).depth ≤ room + 1 ↔ ∀ v ∈ vs, v.depth ≤ room := by
  simp [depth_array_le_iff]

@[simp] theorem depth_object_le_succ_iff {ms : List (String × Value)} {room : Nat} :
    (object ms).depth ≤ room + 1 ↔ ∀ m ∈ ms, m.2.depth ≤ room := by
  simp [depth_object_le_iff]

/-! ## Values that fit -/

attribute [simp] IsPlain.null IsPlain.bool IsPlain.string

@[simp] theorem isPlain_array_iff {vs : List Value} :
    (array vs).IsPlain ↔ ∀ v ∈ vs, v.IsPlain :=
  ⟨fun | .array h => h, .array⟩

@[simp] theorem isPlain_object_iff {ms : List (String × Value)} :
    (object ms).IsPlain ↔ ∀ m ∈ ms, m.2.IsPlain :=
  ⟨fun | .object h => h, .object⟩

theorem allFit_iff {room : Nat} {vs : List Value} :
    allFit room vs = true ↔ ∀ v ∈ vs, v.fits room = true := by
  induction vs with
  | nil => simp [allFit]
  | cons v vs ih => rw [allFit, Bool.and_eq_true, ih, List.forall_mem_cons]

theorem membersFit_iff {room : Nat} {ms : List (String × Value)} :
    membersFit room ms = true ↔ ∀ m ∈ ms, m.2.fits room = true := by
  induction ms with
  | nil => simp [membersFit]
  | cons m ms ih => rw [membersFit, Bool.and_eq_true, ih, List.forall_mem_cons]

/-- All numbers in the value are finite, and all of it has a text. -/
inductive IsWhole : Value → Prop
  | null : IsWhole null
  | bool (b : Bool) : IsWhole (bool b)
  | number {n : Number} (h : n.isFinite = true) : IsWhole (number n)
  | string (s : String) : IsWhole (string s)
  | array {items : List Value} (h : ∀ v ∈ items, IsWhole v) : IsWhole (array items)
  | object {members : List (String × Value)} (h : ∀ m ∈ members, IsWhole m.2) :
      IsWhole (object members)

theorem isWhole_array_iff {vs : List Value} : (array vs).IsWhole ↔ ∀ v ∈ vs, v.IsWhole :=
  ⟨fun | .array h => h, .array⟩

theorem isWhole_object_iff {ms : List (String × Value)} :
    (object ms).IsWhole ↔ ∀ m ∈ ms, m.2.IsWhole :=
  ⟨fun | .object h => h, .object⟩

theorem IsPlain.isWhole {v : Value} (h : v.IsPlain) : v.IsWhole := by
  induction h with
  | null => exact .null
  | bool b => exact .bool b
  | string s => exact .string s
  | array _ ih => exact .array ih
  | object _ ih => exact .object ih

/-- A whole value fits when it does not nest deeper than the room. -/
theorem IsWhole.fits_iff {v : Value} (h : v.IsWhole) {room : Nat} :
    v.fits room = true ↔ v.depth ≤ room := by
  induction h generalizing room with
  | null => simp [fits]
  | bool b => simp [fits]
  | number h => simp [fits, depth, h]
  | string s => simp [fits]
  | @array items _ ih =>
    cases room with
    | zero => simp [fits, depth]
    | succ room =>
      rw [fits, allFit_iff, depth_array_le_succ_iff]
      exact forall₂_congr fun v hv => ih v hv
  | @object members _ ih =>
    cases room with
    | zero => simp [fits, depth]
    | succ room =>
      rw [fits, membersFit_iff, depth_object_le_succ_iff]
      exact forall₂_congr fun m hm => ih m hm

theorem IsPlain.fits_iff {v : Value} (h : v.IsPlain) {room : Nat} :
    v.fits room = true ↔ v.depth ≤ room := h.isWhole.fits_iff

theorem isWhole_of_fits {v : Value} {room : Nat} (h : v.fits room = true) : v.IsWhole := by
  induction room generalizing v with
  | zero =>
    cases v with
    | null => exact .null
    | bool b => exact .bool b
    | number n => exact .number h
    | string s => exact .string s
    | textless | array | object => cases h
  | succ room ih =>
    cases v with
    | null => exact .null
    | bool b => exact .bool b
    | number n => exact .number h
    | string s => exact .string s
    | textless => cases h
    | array items => exact .array fun v hv => ih (allFit_iff.1 h v hv)
    | object members => exact .object fun m hm => ih (membersFit_iff.1 h m hm)

/-! ## Fields -/

/-- An object whose members are fields of the record in their order has these fields. -/
theorem fields?_object {names : List String} {ms : List (String × Value)}
    (h : (ms.map (·.1)).Sublist names) (hnames : names.Nodup) :
    (object ms).fields? names = some ⟨ms⟩ := by
  have hknown : (ms.filter fun m => names.contains m.1) = ms :=
    List.filter_eq_self.2 fun m hm =>
      List.contains_iff_mem.2 (h.subset (List.mem_map_of_mem hm))
  simp only [fields?, hknown]
  rw [if_pos (hnames.sublist h)]

end Value

namespace Fields

variable {α : Type} {fields : Fields} {name : String}

@[simp] theorem get?_cons_self (v : Value) (ms : List (String × Value)) :
    (mk ((name, v) :: ms)).get? name = some v := by
  simp [get?]

@[simp] theorem get?_cons_of_ne {n : String} (h : name ≠ n) (v : Value)
    (ms : List (String × Value)) : (mk ((n, v) :: ms)).get? name = (mk ms).get? name := by
  rw [get?, get?, List.lookup_cons, beq_false_of_ne h]

@[simp] theorem get?_nil (name : String) : (mk []).get? name = none := rfl

theorem required_eq_some {read? : Value → Option α} {x : α}
    (h : fields.required name read? = some x) : ∃ v, read? v = some x := by
  obtain ⟨v, -, hread⟩ := Option.bind_eq_some_iff.1 h
  exact ⟨v, hread⟩

theorem optional_eq_some {missing : α} {read? : Value → Option α} {x : α}
    (h : fields.optional name missing read? = some x) : x = missing ∨ ∃ v, read? v = some x := by
  unfold optional at h
  split at h
  · exact .inl (Option.some.inj h).symm
  · next v _ => exact .inr ⟨v, h⟩

end Fields

/-! ## The law -/

/-- What a writer and a reader of one kind of record have to do with each other. Rooms of less than
`floor` are too small for the arrays that the writer always writes. -/
structure ReadsBack {α : Type} (floor : Nat) (write : α → Value)
    (read? : Nat → Value → Option α) : Prop where
  isPlain (x : α) : (write x).IsPlain
  /-- A record that fits into a room is read back from it. -/
  read?_write {room : Nat} {x : α} (h : (write x).depth ≤ room) : read? room (write x) = some x
  /-- A record that was read from a room fits into it. -/
  depth_le {room : Nat} {v : Value} {x : α} (hfloor : floor ≤ room) (h : read? room v = some x) :
    (write x).depth ≤ room

namespace ReadsBack

open Value (list?)

variable {α : Type} {floor room : Nat} {write : α → Value} {read? : Nat → Value → Option α}
  {xs : List α} {fields : Fields} {name : String}

theorem string : ReadsBack 0 Value.string fun _ => Value.string? where
  isPlain := .string
  read?_write _ := rfl
  depth_le _ _ := Nat.zero_le _

/-- An array is read back when its items are. -/
theorem list?_array (h : ∀ x ∈ xs, read? room (write x) = some x) :
    list? read? (room + 1) (.array (xs.map write)) = some xs := mapM_map_eq_some h

/-- The records in an array were read with the room inside of it. -/
theorem forall_of_list? {v : Value} (h : list? read? room v = some xs) :
    ∃ inner, room = inner + 1 ∧ ∀ x ∈ xs, ∃ w, read? inner w = some x := by
  unfold list? at h
  split at h
  · next inner items =>
    have hall := mapM_eq_some_iff.1 h
    refine ⟨inner, rfl, ?_⟩
    -- the induction is on the pairs of items and records; the array as a whole has no place there
    clear h
    induction hall with
    | nil => exact List.forall_mem_nil _
    | @cons w x _ _ hread _ ih => exact List.forall_mem_cons.2 ⟨⟨w, hread⟩, ih⟩
  · cases h

theorem depth_le_of_list? (h : ReadsBack floor write read?) (hfloor : floor ≤ room - 1) {v : Value}
    (hread : list? read? room v = some xs) : (Value.array (xs.map write)).depth ≤ room := by
  obtain ⟨inner, rfl, hitems⟩ := forall_of_list? hread
  rw [Value.depth_array_le_succ_iff, List.forall_mem_map]
  intro x hx
  obtain ⟨w, hw⟩ := hitems x hx
  exact h.depth_le hfloor hw

theorem list (h : ReadsBack floor write read?) :
    ReadsBack (floor + 1) (fun xs => .array (xs.map write)) (list? read?) where
  isPlain xs := by simpa using fun x _ => h.isPlain x
  read?_write {room xs} hdepth := by
    obtain ⟨inner, rfl, hitems⟩ := Value.depth_array_le_iff.1 hdepth
    rw [List.forall_mem_map] at hitems
    exact list?_array fun x hx => h.read?_write (hitems x hx)
  depth_le hfloor hread := h.depth_le_of_list? (Nat.le_sub_one_of_lt hfloor) hread

/-- An array that may be left out fits into the room, be it that no array was there. -/
theorem depth_le_of_optional (h : ReadsBack floor write read?) (hfloor : floor < room)
    (hread : fields.optional name [] (list? read? room) = some xs) :
    (Value.array (xs.map write)).depth ≤ room := by
  obtain rfl | ⟨v, hv⟩ := Fields.optional_eq_some hread
  -- the empty array that stands for a missing one takes one bracket
  · exact Nat.lt_of_le_of_lt (Nat.zero_le floor) hfloor
  · exact h.depth_le_of_list? (Nat.le_sub_one_of_lt hfloor) hv

end ReadsBack

end WrapperGen.Json
