import WrapperGen.Data.Results
import WrapperGen.Proofs.PathParts
import WrapperGen.Proofs.WriterRun
import Mathlib.Logic.Function.Basic
/-!
# Disks as maps

What the operations on a disk do is told in two ways. `Disk.TellsFiles` is about the look of paths:
which of them cannot become files. `Disk.Mapped` is about what places hold: directories and files
with their content, where every operation changes the place of its path and nothing else, and where
one that does not work changes nothing, but for a file that is being added to.

The tree in memory keeps both (`FileTree.tellsFiles`, `FileTree.mapped`). A disk on which writing
may fail keeps the second (`Disk.Mapped.withRoom`).
-/

namespace WrapperGen.Files

variable {σ : Type}

/-- The empty path leads to no directory, and a path that ends as only those of directories do never
becomes a file. -/
structure Disk.TellsFiles (disk : Disk (StateM σ)) : Prop where
  isDirectory_empty (s : σ) : ((disk.isDirectory "").run s).1 = false
  create {path : String} {s s' : σ} (h : (disk.create path).run s = (.ok (), s')) :
    FileTree.endsAsDirectory path.toList = false
  ensure {path : String} {s s' : σ} (h : (disk.ensure path).run s = (.ok (), s')) :
    FileTree.endsAsDirectory path.toList = false
  rename {source target : String} {s s' : σ}
    (h : (disk.rename source target).run s = (.ok (), s')) :
    FileTree.endsAsDirectory target.toList = false

/-- Places hold what `nodes` says, and relative paths start from a place. Nothing is made or moved
onto a directory. -/
structure Disk.Mapped (disk : Disk (StateM σ)) (nodes : σ → Place → Option Node)
    (start : Place) : Prop where
  isDirectory {path : String} {s s' : σ} {isThere : Bool}
    (h : (disk.isDirectory path).run s = (isThere, s')) : nodes s' = nodes s
  create {path : String} {s s' : σ} (h : (disk.create path).run s = (.ok (), s')) :
    nodes s (placeOf start path.toList) ≠ some .directory ∧
      nodes s' = Function.update (nodes s) (placeOf start path.toList) (some (.file ""))
  not_create {path : String} {s s' : σ} {cause : Cause}
    (h : (disk.create path).run s = (.error cause, s')) : nodes s' = nodes s
  append {path content : String} {s s' : σ} (h : (disk.append path content).run s = (.ok (), s')) :
    ∃ old, nodes s (placeOf start path.toList) = some (.file old) ∧
      nodes s' =
        Function.update (nodes s) (placeOf start path.toList) (some (.file (old ++ content)))
  /-- A part of the text may have been added. -/
  not_append {path content : String} {s s' : σ} {cause : Cause}
    (h : (disk.append path content).run s = (.error cause, s')) :
    ∃ node, nodes s' = Function.update (nodes s) (placeOf start path.toList) node
  flush {path : String} {s s' : σ} (h : (disk.flush path).run s = (.ok (), s')) :
    nodes s' = nodes s
  /-- What was held back may be lost. -/
  not_flush {path : String} {s s' : σ} {cause : Cause}
    (h : (disk.flush path).run s = (.error cause, s')) :
    ∃ node, nodes s' = Function.update (nodes s) (placeOf start path.toList) node
  sync {path : String} {s s' : σ} {a : Except Cause Unit} (h : (disk.sync path).run s = (a, s')) :
    nodes s' = nodes s
  rename {source target : String} {s s' : σ}
    (h : (disk.rename source target).run s = (.ok (), s')) :
    ∃ content, nodes s (placeOf start source.toList) = some (.file content) ∧
      nodes s (placeOf start target.toList) ≠ some .directory ∧
      nodes s' = Function.update (Function.update (nodes s) (placeOf start source.toList) none)
        (placeOf start target.toList) (some (.file content))
  not_rename {source target : String} {s s' : σ} {cause : Cause}
    (h : (disk.rename source target).run s = (.error cause, s')) : nodes s' = nodes s
  remove {path : String} {s s' : σ} (h : (disk.remove path).run s = (.ok (), s')) :
    nodes s' = Function.update (nodes s) (placeOf start path.toList) none
  not_remove {path : String} {s s' : σ} {cause : Cause}
    (h : (disk.remove path).run s = (.error cause, s')) : nodes s' = nodes s

/-! ## A disk with little room -/

def noRoom : Cause := .other "No space left on device (os error 28)"

/-- The disk, but nothing longer than some room can be added to a file. -/
def Disk.withRoom {m : Type → Type} [Monad m] (disk : Disk m) (room : Nat) : Disk m :=
  { disk with
    append := fun path content =>
      if content.length ≤ room then disk.append path content
      else return .error noRoom }

theorem Disk.Mapped.withRoom {disk : Disk (StateM σ)} {nodes : σ → Place → Option Node}
    {start : Place} (h : disk.Mapped nodes start) (room : Nat) :
    (disk.withRoom room).Mapped nodes start where
  isDirectory := h.isDirectory
  create := h.create
  not_create := h.not_create
  append happend := by
    unfold Disk.withRoom at happend
    dsimp only at happend
    split at happend
    · exact h.append happend
    · cases (run_pure_eq_iff.1 happend).1
  not_append happend := by
    unfold Disk.withRoom at happend
    dsimp only at happend
    split at happend
    · exact h.not_append happend
    · obtain ⟨-, rfl⟩ := run_pure_eq_iff.1 happend
      exact ⟨_, (Function.update_eq_self _ _).symm⟩
  flush := h.flush
  not_flush := h.not_flush
  sync := h.sync
  rename := h.rename
  not_rename := h.not_rename
  remove := h.remove
  not_remove := h.not_remove

namespace FileTree

variable {t t' : FileTree} {path content : String} {place : Place}

/-! ## Places of the tree -/

theorem lookup_filter_ne {q : Place} (hq : q ≠ place) (entries : List (Place × Node)) :
    (entries.filter (·.1 != place)).lookup q = entries.lookup q := by
  induction entries with
  | nil => rfl
  | cons entry entries ih =>
    by_cases hentry : entry.1 = place
    · have hne : (q == entry.1) = false := beq_eq_false_iff_ne.2 (hentry ▸ hq)
      rw [List.filter_cons_of_neg (by simpa using hentry), ih, List.lookup_cons, hne]
    · rw [List.filter_cons_of_pos (by simpa using hentry), List.lookup_cons, List.lookup_cons, ih]

theorem lookup_filter_self (place : Place) (entries : List (Place × Node)) :
    (entries.filter (·.1 != place)).lookup place = none := by
  rw [List.lookup_eq_none_iff]
  intro entry hentry
  have hne := (List.mem_filter.1 hentry).2
  simpa using Ne.symm (by simpa using hne)

theorem node?_of_ne_nil (hplace : place ≠ []) : t.node? place = t.entries.lookup place := by
  rw [node?, if_neg (by simpa using hplace)]

theorem node?_set (hplace : place ≠ []) (n : Node) :
    (t.set place n).node? = Function.update t.node? place (some n) := by
  funext q
  by_cases hq : q = place
  · rw [hq, Function.update_self, node?_of_ne_nil hplace, set, List.lookup_cons, beq_self_eq_true]
  · rw [Function.update_of_ne hq]
    -- the root is a directory whatever the entries
    by_cases hroot : q = []
    · rw [hroot]
      rfl
    · rw [node?_of_ne_nil hroot, node?_of_ne_nil hroot, set, List.lookup_cons,
        beq_eq_false_iff_ne.2 hq, lookup_filter_ne hq]

theorem node?_erase (hplace : place ≠ []) :
    (t.erase place).node? = Function.update t.node? place none := by
  funext q
  by_cases hq : q = place
  · rw [hq, Function.update_self, node?_of_ne_nil hplace, erase, lookup_filter_self]
  · rw [Function.update_of_ne hq]
    by_cases hroot : q = []
    · rw [hroot]
      rfl
    · rw [node?_of_ne_nil hroot, node?_of_ne_nil hroot, erase, lookup_filter_ne hq]

theorem resolve_of_walk {names : List (List Char)} {goal : Place}
    (h : t.walk place names = .ok goal) : goal = resolve place names := by
  induction names generalizing place with
  | nil => exact (Except.ok.inj h).symm
  | cons name names ih =>
    unfold walk at h
    obtain ⟨-, -, h⟩ := bind_eq_ok_iff.1 h
    unfold resolve
    split at h
    · next hidle => rw [if_pos hidle, ih h]
    · next hidle =>
      rw [if_neg hidle]
      split at h
      · next hout =>
        rw [if_pos hout]
        split at h
        · cases h
        · exact ih h
      · next hout =>
        rw [if_neg hout]
        dsimp only at h
        split at h
        · cases h
        · exact ih h

theorem placeOf_of_locate {path : List Char} (h : t.locate path = .ok place) :
    place = placeOf [] path := by
  obtain ⟨first, names, hs⟩ := List.exists_cons_of_ne_nil (split_ne_nil path)
  unfold locate at h
  split at h
  · cases h
  split at h
  · cases h
  · next hpath =>
    split at h
    · cases h
    split at h
    · cases h
    rw [resolve_of_walk h, placeOf, components_of_split (by simpa using hpath) hs, startOf,
      ite_self, resolve_append, resolve_leading, resolve_steps]

/-- What could name a file leads to a place with a name. -/
theorem placeOf_ne_nil {path : List Char} (h : endsAsDirectory path = false) (start : Place) :
    placeOf start path ≠ [] := by
  obtain ⟨before, last, hlast⟩ := (List.eq_nil_or_concat' _).resolve_left (split_ne_nil path)
  unfold endsAsDirectory at h
  rw [hlast, List.getLast?_concat] at h
  have hplain : isPlainName last = true := by
    rw [isPlainName_iff]
    simpa using h
  have hpath : path ≠ [] := by
    rintro rfl
    obtain rfl : last = [] := by simpa [split] using (congrArg List.getLast? hlast).symm
    cases hplain
  obtain ⟨first, names, hs⟩ := List.exists_cons_of_ne_nil (split_ne_nil path)
  have hparts : components path = (leading first ++ steps before) ++ [last] := by
    rw [components_of_split hpath hs, hlast, steps_append,
      steps_singleton (isPlainName_iff.1 hplain).1, List.append_assoc]
  rw [placeOf_of_components start hparts hplain]
  exact List.concat_ne_nil _ _

theorem of_locateFile (h : t.locateFile path = .ok place) :
    place = placeOf [] path.toList ∧ place ≠ [] ∧ endsAsDirectory path.toList = false := by
  unfold locateFile at h
  obtain ⟨found, hfound, h⟩ := bind_eq_ok_iff.1 h
  cases hends : endsAsDirectory path.toList with
  | true =>
    rw [hends] at h
    cases h
  | false =>
    rw [hends] at h
    cases h
    have hplace := placeOf_of_locate hfound
    exact ⟨hplace, hplace ▸ placeOf_ne_nil hends [], rfl⟩

/-! ## Operations on the tree -/

/-- An operation that changes the tree gives the tree that it works out, or leaves it. -/
theorem run_change (operation : FileTree → Except Cause FileTree) (t : FileTree) :
    (change operation).run t = match operation t with
      | .ok t' => (.ok (), t')
      | .error cause => (.error cause, t) := rfl

theorem change_eq_ok {operation : FileTree → Except Cause FileTree}
    (h : (change operation).run t = (.ok (), t')) : operation t = .ok t' := by
  rw [run_change] at h
  split at h
  · next hok => rw [hok, (Prod.mk.inj h).2]
  · cases h

theorem change_eq_error {operation : FileTree → Except Cause FileTree} {cause : Cause}
    (h : (change operation).run t = (.error cause, t')) : t' = t := by
  rw [run_change] at h
  split at h
  · cases h
  · exact (Prod.mk.inj h).2.symm

theorem of_create (h : t.create path = .ok t') :
    endsAsDirectory path.toList = false ∧ t.node? (placeOf [] path.toList) ≠ some .directory ∧
      t'.node? = Function.update t.node? (placeOf [] path.toList) (some (.file "")) := by
  unfold create at h
  obtain ⟨place, hplace, h⟩ := bind_eq_ok_iff.1 h
  obtain ⟨rfl, hne, hends⟩ := of_locateFile hplace
  split at h
  · cases h
  · next hnode =>
    cases h
    exact ⟨hends, hnode, node?_set hne _⟩

theorem of_ensure (h : t.ensure path = .ok t') : endsAsDirectory path.toList = false := by
  unfold ensure at h
  obtain ⟨place, hplace, -⟩ := bind_eq_ok_iff.1 h
  exact (of_locateFile hplace).2.2

theorem of_append (h : t.append path content = .ok t') :
    ∃ old, t.node? (placeOf [] path.toList) = some (.file old) ∧ t'.node? =
      Function.update t.node? (placeOf [] path.toList) (some (.file (old ++ content))) := by
  unfold append at h
  obtain ⟨place, hplace, h⟩ := bind_eq_ok_iff.1 h
  obtain ⟨rfl, hne, -⟩ := of_locateFile hplace
  split at h
  · next old hold =>
    cases h
    exact ⟨old, hold, node?_set hne _⟩
  · cases h
  · cases h

theorem of_rename {source target : String} (h : t.rename source target = .ok t') :
    endsAsDirectory target.toList = false ∧ ∃ content,
      t.node? (placeOf [] source.toList) = some (.file content) ∧
        t.node? (placeOf [] target.toList) ≠ some .directory ∧
        t'.node? = Function.update (Function.update t.node? (placeOf [] source.toList) none)
          (placeOf [] target.toList) (some (.file content)) := by
  unfold rename at h
  obtain ⟨place, hplace, h⟩ := bind_eq_ok_iff.1 h
  obtain ⟨rfl, hne, -⟩ := of_locateFile hplace
  obtain ⟨goal, hgoal, h⟩ := bind_eq_ok_iff.1 h
  obtain rfl := placeOf_of_locate hgoal
  cases hends : endsAsDirectory target.toList with
  | true =>
    rw [hends] at h
    cases h
  | false =>
    rw [hends] at h
    have hgoal := placeOf_ne_nil hends []
    refine ⟨rfl, ?_⟩
    dsimp only at h
    rw [if_neg Bool.false_ne_true] at h
    split at h
    · cases h
    · next content hsource htarget =>
      cases h
      exact ⟨content, hsource, htarget, by rw [node?_set hgoal, node?_erase hne]⟩
    · cases h
    · cases h

theorem of_remove (h : t.remove path = .ok t') :
    t'.node? = Function.update t.node? (placeOf [] path.toList) none := by
  unfold remove at h
  obtain ⟨place, hplace, h⟩ := bind_eq_ok_iff.1 h
  obtain ⟨rfl, hne, -⟩ := of_locateFile hplace
  split at h
  · cases h
    exact node?_erase hne
  · cases h
  · cases h

theorem tellsFiles : disk.TellsFiles where
  isDirectory_empty _ := rfl
  create h := (of_create (change_eq_ok h)).1
  ensure h := of_ensure (change_eq_ok h)
  rename h := (of_rename (change_eq_ok h)).1

theorem mapped : disk.Mapped node? [] where
  isDirectory h := by
    obtain ⟨t, t₁, hget, h⟩ := run_bind_eq_iff.1 h
    obtain ⟨-, rfl⟩ := run_pure_eq_iff.1 h
    rw [(Prod.mk.inj hget).2]
  create h := (of_create (change_eq_ok h)).2
  not_create h := congrArg node? (change_eq_error h)
  append h := of_append (change_eq_ok h)
  not_append h := ⟨_, (congrArg node? (change_eq_error h)).trans (Function.update_eq_self _ _).symm⟩
  flush h := congrArg node? (run_pure_eq_iff.1 h).2.symm
  not_flush h := nomatch (run_pure_eq_iff.1 h).1
  sync h := congrArg node? (run_pure_eq_iff.1 h).2.symm
  rename h := (of_rename (change_eq_ok h)).2
  not_rename h := congrArg node? (change_eq_error h)
  remove h := of_remove (change_eq_ok h)
  not_remove h := congrArg node? (change_eq_error h)

end FileTree

end WrapperGen.Files
