import WrapperGen.Proofs.Replacement
/-!
# Disks that serve files

`Disk.Mapped` tells what the operations on a disk leave when they work. On a disk that serves files
it is told where they do: at the paths that can be written to, which depend on nothing but the
directories (`Disk.Serves`). The tree in memory is such a disk (`FileTree.serves`).

1. Where a path can be written to, a file is written in each of the three ways, and it is told what
   that leaves (`exists_writeAppending`, `exists_writeDirectly`, `exists_writeAside`).
2. No directory comes or goes by it, so whatever could be written to still can
   (`Disk.Serves.sameDirectories`, `Disk.Serves.sameDirectories_aside`).
3. Finding a place in the tree takes nothing but directories (`FileTree.locate_congr`).
-/

namespace WrapperGen.Files

variable {σ : Type} {disk : Disk (StateM σ)} {nodes : σ → Place → Option Node} {start : Place}
  {writable : σ → String → Prop} {options : WriteOptions} {directory path content : String}
  {s s₁ s' : σ}

/-! ## Directories -/

/-- Two disks have their directories in the same places. -/
def SameDirectories (held held' : Place → Option Node) : Prop :=
  ∀ place, held place = some .directory ↔ held' place = some .directory

namespace SameDirectories

variable {held held₁ held' : Place → Option Node}

theorem refl (held : Place → Option Node) : SameDirectories held held := fun _ => Iff.rfl

theorem of_eq (h : held = held') : SameDirectories held held' := h ▸ refl held

theorem symm (h : SameDirectories held held') : SameDirectories held' held :=
  fun place => (h place).symm

theorem trans (h : SameDirectories held held₁) (h' : SameDirectories held₁ held') :
    SameDirectories held held' := fun place => (h place).trans (h' place)

/-- Only what is no directory changes, and into none. -/
theorem update {place : Place} {node : Option Node} (hplace : held place ≠ some .directory)
    (hnode : node ≠ some .directory) :
    SameDirectories held (Function.update held place node) := by
  intro q
  by_cases hq : q = place
  · rw [hq, Function.update_self]
    exact iff_of_false hplace hnode
  · rw [Function.update_of_ne hq]

end SameDirectories

/-- The text at a place, which is empty unless a file is there. -/
def textAt : Option Node → String
  | some (.file content) => content
  | _ => ""

/-- Operations on files work at the paths that can be written to. What can be written to depends on
where the directories are, and so does whether a path leads to a directory. -/
structure Disk.Serves (disk : Disk (StateM σ)) (nodes : σ → Place → Option Node) (start : Place)
    (writable : σ → String → Prop) : Prop where
  mapped : disk.Mapped nodes start
  isDirectory_congr {path : String} {s s' : σ} (h : SameDirectories (nodes s) (nodes s')) :
    ((disk.isDirectory path).run s).1 = ((disk.isDirectory path).run s').1
  writable_congr {path : String} {s s' : σ} (h : SameDirectories (nodes s) (nodes s'))
    (hpath : writable s path) : writable s' path
  not_directory {path : String} {s : σ} (hpath : writable s path) :
    nodes s (placeOf start path.toList) ≠ some .directory
  create {path : String} {s : σ} (hpath : writable s path) :
    ∃ s', (disk.create path).run s = (.ok (), s')
  /-- A file that is there is left as it is. -/
  ensure {path : String} {s : σ} (hpath : writable s path) :
    ∃ s', (disk.ensure path).run s = (.ok (), s') ∧
      nodes s' = Function.update (nodes s) (placeOf start path.toList)
        (some (.file (textAt (nodes s (placeOf start path.toList)))))
  append {path old : String} {s : σ} (hpath : writable s path)
    (hfile : nodes s (placeOf start path.toList) = some (.file old)) (content : String) :
    ∃ s', (disk.append path content).run s = (.ok (), s')
  flush {path : String} {s : σ} (hpath : writable s path) :
    ∃ s', (disk.flush path).run s = (.ok (), s')
  sync {path : String} {s : σ} (hpath : writable s path) :
    ∃ s', (disk.sync path).run s = (.ok (), s')
  rename {source target content : String} {s : σ} (hsource : writable s source)
    (htarget : writable s target)
    (hfile : nodes s (placeOf start source.toList) = some (.file content)) :
    ∃ s', (disk.rename source target).run s = (.ok (), s')

/-! ## One file -/

/-- A file that can be written to gets another text, and all directories are where they were. -/
theorem Disk.Serves.sameDirectories {text : String} (hdisk : disk.Serves nodes start writable)
    (hpath : writable s path)
    (hnodes : nodes s' =
      Function.update (nodes s) (placeOf start path.toList) (some (.file text))) :
    SameDirectories (nodes s) (nodes s') := by
  rw [hnodes]
  exact .update (hdisk.not_directory hpath) (by simp)

/-- So they are when a file gets another text by way of its companion. -/
theorem Disk.Serves.sameDirectories_aside {text : String} (hdisk : disk.Serves nodes start writable)
    (hpath : writable s path) (haside : writable s (companionPath path))
    (hnodes : nodes s' = Function.update
      (Function.update (nodes s) (placeOf start (companionPath path).toList) none)
      (placeOf start path.toList) (some (.file text))) :
    SameDirectories (nodes s) (nodes s') := by
  have hne : placeOf start path.toList ≠ placeOf start (companionPath path).toList := by
    rw [companionPath, String.toList_ofList]
    exact (placeOf_companion_ne start _).symm
  rw [hnodes]
  refine .trans (.update (hdisk.not_directory haside) (by simp)) (.update ?_ (by simp))
  rw [Function.update_of_ne hne]
  exact hdisk.not_directory hpath

theorem exists_fill {old : String} (hdisk : disk.Serves nodes start writable)
    (hpath : writable s path) (hfile : nodes s (placeOf start path.toList) = some (.file old))
    (content : String) :
    ∃ s', (fill disk path content).run s = (.ok (), s') ∧ nodes s' =
      Function.update (nodes s) (placeOf start path.toList) (some (.file (old ++ content))) := by
  obtain ⟨s₁, happend⟩ := hdisk.append hpath hfile content
  obtain ⟨old', hold, hnodes⟩ := hdisk.mapped.append happend
  obtain rfl : old = old' := by simpa [hfile] using hold
  have hpath₁ := hdisk.writable_congr (hdisk.sameDirectories hpath hnodes) hpath
  obtain ⟨s₂, hflush⟩ := hdisk.flush hpath₁
  have hflushed := hdisk.mapped.flush hflush
  obtain ⟨s₃, hsync⟩ := hdisk.sync (hdisk.writable_congr (.of_eq hflushed.symm) hpath₁)
  refine ⟨s₃, ?_, by rw [hdisk.mapped.sync hsync, hflushed, hnodes]⟩
  exact run_bind_eq_iff.2 ⟨_, s₁, happend, run_bind_eq_iff.2 ⟨_, s₂, hflush,
    run_bind_eq_iff.2 ⟨_, s₃, hsync, rfl⟩⟩⟩

theorem exists_writeAppending (hdisk : disk.Serves nodes start writable) (hpath : writable s path)
    (content : String) :
    ∃ s', (writeAppending disk path content).run s = (.ok (), s') ∧ nodes s' =
      Function.update (nodes s) (placeOf start path.toList)
        (some (.file (textAt (nodes s (placeOf start path.toList)) ++ content))) := by
  obtain ⟨s₁, hensure, hopened⟩ := hdisk.ensure hpath
  have hpath₁ := hdisk.writable_congr (hdisk.sameDirectories hpath hopened) hpath
  obtain ⟨s₂, hfill, hfilled⟩ :=
    exists_fill hdisk hpath₁ (by rw [hopened, Function.update_self]) content
  refine ⟨s₂, run_bind_eq_iff.2 ⟨_, s₁, hensure, hfill⟩, ?_⟩
  rw [hfilled, hopened, Function.update_idem]

theorem exists_create_fill (hdisk : disk.Serves nodes start writable) (hpath : writable s path)
    (content : String) :
    ∃ s₁ s', (disk.create path).run s = (.ok (), s₁) ∧
      (fill disk path content).run s₁ = (.ok (), s') ∧ nodes s' =
        Function.update (nodes s) (placeOf start path.toList) (some (.file content)) := by
  obtain ⟨s₁, hcreate⟩ := hdisk.create hpath
  obtain ⟨-, hcreated⟩ := hdisk.mapped.create hcreate
  have hpath₁ := hdisk.writable_congr (hdisk.sameDirectories hpath hcreated) hpath
  obtain ⟨s₂, hfill, hfilled⟩ :=
    exists_fill hdisk hpath₁ (by rw [hcreated, Function.update_self]) content
  exact ⟨s₁, s₂, hcreate, hfill, nodes_of_filled hdisk.mapped hcreate (fillRun hfill)⟩

theorem exists_writeDirectly (hdisk : disk.Serves nodes start writable) (hpath : writable s path)
    (content : String) :
    ∃ s', (writeDirectly disk path content).run s = (.ok (), s') ∧ nodes s' =
      Function.update (nodes s) (placeOf start path.toList) (some (.file content)) := by
  obtain ⟨s₁, s₂, hcreate, hfill, hnodes⟩ := exists_create_fill hdisk hpath content
  exact ⟨s₂, run_bind_eq_iff.2 ⟨_, s₁, hcreate, hfill⟩, hnodes⟩

theorem exists_writeAside (hdisk : disk.Serves nodes start writable) (hpath : writable s path)
    (haside : writable s (companionPath path)) (content : String) :
    ∃ s', (writeAside disk path content).run s = (.ok (), s') ∧ nodes s' =
      Function.update
        (Function.update (nodes s) (placeOf start (companionPath path).toList) none)
        (placeOf start path.toList) (some (.file content)) := by
  obtain ⟨s₁, s₂, hcreate, hfill, hfilled⟩ := exists_create_fill hdisk haside content
  have hsame := hdisk.sameDirectories haside hfilled
  obtain ⟨s₃, hrename⟩ := hdisk.rename (hdisk.writable_congr hsame haside)
    (hdisk.writable_congr hsame hpath) (by rw [hfilled, Function.update_self])
  have hrun : (writeAside disk path content).run s = (.ok (), s₃) :=
    run_bind_eq_iff.2 ⟨_, s₁, hcreate, run_bind_eq_iff.2 ⟨_, s₂, hfill,
      run_bind_eq_iff.2 ⟨_, s₃, hrename, rfl⟩⟩⟩
  exact ⟨s₃, hrun, nodes_of_asideRun hdisk.mapped (asideRun hrun)⟩

/-! ## The tree in memory -/

namespace FileTree

variable {t t' : FileTree} {place : Place}

/-- A path leads to a place where a file is or could be made. -/
def CanHoldFile (t : FileTree) (path : String) : Prop :=
  ∃ place, t.locateFile path = .ok place ∧ t.node? place ≠ some .directory

theorem checkDirectory_eq_ok_iff :
    t.checkDirectory place = .ok () ↔ t.node? place = some .directory := by
  unfold checkDirectory
  split
  · next hnode => simp [hnode]
  · next hnode => simp [hnode]
  · next hnode => simp [hnode]

/-- Following names takes nothing but directories. -/
theorem walk_congr (h : SameDirectories t.node? t'.node?) {names : List (List Char)} {goal : Place}
    (hwalk : t.walk place names = .ok goal) : t'.walk place names = .ok goal := by
  induction names generalizing place with
  | nil => exact hwalk
  | cons name names ih =>
    unfold walk at hwalk ⊢
    obtain ⟨_, hcheck, hwalk⟩ := bind_eq_ok_iff.1 hwalk
    refine bind_eq_ok_iff.2
      ⟨(), checkDirectory_eq_ok_iff.2 ((h place).1 (checkDirectory_eq_ok_iff.1 hcheck)), ?_⟩
    split at hwalk
    · next hidle =>
      rw [if_pos hidle]
      exact ih hwalk
    · next hidle =>
      rw [if_neg hidle]
      split at hwalk
      · next hout =>
        rw [if_pos hout]
        split at hwalk
        · cases hwalk
        · next hroot =>
          rw [if_neg hroot]
          exact ih hwalk
      · next hout =>
        rw [if_neg hout]
        dsimp only at hwalk ⊢
        split at hwalk
        · cases hwalk
        · next hlong =>
          rw [if_neg hlong]
          exact ih hwalk

theorem locate_congr (h : SameDirectories t.node? t'.node?) {path : List Char}
    (hlocate : t.locate path = .ok place) : t'.locate path = .ok place := by
  unfold locate at hlocate ⊢
  split at hlocate
  · cases hlocate
  next hzero =>
  split at hlocate
  · cases hlocate
  next hempty =>
  split at hlocate
  · cases hlocate
  next hlong =>
  split at hlocate
  · cases hlocate
  next hroot =>
  rw [if_neg hzero, if_neg hempty, if_neg hlong, if_neg hroot]
  exact walk_congr h hlocate

theorem find?_eq_directory_iff {path : String} : t.find? path = some .directory ↔
    ∃ place, t.locate path.toList = .ok place ∧ t.node? place = some .directory := by
  unfold find?
  cases t.locate path.toList with
  | ok place => simp
  | error cause => simp

theorem find?_congr (h : SameDirectories t.node? t'.node?) {path : String}
    (hfind : t.find? path = some .directory) : t'.find? path = some .directory := by
  obtain ⟨place, hlocate, hnode⟩ := find?_eq_directory_iff.1 hfind
  exact find?_eq_directory_iff.2 ⟨place, locate_congr h hlocate, (h place).1 hnode⟩

theorem canHoldFile_iff {path : String} : t.CanHoldFile path ↔
    t.locate path.toList = .ok (placeOf [] path.toList) ∧ endsAsDirectory path.toList = false ∧
      t.node? (placeOf [] path.toList) ≠ some .directory := by
  constructor
  · rintro ⟨place, hplace, hnode⟩
    obtain ⟨rfl, -, hends⟩ := of_locateFile hplace
    refine ⟨?_, hends, hnode⟩
    unfold locateFile at hplace
    obtain ⟨found, hfound, -⟩ := bind_eq_ok_iff.1 hplace
    rw [hfound, placeOf_of_locate hfound]
  · rintro ⟨hlocate, hends, hnode⟩
    refine ⟨_, ?_, hnode⟩
    unfold locateFile
    rw [hlocate, hends]
    rfl

theorem locateFile_of_canHoldFile {path : String} (h : t.CanHoldFile path) :
    t.locateFile path = .ok (placeOf [] path.toList) := by
  obtain ⟨place, hplace, -⟩ := h
  rw [hplace, (of_locateFile hplace).1]

theorem run_change_of_ok {operation : FileTree → Except Cause FileTree}
    (h : operation t = .ok t') : (change operation).run t = (.ok (), t') := by
  rw [run_change, h]

theorem exists_create {path : String} (h : t.CanHoldFile path) : ∃ t', t.create path = .ok t' := by
  refine ⟨t.set (placeOf [] path.toList) (.file ""), ?_⟩
  unfold create
  refine bind_eq_ok_iff.2 ⟨_, locateFile_of_canHoldFile h, ?_⟩
  split
  · next hdirectory => exact absurd hdirectory (canHoldFile_iff.1 h).2.2
  · rfl

theorem exists_ensure {path : String} (h : t.CanHoldFile path) :
    ∃ t', t.ensure path = .ok t' ∧ t'.node? = Function.update t.node? (placeOf [] path.toList)
      (some (.file (textAt (t.node? (placeOf [] path.toList))))) := by
  obtain ⟨-, hends, hnode⟩ := canHoldFile_iff.1 h
  have hplace := locateFile_of_canHoldFile h
  unfold ensure
  cases hheld : t.node? (placeOf [] path.toList) with
  | none =>
    refine ⟨_, bind_eq_ok_iff.2 ⟨_, hplace, ?_⟩, node?_set (placeOf_ne_nil hends []) _⟩
    rw [hheld]
    rfl
  | some node =>
    cases node with
    | directory => exact absurd hheld hnode
    | file content =>
      refine ⟨t, bind_eq_ok_iff.2 ⟨_, hplace, ?_⟩, ?_⟩
      · rw [hheld]
      · rw [textAt, ← hheld, Function.update_eq_self]

theorem exists_append {path old : String} (h : t.CanHoldFile path)
    (hfile : t.node? (placeOf [] path.toList) = some (.file old)) (content : String) :
    ∃ t', t.append path content = .ok t' := by
  refine ⟨t.set (placeOf [] path.toList) (.file (old ++ content)), ?_⟩
  unfold append
  refine bind_eq_ok_iff.2 ⟨_, locateFile_of_canHoldFile h, ?_⟩
  rw [hfile]

theorem exists_rename {source target content : String} (hsource : t.CanHoldFile source)
    (htarget : t.CanHoldFile target)
    (hfile : t.node? (placeOf [] source.toList) = some (.file content)) :
    ∃ t', t.rename source target = .ok t' := by
  obtain ⟨hlocate, hends, hnode⟩ := canHoldFile_iff.1 htarget
  refine ⟨(t.erase (placeOf [] source.toList)).set (placeOf [] target.toList) (.file content), ?_⟩
  unfold rename
  refine bind_eq_ok_iff.2 ⟨_, locateFile_of_canHoldFile hsource, bind_eq_ok_iff.2 ⟨_, hlocate, ?_⟩⟩
  rw [hends]
  dsimp only
  rw [if_neg Bool.false_ne_true, hfile]
  split
  · next hdirectory => exact absurd hdirectory hnode
  · next h _ =>
    cases h
    rfl
  · next h => cases h
  · next h => cases h

theorem serves : FileTree.disk.Serves node? [] CanHoldFile where
  mapped := mapped
  isDirectory_congr {path t t'} h := by
    refine Bool.eq_iff_iff.2 ?_
    show (t.find? path == some .directory) = true ↔ (t'.find? path == some .directory) = true
    rw [beq_iff_eq, beq_iff_eq]
    exact ⟨find?_congr h, find?_congr h.symm⟩
  writable_congr h hpath := by
    obtain ⟨hlocate, hends, hnode⟩ := canHoldFile_iff.1 hpath
    exact canHoldFile_iff.2 ⟨locate_congr h hlocate, hends, (h _).not.1 hnode⟩
  not_directory hpath := (canHoldFile_iff.1 hpath).2.2
  create hpath := (exists_create hpath).imp fun _ => run_change_of_ok
  ensure hpath := (exists_ensure hpath).imp fun _ h => ⟨run_change_of_ok h.1, h.2⟩
  append hpath hfile content := (exists_append hpath hfile content).imp fun _ => run_change_of_ok
  flush {_ t} _ := ⟨t, rfl⟩
  sync {_ t} _ := ⟨t, rfl⟩
  rename hsource htarget hfile :=
    (exists_rename hsource htarget hfile).imp fun _ => run_change_of_ok

end FileTree

end WrapperGen.Files
