import WrapperGen.Proofs.FileMaps
/-!
# Where the writer writes

A disk can be asked to keep a record of the paths that it changes (`Disk.recorded`), which alters
nothing else about a run (`writeCode_recorded`).

1. Of one file, a run changes its path and, where files are replaced in one step, the companion of
   that path (`changes_of_writeFile`).
2. Whatever the files, all that a run changes is below the output directory, with one exception: a
   file whose name leads nowhere, replaced in one step, has the companion of the output directory
   for its own (`touched_below`). That happens (`companion_beside_directory`).
-/

namespace WrapperGen.Files

variable {σ : Type}

/-! ## Records -/

/-- Runs an operation and leaves the record as it is. -/
def unrecorded {α : Type} (x : StateM σ α) : StateM (σ × List String) α := fun s =>
  ((x.run s.1).1, (x.run s.1).2, s.2)

/-- Runs an operation, and records paths where it works. -/
def recorded (paths : List String) (x : StateM σ (Except Cause Unit)) :
    StateM (σ × List String) (Except Cause Unit) := fun s =>
  ((x.run s.1).1, (x.run s.1).2, match (x.run s.1).1 with
    | .ok () => s.2 ++ paths
    | .error _ => s.2)

/-- Records a path and runs an operation. -/
def attempted (path : String) (x : StateM σ (Except Cause Unit)) :
    StateM (σ × List String) (Except Cause Unit) := fun s =>
  ((x.run s.1).1, (x.run s.1).2, s.2 ++ [path])

/-- The disk with a record of the paths that it makes, changes or removes. Text may be added to a
file in part, so that it counts even where it fails. -/
def Disk.recorded (disk : Disk (StateM σ)) : Disk (StateM (σ × List String)) where
  isDirectory path := unrecorded (disk.isDirectory path)
  isFile path := unrecorded (disk.isFile path)
  read path := unrecorded (disk.read path)
  makeDirectory path := Files.recorded [path] (disk.makeDirectory path)
  create path := Files.recorded [path] (disk.create path)
  ensure path := Files.recorded [path] (disk.ensure path)
  append path content := attempted path (disk.append path content)
  flush path := attempted path (disk.flush path)
  sync path := unrecorded (disk.sync path)
  rename source target := Files.recorded [source, target] (disk.rename source target)
  remove path := Files.recorded [path] (disk.remove path)

/-- The paths that writing files into a directory makes, changes or removes. -/
def Disk.touched (disk : Disk (StateM σ)) (options : WriteOptions) (directory : String) (c : Code)
    (s : σ) : List String :=
  ((writeCode disk.recorded options directory c).run (s, [])).2.2

/-- One run is another with a record. -/
def Records {α : Type} (x : StateM (σ × List String) α) (y : StateM σ α) : Prop :=
  ∀ s, ((x.run s).1, (x.run s).2.1) = y.run s.1

theorem Records.bind {α β : Type} {x : StateM (σ × List String) α} {y : StateM σ α}
    {k : α → StateM (σ × List String) β} {l : α → StateM σ β} (h : Records x y)
    (hk : ∀ a, Records (k a) (l a)) : Records (x >>= k) (y >>= l) := by
  intro s
  show _ = (l (y.run s.1).1).run (y.run s.1).2
  rw [← h s]
  exact hk _ _

theorem records_pure {α : Type} (a : α) :
    Records (pure a : StateM (σ × List String) α) (pure a) := fun _ => rfl

theorem records_fill (disk : Disk (StateM σ)) (path content : String) :
    Records (fill disk.recorded path content) (fill disk path content) := by
  unfold fill
  refine Records.bind (fun _ => rfl) fun x => ?_
  cases x with
  | error cause => exact records_pure _
  | ok =>
    refine Records.bind (fun _ => rfl) fun x => ?_
    cases x with
    | error cause => exact records_pure _
    | ok => exact Records.bind (fun _ => rfl) fun x => records_pure _

theorem records_writeFile (disk : Disk (StateM σ)) (options : WriteOptions)
    (path content : String) :
    Records (writeFile disk.recorded options path content)
      (writeFile disk options path content) := by
  obtain ⟨mode, atomic⟩ := options
  have hcreated : ∀ path, Records (disk.recorded.create path) (disk.create path) := fun _ _ => rfl
  cases mode with
  | append =>
    show Records (writeAppending ..) (writeAppending ..)
    unfold writeAppending
    refine Records.bind (fun _ => rfl) fun x => ?_
    cases x with
    | error cause => exact records_pure _
    | ok => exact records_fill disk path content
  | replace =>
    cases atomic with
    | false =>
      show Records (writeDirectly ..) (writeDirectly ..)
      unfold writeDirectly
      refine Records.bind (hcreated path) fun x => ?_
      cases x with
      | error cause => exact records_pure _
      | ok => exact records_fill disk path content
    | true =>
      show Records (writeAside ..) (writeAside ..)
      unfold writeAside
      refine Records.bind (hcreated _) fun x => ?_
      cases x with
      | error cause => exact records_pure _
      | ok =>
        refine Records.bind (records_fill disk _ content) fun x => ?_
        cases x with
        | error e => exact Records.bind (fun _ => rfl) fun _ => records_pure _
        | ok => exact Records.bind (fun _ => rfl) fun _ => records_pure _

theorem records_writeFiles (disk : Disk (StateM σ)) (options : WriteOptions) (directory : String)
    (files : List CodeFile) :
    Records (writeFiles disk.recorded options directory files)
      (writeFiles disk options directory files) := by
  induction files with
  | nil => exact records_pure _
  | cons f fs ih =>
    unfold writeFiles
    cases isContained f.path.toList with
    | false => exact records_pure _
    | true =>
      refine Records.bind (records_writeFile disk options _ f.content) fun x => ?_
      cases x with
      | error e => exact records_pure _
      | ok => exact Records.bind ih fun _ => records_pure _

/-- A record changes nothing about a run. -/
theorem writeCode_recorded (disk : Disk (StateM σ)) (options : WriteOptions) (directory : String)
    (c : Code) :
    Records (writeCode disk.recorded options directory c) (writeCode disk options directory c) := by
  unfold writeCode
  refine Records.bind (fun _ => rfl) fun isThere => ?_
  cases isThere with
  | false => exact records_pure _
  | true => exact records_writeFiles disk options directory c.files

/-! ## What a run adds to the record -/

/-- All that is new in the record is of some kind. -/
def Adds (kind : String → Prop) (s s' : σ × List String) : Prop :=
  ∀ path ∈ s'.2, path ∈ s.2 ∨ kind path

variable {disk : Disk (StateM σ)} {options : WriteOptions} {directory path content : String}
  {kind kind' : String → Prop} {s s₁ s' : σ × List String} {r : Except WriteError Unit}

theorem Adds.refl (s : σ × List String) : Adds kind s s := fun _ => .inl

theorem Adds.trans (h : Adds kind s s₁) (h' : Adds kind s₁ s') : Adds kind s s' := fun path hpath =>
  (h' path hpath).elim (h path) .inr

theorem Adds.mono (h : Adds kind s s') (hkind : ∀ path, kind path → kind' path) :
    Adds kind' s s' := fun path hpath => (h path hpath).imp_right (hkind path)

theorem adds_unrecorded {α : Type} {x : StateM σ α} {a : α}
    (h : (unrecorded x).run s = (a, s')) : Adds kind s s' := by
  obtain ⟨-, rfl⟩ := Prod.mk.inj h
  exact fun _ => .inl

theorem adds_attempted {x : StateM σ (Except Cause Unit)} {a : Except Cause Unit}
    (h : (attempted path x).run s = (a, s')) (hpath : kind path) : Adds kind s s' := by
  obtain ⟨-, rfl⟩ := Prod.mk.inj h
  intro p hp
  refine (List.mem_append.1 hp).imp_right fun hp => ?_
  rwa [List.mem_singleton.1 hp]

theorem run_of_recorded {paths : List String} {x : StateM σ (Except Cause Unit)}
    {a : Except Cause Unit} (h : (Files.recorded paths x).run s = (a, s')) :
    x.run s.1 = (a, s'.1) := by
  obtain ⟨rfl, rfl⟩ := Prod.mk.inj h
  rfl

theorem adds_recorded {paths : List String} {x : StateM σ (Except Cause Unit)}
    {a : Except Cause Unit} (h : (Files.recorded paths x).run s = (a, s'))
    (hpaths : x.run s.1 = (.ok (), s'.1) → ∀ path ∈ paths, kind path) : Adds kind s s' := by
  obtain ⟨hresult, rfl⟩ := Prod.mk.inj h
  intro p hp
  cases hx : (x.run s.1).1 with
  | error cause =>
    simp only [hx] at hp
    exact .inl hp
  | ok =>
    simp only [hx] at hp
    exact (List.mem_append.1 hp).imp_right (hpaths (Prod.ext hx rfl) p)

/-- What did not work adds nothing. -/
theorem adds_recorded_error {paths : List String} {x : StateM σ (Except Cause Unit)} {cause : Cause}
    (h : (Files.recorded paths x).run s = (.error cause, s')) : Adds kind s s' :=
  adds_recorded h fun hok => nomatch (run_of_recorded h).symm.trans hok

theorem adds_fill (h : FillRun disk.recorded path content s r s') (hpath : kind path) :
    Adds kind s s' := by
  cases h with
  | unwritten happend => exact adds_attempted happend hpath
  | unflushed happend hflush =>
    exact (adds_attempted happend hpath).trans (adds_attempted hflush hpath)
  | unsynced happend hflush hsync =>
    exact ((adds_attempted happend hpath).trans (adds_attempted hflush hpath)).trans
      (adds_unrecorded hsync)
  | done happend hflush hsync =>
    exact ((adds_attempted happend hpath).trans (adds_attempted hflush hpath)).trans
      (adds_unrecorded hsync)

/-! ## What is below the directory -/

/-- The paths that writing one file may change. -/
def Changeable (options : WriteOptions) (path changed : String) : Prop :=
  changed = path ∧ FileTree.endsAsDirectory path.toList = false ∨
    changed = companionPath path ∧ options = ⟨.replace, true⟩

theorem changes_of_writeFile (hdisk : disk.TellsFiles)
    (h : (writeFile disk.recorded options path content).run s = (r, s')) :
    Adds (Changeable options path) s s' := by
  obtain ⟨mode, atomic⟩ := options
  cases mode with
  | append =>
    cases appendingRun h with
    | unopened hensure => exact adds_recorded_error hensure
    | opened hensure hfill =>
      have hpath : Changeable ⟨.append, atomic⟩ path path :=
        .inl ⟨rfl, hdisk.ensure (run_of_recorded hensure)⟩
      exact (adds_recorded hensure fun _ => List.forall_mem_singleton.2 hpath).trans
        (adds_fill hfill hpath)
  | replace =>
    cases atomic with
    | false =>
      cases directRun h with
      | uncreated hcreate => exact adds_recorded_error hcreate
      | created hcreate hfill =>
        have hpath : Changeable ⟨.replace, false⟩ path path :=
          .inl ⟨rfl, hdisk.create (run_of_recorded hcreate)⟩
        exact (adds_recorded hcreate fun _ => List.forall_mem_singleton.2 hpath).trans
          (adds_fill hfill hpath)
    | true =>
      have haside : Changeable ⟨.replace, true⟩ path (companionPath path) := .inr ⟨rfl, rfl⟩
      have hcreated {s s₁ : σ × List String} {a : Except Cause Unit}
          (hcreate : (disk.recorded.create (companionPath path)).run s = (a, s₁)) :
          Adds (Changeable ⟨.replace, true⟩ path) s s₁ :=
        adds_recorded hcreate fun _ => List.forall_mem_singleton.2 haside
      cases asideRun h with
      | uncreated hcreate => exact hcreated hcreate
      | unfilled hcreate hfill hremove =>
        exact ((hcreated hcreate).trans (adds_fill hfill haside)).trans
          (adds_recorded hremove fun _ => List.forall_mem_singleton.2 haside)
      | unmoved hcreate hfill hrename =>
        exact ((hcreated hcreate).trans (adds_fill hfill haside)).trans
          (adds_recorded_error hrename)
      | done hcreate hfill hrename =>
        refine ((hcreated hcreate).trans (adds_fill hfill haside)).trans ?_
        refine adds_recorded hrename fun hok => ?_
        simpa using And.intro haside (.inl ⟨rfl, hdisk.rename hok⟩)

/-- A name that leads nowhere makes a path that ends as only those of directories do. -/
theorem endsAsDirectory_join {directory path : List Char} (hdirectory : directory ≠ [])
    (h : isContained path = true) (hsteps : steps (split path) = []) :
    FileTree.endsAsDirectory (join directory path) = true := by
  obtain ⟨names, -, -, hsplit⟩ := exists_split_join hdirectory (isContained_iff.1 h).2.1
  obtain ⟨before, last, hlast⟩ := (List.eq_nil_or_concat' _).resolve_left (split_ne_nil path)
  have hidle : isIdle last = true := steps_eq_nil_iff.1 hsteps last (by simp [hlast])
  unfold FileTree.endsAsDirectory
  rw [hsplit, hlast, ← List.append_assoc, List.getLast?_concat]
  simp [hidle]

/-- What a run may change beside the output directory: the companion of the directory, for a file
whose name leads nowhere. -/
def IsBeside (options : WriteOptions) (directory : String) (files : List CodeFile)
    (path : String) : Prop :=
  EndsPlainly directory.toList ∧ components path.toList = components (companion directory.toList) ∧
    options = ⟨.replace, true⟩ ∧
      ∃ f ∈ files, isContained f.path.toList = true ∧ steps (split f.path.toList) = []

theorem not_isBelow_of_isBeside {files : List CodeFile}
    (h : IsBeside options directory files path) : ¬ IsBelow directory.toList path.toList := by
  obtain ⟨hplain, hparts, -⟩ := h
  rintro ⟨names, hnames⟩
  rw [hparts] at hnames
  exact isBelow_companion_iff.1 ⟨names, hnames⟩ hplain

/-- The paths that a run may change. -/
def InReach (options : WriteOptions) (directory : String) (files : List CodeFile)
    (path : String) : Prop :=
  IsBelow directory.toList path.toList ∨ IsBeside options directory files path

theorem inReach_of_changeable {f : CodeFile} {files : List CodeFile} (hf : f ∈ files)
    (hdirectory : directory.toList ≠ []) (hname : isContained f.path.toList = true)
    (h : Changeable options (targetPath directory f.path) path) :
    InReach options directory files path := by
  by_cases hsteps : steps (split f.path.toList) = []
  -- the file cannot be made, as its path is that of the directory; its companion can
  · rcases h with ⟨rfl, hfile⟩ | ⟨rfl, hoptions⟩
    · rw [targetPath, String.toList_ofList, endsAsDirectory_join hdirectory hname hsteps] at hfile
      cases hfile
    · have hparts := components_companion_join hdirectory hname hsteps
      unfold InReach IsBeside
      rw [companionPath, targetPath, String.toList_ofList, String.toList_ofList]
      by_cases hplain : EndsPlainly directory.toList
      · exact .inr ⟨hplain, hparts, hoptions, f, hf, hname, hsteps⟩
      · obtain ⟨names, hnames, hall, hcompanion⟩ := isBelow_companion_iff.2 hplain
        exact .inl ⟨names, hnames, hall, hparts.trans hcompanion⟩
  · refine .inl ?_
    rcases h with ⟨rfl, -⟩ | ⟨rfl, -⟩
    · rw [targetPath, String.toList_ofList]
      exact isBelow_join hdirectory hname hsteps
    · rw [companionPath, targetPath, String.toList_ofList, String.toList_ofList]
      exact isBelow_companion_join hdirectory hname hsteps

theorem adds_writeFile {f : CodeFile} {files : List CodeFile} (hdisk : disk.TellsFiles)
    (hdirectory : directory.toList ≠ []) (hf : f ∈ files) (hname : isContained f.path.toList = true)
    (h : (writeFile disk.recorded options (targetPath directory f.path) f.content).run s =
      (r, s')) :
    Adds (InReach options directory files) s s' :=
  (changes_of_writeFile hdisk h).mono fun _ => inReach_of_changeable hf hdirectory hname

theorem adds_written {files all : List CodeFile} (hdisk : disk.TellsFiles)
    (hdirectory : directory.toList ≠ []) (hfiles : files ⊆ all)
    (h : Written disk.recorded options directory s files s') :
    Adds (InReach options directory all) s s' := by
  induction h with
  | nil s => exact Adds.refl s
  | cons hname hfile hrest ih =>
    obtain ⟨hf, hfiles⟩ := List.cons_subset.1 hfiles
    exact (adds_writeFile hdisk hdirectory hf hname hfile).trans (ih hfiles)

theorem adds_writeCode {c : Code} {r : Except WriteError (List String)} (hdisk : disk.TellsFiles)
    (h : (writeCode disk.recorded options directory c).run s = (r, s')) :
    Adds (InReach options directory c.files) s s' := by
  obtain ⟨isThere, s₁, hisThere, h⟩ := writeCode_cases h
  refine (adds_unrecorded hisThere).trans ?_
  rcases h with ⟨-, -, rfl⟩ | ⟨rfl, h⟩
  · exact Adds.refl _
  -- what is there has a name
  have hdirectory : directory.toList ≠ [] := by
    intro hempty
    rw [String.toList_eq_nil_iff.1 hempty] at hisThere
    have hthere : ((disk.isDirectory "").run s.1).1 = true := congrArg Prod.fst hisThere
    rw [hdisk.isDirectory_empty] at hthere
    cases hthere
  rcases writeFiles_cases h with
    ⟨-, hwritten⟩ | ⟨before, f, after, s₂, e, hfiles, hwritten, hstop, -⟩
  · exact adds_written hdisk hdirectory (List.Subset.refl _) hwritten
  · have hbefore : before ⊆ c.files := hfiles ▸ List.subset_append_left ..
    have hf : f ∈ c.files := hfiles ▸ List.mem_append_right _ (List.mem_cons_self ..)
    refine (adds_written hdisk hdirectory hbefore hwritten).trans ?_
    cases hstop with
    | invalid => exact Adds.refl _
    | failed hname hfile => exact adds_writeFile hdisk hdirectory hf hname hfile

/-- **All that a run changes is below the output directory**, but for the companion of the directory
itself, made for a file whose name leads nowhere. What is said of the run with a record holds of the
run without. -/
theorem touched_below (hdisk : disk.TellsFiles) (options : WriteOptions) (directory : String)
    (c : Code) (s : σ) :
    Records (writeCode disk.recorded options directory c) (writeCode disk options directory c) ∧
      ∀ path ∈ disk.touched options directory c s, IsBelow directory.toList path.toList ∨
        ¬ IsBelow directory.toList path.toList ∧ IsBeside options directory c.files path := by
  refine ⟨writeCode_recorded disk options directory c, fun path hpath => ?_⟩
  have hadds : Adds (InReach options directory c.files) (s, [])
      ((writeCode disk.recorded options directory c).run (s, [])).2 := adds_writeCode hdisk rfl
  rcases (hadds path hpath).resolve_left List.not_mem_nil with hbelow | hbeside
  · exact .inl hbelow
  · exact .inr ⟨not_isBelow_of_isBeside hbeside, hbeside⟩

/-! ## In place of the directory -/

/-- A tree with nothing but an output directory. -/
def FileTree.emptyOut : FileTree := ⟨[(["out"], .directory)]⟩

/-- Two files, the second of which has a name that leads nowhere. -/
def nowhereLast : Code := ⟨[⟨"./a.ps1", "one"⟩, ⟨".", "two"⟩]⟩

theorem touched_below_nowhereLast :
    FileTree.disk.TellsFiles ∧
      Records (writeCode FileTree.disk.recorded .default "out" nowhereLast)
        (writeCode FileTree.disk .default "out" nowhereLast) ∧
      ∀ path ∈ FileTree.disk.touched .default "out" nowhereLast FileTree.emptyOut,
        IsBelow "out".toList path.toList ∨
          ¬ IsBelow "out".toList path.toList ∧ IsBeside .default "out" nowhereLast.files path :=
  ⟨FileTree.tellsFiles,
    touched_below FileTree.tellsFiles .default "out" nowhereLast FileTree.emptyOut⟩

/-- The companion of the directory is made beside it, and is left there, since no file can have the
place of a directory. -/
theorem companion_beside_directory :
    "out.tmp" ∈ FileTree.disk.touched .default "out" nowhereLast FileTree.emptyOut ∧
      ¬ IsBelow "out".toList "out.tmp".toList ∧
      (writeCode FileTree.disk .default "out" nowhereLast).run FileTree.emptyOut =
        (.error (.failed "rename" "out.tmp" .busy), ⟨[(["out.tmp"], .file "two"),
          (["out", "a.ps1"], .file "one"), (["out"], .directory)]⟩) := by
  refine ⟨by decide, ?_, rfl⟩
  have hplain : EndsPlainly "out".toList := ⟨[], "out".toList, by decide, by decide⟩
  have hcompanion : "out.tmp".toList = companion "out".toList := by decide
  rw [hcompanion]
  exact fun hbelow => isBelow_companion_iff.1 hbelow hplain

end WrapperGen.Files
