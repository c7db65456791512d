import WrapperGen.Config.Basic
import WrapperGen.Proofs.FunctionText
import WrapperGen.Proofs.Replacement
import WrapperGen.Proofs.RunReport
/-!
# Files of a report

1. Every report can be rendered, into one file for each unit that has functions; the content of the
   file is the text of the functions of the unit (`Code.exists_ofUnits`).
2. The units of a run have names of their own, and so have their files, which are not named as
   companions either (`Code.KeepsApart`).
3. Such files are never refused by the writer, and no two of them or their companions share a place
   (`files_of_run`).
-/

namespace WrapperGen

open Files

/-! ## File names -/

namespace FileNaming

variable {naming : FileNaming} {unit : Option String} {extension : String}

/-- What stands for a unit in the name of its file. -/
def unitPart (unit : Option String) : List Char := unit.elim [] fun name => '.' :: name.toList

theorem toList_fileName (naming : FileNaming) (unit : Option String) (extension : String) :
    (naming.fileName unit extension).toList =
      naming.stem.toList ++ (unitPart unit ++ (".Generated.".toList ++ extension.toList)) := by
  cases unit with
  | none => simp [fileName, unitPart, String.toList_append]
  | some name => simp [fileName, unitPart, String.toList_append]

theorem unitPart_injective : Function.Injective unitPart := by
  intro unit unit' h
  cases unit with
  | none =>
    cases unit' with
    | none => rfl
    | some name' => cases h
  | some name =>
    cases unit' with
    | none => cases h
    | some name' => rw [String.toList_inj.1 (List.cons.inj h).2]

theorem fileName_injective (naming : FileNaming) (extension : String) :
    Function.Injective (naming.fileName · extension) := by
  intro unit unit' h
  have hchars := congrArg String.toList h
  simp only [toList_fileName] at hchars
  exact unitPart_injective (List.append_cancel_right (List.append_cancel_left hchars))

theorem isPlainName_fileName (naming : FileNaming) (unit : Option String) (extension : String) :
    isPlainName (naming.fileName unit extension).toList = true := by
  refine isPlainName_of_length ?_
  rw [toList_fileName]
  simp only [List.length_append]
  have hmark : ".Generated.".toList.length = 11 := rfl
  omega

theorem slash_notMem_fileName (hstem : '/' ∉ naming.stem.toList)
    (hunit : ∀ name ∈ unit, '/' ∉ name.toList) (hextension : '/' ∉ extension.toList) :
    '/' ∉ (naming.fileName unit extension).toList := by
  rw [toList_fileName]
  simp only [List.mem_append, not_or]
  refine ⟨hstem, ?_, by decide, hextension⟩
  cases unit with
  | none => exact List.not_mem_nil
  | some name => exact List.not_mem_cons_of_ne_of_not_mem (by decide) (hunit name rfl)

/-- No name of a file is that of a companion. -/
theorem fileName_ne_append_mark (naming : FileNaming) (unit : Option String) (name : String) :
    naming.fileName unit PowerShell.fileExtension ≠ name ++ ".tmp" := by
  intro h
  have hlast := congrArg List.getLast? (congrArg String.toList h)
  rw [toList_fileName, String.toList_append] at hlast
  simp [PowerShell.fileExtension] at hlast

end FileNaming

/-! ## Contents -/

namespace Code

/-- A content is that of functions: the text of each of them, followed by an empty line. -/
def IsContentOf (fs : List FunctionSpec) (content : String) : Prop :=
  ∃ texts, List.Forall₂ (fun f text => PowerShell.emit f = .ok text) fs texts ∧
    content = String.join (texts.map (· ++ "\n\n"))

theorem exists_contentOf (fs : List FunctionSpec) :
    ∃ content, contentOf fs = .ok content ∧ IsContentOf fs content := by
  induction fs with
  | nil => exact ⟨"", rfl, [], .nil, String.join_nil.symm⟩
  | cons f fs ih =>
    obtain ⟨content, hcontent, texts, htexts, rfl⟩ := ih
    refine ⟨_, ?_, _, .cons (PowerShell.emit_eq f) htexts, rfl⟩
    rw [contentOf, PowerShell.emit_eq, hcontent, List.map_cons, String.join_cons]
    rfl

/-- A file is that of a unit. -/
def IsFileOf (naming : FileNaming) (u : OutputUnit) (f : CodeFile) : Prop :=
  f.path = naming.fileName u.name PowerShell.fileExtension ∧
    IsContentOf (u.constructors ++ u.wrappers) f.content

theorem exists_fileOf (naming : FileNaming) (u : OutputUnit) :
    ∃ f, fileOf naming u = .ok f ∧ IsFileOf naming u f := by
  obtain ⟨content, hcontent, hof⟩ := exists_contentOf u.functions
  refine ⟨⟨_, content⟩, ?_, rfl, hof⟩
  rw [fileOf, hcontent]
  rfl

/-- Every unit with functions has its file, in the order of the units. -/
theorem exists_ofUnits (naming : FileNaming) (units : List OutputUnit) :
    ∃ c, ofUnits naming units = .ok c ∧
      List.Forall₂ (IsFileOf naming) (units.filter fun u => !u.isEmpty) c.files := by
  have hfiles : ∀ us : List OutputUnit, ∃ files, us.mapM (fileOf naming) = .ok files ∧
      List.Forall₂ (IsFileOf naming) us files := by
    intro us
    induction us with
    | nil => exact ⟨[], rfl, .nil⟩
    | cons u us ih =>
      obtain ⟨files, hmap, hof⟩ := ih
      obtain ⟨f, hf, hfile⟩ := exists_fileOf naming u
      refine ⟨f :: files, ?_, .cons hfile hof⟩
      rw [List.mapM_cons, hf, hmap]
      rfl
  obtain ⟨files, hmap, hof⟩ := hfiles (units.filter fun u => !u.isEmpty)
  refine ⟨⟨files⟩, ?_, hof⟩
  rw [ofUnits, hmap]
  rfl

theorem map_path_of_forall₂ {naming : FileNaming} {units : List OutputUnit} {files : List CodeFile}
    (h : List.Forall₂ (IsFileOf naming) units files) : files.map (·.path) =
      units.map fun u => naming.fileName u.name PowerShell.fileExtension := by
  induction h with
  | nil => rfl
  | cons hfile _ ih => rw [List.map_cons, List.map_cons, ih, hfile.1]

/-- Every file is that of a unit. -/
theorem exists_unit_of_mem {naming : FileNaming} {units : List OutputUnit} {files : List CodeFile}
    (h : List.Forall₂ (IsFileOf naming) units files) {f : CodeFile} (hf : f ∈ files) :
    ∃ u ∈ units, naming.fileName u.name PowerShell.fileExtension = f.path := by
  have hmem : f.path ∈ files.map (·.path) := List.mem_map_of_mem hf
  rw [map_path_of_forall₂ h] at hmem
  exact List.mem_map.1 hmem

/-! ## Files that are kept apart -/

/-- Files with names of their own that lead no further than the directory they are put in, and of
which none is named as the companion of another. -/
structure KeepsApart (c : Code) : Prop where
  nodup : (c.files.map (·.path)).Nodup
  isContained : ∀ f ∈ c.files, Files.isContained f.path.toList = true
  isPlainName : ∀ f ∈ c.files, Files.isPlainName f.path.toList = true
  components : ∀ f ∈ c.files, Files.components f.path.toList = [f.path.toList]
  not_companion : ∀ f ∈ c.files, ∀ g ∈ c.files, f.path ≠ g.path ++ ".tmp"

namespace KeepsApart

variable {c : Code}

theorem slash_notMem (h : c.KeepsApart) {f : CodeFile} (hf : f ∈ c.files) : '/' ∉ f.path.toList :=
  slash_notMem_of_components (h.components f hf) (h.isPlainName f hf)

/-- A file is one place further than its directory. -/
theorem targetPlace_eq (h : c.KeepsApart) (start : Place) (directory : String) {f : CodeFile}
    (hf : f ∈ c.files) :
    targetPlace start directory f = placeOf start directory.toList ++ [f.path] := by
  rw [targetPlace, targetPath, String.toList_ofList,
    placeOf_join_name start _ (h.slash_notMem hf) (h.isPlainName f hf), String.ofList_toList]

/-- So is its companion. -/
theorem companionPlace_eq (h : c.KeepsApart) (start : Place) (directory : String) {f : CodeFile}
    (hf : f ∈ c.files) :
    companionPlace start directory f = placeOf start directory.toList ++ [f.path ++ ".tmp"] := by
  have hmark : String.ofList (f.path.toList ++ temporaryMark) = f.path ++ ".tmp" := by
    rw [String.ofList_append, String.ofList_toList]
    rfl
  rw [companionPlace, companionPath, targetPath, String.toList_ofList, String.toList_ofList,
    placeOf_companion_join_name start _ (h.slash_notMem hf) (h.isPlainName f hf), hmark]

theorem nodup_targetPlaces (h : c.KeepsApart) (start : Place) (directory : String) :
    (c.files.map (targetPlace start directory)).Nodup := by
  have hplaces : c.files.map (targetPlace start directory) =
      (c.files.map (·.path)).map fun path => placeOf start directory.toList ++ [path] := by
    rw [List.map_map]
    exact List.map_congr_left fun f hf => h.targetPlace_eq start directory hf
  rw [hplaces]
  refine h.nodup.map fun path path' heq => ?_
  exact List.singleton_inj.1 (List.append_cancel_left heq)

theorem nodup_companionPlaces (h : c.KeepsApart) (start : Place) (directory : String) :
    (c.files.map (companionPlace start directory)).Nodup := by
  have hplaces : c.files.map (companionPlace start directory) = (c.files.map (·.path)).map
      fun path => placeOf start directory.toList ++ [path ++ ".tmp"] := by
    rw [List.map_map]
    exact List.map_congr_left fun f hf => h.companionPlace_eq start directory hf
  rw [hplaces]
  refine h.nodup.map fun path path' heq => ?_
  exact (String.append_left_inj _).1 (List.singleton_inj.1 (List.append_cancel_left heq))

theorem targetPlace_ne_companionPlace (h : c.KeepsApart) (start : Place) (directory : String)
    {f g : CodeFile} (hf : f ∈ c.files) (hg : g ∈ c.files) :
    targetPlace start directory f ≠ companionPlace start directory g := by
  rw [h.targetPlace_eq start directory hf, h.companionPlace_eq start directory hg]
  intro heq
  exact h.not_companion f hf g hg (List.singleton_inj.1 (List.append_cancel_left heq))

/-- The writer does not refuse any of the files. -/
theorem run_ne_invalidName (h : c.KeepsApart) {σ : Type} (disk : Disk (StateM σ))
    (options : WriteOptions) (directory : String) (s : σ) (name : String) :
    ((writeCode disk options directory c).run s).1 ≠ .error (.invalidName name) := by
  intro hrefused
  obtain ⟨f, hf, rfl, hname⟩ := exists_of_invalidName (Prod.ext hrefused rfl)
  rw [h.isContained f hf] at hname
  cases hname

end KeepsApart

/-- Files of units with names of their own are kept apart. -/
theorem keepsApart_of_forall₂ {naming : FileNaming} {units : List OutputUnit} {c : Code}
    (hstem : '/' ∉ naming.stem.toList)
    (hslash : ∀ u ∈ units, ∀ name ∈ u.name, '/' ∉ name.toList)
    (hnodup : (units.map (·.name)).Nodup)
    (h : List.Forall₂ (IsFileOf naming) units c.files) : c.KeepsApart := by
  have hpaths := map_path_of_forall₂ h
  have hplain : ∀ f ∈ c.files, Files.isPlainName f.path.toList = true := by
    intro f hf
    obtain ⟨u, -, hpath⟩ := exists_unit_of_mem h hf
    rw [← hpath]
    exact FileNaming.isPlainName_fileName ..
  have hone : ∀ f ∈ c.files, '/' ∉ f.path.toList := by
    intro f hf
    obtain ⟨u, hu, hpath⟩ := exists_unit_of_mem h hf
    rw [← hpath]
    exact FileNaming.slash_notMem_fileName hstem (hslash u hu) (by decide)
  refine ⟨?_, fun f hf => ?_, hplain, fun f hf => ?_, fun f hf g hg => ?_⟩
  · rw [hpaths]
    show (List.map ((naming.fileName · PowerShell.fileExtension) ∘ OutputUnit.name) units).Nodup
    rw [← List.map_map]
    exact hnodup.map (FileNaming.fileName_injective naming _)
  · exact isContained_of_isPlainName (hone f hf) (hplain f hf)
  · exact components_of_isPlainName (hone f hf) (hplain f hf)
  · obtain ⟨u, -, hpath⟩ := exists_unit_of_mem h hf
    rw [← hpath]
    exact FileNaming.fileName_ne_append_mark naming u.name g.path

end Code

/-! ## The files of a run -/

theorem Config.slash_notMem_stem {c : Config} (h : c.validate = .ok ()) :
    '/' ∉ c.naming.stem.toList := by
  unfold validate at h
  split at h
  · cases h
  · next hprefix =>
    have hall : c.modulePrefix.toList.all isPrefixChar = true := by
      rw [Bool.or_eq_true, not_or] at hprefix
      simpa using hprefix.2
    intro hslash
    exact absurd (List.all_eq_true.1 hall '/' hslash) (by decide)

theorem Generator.slash_notMem_unitName {g : Generator} {es : List Endpoint}
    (h : ∀ e ∈ es, '/' ∉ e.declaringType.toList) {u : OutputUnit} (hu : u ∈ (g.run es).units) :
    ∀ name ∈ u.name, '/' ∉ name.toList := by
  have hname : u.name ∈ (g.run es).units.map (·.name) := List.mem_map_of_mem hu
  rw [unitNames_run, mem_firstSeen] at hname
  obtain ⟨e, he, hunit⟩ := List.mem_map.1 hname
  intro name hmem
  rw [← hunit, unitOf] at hmem
  split at hmem
  · cases hmem
    exact h e he
  · cases hmem

/-- **A report of a valid configuration is rendered into files that are kept apart**: one for each
unit with functions, with their texts, none of them refused by the writer, and none at the place of
another or of the companion of any. -/
theorem files_of_run (c : Config) (hvalid : c.validate = .ok ()) (catalog : Catalog)
    (es : List Endpoint) (hslash : ∀ e ∈ es, '/' ∉ e.declaringType.toList) :
    ∃ code, Code.ofReport c.naming ((c.generator catalog).run es) = .ok code ∧
      List.Forall₂ (Code.IsFileOf c.naming)
        (((c.generator catalog).run es).units.filter fun u => !u.isEmpty) code.files ∧
      code.KeepsApart ∧
      (∀ {σ : Type} (disk : Disk (StateM σ)) options directory s name,
        ((writeCode disk options directory code).run s).1 ≠ .error (.invalidName name)) ∧
      ∀ start directory, (code.files.map (targetPlace start directory)).Nodup ∧
        (code.files.map (companionPlace start directory)).Nodup ∧
        ∀ f ∈ code.files, ∀ g ∈ code.files,
          targetPlace start directory f ≠ companionPlace start directory g := by
  obtain ⟨code, hcode, hfiles⟩ :=
    Code.exists_ofUnits c.naming ((c.generator catalog).run es).units
  have hapart : code.KeepsApart := by
    refine Code.keepsApart_of_forall₂ (Config.slash_notMem_stem hvalid) (fun u hu => ?_) ?_ hfiles
    · exact Generator.slash_notMem_unitName hslash (List.mem_of_mem_filter hu)
    · exact (Generator.nodup_unitNames_run _ es).sublist (List.filter_sublist.map _)
  refine ⟨code, hcode, hfiles, hapart, hapart.run_ne_invalidName, fun start directory => ?_⟩
  exact ⟨hapart.nodup_targetPlaces start directory, hapart.nodup_companionPlaces start directory,
    fun f hf g hg => hapart.targetPlace_ne_companionPlace start directory hf hg⟩

/-- Settings that make file names start with dots. -/
def dotted : Config := { Config.default with modulePrefix := ".." }

/-- Endpoints of two clients. -/
def rackEndpoints : List Endpoint :=
  [Generator.createRack, Generator.mountRack, Generator.updateRack]

theorem files_of_run_racks :
    let report := (dotted.generator Generator.rackTable.catalog).run rackEndpoints
    dotted.validate = .ok () ∧ (∀ e ∈ rackEndpoints, '/' ∉ e.declaringType.toList) ∧
      (report.units.map fun u => (u.name, u.isEmpty)) =
        [(some "FloorApi", false), (some "AuditApi", false)] ∧
      ∃ code, Code.ofReport dotted.naming report = .ok code ∧
        List.Forall₂ (Code.IsFileOf dotted.naming)
          (report.units.filter fun u => !u.isEmpty) code.files ∧
        code.KeepsApart ∧
        (∀ {σ : Type} (disk : Disk (StateM σ)) options directory s name,
          ((writeCode disk options directory code).run s).1 ≠ .error (.invalidName name)) ∧
        ∀ start directory, (code.files.map (targetPlace start directory)).Nodup ∧
          (code.files.map (companionPlace start directory)).Nodup ∧
          ∀ f ∈ code.files, ∀ g ∈ code.files,
            targetPlace start directory f ≠ companionPlace start directory g := by
  have hvalid : dotted.validate = .ok () := rfl
  have hslash : ∀ e ∈ rackEndpoints, '/' ∉ e.declaringType.toList := by decide
  exact ⟨hvalid, hslash, by decide,
    files_of_run dotted hvalid Generator.rackTable.catalog rackEndpoints hslash⟩

end WrapperGen
