import WrapperGen.Proofs.FileMaps
/-!
# Replacing files

What places hold after files have been replaced, on any disk that keeps them as a map.

1. Replaced directly, each place holds the content of the last file placed there (`heldAfter`), and
   what it held before if there is none (`nodes_of_written_directly`).
2. Replaced in one step each, a place that served as a companion and where no later file is placed
   holds nothing (`IsCleared`). All others are the same (`replacedAt_of_written`).
3. The two ways leave the same unless such a place held something or is the place of a file
   (`replacement_agrees`). That happens (`companion_lost`).
4. Where a file cannot be replaced, the files before it are, and nothing else is changed but the
   place of its companion (`failed_replacement`).
-/

namespace WrapperGen.Files

variable {σ : Type} {disk : Disk (StateM σ)} {nodes : σ → Place → Option Node} {start : Place}
  {options : WriteOptions} {directory path content : String} {s s₁ s₂ s' : σ}

/-! ## Places -/

section

variable (start : Place) (directory : String)

/-- The place of a file in the output directory. -/
def targetPlace (f : CodeFile) : Place := placeOf start (targetPath directory f.path).toList

/-- The place where a file is made before it is moved. -/
def companionPlace (f : CodeFile) : Place :=
  placeOf start (companionPath (targetPath directory f.path)).toList

/-- What a place holds when files have been placed one after another: the content of the last one
there, or what it held before. -/
def heldAfter (files : List CodeFile) (held : Place → Option Node) (place : Place) : Option Node :=
  match files.reverse.find? fun f => targetPlace start directory f == place with
  | some f => some (.file f.content)
  | none => held place

/-- A place is that of the companion of a file, and no later file is placed there. -/
def IsCleared (files : List CodeFile) (place : Place) : Prop :=
  ∃ before f after, files = before ++ f :: after ∧ companionPlace start directory f = place ∧
    ∀ g ∈ after, targetPlace start directory g ≠ place

/-- What a place holds when files have been replaced in one step each. -/
def ReplacedAt (files : List CodeFile) (held held' : Place → Option Node) (place : Place) : Prop :=
  (IsCleared start directory files place → held' place = none) ∧
    (¬ IsCleared start directory files place →
      held' place = heldAfter start directory files held place)

end

theorem companionPlace_ne (f : CodeFile) :
    companionPlace start directory f ≠ targetPlace start directory f := by
  rw [companionPlace, companionPath, String.toList_ofList]
  exact placeOf_companion_ne start _

theorem heldAfter_cons (f : CodeFile) (fs : List CodeFile) (held : Place → Option Node) :
    heldAfter start directory (f :: fs) held = heldAfter start directory fs
      (Function.update held (targetPlace start directory f) (some (.file f.content))) := by
  funext place
  unfold heldAfter
  rw [List.reverse_cons, List.find?_append]
  cases fs.reverse.find? fun f => targetPlace start directory f == place with
  | some g => rfl
  | none =>
    by_cases hf : targetPlace start directory f = place
    · simp [hf]
    · simp [hf, Function.update_of_ne (Ne.symm hf)]

/-- Where a file is placed, it does not matter what was there before. -/
theorem heldAfter_congr {files : List CodeFile} {held held' : Place → Option Node} {place : Place}
    (h : (∃ f ∈ files, targetPlace start directory f = place) ∨ held place = held' place) :
    heldAfter start directory files held place = heldAfter start directory files held' place := by
  unfold heldAfter
  cases hfind : files.reverse.find? fun f => targetPlace start directory f == place with
  | some f => rfl
  | none =>
    refine h.resolve_left ?_
    rintro ⟨f, hf, hplace⟩
    simpa [hplace] using List.find?_eq_none.1 hfind f (List.mem_reverse.2 hf)

theorem heldAfter_of_forall_ne {files : List CodeFile} {place : Place}
    (h : ∀ f ∈ files, targetPlace start directory f ≠ place) (held : Place → Option Node) :
    heldAfter start directory files held place = held place := by
  have hfind : (files.reverse.find? fun f => targetPlace start directory f == place) = none :=
    List.find?_eq_none.2 fun f hf => by simpa using h f (List.mem_reverse.1 hf)
  rw [heldAfter, hfind]

theorem heldAfter_eq_none_iff {files : List CodeFile} {held : Place → Option Node} {place : Place} :
    heldAfter start directory files held place = none ↔
      held place = none ∧ ∀ f ∈ files, targetPlace start directory f ≠ place := by
  constructor
  · intro h
    have hfiles : ∀ f ∈ files, targetPlace start directory f ≠ place := by
      intro f hf hplace
      have hfound : (files.reverse.find? fun f => targetPlace start directory f == place) ≠ none :=
        fun hnone => List.find?_eq_none.1 hnone f (List.mem_reverse.2 hf) (by simpa using hplace)
      obtain ⟨g, hg⟩ := Option.ne_none_iff_exists'.1 hfound
      rw [heldAfter, hg] at h
      cases h
    exact ⟨heldAfter_of_forall_ne hfiles held ▸ h, hfiles⟩
  · rintro ⟨hheld, hfiles⟩
    rw [heldAfter_of_forall_ne hfiles, hheld]

theorem not_isCleared_nil (place : Place) : ¬ IsCleared start directory [] place := by
  rintro ⟨before, f, after, hfiles, -⟩
  simp at hfiles

theorem isCleared_cons_iff {f : CodeFile} {fs : List CodeFile} {place : Place} :
    IsCleared start directory (f :: fs) place ↔ IsCleared start directory fs place ∨
      companionPlace start directory f = place ∧
        ∀ g ∈ fs, targetPlace start directory g ≠ place := by
  constructor
  · rintro ⟨before, g, after, hfiles, hplace, hafter⟩
    rcases List.cons_eq_append_iff.1 hfiles with ⟨rfl, h⟩ | ⟨before, rfl, rfl⟩
    · obtain ⟨rfl, rfl⟩ := List.cons.inj h
      exact .inr ⟨hplace, hafter⟩
    · exact .inl ⟨before, g, after, rfl, hplace, hafter⟩
  · rintro (⟨before, g, after, rfl, hplace, hafter⟩ | ⟨hplace, hafter⟩)
    · exact ⟨f :: before, g, after, rfl, hplace, hafter⟩
    · exact ⟨[], f, fs, rfl, hplace, hafter⟩

/-- One file is replaced, and then the others. -/
theorem ReplacedAt.cons {f : CodeFile} {fs : List CodeFile} {held held' : Place → Option Node}
    {place : Place}
    (h : ReplacedAt start directory fs (Function.update
      (Function.update held (companionPlace start directory f) none)
      (targetPlace start directory f) (some (.file f.content))) held' place) :
    ReplacedAt start directory (f :: fs) held held' place := by
  obtain ⟨hcleared, hheld⟩ := h
  -- where a companion of the others was, the first file does not matter
  by_cases hfs : IsCleared start directory fs place
  · exact ⟨fun _ => hcleared hfs, fun hnot => absurd (isCleared_cons_iff.2 (.inl hfs)) hnot⟩
  constructor
  · intro hf
    obtain ⟨rfl, hafter⟩ := (isCleared_cons_iff.1 hf).resolve_left hfs
    rw [hheld hfs, heldAfter_of_forall_ne hafter, Function.update_of_ne (companionPlace_ne f),
      Function.update_self]
  · intro hnot
    rw [hheld hfs, heldAfter_cons]
    refine heldAfter_congr ?_
    by_cases hplaced : ∃ g ∈ fs, targetPlace start directory g = place
    · exact .inl hplaced
    · -- the companion of the first file was elsewhere, as none of the others is placed here
      have hne : place ≠ companionPlace start directory f := fun heq =>
        hnot (isCleared_cons_iff.2 (.inr ⟨heq.symm, fun g hg hg' => hplaced ⟨g, hg, hg'⟩⟩))
      refine .inr ?_
      by_cases hf : place = targetPlace start directory f
      · rw [hf, Function.update_self, Function.update_self]
      · rw [Function.update_of_ne hf, Function.update_of_ne hf, Function.update_of_ne hne]

/-! ## One file -/

theorem nodes_of_fill (hdisk : disk.Mapped nodes start)
    (h : FillRun disk path content s (.ok ()) s') :
    ∃ old, nodes s (placeOf start path.toList) = some (.file old) ∧ nodes s' =
      Function.update (nodes s) (placeOf start path.toList) (some (.file (old ++ content))) := by
  cases h with
  | done happend hflush hsync =>
    obtain ⟨old, hold, hnodes⟩ := hdisk.append happend
    exact ⟨old, hold, by rw [hdisk.sync hsync, hdisk.flush hflush, hnodes]⟩

/-- Whatever happens, only one place is changed. -/
theorem nodes_of_unfilled {e : WriteError} (hdisk : disk.Mapped nodes start)
    (h : FillRun disk path content s (.error e) s') :
    (∃ operation ∈ ["write", "flush", "sync"], ∃ cause, e = .failed operation path cause) ∧
      ∃ node, nodes s' = Function.update (nodes s) (placeOf start path.toList) node := by
  cases h with
  | unwritten happend => exact ⟨⟨"write", by simp, _, rfl⟩, hdisk.not_append happend⟩
  | unflushed happend hflush =>
    obtain ⟨old, -, hnodes⟩ := hdisk.append happend
    obtain ⟨node, hnode⟩ := hdisk.not_flush hflush
    rw [hnodes, Function.update_idem] at hnode
    exact ⟨⟨"flush", by simp, _, rfl⟩, node, hnode⟩
  | unsynced happend hflush hsync =>
    obtain ⟨old, -, hnodes⟩ := hdisk.append happend
    rw [← hdisk.flush hflush, ← hdisk.sync hsync] at hnodes
    exact ⟨⟨"sync", by simp, _, rfl⟩, _, hnodes⟩

/-- An empty file is filled with its content. -/
theorem nodes_of_filled (hdisk : disk.Mapped nodes start)
    (hcreate : (disk.create path).run s = (.ok (), s₁))
    (hfill : FillRun disk path content s₁ (.ok ()) s') :
    nodes s' = Function.update (nodes s) (placeOf start path.toList) (some (.file content)) := by
  obtain ⟨-, hcreated⟩ := hdisk.create hcreate
  obtain ⟨old, hold, hfilled⟩ := nodes_of_fill hdisk hfill
  rw [hcreated, Function.update_self] at hold
  obtain rfl : "" = old := by simpa using hold
  rw [hfilled, hcreated, Function.update_idem, String.empty_append]

theorem nodes_of_directRun (hdisk : disk.Mapped nodes start)
    (h : DirectRun disk path content s (.ok ()) s') :
    nodes s' = Function.update (nodes s) (placeOf start path.toList) (some (.file content)) := by
  cases h with
  | created hcreate hfill => exact nodes_of_filled hdisk hcreate hfill

theorem nodes_of_asideRun (hdisk : disk.Mapped nodes start)
    (h : AsideRun disk path content s (.ok ()) s') :
    nodes s' = Function.update
      (Function.update (nodes s) (placeOf start (companionPath path).toList) none)
      (placeOf start path.toList) (some (.file content)) := by
  cases h with
  | done hcreate hfill hrename =>
    have hfilled := nodes_of_filled hdisk hcreate hfill
    obtain ⟨moved, hmoved, -, hnodes⟩ := hdisk.rename hrename
    rw [hfilled, Function.update_self] at hmoved
    obtain rfl : content = moved := by simpa using hmoved
    rw [hnodes, hfilled, Function.update_idem]

/-! ## Several files -/

theorem nodes_of_written_directly {files : List CodeFile} (hdisk : disk.Mapped nodes start)
    (h : Written disk ⟨.replace, false⟩ directory s files s') :
    nodes s' = heldAfter start directory files (nodes s) := by
  induction h with
  | nil s => rfl
  | cons hname hfile hfiles ih =>
    rw [ih, heldAfter_cons, nodes_of_directRun hdisk (directRun hfile)]
    rfl

theorem replacedAt_of_written {files : List CodeFile} (hdisk : disk.Mapped nodes start)
    (h : Written disk .default directory s files s') (place : Place) :
    ReplacedAt start directory files (nodes s) (nodes s') place := by
  induction h with
  | nil s => exact ⟨fun hcleared => absurd hcleared (not_isCleared_nil place), fun _ => rfl⟩
  | cons hname hfile hfiles ih =>
    rw [nodes_of_asideRun hdisk (asideRun hfile)] at ih
    exact ih.cons

theorem written_of_ok {c : Code} {paths : List String} (hdisk : disk.Mapped nodes start)
    (h : (writeCode disk options directory c).run s = (.ok paths, s')) :
    paths = c.files.map (fun f => targetPath directory f.path) ∧
      ∃ s₁, nodes s₁ = nodes s ∧ Written disk options directory s₁ c.files s' := by
  obtain ⟨isThere, s₁, hisThere, h⟩ := writeCode_cases h
  rcases h with ⟨-, h, -⟩ | ⟨-, h⟩
  · cases h
  rcases writeFiles_cases h with ⟨hpaths, hwritten⟩ | ⟨_, _, _, _, _, _, _, _, h⟩
  · exact ⟨Except.ok.inj hpaths, s₁, hdisk.isDirectory hisThere, hwritten⟩
  · cases h

/-! ## Two ways to replace files -/

/-- **Files replaced directly and in one step each leave the same**, but where a companion was: the
second way leaves nothing there. -/
theorem replacement_agrees {c : Code} {paths paths' : List String} (hdisk : disk.Mapped nodes start)
    (hatomic : (writeCode disk .default directory c).run s = (.ok paths, s₁))
    (hdirect : (writeCode disk ⟨.replace, false⟩ directory c).run s = (.ok paths', s₂)) :
    paths = paths' ∧ nodes s₂ = heldAfter start directory c.files (nodes s) ∧
      (∀ place, IsCleared start directory c.files place → nodes s₁ place = none) ∧
      (∀ place, ¬ IsCleared start directory c.files place → nodes s₁ place = nodes s₂ place) ∧
      (nodes s₁ = nodes s₂ ↔ ∀ place, IsCleared start directory c.files place →
        nodes s place = none ∧ ∀ f ∈ c.files, targetPlace start directory f ≠ place) := by
  obtain ⟨rfl, t, ht, hwritten⟩ := written_of_ok hdisk hatomic
  obtain ⟨rfl, t', ht', hwritten'⟩ := written_of_ok hdisk hdirect
  have hreplaced := replacedAt_of_written hdisk hwritten
  have hheld := nodes_of_written_directly hdisk hwritten'
  rw [ht] at hreplaced
  rw [ht'] at hheld
  have hcleared : ∀ place, IsCleared start directory c.files place → nodes s₁ place = none :=
    fun place => (hreplaced place).1
  have hothers : ∀ place, ¬ IsCleared start directory c.files place →
      nodes s₁ place = nodes s₂ place := fun place hnot =>
    ((hreplaced place).2 hnot).trans (congrFun hheld place).symm
  refine ⟨rfl, hheld, hcleared, hothers, ?_⟩
  constructor
  · intro heq place hplace
    rw [← heldAfter_eq_none_iff, ← congrFun hheld place, ← heq]
    exact hcleared place hplace
  · intro hnone
    funext place
    by_cases hplace : IsCleared start directory c.files place
    · rw [hcleared place hplace, hheld, heldAfter_eq_none_iff.2 (hnone place hplace)]
    · exact hothers place hplace

namespace FileTree

/-- An output directory with a file that is named as a companion. -/
def staleOut : FileTree := ⟨[(["out"], .directory), (["out", "a.tmp"], .file "stale")]⟩

/-- The output directory after files have been replaced in one step each. -/
def replacedOut : FileTree :=
  ⟨[(["out", "a"], .file "three"), (["out", "b"], .file "two"), (["out"], .directory)]⟩

/-- The output directory after files have been replaced directly. -/
def overwrittenOut : FileTree := ⟨replacedOut.entries ++ [(["out", "a.tmp"], .file "stale")]⟩

end FileTree

/-- Files two of which have one place. -/
def repeatedFiles : List CodeFile := [⟨"a", "one"⟩, ⟨"b", "two"⟩, ⟨"./a", "three"⟩]

theorem replacement_agrees_repeated :
    FileTree.disk.Mapped FileTree.node? [] ∧
      (writeCode FileTree.disk .default "out" ⟨repeatedFiles⟩).run FileTree.staleOut =
        (.ok ["out/a", "out/b", "out/./a"], FileTree.replacedOut) ∧
      (writeCode FileTree.disk ⟨.replace, false⟩ "out" ⟨repeatedFiles⟩).run FileTree.staleOut =
        (.ok ["out/a", "out/b", "out/./a"], FileTree.overwrittenOut) ∧
      FileTree.overwrittenOut.node? =
        heldAfter [] "out" repeatedFiles FileTree.staleOut.node? ∧
      (∀ place, IsCleared [] "out" repeatedFiles place →
        FileTree.replacedOut.node? place = none) ∧
      (∀ place, ¬ IsCleared [] "out" repeatedFiles place →
        FileTree.replacedOut.node? place = FileTree.overwrittenOut.node? place) ∧
      (FileTree.replacedOut.node? = FileTree.overwrittenOut.node? ↔
        ∀ place, IsCleared [] "out" repeatedFiles place →
          FileTree.staleOut.node? place = none ∧
            ∀ f ∈ repeatedFiles, targetPlace [] "out" f ≠ place) := by
  have hatomic : (writeCode FileTree.disk .default "out" ⟨repeatedFiles⟩).run FileTree.staleOut =
      (.ok ["out/a", "out/b", "out/./a"], FileTree.replacedOut) := by
    show (_ : Except WriteError (List String) × FileTree) = _
    decide +kernel
  have hdirect : (writeCode FileTree.disk ⟨.replace, false⟩ "out" ⟨repeatedFiles⟩).run
      FileTree.staleOut = (.ok ["out/a", "out/b", "out/./a"], FileTree.overwrittenOut) := by
    show (_ : Except WriteError (List String) × FileTree) = _
    decide +kernel
  exact ⟨FileTree.mapped, hatomic, hdirect,
    (replacement_agrees FileTree.mapped hatomic hdirect).2⟩

/-- What is named as a companion is lost where files are replaced in one step, and only there. -/
theorem companion_lost :
    (writeCode FileTree.disk .default "out" ⟨[⟨"a", "new"⟩]⟩).run FileTree.staleOut =
        (.ok ["out/a"], ⟨[(["out", "a"], .file "new"), (["out"], .directory)]⟩) ∧
      (writeCode FileTree.disk ⟨.replace, false⟩ "out" ⟨[⟨"a", "new"⟩]⟩).run FileTree.staleOut =
        (.ok ["out/a"], ⟨[(["out", "a"], .file "new"), (["out"], .directory),
          (["out", "a.tmp"], .file "stale")]⟩) ∧
      FileTree.node? ⟨[(["out", "a"], .file "new"), (["out"], .directory)]⟩ ≠
        FileTree.node? ⟨[(["out", "a"], .file "new"), (["out"], .directory),
          (["out", "a.tmp"], .file "stale")]⟩ :=
  ⟨rfl, rfl, fun h => nomatch congrFun h ["out", "a.tmp"]⟩

/-! ## Files that cannot be replaced -/

/-- Why a file cannot be replaced after others have been, and what is left at the place of its
companion: what was there, if none was made; nothing, if one was made and cannot be filled, unless
it cannot be removed. -/
inductive FailedReplacement (disk : Disk (StateM σ)) (nodes : σ → Place → Option Node)
    (start : Place) (directory : String) (before : List CodeFile) (f : CodeFile)
    (held : Place → Option Node) (s' : σ) : WriteError → Prop where
  | refused (hname : isContained f.path.toList = false)
    (hheld : ReplacedAt start directory before held (nodes s') (companionPlace start directory f)) :
    FailedReplacement disk nodes start directory before f held s' (.invalidName f.path)
  | uncreated {cause : Cause}
    (hheld : ReplacedAt start directory before held (nodes s') (companionPlace start directory f)) :
    FailedReplacement disk nodes start directory before f held s'
      (.failed "create" (companionPath (targetPath directory f.path)) cause)
  | unfilled {operation : String} {cause : Cause}
    (hoperation : operation ∈ ["write", "flush", "sync"])
    (hremoved : nodes s' (companionPlace start directory f) = none ∨ ∃ s₁ cause,
      (disk.remove (companionPath (targetPath directory f.path))).run s₁ = (.error cause, s')) :
    FailedReplacement disk nodes start directory before f held s'
      (.failed operation (companionPath (targetPath directory f.path)) cause)
  | unmoved {cause : Cause} :
    FailedReplacement disk nodes start directory before f held s'
      (.failed "rename" (companionPath (targetPath directory f.path)) cause)

/-- Nothing but the companion of a file is changed where the file cannot be replaced. -/
theorem nodes_of_failed_asideRun {e : WriteError} (hdisk : disk.Mapped nodes start)
    (h : AsideRun disk path content s (.error e) s') :
    ∃ node, nodes s' =
      Function.update (nodes s) (placeOf start (companionPath path).toList) node := by
  cases h with
  | uncreated hcreate =>
    exact ⟨_, (hdisk.not_create hcreate).trans (Function.update_eq_self _ _).symm⟩
  | unfilled hcreate hfill hremove =>
    obtain ⟨-, hcreated⟩ := hdisk.create hcreate
    obtain ⟨-, node, hfilled⟩ := nodes_of_unfilled hdisk hfill
    rw [hcreated, Function.update_idem] at hfilled
    rename_i x
    cases x with
    | error cause => exact ⟨node, (hdisk.not_remove hremove).trans hfilled⟩
    | ok => exact ⟨none, by rw [hdisk.remove hremove, hfilled, Function.update_idem]⟩
  | unmoved hcreate hfill hrename =>
    exact ⟨_, (hdisk.not_rename hrename).trans (nodes_of_filled hdisk hcreate hfill)⟩

theorem failedReplacement_of_asideRun {before : List CodeFile} {f : CodeFile}
    {held : Place → Option Node} {e : WriteError} (hdisk : disk.Mapped nodes start)
    (hheld : ∀ place, ReplacedAt start directory before held (nodes s) place)
    (h : AsideRun disk (targetPath directory f.path) f.content s (.error e) s') :
    FailedReplacement disk nodes start directory before f held s' e := by
  cases h with
  | uncreated hcreate =>
    rw [← hdisk.not_create hcreate] at hheld
    exact .uncreated (hheld _)
  | @unfilled _ s₂ _ _ x hcreate hfill hremove =>
    obtain ⟨⟨operation, hoperation, cause, rfl⟩, -⟩ := nodes_of_unfilled hdisk hfill
    refine .unfilled hoperation ?_
    cases x with
    | error cause => exact .inr ⟨s₂, cause, hremove⟩
    | ok =>
      refine .inl ?_
      rw [hdisk.remove hremove]
      exact Function.update_self ..
  | unmoved hcreate hfill hrename => exact .unmoved

/-- **Where a file cannot be replaced, those before it are, and nothing else is changed**, but for
the place of its companion. -/
theorem failed_replacement {c : Code} {e : WriteError} (hdisk : disk.Mapped nodes start)
    (h : (writeCode disk .default directory c).run s = (.error e, s')) :
    e = .directoryNotFound directory ∧ nodes s' = nodes s ∨
      ∃ before f after, c.files = before ++ f :: after ∧
        (∀ place, place ≠ companionPlace start directory f →
          ReplacedAt start directory before (nodes s) (nodes s') place) ∧
        FailedReplacement disk nodes start directory before f (nodes s) s' e := by
  obtain ⟨isThere, s₁, hisThere, h⟩ := writeCode_cases h
  have hstart := hdisk.isDirectory hisThere
  rcases h with ⟨-, hnotFound, rfl⟩ | ⟨-, h⟩
  · exact .inl ⟨Except.error.inj hnotFound, hstart⟩
  rcases writeFiles_cases h with ⟨hok, -⟩ | ⟨before, f, after, s₂, e', hfiles, hwritten, hstop, he⟩
  · cases hok
  obtain rfl := Except.error.inj he
  have hheld := replacedAt_of_written hdisk hwritten
  rw [hstart] at hheld
  refine .inr ⟨before, f, after, hfiles, ?_⟩
  cases hstop with
  | invalid hname => exact ⟨fun place _ => hheld place, .refused hname (hheld _)⟩
  | failed hname hfile =>
    have haside := asideRun hfile
    refine ⟨fun place hplace => ?_, failedReplacement_of_asideRun hdisk hheld haside⟩
    obtain ⟨node, hnodes⟩ := nodes_of_failed_asideRun hdisk haside
    have hsame : nodes s' place = nodes s₂ place := by
      rw [hnodes]
      exact Function.update_of_ne hplace ..
    unfold ReplacedAt
    rw [hsame]
    exact hheld place

/-- The output directory after all files but the last have been replaced. -/
def FileTree.stoppedOut : FileTree :=
  ⟨[(["out", "b"], .file "two"), (["out", "a"], .file "one"), (["out"], .directory)]⟩

theorem failed_replacement_withRoom :
    (FileTree.disk.withRoom 3).Mapped FileTree.node? [] ∧
      (writeCode (FileTree.disk.withRoom 3) .default "out" ⟨repeatedFiles⟩).run FileTree.staleOut =
        (.error (.failed "write" "out/a.tmp" noRoom), FileTree.stoppedOut) ∧
      (WriteError.failed "write" "out/a.tmp" noRoom = .directoryNotFound "out" ∧
          FileTree.stoppedOut.node? = FileTree.staleOut.node? ∨
        ∃ before f after, repeatedFiles = before ++ f :: after ∧
          (∀ place, place ≠ companionPlace [] "out" f → ReplacedAt [] "out" before
            FileTree.staleOut.node? FileTree.stoppedOut.node? place) ∧
          FailedReplacement (FileTree.disk.withRoom 3) FileTree.node? [] "out" before f
            FileTree.staleOut.node? FileTree.stoppedOut
            (.failed "write" "out/a.tmp" noRoom)) := by
  have hmapped := FileTree.mapped.withRoom 3
  have hrun : (writeCode (FileTree.disk.withRoom 3) .default "out" ⟨repeatedFiles⟩).run
      FileTree.staleOut =
      (.error (.failed "write" "out/a.tmp" noRoom), FileTree.stoppedOut) := by
    show (_ : Except WriteError (List String) × FileTree) = _
    decide +kernel
  exact ⟨hmapped, hrun, failed_replacement hmapped hrun⟩

/-- A later file is refused, and what is named as the companion of an earlier one is lost. -/
theorem companion_lost_on_failure :
    (writeCode FileTree.disk .default "out" ⟨[⟨"a", "new"⟩, ⟨"../b", "x"⟩]⟩).run
        FileTree.staleOut =
        (.error (.invalidName "../b"), ⟨[(["out", "a"], .file "new"), (["out"], .directory)]⟩) ∧
      FileTree.staleOut.node? ["out", "a.tmp"] = some (.file "stale") ∧
      FileTree.node? ⟨[(["out", "a"], .file "new"), (["out"], .directory)]⟩
        ["out", "a.tmp"] = none :=
  ⟨rfl, rfl, rfl⟩

end WrapperGen.Files
