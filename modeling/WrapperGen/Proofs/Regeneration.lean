import WrapperGen.Proofs.FileService
import WrapperGen.Proofs.OutputFiles
/-!
# Writing again

A report is written, and written again: files that are replaced are the same after any number of
calls, and files that are added to hold one more copy after each of them.

1. What `n` calls leave is `Rewritten`: it is told of one file, then of the files of one call
   (`Rewritten.cons`), then of calls in a row (`Rewritten.trans`).
2. On a disk that serves files every call works (`Rewritten.exists_writeCode`), and none of them
   makes or unmakes a directory, so the next one does too (`Rewritten.exists_writeCalls`).
3. Files of units with names of their own are placed apart, whatever they all start with
   (`placedApart_of_forall₂`). What they start with says whether the writer takes them
   (`isContained_fileName`).
4. So for all reports (`rewritten_by_calls`). A start that leads out of the directory is refused,
   though the disk would serve the file (`refused_outside`).
-/

namespace WrapperGen

namespace Files

variable {σ : Type} {disk : Disk (StateM σ)} {nodes : σ → Place → Option Node} {start : Place}
  {writable : σ → String → Prop} {options : WriteOptions} {directory : String} {s s₁ s' : σ}

/-! ## What calls leave -/

/-- What is in a file after `n` calls have written it. -/
def contentAfter (options : WriteOptions) (n : Nat) (f : CodeFile) (before : Option Node) :
    String :=
  match options.mode with
  | .replace => f.content
  | .append => textAt before ++ String.join (List.replicate n f.content)

/-- What `n` calls that write files make of what places hold. -/
structure Rewritten (options : WriteOptions) (start : Place) (directory : String)
    (files : List CodeFile) (n : Nat) (held held' : Place → Option Node) : Prop where
  target : ∀ f ∈ files, held' (targetPlace start directory f) =
    some (.file (contentAfter options n f (held (targetPlace start directory f))))
  companion : options = .default → ∀ f ∈ files, held' (companionPlace start directory f) = none
  others : ∀ place, (∀ f ∈ files, targetPlace start directory f ≠ place) →
    (options = .default → ∀ f ∈ files, companionPlace start directory f ≠ place) →
    held' place = held place

/-- The files have places of their own, and none is at the place of a companion. -/
structure PlacedApart (start : Place) (directory : String) (files : List CodeFile) : Prop where
  nodup : (files.map (targetPlace start directory)).Nodup
  not_companion : ∀ f ∈ files, ∀ g ∈ files,
    targetPlace start directory f ≠ companionPlace start directory g

theorem PlacedApart.tail {f : CodeFile} {fs : List CodeFile}
    (h : PlacedApart start directory (f :: fs)) : PlacedApart start directory fs where
  nodup := (List.nodup_cons.1 h.nodup).2
  not_companion g hg k hk :=
    h.not_companion g (List.mem_cons_of_mem _ hg) k (List.mem_cons_of_mem _ hk)

/-- All files can be written where they go, and beside it if they are replaced in one step. -/
def CanBeWritten (writable : σ → String → Prop) (options : WriteOptions) (directory : String)
    (files : List CodeFile) (s : σ) : Prop :=
  ∀ f ∈ files, writable s (targetPath directory f.path) ∧
    (options = .default → writable s (companionPath (targetPath directory f.path)))

theorem CanBeWritten.congr {files : List CodeFile} (hdisk : disk.Serves nodes start writable)
    (hsame : SameDirectories (nodes s) (nodes s'))
    (h : CanBeWritten writable options directory files s) :
    CanBeWritten writable options directory files s' := fun f hf =>
  ⟨hdisk.writable_congr hsame (h f hf).1,
    fun hoptions => hdisk.writable_congr hsame ((h f hf).2 hoptions)⟩

namespace Rewritten

variable {f : CodeFile} {files fs : List CodeFile} {m n : Nat}
  {held held₁ held' : Place → Option Node}

theorem nil (n : Nat) (held : Place → Option Node) :
    Rewritten options start directory [] n held held where
  target _ hf := absurd hf List.not_mem_nil
  companion _ _ hf := absurd hf List.not_mem_nil
  others _ _ _ := rfl

theorem cons (hapart : PlacedApart start directory (f :: fs))
    (h : Rewritten options start directory [f] n held held₁)
    (h' : Rewritten options start directory fs n held₁ held') :
    Rewritten options start directory (f :: fs) n held held' := by
  have hself : f ∈ f :: fs := List.mem_cons_self ..
  have hnodup := hapart.nodup
  rw [List.map_cons, List.nodup_cons] at hnodup
  have hne : ∀ g ∈ fs, targetPlace start directory g ≠ targetPlace start directory f :=
    fun g hg heq => hnodup.1 (heq ▸ List.mem_map_of_mem hg)
  refine ⟨?_, ?_, ?_⟩
  · intro g hg
    rcases List.mem_cons.1 hg with rfl | hg
    · rw [h'.others _ hne fun _ k hk =>
        (hapart.not_companion g hself k (List.mem_cons_of_mem _ hk)).symm]
      exact h.target g (List.mem_singleton_self g)
    · rw [h'.target g hg, h.others _ (by simpa using (hne g hg).symm)]
      simpa using fun _ => (hapart.not_companion g (List.mem_cons_of_mem _ hg) f hself).symm
  · intro hoptions g hg
    by_cases hfs : ∃ k ∈ fs, companionPlace start directory k = companionPlace start directory g
    · obtain ⟨k, hk, heq⟩ := hfs
      rw [← heq]
      exact h'.companion hoptions k hk
    -- only the first file has this companion
    · have hg : g = f := (List.mem_cons.1 hg).resolve_right fun hg => hfs ⟨g, hg, rfl⟩
      rw [h'.others _ (fun k hk => hapart.not_companion k (List.mem_cons_of_mem _ hk) g
        (hg ▸ hself)) fun _ k hk heq => hfs ⟨k, hk, heq⟩]
      exact h.companion hoptions g (List.mem_singleton.2 hg)
  · intro place htarget hcompanion
    rw [h'.others place (fun k hk => htarget k (List.mem_cons_of_mem _ hk))
      fun hoptions k hk => hcompanion hoptions k (List.mem_cons_of_mem _ hk)]
    refine h.others place ?_ ?_
    · intro k hk
      exact htarget k (List.mem_singleton.1 hk ▸ hself)
    · intro hoptions k hk
      exact hcompanion hoptions k (List.mem_singleton.1 hk ▸ hself)

theorem contentAfter_add (options : WriteOptions) (m n : Nat) (f : CodeFile)
    (before : Option Node) :
    contentAfter options n f (some (.file (contentAfter options m f before))) =
      contentAfter options (m + n) f before := by
  unfold contentAfter
  cases options.mode with
  | replace => rfl
  | append =>
    show textAt before ++ String.join (List.replicate m f.content) ++
      String.join (List.replicate n f.content) = _
    rw [String.append_assoc, ← String.join_append, List.replicate_append_replicate]

theorem trans (h : Rewritten options start directory files m held held₁)
    (h' : Rewritten options start directory files n held₁ held') :
    Rewritten options start directory files (m + n) held held' where
  target f hf := by rw [h'.target f hf, h.target f hf, contentAfter_add]
  companion := h'.companion
  others place htarget hcompanion := by
    rw [h'.others place htarget hcompanion, h.others place htarget hcompanion]

/-! ## One call -/

theorem of_update (hoptions : options ≠ .default) (held : Place → Option Node) :
    Rewritten options start directory [f] 1 held
      (Function.update held (targetPlace start directory f)
        (some (.file (contentAfter options 1 f (held (targetPlace start directory f)))))) := by
  refine ⟨?_, fun hdefault => absurd hdefault hoptions, ?_⟩
  · intro g hg
    rw [List.mem_singleton.1 hg, Function.update_self]
  · intro place htarget _
    exact Function.update_of_ne (htarget f (List.mem_singleton_self f)).symm ..

theorem of_update_aside (held : Place → Option Node) :
    Rewritten .default start directory [f] 1 held
      (Function.update (Function.update held (companionPlace start directory f) none)
        (targetPlace start directory f) (some (.file f.content))) := by
  refine ⟨?_, ?_, ?_⟩
  · intro g hg
    rw [List.mem_singleton.1 hg]
    exact Function.update_self ..
  · intro _ g hg
    rw [List.mem_singleton.1 hg, Function.update_of_ne (companionPlace_ne f)]
    exact Function.update_self ..
  · intro place htarget haway
    rw [Function.update_of_ne (htarget f (List.mem_singleton_self f)).symm,
      Function.update_of_ne (haway rfl f (List.mem_singleton_self f)).symm]

/-- A file is written, and no directory comes or goes. -/
theorem exists_writeFile (hdisk : disk.Serves nodes start writable)
    (hwritable : CanBeWritten writable options directory [f] s) :
    ∃ s', (writeFile disk options (targetPath directory f.path) f.content).run s = (.ok (), s') ∧
      SameDirectories (nodes s) (nodes s') ∧
      Rewritten options start directory [f] 1 (nodes s) (nodes s') := by
  obtain ⟨hpath, haside⟩ := hwritable f (List.mem_singleton_self f)
  obtain ⟨mode, atomic⟩ := options
  cases mode with
  | append =>
    obtain ⟨s', hrun, hnodes⟩ := exists_writeAppending hdisk hpath f.content
    refine ⟨s', hrun, hdisk.sameDirectories hpath hnodes, ?_⟩
    have honce : String.join (List.replicate 1 f.content) = f.content := by simp
    rw [← honce] at hnodes
    rw [hnodes]
    exact of_update (by simp [WriteOptions.default]) _
  | replace =>
    cases atomic with
    | false =>
      obtain ⟨s', hrun, hnodes⟩ := exists_writeDirectly hdisk hpath f.content
      refine ⟨s', hrun, hdisk.sameDirectories hpath hnodes, ?_⟩
      rw [hnodes]
      exact of_update (by simp [WriteOptions.default]) _
    | true =>
      have haside := haside rfl
      obtain ⟨s', hrun, hnodes⟩ := exists_writeAside hdisk hpath haside f.content
      refine ⟨s', hrun, hdisk.sameDirectories_aside hpath haside hnodes, ?_⟩
      rw [hnodes]
      exact of_update_aside _

theorem exists_writeFiles (hdisk : disk.Serves nodes start writable)
    (hnames : ∀ f ∈ files, isContained f.path.toList = true)
    (hapart : PlacedApart start directory files)
    (hwritable : CanBeWritten writable options directory files s) :
    ∃ s', (writeFiles disk options directory files).run s =
        (.ok (files.map fun f => targetPath directory f.path), s') ∧
      SameDirectories (nodes s) (nodes s') ∧
      Rewritten options start directory files 1 (nodes s) (nodes s') := by
  induction files generalizing s with
  | nil => exact ⟨s, rfl, .refl _, .nil 1 _⟩
  | cons f fs ih =>
    obtain ⟨s₁, hfile, hsame, hone⟩ := exists_writeFile hdisk fun g hg =>
      hwritable g (List.mem_singleton.1 hg ▸ List.mem_cons_self ..)
    have hwritable₁ : CanBeWritten writable options directory fs s₁ :=
      CanBeWritten.congr hdisk hsame fun g hg => hwritable g (List.mem_cons_of_mem _ hg)
    obtain ⟨s₂, hfiles, hsame', hothers⟩ :=
      ih (fun g hg => hnames g (List.mem_cons_of_mem _ hg)) hapart.tail hwritable₁
    refine ⟨s₂, ?_, hsame.trans hsame', cons hapart hone hothers⟩
    have hname := hnames f (List.mem_cons_self ..)
    unfold writeFiles
    rw [hname, Bool.not_true, if_neg Bool.false_ne_true]
    refine run_bind_eq_iff.2 ⟨.ok (), s₁, hfile, ?_⟩
    exact run_bind_eq_iff.2 ⟨_, s₂, hfiles, rfl⟩

theorem exists_writeCode {c : Code} (hdisk : disk.Serves nodes start writable)
    (hthere : ((disk.isDirectory directory).run s).1 = true)
    (hnames : ∀ f ∈ c.files, isContained f.path.toList = true)
    (hapart : PlacedApart start directory c.files)
    (hwritable : CanBeWritten writable options directory c.files s) :
    ∃ s', (writeCode disk options directory c).run s =
        (.ok (c.files.map fun f => targetPath directory f.path), s') ∧
      SameDirectories (nodes s) (nodes s') ∧
      Rewritten options start directory c.files 1 (nodes s) (nodes s') := by
  have hisThere : (disk.isDirectory directory).run s =
      (true, ((disk.isDirectory directory).run s).2) := Prod.ext hthere rfl
  have hdirectory := hdisk.mapped.isDirectory hisThere
  obtain ⟨s', hrun, hsame, hrewritten⟩ := exists_writeFiles hdisk hnames hapart
    (hwritable.congr hdisk (.of_eq hdirectory.symm))
  rw [hdirectory] at hsame hrewritten
  exact ⟨s', run_bind_eq_iff.2 ⟨true, _, hisThere, hrun⟩, hsame, hrewritten⟩

end Rewritten

/-! ## Calls in a row -/

/-- Calls that write the same files one after another, with what each of them gives. -/
def writeCalls {m : Type → Type} [Monad m] (disk : Disk m) (options : WriteOptions)
    (directory : String) (c : Code) : Nat → m (List (Except WriteError (List String)))
  | 0 => return []
  | n + 1 => do
    let r ← writeCode disk options directory c
    return r :: (← writeCalls disk options directory c n)

theorem run_writeCalls_succ {c : Code} {n : Nat} {r : Except WriteError (List String)}
    {rs : List (Except WriteError (List String))}
    (hcall : (writeCode disk options directory c).run s = (r, s₁))
    (hcalls : (writeCalls disk options directory c n).run s₁ = (rs, s')) :
    (writeCalls disk options directory c (n + 1)).run s = (r :: rs, s') := by
  unfold writeCalls
  exact run_bind_eq_iff.2 ⟨r, s₁, hcall, run_bind_eq_iff.2 ⟨rs, s', hcalls, rfl⟩⟩

theorem Rewritten.exists_writeCalls {c : Code} (hdisk : disk.Serves nodes start writable)
    (hthere : ((disk.isDirectory directory).run s).1 = true)
    (hnames : ∀ f ∈ c.files, isContained f.path.toList = true)
    (hapart : PlacedApart start directory c.files)
    (hwritable : CanBeWritten writable options directory c.files s) (n : Nat) :
    ∃ s', (writeCalls disk options directory c (n + 1)).run s =
        (List.replicate (n + 1) (.ok (c.files.map fun f => targetPath directory f.path)), s') ∧
      Rewritten options start directory c.files (n + 1) (nodes s) (nodes s') := by
  induction n generalizing s with
  | zero =>
    obtain ⟨s', hcall, -, hone⟩ := exists_writeCode hdisk hthere hnames hapart hwritable
    exact ⟨s', run_writeCalls_succ hcall rfl, hone⟩
  | succ n ih =>
    obtain ⟨s₁, hcall, hsame, hone⟩ := exists_writeCode hdisk hthere hnames hapart hwritable
    obtain ⟨s', hcalls, hmore⟩ :=
      ih (hdisk.isDirectory_congr hsame ▸ hthere) (hwritable.congr hdisk hsame)
    refine ⟨s', run_writeCalls_succ hcall hcalls, ?_⟩
    rw [Nat.add_comm]
    exact hone.trans hmore

/-- A file with a name that is not contained ends a call before anything is changed. -/
theorem exists_writeCode_refused {f : CodeFile} {fs : List CodeFile}
    (hdisk : disk.Mapped nodes start) (hthere : ((disk.isDirectory directory).run s).1 = true)
    (hname : isContained f.path.toList = false) :
    ∃ s', (writeCode disk options directory ⟨f :: fs⟩).run s =
      (.error (.invalidName f.path), s') ∧ nodes s' = nodes s := by
  have hisThere : (disk.isDirectory directory).run s =
      (true, ((disk.isDirectory directory).run s).2) := Prod.ext hthere rfl
  refine ⟨_, run_bind_eq_iff.2 ⟨true, _, hisThere, ?_⟩, hdisk.isDirectory hisThere⟩
  show (writeFiles disk options directory (f :: fs)).run _ = _
  unfold writeFiles
  rw [hname]
  rfl

theorem exists_writeCalls_refused {f : CodeFile} {fs : List CodeFile}
    (hdisk : disk.Serves nodes start writable)
    (hthere : ((disk.isDirectory directory).run s).1 = true)
    (hname : isContained f.path.toList = false) (n : Nat) :
    ∃ s', (writeCalls disk options directory ⟨f :: fs⟩ n).run s =
      (List.replicate n (.error (.invalidName f.path)), s') ∧ nodes s' = nodes s := by
  induction n generalizing s with
  | zero => exact ⟨s, rfl, rfl⟩
  | succ n ih =>
    obtain ⟨s₁, hcall, hnodes⟩ := exists_writeCode_refused hdisk.mapped hthere hname
    obtain ⟨s', hcalls, hnodes'⟩ := ih (hdisk.isDirectory_congr (.of_eq hnodes.symm) ▸ hthere)
    exact ⟨s', run_writeCalls_succ hcall hcalls, hnodes'.trans hnodes⟩

end Files

open Files

/-! ## Names of files -/

namespace FileNaming

/-- What the name of the file of a unit adds to the start of all names. -/
def ending (unit : Option String) : List Char :=
  unitPart unit ++ (".Generated.".toList ++ PowerShell.fileExtension.toList)

/-- The start of all names does not lead out of the directory that files are put in: it is not
absolute, and no name before its last one leads outwards. -/
def staysInside (naming : FileNaming) : Bool :=
  naming.stem.toList.head? != some '/' && !(split naming.stem.toList).dropLast.contains outwards

variable {naming : FileNaming} {unit : Option String}

theorem toList_fileName_eq (naming : FileNaming) (unit : Option String) :
    (naming.fileName unit PowerShell.fileExtension).toList =
      naming.stem.toList ++ ending unit := toList_fileName ..

theorem slash_notMem_ending (h : ∀ name ∈ unit, '/' ∉ name.toList) : '/' ∉ ending unit := by
  have hfile : '/' ∉ ((⟨""⟩ : FileNaming).fileName unit PowerShell.fileExtension).toList :=
    slash_notMem_fileName (by decide) h (by decide)
  rwa [toList_fileName_eq] at hfile

theorem two_lt_length_ending (unit : Option String) : 2 < (ending unit).length := by
  unfold ending
  rw [List.length_append, List.length_append]
  have hmark : ".Generated.".toList.length = 11 := rfl
  omega

theorem ending_injective : Function.Injective ending := by
  intro unit unit' h
  exact unitPart_injective (List.append_cancel_right h)

/-- No ending is another one with the mark of companions. -/
theorem ending_ne_append_mark (unit unit' : Option String) :
    ending unit ≠ ending unit' ++ temporaryMark := by
  intro h
  have hlast := congrArg List.getLast? h
  simp [ending, temporaryMark, PowerShell.fileExtension] at hlast

/-- The writer takes the files of all units, or of none. -/
theorem isContained_fileName (naming : FileNaming) (h : ∀ name ∈ unit, '/' ∉ name.toList) :
    isContained (naming.fileName unit PowerShell.fileExtension).toList = naming.staysInside := by
  rw [Bool.eq_iff_iff, toList_fileName_eq,
    isContained_append_iff _ (slash_notMem_ending h) (two_lt_length_ending unit)]
  simp [staysInside]

end FileNaming

theorem Config.staysInside_naming {c : Config} (h : c.validate = .ok ()) :
    c.naming.staysInside = true := by
  have hstem := slash_notMem_stem h
  unfold FileNaming.staysInside
  rw [split_of_notMem hstem, Bool.and_eq_true, bne_iff_ne]
  exact ⟨fun hhead => hstem (List.mem_of_mem_head? hhead), rfl⟩

/-! ## Places of files -/

/-- The files of units are in one place, under names that end as the units say. -/
theorem Code.exists_places (naming : FileNaming) (start : Place) (directory : String) :
    ∃ (place : Place) (last : List Char), ∀ (unit : Option String) (f : CodeFile),
      (∀ name ∈ unit, '/' ∉ name.toList) →
      naming.fileName unit PowerShell.fileExtension = f.path →
      targetPlace start directory f =
          place ++ [String.ofList (last ++ FileNaming.ending unit)] ∧
        companionPlace start directory f =
          place ++ [String.ofList (last ++ FileNaming.ending unit ++ temporaryMark)] := by
  obtain ⟨parts, last, hparts⟩ :=
    exists_components_append (join directory.toList naming.stem.toList)
  refine ⟨resolve (startOf start parts) parts, last, fun unit f hslash hpath => ?_⟩
  have hending := FileNaming.slash_notMem_ending hslash
  have hlength := FileNaming.two_lt_length_ending unit
  have hcomponents : components (targetPath directory f.path).toList =
      parts ++ [last ++ FileNaming.ending unit] := by
    rw [targetPath, String.toList_ofList, ← hpath, FileNaming.toList_fileName_eq,
      join_append _ _ hending, hparts _ hending hlength]
  have hplain : isPlainName (last ++ FileNaming.ending unit) = true := by
    apply isPlainName_of_length
    rw [List.length_append]
    omega
  constructor
  · exact placeOf_of_components start hcomponents hplain
  · rw [companionPlace, companionPath, String.toList_ofList]
    exact placeOf_of_components start (components_companion_of_plain hcomponents hplain)
      (isPlainName_append_mark _)

/-- Files of units with names of their own are placed apart. -/
theorem Code.placedApart_of_forall₂ {naming : FileNaming} {units : List OutputUnit}
    {files : List CodeFile} (hslash : ∀ u ∈ units, ∀ name ∈ u.name, '/' ∉ name.toList)
    (hnodup : (units.map (·.name)).Nodup) (h : List.Forall₂ (IsFileOf naming) units files)
    (start : Place) (directory : String) : PlacedApart start directory files := by
  obtain ⟨place, last, hplaces⟩ := exists_places naming start directory
  constructor
  · have hmap : files.map (targetPlace start directory) = (units.map (·.name)).map
        fun unit => place ++ [String.ofList (last ++ FileNaming.ending unit)] := by
      rw [List.map_map]
      clear hnodup
      induction h with
      | nil => rfl
      | cons hfile _ ih =>
        rw [List.forall_mem_cons] at hslash
        rw [List.map_cons, List.map_cons, ih hslash.2,
          (hplaces _ _ hslash.1 hfile.1.symm).1]
        rfl
    rw [hmap]
    refine hnodup.map fun unit unit' heq => ?_
    have hnames := List.singleton_inj.1 (List.append_cancel_left heq)
    exact FileNaming.ending_injective (List.append_cancel_left (String.ofList_injective hnames))
  · intro f hf g hg heq
    obtain ⟨u, hu, hpath⟩ := exists_unit_of_mem h hf
    obtain ⟨v, hv, hpath'⟩ := exists_unit_of_mem h hg
    rw [(hplaces _ _ (hslash u hu) hpath).1, (hplaces _ _ (hslash v hv) hpath').2] at heq
    have hnames := String.ofList_injective (List.singleton_inj.1 (List.append_cancel_left heq))
    rw [List.append_assoc] at hnames
    exact FileNaming.ending_ne_append_mark _ _ (List.append_cancel_left hnames)

/-! ## Reports written again -/

/-- The files of a report: what they are called is contained if the start of all names stays inside,
and they are placed apart. -/
theorem Code.of_ofReport {naming : FileNaming} {g : Generator} {es : List Endpoint} {code : Code}
    (hslash : ∀ u ∈ (g.run es).units, ∀ name ∈ u.name, '/' ∉ name.toList)
    (hcode : Code.ofReport naming (g.run es) = .ok code) :
    (∀ f ∈ code.files, isContained f.path.toList = naming.staysInside) ∧
      ∀ start directory, PlacedApart start directory code.files := by
  obtain ⟨code', hcode', hfiles⟩ := exists_ofUnits naming (g.run es).units
  obtain rfl : code' = code := Except.ok.inj (hcode'.symm.trans hcode)
  have hslash' : ∀ u ∈ (g.run es).units.filter fun u => !u.isEmpty, ∀ name ∈ u.name,
      '/' ∉ name.toList := fun u hu => hslash u (List.mem_of_mem_filter hu)
  constructor
  · intro f hf
    obtain ⟨u, hu, hpath⟩ := exists_unit_of_mem hfiles hf
    rw [← hpath, FileNaming.isContained_fileName naming (hslash' u hu)]
  · refine placedApart_of_forall₂ hslash' ?_ hfiles
    exact (Generator.nodup_unitNames_run g es).sublist (List.filter_sublist.map _)

/-- **A report can be written again.** On a disk that serves the files of a report in a directory
that is there, each of `n` calls gives the paths of the files. Then files that are replaced hold
their content, files that are added to hold `n` copies of it after what they held, companions hold
nothing, and no other place is changed. If the start of all names leads out of the directory, each
call is refused for the first file, and no place is changed. -/
theorem rewritten_by_calls {σ : Type} {disk : Disk (StateM σ)} {nodes : σ → Place → Option Node}
    {start : Place} {writable : σ → String → Prop} {naming : FileNaming} {g : Generator}
    {es : List Endpoint} {code : Code} {options : WriteOptions} {directory : String} {s : σ}
    {n : Nat}
    (hdisk : disk.Serves nodes start writable)
    (hslash : ∀ u ∈ (g.run es).units, ∀ name ∈ u.name, '/' ∉ name.toList)
    (hcode : Code.ofReport naming (g.run es) = .ok code)
    (hthere : ((disk.isDirectory directory).run s).1 = true)
    (hwritable : CanBeWritten writable options directory code.files s) (hn : 0 < n) :
    (naming.staysInside = true ∨ code.files = [] →
      ∃ s', (writeCalls disk options directory code n).run s =
          (List.replicate n (.ok (code.files.map fun f => targetPath directory f.path)), s') ∧
        Rewritten options start directory code.files n (nodes s) (nodes s')) ∧
    (∀ f fs, naming.staysInside = false → code.files = f :: fs →
      ∃ s', (writeCalls disk options directory code n).run s =
          (List.replicate n (.error (.invalidName f.path)), s') ∧ nodes s' = nodes s) := by
  obtain ⟨hnames, hapart⟩ := Code.of_ofReport hslash hcode
  constructor
  · intro hinside
    have hcontained : ∀ f ∈ code.files, isContained f.path.toList = true := by
      intro f hf
      rcases hinside with hinside | hnone
      · rw [hnames f hf, hinside]
      · rw [hnone] at hf
        exact absurd hf List.not_mem_nil
    obtain ⟨n, rfl⟩ := Nat.exists_eq_succ_of_ne_zero hn.ne'
    exact Rewritten.exists_writeCalls hdisk hthere hcontained (hapart start directory) hwritable n
  · intro f fs houtside hfiles
    obtain ⟨files⟩ := code
    obtain rfl : files = f :: fs := hfiles
    have hname : isContained f.path.toList = false := by
      rw [hnames f (List.mem_cons_self ..), houtside]
    exact exists_writeCalls_refused hdisk hthere hname n

/-- An output directory with a file of an earlier run. -/
def Files.FileTree.generatedOut : FileTree :=
  ⟨[(["out"], .directory), (["out", "SdkWrappers.FloorApi.Generated.ps1"], .file "old")]⟩

theorem rewritten_by_calls_racks :
    let report := Generator.racks.run rackEndpoints
    let naming := Config.default.naming
    let options : WriteOptions := ⟨.append, true⟩
    FileTree.disk.Serves FileTree.node? [] FileTree.CanHoldFile ∧
      (∀ u ∈ report.units, ∀ name ∈ u.name, '/' ∉ name.toList) ∧ naming.staysInside = true ∧
      ((FileTree.disk.isDirectory "out").run FileTree.generatedOut).1 = true ∧
      ∃ code, Code.ofReport naming report = .ok code ∧
        CanBeWritten FileTree.CanHoldFile options "out" code.files FileTree.generatedOut ∧
        (naming.staysInside = true ∨ code.files = [] →
          ∃ t, (writeCalls FileTree.disk options "out" code 2).run FileTree.generatedOut =
              (List.replicate 2 (.ok (code.files.map fun f => targetPath "out" f.path)), t) ∧
            Rewritten options [] "out" code.files 2 FileTree.generatedOut.node? t.node?) ∧
        (∀ f fs, naming.staysInside = false → code.files = f :: fs →
          ∃ t, (writeCalls FileTree.disk options "out" code 2).run FileTree.generatedOut =
              (List.replicate 2 (.error (.invalidName f.path)), t) ∧
            t.node? = FileTree.generatedOut.node?) := by
  have hslash : ∀ u ∈ (Generator.racks.run rackEndpoints).units, ∀ name ∈ u.name,
      '/' ∉ name.toList := by decide
  have hthere : ((FileTree.disk.isDirectory "out").run FileTree.generatedOut).1 = true := rfl
  obtain ⟨code, hcode, hfiles⟩ :=
    Code.exists_ofUnits Config.default.naming (Generator.racks.run rackEndpoints).units
  have hpaths : code.files.map (·.path) =
      ["SdkWrappers.FloorApi.Generated.ps1", "SdkWrappers.AuditApi.Generated.ps1"] := by
    rw [Code.map_path_of_forall₂ hfiles]
    decide
  have hheld : ∀ path ∈ code.files.map (·.path),
      FileTree.generatedOut.CanHoldFile (targetPath "out" path) := by
    rw [hpaths]
    simp only [List.forall_mem_cons]
    exact ⟨⟨["out", _], rfl, by decide⟩, ⟨["out", _], rfl, by decide⟩, by simp⟩
  have hwritable : CanBeWritten FileTree.CanHoldFile ⟨.append, true⟩ "out" code.files
      FileTree.generatedOut := fun f hf =>
    ⟨hheld f.path (List.mem_map_of_mem hf), fun h => nomatch h⟩
  exact ⟨FileTree.serves, hslash, Config.staysInside_naming rfl, hthere, code, hcode, hwritable,
    rewritten_by_calls FileTree.serves hslash hcode hthere hwritable (by decide)⟩

/-- The disk would serve files beside the directory, but the writer does not take them. -/
theorem refused_outside :
    let report := Generator.racks.run rackEndpoints
    FileTree.disk.Serves FileTree.node? [] FileTree.CanHoldFile ∧
      (∀ u ∈ report.units, ∀ name ∈ u.name, '/' ∉ name.toList) ∧
      ((FileTree.disk.isDirectory "out").run FileTree.generatedOut).1 = true ∧
      ∃ code, Code.ofReport ⟨"../x"⟩ report = .ok code ∧
        CanBeWritten FileTree.CanHoldFile .default "out" code.files FileTree.generatedOut ∧
        ∃ t, (writeCalls FileTree.disk .default "out" code 1).run FileTree.generatedOut =
          ([.error (.invalidName "../x.FloorApi.Generated.ps1")], t) := by
  have hslash : ∀ u ∈ (Generator.racks.run rackEndpoints).units, ∀ name ∈ u.name,
      '/' ∉ name.toList := by decide
  have hthere : ((FileTree.disk.isDirectory "out").run FileTree.generatedOut).1 = true := rfl
  obtain ⟨⟨files⟩, hcode, hfiles⟩ :=
    Code.exists_ofUnits ⟨"../x"⟩ (Generator.racks.run rackEndpoints).units
  have hpaths : files.map (·.path) =
      ["../x.FloorApi.Generated.ps1", "../x.AuditApi.Generated.ps1"] := by
    rw [Code.map_path_of_forall₂ hfiles]
    decide
  have hheld : ∀ path ∈ files.map (·.path),
      FileTree.generatedOut.CanHoldFile (targetPath "out" path) ∧
        FileTree.generatedOut.CanHoldFile (companionPath (targetPath "out" path)) := by
    rw [hpaths]
    simp only [List.forall_mem_cons]
    exact ⟨⟨⟨[_], rfl, by decide⟩, ⟨[_], rfl, by decide⟩⟩,
      ⟨⟨[_], rfl, by decide⟩, ⟨[_], rfl, by decide⟩⟩, by simp⟩
  refine ⟨FileTree.serves, hslash, hthere, ⟨files⟩, hcode, fun f hf => ?_, ?_⟩
  · obtain ⟨htarget, hcompanion⟩ := hheld f.path (List.mem_map_of_mem hf)
    exact ⟨htarget, fun _ => hcompanion⟩
  · cases files with
    | nil => cases hpaths
    | cons f fs =>
      have hpath : f.path = "../x.FloorApi.Generated.ps1" := (List.cons.inj hpaths).1
      have hname : isContained f.path.toList = false := by
        rw [hpath]
        decide
      obtain ⟨t, hrun, -⟩ := exists_writeCalls_refused FileTree.serves hthere hname 1
      exact ⟨t, hpath ▸ hrun⟩

end WrapperGen
