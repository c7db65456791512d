import WrapperGen.Files.Writer
/-!
# Runs of the writer

What a run of the writer on a disk with a state comes to, told by the operations on the disk: which
of them ended it, and the states between.

1. One file: `FillRun`, `AppendingRun`, `DirectRun` and `AsideRun` have one case for each operation
   that may fail, and one where none does.
2. Several files: all of them have been written one after another (`Written`), or those before some
   file have, and that file ends the run (`writeFiles_cases`, `writeCode_cases`).
-/

namespace WrapperGen.Files

variable {σ : Type} {disk : Disk (StateM σ)} {options : WriteOptions}
  {directory path content : String} {s s' : σ} {r : Except WriteError Unit}

theorem run_bind_eq_iff {α β : Type} {x : StateM σ α} {k : α → StateM σ β} {b : β} :
    (x >>= k).run s = (b, s') ↔ ∃ a s₁, x.run s = (a, s₁) ∧ (k a).run s₁ = (b, s') := by
  constructor
  · intro h
    exact ⟨(x.run s).1, (x.run s).2, rfl, h⟩
  · rintro ⟨a, s₁, hx, hk⟩
    show (k (x.run s).1).run (x.run s).2 = (b, s')
    rw [hx]
    exact hk

theorem run_pure_eq_iff {α : Type} {a b : α} :
    (pure a : StateM σ α).run s = (b, s') ↔ a = b ∧ s = s' := by
  rw [← Prod.mk.injEq]
  rfl

/-! ## One file -/

/-- The path of the companion of a file. -/
def companionPath (path : String) : String := String.ofList (companion path.toList)

/-- Adding the content to a file that was just opened. -/
inductive FillRun (disk : Disk (StateM σ)) (path content : String) (s : σ) :
    Except WriteError Unit → σ → Prop where
  | unwritten {cause : Cause} {s' : σ}
    (happend : (disk.append path content).run s = (.error cause, s')) :
    FillRun disk path content s (.error (.failed "write" path cause)) s'
  | unflushed {cause : Cause} {s₁ s' : σ}
    (happend : (disk.append path content).run s = (.ok (), s₁))
    (hflush : (disk.flush path).run s₁ = (.error cause, s')) :
    FillRun disk path content s (.error (.failed "flush" path cause)) s'
  | unsynced {cause : Cause} {s₁ s₂ s' : σ}
    (happend : (disk.append path content).run s = (.ok (), s₁))
    (hflush : (disk.flush path).run s₁ = (.ok (), s₂))
    (hsync : (disk.sync path).run s₂ = (.error cause, s')) :
    FillRun disk path content s (.error (.failed "sync" path cause)) s'
  | done {s₁ s₂ s' : σ}
    (happend : (disk.append path content).run s = (.ok (), s₁))
    (hflush : (disk.flush path).run s₁ = (.ok (), s₂))
    (hsync : (disk.sync path).run s₂ = (.ok (), s')) :
    FillRun disk path content s (.ok ()) s'

/-- Adding the content at the end of a file. -/
inductive AppendingRun (disk : Disk (StateM σ)) (path content : String) (s : σ) :
    Except WriteError Unit → σ → Prop where
  | unopened {cause : Cause} {s' : σ} (hensure : (disk.ensure path).run s = (.error cause, s')) :
    AppendingRun disk path content s (.error (.failed "open" path cause)) s'
  | opened {s₁ s' : σ} {r : Except WriteError Unit}
    (hensure : (disk.ensure path).run s = (.ok (), s₁))
    (hfill : FillRun disk path content s₁ r s') :
    AppendingRun disk path content s r s'

/-- Making a file anew. -/
inductive DirectRun (disk : Disk (StateM σ)) (path content : String) (s : σ) :
    Except WriteError Unit → σ → Prop where
  | uncreated {cause : Cause} {s' : σ} (hcreate : (disk.create path).run s = (.error cause, s')) :
    DirectRun disk path content s (.error (.failed "create" path cause)) s'
  | created {s₁ s' : σ} {r : Except WriteError Unit}
    (hcreate : (disk.create path).run s = (.ok (), s₁))
    (hfill : FillRun disk path content s₁ r s') :
    DirectRun disk path content s r s'

/-- Making a file beside a path and moving it there. -/
inductive AsideRun (disk : Disk (StateM σ)) (path content : String) (s : σ) :
    Except WriteError Unit → σ → Prop where
  | uncreated {cause : Cause} {s' : σ}
    (hcreate : (disk.create (companionPath path)).run s = (.error cause, s')) :
    AsideRun disk path content s (.error (.failed "create" (companionPath path) cause)) s'
  | unfilled {s₁ s₂ s' : σ} {e : WriteError} {x : Except Cause Unit}
    (hcreate : (disk.create (companionPath path)).run s = (.ok (), s₁))
    (hfill : FillRun disk (companionPath path) content s₁ (.error e) s₂)
    (hremove : (disk.remove (companionPath path)).run s₂ = (x, s')) :
    AsideRun disk path content s (.error e) s'
  | unmoved {s₁ s₂ s' : σ} {cause : Cause}
    (hcreate : (disk.create (companionPath path)).run s = (.ok (), s₁))
    (hfill : FillRun disk (companionPath path) content s₁ (.ok ()) s₂)
    (hrename : (disk.rename (companionPath path) path).run s₂ = (.error cause, s')) :
    AsideRun disk path content s (.error (.failed "rename" (companionPath path) cause)) s'
  | done {s₁ s₂ s' : σ}
    (hcreate : (disk.create (companionPath path)).run s = (.ok (), s₁))
    (hfill : FillRun disk (companionPath path) content s₁ (.ok ()) s₂)
    (hrename : (disk.rename (companionPath path) path).run s₂ = (.ok (), s')) :
    AsideRun disk path content s (.ok ()) s'

theorem fillRun (h : (fill disk path content).run s = (r, s')) :
    FillRun disk path content s r s' := by
  unfold fill at h
  obtain ⟨x, s₁, happend, h⟩ := run_bind_eq_iff.1 h
  cases x with
  | error cause =>
    obtain ⟨rfl, rfl⟩ := run_pure_eq_iff.1 h
    exact .unwritten happend
  | ok =>
    obtain ⟨x, s₂, hflush, h⟩ := run_bind_eq_iff.1 h
    cases x with
    | error cause =>
      obtain ⟨rfl, rfl⟩ := run_pure_eq_iff.1 h
      exact .unflushed happend hflush
    | ok =>
      obtain ⟨x, s₃, hsync, h⟩ := run_bind_eq_iff.1 h
      obtain ⟨rfl, rfl⟩ := run_pure_eq_iff.1 h
      cases x with
      | error cause => exact .unsynced happend hflush hsync
      | ok => exact .done happend hflush hsync

theorem appendingRun (h : (writeAppending disk path content).run s = (r, s')) :
    AppendingRun disk path content s r s' := by
  unfold writeAppending at h
  obtain ⟨x, s₁, hensure, h⟩ := run_bind_eq_iff.1 h
  cases x with
  | error cause =>
    obtain ⟨rfl, rfl⟩ := run_pure_eq_iff.1 h
    exact .unopened hensure
  | ok => exact .opened hensure (fillRun h)

theorem directRun (h : (writeDirectly disk path content).run s = (r, s')) :
    DirectRun disk path content s r s' := by
  unfold writeDirectly at h
  obtain ⟨x, s₁, hcreate, h⟩ := run_bind_eq_iff.1 h
  cases x with
  | error cause =>
    obtain ⟨rfl, rfl⟩ := run_pure_eq_iff.1 h
    exact .uncreated hcreate
  | ok => exact .created hcreate (fillRun h)

theorem asideRun (h : (writeAside disk path content).run s = (r, s')) :
    AsideRun disk path content s r s' := by
  unfold writeAside at h
  obtain ⟨x, s₁, hcreate, h⟩ := run_bind_eq_iff.1 h
  cases x with
  | error cause =>
    obtain ⟨rfl, rfl⟩ := run_pure_eq_iff.1 h
    exact .uncreated hcreate
  | ok =>
    obtain ⟨x, s₂, hfill, h⟩ := run_bind_eq_iff.1 h
    cases x with
    | error e =>
      obtain ⟨x, s₃, hremove, h⟩ := run_bind_eq_iff.1 h
      obtain ⟨rfl, rfl⟩ := run_pure_eq_iff.1 h
      exact .unfilled hcreate (fillRun hfill) hremove
    | ok =>
      obtain ⟨x, s₃, hrename, h⟩ := run_bind_eq_iff.1 h
      obtain ⟨rfl, rfl⟩ := run_pure_eq_iff.1 h
      cases x with
      | error cause => exact .unmoved hcreate (fillRun hfill) hrename
      | ok => exact .done hcreate (fillRun hfill) hrename

theorem exists_failed_of_fillRun {e : WriteError} (h : FillRun disk path content s (.error e) s') :
    ∃ operation changed cause, e = .failed operation changed cause := by
  cases h with
  | unwritten | unflushed | unsynced => exact ⟨_, _, _, rfl⟩

/-- Where a file cannot be written, an operation on a path did not work. -/
theorem exists_failed_of_writeFile {e : WriteError}
    (h : (writeFile disk options path content).run s = (.error e, s')) :
    ∃ operation changed cause, e = .failed operation changed cause := by
  obtain ⟨mode, atomic⟩ := options
  cases mode with
  | append =>
    cases appendingRun h with
    | unopened => exact ⟨_, _, _, rfl⟩
    | opened hensure hfill => exact exists_failed_of_fillRun hfill
  | replace =>
    cases atomic with
    | false =>
      cases directRun h with
      | uncreated => exact ⟨_, _, _, rfl⟩
      | created hcreate hfill => exact exists_failed_of_fillRun hfill
    | true =>
      cases asideRun h with
      | uncreated | unmoved => exact ⟨_, _, _, rfl⟩
      | unfilled hcreate hfill => exact exists_failed_of_fillRun hfill

/-! ## Several files -/

/-- Files have been written one after another. -/
inductive Written (disk : Disk (StateM σ)) (options : WriteOptions) (directory : String) :
    σ → List CodeFile → σ → Prop where
  | nil (s : σ) : Written disk options directory s [] s
  | cons {s s₁ s' : σ} {f : CodeFile} {fs : List CodeFile}
    (hname : isContained f.path.toList = true)
    (hfile : (writeFile disk options (targetPath directory f.path) f.content).run s = (.ok (), s₁))
    (hfiles : Written disk options directory s₁ fs s') :
    Written disk options directory s (f :: fs) s'

/-- A file cannot be written. -/
inductive Stopped (disk : Disk (StateM σ)) (options : WriteOptions) (directory : String)
    (f : CodeFile) (s : σ) : WriteError → σ → Prop where
  | invalid (hname : isContained f.path.toList = false) :
    Stopped disk options directory f s (.invalidName f.path) s
  | failed {e : WriteError} {s' : σ} (hname : isContained f.path.toList = true)
    (hfile : (writeFile disk options (targetPath directory f.path) f.content).run s =
      (.error e, s')) :
    Stopped disk options directory f s e s'

/-- Either all files have been written, or those before some file have, and that file cannot be. -/
theorem writeFiles_cases {files : List CodeFile} {r : Except WriteError (List String)}
    (h : (writeFiles disk options directory files).run s = (r, s')) :
    (r = .ok (files.map fun f => targetPath directory f.path) ∧
        Written disk options directory s files s') ∨
      ∃ before f after s₁ e, files = before ++ f :: after ∧
        Written disk options directory s before s₁ ∧
        Stopped disk options directory f s₁ e s' ∧ r = .error e := by
  induction files generalizing s r with
  | nil =>
    obtain ⟨rfl, rfl⟩ := run_pure_eq_iff.1 h
    exact .inl ⟨rfl, .nil s⟩
  | cons f fs ih =>
    unfold writeFiles at h
    cases hname : isContained f.path.toList with
    | false =>
      rw [hname] at h
      obtain ⟨rfl, rfl⟩ := run_pure_eq_iff.1 h
      exact .inr ⟨[], f, fs, s, _, rfl, .nil s, .invalid hname, rfl⟩
    | true =>
      rw [hname] at h
      obtain ⟨x, s₁, hfile, h⟩ := run_bind_eq_iff.1 h
      cases x with
      | error e =>
        obtain ⟨rfl, rfl⟩ := run_pure_eq_iff.1 h
        exact .inr ⟨[], f, fs, s, e, rfl, .nil s, .failed hname hfile, rfl⟩
      | ok =>
        obtain ⟨r', s₂, hfiles, h⟩ := run_bind_eq_iff.1 h
        obtain ⟨rfl, rfl⟩ := run_pure_eq_iff.1 h
        rcases ih hfiles with ⟨rfl, hwritten⟩ | ⟨before, g, after, s₃, e, rfl, hwritten, hstop, rfl⟩
        · exact .inl ⟨rfl, .cons hname hfile hwritten⟩
        · exact .inr ⟨f :: before, g, after, s₃, e, rfl, .cons hname hfile hwritten, hstop, rfl⟩

theorem writeCode_cases {c : Code} {r : Except WriteError (List String)}
    (h : (writeCode disk options directory c).run s = (r, s')) :
    ∃ isThere s₁, (disk.isDirectory directory).run s = (isThere, s₁) ∧
      (isThere = false ∧ r = .error (.directoryNotFound directory) ∧ s₁ = s' ∨
        isThere = true ∧ (writeFiles disk options directory c.files).run s₁ = (r, s')) := by
  unfold writeCode at h
  obtain ⟨isThere, s₁, hdirectory, h⟩ := run_bind_eq_iff.1 h
  refine ⟨isThere, s₁, hdirectory, ?_⟩
  cases isThere with
  | false =>
    obtain ⟨rfl, rfl⟩ := run_pure_eq_iff.1 h
    exact .inl ⟨rfl, rfl, rfl⟩
  | true => exact .inr ⟨rfl, h⟩

/-- Files are refused for their names only. -/
theorem exists_of_invalidName {c : Code} {name : String}
    (h : (writeCode disk options directory c).run s = (.error (.invalidName name), s')) :
    ∃ f ∈ c.files, f.path = name ∧ isContained name.toList = false := by
  obtain ⟨isThere, s₁, -, h⟩ := writeCode_cases h
  rcases h with ⟨-, h, -⟩ | ⟨-, h⟩
  · cases h
  rcases writeFiles_cases h with ⟨h, -⟩ | ⟨before, f, after, s₂, e, hfiles, -, hstop, he⟩
  · cases h
  obtain rfl := Except.error.inj he
  cases hstop with
  | invalid hname => exact ⟨f, by simp [hfiles], rfl, hname⟩
  | failed hname hfile =>
    obtain ⟨operation, changed, cause, he⟩ := exists_failed_of_writeFile hfile
    cases he

end WrapperGen.Files
