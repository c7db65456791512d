import WrapperGen.Files.Tree
import Mathlib.Data.List.DropRight
/-!
# Parts of paths

The parts of a path are what counts for where it leads: what it starts from, if it says so, and its
names but the idle ones. Names that lead outwards are kept.

1. Joining a path to a directory adds its steps to the parts of the directory (`components_join`).
2. The companion of a path has the parts of the path with the mark put to the last name, or the mark
   as one more name if the last part is no plain name (`components_companion`).
3. A path that stays in a directory and leads somewhere is below that directory
   (`isBelow_join`), and so is its companion (`isBelow_companion_join`). The companion of the
   directory itself is not, where the directory has a plain name (`isBelow_companion_iff`).
4. What is put after a path and holds no slash belongs to its last name, so paths that start alike
   are in one directory (`exists_components_append`), and are contained alike
   (`isContained_append_iff`).
5. Parts lead to a place, whatever the tree; the companion of a path is never in its place
   (`placeOf_companion_ne`).
-/

namespace WrapperGen.Files

/-! ## Splitting and joining -/

theorem split_append_slash (a b : List Char) : split (a ++ '/' :: b) = split a ++ split b := by
  induction a with
  | nil => simp [split]
  | cons c a ih =>
    obtain ⟨first, names, hs⟩ := List.exists_cons_of_ne_nil (split_ne_nil a)
    by_cases hc : c = '/'
    · simp [split, hc, ih]
    · simp [split, hc, ih, hs]

theorem split_of_notMem {name : List Char} (h : '/' ∉ name) : split name = [name] := by
  induction name with
  | nil => rfl
  | cons c name ih =>
    obtain ⟨hc, hname⟩ := not_or.1 (List.mem_cons.not.1 h)
    rw [split, if_neg (Ne.symm hc), ih hname]

/-- What is put after a path and holds no slash belongs to its last name. -/
theorem exists_split_append (path : List Char) : ∃ names last, ∀ rest : List Char, '/' ∉ rest →
    split (path ++ rest) = names ++ [last ++ rest] := by
  induction path with
  | nil => exact ⟨[], [], fun rest hrest => split_of_notMem hrest⟩
  | cons c path ih =>
    obtain ⟨names, last, hsplit⟩ := ih
    by_cases hc : c = '/'
    · refine ⟨[] :: names, last, fun rest hrest => ?_⟩
      rw [List.cons_append, split, if_pos hc, hsplit rest hrest, List.cons_append]
    · cases names with
      | nil =>
        refine ⟨[], c :: last, fun rest hrest => ?_⟩
        rw [List.cons_append, split, if_neg hc, hsplit rest hrest]
        rfl
      | cons name names =>
        refine ⟨(c :: name) :: names, last, fun rest hrest => ?_⟩
        rw [List.cons_append, split, if_neg hc, hsplit rest hrest]
        rfl

theorem split_joinNames {names : List (List Char)} (hne : names ≠ [])
    (h : ∀ name ∈ names, '/' ∉ name) : split (joinNames names) = names := by
  induction names with
  | nil => exact absurd rfl hne
  | cons name names ih =>
    have hname := split_of_notMem (h name (List.mem_cons_self ..))
    cases names with
    | nil => exact hname
    | cons next names =>
      rw [joinNames, split_append_slash, hname,
        ih (List.cons_ne_nil _ _) fun n hn => h n (List.mem_cons_of_mem _ hn)]
      · rfl
      · exact List.cons_ne_nil _ _

/-- A path joined to a directory has the names of the directory before its own. -/
theorem exists_split_join {directory path : List Char} (hdirectory : directory ≠ [])
    (hpath : path.head? ≠ some '/') :
    ∃ names, names ≠ [] ∧ (split directory = names ∨ split directory = names ++ [[]]) ∧
      split (join directory path) = names ++ split path := by
  have hempty : directory.isEmpty = false := by simpa using hdirectory
  unfold join
  rw [if_neg hpath, hempty, if_neg Bool.false_ne_true]
  split
  · next hlast =>
    obtain ⟨before, rfl⟩ := List.getLast?_eq_some_iff.1 hlast
    refine ⟨split before, split_ne_nil _, .inr ?_, ?_⟩
    · exact split_append_slash before []
    · rw [List.append_assoc]
      exact split_append_slash before path
  · exact ⟨split directory, split_ne_nil _, .inl rfl, split_append_slash _ _⟩

theorem head?_append_eq_slash_iff (path : List Char) {rest : List Char} (hrest : '/' ∉ rest) :
    (path ++ rest).head? = some '/' ↔ path.head? = some '/' := by
  cases path with
  | nil => exact iff_of_false (fun h => hrest (List.mem_of_mem_head? h)) (by simp)
  | cons c path => rfl

/-- What is put after a path is put after the path joined to a directory. -/
theorem join_append (directory path : List Char) {rest : List Char} (hrest : '/' ∉ rest) :
    join directory (path ++ rest) = join directory path ++ rest := by
  unfold join
  simp only [head?_append_eq_slash_iff path hrest]
  split_ifs <;> simp

/-! ## Parts -/

/-- The names that lead somewhere. -/
def steps (names : List (List Char)) : List (List Char) := names.filter fun name => !isIdle name

/-- What a path of more than nothing says that it starts from, told by its first name: the root, or
the place that relative paths start from. -/
def leading (first : List Char) : List (List Char) :=
  if first.isEmpty then [[]] else if first = here then [here] else []

/-- The parts of a path. -/
def components (path : List Char) : List (List Char) :=
  match path, split path with
  | [], _ => []
  | _, [] => []
  | _, first :: names => leading first ++ steps (first :: names)

theorem steps_append (names names' : List (List Char)) :
    steps (names ++ names') = steps names ++ steps names' := List.filter_append ..

theorem components_of_split {path first : List Char} {names : List (List Char)} (h : path ≠ [])
    (hs : split path = first :: names) : components path = leading first ++ steps (split path) := by
  unfold components
  cases path with
  | nil => exact absurd rfl h
  | cons c path => simp only [hs]

theorem leading_of_isIdle_eq_false {name : List Char} (h : isIdle name = false) :
    leading name = [] := by
  rw [isIdle, Bool.or_eq_false_iff, beq_eq_false_iff_ne] at h
  simp [leading, h.1, h.2]

/-- Joining a path to a directory adds its steps. -/
theorem components_join {directory path : List Char} (hdirectory : directory ≠ [])
    (hpath : path.head? ≠ some '/') :
    components (join directory path) = components directory ++ steps (split path) := by
  obtain ⟨names, hnames, hdir, hjoin⟩ := exists_split_join hdirectory hpath
  obtain ⟨first, names, rfl⟩ := List.exists_cons_of_ne_nil hnames
  have hne : join directory path ≠ [] := by
    intro h
    rw [h] at hjoin
    have hpos := List.length_pos_of_ne_nil (split_ne_nil path)
    have hlength := congrArg List.length hjoin
    rw [List.length_append, List.length_cons] at hlength
    change 1 = _ at hlength
    omega
  rw [components_of_split hne hjoin, hjoin, steps_append, ← List.append_assoc]
  congr 1
  rcases hdir with hdir | hdir
  · rw [components_of_split hdirectory hdir, hdir]
  · rw [components_of_split hdirectory hdir, hdir, steps_append]
    simp [steps, isIdle]

/-! ## Companions -/

/-- A name that leads to what is called so: it is not idle and does not lead outwards. -/
def isPlainName (name : List Char) : Bool := !isIdle name && name != outwards

theorem isPlainName_iff {name : List Char} :
    isPlainName name = true ↔ isIdle name = false ∧ name ≠ outwards := by
  simp [isPlainName]

theorem isPlainName_of_length {name : List Char} (h : 2 < name.length) :
    isPlainName name = true := by
  rw [isPlainName_iff]
  constructor
  · rw [isIdle, Bool.or_eq_false_iff, List.isEmpty_eq_false_iff, beq_eq_false_iff_ne]
    constructor
    · rintro rfl
      simp at h
    · rintro rfl
      simp [here] at h
  · rintro rfl
    simp [outwards] at h

theorem isPlainName_append_mark (name : List Char) : isPlainName (name ++ temporaryMark) = true :=
  isPlainName_of_length (by simp [temporaryMark])

theorem steps_eq_nil_iff {names : List (List Char)} :
    steps names = [] ↔ ∀ name ∈ names, isIdle name = true := by
  simp [steps]

theorem steps_rdropWhile (names : List (List Char)) :
    steps (names.rdropWhile isIdle) = steps names := by
  have hidle : steps (names.rtakeWhile isIdle) = [] :=
    steps_eq_nil_iff.2 fun _ h => List.mem_rtakeWhile_imp h
  conv_rhs => rw [← List.rdropWhile_append_rtakeWhile (p := isIdle) (l := names)]
  rw [steps_append, hidle, List.append_nil]

theorem steps_singleton {name : List Char} (h : isIdle name = false) : steps [name] = [name] := by
  simp [steps, h]

/-- Nothing is lost of the names that a path is in but idle ones at their end. -/
theorem components_parentOf {first : List Char} {names : List (List Char)}
    (h : ∀ name ∈ first :: names, '/' ∉ name) :
    components (parentOf (first :: names)) = leading first ++ steps (first :: names) := by
  have hsteps : steps (first :: names) = steps [first] ++ steps (names.rdropWhile isIdle) := by
    rw [steps_rdropWhile, ← steps_append]
    rfl
  simp only [parentOf]
  rw [show (names.reverse.dropWhile isIdle).reverse = names.rdropWhile isIdle from rfl, hsteps]
  cases hkept : names.rdropWhile isIdle with
  | nil =>
    -- only the first name is kept, which may be no name but the root
    simp only
    split
    · next hfirst =>
      rw [List.isEmpty_iff.1 hfirst]
      decide
    · next hfirst =>
      have hne : first ≠ [] := by simpa using hfirst
      have hs := split_of_notMem (h first (List.mem_cons_self ..))
      rw [components_of_split hne hs, hs, show steps [] = [] from rfl, List.append_nil]
  | cons name kept =>
    have hmem : ∀ n ∈ first :: name :: kept, '/' ∉ n := by
      intro n hn
      rcases List.mem_cons.1 hn with rfl | hn
      · exact h n (List.mem_cons_self ..)
      · rw [← hkept] at hn
        exact h n (List.mem_cons_of_mem _ ((List.rdropWhile_prefix _ _).subset hn))
    have hs := split_joinNames (List.cons_ne_nil first _) hmem
    have hne : joinNames (first :: name :: kept) ≠ [] := by
      rw [joinNames]
      · simp
      · exact List.cons_ne_nil _ _
    rw [components_of_split hne hs, hs, ← steps_append]
    rfl

theorem lastName?_eq_some {path name : List Char} {before : List (List Char)}
    (h : lastName? path = some (before, name)) :
    isIdle name = false ∧ steps (split path) = steps before ++ [name] ∧
      (∃ idles, split path = before ++ name :: idles) := by
  have hkept : (split path).rdropWhile isIdle = before ++ [name] := by
    unfold lastName? at h
    split at h
    · cases h
    · next hreverse =>
      obtain ⟨rfl, rfl⟩ := Prod.mk.inj (Option.some.inj h)
      rw [List.rdropWhile, hreverse, List.reverse_cons]
  have hidle : isIdle name = false := by
    have hlast := List.rdropWhile_last_not isIdle (split path) (by rw [hkept]; simp)
    simpa [hkept] using hlast
  refine ⟨hidle, ?_, (split path).rtakeWhile isIdle, ?_⟩
  · rw [← steps_rdropWhile, hkept, steps_append, steps_singleton hidle]
  · have hall := List.rdropWhile_append_rtakeWhile (p := isIdle) (l := split path)
    rw [hkept, List.append_assoc] at hall
    exact hall.symm

theorem lastName?_eq_none {path : List Char} (h : lastName? path = none) :
    steps (split path) = [] := by
  unfold lastName? at h
  split at h
  · next hreverse =>
    rw [List.dropWhile_eq_nil_iff] at hreverse
    exact steps_eq_nil_iff.2 fun name hname => hreverse name (List.mem_reverse.2 hname)
  · cases h

theorem slash_notMem_append_mark {name : List Char} (h : '/' ∉ name) :
    '/' ∉ name ++ temporaryMark := by
  intro hmem
  rcases List.mem_append.1 hmem with hmem | hmem
  · exact h hmem
  · exact absurd hmem (by decide)

theorem ne_nil_of_isPlainName {name : List Char} (h : isPlainName name = true) : name ≠ [] := by
  rintro rfl
  cases h

theorem components_of_isPlainName {name : List Char} (hslash : '/' ∉ name)
    (hname : isPlainName name = true) : components name = [name] := by
  have hidle := (isPlainName_iff.1 hname).1
  rw [components_of_split (ne_nil_of_isPlainName hname) (split_of_notMem hslash),
    split_of_notMem hslash, leading_of_isIdle_eq_false hidle, steps_singleton hidle,
    List.nil_append]

/-- What is put after a path, holds no slash and makes a plain name of any name, belongs to its last
part. -/
theorem exists_components_append (path : List Char) : ∃ parts last, ∀ rest : List Char,
    '/' ∉ rest → 2 < rest.length → components (path ++ rest) = parts ++ [last ++ rest] := by
  obtain ⟨names, last, hsplit⟩ := exists_split_append path
  have hidle : ∀ rest : List Char, 2 < rest.length → isIdle (last ++ rest) = false := by
    intro rest hrest
    refine (isPlainName_iff.1 (isPlainName_of_length ?_)).1
    rw [List.length_append]
    omega
  have hne : ∀ rest : List Char, 2 < rest.length → path ++ rest ≠ [] := fun rest hrest =>
    List.append_ne_nil_of_right_ne_nil _ (List.ne_nil_of_length_pos (by omega))
  cases names with
  | nil =>
    refine ⟨[], last, fun rest hslash hrest => ?_⟩
    have hs := hsplit rest hslash
    rw [List.nil_append] at hs
    rw [components_of_split (hne rest hrest) hs, hs, leading_of_isIdle_eq_false (hidle rest hrest),
      steps_singleton (hidle rest hrest)]
  | cons first names =>
    refine ⟨leading first ++ steps (first :: names), last, fun rest hslash hrest => ?_⟩
    have hs := hsplit rest hslash
    rw [components_of_split (hne rest hrest) hs, hs, steps_append,
      steps_singleton (hidle rest hrest), List.append_assoc]

/-- The parts of a name that stands in a directory. -/
theorem components_join_name (directory : List Char) {name : List Char} (hslash : '/' ∉ name)
    (hname : isPlainName name = true) :
    components (join directory name) = components directory ++ [name] := by
  have hhead : name.head? ≠ some '/' := fun hhead => hslash (List.mem_of_mem_head? hhead)
  by_cases hdirectory : directory = []
  · rw [hdirectory, join, if_neg hhead, if_pos List.isEmpty_nil]
    exact components_of_isPlainName hslash hname
  · rw [components_join hdirectory hhead, split_of_notMem hslash,
      steps_singleton (isPlainName_iff.1 hname).1]

/-- Where a path has a last name, its parts end with that name. If the name is plain, so do those of
the companion, but with the mark. -/
theorem components_of_lastName? {path name : List Char} {before : List (List Char)}
    (h : lastName? path = some (before, name)) :
    ∃ parts, components path = parts ++ [name] ∧
      (name ≠ outwards → components (companion path) = parts ++ [name ++ temporaryMark]) := by
  obtain ⟨hidle, hsteps, idles, hsplit⟩ := lastName?_eq_some h
  have hslash : ∀ n ∈ before ++ name :: idles, '/' ∉ n := fun n hn =>
    slash_notMem_of_mem_split (hsplit ▸ hn)
  have hname : '/' ∉ name := hslash name (by simp)
  have hmark := isPlainName_append_mark name
  have hne : path ≠ [] := by
    rintro rfl
    simp [lastName?, split, isIdle] at h
  cases before with
  | nil =>
    refine ⟨[], ?_, fun hout => ?_⟩
    · rw [components_of_split hne hsplit, hsteps, leading_of_isIdle_eq_false hidle]
      rfl
    · unfold companion
      rw [h]
      simp only [hout, if_false, parentOf]
      exact components_join_name [] (slash_notMem_append_mark hname) hmark
  | cons first before =>
    refine ⟨leading first ++ steps (first :: before), ?_, fun hout => ?_⟩
    · rw [components_of_split hne hsplit, hsteps, List.append_assoc]
    · have hbefore : ∀ n ∈ first :: before, '/' ∉ n := fun n hn =>
        hslash n (List.mem_append_left _ hn)
      unfold companion
      rw [h, ← components_parentOf hbefore]
      simp only [hout, if_false]
      exact components_join_name _ (slash_notMem_append_mark hname) hmark

theorem isIdle_of_mem_leading {first name : List Char} (h : name ∈ leading first) :
    isIdle name = true := by
  unfold leading at h
  split at h
  · rw [List.mem_singleton.1 h]
    rfl
  · split at h
    · rw [List.mem_singleton.1 h]
      rfl
    · cases h

/-- A path that is its own only part is one name. -/
theorem slash_notMem_of_components {path : List Char} (h : components path = [path])
    (hname : isPlainName path = true) : '/' ∉ path := by
  obtain ⟨first, names, hs⟩ := List.exists_cons_of_ne_nil (split_ne_nil path)
  rw [components_of_split (ne_nil_of_isPlainName hname) hs] at h
  have hmem : path ∈ leading first ++ steps (split path) := by simp [h]
  rcases List.mem_append.1 hmem with hmem | hmem
  · have hidle := isIdle_of_mem_leading hmem
    rw [(isPlainName_iff.1 hname).1] at hidle
    cases hidle
  · exact slash_notMem_of_mem_split (List.mem_filter.1 hmem).1

/-- The companion of a path whose parts end with a plain name has the mark put to that name. -/
theorem components_companion_of_plain {path name : List Char} {parts : List (List Char)}
    (h : components path = parts ++ [name]) (hname : isPlainName name = true) :
    components (companion path) = parts ++ [name ++ temporaryMark] := by
  cases hlast : lastName? path with
  | some last =>
    obtain ⟨before, name'⟩ := last
    obtain ⟨parts', hparts', hcompanion⟩ := components_of_lastName? hlast
    obtain ⟨rfl, hnames⟩ := List.append_inj' (h.symm.trans hparts') rfl
    obtain rfl := List.singleton_inj.1 hnames
    exact hcompanion (isPlainName_iff.1 hname).2
  | none =>
    -- nothing but what the path starts from is left, and that is idle
    exfalso
    obtain ⟨first, names, hs⟩ := List.exists_cons_of_ne_nil (split_ne_nil path)
    have hne : path ≠ [] := by
      rintro rfl
      simp [components] at h
    rw [components_of_split hne hs, lastName?_eq_none hlast, List.append_nil] at h
    have hmem : name ∈ leading first := by simp [h]
    have hidle := isIdle_of_mem_leading hmem
    rw [(isPlainName_iff.1 hname).1] at hidle
    cases hidle

/-- The companion of any other path has the mark as one more name. -/
theorem components_companion_of_not_plain {path : List Char}
    (h : ∀ parts name, components path = parts ++ [name] → isPlainName name = false) :
    components (companion path) = components path ++ [temporaryMark] := by
  have hcompanion : companion path = join path temporaryMark := by
    unfold companion
    cases hlast : lastName? path with
    | none => rfl
    | some last =>
      obtain ⟨before, name⟩ := last
      obtain ⟨parts, hparts, -⟩ := components_of_lastName? hlast
      have hplain := h parts name hparts
      rw [isPlainName, (lastName?_eq_some hlast).1] at hplain
      have hout : name = outwards := by simpa using hplain
      exact if_pos hout
  rw [hcompanion]
  exact components_join_name path (by decide) (by decide)

/-- The parts of a path end with a plain name. -/
def EndsPlainly (path : List Char) : Prop :=
  ∃ parts name, components path = parts ++ [name] ∧ isPlainName name = true

theorem components_companion_of_not_endsPlainly {path : List Char} (h : ¬ EndsPlainly path) :
    components (companion path) = components path ++ [temporaryMark] :=
  components_companion_of_not_plain fun parts name hparts =>
    Bool.eq_false_iff.2 fun hname => h ⟨parts, name, hparts, hname⟩

/-- Paths with the same parts have companions with the same parts. -/
theorem components_companion_congr {path path' : List Char}
    (h : components path = components path') :
    components (companion path) = components (companion path') := by
  by_cases hplain : EndsPlainly path
  · obtain ⟨parts, name, hparts, hname⟩ := hplain
    rw [components_companion_of_plain hparts hname,
      components_companion_of_plain (h ▸ hparts) hname]
  · have hplain' : ¬ EndsPlainly path' := fun ⟨parts, name, hparts, hname⟩ =>
      hplain ⟨parts, name, h.trans hparts, hname⟩
    rw [components_companion_of_not_endsPlainly hplain,
      components_companion_of_not_endsPlainly hplain', h]

/-! ## Below a directory -/

/-- A path is below a directory if its parts are those of the directory and at least one plain name
after them. -/
def IsBelow (directory path : List Char) : Prop :=
  ∃ names, names ≠ [] ∧ (∀ name ∈ names, isPlainName name = true) ∧
    components path = components directory ++ names

theorem isContained_iff {path : List Char} :
    isContained path = true ↔ path ≠ [] ∧ path.head? ≠ some '/' ∧ outwards ∉ split path := by
  simp [isContained, and_assoc]

/-- Whether a path that goes on with such a text is contained is told by its names but the last. -/
theorem isContained_append_iff (path : List Char) {rest : List Char} (hslash : '/' ∉ rest)
    (hrest : 2 < rest.length) : isContained (path ++ rest) = true ↔
      path.head? ≠ some '/' ∧ outwards ∉ (split path).dropLast := by
  obtain ⟨names, last, hsplit⟩ := exists_split_append path
  have hpath := hsplit [] List.not_mem_nil
  rw [List.append_nil, List.append_nil] at hpath
  have hne : path ++ rest ≠ [] :=
    List.append_ne_nil_of_right_ne_nil _ (List.ne_nil_of_length_pos (by omega))
  have hlast : outwards ≠ last ++ rest := by
    intro h
    have hlength := congrArg List.length h
    rw [List.length_append] at hlength
    change 2 = _ at hlength
    omega
  rw [isContained_iff, hsplit rest hslash, hpath, List.dropLast_concat, ne_eq, ne_eq,
    head?_append_eq_slash_iff path hslash]
  simp [hne, hlast]

theorem isContained_of_isPlainName {name : List Char} (hslash : '/' ∉ name)
    (hname : isPlainName name = true) : isContained name = true := by
  refine isContained_iff.2 ⟨ne_nil_of_isPlainName hname, fun hhead => ?_, ?_⟩
  · exact hslash (List.mem_of_mem_head? hhead)
  · rw [split_of_notMem hslash, List.mem_singleton]
    exact Ne.symm (isPlainName_iff.1 hname).2

theorem isPlainName_of_mem_steps {path name : List Char} (h : isContained path = true)
    (hname : name ∈ steps (split path)) : isPlainName name = true := by
  obtain ⟨hmem, hidle⟩ := List.mem_filter.1 hname
  refine isPlainName_iff.2 ⟨by simpa using hidle, ?_⟩
  rintro rfl
  exact (isContained_iff.1 h).2.2 hmem

theorem isBelow_join {directory path : List Char} (hdirectory : directory ≠ [])
    (h : isContained path = true) (hsteps : steps (split path) ≠ []) :
    IsBelow directory (join directory path) :=
  ⟨_, hsteps, fun _ => isPlainName_of_mem_steps h,
    components_join hdirectory (isContained_iff.1 h).2.1⟩

theorem isBelow_companion_join {directory path : List Char} (hdirectory : directory ≠ [])
    (h : isContained path = true) (hsteps : steps (split path) ≠ []) :
    IsBelow directory (companion (join directory path)) := by
  have hparts := components_join hdirectory (isContained_iff.1 h).2.1
  obtain ⟨before, name, hlast⟩ := (List.eq_nil_or_concat' _).resolve_left hsteps
  have hplain : ∀ n ∈ before ++ [name], isPlainName n = true := fun n hn =>
    isPlainName_of_mem_steps h (hlast ▸ hn)
  rw [hlast, ← List.append_assoc] at hparts
  refine ⟨before ++ [name ++ temporaryMark], by simp, ?_, ?_⟩
  · intro n hn
    rcases List.mem_append.1 hn with hn | hn
    · exact hplain n (List.mem_append_left _ hn)
    · rw [List.mem_singleton.1 hn]
      exact isPlainName_append_mark name
  · rw [components_companion_of_plain hparts (hplain name (by simp)), List.append_assoc]

/-- A path without steps leads to the directory that it is joined to, and has its companion. -/
theorem components_companion_join {directory path : List Char} (hdirectory : directory ≠ [])
    (h : isContained path = true) (hsteps : steps (split path) = []) :
    components (companion (join directory path)) = components (companion directory) := by
  refine components_companion_congr ?_
  rw [components_join hdirectory (isContained_iff.1 h).2.1, hsteps, List.append_nil]

/-- The companion of a directory is below the directory only if the directory has no plain name. -/
theorem isBelow_companion_iff {directory : List Char} :
    IsBelow directory (companion directory) ↔ ¬ EndsPlainly directory := by
  constructor
  · rintro ⟨names, hnames, -, hparts⟩ ⟨parts, name, hdirectory, hname⟩
    rw [components_companion_of_plain hdirectory hname, hdirectory] at hparts
    have hlength := congrArg List.length hparts
    have hpos := List.length_pos_of_ne_nil hnames
    simp only [List.length_append, List.length_singleton] at hlength
    omega
  · intro h
    refine ⟨[temporaryMark], List.cons_ne_nil _ _, ?_, components_companion_of_not_endsPlainly h⟩
    intro name hname
    rw [List.mem_singleton.1 hname]
    decide

/-! ## Places -/

/-- Where names lead from a place, if all on the way are directories. -/
def resolve (place : Place) : List (List Char) → Place
  | [] => place
  | name :: names =>
    if isIdle name then resolve place names
    else if name = outwards then resolve place.dropLast names
    else resolve (place ++ [String.ofList name]) names

/-- Where parts start from: the root, or the place that relative paths start from. -/
def startOf (start : Place) (parts : List (List Char)) : Place :=
  if parts.head? = some [] then [] else start

/-- The place of a path, if all on the way are directories. -/
def placeOf (start : Place) (path : List Char) : Place :=
  resolve (startOf start (components path)) (components path)

theorem resolve_append (place : Place) (names names' : List (List Char)) :
    resolve place (names ++ names') = resolve (resolve place names) names' := by
  induction names generalizing place with
  | nil => rfl
  | cons name names ih =>
    simp only [List.cons_append, resolve]
    split
    · exact ih _
    · split
      · exact ih _
      · exact ih _

theorem resolve_steps (place : Place) (names : List (List Char)) :
    resolve place (steps names) = resolve place names := by
  induction names generalizing place with
  | nil => rfl
  | cons name names ih =>
    unfold steps at ih ⊢
    cases hidle : isIdle name with
    | true => simp [hidle, resolve, ih]
    | false => simp [hidle, resolve, ih]

theorem resolve_leading (place : Place) (first : List Char) :
    resolve place (leading first) = place := by
  unfold leading
  split
  · rfl
  · split <;> rfl

theorem resolve_plain (place : Place) {name : List Char} (h : isPlainName name = true) :
    resolve place [name] = place ++ [String.ofList name] := by
  obtain ⟨hidle, hout⟩ := isPlainName_iff.1 h
  simp [resolve, hidle, hout]

theorem startOf_concat (start : Place) (parts : List (List Char)) {name : List Char}
    (h : isPlainName name = true) : startOf start (parts ++ [name]) = startOf start parts := by
  have hname := ne_nil_of_isPlainName h
  unfold startOf
  cases parts with
  | nil => simp [hname]
  | cons first parts => rfl

/-- A plain name leads one place further. -/
theorem placeOf_of_components {path name : List Char} {parts : List (List Char)} (start : Place)
    (h : components path = parts ++ [name]) (hname : isPlainName name = true) :
    placeOf start path = resolve (startOf start parts) parts ++ [String.ofList name] := by
  rw [placeOf, h, startOf_concat start parts hname, resolve_append, resolve_plain _ hname]

/-- A name in a directory is one place further than the directory. -/
theorem placeOf_join_name (start : Place) (directory : List Char) {name : List Char}
    (hslash : '/' ∉ name) (hname : isPlainName name = true) :
    placeOf start (join directory name) = placeOf start directory ++ [String.ofList name] :=
  placeOf_of_components start (components_join_name directory hslash hname) hname

theorem placeOf_companion_join_name (start : Place) (directory : List Char) {name : List Char}
    (hslash : '/' ∉ name) (hname : isPlainName name = true) :
    placeOf start (companion (join directory name)) =
      placeOf start directory ++ [String.ofList (name ++ temporaryMark)] :=
  placeOf_of_components start
    (components_companion_of_plain (components_join_name directory hslash hname) hname)
    (isPlainName_append_mark name)

/-- No path shares its place with its companion. -/
theorem placeOf_companion_ne (start : Place) (path : List Char) :
    placeOf start (companion path) ≠ placeOf start path := by
  by_cases hplain : EndsPlainly path
  -- the two are in one directory, with names of different lengths
  · obtain ⟨parts, name, hparts, hname⟩ := hplain
    rw [placeOf_of_components start (components_companion_of_plain hparts hname)
      (isPlainName_append_mark name), placeOf_of_components start hparts hname]
    intro h
    have hnames := List.append_cancel_left h
    have hlength := congrArg List.length (String.ofList_injective (List.singleton_inj.1 hnames))
    simp [temporaryMark] at hlength
  -- the companion is in the place of the path
  · rw [placeOf_of_components start (components_companion_of_not_endsPlainly hplain) (by decide)]
    intro h
    have hlength := congrArg List.length h
    rw [List.length_append, List.length_singleton, placeOf] at hlength
    omega

end WrapperGen.Files
