import InsertLayout.Proofs.Execution
import InsertLayout.Proofs.Walk
import InsertLayout.Proofs.Selection

/-!
# Reporting and overwriting

A run that reports tells what a run that overwrites does with the same paths. Both reach the same
files (`exists_of_execute`); the first one reports those that formatting changes and leaves
everything as it is (`execute_check`), the second one formats them (`execute_write`) and so changes
the ones reported and no others (`check_predicts_write`). No file may be reached twice, and not the
one with the options, for the files that are formatted first must not decide what happens to the
others. After the second run there is nothing to report, if formatting is idempotent.
-/

set_option autoImplicit false

namespace InsertLayout

/-- The files that formatting changes. -/
def FileTree.changing (options : Options) (tree : FileTree) (files : List Path) : List Path :=
  files.filter (tree.unaligned options)

/-- No file is reached twice, and the file with the options is not reached. -/
structure FileTree.ReachedOnce (tree : FileTree) (settings : Settings) : Prop where
  nodup : ∀ files, tree.reached settings.paths = .ok files → (files.map tree.resolve).Nodup
  config : ∀ files, tree.reached settings.paths = .ok files →
    ∀ path, settings.config = some path → tree.resolve path ∉ files.map tree.resolve

namespace World

variable {settings : Settings} {options : Options} {world world' : World} {files : List Path}

/-! ## Reporting -/

theorem foldl_align_check (hcheck : settings.check = true) :
    files.foldl (align settings options) world = { world with
      errors := world.errors ++ (world.files.changing options files).flatMap needsAlignment } := by
  induction files generalizing world with
  | nil => simp [FileTree.changing]
  | cons path files ih =>
    rw [List.foldl_cons, ih]
    unfold align FileTree.changing
    rw [if_pos hcheck, List.filter_cons]
    split
    · simp only [List.flatMap_cons, List.append_assoc]
    · rfl

/-- A run that reports tells whether formatting changes one of the files. -/
theorem run_alignFiles_check (hcheck : settings.check = true) {b : Bool}
    (hrun : world.run (anyChanged (alignFile World.host settings options) files) =
      (.ok b, world')) : b = !(world.files.changing options files).isEmpty := by
  induction files generalizing world b with
  | nil =>
    cases hrun
    rfl
  | cons path files ih =>
    obtain ⟨first, others, between, hfirst, hothers, rfl⟩ := run_anyChanged_cons_eq_ok_iff.1 hrun
    obtain ⟨-, rfl, rfl⟩ := run_alignFile_eq_ok_iff.1 hfirst
    have hfiles : (world.align settings options path).files = world.files := by
      unfold align
      rw [if_pos hcheck]
      split <;> rfl
    have hothers := ih hothers
    rw [hfiles] at hothers
    rw [hothers]
    unfold FileTree.changing
    rw [List.filter_cons]
    cases world.files.unaligned options path <;> simp

/-! ## Overwriting -/

theorem foldl_align_write (hcheck : settings.check = false) (hwrite : settings.write = true) :
    files.foldl (align settings options) world =
      { world with files := files.foldl (FileTree.formatAt options) world.files } := by
  induction files generalizing world with
  | nil => rfl
  | cons path files ih =>
    rw [List.foldl_cons, ih, List.foldl_cons]
    unfold align
    rw [hcheck, if_neg Bool.false_ne_true, if_pos hwrite]

/-! ## Runs that do not fail -/

section
variable {arguments : List Text} (harguments : Invocation.ofArguments arguments = .run settings)
  (hpaths : settings.paths ≠ []) (hdash : ∀ path ∈ settings.paths, Path.same path ['-'] = false)
  (hoptions : world.files.optionsFrom settings.config = .ok options)
  (hfiles : world.files.reached settings.paths = .ok files)
  (hread : ∀ path ∈ files, ∃ t, world.files.read path = .ok t)
include harguments hpaths hdash hoptions hfiles hread

/-- A run that reports names the files that formatting changes and leaves everything as it is. -/
theorem execute_check (hcheck : settings.check = true) : world.execute arguments =
    (if world.files.changing options files = [] then 0 else 1, { world with
      errors := world.errors ++ (world.files.changing options files).flatMap needsAlignment }) := by
  obtain ⟨b, hrun, hexecute⟩ := exists_execute_eq harguments hpaths hdash hoptions hfiles hread
  rw [hexecute, foldl_align_check hcheck, run_alignFiles_check hcheck hrun, hcheck]
  simp

/-- A run that overwrites formats the files. -/
theorem execute_write (hcheck : settings.check = false) (hwrite : settings.write = true) :
    world.execute arguments =
      (0, { world with files := files.foldl (FileTree.formatAt options) world.files }) := by
  obtain ⟨b, -, hexecute⟩ := exists_execute_eq harguments hpaths hdash hoptions hfiles hread
  rw [hexecute, foldl_align_write hcheck hwrite, hcheck]
  rfl

end

end World

namespace FileTree

variable {options : Options} {tree : FileTree} {files : List Path}

theorem mem_changing_iff {path : Path} {t : Text} (hread : tree.read path = .ok t) :
    path ∈ tree.changing options files ↔ path ∈ files ∧ InsertLayout.format options t ≠ t := by
  unfold changing
  rw [List.mem_filter, unaligned_of_read hread, decide_eq_true_iff]

/-- Formatting files that can be read, no two of them in the same place, changes what stands in a
place if and only if one of the files that formatting changes is there. -/
theorem entry?_foldl_formatAt_ne_iff (hnodup : (files.map tree.resolve).Nodup)
    (hread : ∀ path ∈ files, ∃ t, tree.read path = .ok t) (location : Location) :
    entry? (files.foldl (formatAt options) tree) location ≠ tree.entry? location ↔
      ∃ path ∈ tree.changing options files, tree.resolve path = .ok location := by
  by_cases hmem : .ok location ∈ files.map tree.resolve
  · obtain ⟨path, hpath, hresolve⟩ := List.mem_map.1 hmem
    obtain ⟨t, ht⟩ := hread path hpath
    have hentry {path : Path} (hresolve : tree.resolve path = .ok location) {t : Text}
        (ht : tree.read path = .ok t) : tree.entry? location = some (.file (.text t)) := by
      obtain ⟨location', hresolve', hentry⟩ := read_eq_ok_iff.1 ht
      obtain rfl := Except.ok.inj (hresolve.symm.trans hresolve')
      exact hentry
    have hiff : entry? (files.foldl (formatAt options) tree) location ≠ tree.entry? location ↔
        InsertLayout.format options t ≠ t := by
      rw [entry?_foldl_formatAt hnodup hmem, hentry hresolve ht]
      simp [Entry.format, Entry.mapText]
    rw [hiff]
    refine ⟨fun hne => ⟨path, (mem_changing_iff ht).2 ⟨hpath, hne⟩, hresolve⟩, ?_⟩
    rintro ⟨path', hchanging, hresolve'⟩
    obtain ⟨t', ht'⟩ := hread path' (List.mem_of_mem_filter hchanging)
    have hsame : t' = t := by
      simpa using (hentry hresolve' ht').symm.trans (hentry hresolve ht)
    exact hsame ▸ ((mem_changing_iff ht').1 hchanging).2
  · rw [entry?_foldl_formatAt_of_notMem hmem]
    refine ⟨fun hne => absurd rfl hne, ?_⟩
    rintro ⟨path, hchanging, hresolve⟩
    exact absurd (List.mem_map.2 ⟨path, List.mem_of_mem_filter hchanging, hresolve⟩) hmem

/-- The options do not change if the file with them is not formatted. -/
theorem optionsFrom_foldl_formatAt {config : Option Path}
    (hconfig : ∀ path, config = some path → tree.resolve path ∉ files.map tree.resolve) :
    (files.foldl (formatAt options) tree).optionsFrom config = tree.optionsFrom config := by
  cases config with
  | none => rfl
  | some path =>
    have hread : (files.foldl (formatAt options) tree).read path = tree.read path := by
      refine read_eq_of_outline (outline_foldl_formatAt options tree files) fun l hl => ?_
      exact entry?_foldl_formatAt_of_notMem (hl ▸ hconfig path rfl)
    unfold optionsFrom
    dsimp only
    rw [hread]

/-- Formatted files do not change any more. -/
theorem changing_foldl_formatAt (hq : options.quotes.Plain) (hwrap : options.columnWrap = none)
    (hnodup : (files.map tree.resolve).Nodup)
    (hread : ∀ path ∈ files, ∃ t, tree.read path = .ok t) :
    (files.foldl (formatAt options) tree).changing options files = [] := by
  unfold changing
  rw [List.filter_eq_nil_iff]
  intro path hpath
  obtain ⟨t, ht⟩ := hread path hpath
  rw [unaligned_of_read (read_foldl_formatAt hnodup hpath ht), format_format_bare hq hwrap]
  simp

end FileTree

/-! ## Two runs with the same paths -/

namespace World

/-- A run that reports, if it does not fail, names the files that a run that overwrites changes, and
both reach what their paths stand for. -/
theorem check_predicts_write {settings : Settings} {checkArguments writeArguments : List Text}
    (hcheck : Invocation.ofArguments checkArguments =
      .run { settings with write := false, check := true })
    (hwrite : Invocation.ofArguments writeArguments =
      .run { settings with write := true, check := false })
    (hpaths : settings.paths ≠ []) (hdash : ∀ path ∈ settings.paths, Path.same path ['-'] = false)
    {world : World} (honce : world.files.ReachedOnce settings)
    (hexit : (world.execute checkArguments).1 ≠ 2) :
    ∃ options files tree, world.files.optionsFrom settings.config = .ok options ∧
      world.files.reached settings.paths = .ok files ∧
      (∀ path ∈ settings.paths, world.files.StandsFor path) ∧
      world.execute checkArguments =
        (if world.files.changing options files = [] then 0 else 1, { world with
          errors := world.errors ++ (world.files.changing options files).flatMap needsAlignment }) ∧
      world.execute writeArguments = (0, { world with files := tree }) ∧
      (∀ location, tree.entry? location ≠ world.files.entry? location ↔
        ∃ path ∈ world.files.changing options files, world.files.resolve path = .ok location) ∧
      (∀ path ∈ files, ∃ t, world.files.read path = .ok t ∧
        tree.read path = .ok (format options t)) ∧
      (options.quotes.Plain → options.columnWrap = none → ∀ next : World, next.files = tree →
        next.execute checkArguments = (0, next)) := by
  obtain ⟨options, files, hoptions, hfiles, hread⟩ := exists_of_execute hcheck hpaths hdash hexit
  have hnodup := honce.nodup files hfiles
  have hchecked := execute_check hcheck hpaths hdash hoptions hfiles hread rfl
  have hwritten := execute_write hwrite hpaths hdash hoptions hfiles hread rfl rfl
  refine ⟨options, files, _, hoptions, hfiles, fun path _ => world.files.standsFor path, hchecked,
    hwritten, FileTree.entry?_foldl_formatAt_ne_iff hnodup hread, ?_, ?_⟩
  · intro path hpath
    obtain ⟨t, ht⟩ := hread path hpath
    exact ⟨t, ht, FileTree.read_foldl_formatAt hnodup hpath ht⟩
  · intro hq hwrap next hnext
    have houtline : next.files.outline = world.files.outline := by
      rw [hnext, FileTree.outline_foldl_formatAt]
    have hnone : next.files.changing options files = [] := by
      rw [hnext, FileTree.changing_foldl_formatAt hq hwrap hnodup hread]
    have hoptions' : next.files.optionsFrom settings.config = .ok options := by
      rw [hnext, FileTree.optionsFrom_foldl_formatAt (honce.config files hfiles), hoptions]
    have hfiles' : next.files.reached settings.paths = .ok files := by
      rw [FileTree.reached_eq_of_outline houtline, hfiles]
    have hread' := FileTree.exists_read_of_outline houtline hread
    rw [execute_check hcheck hpaths hdash hoptions' hfiles' hread' rfl, hnone]
    simp

/-- Texts outside the working directory, one of them two directories deep and one behind a link, and
one that is aligned; the options are in the working directory. -/
def scripts : World where
  files := {
    entries := [
      (["home".toList], .directory {}),
      (["home".toList, "o".toList], .file (.text "\x7b\"column_wrap\": null\x7d".toList)),
      (["home".toList, "l".toList], .link "/db/e/../../srv/x".toList),
      (["db".toList], .directory {}),
      (["db".toList, "e".toList], .directory {}),
      (["db".toList, "e".toList, "b.SQL".toList],
        .file (.text "insert into t(a,b) values (1,NOW());\n".toList)),
      (["srv".toList], .directory {}),
      (["srv".toList, "x".toList], .file (.text "INSERT into u (é) values ('(;'),(2);x".toList)),
      (["srv".toList, "y".toList], .file (.text "insert into t\n(a)\nVALUES\n(1);".toList))]
    workingDirectory := ["home".toList]
    nodup := by decide +kernel
    isName := by decide +kernel }

/-- The directory, the link and the aligned text, with the options in the file. -/
def scriptSettings : Settings :=
  { config := some "o".toList, paths := ["../db".toList, "l".toList, "/srv/y".toList] }

/-- The files that are reached, in their order. -/
def scriptFiles : List Path := ["../db/e/b.SQL".toList, "l".toList, "/srv/y".toList]

theorem optionsFrom_scripts :
    scripts.files.optionsFrom scriptSettings.config = .ok { columnWrap := none } := by
  have hsome : (scripts.files.optionsFrom scriptSettings.config).toOption =
      some { columnWrap := none } := by decide +kernel
  cases h : scripts.files.optionsFrom scriptSettings.config with
  | error failure =>
    rw [h] at hsome
    cases hsome
  | ok options =>
    rw [h] at hsome
    exact congrArg Except.ok (Option.some.inj hsome)

theorem reached_scripts :
    scripts.files.reached scriptSettings.paths = .ok scriptFiles := by decide +kernel

theorem reachedOnce_scripts : scripts.files.ReachedOnce scriptSettings := by
  refine ⟨fun files h => ?_, fun files h path hpath => ?_⟩
  · obtain rfl := Except.ok.inj (h.symm.trans reached_scripts)
    decide +kernel
  · obtain rfl := Except.ok.inj (h.symm.trans reached_scripts)
    obtain rfl := Option.some.inj hpath
    decide +kernel

/-- Two of the three files that are reached are reported and then overwritten, one of them through
the link. -/
theorem check_predicts_write_scripts :
    ∃ tree, scripts.execute
          ["--check".toList, "-co".toList, "../db".toList, "l".toList, "/srv/y".toList] =
        (1, { scripts with
          errors := ("../db/e/b.SQL: needs alignment\n" ++ "l: needs alignment\n").toList }) ∧
      scripts.execute
          ["../db".toList, "--config=o".toList, "-w".toList, "l".toList, "/srv/y".toList] =
        (0, { scripts with files := tree }) ∧
      (∀ location, tree.entry? location ≠ scripts.files.entry? location ↔
        location ∈ [["db".toList, "e".toList, "b.SQL".toList], ["srv".toList, "x".toList]]) ∧
      World.execute { scripts with files := tree }
          ["--check".toList, "-co".toList, "../db".toList, "l".toList, "/srv/y".toList] =
        (0, { scripts with files := tree }) := by
  have hcheck : Invocation.ofArguments
      ["--check".toList, "-co".toList, "../db".toList, "l".toList, "/srv/y".toList] =
        .run { scriptSettings with write := false, check := true } := by decide +kernel
  have hwrite : Invocation.ofArguments
      ["../db".toList, "--config=o".toList, "-w".toList, "l".toList, "/srv/y".toList] =
        .run { scriptSettings with write := true, check := false } := by decide +kernel
  have hpaths : scriptSettings.paths ≠ [] := by decide
  have hdash : ∀ path ∈ scriptSettings.paths, Path.same path ['-'] = false := by
    decide +kernel
  have hexit : (scripts.execute
      ["--check".toList, "-co".toList, "../db".toList, "l".toList, "/srv/y".toList]).1 ≠ 2 := by
    decide +kernel
  obtain ⟨options, files, tree, hoptions, hfiles, -, hchecked, hwritten, hchanged, -, hagain⟩ :=
    check_predicts_write hcheck hwrite hpaths hdash reachedOnce_scripts hexit
  obtain rfl := Except.ok.inj (hoptions.symm.trans optionsFrom_scripts)
  obtain rfl := Except.ok.inj (hfiles.symm.trans reached_scripts)
  have hchanging : scripts.files.changing { columnWrap := none } scriptFiles =
      ["../db/e/b.SQL".toList, "l".toList] := by decide +kernel
  have hresolve : (["../db/e/b.SQL".toList, "l".toList] : List Path).map scripts.files.resolve =
      [["db".toList, "e".toList, "b.SQL".toList], ["srv".toList, "x".toList]].map Except.ok := by
    decide +kernel
  rw [hchanging] at hchecked hchanged
  refine ⟨tree, hchecked, hwritten, fun location => (hchanged location).trans ?_,
    hagain (by decide) rfl _ rfl⟩
  rw [← List.mem_map, hresolve]
  simp

end World

end InsertLayout
