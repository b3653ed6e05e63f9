import InsertLayout.CommandLine.Run
import InsertLayout.Proofs.Outline

/-!
# Runs in a world

What a run comes to in a world, step by step: `run_bind` takes steps apart, and each step of the
command line has one equation that says what it comes to and which world it leaves
(`run_loadOptions`, `run_filesAt`, `run_alignFile`). Aligning a file leaves the outline of the tree
as it is, so the paths of a run that does not fail reach the files that they reached at its start,
and the run aligns these one after another (`run_alignPaths_eq_ok_iff`).
-/

set_option autoImplicit false

namespace InsertLayout

/-- The options that the file at the end of a path gives, or the default ones without a path. -/
def FileTree.optionsFrom (tree : FileTree) : Option Path → Except Failure Options
  | none => .ok {}
  | some path =>
    match tree.read path with
    | .error e => .error (.config path (.file e))
    | .ok t => (Options.ofText? t).mapError (.config path ∘ .options)

/-- Whether the file at the end of a path holds a text that changes when it is formatted. -/
def FileTree.unaligned (options : Options) (tree : FileTree) (path : Path) : Bool :=
  match tree.read path with
  | .ok t => decide (format options t ≠ t)
  | .error _ => false

theorem FileTree.unaligned_of_read {options : Options} {tree : FileTree} {path : Path} {t : Text}
    (hread : tree.read path = .ok t) :
    tree.unaligned options path = decide (InsertLayout.format options t ≠ t) := by
  unfold unaligned
  rw [hread]

namespace World

variable {α β : Type} {settings : Settings} {options : Options} {world world' : World}

/-- What a step comes to in a world, and the world that it leaves. -/
def run (world : World) (step : Step (StateM World) α) : Except Failure α × World :=
  Id.run (StateT.run (ExceptT.run step) world)

/-- The exit code of a run of the command line in a world, and the world that it leaves. -/
def execute (world : World) (arguments : List Text) : Nat × World :=
  Id.run (StateT.run (InsertLayout.execute World.host arguments) world)

/-! ## Steps one after another -/

@[simp]
theorem run_pure (world : World) (a : α) : world.run (pure a) = (.ok a, world) := rfl

theorem run_bind (world : World) (step : Step (StateM World) α)
    (next : α → Step (StateM World) β) : world.run (step >>= next) =
      match world.run step with
      | (.ok a, world') => world'.run (next a)
      | (.error e, world') => (.error e, world') := by
  unfold run
  rw [ExceptT.run_bind, StateT.run_bind, Id.run_bind]
  obtain ⟨result, world'⟩ := Id.run (StateT.run (ExceptT.run step) world)
  cases result <;> rfl

theorem run_bind_eq_ok_iff {step : Step (StateM World) α} {next : α → Step (StateM World) β}
    {b : β} : world.run (step >>= next) = (.ok b, world') ↔
      ∃ a between, world.run step = (.ok a, between) ∧ between.run (next a) = (.ok b, world') := by
  rw [run_bind]
  obtain ⟨result, between⟩ := world.run step
  cases result with
  | error e => simp
  | ok a =>
    refine ⟨fun h => ⟨a, between, rfl, h⟩, ?_⟩
    rintro ⟨a', between', heq, h⟩
    obtain ⟨rfl, rfl⟩ := by simpa using heq
    exact h

theorem run_attempt {ε : Type} (failure : ε → Failure) (action : StateM World (Except ε α))
    (world : World) : world.run (attempt failure action) =
      ((Id.run (StateT.run action world)).1.mapError failure,
        (Id.run (StateT.run action world)).2) := by
  unfold run attempt
  rw [ExceptT.run_mk, StateT.run_bind, Id.run_bind]
  obtain ⟨result, world'⟩ := Id.run (StateT.run action world)
  cases result <;> rfl

/-! ## What the host offers -/

theorem run_read (failure : FileError → Failure) (world : World) (path : Path) :
    world.run (attempt failure (World.host.read path)) =
      ((world.files.read path).mapError failure, world) := run_attempt _ _ _

theorem run_sqlFiles (failure : WalkError → Failure) (world : World) (path : Path) :
    world.run (attempt failure (World.host.sqlFiles path)) =
      ((world.files.sqlFiles path).mapError failure, world) := run_attempt _ _ _

theorem run_write (failure : FileError → Failure) (world : World) (path : Path) (t : Text) :
    world.run (attempt failure (World.host.write path t)) =
      ((world.write path t).1.mapError failure, (world.write path t).2) := run_attempt _ _ _

theorem run_isDirectory (world : World) (path : Path) :
    world.run (liftM (World.host.isDirectory path)) = (.ok (world.files.isDirectory path), world) :=
  rfl

theorem run_print (world : World) (t : Text) : world.run (liftM (World.host.print t)) =
    (.ok (), { world with output := world.output ++ t }) := rfl

theorem run_report (world : World) (t : Text) : world.run (liftM (World.host.report t)) =
    (.ok (), { world with errors := world.errors ++ t }) := rfl

/-! ## The steps of the command line -/

theorem run_loadOptions (world : World) (config : Option Path) :
    world.run (loadOptions World.host config) = (world.files.optionsFrom config, world) := by
  cases config with
  | none => rfl
  | some path =>
    unfold loadOptions FileTree.optionsFrom
    dsimp only
    rw [run_bind, run_read]
    cases world.files.read path with
    | error e => rfl
    | ok t => exact run_attempt _ _ _

theorem run_filesAt (world : World) (path : Path) : world.run (filesAt World.host path) =
    ((world.files.filesAt path).mapError (.walk path), world) := by
  unfold filesAt FileTree.filesAt
  rw [run_bind, run_isDirectory]
  dsimp only
  split
  · exact run_sqlFiles _ _ _
  · rfl

/-- The world after a file has been aligned, if it can be read. -/
def align (settings : Settings) (options : Options) (world : World) (path : Path) : World :=
  if settings.check then
    if world.files.unaligned options path then
      { world with errors := world.errors ++ needsAlignment path }
    else world
  else if settings.write then { world with files := world.files.formatAt options path }
  else
    match world.files.read path with
    | .ok t => { world with output := world.output ++ format options t }
    | .error _ => world

/-- What could be read is overwritten with what it is formatted to. -/
theorem write_format {path : Path} {t : Text} (hread : world.files.read path = .ok t) :
    world.write path (format options t) =
      (.ok (), { world with files := world.files.formatAt options path }) := by
  obtain ⟨location, hresolve, hentry⟩ := FileTree.read_eq_ok_iff.1 hread
  unfold write
  rw [FileTree.write_of_resolve hresolve hentry, FileTree.formatAt_of_resolve hresolve hentry]

theorem run_alignFile (settings : Settings) (options : Options) (world : World) (path : Path) :
    world.run (alignFile World.host settings options path) =
      match world.files.read path with
      | .ok _ => (.ok (world.files.unaligned options path), world.align settings options path)
      | .error e => (.error (.read path e), world) := by
  unfold alignFile align
  rw [run_bind, run_read]
  cases hread : world.files.read path with
  | error e => rfl
  | ok t =>
    rw [FileTree.unaligned_of_read hread]
    dsimp only [Except.mapError]
    by_cases hsame : format options t = t
    · have hnot : ¬ decide (format options t ≠ t) = true := by simpa using hsame
      rw [if_neg hnot, if_neg hnot, if_neg hnot]
      split
      · rfl
      · split
        · rw [FileTree.formatAt_of_unchanged hread hsame]
          rfl
        · rw [run_bind, run_print]
          rfl
    · have hyes : decide (format options t ≠ t) = true := by simpa using hsame
      rw [if_pos hyes, if_pos hyes, if_pos hyes]
      split
      · rw [run_bind, run_report]
        rfl
      · split
        · rw [run_bind, run_write, write_format hread]
          rfl
        · rw [run_bind, run_print]
          rfl

theorem run_alignPath {path : Path} (hdash : Path.same path ['-'] = false) :
    world.run (alignPath World.host settings options path) =
      match world.files.filesAt path with
      | .ok files => world.run (anyChanged (alignFile World.host settings options) files)
      | .error e => (.error (.walk path e), world) := by
  unfold alignPath
  rw [hdash, if_neg Bool.false_ne_true, run_bind, run_filesAt]
  cases world.files.filesAt path <;> rfl

theorem run_alignAll (settings : Settings) (world : World) (hpaths : settings.paths ≠ []) :
    world.run (alignAll World.host settings) =
      match world.files.optionsFrom settings.config with
      | .ok options =>
        world.run (anyChanged (alignPath World.host settings options) settings.paths)
      | .error failure => (.error failure, world) := by
  unfold alignAll
  rw [run_bind, run_loadOptions]
  cases world.files.optionsFrom settings.config with
  | error failure => rfl
  | ok options =>
    dsimp only
    rw [if_neg (by simpa using hpaths)]

/-! ## Steps over lists -/

theorem run_anyChanged_cons_eq_ok_iff {step : α → Step (StateM World) Bool} {a : α} {as : List α}
    {b : Bool} : world.run (anyChanged step (a :: as)) = (.ok b, world') ↔
      ∃ first others between, world.run (step a) = (.ok first, between) ∧
        between.run (anyChanged step as) = (.ok others, world') ∧ b = (first || others) := by
  simp only [anyChanged, run_bind_eq_ok_iff, run_pure, Prod.mk.injEq, Except.ok.injEq]
  refine exists_congr fun first => ⟨?_, ?_⟩
  · rintro ⟨between, hfirst, others, last, hothers, rfl, rfl⟩
    exact ⟨others, between, hfirst, hothers, rfl⟩
  · rintro ⟨others, between, hfirst, hothers, rfl⟩
    exact ⟨between, hfirst, others, world', hothers, rfl, rfl⟩

theorem run_anyChanged_append_eq_ok_iff {step : α → Step (StateM World) Bool} {as bs : List α}
    {b : Bool} : world.run (anyChanged step (as ++ bs)) = (.ok b, world') ↔
      ∃ first others between, world.run (anyChanged step as) = (.ok first, between) ∧
        between.run (anyChanged step bs) = (.ok others, world') ∧ b = (first || others) := by
  induction as generalizing world b with
  | nil =>
    have hnil (world : World) : world.run (anyChanged step []) = (.ok false, world) := rfl
    simp only [List.nil_append, hnil, Prod.mk.injEq, Except.ok.injEq]
    refine ⟨fun h => ⟨false, b, world, ⟨rfl, rfl⟩, h, rfl⟩, ?_⟩
    rintro ⟨first, others, between, ⟨rfl, rfl⟩, h, rfl⟩
    exact h
  | cons a as ih =>
    simp only [List.cons_append, run_anyChanged_cons_eq_ok_iff, ih]
    refine ⟨?_, ?_⟩
    · rintro ⟨first, -, between, hfirst, ⟨others, rest, last, hothers, hrest, rfl⟩, rfl⟩
      exact ⟨_, rest, last, ⟨first, others, between, hfirst, hothers, rfl⟩, hrest,
        (Bool.or_assoc _ _ _).symm⟩
    · rintro ⟨-, rest, last, ⟨first, others, between, hfirst, hothers, rfl⟩, hrest, rfl⟩
      exact ⟨first, _, between, hfirst, ⟨others, rest, last, hothers, hrest, rfl⟩,
        Bool.or_assoc _ _ _⟩

/-! ## Files -/

theorem outline_align (settings : Settings) (options : Options) (world : World) (path : Path) :
    (world.align settings options path).files.outline = world.files.outline := by
  unfold align
  split
  · split <;> rfl
  · split
    · exact FileTree.outline_formatAt options world.files path
    · split <;> rfl

theorem outline_foldl_align (settings : Settings) (options : Options) (world : World)
    (files : List Path) :
    (files.foldl (align settings options) world).files.outline = world.files.outline := by
  induction files generalizing world with
  | nil => rfl
  | cons path files ih => rw [List.foldl_cons, ih, outline_align]

theorem run_alignFile_eq_ok_iff {path : Path} {b : Bool} :
    world.run (alignFile World.host settings options path) = (.ok b, world') ↔
      (∃ t, world.files.read path = .ok t) ∧ b = world.files.unaligned options path ∧
        world' = world.align settings options path := by
  rw [run_alignFile]
  cases world.files.read path with
  | error e => simp
  | ok t => simp [eq_comm]

/-- If a run over files does not fail, they can all be read, and they are aligned one after
another. -/
theorem of_run_alignFiles {files : List Path} {b : Bool}
    (hrun : world.run (anyChanged (alignFile World.host settings options) files) =
      (.ok b, world')) :
    (∀ path ∈ files, ∃ t, world.files.read path = .ok t) ∧
      world' = files.foldl (align settings options) world := by
  induction files generalizing world b with
  | nil =>
    cases hrun
    exact ⟨fun path hpath => absurd hpath List.not_mem_nil, rfl⟩
  | cons path files ih =>
    obtain ⟨first, others, between, hfirst, hothers, rfl⟩ := run_anyChanged_cons_eq_ok_iff.1 hrun
    obtain ⟨hread, -, rfl⟩ := run_alignFile_eq_ok_iff.1 hfirst
    obtain ⟨hreads, hworld⟩ := ih hothers
    have hsame := (outline_align settings options world path).symm
    exact ⟨List.forall_mem_cons.2 ⟨hread, FileTree.exists_read_of_outline hsame hreads⟩, hworld⟩

/-- A run over files that can all be read does not fail. -/
theorem exists_run_alignFiles {files : List Path}
    (hread : ∀ path ∈ files, ∃ t, world.files.read path = .ok t) :
    ∃ b, world.run (anyChanged (alignFile World.host settings options) files) =
      (.ok b, files.foldl (align settings options) world) := by
  induction files generalizing world with
  | nil => exact ⟨false, rfl⟩
  | cons path files ih =>
    obtain ⟨hpath, hfiles⟩ := List.forall_mem_cons.1 hread
    have hsame := outline_align settings options world path
    obtain ⟨b, hb⟩ := ih (FileTree.exists_read_of_outline hsame hfiles)
    exact ⟨_, run_anyChanged_cons_eq_ok_iff.2
      ⟨_, b, _, run_alignFile_eq_ok_iff.2 ⟨hpath, rfl, rfl⟩, hb, rfl⟩⟩

/-! ## Paths -/

theorem run_alignPath_eq_ok_iff {path : Path} (hdash : Path.same path ['-'] = false) {b : Bool} :
    world.run (alignPath World.host settings options path) = (.ok b, world') ↔
      ∃ files, world.files.filesAt path = .ok files ∧
        world.run (anyChanged (alignFile World.host settings options) files) =
          (.ok b, world') := by
  rw [run_alignPath hdash]
  cases world.files.filesAt path with
  | error e => simp
  | ok files => simp

/-- A run over paths that does not fail is a run over the files that they reach at its start. -/
theorem run_alignPaths_eq_ok_iff {paths : List Path}
    (hdash : ∀ path ∈ paths, Path.same path ['-'] = false) {b : Bool} :
    world.run (anyChanged (alignPath World.host settings options) paths) = (.ok b, world') ↔
      ∃ files, world.files.reached paths = .ok files ∧
        world.run (anyChanged (alignFile World.host settings options) files) =
          (.ok b, world') := by
  induction paths generalizing world b with
  | nil => simp [FileTree.reached, anyChanged]
  | cons path paths ih =>
    obtain ⟨hpath, hpaths⟩ := List.forall_mem_cons.1 hdash
    have hreached {between : World} {first : List Path} {b : Bool}
        (hrun : world.run (anyChanged (alignFile World.host settings options) first) =
          (.ok b, between)) : between.files.reached paths = world.files.reached paths := by
      rw [(of_run_alignFiles hrun).2]
      exact FileTree.reached_eq_of_outline (outline_foldl_align settings options world first) paths
    simp only [run_anyChanged_cons_eq_ok_iff, run_alignPath_eq_ok_iff hpath, ih hpaths,
      FileTree.reached_cons_eq_ok_iff]
    refine ⟨?_, ?_⟩
    · rintro ⟨b, b', between, ⟨first, hfirst, hrun⟩, ⟨others, hothers, hrun'⟩, rfl⟩
      rw [hreached hrun] at hothers
      exact ⟨_, ⟨first, others, hfirst, hothers, rfl⟩,
        run_anyChanged_append_eq_ok_iff.2 ⟨b, b', between, hrun, hrun', rfl⟩⟩
    · rintro ⟨-, ⟨first, others, hfirst, hothers, rfl⟩, hall⟩
      obtain ⟨b, b', between, hrun, hrun', rfl⟩ := run_anyChanged_append_eq_ok_iff.1 hall
      exact ⟨b, b', between, ⟨first, hfirst, hrun⟩, ⟨others, by rw [hreached hrun, hothers], hrun'⟩,
        rfl⟩

/-! ## Whole runs -/

theorem execute_eq {arguments : List Text} (h : Invocation.ofArguments arguments = .run settings)
    (world : World) : world.execute arguments =
      match world.run (alignAll World.host settings) with
      | (.ok changed, world') => (if settings.check && changed then 1 else 0, world')
      | (.error failure, world') =>
        (2, { world' with
          errors := world'.errors ++ ("Error: ".toList ++ failure.message ++ ['\n']) }) := by
  unfold execute InsertLayout.execute
  rw [h]
  dsimp only
  unfold runSettings run
  rw [StateT.run_bind, Id.run_bind]
  obtain ⟨result, world'⟩ := Id.run (StateT.run (ExceptT.run (alignAll World.host settings)) world)
  cases result <;> rfl

section
variable {arguments : List Text} (harguments : Invocation.ofArguments arguments = .run settings)
  (hpaths : settings.paths ≠ []) (hdash : ∀ path ∈ settings.paths, Path.same path ['-'] = false)
include harguments hpaths hdash

/-- If a run over paths does not fail, there are options, and the paths reach files that can all be
read. -/
theorem exists_of_execute (hexit : (world.execute arguments).1 ≠ 2) : ∃ options files,
    world.files.optionsFrom settings.config = .ok options ∧
      world.files.reached settings.paths = .ok files ∧
        ∀ path ∈ files, ∃ t, world.files.read path = .ok t := by
  rw [execute_eq harguments, run_alignAll settings world hpaths] at hexit
  cases hoptions : world.files.optionsFrom settings.config with
  | error failure =>
    rw [hoptions] at hexit
    exact absurd rfl hexit
  | ok options =>
    rw [hoptions] at hexit
    dsimp only at hexit
    cases hrun : world.run (anyChanged (alignPath World.host settings options) settings.paths) with
    | mk result world' =>
      cases result with
      | error failure =>
        rw [hrun] at hexit
        exact absurd rfl hexit
      | ok changed =>
        obtain ⟨files, hfiles, hrun⟩ := (run_alignPaths_eq_ok_iff hdash).1 hrun
        exact ⟨options, files, rfl, hfiles, (of_run_alignFiles hrun).1⟩

/-- A run over paths that reach files that can all be read aligns these. -/
theorem exists_execute_eq {files : List Path}
    (hoptions : world.files.optionsFrom settings.config = .ok options)
    (hfiles : world.files.reached settings.paths = .ok files)
    (hread : ∀ path ∈ files, ∃ t, world.files.read path = .ok t) :
    ∃ b, world.run (anyChanged (alignFile World.host settings options) files) =
        (.ok b, files.foldl (align settings options) world) ∧
      world.execute arguments =
        (if settings.check && b then 1 else 0, files.foldl (align settings options) world) := by
  obtain ⟨b, hrun⟩ := exists_run_alignFiles hread
  refine ⟨b, hrun, ?_⟩
  rw [execute_eq harguments, run_alignAll settings world hpaths, hoptions]
  dsimp only
  rw [(run_alignPaths_eq_ok_iff hdash).2 ⟨files, hfiles, hrun⟩]

end

end World

end InsertLayout
