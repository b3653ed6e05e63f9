import InsertLayout.Proofs.Arguments
import InsertLayout.Proofs.Execution
import InsertLayout.Proofs.Walk
import Mathlib

/-!
# What a run does to files

A `Course` says which files a run visits, in order, and why it fails if it does. It depends only on
the outline of the tree, so that it is known before the run: `FileTree.course` goes through the
paths one after another, up to the first that cannot be read or walked. Each step of the command
line takes its course (`takes_alignFiles`, `takes_alignPath`, `takes_alignPaths`): it formats the
files that it visits, if they are to be overwritten, leaves all others as they are, and fails
exactly if the course does. So does a whole run (`execute_effects`), whose settings are what its
arguments say (`Invocation.Reads`) and whose sources stand for the files that can be reached
(`FileTree.StandsFor`).
-/

set_option autoImplicit false

namespace InsertLayout

/-! ## Courses -/

/-- The files that are visited, in order, and the failure that comes behind them. -/
structure Course where
  files : List Path := []
  failure : Option Failure := none

/-- One course and then another one, which is not begun if the first one fails. -/
def Course.andThen (first next : Course) : Course :=
  match first.failure with
  | none => { files := first.files ++ next.files, failure := next.failure }
  | some _ => first

namespace Course

theorem andThen_assoc (a b c : Course) : (a.andThen b).andThen c = a.andThen (b.andThen c) := by
  obtain ⟨as, _ | e⟩ := a
  · obtain ⟨bs, _ | e⟩ := b
    · simp [andThen]
    · rfl
  · rfl

theorem andThen_empty (a : Course) : a.andThen {} = a := by
  obtain ⟨as, _ | e⟩ := a
  · simp [andThen]
  · rfl

theorem mem_files_andThen {a b : Course} {path : Path} (h : path ∈ (a.andThen b).files) :
    path ∈ a.files ∨ path ∈ b.files := by
  obtain ⟨as, _ | e⟩ := a
  · exact List.mem_append.1 h
  · exact .inl h

/-- Behind a course that visits nothing and fails, nothing is visited. -/
theorem andThen_of_fails (a b : Course) (failure : Failure) :
    (a.andThen (andThen { failure := some failure } b)).files = a.files ∧
      (a.andThen (andThen { failure := some failure } b)).failure ≠ none := by
  obtain ⟨as, _ | e⟩ := a
  · simp [andThen]
  · simp [andThen]

end Course

namespace FileTree

variable {tree : FileTree} {options : Options}

/-- A file is visited if it can be read. -/
def visitFile (tree : FileTree) (path : Path) : Course :=
  match tree.read path with
  | .ok _ => { files := [path] }
  | .error e => { failure := some (.read path e) }

/-- Several files, up to the first one that cannot be read. -/
def visitFiles (tree : FileTree) : List Path → Course
  | [] => {}
  | path :: paths => (tree.visitFile path).andThen (visitFiles tree paths)

/-- What a path stands for: no file if it is the input stream, which may fail to be read, and none
either if a directory cannot be walked to its end. -/
def visitPath (tree : FileTree) (input : Content) (path : Path) : Course :=
  if Path.same path ['-'] then
    match input.read with
    | .ok _ => {}
    | .error e => { failure := some (.input e) }
  else
    match tree.filesAt path with
    | .ok files => tree.visitFiles files
    | .error e => { failure := some (.walk path e) }

/-- What is left of the input behind a path. -/
def inputBehind (input : Content) (path : Path) : Content :=
  if Path.same path ['-'] then .text [] else input

/-- Several paths one after another. -/
def course (tree : FileTree) : Content → List Path → Course
  | _, [] => {}
  | input, path :: paths =>
    (tree.visitPath input path).andThen (course tree (inputBehind input path) paths)

/-! ## Courses and outlines -/

theorem visitFile_outline (tree : FileTree) (path : Path) :
    tree.outline.visitFile path = tree.visitFile path := by
  unfold visitFile
  rw [read_outline]
  cases tree.read path <;> rfl

theorem visitFiles_outline (tree : FileTree) (paths : List Path) :
    tree.outline.visitFiles paths = tree.visitFiles paths := by
  induction paths with
  | nil => rfl
  | cons path paths ih => rw [visitFiles, visitFiles, visitFile_outline, ih]

theorem course_outline (tree : FileTree) (input : Content) (paths : List Path) :
    tree.outline.course input paths = tree.course input paths := by
  induction paths generalizing input with
  | nil => rfl
  | cons path paths ih =>
    have hpath : tree.outline.visitPath input path = tree.visitPath input path := by
      unfold visitPath
      rw [filesAt_outline]
      cases tree.filesAt path with
      | error e => rfl
      | ok files =>
        dsimp only
        rw [visitFiles_outline]
    rw [course, course, hpath, ih]

/-- Trees with one outline have the same courses. -/
theorem visitFiles_eq_of_outline {tree' : FileTree} (h : tree'.outline = tree.outline)
    (paths : List Path) : tree'.visitFiles paths = tree.visitFiles paths := by
  rw [← visitFiles_outline, h, visitFiles_outline]

theorem course_eq_of_outline {tree' : FileTree} (h : tree'.outline = tree.outline)
    (input : Content) (paths : List Path) : tree'.course input paths = tree.course input paths := by
  rw [← course_outline, h, course_outline]

/-! ## Courses over lists -/

/-- The files that are visited can be read. -/
theorem exists_read_of_mem_visitFiles {paths : List Path} {path : Path}
    (h : path ∈ (tree.visitFiles paths).files) : ∃ t, tree.read path = .ok t := by
  induction paths with
  | nil => cases h
  | cons first paths ih =>
    unfold visitFiles visitFile at h
    cases hread : tree.read first with
    | error e =>
      rw [hread] at h
      cases h
    | ok t =>
      rw [hread] at h
      rcases List.mem_cons.1 h with rfl | h
      · exact ⟨t, hread⟩
      · exact ih h

theorem exists_read_of_mem_visitPath {input : Content} {path file : Path}
    (h : file ∈ (tree.visitPath input path).files) : ∃ t, tree.read file = .ok t := by
  unfold visitPath at h
  split at h
  · cases hread : input.read with
    | ok t =>
      rw [hread] at h
      cases h
    | error e =>
      rw [hread] at h
      cases h
  · cases hfiles : tree.filesAt path with
    | error e =>
      rw [hfiles] at h
      cases h
    | ok files =>
      rw [hfiles] at h
      exact exists_read_of_mem_visitFiles h

theorem exists_read_of_mem_course {input : Content} {paths : List Path} {file : Path}
    (h : file ∈ (tree.course input paths).files) : ∃ t, tree.read file = .ok t := by
  induction paths generalizing input with
  | nil => cases h
  | cons path paths ih =>
    rcases Course.mem_files_andThen h with h | h
    · exact exists_read_of_mem_visitPath h
    · exact ih h

theorem course_append (tree : FileTree) (input : Content) (paths others : List Path) :
    tree.course input (paths ++ others) = (tree.course input paths).andThen
      (tree.course (paths.foldl inputBehind input) others) := by
  induction paths generalizing input with
  | nil => rfl
  | cons path paths ih =>
    rw [List.cons_append, course, course, ih, Course.andThen_assoc, List.foldl_cons]

/-- A directory that cannot be walked is not visited at all, and nothing is visited behind it. -/
theorem course_of_walkError {path : Path} (hdash : Path.same path ['-'] = false) {e : WalkError}
    (h : tree.filesAt path = .error e) (input : Content) (before after : List Path) :
    (tree.course input (before ++ path :: after)).files = (tree.course input before).files ∧
      (tree.course input (before ++ path :: after)).failure ≠ none := by
  have hpath (input : Content) :
      tree.visitPath input path = { failure := some (.walk path e) } := by
    unfold visitPath
    rw [hdash, h]
    rfl
  rw [course_append, course, hpath]
  exact Course.andThen_of_fails _ _ _

/-- The file in the directory is not visited, although it comes before the link. -/
example :
    let tree : FileTree := {
      entries := [
        (["a".toList], .file (.text [])), (["d".toList], .directory {}),
        (["d".toList, "b.sql".toList], .file (.text [])),
        (["d".toList, "c.sql".toList], .link "gone".toList), (["e".toList], .file (.text []))]
      nodup := by decide +kernel
      isName := by decide +kernel }
    tree.course (.text []) ["a".toList, "a".toList, "/d".toList, "e".toList] =
      { files := ["a".toList, "a".toList],
        failure := some (.walk "/d".toList (.entry "/d/c.sql".toList .notFound)) } := by
  cbv

/-! ## Files that are formatted several times -/

/-- Whether a path leads to a place. -/
def leadsTo (tree : FileTree) (location : Location) (path : Path) : Bool :=
  match tree.resolve path with
  | .ok l => l = location
  | .error _ => false

theorem leadsTo_iff {location : Location} {path : Path} :
    tree.leadsTo location path = true ↔ tree.resolve path = .ok location := by
  unfold leadsTo
  cases tree.resolve path <;> simp

/-- Each file is formatted as often as paths lead to it. -/
theorem entry?_foldl_formatAt_count (paths : List Path) (location : Location) :
    entry? (paths.foldl (formatAt options) tree) location =
      (tree.entry? location).map (Entry.format options)^[paths.countP (tree.leadsTo location)] := by
  induction paths generalizing tree with
  | nil => simp
  | cons path paths ih =>
    have hleads : (tree.formatAt options path).leadsTo location = tree.leadsTo location := by
      unfold leadsTo
      rw [funext (resolve_eq_of_outline (outline_formatAt options tree path))]
    rw [List.foldl_cons, ih, hleads, List.countP_cons]
    by_cases h : tree.resolve path = .ok location
    · rw [if_pos (leadsTo_iff.2 h), entry?_formatAt h, Option.map_map, ← Function.iterate_succ]
    · rw [if_neg fun hl => h (leadsTo_iff.1 hl), entry?_formatAt_of_ne h]
      rfl

end FileTree

/-! ## Steps and their courses -/

/-- The tree after files have been formatted one after another, if they are to be overwritten. -/
def Settings.overwrite (settings : Settings) (options : Options) (tree : FileTree)
    (files : List Path) : FileTree :=
  if settings.write then files.foldl (FileTree.formatAt options) tree else tree

/-- What a run goes through: its paths, or the input stream if there are none. -/
def Settings.sources (settings : Settings) : List Path :=
  if settings.paths = [] then [['-']] else settings.paths

/-- Why a step failed, if it did. -/
def failure? {α : Type} : Except Failure α → Option Failure
  | .ok _ => none
  | .error e => some e

section
variable (settings : Settings) (options : Options) (tree : FileTree)

@[simp]
theorem Settings.overwrite_nil : settings.overwrite options tree [] = tree := by
  unfold overwrite
  split <;> rfl

theorem Settings.overwrite_append (files others : List Path) :
    settings.overwrite options tree (files ++ others) =
      settings.overwrite options (settings.overwrite options tree files) others := by
  unfold overwrite
  split
  · exact List.foldl_append
  · rfl

theorem Settings.outline_overwrite (files : List Path) :
    (settings.overwrite options tree files).outline = tree.outline := by
  unfold overwrite
  split
  · exact FileTree.outline_foldl_formatAt options tree files
  · rfl

end

namespace World

variable {α : Type} {settings : Settings} {options : Options} {world : World}

/-- A step takes a course: it formats the files that the course visits, if they are to be
overwritten, and no other one, fails exactly if the course does, and otherwise leaves the rest of
the input. -/
structure Takes (settings : Settings) (options : Options) (world : World)
    (step : Step (StateM World) α) (course : Course) (rest : Content) : Prop where
  files : (world.run step).2.files = settings.overwrite options world.files course.files
  failure : failure? (world.run step).1 = course.failure
  input : course.failure = none → (world.run step).2.input = rest

theorem failure?_map {β : Type} (f : α → β) (result : Except Failure α) :
    failure? (result.map f) = failure? result := by
  cases result <;> rfl

theorem run_anyChanged_cons (world : World) (step : α → Step (StateM World) Bool) (a : α)
    (as : List α) : world.run (anyChanged step (a :: as)) =
      match world.run (step a) with
      | (.ok first, between) =>
        ((between.run (anyChanged step as)).1.map (first || ·),
          (between.run (anyChanged step as)).2)
      | (.error e, between) => (.error e, between) := by
  rw [anyChanged, run_bind]
  obtain ⟨result, between⟩ := world.run (step a)
  cases result with
  | error e => rfl
  | ok first =>
    dsimp only
    rw [run_bind]
    obtain ⟨result, last⟩ := between.run (anyChanged step as)
    cases result <;> rfl

theorem Takes.cons {step : α → Step (StateM World) Bool} {a : α} {as : List α}
    {first next : Course} {between rest : Content}
    (ha : Takes settings options world (step a) first between)
    (has : ∀ world' : World, world'.files.outline = world.files.outline →
      world'.input = between → Takes settings options world' (anyChanged step as) next rest) :
    Takes settings options world (anyChanged step (a :: as)) (first.andThen next) rest := by
  obtain ⟨hfiles, hfailure, hinput⟩ := ha
  obtain ⟨files, failure⟩ := first
  have hrun := run_anyChanged_cons world step a as
  generalize world.run (step a) = outcome at hfiles hfailure hinput hrun
  obtain ⟨result, world'⟩ := outcome
  cases result with
  | error e =>
    obtain rfl : some e = failure := hfailure
    refine ⟨?_, ?_, fun h => by cases h⟩
    · rw [hrun]
      exact hfiles
    · rw [hrun]
      rfl
  | ok changed =>
    obtain rfl : none = failure := hfailure
    dsimp only at hfiles hinput hrun
    have houtline : world'.files.outline = world.files.outline := by
      rw [hfiles, settings.outline_overwrite]
    obtain ⟨hfiles', hfailure', hinput'⟩ := has world' houtline (hinput rfl)
    rw [hfiles, ← settings.overwrite_append] at hfiles'
    refine ⟨?_, ?_, ?_⟩
    · rw [hrun]
      exact hfiles'
    · rw [hrun, failure?_map]
      exact hfailure'
    · rw [hrun]
      exact hinput'

/-! ## The steps of the command line -/

theorem run_alignInput (settings : Settings) (options : Options) (world : World) :
    world.run (alignInput World.host settings options) =
      match world.input.read with
      | .ok t =>
        (.ok (decide (format options t ≠ t)), { world with
          input := .text []
          output := if settings.check then world.output else world.output ++ format options t
          errors := if settings.check && decide (format options t ≠ t) then
            world.errors ++ needsAlignment "<stdin>".toList else world.errors })
      | .error e => (.error (.input e), { world with input := .text [] }) := by
  have hread : world.run (attempt .input World.host.readInput) =
      ((world.readInput).1.mapError .input, (world.readInput).2) := run_attempt _ _ _
  unfold alignInput
  rw [run_bind, hread]
  unfold readInput
  cases world.input.read with
  | error e => rfl
  | ok t =>
    dsimp only [Except.mapError]
    cases settings.check with
    | true => cases decide (format options t ≠ t) <;> rfl
    | false => rfl

theorem takes_alignInput :
    Takes settings options world (alignInput World.host settings options)
      (world.files.visitPath world.input ['-']) (.text []) := by
  have hrun := run_alignInput settings options world
  have hdash : Path.same ['-'] ['-'] = true := by decide
  unfold FileTree.visitPath
  rw [hdash, if_pos rfl]
  cases hinput : world.input.read with
  | error e =>
    rw [hinput] at hrun
    refine ⟨?_, ?_, fun h => by cases h⟩
    · rw [hrun, settings.overwrite_nil]
    · rw [hrun]
      rfl
  | ok t =>
    rw [hinput] at hrun
    refine ⟨?_, ?_, fun _ => ?_⟩
    · rw [hrun, settings.overwrite_nil]
    · rw [hrun]
      rfl
    · rw [hrun]

section
variable (hboth : settings.write = true → settings.check = false)
include hboth

theorem takes_alignFile (path : Path) :
    Takes settings options world (alignFile World.host settings options path)
      (world.files.visitFile path) world.input := by
  have hrun := run_alignFile settings options world path
  unfold FileTree.visitFile
  cases hread : world.files.read path with
  | error e =>
    rw [hread] at hrun
    refine ⟨?_, ?_, fun h => by cases h⟩
    · rw [hrun, settings.overwrite_nil]
    · rw [hrun]
      rfl
  | ok t =>
    rw [hread] at hrun
    have halign : (world.align settings options path).files =
          settings.overwrite options world.files [path] ∧
        (world.align settings options path).input = world.input := by
      unfold align Settings.overwrite
      rw [hread]
      cases hwrite : settings.write with
      | true =>
        rw [hboth hwrite]
        exact ⟨rfl, rfl⟩
      | false =>
        cases settings.check with
        | false => exact ⟨rfl, rfl⟩
        | true => cases world.files.unaligned options path <;> exact ⟨rfl, rfl⟩
    refine ⟨?_, ?_, fun _ => ?_⟩
    · rw [hrun]
      exact halign.1
    · rw [hrun]
      rfl
    · rw [hrun]
      exact halign.2

theorem takes_alignFiles (files : List Path) :
    Takes settings options world (anyChanged (alignFile World.host settings options) files)
      (world.files.visitFiles files) world.input := by
  induction files generalizing world with
  | nil => exact ⟨(settings.overwrite_nil options world.files).symm, rfl, fun _ => rfl⟩
  | cons path files ih =>
    refine Takes.cons (takes_alignFile hboth path) fun world' houtline hinput => ?_
    rw [← FileTree.visitFiles_eq_of_outline houtline, ← hinput]
    exact ih

theorem takes_alignPath (path : Path) :
    Takes settings options world (alignPath World.host settings options path)
      (world.files.visitPath world.input path) (FileTree.inputBehind world.input path) := by
  unfold FileTree.inputBehind
  cases hdash : Path.same path ['-'] with
  | true =>
    have hvisit : world.files.visitPath world.input path =
        world.files.visitPath world.input ['-'] := by
      unfold FileTree.visitPath
      rw [hdash, if_pos rfl, if_pos (by decide)]
    unfold alignPath
    rw [hdash, if_pos rfl, if_pos rfl, hvisit]
    exact takes_alignInput
  | false =>
    have hrun : world.run (alignPath World.host settings options path) = _ := run_alignPath hdash
    unfold FileTree.visitPath
    rw [hdash, if_neg Bool.false_ne_true, if_neg Bool.false_ne_true]
    cases hfiles : world.files.filesAt path with
    | error e =>
      rw [hfiles] at hrun
      refine ⟨?_, ?_, fun h => by cases h⟩
      · rw [hrun, settings.overwrite_nil]
      · rw [hrun]
        rfl
    | ok files =>
      rw [hfiles] at hrun
      have htakes : Takes settings options world _ _ _ := takes_alignFiles hboth files
      obtain ⟨hfiles, hfailure, hinput⟩ := htakes
      dsimp only at hrun ⊢
      rw [← hrun] at hfiles hfailure hinput
      exact ⟨hfiles, hfailure, hinput⟩

theorem takes_alignPaths (paths : List Path) :
    Takes settings options world (anyChanged (alignPath World.host settings options) paths)
      (world.files.course world.input paths)
      (paths.foldl FileTree.inputBehind world.input) := by
  induction paths generalizing world with
  | nil => exact ⟨(settings.overwrite_nil options world.files).symm, rfl, fun _ => rfl⟩
  | cons path paths ih =>
    refine Takes.cons (takes_alignPath hboth path) fun world' houtline hinput => ?_
    rw [← FileTree.course_eq_of_outline houtline, List.foldl_cons, ← hinput]
    exact ih

end

theorem run_alignAll_of_error {failure : Failure}
    (h : world.files.optionsFrom settings.config = .error failure) :
    world.run (alignAll World.host settings) = (.error failure, world) := by
  unfold alignAll
  rw [run_bind, run_loadOptions, h]

/-- A whole run takes the course of its sources. -/
theorem takes_alignAll (hboth : settings.write = true → settings.check = false)
    (hoptions : world.files.optionsFrom settings.config = .ok options) :
    ∃ rest, Takes settings options world (alignAll World.host settings)
      (world.files.course world.input settings.sources) rest := by
  unfold Settings.sources
  by_cases hpaths : settings.paths = []
  · have hrun : world.run (alignAll World.host settings) =
        world.run (alignInput World.host settings options) := by
      unfold alignAll
      rw [run_bind, run_loadOptions, hoptions]
      dsimp only
      rw [hpaths]
      rfl
    have htakes : Takes settings options world _ _ _ := takes_alignInput
    obtain ⟨hfiles, hfailure, hinput⟩ := htakes
    rw [← hrun] at hfiles hfailure hinput
    rw [if_pos hpaths, FileTree.course, FileTree.course, Course.andThen_empty]
    exact ⟨_, hfiles, hfailure, hinput⟩
  · have hrun := run_alignAll settings world hpaths
    rw [hoptions] at hrun
    have htakes : Takes settings options world _ _ _ := takes_alignPaths hboth settings.paths
    obtain ⟨hfiles, hfailure, hinput⟩ := htakes
    dsimp only at hrun
    rw [← hrun] at hfiles hfailure hinput
    rw [if_neg hpaths]
    exact ⟨_, hfiles, hfailure, hinput⟩

/-! ## Whole runs -/

/-- Without a run, files stay as they are. -/
theorem files_execute_of_ne {arguments : List Text}
    (h : ∀ settings, Invocation.ofArguments arguments ≠ .run settings) (world : World) :
    (world.execute arguments).2.files = world.files := by
  unfold execute InsertLayout.execute
  cases harguments : Invocation.ofArguments arguments with
  | run settings => exact absurd harguments (h settings)
  | help => rfl
  | version => rfl
  | misuse reason => rfl

/-- The course of a run in a world. -/
def course (world : World) (settings : Settings) : Course :=
  world.files.course world.input settings.sources

section
variable {arguments : List Text} (harguments : Invocation.ofArguments arguments = .run settings)
include harguments

/-- A run leaves the files that its steps leave, and its exit code is 2 exactly if these fail. -/
theorem execute_run (world : World) :
    (world.execute arguments).2.files = (world.run (alignAll World.host settings)).2.files ∧
      ((world.execute arguments).1 = 2 ↔
        failure? (world.run (alignAll World.host settings)).1 ≠ none) := by
  rw [execute_eq harguments]
  obtain ⟨result, world'⟩ := world.run (alignAll World.host settings)
  cases result with
  | error failure => simp [failure?]
  | ok changed =>
    refine ⟨rfl, ?_⟩
    dsimp only [failure?]
    split <;> simp

theorem execute_of_error {failure : Failure}
    (h : world.files.optionsFrom settings.config = .error failure) :
    (world.execute arguments).1 = 2 ∧ (world.execute arguments).2.files = world.files := by
  obtain ⟨hfiles, hexit⟩ := execute_run harguments world
  rw [hfiles, hexit, run_alignAll_of_error h]
  simp [failure?]

theorem execute_of_ok (h : world.files.optionsFrom settings.config = .ok options) :
    ((world.execute arguments).1 = 2 ↔ (world.course settings).failure ≠ none) ∧
      (world.execute arguments).2.files =
        settings.overwrite options world.files (world.course settings).files := by
  obtain ⟨hfiles, hexit⟩ := execute_run harguments world
  have hboth := Invocation.check_eq_false_of_write harguments
  obtain ⟨rest, hcourse, hfailure, -⟩ := takes_alignAll hboth h
  rw [hfiles, hexit, hcourse, hfailure]
  exact ⟨Iff.rfl, rfl⟩

theorem files_execute_of_not_write (hwrite : settings.write = false) :
    (world.execute arguments).2.files = world.files := by
  cases hoptions : world.files.optionsFrom settings.config with
  | error failure => exact (execute_of_error harguments hoptions).2
  | ok options =>
    rw [(execute_of_ok harguments hoptions).2, Settings.overwrite, hwrite]
    rfl

end

/-- Without the flag to overwrite them, no file is changed. With it, the files of the course are
formatted one after another, each as it stands by then, and no other file is changed: the sources
are gone through in their order, the files of a directory in the order of their paths, up to the
first source or file that fails. No file is changed if the options cannot be loaded, and none on
account of a directory that cannot be walked, or of a source behind it. The exit code is 2 after a
failure of any kind, and only then. -/
theorem execute_effects (world : World) (arguments : List Text) :
    ((∀ settings, Invocation.ofArguments arguments = .run settings → settings.write = false) →
      (world.execute arguments).2.files = world.files) ∧
    ∀ settings, Invocation.ofArguments arguments = .run settings →
      Invocation.Reads arguments settings ∧
      (∀ failure, world.files.optionsFrom settings.config = .error failure →
        (world.execute arguments).1 = 2 ∧ (world.execute arguments).2.files = world.files) ∧
      ∀ options, world.files.optionsFrom settings.config = .ok options →
        ((world.execute arguments).1 = 2 ↔ (world.course settings).failure ≠ none) ∧
        (settings.write = true →
          (world.execute arguments).2.files =
              (world.course settings).files.foldl (FileTree.formatAt options) world.files ∧
            ∀ location, (world.execute arguments).2.files.entry? location =
              (world.files.entry? location).map (Entry.format options)^[
                (world.course settings).files.countP (world.files.leadsTo location)]) ∧
        (∀ file ∈ (world.course settings).files, ∃ t, world.files.read file = .ok t) ∧
        (∀ source, world.files.StandsFor source) ∧
        ∀ before source after e, settings.sources = before ++ source :: after →
          Path.same source ['-'] = false → world.files.filesAt source = .error e →
            (world.course settings).files = (world.files.course world.input before).files ∧
              (world.course settings).failure ≠ none := by
  refine ⟨fun hwrite => ?_, fun settings harguments => ?_⟩
  · by_cases h : ∃ settings, Invocation.ofArguments arguments = .run settings
    · obtain ⟨settings, harguments⟩ := h
      exact files_execute_of_not_write harguments (hwrite settings harguments)
    · exact files_execute_of_ne (not_exists.1 h) world
  · refine ⟨Invocation.reads_of_ofArguments harguments,
      fun failure => execute_of_error harguments, fun options hoptions => ?_⟩
    obtain ⟨hexit, hfiles⟩ := execute_of_ok harguments hoptions
    refine ⟨hexit, fun hwrite => ?_, fun file hfile => ?_, world.files.standsFor, ?_⟩
    · have hfold : (world.execute arguments).2.files =
          (world.course settings).files.foldl (FileTree.formatAt options) world.files := by
        rw [hfiles, Settings.overwrite, hwrite, if_pos rfl]
      refine ⟨hfold, fun location => ?_⟩
      rw [hfold]
      exact FileTree.entry?_foldl_formatAt_count _ location
    · exact FileTree.exists_read_of_mem_course hfile
    · intro before source after e hsources hdash hwalk
      unfold course
      rw [hsources]
      exact FileTree.course_of_walkError hdash hwalk world.input before after

/-- A text that formatting changes twice, a directory with two files of statements and another one,
and a directory with a link to itself. -/
def interrupted : World where
  files := {
    entries := [
      (["x".toList], .file (.text "INSERT INTO t (a)` VALUES (x), b) VALUES (1);".toList)),
      (["d".toList], .directory {}),
      (["d".toList, "b.sql".toList], .file (.text "insert into t(a) values (1);".toList)),
      (["d".toList, "n.txt".toList], .file (.text "insert into t(a) values (2);".toList)),
      (["d".toList, "a.sql".toList], .file (.text "insert into t(a) values (3);".toList)),
      (["e".toList], .directory {}),
      (["e".toList, "a.sql".toList], .file (.text "insert into t(a) values (4);".toList)),
      (["e".toList, "b.sql".toList], .link ".".toList),
      (["y".toList], .file (.text "insert into t(a) values (5);".toList))]
    nodup := by decide +kernel
    isName := by decide +kernel }

/-- The text twice, the two directories, and another text behind them. -/
def interruptedSettings : Settings :=
  { write := true, paths := ["x".toList, "d".toList, "x".toList, "/e".toList, "y".toList] }

/-- The files that are visited before the walk comes to the link. -/
theorem course_interrupted : interrupted.course interruptedSettings =
    { files := ["x".toList, "d/a.sql".toList, "d/b.sql".toList, "x".toList],
      failure := some (.walk "/e".toList (.loop "/e/b.sql".toList "/e".toList)) } := by
  cbv

/-- The text that is named twice is formatted twice, the files in the directory once, and nothing is
changed in the directory with the link or behind it. Nothing at all is changed without the flag, or
with options that cannot be loaded. -/
theorem execute_effects_interrupted :
    let run := interrupted.execute
      ["x".toList, "d".toList, "-w".toList, "x".toList, "/e".toList, "y".toList]
    run.1 = 2 ∧
      run.2.files.entry? ["x".toList] = some (.file (.text
        "INSERT INTO t\n(`a`)\nVALUES\n(x)`, `b`)\nVALUES\n(              1);".toList)) ∧
      run.2.files.entry? ["d".toList, "a.sql".toList] =
        some (.file (.text "insert into t\n(`a`)\nvalues\n(  3);".toList)) ∧
      run.2.files.entry? ["d".toList, "b.sql".toList] =
        some (.file (.text "insert into t\n(`a`)\nvalues\n(  1);".toList)) ∧
      (∀ location, location ∉
        [["x".toList], ["d".toList, "a.sql".toList], ["d".toList, "b.sql".toList]] →
          run.2.files.entry? location = interrupted.files.entry? location) ∧
      interrupted.files.Listing "d".toList ["d/a.sql".toList, "d/b.sql".toList] ∧
      interrupted.files.Fault "/e".toList (.loop "/e/b.sql".toList "/e".toList) ∧
      (interrupted.execute ["x".toList, "d".toList]).2.files = interrupted.files ∧
      (interrupted.execute ["-wc".toList, "o".toList, "d".toList]).1 = 2 ∧
      (interrupted.execute ["-wc".toList, "o".toList, "d".toList]).2.files = interrupted.files := by
  intro run
  have harguments : Invocation.ofArguments
      ["x".toList, "d".toList, "-w".toList, "x".toList, "/e".toList, "y".toList] =
        .run interruptedSettings := by decide +kernel
  obtain ⟨-, -, heffects⟩ := (execute_effects interrupted _).2 _ harguments
  obtain ⟨hexit, hwritten, -, hstands, hstops⟩ := heffects {} rfl
  obtain ⟨-, hentries⟩ := hwritten rfl
  rw [course_interrupted] at hentries
  have hlisted : interrupted.files.filesAt "d".toList =
      .ok ["d/a.sql".toList, "d/b.sql".toList] := by cbv
  have hfault : interrupted.files.filesAt "/e".toList =
      .error (.loop "/e/b.sql".toList "/e".toList) := by cbv
  obtain ⟨-, hfails⟩ := hstops ["x".toList, "d".toList, "x".toList] "/e".toList ["y".toList] _ rfl
    (by decide) hfault
  have hbare : Invocation.ofArguments ["x".toList, "d".toList] =
      .run { paths := ["x".toList, "d".toList] } := by decide +kernel
  have hmissing : Invocation.ofArguments ["-wc".toList, "o".toList, "d".toList] =
      .run { write := true, config := some "o".toList, paths := ["d".toList] } := by decide +kernel
  obtain ⟨-, hunloaded, -⟩ := (execute_effects interrupted _).2 _ hmissing
  refine ⟨hexit.2 hfails, ?_, ?_, ?_, fun location hother => ?_,
    (hstands _).listing (by decide +kernel) _ hlisted,
    (hstands _).fault (by decide +kernel) _ hfault,
    (execute_effects interrupted _).1 fun settings h => ?_,
    hunloaded (.config "o".toList (.file .notFound)) (by cbv)⟩
  · rw [hentries]
    decide +kernel
  · rw [hentries]
    decide +kernel
  · rw [hentries]
    decide +kernel
  · have hplaces : ∀ path ∈ ["x", "d/a.sql", "d/b.sql", "x"].map String.toList,
        interrupted.files.resolve path ∈ [["x".toList], ["d".toList, "a.sql".toList],
          ["d".toList, "b.sql".toList]].map Except.ok := by decide +kernel
    rw [hentries, List.countP_eq_zero.2 fun path hpath hleads => ?_]
    · exact congrFun Option.map_id _
    · have hplace := hplaces path hpath
      rw [FileTree.leadsTo_iff.1 hleads] at hplace
      exact hother (by simpa using hplace)
  · rw [← Invocation.run.inj (hbare.symm.trans h)]

end World

end InsertLayout
