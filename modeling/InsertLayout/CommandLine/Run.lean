import InsertLayout.CommandLine.Arguments
import InsertLayout.CommandLine.Host
import InsertLayout.Document.Format
import InsertLayout.Options.OfJson

/-!
# Runs

A run aligns the input stream or the files that its paths lead to, a directory standing for the
files of statements in it. By default the aligned texts are printed; with `write` the files that
change are overwritten; with `check` they are reported. `execute` is a whole run: its exit code is
2 after a failure, 1 if files that would change have been reported, and 0 otherwise. What was done
before a failure stays done.
-/

set_option autoImplicit false

namespace InsertLayout

/-- Why the options cannot be loaded. -/
inductive ConfigError where
  | file (reason : FileError)
  | options (reason : Options.Error)

/-- Why a run fails. -/
inductive Failure where
  | config (path : Path) (reason : ConfigError)
  | input (reason : FileError)
  | read (path : Path) (reason : FileError)
  | write (path : Path) (reason : FileError)
  | walk (path : Path) (reason : WalkError)

/-! ## Wording -/

/-- A message, and behind it the cause that it ends with, once more. -/
def withCause (message cause : Text) : Text := message ++ ": ".toList ++ cause

/-- The wording of an error, with its cause. -/
def ConfigError.message : ConfigError → Text
  | file reason => withCause ("IO error: ".toList ++ reason.message) reason.message
  | options (.mismatch reason) =>
    withCause (Options.Error.mismatch reason).message reason.message
  | options reason => reason.message

/-- The wording of an error, with its cause. -/
def WalkError.message : WalkError → Text
  | entry path reason =>
    withCause ("IO error for operation on ".toList ++ withCause path reason.message)
      reason.message
  | unopened reason => withCause reason.message reason.message
  | loop path ancestor =>
    "File system loop found: ".toList ++ path ++ " points to an ancestor ".toList ++ ancestor

/-- The wording of a failure, from what was being done down to the cause. -/
def Failure.message : Failure → Text
  | config path reason => withCause ("failed to load options from ".toList ++ path) reason.message
  | input reason => withCause "failed to read stdin".toList reason.message
  | read path reason => withCause ("failed to read ".toList ++ path) reason.message
  | write path reason => withCause ("failed to write ".toList ++ path) reason.message
  | walk path reason => withCause ("failed to walk ".toList ++ path) reason.message

/-- The line that reports a text that would change. -/
def needsAlignment (name : Text) : Text := name ++ ": needs alignment\n".toList

/-- The name of the program and its version. -/
def versionText : Text := "sqlalign 0.1.0\n".toList

/-- How the program is called. -/
def usageText : Text := "Usage: sqlalign [OPTIONS] [FILES]...\n".toList

/-- What the arguments mean. -/
def helpText : Text :=
  ("Quote-aware vertical alignment of SQL INSERT ... VALUES statements\n\n".toList ++ usageText
    ++ ("\nArguments:\n" ++
      "  [FILES]...  Files or directories to align (none or - for stdin)\n\n" ++
      "Options:\n" ++
      "  -w, --write            Write aligned output back to files\n" ++
      "      --check            List files that need alignment without touching them\n" ++
      "  -c, --config <CONFIG>  JSON file with formatting options\n" ++
      "  -h, --help             Print help\n" ++
      "  -V, --version          Print version\n").toList)

/-- The wording of a refusal of the arguments. -/
def Misuse.message : Misuse → Text
  | unexpected argument => "unexpected argument '".toList ++ argument ++ "' found".toList
  | repeated option =>
    "the argument '".toList ++ option ++ "' cannot be used multiple times".toList
  | missingValue option =>
    "a value is required for '".toList ++ option ++ "' but none was supplied".toList
  | unwantedValue option =>
    "unexpected value for '".toList ++ option ++ "' found; no more were expected".toList
  | conflict => "the argument '--write' cannot be used with '--check'".toList

/-! ## Steps of a run -/

section

variable {m : Type → Type} [Monad m]

/-- A step that may end the run. -/
abbrev Step (m : Type → Type) := ExceptT Failure m

/-- The value of an attempt, or the failure that its error amounts to. -/
def attempt {ε α : Type} (failure : ε → Failure) (action : m (Except ε α)) : Step m α :=
  ExceptT.mk do
    match ← action with
    | .ok a => return .ok a
    | .error e => return .error (failure e)

/-- The options in a file, or the default ones. -/
def loadOptions (host : Host m) : Option Path → Step m Options
  | none => return {}
  | some path => do
    let t ← attempt (.config path ∘ .file) (host.read path)
    attempt (.config path ∘ .options) (pure (Options.ofText? t))

/-- Aligns the input stream and tells whether it changed; it cannot be overwritten. -/
def alignInput (host : Host m) (settings : Settings) (options : Options) : Step m Bool := do
  let t ← attempt .input host.readInput
  let aligned := format options t
  let changed := decide (aligned ≠ t)
  if settings.check then
    if changed then host.report (needsAlignment "<stdin>".toList)
  else host.print aligned
  return changed

/-- Aligns a file and tells whether it changed. -/
def alignFile (host : Host m) (settings : Settings) (options : Options) (path : Path) :
    Step m Bool := do
  let t ← attempt (.read path) (host.read path)
  let aligned := format options t
  let changed := decide (aligned ≠ t)
  if settings.check then
    if changed then host.report (needsAlignment path)
  else if settings.write then
    if changed then attempt (.write path) (host.write path aligned)
  else host.print aligned
  return changed

/-- Takes a step for each of several things and tells whether one of them changed something. -/
def anyChanged {α : Type} (step : α → Step m Bool) : List α → Step m Bool
  | [] => return false
  | a :: as => do
    let changed ← step a
    let others ← anyChanged step as
    return changed || others

/-- The files that a path stands for. -/
def filesAt (host : Host m) (path : Path) : Step m (List Path) := do
  if ← host.isDirectory path then attempt (.walk path) (host.sqlFiles path) else return [path]

/-- Aligns what a path stands for, a lone dash being the input stream. -/
def alignPath (host : Host m) (settings : Settings) (options : Options) (path : Path) :
    Step m Bool := do
  if Path.same path ['-'] then alignInput host settings options
  else anyChanged (alignFile host settings options) (← filesAt host path)

/-- Aligns everything that the settings name and tells whether something changed. -/
def alignAll (host : Host m) (settings : Settings) : Step m Bool := do
  let options ← loadOptions host settings.config
  if settings.paths.isEmpty then alignInput host settings options
  else anyChanged (alignPath host settings options) settings.paths

/-! ## Whole runs -/

/-- Carries out a run with the given settings and yields its exit code. -/
def runSettings (host : Host m) (settings : Settings) : m Nat := do
  match ← (alignAll host settings).run with
  | .ok changed => return if settings.check && changed then 1 else 0
  | .error failure => do
    host.report ("Error: ".toList ++ failure.message ++ ['\n'])
    return 2

/-- Carries out what the arguments ask for and yields the exit code. -/
def execute (host : Host m) (arguments : List Text) : m Nat := do
  match Invocation.ofArguments arguments with
  | .run settings => runSettings host settings
  | .help => do
    host.print helpText
    return 0
  | .version => do
    host.print versionText
    return 0
  | .misuse reason => do
    host.report ("error: ".toList ++ reason.message ++ "\n\n".toList ++ usageText
      ++ "\nFor more information, try '--help'.\n".toList)
    return 2

end

end InsertLayout
