import InsertLayout.Path

/-!
# Arguments

The arguments of the command line are flags, an option with a value, and paths.
`Invocation.ofArguments` reads them from left to right: a request for help or for the version
holds as soon as it is reached, and the first argument that cannot be accepted ends the reading.
Flags of one letter may be written together, and behind a lone `--` every argument is a path.
-/

set_option autoImplicit false

namespace InsertLayout

/-- What a run is to do. -/
structure Settings where
  /-- Whether files that change are overwritten. -/
  write : Bool := false
  /-- Whether files that would change are reported and nothing else. -/
  check : Bool := false
  /-- The file with the options. -/
  config : Option Path := none
  paths : List Path := []
  deriving DecidableEq

/-- Why arguments are not accepted. -/
inductive Misuse where
  | unexpected (argument : Text)
  | repeated (option : Text)
  | missingValue (option : Text)
  | unwantedValue (option : Text)
  | conflict
  deriving DecidableEq

/-- What the arguments ask for. -/
inductive Invocation where
  | run (settings : Settings)
  | help
  | version
  | misuse (reason : Misuse)
  deriving DecidableEq

namespace Invocation

/-- What is done with an argument: it may settle the invocation, or leave settings that the
remaining arguments add to. -/
abbrev Reading := Except Invocation

/-- Refuses an argument. -/
def refuse {α : Type} (reason : Misuse) : Reading α := .error (.misuse reason)

/-- Sets the flag to overwrite files. -/
def setWrite (settings : Settings) : Reading Settings :=
  if settings.write then refuse (.repeated "--write".toList)
  else .ok { settings with write := true }

/-- Sets the flag to report files. -/
def setCheck (settings : Settings) : Reading Settings :=
  if settings.check then refuse (.repeated "--check".toList)
  else .ok { settings with check := true }

/-- Sets the file with the options; its path is not empty. -/
def setConfig (settings : Settings) (path : Path) : Reading Settings :=
  if settings.config.isSome then refuse (.repeated "--config <CONFIG>".toList)
  else if path.isEmpty then refuse (.missingValue "--config <CONFIG>".toList)
  else .ok { settings with config := some path }

/-- Adds a path, which is not empty. -/
def addPath (settings : Settings) (path : Path) : Reading Settings :=
  if path.isEmpty then refuse (.missingValue "[FILES]...".toList)
  else .ok { settings with paths := settings.paths ++ [path] }

/-- Settings, and whether the next argument is the value of the option. -/
@[ext]
structure Progress where
  settings : Settings
  awaitsValue : Bool := false

/-- The progress after an argument that needs no value. -/
def complete (settings : Reading Settings) : Reading Progress :=
  settings.map fun settings => { settings }

/-- A long flag, without its dashes: a name, and a value behind an equals sign. -/
def readLong (settings : Settings) (flag : Text) : Reading Progress :=
  let name := flag.takeWhile (· != '=')
  let value := (flag.dropWhile (· != '=')).tail?
  let plain (act : Reading Progress) : Reading Progress :=
    if value.isSome then refuse (.unwantedValue ("--".toList ++ name)) else act
  if name = "write".toList then plain (complete (setWrite settings))
  else if name = "check".toList then plain (complete (setCheck settings))
  else if name = "help".toList then plain (.error .help)
  else if name = "version".toList then plain (.error .version)
  else if name = "config".toList then
    match value with
    | some path => complete (setConfig settings path)
    | none => .ok { settings, awaitsValue := true }
  else refuse (.unexpected ("--".toList ++ flag))

/-- Flags of one letter, written together behind one dash; what follows the letter of the option is
its value, with or without an equals sign before it. -/
def readShort (settings : Settings) : Text → Reading Progress
  | [] => .ok { settings }
  | 'w' :: flags =>
    match setWrite settings with
    | .ok settings => readShort settings flags
    | .error e => .error e
  | 'h' :: _ => .error .help
  | 'V' :: _ => .error .version
  | ['c'] => .ok { settings, awaitsValue := true }
  | 'c' :: '=' :: path => complete (setConfig settings path)
  | 'c' :: path => complete (setConfig settings path)
  | flag :: _ => refuse (.unexpected ['-', flag])

/-- Reads arguments that are all paths. -/
def readPaths (settings : Settings) : List Text → Reading Settings
  | [] => .ok settings
  | path :: arguments =>
    match addPath settings path with
    | .ok settings => readPaths settings arguments
    | .error e => .error e

/-- Whether an argument is a flag and not a path. -/
def isFlag : Text → Bool
  | '-' :: _ :: _ => true
  | _ => false

/-- One more argument, which is not a lone `--`. -/
def readArgument (progress : Progress) (argument : Text) : Reading Progress :=
  if progress.awaitsValue then
    if isFlag argument then refuse (.missingValue "--config <CONFIG>".toList)
    else complete (setConfig progress.settings argument)
  else match argument with
    | '-' :: '-' :: flag => readLong progress.settings flag
    | '-' :: c :: flags => readShort progress.settings (c :: flags)
    | path => complete (addPath progress.settings path)

/-- Reads arguments one after another. -/
def readAll (progress : Progress) : List Text → Reading Settings
  | [] =>
    if progress.awaitsValue then refuse (.missingValue "--config <CONFIG>".toList)
    else .ok progress.settings
  | argument :: arguments =>
    if argument = ['-', '-'] then
      if progress.awaitsValue then refuse (.missingValue "--config <CONFIG>".toList)
      else readPaths progress.settings arguments
    else match readArgument progress argument with
      | .ok progress => readAll progress arguments
      | .error e => .error e

/-- What the arguments ask for; overwriting and reporting exclude each other. -/
def ofArguments (arguments : List Text) : Invocation :=
  match readAll { settings := {} } arguments with
  | .error invocation => invocation
  | .ok settings =>
    if settings.write && settings.check then .misuse .conflict else .run settings

end Invocation

end InsertLayout
