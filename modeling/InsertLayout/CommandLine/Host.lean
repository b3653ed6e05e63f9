import InsertLayout.FileTree.Walk

/-!
# Hosts

What a run of the command line needs from its surroundings: the two output streams, the input
stream, and files. A run is written for any host; `World` is the one that consists of a file tree,
the input that has not been read yet and the output so far.
-/

set_option autoImplicit false

namespace InsertLayout

/-- The surroundings of a run. -/
structure Host (m : Type → Type) where
  /-- The text of the input stream that has not been read yet. -/
  readInput : m (Except FileError Text)
  /-- Whether a path leads to a directory. -/
  isDirectory : Path → m Bool
  /-- The files of statements in a directory, in the order of their paths. -/
  sqlFiles : Path → m (Except WalkError (List Path))
  read : Path → m (Except FileError Text)
  write : Path → Text → m (Except FileError Unit)
  /-- Writes to the output stream. -/
  print : Text → m Unit
  /-- Writes to the error stream. -/
  report : Text → m Unit

/-- Files and streams as they are at some time of a run. -/
structure World where
  files : FileTree
  input : Content := .text []
  output : Text := []
  errors : Text := []

namespace World

/-- Reads the input to its end. -/
def readInput (world : World) : Except FileError Text × World :=
  (world.input.read, { world with input := .text [] })

/-- Writes a file. -/
def write (world : World) (path : Path) (t : Text) : Except FileError Unit × World :=
  match world.files.write path t with
  | .ok files => (.ok (), { world with files })
  | .error e => (.error e, world)

/-- The host whose surroundings are a world. -/
def host : Host (StateM World) where
  readInput := fun world => world.readInput
  isDirectory path := fun world => (world.files.isDirectory path, world)
  sqlFiles path := fun world => (world.files.sqlFiles path, world)
  read path := fun world => (world.files.read path, world)
  write path t := fun world => world.write path t
  print t := fun world => ((), { world with output := world.output ++ t })
  report t := fun world => ((), { world with errors := world.errors ++ t })

end World

end InsertLayout
