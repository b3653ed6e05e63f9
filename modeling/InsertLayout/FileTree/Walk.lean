import InsertLayout.FileTree.Basic

/-!
# Walking directories

`FileTree.sqlFiles` lists the files of statements in a directory and in the directories below it,
in the order of their paths. Links are followed to files and to directories; a link back to a
directory that the walk is inside of is an error, and so is a link that leads nowhere or a directory
that cannot be listed. An error anywhere means that there is no list.
-/

set_option autoImplicit false

namespace InsertLayout

/-- Why a directory cannot be walked. -/
inductive WalkError where
  /-- An entry cannot be examined or listed. -/
  | entry (path : Path) (reason : FileError)
  /-- A link leads to a directory that cannot be opened. -/
  | unopened (reason : FileError)
  /-- A link leads back to a directory that it lies in. -/
  | loop (path ancestor : Path)
  deriving DecidableEq

/-- A directory that the walk is inside of. -/
structure Ancestor where
  path : Path
  location : Location

namespace FileTree

/-- The name and the entry, if a location is in a directory. -/
def child? (directory : Location) : Location × Entry → Option (Text × Entry)
  | (location, entry) =>
    match location.getLast? with
    | some name => if location.dropLast = directory then some (name, entry) else none
    | none => none

/-- The entries of a directory with their names, in the order of these. -/
def children (tree : FileTree) (directory : Location) : List (Text × Entry) :=
  (tree.entries.filterMap (child? directory)).mergeSort fun a b => Path.textLe a.1 b.1

/-- The entries of a directory, if they can be listed. -/
def list (tree : FileTree) (directory : Location) : Except FileError (List (Text × Entry)) :=
  match tree.access? directory with
  | none => .error .notDirectory
  | some access =>
    match access.listing with
    | some reason => .error reason
    | none => .ok (tree.children directory)

/-- What a walk does about an entry. -/
inductive Visit where
  | take
  | leave
  | enter (directory : Location)
  | fail (error : WalkError)

/-- What a walk does about a file. -/
def visitNamed (path : Path) : Visit := if path.isSql then .take else .leave

/-- What a walk does about an entry of a directory; `ancestors` are the directories that it is
inside of, the innermost one first. -/
def visit (tree : FileTree) (ancestors : List Ancestor) (path : Path) : Entry → Visit
  -- Only what has to be opened or followed need be there at the end of the path.
  | .file _ => visitNamed path
  | .directory _ =>
    match tree.resolve path with
    | .error e => .fail (.entry path e)
    | .ok location => .enter location
  | .link _ =>
    match tree.resolve path with
    | .error e => .fail (.entry path e)
    | .ok location =>
      match tree.entry? location with
      | some (.file _) => visitNamed path
      | some (.directory access) =>
        match access.listing with
        | some reason => .fail (.unopened reason)
        | none =>
          match ancestors.find? (·.location = location) with
          | some ancestor => .fail (.loop path ancestor.path)
          | none => .enter location
      | _ => .leave

/-- The files of statements that a walk finds at the end of a path; `walk` lists those below a
directory. -/
def Visit.files (path : Path) (walk : Location → Except WalkError (List Path)) :
    Visit → Except WalkError (List Path)
  | take => .ok [path]
  | leave => .ok []
  | enter directory => walk directory
  | fail error => .error error

/-- The files of statements that an entry of a directory stands for. -/
def entryFiles (tree : FileTree) (ancestors : List Ancestor) (path : Path)
    (walk : Path → Location → Except WalkError (List Path)) (child : Text × Entry) :
    Except WalkError (List Path) :=
  let path := path.child child.1
  (tree.visit ancestors path child.2).files path (walk path)

/-- The files of statements below a directory. On the way down, a link leads only to a directory
that the walk is not inside of, and between two links the locations get longer; so `fuel` does not
run out if it starts as `depthBound`. -/
def collect (tree : FileTree) (ancestors : List Ancestor) (path : Path) (directory : Location) :
    Nat → Except WalkError (List Path)
  | 0 => .error (.entry path .linkLoop)
  | fuel + 1 =>
    match tree.list directory with
    | .error reason => .error (.entry path reason)
    | .ok children => do
      let ancestors := ⟨path, directory⟩ :: ancestors
      let found ← children.mapM <| tree.entryFiles ancestors path fun child location =>
        collect tree ancestors child location fuel
      return found.flatten

/-- More than the directories that a walk can be inside of at a time. -/
def depthBound (tree : FileTree) : Nat :=
  let n := tree.entries.length + 2
  n * n

/-- The files of statements in a directory, in the order of their paths. -/
def sqlFiles (tree : FileTree) (path : Path) : Except WalkError (List Path) :=
  match tree.resolve path with
  | .error e => .error (.entry path e)
  | .ok location =>
    (tree.collect [] path location tree.depthBound).map fun paths => paths.mergeSort Path.le

end FileTree

end InsertLayout
