import InsertLayout.Path

/-!
# File trees

The files, directories and symbolic links of a machine, each under the names that lead to it from
the root, and the working directory, which relative paths start at. `FileTree.resolve` follows a
path, through links, to a file or a directory or says why there is none; reading and writing a file
go through it. Files need not be readable, and directories may refuse to list their names or to let
paths pass.
-/

set_option autoImplicit false

namespace InsertLayout

/-- Why a file or a directory cannot be used. -/
inductive FileError where
  | notFound
  | denied
  | notDirectory
  | isDirectory
  | nameTooLong
  | linkLoop
  | notText
  /-- Any other reason, in words. -/
  | other (description : Text)
  deriving DecidableEq

/-- The wording of an error. -/
def FileError.message : FileError → Text
  | notFound => "No such file or directory (os error 2)".toList
  | denied => "Permission denied (os error 13)".toList
  | notDirectory => "Not a directory (os error 20)".toList
  | isDirectory => "Is a directory (os error 21)".toList
  | nameTooLong => "File name too long (os error 36)".toList
  | linkLoop => "Too many levels of symbolic links (os error 40)".toList
  | notText => "stream did not contain valid UTF-8".toList
  | other description => description

/-- The content of a file or a stream: a text, bytes that encode none, or what cannot be read. -/
inductive Content where
  | text (t : Text)
  | binary (bytes : List UInt8)
  | unreadable (reason : FileError)
  deriving DecidableEq

/-- The text of a content. -/
def Content.read : Content → Except FileError Text
  | text t => .ok t
  | binary _ => .error .notText
  | unreadable reason => .error reason

/-- The names that lead from the root to an entry, without links. -/
abbrev Location := List Text

/-- What a directory refuses, and why. -/
structure Access where
  /-- Why its names cannot be listed, if so. -/
  listing : Option FileError := none
  /-- Why no path leads through it, if so. -/
  passage : Option FileError := none
  deriving DecidableEq

/-- What stands at a location. -/
inductive Entry where
  | file (content : Content)
  | directory (access : Access)
  | link (target : Path)
  deriving DecidableEq

/-- Whether a text can name an entry of a directory. -/
def IsName (t : Text) : Prop := t ≠ [] ∧ t ≠ ['.'] ∧ t ≠ ['.', '.'] ∧ '/' ∉ t

instance : DecidablePred IsName := fun t => by
  unfold IsName
  infer_instance

/-- What stands at the locations below the root, one entry at each, and the working directory. -/
@[ext]
structure FileTree where
  entries : List (Location × Entry)
  workingDirectory : Location := []
  nodup : (entries.map Prod.fst).Nodup
  isName : ∀ p ∈ entries, ∀ name ∈ p.1, IsName name

namespace FileTree

/-- The tree without entries. -/
def empty : FileTree where
  entries := []
  nodup := List.nodup_nil
  isName := fun _ h => nomatch h

/-- What stands at a location; the root is at the location without names. -/
def entry? (tree : FileTree) (location : Location) : Option Entry :=
  if location = [] then some (.directory {}) else tree.entries.lookup location

/-- What the directory at a location refuses, if there is one. -/
def access? (tree : FileTree) (location : Location) : Option Access :=
  match tree.entry? location with
  | some (.directory access) => some access
  | _ => none

/-! ## Building trees -/

/-- The tree with an entry at a location, in place of what stood there. -/
def put (tree : FileTree) (location : Location) (entry : Entry) : FileTree :=
  if h : ∀ name ∈ location, IsName name then
    { tree with
      entries := (location, entry) :: tree.entries.filter (·.1 ≠ location)
      nodup := by
        refine List.nodup_cons.2
          ⟨fun hmem => ?_, tree.nodup.sublist (List.filter_sublist.map Prod.fst)⟩
        obtain ⟨p, hp, heq⟩ := List.mem_map.1 hmem
        exact of_decide_eq_true (List.mem_filter.1 hp).2 heq
      isName := by
        intro p hp
        rcases List.mem_cons.1 hp with rfl | hp
        · exact h
        · exact tree.isName p (List.mem_filter.1 hp).1 }
  else tree

/-- The tree with directories at the locations that names lead to from a directory on. -/
def makeDirectories (tree : FileTree) (base : Location) : List Text → FileTree
  | [] => tree
  | name :: names =>
    let location := base ++ [name]
    let tree := if (tree.entry? location).isSome then tree else tree.put location (.directory {})
    makeDirectories tree location names

/-- The names on a path. -/
def namesOf (path : Path) : List Text :=
  path.components.filterMap fun
    | .name t => some t
    | _ => none

/-- The tree with a directory at the end of a path, and with the directories before it. -/
def addDirectory (tree : FileTree) (path : Path) : FileTree :=
  tree.makeDirectories [] (namesOf path)

/-- The tree with an entry at the end of a path, and with the directories before it. -/
def add (tree : FileTree) (path : Path) (entry : Entry) : FileTree :=
  let names := namesOf path
  (tree.makeDirectories [] names.dropLast).put names entry

/-- The tree with each entry replaced by one for its location. -/
def mapEntries (f : Location → Entry → Entry) (tree : FileTree) : FileTree where
  entries := tree.entries.map fun p => (p.1, f p.1 p.2)
  workingDirectory := tree.workingDirectory
  nodup := by
    rw [List.map_map]
    exact tree.nodup
  isName := by
    intro p hp
    obtain ⟨q, hq, rfl⟩ := List.mem_map.1 hp
    exact tree.isName q hq

/-- The tree with another entry where one stands. -/
def replace (tree : FileTree) (location : Location) (entry : Entry) : FileTree :=
  tree.mapEntries fun l e => if l = location then entry else e

/-! ## Following paths -/

/-- The greatest size of a name, in bytes. -/
def maxName : Nat := 255

/-- The size that a path must stay below, in bytes. -/
def pathLimit : Nat := 4096

/-- The greatest number of links on the way to an entry. -/
def maxLinks : Nat := 40

/-- Where a path starts that is followed from a directory: there, or at the root. -/
def startOf (directory : Location) (path : Path) : Location :=
  if path.head? = some '/' then [] else directory

/-- Where one text between slashes leads. -/
inductive Stride where
  /-- To a location. -/
  | arrive (location : Location)
  /-- To a link: from a location on, along the texts of the link. -/
  | along (start : Location) (segments : List Text)

/-- Follows one text between the slashes of a path from a location on. -/
def stride (tree : FileTree) (location : Location) (segment : Text) : Except FileError Stride :=
  match tree.access? location with
  | none => .error .notDirectory
  | some access =>
    if segment = [] then .ok (.arrive location)
    else match access.passage with
      | some reason => .error reason
      | none =>
        if segment = ['.'] then .ok (.arrive location)
        -- The root has no last name, so it is its own parent.
        else if segment = ['.', '.'] then .ok (.arrive location.dropLast)
        else if maxName < segment.byteLength then .error .nameTooLong
        else match tree.entry? (location ++ [segment]) with
          | none => .error .notFound
          | some (.link target) =>
            .ok (.along (startOf location target) (Path.segments target))
          | some _ => .ok (.arrive (location ++ [segment]))

/-- Follows the texts between the slashes of a path from a location on; `jump` goes on from a
location with the texts of a link and those behind it. -/
def followWith (tree : FileTree) (jump : Location → List Text → Except FileError Location)
    (location : Location) : List Text → Except FileError Location
  | [] => .ok location
  | segment :: segments =>
    match tree.stride location segment with
    | .error e => .error e
    | .ok (.arrive next) => followWith tree jump next segments
    | .ok (.along start texts) => jump start (texts ++ segments)

/-- Follows the texts between the slashes of a path, through at most as many links. -/
def follow (tree : FileTree) : Nat → Location → List Text → Except FileError Location
  | 0 => tree.followWith fun _ _ => .error .linkLoop
  | links + 1 => tree.followWith (follow tree links)

/-- The location of the file or directory at the end of a path. -/
def resolve (tree : FileTree) (path : Path) : Except FileError Location :=
  if path = [] then .error .notFound
  else if pathLimit ≤ path.byteLength then .error .nameTooLong
  else tree.follow maxLinks (startOf tree.workingDirectory path) (Path.segments path)

/-- Whether a path leads to a directory. -/
def isDirectory (tree : FileTree) (path : Path) : Bool :=
  match tree.resolve path with
  | .ok location => (tree.access? location).isSome
  | .error _ => false

/-! ## Contents -/

/-- The text of the file at the end of a path. -/
def read (tree : FileTree) (path : Path) : Except FileError Text :=
  match tree.resolve path with
  | .error e => .error e
  | .ok location =>
    match tree.entry? location with
    | some (.file content) => content.read
    | some (.directory access) => .error (access.listing.getD .isDirectory)
    | _ => .error .notFound

/-- The tree after a text has been written to the file at the end of a path. -/
def write (tree : FileTree) (path : Path) (t : Text) : Except FileError FileTree :=
  match tree.resolve path with
  | .error e => .error e
  | .ok location =>
    match tree.entry? location with
    | some (.file _) => .ok (tree.replace location (.file (.text t)))
    | _ => .error .isDirectory

end FileTree

end InsertLayout
