import InsertLayout.Text.Basic

/-!
# Paths

A path names a file by the names to follow, with a slash between each two. `Path.components` takes
it apart; empty names and dots count for nothing except a dot at the start. Two paths are the same
and are compared component by component. `Path.isSql` says which files of a directory are taken.
-/

set_option autoImplicit false

namespace InsertLayout

/-- A path as it is written. -/
abbrev Path := Text

namespace Path

/-- A step along a path. -/
inductive Component where
  /-- The slash at the start of an absolute path. -/
  | root
  /-- The dot at the start of a relative path. -/
  | current
  | parent
  | name (text : Text)
  deriving DecidableEq

/-- The texts between the slashes. -/
def segments : Text → List Text
  | [] => [[]]
  | c :: t =>
    if c = '/' then [] :: segments t
    else match segments t with
      | [] => [[c]]
      | s :: rest => (c :: s) :: rest

/-- The step that a text between slashes stands for, if it stands for one. -/
def component? (t : Text) : Option Component :=
  if t = [] ∨ t = ['.'] then none
  else if t = ['.', '.'] then some .parent
  else some (.name t)

/-- The steps of a path. -/
def components (path : Path) : List Component :=
  let first : List Component := match segments path with
    | [] :: _ :: _ => [.root]
    | ['.'] :: _ => [.current]
    | _ => []
  first ++ (segments path).filterMap component?

/-- Whether two paths have the same steps. -/
def same (p q : Path) : Bool := p.components = q.components

/-- The path to an entry of the directory that a path leads to. -/
def child (path : Path) (name : Text) : Path :=
  match path.getLast? with
  | none | some '/' => path ++ name
  | some _ => path ++ '/' :: name

/-! ## Order -/

/-- Whether a text comes before another one or equals it, by code points. -/
def textLe : Text → Text → Bool
  | [], _ => true
  | _ :: _, [] => false
  | a :: s, b :: t => if a = b then textLe s t else a.toNat < b.toNat

/-- Whether a step comes before another one or equals it; names come behind all other steps. -/
def Component.le : Component → Component → Bool
  | root, _ => true
  | current, root => false
  | current, _ => true
  | parent, root | parent, current => false
  | parent, _ => true
  | name s, name t => textLe s t
  | name _, _ => false

/-- Whether a list of steps comes before another one or equals it, step by step. -/
def componentsLe : List Component → List Component → Bool
  | [], _ => true
  | _ :: _, [] => false
  | a :: s, b :: t => if a = b then componentsLe s t else a.le b

/-- Whether a path comes before another one or has the same steps. -/
def le (p q : Path) : Bool := componentsLe p.components q.components

/-! ## Names -/

/-- The name of the file that a path leads to, if its last step is a name. -/
def fileName? (path : Path) : Option Text :=
  match path.components.getLast? with
  | some (.name t) => some t
  | _ => none

/-- What stands behind the last dot of a name, if something stands before it. -/
def extension? (name : Text) : Option Text :=
  let reversed := name.reverse
  match reversed.dropWhile (· != '.') with
  | _ :: _ :: _ => some (reversed.takeWhile (· != '.')).reverse
  | _ => none

/-- Whether a path names a file of statements: its extension is `sql`, in any case. -/
def isSql (path : Path) : Bool :=
  match path.fileName?.bind extension? with
  | some extension => extension.map Char.toLower == ['s', 'q', 'l']
  | none => false

end Path

end InsertLayout
