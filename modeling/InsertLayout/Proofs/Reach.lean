import InsertLayout.Proofs.Resolution
import Mathlib.Data.Finset.Card
import Mathlib.Data.List.Perm.Basic
import Mathlib.Logic.Relation

/-!
# What can be reached from a directory

A directory `Holds` the paths to its entries. From a directory on, along this relation, lie the
files of statements that its path stands for (`Reaches`) and what stands in the way of a walk
(`Fault`). `visits_visit` says, case by case, what a walk does about an entry. No walk goes deeper
than `FileTree.depthBound`: entering a directory of a directory leaves less below it, and entering
one through a link leaves fewer that the walk is not inside of (`depthLeft_lt_of_entry`,
`depthLeft_lt_of_link`).
-/

set_option autoImplicit false

namespace InsertLayout

open Relation

namespace FileTree

variable {tree : FileTree}

/-! ## Entries of a directory -/

theorem child?_eq_some_iff {directory : Location} {p : Location × Entry} {child : Text × Entry} :
    child? directory p = some child ↔ p = (directory ++ [child.1], child.2) := by
  obtain ⟨location, entry⟩ := p
  obtain ⟨name, entry'⟩ := child
  unfold child?
  rcases List.eq_nil_or_concat location with rfl | ⟨front, last, rfl⟩
  · simp
  · by_cases h : front = directory <;> simp [h]

theorem mem_children_iff {directory : Location} {name : Text} {entry : Entry} :
    (name, entry) ∈ tree.children directory ↔ tree.entry? (directory ++ [name]) = some entry := by
  have hne : directory ++ [name] ≠ [] := by simp
  unfold children
  rw [List.mem_mergeSort, List.mem_filterMap, ← mem_entries_iff hne]
  refine ⟨?_, fun h => ⟨_, h, child?_eq_some_iff.2 rfl⟩⟩
  intro h
  obtain ⟨p, hp, hchild⟩ := h
  exact child?_eq_some_iff.1 hchild ▸ hp

/-- No two entries of a directory have the same name. -/
theorem pairwise_children (tree : FileTree) (directory : Location) :
    (tree.children directory).Pairwise fun a b => a.1 ≠ b.1 := by
  unfold children
  refine (List.mergeSort_perm _ _).symm.pairwise ?_ fun h => h.symm
  rw [List.pairwise_filterMap]
  refine (List.pairwise_map.1 tree.nodup).imp fun hne a ha b hb heq => ?_
  rw [child?_eq_some_iff.1 ha, child?_eq_some_iff.1 hb, heq] at hne
  exact hne rfl

theorem isName_of_entry {directory : Location} {name : Text} {entry : Entry}
    (h : tree.entry? (directory ++ [name]) = some entry) : IsName name :=
  tree.isName _ ((mem_entries_iff (by simp)).2 h) name (by simp)

theorem list_eq_ok_iff {directory : Location} {children : List (Text × Entry)} :
    tree.list directory = .ok children ↔ ∃ access, tree.access? directory = some access ∧
      access.listing = none ∧ children = tree.children directory := by
  unfold list
  cases tree.access? directory with
  | none => simp
  | some access => cases h : access.listing <;> simp [h, eq_comm]

/-! ## What can be reached -/

/-- The directory at the end of a path can be listed and has an entry, and another path is that to
the entry. -/
def Lists (tree : FileTree) (path child : Path) (entry : Entry) : Prop :=
  ∃ directory access name, tree.resolve path = .ok directory ∧
    tree.access? directory = some access ∧ access.listing = none ∧
      tree.entry? (directory ++ [name]) = some entry ∧ child = path.child name

/-- One path leads to an entry of the directory at the end of another one. -/
def Holds (tree : FileTree) (path child : Path) : Prop := ∃ entry, tree.Lists path child entry

/-- Whether an entry is a file, or a link to one. -/
def IsFile (tree : FileTree) (path : Path) : Entry → Prop
  | .file _ => True
  | .directory _ => False
  | .link _ => ∃ location content, tree.resolve path = .ok location ∧
      tree.entry? location = some (.file content)

/-- A path leads to a file of statements in a directory, or in one that can be reached from it. -/
def Reaches (tree : FileTree) (path file : Path) : Prop :=
  file.isSql = true ∧ ∃ directory entry, ReflTransGen tree.Holds path directory ∧
    tree.Lists directory file entry ∧ tree.IsFile file entry

/-- The files of statements below the directory at the end of a path. -/
structure Listing (tree : FileTree) (path : Path) (files : List Path) : Prop where
  sorted : files.Pairwise fun a b => Path.le a b = true
  nodup : files.Nodup
  mem_iff : ∀ file, file ∈ files ↔ tree.Reaches path file

/-- What stands in the way of a walk, and the error that it amounts to. -/
inductive Fault (tree : FileTree) (path : Path) : WalkError → Prop
  /-- A directory that cannot be listed. -/
  | unlisted {directory : Path} {location : Location} {access : Access} {reason : FileError} :
      ReflTransGen tree.Holds path directory → tree.resolve directory = .ok location →
        tree.access? location = some access → access.listing = some reason →
          Fault tree path (.entry directory reason)
  /-- A directory or a link that cannot be followed. -/
  | unresolved {directory child : Path} {entry : Entry} {reason : FileError} :
      ReflTransGen tree.Holds path directory → tree.Lists directory child entry →
        (∀ content, entry ≠ .file content) → tree.resolve child = .error reason →
          Fault tree path (.entry child reason)
  /-- A link to a directory that cannot be listed. -/
  | unopened {directory child target : Path} {location : Location} {access : Access}
      {reason : FileError} :
      ReflTransGen tree.Holds path directory → tree.Lists directory child (.link target) →
        tree.resolve child = .ok location → tree.access? location = some access →
          access.listing = some reason → Fault tree path (.unopened reason)
  /-- A link to a directory that it lies in. -/
  | loop {outer inner child target : Path} {location : Location} :
      ReflTransGen tree.Holds path outer → ReflTransGen tree.Holds outer inner →
        tree.Lists inner child (.link target) → tree.resolve outer = .ok location →
          tree.resolve child = .ok location → Fault tree path (.loop child outer)

theorem exists_access_of_lists {path child : Path} {entry : Entry}
    (h : tree.Lists path child entry) :
    ∃ directory access, tree.resolve path = .ok directory ∧
      tree.access? directory = some access := by
  obtain ⟨directory, access, -, hpath, haccess, -⟩ := h
  exact ⟨directory, access, hpath, haccess⟩

/-- What holds an entry, or a directory with one, is a directory. -/
theorem exists_access_of_reflTransGen {outer inner child : Path} {entry : Entry}
    (hreach : ReflTransGen tree.Holds outer inner) (hlists : tree.Lists inner child entry) :
    ∃ directory access, tree.resolve outer = .ok directory ∧
      tree.access? directory = some access := by
  rcases ReflTransGen.cases_head hreach with rfl | ⟨next, ⟨entry', hnext⟩, -⟩
  · exact exists_access_of_lists hlists
  · exact exists_access_of_lists hnext

/-! ## What a walk does about an entry -/

/-- What is done about an entry, case by case. -/
inductive Visits (tree : FileTree) (ancestors : List Ancestor) (path : Path) : Entry → Visit → Prop
  | file {content : Content} : Visits tree ancestors path (.file content) (visitNamed path)
  | unresolved {entry : Entry} {reason : FileError} : (∀ content, entry ≠ .file content) →
      tree.resolve path = .error reason →
        Visits tree ancestors path entry (.fail (.entry path reason))
  | directory {access : Access} {location : Location} : tree.resolve path = .ok location →
      Visits tree ancestors path (.directory access) (.enter location)
  | toFile {target : Path} {location : Location} {content : Content} :
      tree.resolve path = .ok location → tree.entry? location = some (.file content) →
        Visits tree ancestors path (.link target) (visitNamed path)
  | toNothing {target : Path} {location : Location} : tree.resolve path = .ok location →
      tree.access? location = none → (∀ content, tree.entry? location ≠ some (.file content)) →
        Visits tree ancestors path (.link target) .leave
  | unopened {target : Path} {location : Location} {access : Access} {reason : FileError} :
      tree.resolve path = .ok location → tree.access? location = some access →
        access.listing = some reason →
          Visits tree ancestors path (.link target) (.fail (.unopened reason))
  | loop {target : Path} {location : Location} {access : Access} {ancestor : Ancestor} :
      tree.resolve path = .ok location → tree.access? location = some access →
        ancestor ∈ ancestors → ancestor.location = location →
          Visits tree ancestors path (.link target) (.fail (.loop path ancestor.path))
  | toDirectory {target : Path} {location : Location} {access : Access} :
      tree.resolve path = .ok location → tree.access? location = some access →
        access.listing = none → (∀ ancestor ∈ ancestors, ancestor.location ≠ location) →
          Visits tree ancestors path (.link target) (.enter location)

section
variable {ancestors : List Ancestor} {path : Path} {entry : Entry}

theorem visits_visit (tree : FileTree) (ancestors : List Ancestor) (path : Path) (entry : Entry) :
    tree.Visits ancestors path entry (tree.visit ancestors path entry) := by
  cases entry with
  | file content => exact .file
  | directory access =>
    unfold visit
    cases hresolve : tree.resolve path with
    | error e => exact .unresolved (fun _ h => by cases h) hresolve
    | ok location => exact .directory hresolve
  | link target =>
    unfold visit
    cases hresolve : tree.resolve path with
    | error e => exact .unresolved (fun _ h => by cases h) hresolve
    | ok location =>
      dsimp only
      cases hentry : tree.entry? location with
      | none => exact .toNothing hresolve (by simp [access?, hentry]) (by simp [hentry])
      | some entry =>
        cases entry with
        | file content => exact .toFile hresolve hentry
        | link target => exact .toNothing hresolve (by simp [access?, hentry]) (by simp [hentry])
        | directory access =>
          have haccess := access?_eq_some_iff.2 hentry
          dsimp only
          cases hlisting : access.listing with
          | some reason => exact .unopened hresolve haccess hlisting
          | none =>
            dsimp only
            cases hfind : ancestors.find? (·.location = location) with
            | some ancestor =>
              have hsame : ancestor.location = location := by simpa using List.find?_some hfind
              exact .loop hresolve haccess (List.mem_of_find?_eq_some hfind) hsame
            | none => exact .toDirectory hresolve haccess hlisting (by simpa using hfind)

theorem visitNamed_eq_take_iff : visitNamed path = .take ↔ path.isSql = true := by
  unfold visitNamed
  split <;> simp [*]

/-- The files of statements are taken. -/
theorem visit_eq_take_iff : tree.visit ancestors path entry = .take ↔
    path.isSql = true ∧ tree.IsFile path entry := by
  have hvisits := visits_visit tree ancestors path entry
  generalize tree.visit ancestors path entry = visit at hvisits
  cases hvisits with
  | file => simp [IsFile, visitNamed_eq_take_iff]
  | unresolved hfile hresolve =>
    cases entry with
    | file content => exact absurd rfl (hfile content)
    | directory access => simp [IsFile]
    | link target => simp [IsFile, hresolve]
  | directory => simp [IsFile]
  | toFile hresolve hentry => simp [IsFile, hresolve, hentry, visitNamed_eq_take_iff]
  | toNothing hresolve hnone hentry => simp [IsFile, hresolve, hentry]
  | unopened hresolve haccess => simp [IsFile, hresolve, access?_eq_some_iff.1 haccess]
  | loop hresolve haccess => simp [IsFile, hresolve, access?_eq_some_iff.1 haccess]
  | toDirectory hresolve haccess => simp [IsFile, hresolve, access?_eq_some_iff.1 haccess]

theorem visitNamed_ne_enter {location : Location} : visitNamed path ≠ .enter location := by
  unfold visitNamed
  split <;> simp

theorem visitNamed_ne_fail {e : WalkError} : visitNamed path ≠ .fail e := by
  unfold visitNamed
  split <;> simp

/-- A directory is entered where its path leads; behind a link, only if the walk is not inside of
it. -/
theorem of_visit_eq_enter {location : Location}
    (h : tree.visit ancestors path entry = .enter location) :
    tree.resolve path = .ok location ∧ ((∃ access, entry = .directory access) ∨
      (∃ access, tree.access? location = some access) ∧
        ∀ ancestor ∈ ancestors, ancestor.location ≠ location) := by
  have hvisits := visits_visit tree ancestors path entry
  generalize tree.visit ancestors path entry = visit at h hvisits
  cases hvisits with
  | file => exact absurd h visitNamed_ne_enter
  | toFile => exact absurd h visitNamed_ne_enter
  | directory hresolve =>
    cases h
    exact ⟨hresolve, .inl ⟨_, rfl⟩⟩
  | toDirectory hresolve haccess _ hother =>
    cases h
    exact ⟨hresolve, .inr ⟨⟨_, haccess⟩, hother⟩⟩
  | unresolved | toNothing | unopened | loop => cases h

end

/-! ## The depth of a walk -/

/-- Where directories can be. -/
def places (tree : FileTree) : Finset Location :=
  (([] : Location) :: tree.entries.map Prod.fst).toFinset

/-- The places where the walk is not. -/
def unentered (tree : FileTree) (ancestors : List Ancestor) : Finset Location :=
  tree.places.filter fun location => ∀ ancestor ∈ ancestors, ancestor.location ≠ location

/-- The places below a directory. -/
def beneath (tree : FileTree) (directory : Location) : Finset Location :=
  tree.places.filter fun location => directory <+: location ∧ directory ≠ location

/-- More than what a walk can still go down in the directory that it is in, the first of its
ancestors: before each link that is followed, no more than all places. -/
def depthLeft (tree : FileTree) (ancestors : List Ancestor) (directory : Location) : Nat :=
  (tree.unentered ancestors).card * (tree.places.card + 1) + (tree.beneath directory).card

theorem mem_places {location : Location} {entry : Entry} (h : tree.entry? location = some entry) :
    location ∈ tree.places := by
  unfold places
  rw [List.mem_toFinset, List.mem_cons]
  by_cases hnil : location = []
  · exact .inl hnil
  · exact .inr (List.mem_map.2 ⟨_, (mem_entries_iff hnil).2 h, rfl⟩)

theorem card_beneath_le (tree : FileTree) (directory : Location) :
    (tree.beneath directory).card ≤ tree.places.card := Finset.card_filter_le _ _

theorem card_unentered_le (tree : FileTree) (ancestors : List Ancestor) :
    (tree.unentered ancestors).card ≤ tree.places.card := Finset.card_filter_le _ _

theorem unentered_cons_subset (tree : FileTree) (ancestor : Ancestor) (ancestors : List Ancestor) :
    tree.unentered (ancestor :: ancestors) ⊆ tree.unentered ancestors := by
  intro location h
  obtain ⟨hplace, hother⟩ := Finset.mem_filter.1 h
  exact Finset.mem_filter.2 ⟨hplace, (List.forall_mem_cons.1 hother).2⟩

section
variable {ancestors : List Ancestor} {directory : Location} {path : Path}

/-- In a directory of a directory there is less below. -/
theorem depthLeft_lt_of_entry {name : Text} {entry : Entry}
    (hentry : tree.entry? (directory ++ [name]) = some entry) :
    tree.depthLeft (⟨path, directory ++ [name]⟩ :: ancestors) (directory ++ [name]) <
      tree.depthLeft ancestors directory := by
  have hfewer := Finset.card_le_card
    (tree.unentered_cons_subset ⟨path, directory ++ [name]⟩ ancestors)
  have hbelow : (tree.beneath (directory ++ [name])).card < (tree.beneath directory).card := by
    refine Finset.card_lt_card ⟨fun location h => ?_, fun hsubset => ?_⟩
    · obtain ⟨hplace, hprefix, -⟩ := Finset.mem_filter.1 h
      refine Finset.mem_filter.2 ⟨hplace, (List.prefix_append _ _).trans hprefix, ?_⟩
      intro heq
      have hlength := hprefix.length_le
      rw [← heq, List.length_append, List.length_singleton] at hlength
      omega
    · have hself : directory ++ [name] ∈ tree.beneath directory :=
        Finset.mem_filter.2 ⟨mem_places hentry, List.prefix_append _ _, by simp⟩
      exact (Finset.mem_filter.1 (hsubset hself)).2.2 rfl
  have hproduct := Nat.mul_le_mul_right (tree.places.card + 1) hfewer
  unfold depthLeft
  omega

/-- Behind a link that is followed, there are fewer directories that the walk is not inside of. -/
theorem depthLeft_lt_of_link {location : Location} {entry : Entry}
    (hentry : tree.entry? location = some entry)
    (hother : ∀ ancestor ∈ ancestors, ancestor.location ≠ location) :
    tree.depthLeft (⟨path, location⟩ :: ancestors) location <
      tree.depthLeft ancestors directory := by
  have hfewer : (tree.unentered (⟨path, location⟩ :: ancestors)).card <
      (tree.unentered ancestors).card := by
    refine Finset.card_lt_card ⟨tree.unentered_cons_subset _ _, fun hsubset => ?_⟩
    have hself : location ∈ tree.unentered ancestors :=
      Finset.mem_filter.2 ⟨mem_places hentry, hother⟩
    exact (Finset.mem_filter.1 (hsubset hself)).2 _ List.mem_cons_self rfl
  have hproduct := Nat.mul_le_mul_right (tree.places.card + 1) (Nat.succ_le_of_lt hfewer)
  rw [Nat.succ_mul] at hproduct
  have hbelow := tree.card_beneath_le location
  unfold depthLeft
  omega

theorem depthLeft_lt_depthBound (tree : FileTree) (ancestors : List Ancestor)
    (directory : Location) : tree.depthLeft ancestors directory < tree.depthBound := by
  have hplaces : tree.places.card ≤ tree.entries.length + 1 := by
    refine (List.toFinset_card_le _).trans ?_
    rw [List.length_cons, List.length_map]
  have hproduct := Nat.mul_le_mul_right (tree.places.card + 1) (tree.card_unentered_le ancestors)
  have hbelow := tree.card_beneath_le directory
  have hsquare : (tree.places.card + 1) * (tree.places.card + 1) ≤ tree.depthBound :=
    Nat.mul_le_mul (Nat.succ_le_succ hplaces) (Nat.succ_le_succ hplaces)
  rw [Nat.add_one_mul] at hsquare
  unfold depthLeft
  omega

end

end FileTree

end InsertLayout
