import InsertLayout.Document.Format
import InsertLayout.FileTree.Walk

/-!
# The outline of a file tree

The outline of a tree is the tree with all its texts emptied. Where a path leads, which files a walk
finds and which of them can be read depends on nothing else (`resolve_outline`, `sqlFiles_outline`,
`read_outline`), and formatting a file leaves the outline as it is (`outline_formatAt`). So one file
after another can be formatted without a change to the paths of the others: if no two of several
paths lead to the same file, each of the files is formatted once (`entry?_foldl_formatAt`) and
nothing else changes (`entry?_foldl_formatAt_of_notMem`).
-/

set_option autoImplicit false

namespace InsertLayout

/-! ## Entries with other texts -/

/-- An entry with another text, if it is a file that holds a text. -/
def Entry.mapText (f : Text → Text) : Entry → Entry
  | .file (.text t) => .file (.text (f t))
  | entry => entry

/-- An entry with its text emptied. -/
def Entry.outline : Entry → Entry := Entry.mapText fun _ => []

/-- An entry with its text formatted. -/
def Entry.format (options : Options) : Entry → Entry := Entry.mapText (InsertLayout.format options)

theorem Entry.mapText_eq_directory_iff {f : Text → Text} {entry : Entry} {access : Access} :
    entry.mapText f = .directory access ↔ entry = .directory access := by
  rcases entry with (t | bytes | reason) | _ | target <;> simp [mapText]

namespace FileTree

/-- The tree with all texts emptied. -/
def outline : FileTree → FileTree := mapEntries fun _ => Entry.outline

/-! ## Entries -/

theorem lookup_cons (l location : Location) (entry : Entry) (entries : List (Location × Entry)) :
    List.lookup l ((location, entry) :: entries) =
      if l = location then some entry else entries.lookup l := by
  rw [List.lookup_cons]
  by_cases h : l = location
  · simp [h]
  · simp [h, beq_false_of_ne h]

theorem lookup_eq_some_iff {entries : List (Location × Entry)}
    (hnodup : (entries.map Prod.fst).Nodup) {location : Location} {entry : Entry} :
    entries.lookup location = some entry ↔ (location, entry) ∈ entries := by
  induction entries with
  | nil => simp
  | cons p entries ih =>
    obtain ⟨l, e⟩ := p
    rw [List.map_cons, List.nodup_cons] at hnodup
    rw [lookup_cons, List.mem_cons, ← ih hnodup.2]
    by_cases h : location = l
    · subst h
      have hnone : entries.lookup location ≠ some entry := fun hsome =>
        hnodup.1 (List.mem_map.2 ⟨_, (ih hnodup.2).1 hsome, rfl⟩)
      simp [hnone, eq_comm]
    · simp [h]

theorem mem_entries_iff {tree : FileTree} {location : Location} (hne : location ≠ [])
    {entry : Entry} : (location, entry) ∈ tree.entries ↔ tree.entry? location = some entry := by
  unfold entry?
  rw [if_neg hne, lookup_eq_some_iff tree.nodup]

theorem lookup_map (f : Location → Entry → Entry) (location : Location)
    (entries : List (Location × Entry)) :
    (entries.map fun p => (p.1, f p.1 p.2)).lookup location =
      (entries.lookup location).map (f location) := by
  induction entries with
  | nil => rfl
  | cons p entries ih =>
    obtain ⟨l, e⟩ := p
    rw [List.map_cons, lookup_cons, lookup_cons, ih]
    by_cases h : location = l
    · rw [if_pos h, if_pos h, h]
      rfl
    · rw [if_neg h, if_neg h]

/-- What stands at a location after all entries have been replaced; the root stays. -/
theorem entry?_mapEntries {f : Location → Entry → Entry}
    (hroot : f [] (.directory {}) = .directory {}) (tree : FileTree) (location : Location) :
    entry? (tree.mapEntries f) location = (tree.entry? location).map (f location) := by
  unfold entry? mapEntries
  by_cases h : location = []
  · rw [if_pos h, if_pos h, h, Option.map_some, hroot]
  · rw [if_neg h, if_neg h]
    exact lookup_map f location tree.entries

theorem mapEntries_congr {f g : Location → Entry → Entry} {tree : FileTree}
    (h : ∀ p ∈ tree.entries, f p.1 p.2 = g p.1 p.2) : tree.mapEntries f = tree.mapEntries g :=
  FileTree.ext (List.map_congr_left fun p hp => by rw [h p hp]) rfl

theorem mapEntries_self {f : Location → Entry → Entry} {tree : FileTree}
    (h : ∀ p ∈ tree.entries, f p.1 p.2 = p.2) : tree.mapEntries f = tree := by
  refine FileTree.ext ?_ rfl
  refine (List.map_congr_left fun p hp => ?_).trans (List.map_id tree.entries)
  rw [h p hp]
  rfl

theorem mapEntries_mapEntries (f g : Location → Entry → Entry) (tree : FileTree) :
    (tree.mapEntries g).mapEntries f = tree.mapEntries fun l e => f l (g l e) :=
  FileTree.ext (List.map_map) rfl

theorem entry?_outline (tree : FileTree) (location : Location) :
    tree.outline.entry? location = (tree.entry? location).map Entry.outline :=
  entry?_mapEntries rfl tree location

theorem access?_eq_some_iff {tree : FileTree} {location : Location} {access : Access} :
    tree.access? location = some access ↔ tree.entry? location = some (.directory access) := by
  unfold access?
  cases tree.entry? location with
  | none => simp
  | some entry => cases entry <;> simp

theorem access?_outline (tree : FileTree) (location : Location) :
    tree.outline.access? location = tree.access? location := by
  refine Option.ext fun access => ?_
  rw [access?_eq_some_iff, access?_eq_some_iff, entry?_outline]
  cases tree.entry? location with
  | none => simp
  | some entry => simp [Entry.outline, Entry.mapText_eq_directory_iff]

/-! ## Where paths lead -/

theorem stride_outline (tree : FileTree) (location : Location) (segment : Text) :
    tree.outline.stride location segment = tree.stride location segment := by
  unfold stride
  rw [access?_outline, entry?_outline]
  cases tree.entry? (location ++ [segment]) with
  | none => rfl
  | some entry => rcases entry with (t | bytes | reason) | _ | target <;> rfl

theorem followWith_outline (tree : FileTree)
    (jump : Location → List Text → Except FileError Location) (location : Location)
    (segments : List Text) : tree.outline.followWith jump location segments =
      tree.followWith jump location segments := by
  induction segments generalizing location with
  | nil => rfl
  | cons segment segments ih =>
    unfold followWith
    simp only [stride_outline, ih]

theorem follow_outline (tree : FileTree) (links : Nat) :
    tree.outline.follow links = tree.follow links := by
  induction links with
  | zero =>
    funext location segments
    exact followWith_outline tree _ location segments
  | succ links ih =>
    funext location segments
    unfold follow
    rw [ih, followWith_outline]

/-- Where a path leads does not depend on the contents of files. -/
theorem resolve_outline (tree : FileTree) (path : Path) :
    tree.outline.resolve path = tree.resolve path := by
  unfold resolve
  rw [follow_outline]
  rfl

theorem isDirectory_outline (tree : FileTree) (path : Path) :
    tree.outline.isDirectory path = tree.isDirectory path := by
  unfold isDirectory
  rw [resolve_outline]
  cases tree.resolve path with
  | error e => rfl
  | ok location =>
    dsimp only
    rw [access?_outline]

/-! ## Walks -/

theorem children_outline (tree : FileTree) (directory : Location) :
    tree.outline.children directory =
      (tree.children directory).map fun p => (p.1, p.2.outline) := by
  have hchild : (child? directory ∘ fun p => (p.1, p.2.outline)) =
      fun p => (child? directory p).map fun p => (p.1, p.2.outline) := by
    funext ⟨location, entry⟩
    unfold child?
    dsimp only [Function.comp_apply]
    cases location.getLast? with
    | none => rfl
    | some name =>
      dsimp only
      by_cases h : location.dropLast = directory
      · rw [if_pos h, if_pos h]
        rfl
      · rw [if_neg h, if_neg h]
        rfl
  have hsort (found : List (Text × Entry)) :
      (found.mergeSort fun a b => Path.textLe a.1 b.1).map (fun p => (p.1, p.2.outline)) =
        (found.map fun p => (p.1, p.2.outline)).mergeSort fun a b => Path.textLe a.1 b.1 :=
    List.map_mergeSort fun _ _ _ _ => rfl
  unfold children outline mapEntries
  rw [hsort, List.filterMap_map, List.map_filterMap]
  exact congrArg (fun f => (tree.entries.filterMap f).mergeSort _) hchild

theorem list_outline (tree : FileTree) (directory : Location) :
    tree.outline.list directory =
      (tree.list directory).map (List.map fun p => (p.1, p.2.outline)) := by
  unfold list
  rw [access?_outline, children_outline]
  cases tree.access? directory with
  | none => rfl
  | some access =>
    dsimp only
    cases access.listing <;> rfl

theorem visit_outline (tree : FileTree) (ancestors : List Ancestor) (path : Path) (entry : Entry) :
    tree.outline.visit ancestors path entry.outline = tree.visit ancestors path entry := by
  cases entry with
  | file content => cases content <;> rfl
  | directory access =>
    unfold visit Entry.outline Entry.mapText
    dsimp only
    rw [resolve_outline]
  | link target =>
    unfold visit Entry.outline Entry.mapText
    dsimp only
    rw [resolve_outline]
    cases tree.resolve path with
    | error e => rfl
    | ok location =>
      dsimp only
      rw [entry?_outline]
      cases tree.entry? location with
      | none => rfl
      | some entry => rcases entry with (t | bytes | reason) | _ | target <;> rfl

theorem entryFiles_outline (tree : FileTree) (ancestors : List Ancestor) (path : Path)
    (walk : Path → Location → Except WalkError (List Path)) (child : Text × Entry) :
    tree.outline.entryFiles ancestors path walk (child.1, child.2.outline) =
      tree.entryFiles ancestors path walk child := by
  unfold entryFiles
  dsimp only
  rw [visit_outline]

theorem collect_outline (tree : FileTree) (fuel : Nat) (ancestors : List Ancestor) (path : Path)
    (directory : Location) : tree.outline.collect ancestors path directory fuel =
      tree.collect ancestors path directory fuel := by
  induction fuel generalizing ancestors path directory with
  | zero => rfl
  | succ fuel ih =>
    unfold collect
    rw [list_outline]
    cases tree.list directory with
    | error reason => rfl
    | ok children =>
      dsimp only [Except.map]
      rw [List.mapM_map]
      simp only [Function.comp_def, entryFiles_outline, ih]

/-- Which files a walk finds does not depend on their contents. -/
theorem sqlFiles_outline (tree : FileTree) (path : Path) :
    tree.outline.sqlFiles path = tree.sqlFiles path := by
  have hdepth : tree.outline.depthBound = tree.depthBound := by
    simp [depthBound, outline, mapEntries]
  unfold sqlFiles
  rw [resolve_outline, hdepth]
  cases tree.resolve path with
  | error e => rfl
  | ok location =>
    dsimp only
    rw [collect_outline]

/-- The files that a path stands for. -/
def filesAt (tree : FileTree) (path : Path) : Except WalkError (List Path) :=
  if tree.isDirectory path then tree.sqlFiles path else .ok [path]

/-- The files that paths stand for, in their order. -/
def reached (tree : FileTree) : List Path → Except WalkError (List Path)
  | [] => .ok []
  | path :: paths => do return (← tree.filesAt path) ++ (← reached tree paths)

theorem filesAt_outline (tree : FileTree) (path : Path) :
    tree.outline.filesAt path = tree.filesAt path := by
  unfold filesAt
  rw [isDirectory_outline, sqlFiles_outline]

/-- Which files are reached does not depend on the contents of files. -/
theorem reached_outline (tree : FileTree) (paths : List Path) :
    tree.outline.reached paths = tree.reached paths := by
  induction paths with
  | nil => rfl
  | cons path paths ih => rw [reached, reached, filesAt_outline, ih]

theorem reached_cons_eq_ok_iff {tree : FileTree} {path : Path} {paths files : List Path} :
    tree.reached (path :: paths) = .ok files ↔ ∃ first others, tree.filesAt path = .ok first ∧
      tree.reached paths = .ok others ∧ files = first ++ others := by
  rw [reached]
  cases tree.filesAt path with
  | error e => simp [Bind.bind, Except.bind]
  | ok first =>
    cases tree.reached paths with
    | error e => simp [Bind.bind, Except.bind]
    | ok others => simp [Bind.bind, Except.bind, Pure.pure, Except.pure, eq_comm]

/-! ## Reading -/

theorem read_eq_ok_iff {tree : FileTree} {path : Path} {t : Text} : tree.read path = .ok t ↔
    ∃ location, tree.resolve path = .ok location ∧
      tree.entry? location = some (.file (.text t)) := by
  unfold read
  cases tree.resolve path with
  | error e => simp
  | ok location =>
    cases hentry : tree.entry? location with
    | none => simp [hentry]
    | some entry =>
      rcases entry with (t' | bytes | reason) | _ | target <;> simp [hentry, Content.read]

/-- Whether a file can be read does not depend on the text in it. -/
theorem read_outline (tree : FileTree) (path : Path) :
    tree.outline.read path = (tree.read path).map fun _ => [] := by
  unfold read
  rw [resolve_outline]
  cases tree.resolve path with
  | error e => rfl
  | ok location =>
    dsimp only
    rw [entry?_outline]
    cases tree.entry? location with
    | none => rfl
    | some entry => rcases entry with (t | bytes | reason) | _ | target <;> rfl

/-! ## Trees with one outline -/

section
variable {tree tree' : FileTree} (h : tree'.outline = tree.outline)
include h

theorem resolve_eq_of_outline (path : Path) : tree'.resolve path = tree.resolve path := by
  rw [← resolve_outline, h, resolve_outline]

theorem reached_eq_of_outline (paths : List Path) : tree'.reached paths = tree.reached paths := by
  rw [← reached_outline, h, reached_outline]

/-- Files that can be read in one of the trees can be read in the other one. -/
theorem exists_read_of_outline {paths : List Path}
    (hread : ∀ path ∈ paths, ∃ t, tree.read path = .ok t) :
    ∀ path ∈ paths, ∃ t, tree'.read path = .ok t := by
  intro path hpath
  obtain ⟨t, ht⟩ := hread path hpath
  have hmap : (tree'.read path).map (fun _ => ([] : Text)) = .ok [] := by
    rw [← read_outline, h, read_outline, ht]
    rfl
  cases hread' : tree'.read path with
  | ok t' => exact ⟨t', rfl⟩
  | error e =>
    rw [hread'] at hmap
    cases hmap

/-- What is read at the end of a path depends only on the entry there. -/
theorem read_eq_of_outline {path : Path}
    (hentry : ∀ l, tree.resolve path = .ok l → tree'.entry? l = tree.entry? l) :
    tree'.read path = tree.read path := by
  unfold read
  rw [resolve_eq_of_outline h]
  cases hresolve : tree.resolve path with
  | error e => rfl
  | ok location =>
    dsimp only
    rw [hentry location hresolve]

end

/-! ## Overwriting files -/

section
variable {tree : FileTree} {location : Location} {content : Content}

/-- Where a file stands is not the root. -/
theorem ne_nil_of_file (h : tree.entry? location = some (.file content)) : location ≠ [] := by
  intro hnil
  rw [hnil] at h
  cases h

theorem entry?_replace (hne : location ≠ []) (entry : Entry) (l : Location) :
    entry? (tree.replace location entry) l =
      if l = location then (tree.entry? l).map fun _ => entry else tree.entry? l := by
  unfold replace
  rw [entry?_mapEntries (if_neg hne.symm)]
  by_cases h : l = location
  · simp only [if_pos h]
  · simp only [if_neg h, Option.map_id']

/-- What stands at the location of a file among the entries is that file. -/
theorem eq_of_mem_entries (h : tree.entry? location = some (.file content))
    {p : Location × Entry} (hp : p ∈ tree.entries) (hloc : p.1 = location) :
    p.2 = .file content := by
  obtain ⟨l, e⟩ := p
  obtain rfl : l = location := hloc
  exact Option.some.inj (((mem_entries_iff (ne_nil_of_file h)).1 hp).symm.trans h)

/-- Overwriting a file with what it holds changes nothing. -/
theorem replace_self (h : tree.entry? location = some (.file content)) :
    tree.replace location (.file content) = tree := by
  refine mapEntries_self fun p hp => ?_
  split
  · rename_i hloc
    exact (eq_of_mem_entries h hp hloc).symm
  · rfl

/-- Overwriting a text leaves the outline as it is. -/
theorem outline_replace {t : Text} (h : tree.entry? location = some (.file (.text t)))
    (t' : Text) : (tree.replace location (.file (.text t'))).outline = tree.outline := by
  unfold outline replace
  rw [mapEntries_mapEntries]
  refine mapEntries_congr fun p hp => ?_
  split
  · rename_i hloc
    rw [eq_of_mem_entries h hp hloc]
    rfl
  · rfl

end

/-! ## Formatting files -/

/-- The tree with the file at the end of a path formatted, if it holds a text. -/
def formatAt (options : Options) (tree : FileTree) (path : Path) : FileTree :=
  match tree.read path with
  | .ok t => (tree.write path (InsertLayout.format options t)).toOption.getD tree
  | .error _ => tree

variable {options : Options} {tree : FileTree} {path : Path}

/-- What can be read can be overwritten. -/
theorem write_of_resolve {location : Location} (hresolve : tree.resolve path = .ok location)
    {content : Content} (hentry : tree.entry? location = some (.file content)) (t : Text) :
    tree.write path t = .ok (tree.replace location (.file (.text t))) := by
  unfold write
  rw [hresolve]
  dsimp only
  rw [hentry]

theorem formatAt_of_resolve {location : Location} (hresolve : tree.resolve path = .ok location)
    {t : Text} (hentry : tree.entry? location = some (.file (.text t))) :
    tree.formatAt options path =
      tree.replace location (.file (.text (InsertLayout.format options t))) := by
  unfold formatAt
  rw [read_eq_ok_iff.2 ⟨location, hresolve, hentry⟩]
  dsimp only
  rw [write_of_resolve hresolve hentry]
  rfl

theorem formatAt_of_error {e : FileError} (h : tree.read path = .error e) :
    tree.formatAt options path = tree := by
  unfold formatAt
  rw [h]

/-- Formatting a file that does not change leaves the tree as it is. -/
theorem formatAt_of_unchanged {t : Text} (hread : tree.read path = .ok t)
    (hsame : InsertLayout.format options t = t) : tree.formatAt options path = tree := by
  obtain ⟨location, hresolve, hentry⟩ := read_eq_ok_iff.1 hread
  rw [formatAt_of_resolve hresolve hentry, hsame, replace_self hentry]

theorem outline_formatAt (options : Options) (tree : FileTree) (path : Path) :
    (tree.formatAt options path).outline = tree.outline := by
  cases hread : tree.read path with
  | error e => rw [formatAt_of_error hread]
  | ok t =>
    obtain ⟨location, hresolve, hentry⟩ := read_eq_ok_iff.1 hread
    rw [formatAt_of_resolve hresolve hentry, outline_replace hentry]

/-- Formatting a file changes the entry to which its path leads. -/
theorem entry?_formatAt {location : Location} (hresolve : tree.resolve path = .ok location) :
    entry? (tree.formatAt options path) location =
      (tree.entry? location).map (Entry.format options) := by
  cases hread : tree.read path with
  | ok t =>
    obtain ⟨location', hresolve', hentry⟩ := read_eq_ok_iff.1 hread
    obtain rfl := Except.ok.inj (hresolve.symm.trans hresolve')
    rw [formatAt_of_resolve hresolve hentry, entry?_replace (ne_nil_of_file hentry), if_pos rfl,
      hentry]
    rfl
  | error e =>
    rw [formatAt_of_error hread]
    cases hentry : tree.entry? location with
    | none => rfl
    | some entry =>
      rcases entry with (t | bytes | reason) | _ | target
      · rw [read_eq_ok_iff.2 ⟨location, hresolve, hentry⟩] at hread
        cases hread
      all_goals rfl

/-- Formatting a file changes no entry to which its path does not lead. -/
theorem entry?_formatAt_of_ne {location : Location} (hne : tree.resolve path ≠ .ok location) :
    entry? (tree.formatAt options path) location = tree.entry? location := by
  cases hread : tree.read path with
  | error e => rw [formatAt_of_error hread]
  | ok t =>
    obtain ⟨location', hresolve, hentry⟩ := read_eq_ok_iff.1 hread
    have hother : location ≠ location' := fun he => hne (he ▸ hresolve)
    rw [formatAt_of_resolve hresolve hentry, entry?_replace (ne_nil_of_file hentry),
      if_neg hother]

/-! ## Formatting several files -/

theorem outline_foldl_formatAt (options : Options) (tree : FileTree) (paths : List Path) :
    (paths.foldl (formatAt options) tree).outline = tree.outline := by
  induction paths generalizing tree with
  | nil => rfl
  | cons path paths ih => rw [List.foldl_cons, ih, outline_formatAt]

/-- Formatting files changes no entry to which none of their paths leads. -/
theorem entry?_foldl_formatAt_of_notMem {paths : List Path} {location : Location}
    (hnot : .ok location ∉ paths.map tree.resolve) :
    entry? (paths.foldl (formatAt options) tree) location = tree.entry? location := by
  induction paths generalizing tree with
  | nil => rfl
  | cons path paths ih =>
    have hresolve : (tree.formatAt options path).resolve = tree.resolve :=
      funext (resolve_eq_of_outline (outline_formatAt options tree path))
    rw [List.map_cons, List.mem_cons, not_or] at hnot
    rw [List.foldl_cons, ih (by rw [hresolve]; exact hnot.2),
      entry?_formatAt_of_ne fun h => hnot.1 h.symm]

/-- If no two of several paths lead to the same place, each of the files is formatted once. -/
theorem entry?_foldl_formatAt {paths : List Path} (hnodup : (paths.map tree.resolve).Nodup)
    {location : Location} (hmem : .ok location ∈ paths.map tree.resolve) :
    entry? (paths.foldl (formatAt options) tree) location =
      (tree.entry? location).map (Entry.format options) := by
  induction paths generalizing tree with
  | nil => cases hmem
  | cons path paths ih =>
    have hresolve : (tree.formatAt options path).resolve = tree.resolve :=
      funext (resolve_eq_of_outline (outline_formatAt options tree path))
    rw [List.map_cons, List.nodup_cons] at hnodup
    rw [List.foldl_cons]
    rcases List.mem_cons.1 hmem with hhead | htail
    · rw [entry?_foldl_formatAt_of_notMem (by rw [hresolve, hhead]; exact hnodup.1),
        entry?_formatAt hhead.symm]
    · have hne : tree.resolve path ≠ .ok location := fun h => hnodup.1 (h ▸ htail)
      rw [ih (by rw [hresolve]; exact hnodup.2) (by rw [hresolve]; exact htail),
        entry?_formatAt_of_ne hne]

/-- What is read at the end of the paths afterwards. -/
theorem read_foldl_formatAt {paths : List Path} (hnodup : (paths.map tree.resolve).Nodup)
    {path : Path} (hmem : path ∈ paths) {t : Text} (hread : tree.read path = .ok t) :
    (paths.foldl (formatAt options) tree).read path = .ok (InsertLayout.format options t) := by
  obtain ⟨location, hresolve, hentry⟩ := read_eq_ok_iff.1 hread
  have hmem' : .ok location ∈ paths.map tree.resolve := hresolve ▸ List.mem_map_of_mem hmem
  refine read_eq_ok_iff.2 ⟨location, ?_, ?_⟩
  · rw [resolve_eq_of_outline (outline_foldl_formatAt options tree paths), hresolve]
  · rw [entry?_foldl_formatAt hnodup hmem', hentry]
    rfl

end FileTree

end InsertLayout
