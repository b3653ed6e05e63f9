import InsertLayout.Proofs.PathOrder
import InsertLayout.Proofs.Reach
import Mathlib.Data.List.Nodup

/-!
# What a walk finds

If the walk of a directory succeeds, it lists the files of statements that can be reached, each once
and in the order of their paths (`listing_of_filesAt`). If it fails, its error is a fault that can
be reached (`fault_of_filesAt`), and where there is one it fails (`exists_error_of_fault`). A walk
goes along `Holds` and remembers the directories that it is inside of
(`exists_collect_of_reflTransGen`).
-/

set_option autoImplicit false

namespace InsertLayout

open Relation

/-! ## Attempts over lists -/

section
variable {α β ε : Type} {f : α → Except ε β}

/-- The value of an attempt, or another one if it failed. -/
def valueOr (fallback : β) (attempt : Except ε β) : β := attempt.toOption.getD fallback

theorem eq_map_of_mapM_eq_ok (fallback : β) {as : List α} {bs : List β} (h : as.mapM f = .ok bs) :
    (∀ a ∈ as, f a = .ok (valueOr fallback (f a))) ∧
      bs = as.map fun a => valueOr fallback (f a) := by
  induction as generalizing bs with
  | nil =>
    cases h
    exact ⟨fun a ha => absurd ha List.not_mem_nil, rfl⟩
  | cons a as ih =>
    rw [List.mapM_cons] at h
    cases ha : f a with
    | error e =>
      rw [ha] at h
      cases h
    | ok b =>
      rw [ha] at h
      cases has : as.mapM f with
      | error e =>
        rw [has] at h
        cases h
      | ok rest =>
        rw [has] at h
        obtain ⟨hall, hrest⟩ := ih has
        refine ⟨List.forall_mem_cons.2 ⟨?_, hall⟩, ?_⟩
        · rw [ha]
          rfl
        · rw [List.map_cons, ha, ← hrest]
          exact (Except.ok.inj h).symm

theorem exists_of_mapM_eq_error {as : List α} {e : ε} (h : as.mapM f = .error e) :
    ∃ a ∈ as, f a = .error e := by
  induction as with
  | nil => cases h
  | cons a as ih =>
    rw [List.mapM_cons] at h
    cases ha : f a with
    | error e' =>
      rw [ha] at h
      exact ⟨a, List.mem_cons_self, ha.trans (congrArg Except.error (Except.error.inj h))⟩
    | ok b =>
      rw [ha] at h
      cases has : as.mapM f with
      | error e' =>
        rw [has] at h
        obtain ⟨a', hmem, ha'⟩ := ih (has.trans (congrArg Except.error (Except.error.inj h)))
        exact ⟨a', List.mem_cons_of_mem a hmem, ha'⟩
      | ok rest =>
        rw [has] at h
        cases h

end

namespace FileTree

variable {tree : FileTree}

/-! ## The steps of a walk -/

section
variable {ancestors : List Ancestor} {path : Path} {directory : Location} {fuel : Nat}
  {files : List Path}

theorem lists_of_mem_children {children : List (Text × Entry)} {child : Text × Entry}
    (hpath : tree.resolve path = .ok directory) (hlist : tree.list directory = .ok children)
    (hmem : child ∈ children) : tree.Lists path (path.child child.1) child.2 := by
  obtain ⟨access, haccess, hlisting, rfl⟩ := list_eq_ok_iff.1 hlist
  exact ⟨directory, access, child.1, hpath, haccess, hlisting, mem_children_iff.1 hmem, rfl⟩

/-- The walk of an entry of a directory. -/
def walkFrom (tree : FileTree) (ancestors : List Ancestor) (path : Path) (directory : Location)
    (fuel : Nat) : Text × Entry → Except WalkError (List Path) :=
  tree.entryFiles (⟨path, directory⟩ :: ancestors) path fun child location =>
    tree.collect (⟨path, directory⟩ :: ancestors) child location fuel

/-- A walk of a directory is a walk of its entries. -/
theorem collect_of_list {children : List (Text × Entry)} (h : tree.list directory = .ok children) :
    tree.collect ancestors path directory (fuel + 1) =
      (children.mapM (tree.walkFrom ancestors path directory fuel)).map List.flatten := by
  unfold collect
  rw [h]
  change (children.mapM (tree.walkFrom ancestors path directory fuel) >>= fun found =>
    pure found.flatten) = _
  cases children.mapM (tree.walkFrom ancestors path directory fuel) <;> rfl

/-- What a walk finds is what it finds for the entries of the directory, and it finds something for
each of them. -/
theorem exists_of_collect_eq_ok (h : tree.collect ancestors path directory fuel = .ok files) :
    ∃ fuel' children, fuel = fuel' + 1 ∧ tree.list directory = .ok children ∧
      ∃ found : Text × Entry → List Path, files = children.flatMap found ∧ ∀ child ∈ children,
        tree.walkFrom ancestors path directory fuel' child = .ok (found child) := by
  cases fuel with
  | zero => cases h
  | succ fuel' =>
    cases hlist : tree.list directory with
    | error reason =>
      unfold collect at h
      rw [hlist] at h
      cases h
    | ok children =>
      rw [collect_of_list hlist] at h
      cases hfound : children.mapM (tree.walkFrom ancestors path directory fuel') with
      | error e =>
        rw [hfound] at h
        cases h
      | ok found =>
        rw [hfound] at h
        obtain ⟨hall, rfl⟩ := eq_map_of_mapM_eq_ok [] hfound
        refine ⟨fuel', children, rfl, rfl, _, ?_, hall⟩
        rw [List.flatMap_def]
        exact (Except.ok.inj h).symm

theorem walkFrom_of_visit {child : Text × Entry} {visit : Visit}
    (h : tree.visit (⟨path, directory⟩ :: ancestors) (path.child child.1) child.2 = visit) :
    tree.walkFrom ancestors path directory fuel child = visit.files (path.child child.1)
      fun location =>
        tree.collect (⟨path, directory⟩ :: ancestors) (path.child child.1) location fuel := by
  unfold walkFrom entryFiles
  dsimp only
  rw [h]

/-- What is found for an entry of a directory is the file of statements that it is, nothing, or what
is found in the directory that is entered. -/
theorem of_walkFrom_eq_ok {child : Text × Entry}
    (h : tree.walkFrom ancestors path directory fuel child = .ok files) :
    (files = [path.child child.1] ∧ (path.child child.1).isSql = true ∧
        tree.IsFile (path.child child.1) child.2) ∨
      files = [] ∨
      ∃ location, tree.resolve (path.child child.1) = .ok location ∧
        tree.collect (⟨path, directory⟩ :: ancestors) (path.child child.1) location fuel =
          .ok files := by
  cases hvisit : tree.visit (⟨path, directory⟩ :: ancestors) (path.child child.1) child.2 with
  | take =>
    rw [walkFrom_of_visit hvisit] at h
    exact .inl ⟨(Except.ok.inj h).symm, visit_eq_take_iff.1 hvisit⟩
  | leave =>
    rw [walkFrom_of_visit hvisit] at h
    exact .inr (.inl (Except.ok.inj h).symm)
  | enter location =>
    rw [walkFrom_of_visit hvisit] at h
    exact .inr (.inr ⟨location, (of_visit_eq_enter hvisit).1, h⟩)
  | fail e =>
    rw [walkFrom_of_visit hvisit] at h
    cases h

end

/-! ## Walks that do not fail -/

section
variable {ancestors : List Ancestor} {path : Path} {directory : Location} {fuel : Nat}
  {files : List Path}

/-- What is found can be reached. -/
theorem reaches_of_mem_collect (hpath : tree.resolve path = .ok directory)
    (h : tree.collect ancestors path directory fuel = .ok files) {file : Path}
    (hmem : file ∈ files) : tree.Reaches path file := by
  induction fuel generalizing ancestors path directory files with
  | zero => cases h
  | succ fuel ih =>
    obtain ⟨_, children, hfuel, hlist, found, rfl, hfound⟩ := exists_of_collect_eq_ok h
    obtain rfl := Nat.succ.inj hfuel
    obtain ⟨child, hchild, hmem⟩ := List.mem_flatMap.1 hmem
    have hlists := lists_of_mem_children hpath hlist hchild
    rcases of_walkFrom_eq_ok (hfound child hchild) with
      ⟨heq, hsql, hfile⟩ | heq | ⟨location, hresolve, hcollect⟩
    · rw [heq, List.mem_singleton] at hmem
      exact hmem ▸ ⟨hsql, path, child.2, .refl, hlists, hfile⟩
    · rw [heq] at hmem
      exact absurd hmem List.not_mem_nil
    · obtain ⟨hsql, inner, entry, hreach, hrest⟩ := ih hresolve hcollect hmem
      exact ⟨hsql, inner, entry, .head ⟨child.2, hlists⟩ hreach, hrest⟩

theorem ne_nil_of_resolve (h : tree.resolve path = .ok directory) : path ≠ [] :=
  (resolve_eq_ok_iff.1 h).1

theorem exists_trunk_of_lists {child : Path} {entry : Entry} (h : tree.Lists path child entry) :
    ∃ name, child.trunk = path.trunk ++ [name] := by
  obtain ⟨directory, access, name, hpath, -, -, hentry, rfl⟩ := h
  exact ⟨name, Path.trunk_child (ne_nil_of_resolve hpath) (isName_of_entry hentry)⟩

/-- What can be reached from a directory has a path that goes on with names. -/
theorem exists_trunk_of_reaches {file : Path} (h : tree.Reaches path file) :
    ∃ names, file.trunk = path.trunk ++ names := by
  obtain ⟨-, directory, entry, hreach, hlists, -⟩ := h
  have hdirectory : ∃ names, directory.trunk = path.trunk ++ names := by
    clear hlists
    induction hreach with
    | refl => exact ⟨[], (List.append_nil _).symm⟩
    | tail _ hholds ih =>
      obtain ⟨entry, hlists⟩ := hholds
      obtain ⟨names, hnames⟩ := ih
      obtain ⟨name, hname⟩ := exists_trunk_of_lists hlists
      exact ⟨names ++ [name], by rw [hname, hnames, List.append_assoc]⟩
  obtain ⟨names, hnames⟩ := hdirectory
  obtain ⟨name, hname⟩ := exists_trunk_of_lists hlists
  exact ⟨names ++ [name], by rw [hname, hnames, List.append_assoc]⟩

/-- What is found for an entry of a directory has a path that goes on with its name. -/
theorem exists_trunk_of_mem_walkFrom (hpath : tree.resolve path = .ok directory)
    {child : Text × Entry} (hname : IsName child.1)
    (h : tree.walkFrom ancestors path directory fuel child = .ok files) {file : Path}
    (hmem : file ∈ files) : ∃ names, file.trunk = path.trunk ++ child.1 :: names := by
  have htrunk := Path.trunk_child (ne_nil_of_resolve hpath) hname
  rcases of_walkFrom_eq_ok h with ⟨heq, -, -⟩ | heq | ⟨location, hresolve, hcollect⟩
  · rw [heq, List.mem_singleton] at hmem
    exact ⟨[], by rw [hmem, htrunk]⟩
  · rw [heq] at hmem
    exact absurd hmem List.not_mem_nil
  · obtain ⟨names, hnames⟩ :=
      exists_trunk_of_reaches (reaches_of_mem_collect hresolve hcollect hmem)
    exact ⟨names, by rw [hnames, htrunk, List.append_assoc, List.singleton_append]⟩

/-- Nothing is found twice. -/
theorem nodup_of_collect (hpath : tree.resolve path = .ok directory)
    (h : tree.collect ancestors path directory fuel = .ok files) : files.Nodup := by
  induction fuel generalizing ancestors path directory files with
  | zero => cases h
  | succ fuel ih =>
    obtain ⟨_, children, hfuel, hlist, found, rfl, hfound⟩ := exists_of_collect_eq_ok h
    obtain rfl := Nat.succ.inj hfuel
    have hnames : children.Pairwise fun a b => a.1 ≠ b.1 := by
      obtain ⟨access, -, -, rfl⟩ := list_eq_ok_iff.1 hlist
      exact tree.pairwise_children directory
    refine List.nodup_flatMap.2 ⟨fun child hchild => ?_, ?_⟩
    · rcases of_walkFrom_eq_ok (hfound child hchild) with
        ⟨heq, -, -⟩ | heq | ⟨location, hresolve, hcollect⟩
      · rw [heq]
        exact List.nodup_singleton _
      · rw [heq]
        exact List.nodup_nil
      · exact ih hresolve hcollect
    · -- The paths of two entries part at the names of these.
      refine hnames.imp_of_mem fun {a b} ha hb hne => ?_
      intro file hfileA hfileB
      have htrunk {child : Text × Entry} (hchild : child ∈ children) (hfile : file ∈ found child) :
          ∃ names, file.trunk = path.trunk ++ child.1 :: names := by
        obtain ⟨access, -, -, rfl⟩ := list_eq_ok_iff.1 hlist
        exact exists_trunk_of_mem_walkFrom hpath (isName_of_entry (mem_children_iff.1 hchild))
          (hfound child hchild) hfile
      obtain ⟨names, hnames⟩ := htrunk ha hfileA
      obtain ⟨names', hnames'⟩ := htrunk hb hfileB
      rw [hnames] at hnames'
      exact hne (List.cons.inj (List.append_cancel_left hnames')).1

/-- What a walk that does not fail comes to for an entry of the directory. -/
theorem exists_files_of_lists (hpath : tree.resolve path = .ok directory)
    (h : tree.collect ancestors path directory fuel = .ok files) {child : Path} {entry : Entry}
    (hlists : tree.Lists path child entry) : ∃ fuel' files',
      (tree.visit (⟨path, directory⟩ :: ancestors) child entry).files child (fun location =>
        tree.collect (⟨path, directory⟩ :: ancestors) child location fuel') = .ok files' ∧
      files' ⊆ files := by
  obtain ⟨fuel', children, -, hlist, found, rfl, hfound⟩ := exists_of_collect_eq_ok h
  obtain ⟨directory', access, name, hpath', -, -, hentry, rfl⟩ := hlists
  obtain rfl := Except.ok.inj (hpath.symm.trans hpath')
  have hmem : (name, entry) ∈ children := by
    obtain ⟨access, -, -, rfl⟩ := list_eq_ok_iff.1 hlist
    exact mem_children_iff.2 hentry
  refine ⟨fuel', found (name, entry), ?_, fun file hfile => List.mem_flatMap.2 ⟨_, hmem, hfile⟩⟩
  rw [← hfound _ hmem, walkFrom_of_visit rfl]

/-- A directory that can be reached is entered, or something is in the way. -/
theorem visit_of_access {child : Path} {entry : Entry} (hlists : tree.Lists path child entry)
    {location : Location} (hchild : tree.resolve child = .ok location) {access : Access}
    (haccess : tree.access? location = some access) :
    tree.visit ancestors child entry = .enter location ∨
      ∃ e, tree.visit ancestors child entry = .fail e := by
  obtain ⟨directory, _, name, hpath, -, -, hentry, rfl⟩ := hlists
  have hvisits := visits_visit tree ancestors (path.child name) entry
  generalize tree.visit ancestors (path.child name) entry = visit at hvisits
  cases hvisits with
  | @file content =>
    have hlocation := eq_of_resolve_child hpath (isName_of_entry hentry) hentry
      (fun _ h => by cases h) hchild
    rw [hlocation, access?_eq_some_iff, hentry] at haccess
    cases haccess
  | directory hresolve =>
    obtain rfl := Except.ok.inj (hresolve.symm.trans hchild)
    exact .inl rfl
  | toFile hresolve hfile =>
    obtain rfl := Except.ok.inj (hresolve.symm.trans hchild)
    rw [access?_eq_some_iff, hfile] at haccess
    cases haccess
  | toNothing hresolve hnone =>
    obtain rfl := Except.ok.inj (hresolve.symm.trans hchild)
    rw [hnone] at haccess
    cases haccess
  | toDirectory hresolve =>
    obtain rfl := Except.ok.inj (hresolve.symm.trans hchild)
    exact .inl rfl
  | unresolved | unopened | loop => exact .inr ⟨_, rfl⟩

/-- A walk that does not fail goes to each directory that can be reached, on the way to which it
remembers the directories that it is inside of. -/
theorem exists_collect_of_reflTransGen (hpath : tree.resolve path = .ok directory)
    (h : tree.collect ancestors path directory fuel = .ok files) {inner : Path}
    (hreach : ReflTransGen tree.Holds path inner) {location : Location}
    (hinner : tree.resolve inner = .ok location) {access : Access}
    (haccess : tree.access? location = some access) : ∃ ancestors' fuel' files',
      tree.collect ancestors' inner location fuel' = .ok files' ∧ files' ⊆ files ∧
        (⟨path, directory⟩ :: ancestors) ⊆ ⟨inner, location⟩ :: ancestors' := by
  induction hreach generalizing location access with
  | refl =>
    obtain rfl := Except.ok.inj (hpath.symm.trans hinner)
    exact ⟨ancestors, fuel, files, h, List.Subset.refl _, List.Subset.refl _⟩
  | tail _ hholds ih =>
    obtain ⟨entry, hlists⟩ := hholds
    obtain ⟨middle, access', hmiddle, haccess'⟩ := exists_access_of_lists hlists
    obtain ⟨ancestors', fuel', files', hcollect, hfiles, hancestors⟩ := ih hmiddle haccess'
    obtain ⟨fuel'', files'', hentry, hsubset⟩ := exists_files_of_lists hmiddle hcollect hlists
    rcases visit_of_access hlists hinner haccess with hvisit | ⟨e, hvisit⟩
    · rw [hvisit] at hentry
      exact ⟨_, fuel'', files'', hentry, List.Subset.trans hsubset hfiles,
        List.Subset.trans hancestors (List.subset_cons_self _ _)⟩
    · rw [hvisit] at hentry
      cases hentry

/-- What can be reached is found. -/
theorem mem_of_reaches (hpath : tree.resolve path = .ok directory)
    (h : tree.collect ancestors path directory fuel = .ok files) {file : Path}
    (hreaches : tree.Reaches path file) : file ∈ files := by
  obtain ⟨hsql, inner, entry, hreach, hlists, hfile⟩ := hreaches
  obtain ⟨location, access, hinner, haccess⟩ := exists_access_of_lists hlists
  obtain ⟨ancestors', fuel', files', hcollect, hfiles, -⟩ :=
    exists_collect_of_reflTransGen hpath h hreach hinner haccess
  obtain ⟨fuel'', files'', hentry, hsubset⟩ := exists_files_of_lists hinner hcollect hlists
  rw [visit_eq_take_iff.2 ⟨hsql, hfile⟩] at hentry
  obtain rfl := Except.ok.inj hentry
  exact hfiles (hsubset (List.mem_singleton_self file))

/-- Nothing is in the way of a walk that does not fail. -/
theorem visit_ne_fail (hpath : tree.resolve path = .ok directory)
    (h : tree.collect ancestors path directory fuel = .ok files) {child : Path} {entry : Entry}
    (hlists : tree.Lists path child entry) (e : WalkError) :
    tree.visit (⟨path, directory⟩ :: ancestors) child entry ≠ .fail e := by
  intro hvisit
  obtain ⟨fuel', files', hentry, -⟩ := exists_files_of_lists hpath h hlists
  rw [hvisit] at hentry
  cases hentry

/-- A link that is followed to a directory leads out of the directories that the walk is inside of,
and the directory can be listed. -/
theorem of_visit_link {child target : Path} {location : Location}
    (hchild : tree.resolve child = .ok location) {access : Access}
    (haccess : tree.access? location = some access)
    (hvisit : ∀ e, tree.visit ancestors child (.link target) ≠ .fail e) :
    access.listing = none ∧ ∀ ancestor ∈ ancestors, ancestor.location ≠ location := by
  have hvisits := visits_visit tree ancestors child (.link target)
  generalize tree.visit ancestors child (.link target) = visit at hvisits hvisit
  cases hvisits with
  | toFile hresolve hfile =>
    obtain rfl := Except.ok.inj (hresolve.symm.trans hchild)
    rw [access?_eq_some_iff, hfile] at haccess
    cases haccess
  | toNothing hresolve hnone =>
    obtain rfl := Except.ok.inj (hresolve.symm.trans hchild)
    rw [hnone] at haccess
    cases haccess
  | toDirectory hresolve haccess' hlisting hother =>
    obtain rfl := Except.ok.inj (hresolve.symm.trans hchild)
    obtain rfl := Option.some.inj (haccess'.symm.trans haccess)
    exact ⟨hlisting, hother⟩
  | unresolved | unopened | loop => exact absurd rfl (hvisit _)

/-- Where there is a fault that can be reached, the walk fails. -/
theorem not_fault_of_collect (hpath : tree.resolve path = .ok directory)
    (h : tree.collect ancestors path directory fuel = .ok files) (e : WalkError) :
    ¬ tree.Fault path e := by
  intro hfault
  cases hfault with
  | unlisted hreach hresolve haccess hlisting =>
    obtain ⟨_, _, _, hcollect, -⟩ := exists_collect_of_reflTransGen hpath h hreach hresolve haccess
    obtain ⟨_, _, -, hlist, -⟩ := exists_of_collect_eq_ok hcollect
    obtain ⟨access', haccess', hnone, -⟩ := list_eq_ok_iff.1 hlist
    obtain rfl := Option.some.inj (haccess'.symm.trans haccess)
    rw [hlisting] at hnone
    cases hnone
  | @unresolved inner child entry reason hreach hlists hfile hresolve =>
    obtain ⟨_, _, hinner, haccess⟩ := exists_access_of_lists hlists
    obtain ⟨ancestors', _, _, hcollect, -⟩ :=
      exists_collect_of_reflTransGen hpath h hreach hinner haccess
    have hvisit := visit_ne_fail hinner hcollect hlists
    cases entry with
    | file content => exact hfile content rfl
    | directory access | link target =>
      unfold visit at hvisit
      rw [hresolve] at hvisit
      exact hvisit _ rfl
  | unopened hreach hlists hresolve haccess hlisting =>
    obtain ⟨_, _, hinner, haccess'⟩ := exists_access_of_lists hlists
    obtain ⟨_, _, _, hcollect, -⟩ := exists_collect_of_reflTransGen hpath h hreach hinner haccess'
    obtain ⟨hnone, -⟩ := of_visit_link hresolve haccess (visit_ne_fail hinner hcollect hlists)
    rw [hlisting] at hnone
    cases hnone
  | loop houter hinner hlists hresolve hchild =>
    obtain ⟨_, _, hinner', haccess⟩ := exists_access_of_lists hlists
    obtain ⟨_, access, houter', haccess'⟩ := exists_access_of_reflTransGen hinner hlists
    obtain rfl := Except.ok.inj (houter'.symm.trans hresolve)
    obtain ⟨_, _, _, hcollect, -⟩ :=
      exists_collect_of_reflTransGen hpath h houter hresolve haccess'
    obtain ⟨_, _, _, hcollect, -, hinside⟩ :=
      exists_collect_of_reflTransGen hresolve hcollect hinner hinner' haccess
    obtain ⟨-, hother⟩ := of_visit_link hchild haccess' (visit_ne_fail hinner' hcollect hlists)
    exact hother _ (hinside List.mem_cons_self) rfl

end

/-! ## Walks that fail -/

section
variable {start path : Path} {directory : Location} {ancestors : List Ancestor} {fuel : Nat}

/-- The directories that a walk is inside of lie between where it began and where it is. -/
def Inside (tree : FileTree) (start path : Path) (ancestors : List Ancestor) : Prop :=
  ∀ ancestor ∈ ancestors, ReflTransGen tree.Holds start ancestor.path ∧
    ReflTransGen tree.Holds ancestor.path path ∧
      tree.resolve ancestor.path = .ok ancestor.location

theorem fault_of_visit_eq_fail (hreach : ReflTransGen tree.Holds start path)
    (hinside : tree.Inside start path ancestors) {child : Path} {entry : Entry}
    (hlists : tree.Lists path child entry) {e : WalkError}
    (h : tree.visit ancestors child entry = .fail e) : tree.Fault start e := by
  have hvisits := visits_visit tree ancestors child entry
  generalize tree.visit ancestors child entry = visit at h hvisits
  cases hvisits with
  | file => exact absurd h visitNamed_ne_fail
  | toFile => exact absurd h visitNamed_ne_fail
  | directory | toNothing | toDirectory => cases h
  | unresolved hfile hresolve =>
    cases h
    exact .unresolved hreach hlists hfile hresolve
  | unopened hresolve haccess hlisting =>
    cases h
    exact .unopened hreach hlists hresolve haccess hlisting
  | loop hresolve haccess hmem hsame =>
    cases h
    obtain ⟨houter, hinner, hancestor⟩ := hinside _ hmem
    exact .loop houter hinner hlists (hancestor.trans (congrArg Except.ok hsame)) hresolve

theorem Inside.cons (hinside : tree.Inside start path ancestors)
    (hpath : tree.resolve path = .ok directory) (hreach : ReflTransGen tree.Holds start path) :
    tree.Inside start path (⟨path, directory⟩ :: ancestors) :=
  List.forall_mem_cons.2 ⟨⟨hreach, .refl, hpath⟩, hinside⟩

theorem Inside.child (hinside : tree.Inside start path ancestors) {child : Path}
    (hholds : tree.Holds path child) : tree.Inside start child ancestors := by
  intro ancestor hmem
  obtain ⟨houter, hinner, hancestor⟩ := hinside ancestor hmem
  exact ⟨houter, hinner.tail hholds, hancestor⟩

theorem listing_of_list_eq_error {access : Access} (haccess : tree.access? directory = some access)
    {reason : FileError} (h : tree.list directory = .error reason) :
    access.listing = some reason := by
  unfold list at h
  rw [haccess] at h
  dsimp only at h
  cases hlisting : access.listing with
  | none =>
    rw [hlisting] at h
    cases h
  | some reason' =>
    rw [hlisting] at h
    rw [Except.error.inj h]

/-- A directory that is entered leaves less depth. -/
theorem depthLeft_lt_of_enter (hpath : tree.resolve path = .ok directory) {name : Text}
    {entry : Entry} (hentry : tree.entry? (directory ++ [name]) = some entry) {location : Location}
    (h : tree.visit ancestors (path.child name) entry = .enter location) :
    (∃ access, tree.access? location = some access) ∧
      tree.depthLeft (⟨path.child name, location⟩ :: ancestors) location <
        tree.depthLeft ancestors directory := by
  obtain ⟨hresolve, ⟨access, rfl⟩ | ⟨⟨access, haccess⟩, hother⟩⟩ := of_visit_eq_enter h
  · obtain rfl := eq_of_resolve_child hpath (isName_of_entry hentry) hentry
      (fun _ h => by cases h) hresolve
    exact ⟨⟨access, access?_eq_some_iff.2 hentry⟩, depthLeft_lt_of_entry hentry⟩
  · exact ⟨⟨access, haccess⟩, depthLeft_lt_of_link (access?_eq_some_iff.1 haccess) hother⟩

/-- A walk that fails has met a fault that can be reached from where it began. -/
theorem fault_of_collect (hfuel : tree.depthLeft (⟨path, directory⟩ :: ancestors) directory < fuel)
    (hpath : tree.resolve path = .ok directory)
    (haccess : ∃ access, tree.access? directory = some access)
    (hreach : ReflTransGen tree.Holds start path)
    (hinside : tree.Inside start path ancestors) {e : WalkError}
    (h : tree.collect ancestors path directory fuel = .error e) : tree.Fault start e := by
  induction fuel generalizing ancestors path directory with
  | zero => exact absurd hfuel (Nat.not_lt_zero _)
  | succ fuel ih =>
    cases hlist : tree.list directory with
    | error reason =>
      obtain ⟨access, haccess⟩ := haccess
      unfold collect at h
      rw [hlist] at h
      cases h
      exact .unlisted hreach hpath haccess (listing_of_list_eq_error haccess hlist)
    | ok children =>
      rw [collect_of_list hlist] at h
      cases hfound : children.mapM (tree.walkFrom ancestors path directory fuel) with
      | ok found =>
        rw [hfound] at h
        cases h
      | error e' =>
        rw [hfound] at h
        cases h
        obtain ⟨child, hmem, hwalk⟩ := exists_of_mapM_eq_error hfound
        have hlists := lists_of_mem_children hpath hlist hmem
        have hinside' := hinside.cons hpath hreach
        cases hvisit : tree.visit (⟨path, directory⟩ :: ancestors) (path.child child.1) child.2 with
        | take | leave =>
          rw [walkFrom_of_visit hvisit] at hwalk
          cases hwalk
        | fail e =>
          rw [walkFrom_of_visit hvisit] at hwalk
          cases hwalk
          exact fault_of_visit_eq_fail hreach hinside' hlists hvisit
        | enter location =>
          rw [walkFrom_of_visit hvisit] at hwalk
          obtain ⟨access, -, -, rfl⟩ := list_eq_ok_iff.1 hlist
          obtain ⟨haccess', hless⟩ :=
            depthLeft_lt_of_enter hpath (mem_children_iff.1 hmem) hvisit
          have hholds : tree.Holds path (path.child child.1) := ⟨child.2, hlists⟩
          exact ih (by omega) (of_visit_eq_enter hvisit).1 haccess' (hreach.tail hholds)
            (hinside'.child hholds) hwalk

end

/-! ## The files that a path stands for -/

/-- What a path stands for: itself, unless it leads to a directory, and then the files of statements
that can be reached, unless there is a fault. -/
structure StandsFor (tree : FileTree) (path : Path) : Prop where
  file : tree.isDirectory path = false → tree.filesAt path = .ok [path]
  listing : tree.isDirectory path = true → ∀ files, tree.filesAt path = .ok files →
    tree.Listing path files
  fault : tree.isDirectory path = true → ∀ e, tree.filesAt path = .error e → tree.Fault path e
  fails : tree.isDirectory path = true → ∀ e, tree.Fault path e →
    ∃ e', tree.filesAt path = .error e'

section
variable {path : Path}

theorem isDirectory_iff : tree.isDirectory path = true ↔ ∃ directory access,
    tree.resolve path = .ok directory ∧ tree.access? directory = some access := by
  unfold isDirectory
  cases tree.resolve path with
  | error e => simp
  | ok location => simp [Option.isSome_iff_exists]

theorem filesAt_eq_map_collect (hdirectory : tree.isDirectory path = true) {directory : Location}
    (hpath : tree.resolve path = .ok directory) :
    tree.filesAt path = (tree.collect [] path directory tree.depthBound).map
      fun files => files.mergeSort Path.le := by
  unfold filesAt sqlFiles
  rw [hdirectory, if_pos rfl, hpath]

theorem listing_of_filesAt (hdirectory : tree.isDirectory path = true) {files : List Path}
    (h : tree.filesAt path = .ok files) : tree.Listing path files := by
  have hsorted := pairwise_filesAt h
  obtain ⟨directory, access, hpath, -⟩ := isDirectory_iff.1 hdirectory
  rw [filesAt_eq_map_collect hdirectory hpath] at h
  cases hcollect : tree.collect [] path directory tree.depthBound with
  | error e =>
    rw [hcollect] at h
    cases h
  | ok found =>
    rw [hcollect] at h
    obtain rfl := Except.ok.inj h
    refine ⟨hsorted, ?_, fun file => ?_⟩
    · exact (List.mergeSort_perm _ _).nodup_iff.2 (nodup_of_collect hpath hcollect)
    · rw [List.mem_mergeSort]
      exact ⟨reaches_of_mem_collect hpath hcollect, mem_of_reaches hpath hcollect⟩

theorem fault_of_filesAt (hdirectory : tree.isDirectory path = true) {e : WalkError}
    (h : tree.filesAt path = .error e) : tree.Fault path e := by
  obtain ⟨directory, access, hpath, haccess⟩ := isDirectory_iff.1 hdirectory
  rw [filesAt_eq_map_collect hdirectory hpath] at h
  cases hcollect : tree.collect [] path directory tree.depthBound with
  | ok found =>
    rw [hcollect] at h
    cases h
  | error e' =>
    rw [hcollect] at h
    cases h
    exact fault_of_collect (tree.depthLeft_lt_depthBound _ _) hpath ⟨access, haccess⟩ .refl
      (fun _ h => absurd h List.not_mem_nil) hcollect

theorem exists_error_of_fault (hdirectory : tree.isDirectory path = true) {e : WalkError}
    (h : tree.Fault path e) : ∃ e', tree.filesAt path = .error e' := by
  obtain ⟨directory, access, hpath, -⟩ := isDirectory_iff.1 hdirectory
  rw [filesAt_eq_map_collect hdirectory hpath]
  cases hcollect : tree.collect [] path directory tree.depthBound with
  | ok found => exact absurd h (not_fault_of_collect hpath hcollect e)
  | error e' => exact ⟨e', rfl⟩

theorem standsFor (tree : FileTree) (path : Path) : tree.StandsFor path where
  file hfile := by
    unfold filesAt
    rw [hfile]
    rfl
  listing hdirectory _ h := listing_of_filesAt hdirectory h
  fault hdirectory _ h := fault_of_filesAt hdirectory h
  fails hdirectory _ h := exists_error_of_fault hdirectory h

end

end FileTree

end InsertLayout
