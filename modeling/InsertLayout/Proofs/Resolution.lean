import InsertLayout.Proofs.Outline

/-!
# Where the entries of a directory are

A path to an entry of a directory has the segments of the path to the directory and then the name
(`Path.segments_child`). So following it is following the path to the directory and then the name
(`FileTree.follow_append`), and unless the entry is a link, it leads to where the entry stands
(`FileTree.eq_of_resolve_child`).
-/

set_option autoImplicit false

namespace InsertLayout

/-! ## Segments -/

namespace Path

theorem segments_ne_nil (t : Text) : segments t ≠ [] := by
  fun_cases segments t with
  | _ => simp

theorem segments_append_slash (s t : Text) :
    segments (s ++ '/' :: t) = segments s ++ segments t := by
  induction s with
  | nil => simp [segments]
  | cons c s ih =>
    rw [List.cons_append, segments, segments, ih]
    by_cases h : c = '/'
    · rw [if_pos h, if_pos h]
      rfl
    · rw [if_neg h, if_neg h]
      cases hs : segments s with
      | nil => exact absurd hs (segments_ne_nil s)
      | cons first rest => rfl

theorem segments_of_notMem {t : Text} (h : '/' ∉ t) : segments t = [t] := by
  induction t with
  | nil => rfl
  | cons c t ih =>
    rw [List.mem_cons, not_or] at h
    rw [segments, if_neg (Ne.symm h.1), ih h.2]

/-- The segments of a path to a directory, with or without a slash at its end. -/
def trunk (path : Path) : List Text :=
  if path.getLast? = some '/' then (segments path).dropLast else segments path

theorem segments_eq_trunk (path : Path) :
    segments path = trunk path ∨ segments path = trunk path ++ [[]] := by
  unfold trunk
  split
  · rename_i hlast
    obtain ⟨s, rfl⟩ := List.getLast?_eq_some_iff.1 hlast
    rw [segments_append_slash]
    exact .inr (by simp [segments])
  · exact .inl rfl

variable {path : Path} {name : Text}

/-- The segments of a path to an entry end with its name. -/
theorem segments_child (hne : path ≠ []) (hname : IsName name) :
    segments (path.child name) = trunk path ++ [name] := by
  unfold child trunk
  cases hlast : path.getLast? with
  | none => exact absurd (List.getLast?_eq_none_iff.1 hlast) hne
  | some c =>
    by_cases hc : c = '/'
    · subst hc
      obtain ⟨s, rfl⟩ := List.getLast?_eq_some_iff.1 hlast
      simp only [↓reduceIte, List.append_assoc, List.singleton_append]
      rw [segments_append_slash, segments_append_slash, segments_of_notMem hname.2.2.2]
      simp [segments]
    · have hslash : some c ≠ some '/' := by simpa using hc
      rw [if_neg hslash]
      split
      · rename_i heq
        cases heq
      · rename_i heq
        exact absurd heq hslash
      · rw [segments_append_slash, segments_of_notMem hname.2.2.2]

theorem exists_child_eq_append (path : Path) (name : Text) :
    ∃ front, path.child name = front ++ name := by
  unfold child
  split
  · exact ⟨path, rfl⟩
  · exact ⟨path, rfl⟩
  · exact ⟨path ++ ['/'], by simp⟩

/-- A path to an entry does not end with a slash. -/
theorem trunk_child (hne : path ≠ []) (hname : IsName name) :
    trunk (path.child name) = trunk path ++ [name] := by
  have hslash : (path.child name).getLast? ≠ some '/' := by
    intro hlast
    obtain ⟨front, hfront⟩ := exists_child_eq_append path name
    rw [hfront, List.getLast?_append, List.getLast?_eq_some_getLast hname.1] at hlast
    exact hname.2.2.2 (Option.some.inj hlast ▸ List.getLast_mem hname.1)
  rw [trunk, if_neg hslash, segments_child hne hname]

theorem head?_child (hne : path ≠ []) : (path.child name).head? = path.head? := by
  unfold child
  cases path with
  | nil => exact absurd rfl hne
  | cons c path => split <;> rfl

end Path

/-! ## Paths to entries -/

namespace FileTree

/-- Following segments, through some number of links, ends at a location. -/
def Leads (tree : FileTree) (start : Location) (segments : List Text) (last : Location) : Prop :=
  ∃ links, tree.follow links start segments = .ok last

variable {tree : FileTree}

theorem followWith_append {jump : Location → List Text → Except FileError Location}
    {back : List Text} {last : Location}
    (hjump : ∀ start front, jump start (front ++ back) = .ok last →
      ∃ between, jump start front = .ok between ∧ tree.Leads between back last)
    (hback : ∀ start, tree.followWith jump start back = .ok last → tree.Leads start back last)
    {start : Location} {front : List Text}
    (h : tree.followWith jump start (front ++ back) = .ok last) :
    ∃ between, tree.followWith jump start front = .ok between ∧ tree.Leads between back last := by
  induction front generalizing start with
  | nil => exact ⟨start, rfl, hback start h⟩
  | cons segment front ih =>
    rw [List.cons_append, followWith] at h
    rw [followWith]
    cases hstride : tree.stride start segment with
    | error e =>
      rw [hstride] at h
      cases h
    | ok stride =>
      rw [hstride] at h
      cases stride with
      | arrive next => exact ih h
      | along next texts =>
        dsimp only at h
        rw [← List.append_assoc] at h
        exact hjump _ _ h

/-- Where several segments lead, the ones behind lead from where the ones before do. -/
theorem follow_append {links : Nat} {start last : Location} {front back : List Text}
    (h : tree.follow links start (front ++ back) = .ok last) :
    ∃ between, tree.follow links start front = .ok between ∧ tree.Leads between back last := by
  induction links generalizing start front with
  | zero =>
    refine followWith_append (fun _ _ h => ?_) (fun _ h => ⟨0, h⟩) h
    cases h
  | succ links ih =>
    refine followWith_append (fun _ _ h => ?_) (fun _ h => ⟨links + 1, h⟩) h
    exact ih h

theorem exists_followWith_of_leads {start last : Location} {segments : List Text}
    (h : tree.Leads start segments last) :
    ∃ jump, tree.followWith jump start segments = .ok last := by
  obtain ⟨links, h⟩ := h
  cases links with
  | zero => exact ⟨_, h⟩
  | succ links => exact ⟨_, h⟩

/-- A path to a directory leads there without the slash at its end, too. -/
theorem follow_trunk {links : Nat} {start location : Location} {path : Path}
    (h : tree.follow links start (Path.segments path) = .ok location) :
    tree.follow links start path.trunk = .ok location := by
  rcases path.segments_eq_trunk with htrunk | htrunk
  · rw [← htrunk]
    exact h
  · rw [htrunk] at h
    obtain ⟨between, hbetween, hleads⟩ := follow_append h
    obtain ⟨jump, hlast⟩ := exists_followWith_of_leads hleads
    have hsame : between = location := by
      unfold followWith stride at hlast
      cases haccess : tree.access? between with
      | none =>
        rw [haccess] at hlast
        cases hlast
      | some access =>
        rw [haccess] at hlast
        exact Except.ok.inj hlast
    rw [hbetween, hsame]

/-- A name leads to where its entry stands, unless this is a link. -/
theorem stride_name {directory : Location} {name : Text} (hname : IsName name) {entry : Entry}
    (hentry : tree.entry? (directory ++ [name]) = some entry)
    (hlink : ∀ target, entry ≠ .link target) {next : Stride}
    (h : tree.stride directory name = .ok next) : next = .arrive (directory ++ [name]) := by
  obtain ⟨hnil, hdot, hdots, -⟩ := hname
  unfold stride at h
  simp only [if_neg hnil, if_neg hdot, if_neg hdots, hentry] at h
  cases haccess : tree.access? directory with
  | none =>
    rw [haccess] at h
    cases h
  | some access =>
    rw [haccess] at h
    cases hpassage : access.passage with
    | some reason =>
      simp only [hpassage] at h
      cases h
    | none =>
      simp only [hpassage] at h
      split at h
      · cases h
      · cases entry with
        | link target => exact absurd rfl (hlink target)
        | file content => exact (Except.ok.inj h).symm
        | directory access => exact (Except.ok.inj h).symm

theorem eq_of_leads_name {directory last : Location} {name : Text} (hname : IsName name)
    {entry : Entry} (hentry : tree.entry? (directory ++ [name]) = some entry)
    (hlink : ∀ target, entry ≠ .link target) (h : tree.Leads directory [name] last) :
    last = directory ++ [name] := by
  obtain ⟨jump, h⟩ := exists_followWith_of_leads h
  unfold followWith at h
  cases hstride : tree.stride directory name with
  | error e =>
    rw [hstride] at h
    cases h
  | ok next =>
    obtain rfl := stride_name hname hentry hlink hstride
    rw [hstride] at h
    exact (Except.ok.inj h).symm

theorem resolve_eq_ok_iff {path : Path} {location : Location} : tree.resolve path = .ok location ↔
    path ≠ [] ∧ path.byteLength < pathLimit ∧
      tree.follow maxLinks (startOf tree.workingDirectory path) (Path.segments path) =
        .ok location := by
  unfold resolve
  by_cases hnil : path = []
  · simp [hnil]
  · by_cases hlong : pathLimit ≤ path.byteLength
    · simp [hnil, hlong, Nat.not_lt.2 hlong]
    · simp [hnil, hlong, Nat.lt_of_not_le hlong]

/-- The path to an entry of a directory leads to where the entry stands, unless this is a link. -/
theorem eq_of_resolve_child {path : Path} {directory last : Location} {name : Text} {entry : Entry}
    (hpath : tree.resolve path = .ok directory) (hname : IsName name)
    (hentry : tree.entry? (directory ++ [name]) = some entry)
    (hlink : ∀ target, entry ≠ .link target) (h : tree.resolve (path.child name) = .ok last) :
    last = directory ++ [name] := by
  obtain ⟨hne, -, hfollow⟩ := resolve_eq_ok_iff.1 hpath
  obtain ⟨-, -, hlast⟩ := resolve_eq_ok_iff.1 h
  have hstart : startOf tree.workingDirectory (path.child name) =
      startOf tree.workingDirectory path := by
    unfold startOf
    rw [Path.head?_child hne]
  rw [hstart, Path.segments_child hne hname] at hlast
  obtain ⟨between, hbetween, hleads⟩ := follow_append hlast
  obtain rfl := Except.ok.inj ((follow_trunk hfollow).symm.trans hbetween)
  exact eq_of_leads_name hname hentry hlink hleads

end FileTree

end InsertLayout
