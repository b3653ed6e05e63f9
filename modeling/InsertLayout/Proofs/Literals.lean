import InsertLayout.Proofs.Conservation

/-!
# Quoted regions

`contents quotes t`: what stands in the quoted regions of `t`, region by region, the last one
included if it does not end; `skeleton quotes t`: everything else, the delimiters included.
`regions_induction` goes along the unquoted characters and the quoted regions of a text. Formatting
neither adds nor loses nor changes a content, unless the wrap character stands in one
(`contents_format`).
-/

set_option autoImplicit false

namespace InsertLayout

open Text Statement Document

variable {quotes : QuoteSet} {options : Options}

/-! ## Regions -/

/-- What stands in the quoted regions, the one that is open at the front included. -/
def contentsFrom (quotes : QuoteSet) : QuoteState → Text → List Text
  | .unquoted, [] => []
  | .quotedBy _, [] => [[]]
  | .unquoted, c :: t => contentsFrom quotes (QuoteState.unquoted.step quotes c) t
  | .quotedBy q, c :: t =>
    if c = q then [] :: contentsFrom quotes .unquoted t
    else (contentsFrom quotes (.quotedBy q) t).modifyHead (c :: ·)

/-- The contents of the quoted regions, in order. -/
def contents (quotes : QuoteSet) (t : Text) : List Text := contentsFrom quotes .unquoted t

/-- Outside quotes, a character is kept; inside, only the one that ends the region is. -/
def keepOutside : QuoteState → Char → Text
  | .unquoted, c => [c]
  | .quotedBy q, c => if c = q then [c] else []

/-- The unquoted characters and the delimiters of the quoted regions, in order. -/
def skeleton (quotes : QuoteSet) (t : Text) : Text := scanned quotes keepOutside .unquoted t

/-- Induction along the unquoted characters and the quoted regions of a text. -/
theorem regions_induction (quotes : QuoteSet) {motive : Text → Prop} (nil : motive [])
    (char : ∀ c t, c ∉ quotes → motive t → motive (c :: t))
    (region : ∀ q x t, q ∈ quotes → q ∉ x → motive t → motive (q :: (x ++ q :: t)))
    (opened : ∀ q x, q ∈ quotes → q ∉ x → motive (q :: x)) (t : Text) : motive t := by
  induction h : t.length using Nat.strongRecOn generalizing t with
  | ind n ih =>
    subst h
    cases t with
    | nil => exact nil
    | cons c t =>
      by_cases hc : c ∈ quotes
      · by_cases hmem : c ∈ t
        · obtain ⟨x, r, rfl, hx⟩ := List.eq_append_cons_of_mem hmem
          exact region c x r hc hx (ih r.length (by simp; omega) r rfl)
        · exact opened c t hc hmem
      · exact char c t hc (ih t.length (by simp) t rfl)

section
variable {q : Char} {x : Text}

theorem scan_quotedBy (hx : q ∉ x) : (QuoteState.quotedBy q).scan quotes x = .quotedBy q := by
  induction x with
  | nil => rfl
  | cons c x ih =>
    obtain ⟨hc, hx⟩ := List.ne_and_not_mem_of_not_mem_cons hx
    rw [QuoteState.scan_cons, QuoteState.step, if_neg (Ne.symm hc), ih hx]

theorem balanced_region (hq : q ∈ quotes) (hx : q ∉ x) : Balanced quotes (q :: (x ++ [q])) := by
  rw [Text.Balanced, QuoteState.scan_cons, QuoteState.step, if_pos hq, QuoteState.scan_append,
    scan_quotedBy hx]
  simp [QuoteState.step]

theorem not_balanced_opened (hq : q ∈ quotes) (hx : q ∉ x) : ¬ Balanced quotes (q :: x) := by
  rw [Text.Balanced, QuoteState.scan_cons, QuoteState.step, if_pos hq, scan_quotedBy hx]
  exact QuoteState.noConfusion

theorem balanced_region_iff (hq : q ∈ quotes) (hx : q ∉ x) {t : Text} :
    Balanced quotes (q :: (x ++ q :: t)) ↔ Balanced quotes t := by
  rw [← balanced_append_iff (t := t) (balanced_region hq hx)]
  simp

/-! ## Contents -/

theorem contents_cons {c : Char} (hc : c ∉ quotes) (t : Text) :
    contents quotes (c :: t) = contents quotes t := by
  rw [contents, contentsFrom, QuoteState.step, if_neg hc, ← contents]

theorem contentsFrom_quotedBy (hx : q ∉ x) (t : Text) :
    contentsFrom quotes (.quotedBy q) (x ++ t) =
      (contentsFrom quotes (.quotedBy q) t).modifyHead (x ++ ·) := by
  induction x with
  | nil => exact (congrFun List.modifyHead_id _).symm
  | cons c x ih =>
    obtain ⟨hc, hx⟩ := List.ne_and_not_mem_of_not_mem_cons hx
    rw [List.cons_append, contentsFrom, if_neg (Ne.symm hc), ih hx, List.modifyHead_modifyHead]
    rfl

theorem contents_region (hq : q ∈ quotes) (hx : q ∉ x) (t : Text) :
    contents quotes (q :: (x ++ q :: t)) = x :: contents quotes t := by
  rw [contents, contentsFrom, QuoteState.step, if_pos hq, contentsFrom_quotedBy hx, contentsFrom,
    if_pos rfl, List.modifyHead_cons, List.append_nil, ← contents]

theorem contents_opened (hq : q ∈ quotes) (hx : q ∉ x) : contents quotes (q :: x) = [x] := by
  rw [contents, contentsFrom, QuoteState.step, if_pos hq, ← List.append_nil x,
    contentsFrom_quotedBy hx, contentsFrom, List.modifyHead_cons]

theorem contents_append {s : Text} (hs : Balanced quotes s) (t : Text) :
    contents quotes (s ++ t) = contents quotes s ++ contents quotes t := by
  induction s using regions_induction quotes with
  | nil => rfl
  | char c s hc ih =>
    rw [List.cons_append, contents_cons hc, contents_cons hc, ih ((balanced_cons_iff hc).1 hs)]
  | region q x s hq hx ih =>
    rw [List.cons_append, List.append_assoc, List.cons_append, contents_region hq hx,
      contents_region hq hx, ih ((balanced_region_iff hq hx).1 hs), List.cons_append]
  | opened q x hq hx => exact absurd hs (not_balanced_opened hq hx)

theorem contents_of_notMem {t : Text} (h : ∀ c ∈ t, c ∉ quotes) : contents quotes t = [] := by
  induction t with
  | nil => rfl
  | cons c t ih =>
    obtain ⟨hc, ht⟩ := List.forall_mem_cons.1 h
    rw [contents_cons hc, ih ht]

/-! ## The skeleton -/

@[simp] theorem skeleton_nil : skeleton quotes [] = [] := rfl

theorem skeleton_cons {c : Char} (hc : c ∉ quotes) (t : Text) :
    skeleton quotes (c :: t) = c :: skeleton quotes t := by
  rw [skeleton, scanned, QuoteState.step, if_neg hc]
  rfl

theorem scanned_quotedBy (hx : q ∉ x) (t : Text) :
    scanned quotes keepOutside (.quotedBy q) (x ++ t) =
      scanned quotes keepOutside (.quotedBy q) t := by
  induction x with
  | nil => rfl
  | cons c x ih =>
    obtain ⟨hc, hx⟩ := List.ne_and_not_mem_of_not_mem_cons hx
    rw [List.cons_append, scanned, keepOutside, if_neg (Ne.symm hc), QuoteState.step,
      if_neg (Ne.symm hc), ih hx, List.nil_append]

theorem skeleton_region (hq : q ∈ quotes) (hx : q ∉ x) (t : Text) :
    skeleton quotes (q :: (x ++ q :: t)) = q :: q :: skeleton quotes t := by
  rw [skeleton, scanned, QuoteState.step, if_pos hq, scanned_quotedBy hx, scanned,
    show keepOutside (.quotedBy q) q = [q] from if_pos rfl, QuoteState.step, if_pos rfl]
  rfl

theorem skeleton_opened (hq : q ∈ quotes) (hx : q ∉ x) : skeleton quotes (q :: x) = [q] := by
  rw [skeleton, scanned, QuoteState.step, if_pos hq, ← List.append_nil x, scanned_quotedBy hx]
  rfl

end

/-! ## Formatting keeps the contents -/

theorem faithful_contents (hq : options.quotes.Plain) :
    Reading.Faithful options (contents options.quotes) where
  reading :=
    { append := fun hs => contents_append hs _
      blank := fun hb => contents_of_notMem (hq.notMem_of_mem_blank hb) }
  opening := contents_of_notMem (by simpa using hq.open_notMem)
  comma := contents_of_notMem (by simpa using hq.comma_notMem)

/-- The wrap character is no quote and stands in no quoted region. -/
def WrapsOutside (options : Options) (t : Text) : Prop :=
  ∀ w, options.columnWrap = some w →
    w ∉ options.quotes ∧ ∀ x ∈ contents options.quotes t, w ∉ x

section
variable {w q : Char} (hw : w ∉ quotes) (hq : q ∈ quotes)
include hw hq

/-- Characters are taken out behind a region as if it stood alone. -/
theorem filter_region {x : Text} (hx : w ∉ x) (t : Text) :
    (q :: (x ++ q :: t)).filter (· != w) = q :: (x ++ q :: t.filter (· != w)) := by
  have hne : (q != w) = true := by simpa using fun he : q = w => hw (he ▸ hq)
  have hsame : x.filter (· != w) = x :=
    List.filter_eq_self.2 fun d hd => by simpa using fun he : d = w => hx (he ▸ hd)
  simp [List.filter_append, hne, hsame]

theorem filter_opened {x : Text} (hx : w ∉ x) : (q :: x).filter (· != w) = q :: x := by
  rw [List.filter_eq_self, List.forall_mem_cons]
  constructor
  · simpa using fun he : q = w => hw (he ▸ hq)
  · exact fun d hd => by simpa using fun he : d = w => hx (he ▸ hd)

end

theorem contents_filter {w : Char} (hw : w ∉ quotes) {t : Text}
    (h : ∀ x ∈ contents quotes t, w ∉ x) :
    contents quotes (t.filter (· != w)) = contents quotes t := by
  induction t using regions_induction quotes with
  | nil => rfl
  | char c t hc ih =>
    rw [contents_cons hc] at h ⊢
    rw [List.filter_cons]
    split
    · rw [contents_cons hc, ih h]
    · exact ih h
  | region q x t hq hx ih =>
    rw [contents_region hq hx] at h ⊢
    obtain ⟨hwx, h⟩ := List.forall_mem_cons.1 h
    rw [filter_region hw hq hwx, contents_region hq hx, ih h]
  | opened q x hq hx =>
    rw [contents_opened hq hx] at h ⊢
    rw [filter_opened hw hq (h x List.mem_cons_self), contents_opened hq hx]

theorem contents_wrapColumn {t : Text} (ht : Balanced options.quotes t)
    (hwrap : WrapsOutside options t) :
    contents options.quotes (wrapColumn options.columnWrap t) = contents options.quotes t := by
  cases hcol : options.columnWrap with
  | none => rfl
  | some w =>
    obtain ⟨hw, hcontents⟩ := hwrap w hcol
    have hfilter : Balanced options.quotes (t.filter (· != w)) := by
      rw [Text.Balanced, scan_filter hw fun q h => by cases h]
      exact ht
    rw [wrapColumn, List.cons_append, contents_cons hw, contents_append hfilter,
      contents_of_notMem (t := [w]) (by simpa using hw), List.append_nil,
      contents_filter hw hcontents]

/-- What is read of a column is read of the text, if of a comma nothing is. -/
theorem Reading.Faithful.mem_of_mem_column {β : Type} {read : Text → List β}
    (hr : Faithful options read) (hq : options.quotes.Plain) {t : Text} {p : Parts}
    (hp : p ∈ partsOf options.quotes t) {c : Text}
    (hc : c ∈ columnNames options.quotes p.columns) :
    Balanced options.quotes c ∧ ∀ b ∈ read c, b ∈ read t := by
  induction t using ofText_induction options.quotes with
  | last t h => rw [partsOf_of_none h] at hp; cases hp
  | more gap w u rest h ih =>
    rw [hr.reading.located hq h]
    rcases (mem_partsOf_of_located h).1 hp with hp | hp
    · obtain ⟨blanks, lead, xs, hd⟩ := exists_dissection hq h.balanced h.avoids hp
      rw [columnNames_eq] at hc
      have hcell := (List.mem_filter.1 hc).1
      refine ⟨(cell_of_mem_split hq hd.columns_balanced hcell).balanced, fun b hb => ?_⟩
      have hcolumns : b ∈ ((columnCells options.quotes p.columns).map read).flatten :=
        List.mem_flatten.2 ⟨_, List.mem_map_of_mem hcell, hb⟩
      rw [hr.reading.dissection hq hd, readStatement, hr.comma, intercalate_nil_left]
      simp only [List.mem_append]
      exact .inr (.inl (.inr (.inr (.inl hcolumns))))
    · obtain ⟨hbal, hmem⟩ := ih hp
      exact ⟨hbal, fun b hb => by simp [hmem b hb]⟩

section
variable (hq : options.quotes.Plain) {t : Text} (hwrap : WrapsOutside options t)
include hq hwrap

theorem WrapsOutside.column {p : Parts} (hp : p ∈ partsOf options.quotes t) {c : Text}
    (hc : c ∈ columnNames options.quotes p.columns) : WrapsOutside options c := fun w hw =>
  ⟨(hwrap w hw).1, fun x hx =>
    (hwrap w hw).2 x (((faithful_contents hq).mem_of_mem_column hq hp hc).2 x hx)⟩

/-- Formatting keeps the contents of the quoted regions. -/
theorem contents_format : contents options.quotes (format options t) = contents options.quotes t :=
  (faithful_contents hq).format_eq hq (fun w hw => (hwrap w hw).1) fun _ hp _ hc =>
    contents_wrapColumn ((faithful_contents hq).mem_of_mem_column hq hp hc).1
      (hwrap.column hq hp hc)

end

end InsertLayout
