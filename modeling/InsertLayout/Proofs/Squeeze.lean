import InsertLayout.Proofs.Reading

/-!
# What formatting changes besides blanks

`squeeze quotes t` is a text without the blanks outside its quotes. Without wrapping, formatting
adds the parenthesis that opens a row where there is none, and drops the comma behind an empty
column, and changes nothing else; from the text to the formatted text the parentheses only become
more and the commas only fewer (`Drift`), so that no change is undone by another one. A row without
a parenthesis of its own is what the list of values is cut into behind a call inside a row, such as
`(NOW(), 1)`. Hence a text keeps everything but blanks exactly if no column is empty and each `)`
that a comma follows closes a row (`squeeze_format_iff`).
-/

set_option autoImplicit false

namespace InsertLayout

open Text Statement Document

variable {quotes : QuoteSet} {options : Options}

/-- A character, unless it is a blank outside quotes. -/
def keepInk : QuoteState → Char → Text
  | .unquoted, c => if isBlank c then [] else [c]
  | .quotedBy _, c => [c]

/-- The text without its blanks outside quotes. -/
def squeeze (quotes : QuoteSet) (t : Text) : Text := Text.scanned quotes keepInk .unquoted t

theorem reading_squeeze (hq : quotes.Plain) : Reading quotes (squeeze quotes) :=
  reading_scanned hq fun c hc => by simp [keepInk, hc]

theorem squeeze_singleton {c : Char} (hc : isBlank c = false) : squeeze quotes [c] = [c] := by
  simp [squeeze, Text.scanned, keepInk, hc]

/-! ## Added parentheses and dropped commas -/

/-- From `s` to `t`, parentheses become only more and commas only fewer, and if neither happens the
texts are the same. -/
structure Drift (s t : Text) : Prop where
  opens : s.count '(' ≤ t.count '('
  commas : t.count ',' ≤ s.count ','
  eq : s.count '(' = t.count '(' → s.count ',' = t.count ',' → s = t

theorem Drift.refl (s : Text) : Drift s s := ⟨Nat.le_refl _, Nat.le_refl _, fun _ _ => rfl⟩

theorem Drift.append {s t s' t' : Text} (h : Drift s t) (h' : Drift s' t') :
    Drift (s ++ s') (t ++ t') where
  opens := by
    have := h.opens
    have := h'.opens
    simp only [List.count_append]
    omega
  commas := by
    have := h.commas
    have := h'.commas
    simp only [List.count_append]
    omega
  eq hopens hcommas := by
    simp only [List.count_append] at hopens hcommas
    have := h.opens
    have := h'.opens
    have := h.commas
    have := h'.commas
    rw [h.eq (by omega) (by omega), h'.eq (by omega) (by omega)]

/-- Drifts of two parts of a text do not cancel out. -/
theorem Drift.append_eq_iff {s t s' t' : Text} (h : Drift s t) (h' : Drift s' t') :
    s ++ s' = t ++ t' ↔ s = t ∧ s' = t' := by
  constructor
  · intro heq
    have hopens := congrArg (List.count '(') heq
    have hcommas := congrArg (List.count ',') heq
    simp only [List.count_append] at hopens hcommas
    have := h.opens
    have := h'.opens
    have := h.commas
    have := h'.commas
    exact ⟨h.eq (by omega) (by omega), h'.eq (by omega) (by omega)⟩
  · rintro ⟨rfl, rfl⟩
    rfl

/-- The number of times that a character occurs in joined texts. -/
theorem count_intercalate (c : Char) (sep : Text) (l : List Text) :
    (List.intercalate sep l).count c = l.flatten.count c + (l.length - 1) * sep.count c := by
  induction l with
  | nil => simp
  | cons s l ih =>
    cases l with
    | nil => simp
    | cons s' l =>
      rw [List.intercalate_cons_cons, List.count_append, List.count_append, ih,
        List.flatten_cons (l := s), List.count_append]
      simp only [List.length_cons, Nat.add_sub_cancel]
      rw [Nat.add_mul, Nat.one_mul]
      omega

section
variable {α : Type} {sep : Text} {xs : List α} {f g : α → Text}

theorem drift_intercalate (h : ∀ x ∈ xs, Drift (f x) (g x)) :
    Drift (List.intercalate sep (xs.map f)) (List.intercalate sep (xs.map g)) := by
  induction xs with
  | nil => exact Drift.refl _
  | cons x xs ih =>
    obtain ⟨hx, h⟩ := List.forall_mem_cons.1 h
    cases xs with
    | nil => simpa using hx
    | cons y xs => simpa using hx.append ((Drift.refl sep).append (ih h))

theorem drift_intercalate_eq_iff (h : ∀ x ∈ xs, Drift (f x) (g x)) :
    List.intercalate sep (xs.map f) = List.intercalate sep (xs.map g) ↔ ∀ x ∈ xs, f x = g x := by
  induction xs with
  | nil => simp
  | cons x xs ih =>
    obtain ⟨hx, h⟩ := List.forall_mem_cons.1 h
    cases xs with
    | nil => simp
    | cons y xs =>
      have hrest : Drift (sep ++ List.intercalate sep ((y :: xs).map f))
          (sep ++ List.intercalate sep ((y :: xs).map g)) :=
        (Drift.refl sep).append (drift_intercalate h)
      have hiff := hx.append_eq_iff hrest
      rw [List.append_cancel_left_eq, ih h] at hiff
      rw [List.forall_mem_cons]
      simpa using hiff

end

/-! ## Empty columns -/

/-- No column is empty, unless nothing stands in the list of columns. -/
def ColumnsFilled (quotes : QuoteSet) (t : Text) : Prop :=
  columnCells quotes t = [[]] ∨ [] ∉ columnCells quotes t

instance (t : Text) : Decidable (ColumnsFilled quotes t) := inferInstanceAs (Decidable (_ ∨ _))

section
variable {cells : List Text} {ink : Text → Text} (hne : cells ≠ []) (hink : ink [] = [])
include hne hink

/-- Dropping the empty cells from a list drops a comma each. -/
theorem drift_filter :
    Drift (List.intercalate [','] (cells.map ink))
        (List.intercalate [','] ((cells.filter (!·.isEmpty)).map ink)) ∧
      (List.intercalate [','] (cells.map ink) =
        List.intercalate [','] ((cells.filter (!·.isEmpty)).map ink) ↔
        cells = [[]] ∨ [] ∉ cells) := by
  have hflatten := flatten_map_filter hink cells
  have hopens : (List.intercalate [','] ((cells.filter (!·.isEmpty)).map ink)).count '(' =
      (List.intercalate [','] (cells.map ink)).count '(' := by
    rw [count_intercalate, count_intercalate, hflatten]
    simp
  have hcommas : ∀ l : List Text, (List.intercalate [','] l).count ',' =
      l.flatten.count ',' + (l.length - 1) := fun l => by
    rw [count_intercalate]
    simp
  have hle := List.length_filter_le (!·.isEmpty) cells
  have hpos := List.length_pos_iff.2 hne
  have hfilled : (cells = [[]] ∨ [] ∉ cells) → List.intercalate [','] (cells.map ink) =
      List.intercalate [','] ((cells.filter (!·.isEmpty)).map ink) := by
    rintro (rfl | hfilled)
    · simp [hink]
    · rw [List.filter_eq_self.2]
      intro f hf
      cases f with
      | nil => exact absurd hf hfilled
      | cons => rfl
  -- As many commas are left as before only if no cell is dropped, or the only one.
  have hcount : (List.intercalate [','] (cells.map ink)).count ',' =
      (List.intercalate [','] ((cells.filter (!·.isEmpty)).map ink)).count ',' →
        cells = [[]] ∨ [] ∉ cells := by
    intro h
    rw [hcommas, hcommas, hflatten, List.length_map, List.length_map] at h
    by_cases hlen : (cells.filter (!·.isEmpty)).length = cells.length
    · refine .inr fun hmem => ?_
      have := List.length_filter_eq_length_iff.1 hlen [] hmem
      simp at this
    · have hone : cells.length = 1 := by omega
      obtain ⟨f, rfl⟩ := List.length_eq_one_iff.1 hone
      cases f with
      | nil => exact .inl rfl
      | cons c f => simp at hlen
  refine ⟨⟨Nat.le_of_eq hopens.symm, ?_, fun _ h => hfilled (hcount h)⟩,
    fun h => hcount (by rw [h]), hfilled⟩
  rw [hcommas, hcommas, hflatten, List.length_map, List.length_map]
  omega

end

/-! ## Rows without an opening parenthesis -/

/-- Behind each unquoted `)` that a comma follows, another row opens. -/
def RowsOpened (quotes : QuoteSet) (t : Text) : Prop :=
  ∀ a b rest, t = a ++ ')' :: (b ++ ',' :: rest) → Balanced quotes a → Blank b →
    (trimLeft rest).head? = some '('

theorem rowOpening_eq_iff {x : Text} : rowOpening x = ['('] ↔ x.trimLeft.head? = some '(' := by
  unfold rowOpening
  split <;> simp_all

/-- A list of values opens if its first row does. -/
theorem head?_valueList {t y : Text} {ys : List Text} (h : ValueList quotes t (y :: ys)) :
    t.trimLeft.head? = some '(' ↔ rowOpening y = ['('] := by
  rw [rowOpening_eq_iff]
  have hclose : ∀ u : Text, (trimLeft (y ++ ')' :: u)).head? = some '(' ↔
      y.trimLeft.head? = some '(' := by
    intro u
    rw [head?_trimLeft_append, trimLeft_cons (by decide)]
    cases y.trimLeft <;> simp
  cases h with
  | last => exact hclose _
  | more => exact hclose _

/-- Between two rows, another row opens if one does behind the comma. -/
theorem rowsOpened_append_iff (hq : quotes.Plain) {y c : Text} (hy : Balanced quotes y)
    (havoid : AvoidsRowEnd quotes y) (hc : Blank c) (u : Text) :
    RowsOpened quotes (y ++ ')' :: (c ++ ',' :: u)) ↔
      (trimLeft u).head? = some '(' ∧ RowsOpened quotes u := by
  constructor
  · intro hopened
    refine ⟨hopened y c u rfl hy hc, fun a b rest he ha hb => ?_⟩
    refine hopened (y ++ ')' :: (c ++ ',' :: a)) b rest (by rw [he]; simp) ?_ hb
    simpa using hy.append ((balanced_separator hq hc).append ha)
  · rintro ⟨hhead, hopened⟩ a b rest he ha hb
    rcases append_eq_append_cons he with ⟨v, rfl, hv⟩ | ⟨v, rfl, hv⟩
    · -- The parenthesis stands in the first row, which it would have closed.
      refine absurd ?_ (havoid a v rfl ha)
      have htrim := congrArg (List.head? ∘ trimLeft) hv
      simp only [Function.comp_apply] at htrim
      rw [trimLeft_append hb, trimLeft_cons (by decide), head?_trimLeft_append,
        trimLeft_cons (by decide)] at htrim
      cases hl : (trimLeft v).head? with
      | none => rw [hl] at htrim; cases htrim
      | some d => rw [hl] at htrim; exact htrim.symm
    · rcases List.cons_eq_append_iff.1 hv with ⟨rfl, hclose⟩ | ⟨v, rfl, hseparator⟩
      · have htrim := congrArg trimLeft (List.cons.inj hclose).2
        rw [trimLeft_append hb, trimLeft_append hc, trimLeft_cons (by decide),
          trimLeft_cons (by decide)] at htrim
        rwa [(List.cons.inj htrim).2]
      · -- The parenthesis stands behind the comma of the first row.
        rcases append_eq_append_cons hseparator with ⟨z, rfl, -⟩ | ⟨z, rfl, hcomma⟩
        · exact absurd (List.mem_append_right v List.mem_cons_self) (hc.notMem (by decide))
        · rcases List.cons_eq_append_iff.1 hcomma with ⟨-, hz⟩ | ⟨z, rfl, rfl⟩
          · simp at hz
          · refine hopened z b rest rfl ?_ hb
            rw [show y ++ ')' :: (c ++ ',' :: z) = (y ++ ')' :: (c ++ [','])) ++ z by simp] at ha
            exact (balanced_append_iff (Balanced.append hy (balanced_separator hq hc))).1 ha

theorem rowsOpened_iff (hq : quotes.Plain) {t x : Text} {xs : List Text}
    (h : ValueList quotes t (x :: xs)) :
    RowsOpened quotes t ↔ ∀ y ∈ xs, rowOpening y = ['('] := by
  generalize hl : x :: xs = l at h
  induction h generalizing x xs with
  | @last y hy havoid =>
    obtain ⟨-, rfl⟩ := List.cons.inj hl
    have hend : AvoidsRowEnd quotes (y ++ [')', ';']) :=
      havoid.append hy (avoidsRowEnd_of_avoids hq (avoids_of_notMem List.mem_cons_self (by decide)))
        (.inl (by decide))
    refine ⟨fun _ z hz => absurd hz List.not_mem_nil, fun _ a b rest he ha hb => ?_⟩
    refine absurd ?_ (hend a _ he ha)
    rw [trimLeft_append hb, trimLeft_cons (by decide)]
    rfl
  | @more y c u ys hy havoid hc hu ih =>
    obtain ⟨-, rfl⟩ := List.cons.inj hl
    obtain ⟨z, zs, rfl⟩ := List.exists_cons_of_ne_nil hu.rows_ne_nil
    rw [List.forall_mem_cons, ← head?_valueList hu, ← ih rfl]
    exact rowsOpened_append_iff hq hy havoid hc u

/-! ## One statement -/

/-- A row drifts by the parenthesis that it lacks. -/
theorem drift_readRow (x : Text) (row : List Text) :
    Drift (readRow (squeeze quotes) (rowOpening x) row) (readRow (squeeze quotes) ['('] row) ∧
      (readRow (squeeze quotes) (rowOpening x) row = readRow (squeeze quotes) ['('] row ↔
        rowOpening x = ['(']) := by
  have hopen : squeeze quotes ['('] = ['('] := squeeze_singleton (by decide)
  have hnil : squeeze quotes [] = [] := rfl
  have hcancel : readRow (squeeze quotes) (rowOpening x) row = readRow (squeeze quotes) ['('] row ↔
      squeeze quotes (rowOpening x) = ['('] := by
    unfold readRow
    rw [List.append_cancel_right_eq, hopen]
  rw [hcancel]
  rcases (show rowOpening x = ['('] ∨ rowOpening x = [] by rw [rowOpening]; split <;> simp) with
    hx | hx
  · rw [hx]
    exact ⟨Drift.refl _, by simp [hopen]⟩
  · rw [hx, hnil]
    refine ⟨Drift.append ?_ (Drift.refl _), by simp⟩
    rw [hopen, hnil]
    exact ⟨by decide, by decide, by decide⟩

section
variable (hq : quotes.Plain) {t : Text} {p : Parts} {blanks lead : Text} {xs : List Text}
  (hd : Dissection quotes t p blanks lead xs)
include hq hd

/-- The rows of a statement drift by the parentheses that they lack. -/
theorem drift_rows :
    Drift
        (List.intercalate (squeeze quotes [')'] ++ squeeze quotes [','])
          (xs.map fun x => readRow (squeeze quotes) (rowOpening x) (rowFields quotes x)))
        (List.intercalate (squeeze quotes [')'] ++ squeeze quotes [','])
          (xs.map fun x => readRow (squeeze quotes) ['('] (rowFields quotes x))) ∧
      (List.intercalate (squeeze quotes [')'] ++ squeeze quotes [','])
          (xs.map fun x => readRow (squeeze quotes) (rowOpening x) (rowFields quotes x)) =
        List.intercalate (squeeze quotes [')'] ++ squeeze quotes [','])
          (xs.map fun x => readRow (squeeze quotes) ['('] (rowFields quotes x)) ↔
        RowsOpened quotes p.values) := by
  have hrow : ∀ x ∈ xs, Drift (readRow (squeeze quotes) (rowOpening x) (rowFields quotes x))
      (readRow (squeeze quotes) ['('] (rowFields quotes x)) := fun x _ => (drift_readRow x _).1
  refine ⟨drift_intercalate hrow, ?_⟩
  -- The first row has a parenthesis, since the values start with one.
  obtain ⟨x, ys, rfl⟩ := List.exists_cons_of_ne_nil hd.list.rows_ne_nil
  have hfirst : rowOpening x = ['('] := by
    rw [← head?_valueList hd.list]
    cases hv : p.values with
    | nil => exact absurd hv hd.list.ne_nil
    | cons c v =>
      have hstarts := hd.starts
      rw [hv] at hstarts
      obtain rfl : c = '(' := by simpa [startsWithRow] using hstarts
      rw [trimLeft_cons (by decide)]
      rfl
  rw [drift_intercalate_eq_iff hrow, rowsOpened_iff hq hd.list, List.forall_mem_cons]
  simp only [(drift_readRow _ _).2, hfirst, true_and]

end

/-- Rendering a statement adds the parentheses that rows lack, and drops the commas of empty
columns. -/
theorem drift_render (hq : options.quotes.Plain) (hwrap : options.columnWrap = none) {t : Text}
    {p : Parts} {blanks lead : Text} {xs : List Text}
    (hd : Dissection options.quotes t p blanks lead xs) :
    Drift (squeeze options.quotes t) (squeeze options.quotes (ofParts options p).render) ∧
      (squeeze options.quotes t = squeeze options.quotes (ofParts options p).render ↔
        ColumnsFilled options.quotes p.columns ∧ RowsOpened options.quotes p.values) := by
  have hr := reading_squeeze hq
  have hclosed := quotesClosed_ofParts hq (by simp [hwrap]) hd
  have hcolumns : (ofParts options p).columns =
      (columnCells options.quotes p.columns).filter (!·.isEmpty) := by
    unfold ofParts
    rw [parseColumns_eq, hwrap, columnNames_eq]
    exact List.map_id _
  have hrows : (ofParts options p).rows.map (readRow (squeeze options.quotes) ['(']) =
      xs.map fun x => readRow (squeeze options.quotes) ['('] (rowFields options.quotes x) := by
    unfold ofParts
    rw [hd.rows_eq hq, List.map_map]
    rfl
  have hclause : (ofParts options p).clause = p.clause.trim := rfl
  have hkeyword : (ofParts options p).keyword = p.keyword := rfl
  have hcells : columnCells options.quotes p.columns ≠ [] := by
    simpa [columnCells] using Needle.split_ne_nil ',' p.columns
  have hcomma : squeeze options.quotes [','] = [','] := squeeze_singleton (by decide)
  obtain ⟨hcdrift, hciff⟩ := drift_filter hcells hr.nil
  obtain ⟨hrdrift, hriff⟩ := drift_rows hq hd
  rw [hcomma] at hrdrift hriff
  have htail := (Drift.refl (squeeze options.quotes [')'])).append <|
    (Drift.refl (squeeze options.quotes p.keyword)).append <| hrdrift.append <|
      Drift.refl (squeeze options.quotes [')'] ++ squeeze options.quotes [';'])
  rw [hr.dissection hq hd, hr.render hq hclosed (rows_ne_nil_ofParts hq hd), hcolumns, hrows,
    hclause, hkeyword, readStatement, readStatement, hcomma]
  refine ⟨(Drift.refl _).append ((Drift.refl _).append (hcdrift.append htail)), ?_⟩
  rw [List.append_cancel_left_eq, List.append_cancel_left_eq, hcdrift.append_eq_iff htail, hciff,
    List.append_cancel_left_eq, List.append_cancel_left_eq, List.append_cancel_right_eq, hriff]
  rfl

/-! ## Whole texts -/

theorem drift_format (hq : options.quotes.Plain) (hwrap : options.columnWrap = none) (t : Text) :
    Drift (squeeze options.quotes t) (squeeze options.quotes (format options t)) ∧
      (squeeze options.quotes t = squeeze options.quotes (format options t) ↔
        ∀ p ∈ partsOf options.quotes t,
          ColumnsFilled options.quotes p.columns ∧ RowsOpened options.quotes p.values) := by
  have hr := reading_squeeze hq
  induction t using ofText_induction options.quotes with
  | last t h =>
    rw [format_of_none h, partsOf_of_none h]
    exact ⟨Drift.refl _, by simp⟩
  | more gap w u rest h ih =>
    rw [hr.located hq h, hr.format_located hq h (by simp [hwrap])]
    have hstatement : Drift (squeeze options.quotes (w ++ u ++ [')', ';']))
          (squeeze options.quotes (formatStatement options (w ++ u ++ [')', ';']))) ∧
        (squeeze options.quotes (w ++ u ++ [')', ';']) =
          squeeze options.quotes (formatStatement options (w ++ u ++ [')', ';'])) ↔
          ∀ p, cutParts options.quotes (w ++ u ++ [')', ';']) = .ok p →
            ColumnsFilled options.quotes p.columns ∧ RowsOpened options.quotes p.values) := by
      cases hparts : cutParts options.quotes (w ++ u ++ [')', ';']) with
      | error e =>
        rw [formatStatement_of_error hparts]
        exact ⟨Drift.refl _, by simp⟩
      | ok p =>
        obtain ⟨blanks, lead, xs, hd⟩ := exists_dissection hq h.balanced h.avoids hparts
        rw [formatStatement_of_ok hparts]
        obtain ⟨hdrift, hiff⟩ := drift_render hq hwrap hd
        exact ⟨hdrift, by rw [hiff]; simp⟩
    refine ⟨(Drift.refl _).append (hstatement.1.append ih.1), ?_⟩
    rw [List.append_cancel_left_eq, hstatement.1.append_eq_iff ih.1, hstatement.2, ih.2]
    simp only [mem_partsOf_of_located h, or_imp]
    exact forall_and.symm

/-- Without wrapping, formatting changes nothing but blanks outside quotes exactly if, in each
statement that can be parsed, no column is empty and each `)` that a comma follows closes a row. -/
theorem squeeze_format_iff (hq : options.quotes.Plain) (hwrap : options.columnWrap = none)
    (t : Text) : squeeze options.quotes (format options t) = squeeze options.quotes t ↔
      ∀ p ∈ partsOf options.quotes t,
        ColumnsFilled options.quotes p.columns ∧ RowsOpened options.quotes p.values := by
  rw [eq_comm]
  exact (drift_format hq hwrap t).2

/-- Calls that end their rows keep their parentheses. -/
theorem squeeze_format_last_calls :
    squeeze .standard
          (format ⟨.standard, none⟩ "insert into t (a) values (f(1)) ,(NOW());".toList) =
        squeeze .standard "insert into t (a) values (f(1)) ,(NOW());".toList ∧
      ∀ p ∈ partsOf .standard "insert into t (a) values (f(1)) ,(NOW());".toList,
        ColumnsFilled .standard p.columns ∧ RowsOpened .standard p.values :=
  have h := @squeeze_format_iff ⟨.standard, none⟩ (by decide) rfl
    "insert into t (a) values (f(1)) ,(NOW());".toList
  have hsame : squeeze .standard
      (format ⟨.standard, none⟩ "insert into t (a) values (f(1)) ,(NOW());".toList) =
        squeeze .standard "insert into t (a) values (f(1)) ,(NOW());".toList := by decide +kernel
  ⟨hsame, h.1 hsame⟩

/-- A call before the last field of a row leaves the text with a parenthesis too many. -/
theorem squeeze_format_inner_call :
    partsOf .standard "INSERT INTO t (a, b) VALUES (NOW(), 1);".toList =
        [⟨"INSERT INTO t ".toList, "a, b".toList, "VALUES".toList, "(NOW(), 1);".toList⟩] ∧
      squeeze .standard "INSERT INTO t (a, b) VALUES (NOW(), 1);".toList =
        "INSERTINTOt(a,b)VALUES(NOW(),1);".toList ∧
      squeeze .standard
          (format ⟨.standard, none⟩ "INSERT INTO t (a, b) VALUES (NOW(), 1);".toList) =
        "INSERTINTOt(a,b)VALUES(NOW(),(1);".toList := by
  decide +kernel

end InsertLayout
