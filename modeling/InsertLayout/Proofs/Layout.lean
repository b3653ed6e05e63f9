import InsertLayout.Proofs.Sound

/-!
# Texts that lay out a statement

`LaidOut s t …`: the text `t` writes the parts of the statement `s` in order, with arbitrary blanks
between them. Every such text of a sound statement is parsed into it again (`LaidOut.parse_eq`), and
the rendering is one of them (`laidOut_render`). The end of a rendered statement is its first
unquoted `);` (`exists_body_render`).
-/

set_option autoImplicit false

namespace InsertLayout

open Text

namespace Statement

variable {quotes : QuoteSet}

/-! ## Rows -/

/-- The text of a row up to the parenthesis that closes it. -/
def RowText (row : List Text) (x : Text) : Prop :=
  ∃ b t, Blank b ∧ Joined row t ∧ x = b ++ '(' :: t

/-- Rows with a comma between each two, and blanks around each, up to the end of the statement. -/
inductive RowsText : List (List Text) → Text → Prop
  | last {row : List Text} {x : Text} : RowText row x → RowsText [row] (x ++ [')', ';'])
  | more {row : List Text} {x b t : Text} {rows : List (List Text)} : RowText row x → Blank b →
      RowsText rows t → RowsText (row :: rows) (x ++ ')' :: (b ++ ',' :: t))

/-- What the fields of a row in a sound statement satisfy. -/
structure SoundRow (quotes : QuoteSet) (row : List Text) : Prop where
  cells : ∀ f ∈ row, Cell quotes f
  avoids_end : ∀ f ∈ row, Avoids quotes [')', ';'] f
  closed : ∀ f ∈ row.dropLast, ∀ g, f ≠ g ++ [')']

theorem Sound.soundRow {s : Statement} (h : Sound quotes s) {row : List Text}
    (hrow : row ∈ s.rows) : SoundRow quotes row :=
  ⟨h.cells row hrow, h.avoids_end row hrow, h.closed row hrow⟩

theorem RowText.prepend {row : List Text} {x b : Text} (h : RowText row x) (hb : Blank b) :
    RowText row (b ++ x) := by
  obtain ⟨a, t, ha, ht, rfl⟩ := h
  exact ⟨b ++ a, t, hb.append ha, ht, by simp⟩

theorem RowsText.prepend {rows : List (List Text)} {t b : Text} (h : RowsText rows t)
    (hb : Blank b) : RowsText rows (b ++ t) := by
  cases h with
  | last hx => rw [← List.append_assoc]; exact .last (hx.prepend hb)
  | more hx hc ht => rw [← List.append_assoc]; exact .more (hx.prepend hb) hc ht

/-- Rows are written behind blanks and an opening parenthesis. -/
theorem RowsText.exists_open {rows : List (List Text)} {t : Text} (h : RowsText rows t) :
    ∃ b u, Blank b ∧ t = b ++ '(' :: u ∧ RowsText rows ('(' :: u) := by
  cases h with
  | @last row x hx =>
    obtain ⟨b, u, hb, hu, rfl⟩ := hx
    exact ⟨b, u ++ [')', ';'], hb, by simp, .last ⟨[], u, Blank.nil, hu, rfl⟩⟩
  | @more row x c t rows hx hc ht =>
    obtain ⟨b, u, hb, hu, rfl⟩ := hx
    exact ⟨b, u ++ ')' :: (c ++ ',' :: t), hb, by simp,
      .more ⟨[], u, Blank.nil, hu, rfl⟩ hc ht⟩

theorem RowsText.exists_last {rows : List (List Text)} {t : Text} (h : RowsText rows t) :
    ∃ u, t = u ++ [')', ';'] := by
  induction h with
  | @last row x _ => exact ⟨x, rfl⟩
  | @more row x b t rows _ _ _ ih =>
    obtain ⟨u, rfl⟩ := ih
    exact ⟨x ++ ')' :: (b ++ ',' :: u), by simp⟩

/-- Trimming takes the blanks before the first row. -/
theorem RowsText.exists_trim {rows : List (List Text)} {t : Text} (h : RowsText rows t) :
    ∃ u, t.trim = '(' :: u ∧ RowsText rows ('(' :: u) := by
  obtain ⟨b, u, hb, rfl, hu⟩ := h.exists_open
  obtain ⟨v, hv⟩ := hu.exists_last
  refine ⟨u, ?_, hu⟩
  rw [trim, trimLeft_append hb, trimLeft_cons (by decide), hv,
    show v ++ [')', ';'] = (v ++ [')']) ++ [';'] by simp, trimRight_concat (by decide)]

theorem RowText.balanced (hq : quotes.Plain) {row : List Text} {x : Text} (h : RowText row x)
    (hrow : ∀ f ∈ row, Balanced quotes f) : Balanced quotes x := by
  obtain ⟨b, t, hb, ht, rfl⟩ := h
  refine (balanced_blank hq hb).append ((balanced_cons_iff hq.open_notMem).2 ?_)
  exact ht.balanced hq hrow

theorem RowsText.balanced (hq : quotes.Plain) {rows : List (List Text)} {t : Text}
    (h : RowsText rows t) (hrows : ∀ row ∈ rows, ∀ f ∈ row, Balanced quotes f) :
    Balanced quotes t := by
  induction h with
  | last hx =>
    exact (hx.balanced hq (hrows _ List.mem_cons_self)).append (balanced_end hq)
  | @more row x b t rows hx hb _ ih =>
    obtain ⟨hrow, hrows⟩ := List.forall_mem_cons.1 hrows
    simpa using (hx.balanced hq hrow).append ((balanced_separator hq hb).append (ih hrows))

theorem RowText.avoids_end (hq : quotes.Plain) {row : List Text} {x : Text} (h : RowText row x)
    (hrow : ∀ f ∈ row, Balanced quotes f) (havoid : ∀ f ∈ row, Avoids quotes [')', ';'] f) :
    Avoids quotes [')', ';'] x := by
  obtain ⟨b, t, hb, ht, rfl⟩ := h
  have hbal : Balanced quotes (b ++ ['(']) :=
    (balanced_blank hq hb).append (balanced_singleton hq.open_notMem)
  have hleft : Avoids quotes [')', ';'] (b ++ ['(']) :=
    (hb.avoids List.mem_cons_self (by decide)).append_end (balanced_blank hq hb)
      (avoids_of_notMem List.mem_cons_self (by decide)) (.inl (by decide))
  simpa using hleft.append_end hbal (ht.avoids_end hq hrow havoid) (.inr (by simp))

/-- Rows end with the end of a statement, which stands nowhere else in them if it stands in no
field. -/
theorem RowsText.exists_body (hq : quotes.Plain) {rows : List (List Text)} {t : Text}
    (h : RowsText rows t) (hrows : ∀ row ∈ rows, ∀ f ∈ row, Balanced quotes f)
    (havoid : ∀ row ∈ rows, ∀ f ∈ row, Avoids quotes [')', ';'] f) :
    ∃ y, t = y ++ [')', ';'] ∧ Balanced quotes y ∧ Avoids quotes [')', ';'] y := by
  induction h with
  | @last row x hx =>
    have hrow := hrows row List.mem_cons_self
    exact ⟨x, rfl, hx.balanced hq hrow, hx.avoids_end hq hrow (havoid row List.mem_cons_self)⟩
  | @more row x b t rows hx hb _ ih =>
    obtain ⟨hrow, hrows⟩ := List.forall_mem_cons.1 hrows
    obtain ⟨hrowa, havoid⟩ := List.forall_mem_cons.1 havoid
    obtain ⟨y, rfl, hy, hya⟩ := ih hrows havoid
    have hsep := balanced_separator hq hb
    have hsepEnd : Avoids quotes [')', ';'] (')' :: (b ++ [','])) := by
      refine avoids_of_notMem (c := ';') (by decide) fun hmem => ?_
      rcases List.mem_append.1 (List.mem_of_ne_of_mem (by decide) hmem) with hmem | hmem
      · exact hb.notMem (by decide) hmem
      · simp at hmem
    have hlast : (')' :: (b ++ [','])).getLast? ≠ some ')' := by
      rw [← List.cons_append, List.getLast?_concat]
      decide
    have hxb := hx.balanced hq hrow
    refine ⟨x ++ ')' :: (b ++ ',' :: y), by simp, ?_, ?_⟩
    · simpa using hxb.append (hsep.append hy)
    · have hright := hsepEnd.append_end hsep hya (.inr hlast)
      simpa using (hx.avoids_end hq hrow hrowa).append_end hxb hright (.inl (by simp))

section
variable (hq : quotes.Plain) {row : List Text} {x : Text} (h : RowText row x)
  (hrow : SoundRow quotes row)
include hq h hrow

theorem RowText.avoidsRowEnd : AvoidsRowEnd quotes x := by
  obtain ⟨b, t, hb, ht, rfl⟩ := h
  have hopen : ')' ∉ b ++ ['('] := by
    intro hmem
    rcases List.mem_append.1 hmem with hmem | hmem
    · exact hb.notMem (by decide) hmem
    · simp at hmem
  have hbal : Balanced quotes (b ++ ['(']) :=
    (balanced_blank hq hb).append (balanced_singleton hq.open_notMem)
  have hleft : AvoidsRowEnd quotes (b ++ ['(']) := fun u v he _ =>
    absurd (show ')' ∈ b ++ ['('] by rw [he]; simp) hopen
  have hmeet : ∀ u v, b ++ ['('] = u ++ ')' :: v → ¬ Blank v := fun u v he =>
    absurd (show ')' ∈ b ++ ['('] by rw [he]; simp) hopen
  simpa using hleft.append hbal (ht.avoidsRowEnd hq hrow.cells hrow.closed) (.inr hmeet)

/-- The fields of a row are read from its text. -/
theorem RowText.rowFields_eq : rowFields quotes x = row := by
  obtain ⟨b, t, hb, ht, rfl⟩ := h
  rw [rowFields, trimLeft_append hb, trimLeft_cons (by decide)]
  exact ht.map_trim_split hq hrow.cells

end

/-- The text of sound rows is the list of values that they are read from. -/
theorem RowsText.exists_valueList (hq : quotes.Plain) {rows : List (List Text)} {t : Text}
    (h : RowsText rows t) (hrows : ∀ row ∈ rows, SoundRow quotes row) :
    ∃ xs, ValueList quotes t xs ∧ xs.map (rowFields quotes) = rows ∧
      ∀ x ∈ xs, Avoids quotes [')', ';'] x := by
  induction h with
  | @last row x hx =>
    have hrow := hrows row List.mem_cons_self
    have hclosed := fun f hf => (hrow.cells f hf).balanced
    have hbal := hx.balanced hq hclosed
    have hend := hx.avoids_end hq hclosed hrow.avoids_end
    exact ⟨[x], .last hbal (hx.avoidsRowEnd hq hrow),
      by rw [List.map_singleton, hx.rowFields_eq hq hrow], by simpa using hend⟩
  | @more row x b t rows hx hb ht ih =>
    obtain ⟨hrow, hrows⟩ := List.forall_mem_cons.1 hrows
    obtain ⟨xs, hxs, hfields, havoid⟩ := ih hrows
    have hclosed := fun f hf => (hrow.cells f hf).balanced
    have hbal := hx.balanced hq hclosed
    have hend := hx.avoids_end hq hclosed hrow.avoids_end
    exact ⟨x :: xs, .more hbal (hx.avoidsRowEnd hq hrow) hb hxs,
      by rw [List.map_cons, hx.rowFields_eq hq hrow, hfields],
      List.forall_mem_cons.2 ⟨hend, havoid⟩⟩

/-! ## Layouts -/

/-- The parts of a statement in order, with blanks before the list of columns, around the keyword
and around every column, row and field. -/
structure LaidOut (s : Statement) (t before header between values : Text) : Prop where
  eq : t = (s.clause ++ before) ++ '(' :: (header ++ ')' :: (between ++ s.keyword ++ values))
  before_blank : Blank before
  columns : s.columns = [] ∧ Blank header ∨ Joined s.columns header
  between_blank : Blank between
  rows : s.rows = [] ∧ Blank values ∨
    ∃ list after, RowsText s.rows list ∧ Blank after ∧ values = list ++ after

section
variable {s : Statement} {t before header between values : Text}

theorem LaidOut.clause_padded (h : LaidOut s t before header between values) :
    Padded s.clause (s.clause ++ before) := ⟨[], before, Blank.nil, h.before_blank, rfl⟩

theorem LaidOut.header_balanced (hq : quotes.Plain) (h : LaidOut s t before header between values)
    (hs : QuotesClosed quotes s) : Balanced quotes header := by
  rcases h.columns with ⟨-, hb⟩ | hj
  · exact balanced_blank hq hb
  · exact hj.balanced hq hs.columns

theorem LaidOut.header_avoids (hq : quotes.Plain) (h : LaidOut s t before header between values)
    (hs : Sound quotes s) : AvoidsKeyword quotes header := by
  rcases h.columns with ⟨-, hb⟩ | hj
  · intro a b he _
    exact absurd (show ')' ∈ header by rw [he]; simp) (hb.notMem (by decide))
  · exact hj.avoidsKeyword hq (fun c hc => (hs.columns c hc).balanced)
      fun c hc => (hs.columns c hc).avoids_keyword

theorem LaidOut.columnNames_eq (hq : quotes.Plain) (h : LaidOut s t before header between values)
    (hs : Sound quotes s) : columnNames quotes header = s.columns := by
  have hid : wrapColumn none = id := rfl
  unfold columnNames parseColumns
  rcases h.columns with ⟨hnil, hb⟩ | hj
  · have havoid : Avoids quotes [','] header := hb.avoids List.mem_cons_self (by decide)
    simp [Needle.split_of_avoids havoid, trim_blank hb, hnil]
  · rw [hj.map_trim_split hq fun c hc => (hs.columns c hc).toCell, hid, List.map_id,
      List.filter_eq_self]
    exact fun c hc => by simpa using (hs.columns c hc).ne_nil

/-- What the values are read from. -/
theorem LaidOut.exists_values (hq : quotes.Plain) (h : LaidOut s t before header between values)
    (hs : Sound quotes s) : continuesWord values = false ∧ startsWithRow values.trim = true ∧
      parseRows quotes values.trim = s.rows := by
  rcases h.rows with ⟨hnil, hb⟩ | ⟨list, after, hlist, hafter, rfl⟩
  · refine ⟨(blank_noWord hb).continues, ?_⟩
    rw [trim_blank hb, hnil]
    exact ⟨rfl, rfl⟩
  · obtain ⟨u, hu, hrows⟩ := hlist.exists_trim
    obtain ⟨xs, hxs, hfields, havoid⟩ := hrows.exists_valueList hq fun row hrow => hs.soundRow hrow
    rw [trim_append hafter, hu]
    refine ⟨?_, rfl, by rw [hxs.parseRows_eq hq havoid, hfields]⟩
    obtain ⟨b, v, hb, rfl, -⟩ := hlist.exists_open
    cases b with
    | nil => exact show isWordChar '(' = false by decide +kernel
    | cons c b => exact isWordChar_of_blank (hb c List.mem_cons_self)

/-- Every layout of a sound statement is parsed into the statement, if no column changes when it is
wrapped again. -/
theorem LaidOut.parse_eq {options : Options} (hq : options.quotes.Plain)
    (h : LaidOut s t before header between values) (hs : Sound options.quotes s)
    (hquotes : s.quotes = options.quotes)
    (hwrap : ∀ c ∈ s.columns, wrapColumn options.columnWrap c = c) :
    parse options t = .ok s := by
  obtain ⟨hword, hstarts, hrows⟩ := h.exists_values hq hs
  have hparen : '(' ∉ before := h.before_blank.notMem (by decide)
  have hparts : cutParts options.quotes t =
      .ok ⟨s.clause ++ before, header, s.keyword, values.trim⟩ :=
    (cutParts_eq_ok_iff hq).2 ⟨between, values, {
      eq := h.eq
      clause_balanced := h.clause_padded.balanced hq hs.clause_balanced
      clause_avoids := hs.clause_avoids.append_notMem hparen
      columns_balanced := h.header_balanced hq (hs.quotesClosed hq)
      columns_avoid := h.header_avoids hq hs
      blank := h.between_blank
      keyword := hs.keyword
      rest_word := hword
      values := rfl
      starts := hstarts }⟩
  have hcolumns : parseColumns options header = s.columns := by
    rw [parseColumns_eq, h.columnNames_eq hq hs]
    exact (List.map_congr_left (g := id) hwrap).trans (List.map_id _)
  have hclause : (s.clause ++ before).trim = s.clause := by
    rw [trim_append h.before_blank, hs.clause_trimmed]
  refine parse_eq_ok_iff.2 ⟨_, hparts, ?_⟩
  unfold ofParts
  simp only [hclause, hcolumns, hrows]
  rw [← hquotes]

theorem LaidOut.front_balanced (hq : quotes.Plain)
    (h : LaidOut s t before header between values) (hs : QuotesClosed quotes s) {y : Text}
    (hy : Balanced quotes y) :
    Balanced quotes
      ((s.clause ++ before) ++ '(' :: (header ++ ')' :: (between ++ s.keyword ++ y))) := by
  refine (h.clause_padded.balanced hq hs.clause).append
    ((balanced_cons_iff hq.open_notMem).2 ?_)
  refine (h.header_balanced hq hs).append ((balanced_cons_iff hq.close_notMem).2 ?_)
  exact ((balanced_blank hq h.between_blank).append hs.keyword).append hy

/-- The end of a statement stands nowhere in a layout up to its values. -/
theorem LaidOut.front_avoids_end (hq : quotes.Plain)
    (h : LaidOut s t before header between values) (hs : QuotesClosed quotes s) {w : Text}
    (hw : Whole quotes w s) {y : Text} (hy : Avoids quotes [')', ';'] y) :
    Avoids quotes [')', ';']
      ((s.clause ++ before) ++ '(' :: (header ++ ')' :: (between ++ s.keyword ++ y))) := by
  have hopen : Balanced quotes ['('] := balanced_singleton hq.open_notMem
  have hkeyword : ∀ c ∈ s.keyword, c ≠ ')' ∧ c ≠ ';' := fun c hc => by
    have := isKeywordLetter_of_mem hw.keyword hc
    constructor <;> rintro rfl <;> exact absurd this (by decide)
  have hclause := h.clause_padded.balanced hq hs.clause
  have hclauseEnd := h.clause_padded.avoids_end hq hs.clause hw.clause_avoids_end
  have hheader := h.header_balanced hq hs
  have hheaderEnd : Avoids quotes [')', ';'] header := by
    rcases h.columns with ⟨-, hb⟩ | hj
    · exact hb.avoids List.mem_cons_self (by decide)
    · exact hj.avoids_end hq hs.columns hw.columns_avoid_end
  -- Neither of its characters is both at the end of one part and at the front of the next.
  have hbetween : Balanced quotes (')' :: (between ++ s.keyword)) :=
    (balanced_cons_iff hq.close_notMem).2
      ((balanced_blank hq h.between_blank).append hs.keyword)
  have hbetweenEnd : Avoids quotes [')', ';'] (')' :: (between ++ s.keyword)) := by
    refine avoids_of_notMem (c := ';') (by decide) fun hmem => ?_
    rcases List.mem_append.1 (List.mem_of_ne_of_mem (by decide) hmem) with hmem | hmem
    · exact h.between_blank.notMem (by decide) hmem
    · exact (hkeyword ';' hmem).2 rfl
  have hlast : (')' :: (between ++ s.keyword)).getLast? ≠ some ')' := by
    rcases List.eq_nil_or_concat s.keyword with hnil | ⟨k, c, hk⟩
    · have := length_of_isValuesKeyword hw.keyword
      simp [hnil] at this
    · have := (hkeyword c (by rw [hk]; simp)).1
      rw [hk, List.concat_eq_append, ← List.append_assoc, ← List.cons_append,
        List.getLast?_concat]
      simpa using this
  have hright := hbetweenEnd.append_end hbetween hy (.inr hlast)
  have hinner := hheaderEnd.append_end hheader hright (.inl (by simp))
  have houter := (avoids_of_notMem (t := ['(']) List.mem_cons_self (by decide)).append_end
    hopen hinner (.inr (by decide))
  simpa using hclauseEnd.append_end hclause houter (.inl (by simp))

end

/-! ## The rendering -/

theorem forall₂_padRight (columns : List Text) (widths : List Nat)
    (h : widths.length = columns.length) :
    List.Forall₂ Padded columns (List.zipWith padRight columns widths) := by
  induction columns generalizing widths with
  | nil => simp
  | cons c columns ih =>
    cases widths with
    | nil => cases h
    | cons w widths => exact .cons (padded_padRight c w) (ih widths (by simpa using h))

theorem forall₂_alignRow (quotes : QuoteSet) (widths : List Nat) (row : List Text) :
    List.Forall₂ Padded row (alignRow quotes widths row) := by
  induction row generalizing widths with
  | nil => cases widths <;> exact .nil
  | cons f row ih =>
    cases widths with
    | nil =>
      rw [alignRow]
      exact List.forall₂_same.2 fun f _ => ⟨[], [], Blank.nil, Blank.nil, by simp⟩
    | cons w widths =>
      rw [alignRow, alignField]
      refine .cons ?_ (ih widths)
      split
      · exact padded_padRight f w
      · exact padded_padLeft f w

/-- The text of rows whose cells are written between parentheses, a line each. -/
theorem rowsText_intercalate {rows : List (List Text)} {cells : List Text → List Text}
    (hcells : ∀ row ∈ rows, List.Forall₂ Padded row (cells row)) (hne : ∀ row ∈ rows, row ≠ [])
    (hrows : rows ≠ []) :
    RowsText rows
      (List.intercalate [',', '\n'] (rows.map fun row => renderCells (cells row)) ++ [';']) := by
  induction rows with
  | nil => exact absurd rfl hrows
  | cons row rows ih =>
    obtain ⟨hrow, hcells⟩ := List.forall_mem_cons.1 hcells
    obtain ⟨hrowne, hne⟩ := List.forall_mem_cons.1 hne
    have htext : RowText row ('(' :: List.intercalate [',', ' '] (cells row)) :=
      ⟨[], _, Blank.nil, joined_intercalate hrow hrowne, rfl⟩
    cases rows with
    | nil => simpa [renderCells] using RowsText.last htext
    | cons row' rows =>
      have hrest := (ih hcells hne (by simp)).prepend (Blank.cons (c := '\n') (by decide) Blank.nil)
      simpa [renderCells] using RowsText.more htext Blank.nil hrest

section
variable {s : Statement}

/-- The rendering lays out the statement. -/
theorem laidOut_render (hs : ∀ row ∈ s.rows, row ≠ []) : ∃ header values,
    LaidOut s s.render ['\n'] header ['\n'] values ∧ (s.rows ≠ [] → RowsText s.rows values) := by
  have hrows (hnil : s.rows ≠ []) : RowsText s.rows ('\n' :: (s.renderRows ++ [';'])) :=
    (rowsText_intercalate (fun row _ => forall₂_alignRow s.quotes s.columnWidths row) hs
      hnil).prepend (Blank.cons (c := '\n') (by decide) Blank.nil)
  refine ⟨List.intercalate [',', ' '] (List.zipWith padRight s.columns s.columnWidths),
    if s.rows.isEmpty then [] else '\n' :: s.renderRows ++ [';'], ⟨?_, ?_, ?_, ?_, ?_⟩, ?_⟩
  · simp [render, renderHeader, renderCells]
  · exact Blank.cons (by decide) Blank.nil
  · by_cases hnil : s.columns = []
    · exact .inl ⟨hnil, by simp [hnil, Blank.nil]⟩
    · exact .inr (joined_intercalate (forall₂_padRight _ _ (length_columnWidths s)) hnil)
  · exact Blank.cons (by decide) Blank.nil
  · by_cases hnil : s.rows = []
    · exact .inl ⟨hnil, by simp [hnil, Blank.nil]⟩
    · exact .inr ⟨_, [], hrows hnil, Blank.nil, by simp [hnil]⟩
  · intro hnil
    simpa [hnil] using hrows hnil

/-- The rendering of a statement with rows ends with the end of a statement. -/
theorem exists_render_append (hs : ∀ row ∈ s.rows, row ≠ []) (hrows : s.rows ≠ []) :
    ∃ u, s.render = u ++ [')', ';'] := by
  obtain ⟨header, values, h, hvalues⟩ := laidOut_render hs
  obtain ⟨u, rfl⟩ := (hvalues hrows).exists_last
  refine ⟨(s.clause ++ ['\n']) ++ '(' :: (header ++ ')' :: (['\n'] ++ s.keyword ++ u)), ?_⟩
  rw [h.eq]
  simp

/-- The rendering of a sound statement is parsed into the statement again. -/
theorem parse_render {options : Options} (hq : options.quotes.Plain) (hs : Sound options.quotes s)
    (hquotes : s.quotes = options.quotes)
    (hwrap : ∀ c ∈ s.columns, wrapColumn options.columnWrap c = c) :
    parse options s.render = .ok s := by
  obtain ⟨header, values, h, -⟩ := laidOut_render hs.rows
  exact h.parse_eq hq hs hquotes hwrap

/-- The rendering of a statement ends at its first `);`. -/
theorem exists_body_render (hq : quotes.Plain) (hs : QuotesClosed quotes s) {w : Text}
    (hw : Whole quotes w s) : ∃ u, s.render = w ++ u ++ [')', ';'] ∧ Balanced quotes (w ++ u) ∧
      Avoids quotes [')', ';'] (w ++ u) := by
  obtain ⟨header, values, h, hrows⟩ := laidOut_render hs.rows
  obtain ⟨y, rfl, hy, hya⟩ :=
    (hrows hw.rows_ne_nil).exists_body hq hs.fields hw.fields_avoid_end
  obtain ⟨v, hv⟩ := hw.clause
  have hbody : w ++ (v ++ ['\n'] ++ '(' :: (header ++ ')' :: (['\n'] ++ s.keyword ++ y))) =
      (s.clause ++ ['\n']) ++ '(' :: (header ++ ')' :: (['\n'] ++ s.keyword ++ y)) := by
    rw [hv]; simp
  refine ⟨v ++ ['\n'] ++ '(' :: (header ++ ')' :: (['\n'] ++ s.keyword ++ y)), ?_, ?_, ?_⟩
  · rw [h.eq, hbody]; simp
  · rw [hbody]; exact h.front_balanced hq hs hy
  · rw [hbody]; exact h.front_avoids_end hq hs hw hya

end

end Statement

end InsertLayout
