import InsertLayout.Proofs.Reading

/-!
# What formatting keeps

A reading that keeps neither opening parentheses nor commas, nor what wrapping adds to a column or
removes from it, is the same before and after formatting (`Reading.Faithful.format_eq`). The
semicolons are such a reading; since every statement ends with one, two documents of which one is
the other with its statements formatted have the same text only if they are the same
(`format_eq_self_iff`). So is the `substance` of a text: every character that is not part of the
layout, with the side of the quotes that it stands on (`substance_format`).
-/

set_option autoImplicit false

namespace InsertLayout

open Text Statement Document

variable {β : Type} {quotes : QuoteSet} {options : Options}

/-! ## Readings without opening parentheses and commas -/

theorem intercalate_nil_left (l : List (List β)) : List.intercalate [] l = l.flatten := by
  induction l with
  | nil => rfl
  | cons s l ih =>
    cases l with
    | nil => simp
    | cons s' l => rw [List.intercalate_cons_cons, ih]; simp

/-- What is read neither of parentheses and commas, nor changed by wrapping. -/
structure Reading.Faithful (options : Options) (read : Text → List β) : Prop where
  reading : Reading options.quotes read
  opening : read ['('] = []
  comma : read [','] = []

namespace Reading.Faithful

variable {read : Text → List β} (hr : Faithful options read)
include hr

theorem readRow_eq {opening : Text} (hopening : opening = ['('] ∨ opening = []) (row : List Text) :
    readRow read opening row = (row.map read).flatten := by
  rw [readRow, hr.comma, intercalate_nil_left]
  rcases hopening with rfl | rfl
  · rw [hr.opening, List.nil_append]
  · rw [hr.reading.nil, List.nil_append]

/-- Rows are read the same whether they lack a parenthesis or not. -/
theorem rows_eq (hq : options.quotes.Plain) {t : Text} {p : Parts} {blanks lead : Text}
    {xs : List Text} (hd : Dissection options.quotes t p blanks lead xs) :
    (ofParts options p).rows.map (readRow read ['(']) =
      xs.map fun x => readRow read (rowOpening x) (rowFields options.quotes x) := by
  unfold ofParts
  rw [hd.rows_eq hq, List.map_map]
  refine List.map_congr_left fun x _ => ?_
  rw [Function.comp_apply, hr.readRow_eq (.inl rfl), hr.readRow_eq]
  unfold rowOpening
  split <;> simp

/-- The rendering of a statement reads like the statement. -/
theorem render (hq : options.quotes.Plain)
    (hquote : ∀ w, options.columnWrap = some w → w ∉ options.quotes) {t : Text} {p : Parts}
    {blanks lead : Text} {xs : List Text} (hd : Dissection options.quotes t p blanks lead xs)
    (hwrap : ∀ c ∈ columnNames options.quotes p.columns,
      read (wrapColumn options.columnWrap c) = read c) :
    read (ofParts options p).render = read t := by
  have hclosed := quotesClosed_ofParts hq hquote hd
  have hclause : (ofParts options p).clause = p.clause.trim := rfl
  have hkeyword : (ofParts options p).keyword = p.keyword := rfl
  have hcolumns : ((ofParts options p).columns.map read).flatten =
      ((columnCells options.quotes p.columns).map read).flatten := by
    have hmap : (ofParts options p).columns.map read =
        (columnNames options.quotes p.columns).map read := by
      unfold ofParts
      rw [parseColumns_eq, List.map_map]
      exact List.map_congr_left hwrap
    rw [hmap, columnNames_eq, flatten_map_filter hr.reading.nil]
  rw [hr.reading.dissection hq hd, hr.reading.render hq hclosed (rows_ne_nil_ofParts hq hd),
    hr.rows_eq hq hd, readStatement, readStatement, hclause, hkeyword, hr.comma,
    intercalate_nil_left, intercalate_nil_left, hcolumns]

/-- A formatted statement reads like the statement. -/
theorem formatStatement_eq (hq : options.quotes.Plain)
    (hquote : ∀ w, options.columnWrap = some w → w ∉ options.quotes) {gap w u rest : Text}
    (h : Located options.quotes gap w u rest)
    (hwrap : ∀ p, cutParts options.quotes (w ++ u ++ [')', ';']) = .ok p →
      ∀ c ∈ columnNames options.quotes p.columns, read (wrapColumn options.columnWrap c) = read c) :
    read (formatStatement options (w ++ u ++ [')', ';'])) = read (w ++ u ++ [')', ';']) := by
  cases hparts : cutParts options.quotes (w ++ u ++ [')', ';']) with
  | error e => rw [formatStatement_of_error hparts]
  | ok p =>
    obtain ⟨blanks, lead, xs, hd⟩ := exists_dissection hq h.balanced h.avoids hparts
    rw [formatStatement_of_ok hparts]
    exact hr.render hq hquote hd (hwrap p hparts)

/-- A formatted text reads like the text. -/
theorem format_eq (hq : options.quotes.Plain)
    (hquote : ∀ w, options.columnWrap = some w → w ∉ options.quotes) {t : Text}
    (hwrap : ∀ p ∈ partsOf options.quotes t, ∀ c ∈ columnNames options.quotes p.columns,
      read (wrapColumn options.columnWrap c) = read c) :
    read (format options t) = read t := by
  induction t using ofText_induction options.quotes with
  | last t h => rw [format_of_none h]
  | more gap w u rest h ih =>
    rw [hr.reading.format_located hq h hquote, hr.reading.located hq h,
      hr.formatStatement_eq hq hquote h fun p hp =>
        hwrap p ((mem_partsOf_of_located h).2 (.inl hp)),
      ih fun p hp => hwrap p ((mem_partsOf_of_located h).2 (.inr hp))]

end Reading.Faithful

/-! ## Semicolons -/

/-- The occurrences of a character that is no blank are a reading. -/
theorem reading_filter {c : Char} (hc : isBlank c = false) :
    Reading quotes (List.filter (· == c)) where
  append _ := List.filter_append ..
  blank {b} hb := List.filter_eq_nil_iff.2 fun d hd h => by
    obtain rfl : d = c := by simpa using h
    simp [hb d hd] at hc

theorem faithful_filter {c : Char} (hc : isBlank c = false) (hopen : '(' ≠ c) (hcomma : ',' ≠ c) :
    Reading.Faithful options (List.filter (· == c)) where
  reading := reading_filter hc
  opening := List.filter_cons_of_neg (by simpa using hopen)
  comma := List.filter_cons_of_neg (by simpa using hcomma)

theorem faithful_semicolons : Reading.Faithful options (List.filter (· == ';')) :=
  faithful_filter (by decide) (by decide) (by decide)

/-- Wrapping with another character keeps the occurrences of a character. -/
theorem filter_wrapColumn {wrap : Option Char} {c : Char} (h : ∀ w, wrap = some w → w ≠ c)
    (t : Text) : (wrapColumn wrap t).filter (· == c) = t.filter (· == c) := by
  cases wrap with
  | none => rfl
  | some w =>
    have hw : w ≠ c := h w rfl
    have hsame : ∀ d : Char, (d == c && d != w) = (d == c) := fun d => by
      by_cases hd : d = c
      · simp [hd, hw.symm]
      · simp [hd]
    rw [wrapColumn, List.filter_append, List.filter_cons_of_neg (by simpa using hw),
      List.filter_filter]
    simp [hsame, hw]

/-- A wrap character that is neither a quote nor the semicolon. -/
def WrapsNoEnd (options : Options) : Prop :=
  ∀ w, options.columnWrap = some w → w ∉ options.quotes ∧ w ≠ ';'

section
variable (hq : options.quotes.Plain) (hwrap : WrapsNoEnd options)
include hq hwrap

theorem semicolons_formatStatement {gap w u rest : Text} (h : Located options.quotes gap w u rest) :
    (formatStatement options (w ++ u ++ [')', ';'])).filter (· == ';') =
      (w ++ u ++ [')', ';']).filter (· == ';') :=
  faithful_semicolons.formatStatement_eq hq (fun w hw => (hwrap w hw).1) h
    fun _ _ c _ => filter_wrapColumn (fun w hw => (hwrap w hw).2) c

/-- Formatting keeps the number of semicolons. -/
theorem semicolons_format (t : Text) :
    (format options t).filter (· == ';') = t.filter (· == ';') :=
  faithful_semicolons.format_eq hq (fun w hw => (hwrap w hw).1)
    fun _ _ c _ => filter_wrapColumn (fun w hw => (hwrap w hw).2) c

end

/-! ## Change detection -/

/-- Texts that end with a semicolon and have as many of them cancel out at the front of a text. -/
theorem append_cancel_of_semicolons {s s' r r' : Text} (h : s ++ r = s' ++ r')
    (hs : s.getLast? = some ';') (hs' : s'.getLast? = some ';')
    (hcount : s.filter (· == ';') = s'.filter (· == ';')) : s = s' ∧ r = r' := by
  have hnil : ∀ v t : Text, (t ++ v).getLast? = some ';' →
      t.filter (· == ';') = (t ++ v).filter (· == ';') → v = [] := by
    intro v t hlast hcount
    rcases List.eq_nil_or_concat v with rfl | ⟨v, c, rfl⟩
    · rfl
    · rw [List.concat_eq_append, ← List.append_assoc, List.getLast?_concat] at hlast
      obtain rfl := Option.some.inj hlast
      have := congrArg List.length hcount
      simp at this
  rcases List.append_eq_append_iff.1 h with ⟨v, rfl, rfl⟩ | ⟨v, rfl, rfl⟩
  · obtain rfl := hnil v s hs' hcount
    simp
  · obtain rfl := hnil v s' hs hcount.symm
    simp

/-- A formatted statement ends like a statement. -/
theorem exists_formatStatement_append (hq : options.quotes.Plain) {gap w u rest : Text}
    (h : Located options.quotes gap w u rest) :
    ∃ v, formatStatement options (w ++ u ++ [')', ';']) = v ++ [')', ';'] := by
  cases hparts : cutParts options.quotes (w ++ u ++ [')', ';']) with
  | error e => exact ⟨w ++ u, formatStatement_of_error hparts⟩
  | ok p =>
    obtain ⟨blanks, lead, xs, hd⟩ := exists_dissection hq h.balanced h.avoids hparts
    rw [formatStatement_of_ok hparts]
    exact exists_render_append (hd.sound hq).rows (rows_ne_nil_ofParts hq hd)

/-- A text that is the same after formatting has no statement that is not. -/
theorem format_eq_self_iff (hq : options.quotes.Plain) (hwrap : WrapsNoEnd options) {t : Text} :
    format options t = t ↔ (ofText options.quotes t).format options = ofText options.quotes t := by
  constructor
  · intro hsame
    induction t using ofText_induction options.quotes with
    | last t h => rw [ofText_of_none h]; rfl
    | more gap w u rest h ih =>
      rw [format_of_located h, List.append_assoc gap, List.append_assoc gap,
        List.append_cancel_left_eq] at hsame
      obtain ⟨v, hv⟩ := exists_formatStatement_append hq h
      obtain ⟨hstatement, hrest⟩ := append_cancel_of_semicolons hsame (by rw [hv]; simp) (by simp)
        (semicolons_formatStatement hq hwrap h)
      have hpieces := congrArg Document.pieces (ih hrest)
      simp only [Document.format] at hpieces
      rw [ofText_of_located h]
      simp only [Document.format, List.map_cons, hstatement, hpieces]
  · intro h
    rw [format_eq, h, toText_ofText]

/-! ## Everything but the layout -/

/-- Each character with whether it stands in a quoted region, the delimiters included. -/
def marked (quotes : QuoteSet) (t : Text) : List (Char × Bool) :=
  scanned quotes (fun state c => [(c, state.isQuoted || decide (c ∈ quotes))]) .unquoted t

/-- Whether a marked character is left when the layout is taken away: it is not the wrap character
and, outside quotes, neither a blank nor an opening parenthesis nor a comma. -/
def isSubstance (wrap : Option Char) : Char × Bool → Bool
  | (c, inside) => some c != wrap && (inside || !(isBlank c || c == '(' || c == ','))

/-- The marked characters of a text without its layout. -/
def substance (options : Options) (t : Text) : List (Char × Bool) :=
  (marked options.quotes t).filter (isSubstance options.columnWrap)

theorem substance_eq_scanned (options : Options) (t : Text) : substance options t =
    scanned options.quotes
      (fun state c => [(c, state.isQuoted || decide (c ∈ options.quotes))].filter
        (isSubstance options.columnWrap)) .unquoted t :=
  filter_scanned _ _ _ _

/-- Without a character of which nothing is kept and that is no quote, the same is kept. -/
theorem scanned_filter {w : Char} (hw : w ∉ quotes) {keep : QuoteState → Char → List β}
    (hkeep : ∀ state, keep state w = []) {t : Text} {state : QuoteState}
    (hs : ∀ q, state = .quotedBy q → q ∈ quotes) :
    scanned quotes keep state (t.filter (· != w)) = scanned quotes keep state t := by
  induction t generalizing state with
  | nil => rfl
  | cons c t ih =>
    have ih := ih (scan_quotedBy_mem [c] hs)
    rw [scanned, List.filter_cons]
    by_cases hc : c = w
    · -- A character that is no quote leaves the state as it is.
      have hstep : state.scan quotes [c] = state := scan_of_notMem (by simpa [hc] using hw) hs
      rw [hstep] at ih
      have hstep' : state.step quotes c = state := hstep
      rw [hstep', hc, hkeep, List.nil_append]
      simpa using ih
    · have hne : (c != w) = true := by simpa using hc
      rw [if_pos hne, scanned]
      exact congrArg (keep state c ++ ·) ih

/-- Of a column, the same is kept when it is wrapped, if nothing is kept of the wrap character. -/
theorem scanned_wrapColumn {wrap : Option Char} (hwrap : ∀ w, wrap = some w → w ∉ quotes)
    {keep : QuoteState → Char → List β} (hkeep : ∀ w, wrap = some w → ∀ state, keep state w = [])
    (t : Text) :
    scanned quotes keep .unquoted (wrapColumn wrap t) = scanned quotes keep .unquoted t := by
  cases wrap with
  | none => rfl
  | some w =>
    have hw := hkeep w rfl
    have hstep : QuoteState.unquoted.step quotes w = .unquoted := if_neg (hwrap w rfl)
    have hlast : ∀ state, scanned quotes keep state [w] = [] := by
      intro state
      rw [scanned, hw, scanned, List.append_nil]
    rw [wrapColumn, List.cons_append, scanned, hw, hstep, List.nil_append, scanned_append, hlast,
      List.append_nil]
    apply scanned_filter (hwrap w rfl) hw
    intro q h
    cases h

theorem faithful_substance (hq : options.quotes.Plain) :
    Reading.Faithful options (substance options) := by
  have hdrop : ∀ c, c ∉ options.quotes → (isBlank c || c == '(' || c == ',') = true →
      [(c, QuoteState.unquoted.isQuoted || decide (c ∈ options.quotes))].filter
        (isSubstance options.columnWrap) = [] := by
    intro c hc hlayout
    simp [isSubstance, QuoteState.isQuoted, hc, hlayout]
  have hscan : substance options = scanned options.quotes _ .unquoted :=
    funext (substance_eq_scanned options)
  have hread : Reading options.quotes (substance options) := by
    rw [hscan]
    exact reading_scanned hq fun c hc => hdrop c (hq.notMem_of_blank hc) (by simp [hc])
  refine ⟨hread, ?_, ?_⟩
  · rw [substance_eq_scanned, scanned, hdrop '(' hq.open_notMem (by decide)]
    rfl
  · rw [substance_eq_scanned, scanned, hdrop ',' hq.comma_notMem (by decide)]
    rfl

/-- Formatting changes nothing but the layout: apart from wrap characters and, outside quotes,
blanks, opening parentheses and commas, each character of a text is kept once, in order, and on the
same side of the quotes. -/
theorem substance_format (hq : options.quotes.Plain) (hvalid : options.validate = .ok ())
    (t : Text) : substance options (format options t) = substance options t := by
  have hquote := (Options.validate_eq_ok_iff.1 hvalid).2
  apply (faithful_substance hq).format_eq hq hquote
  intro p _ c _
  rw [substance_eq_scanned, substance_eq_scanned]
  apply scanned_wrapColumn hquote
  intro w hw state
  simp [isSubstance, hw]

/-- A list of values that is not well-formed, and a name that is wrapped already. -/
theorem substance_format_malformed :
    QuoteSet.Plain .standard ∧ Options.validate {} = .ok () ∧
      format {} "insert into t(a,,`b`) values (1,f(x), 'y);' ,)) ,2, );".toList ≠
        "insert into t(a,,`b`) values (1,f(x), 'y);' ,)) ,2, );".toList ∧
      substance {} (format {} "insert into t(a,,`b`) values (1,f(x), 'y);' ,)) ,2, );".toList) =
        substance {} "insert into t(a,,`b`) values (1,f(x), 'y);' ,)) ,2, );".toList :=
  ⟨by decide, rfl, by decide +kernel, substance_format (by decide) rfl _⟩

end InsertLayout
