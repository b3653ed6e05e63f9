import InsertLayout.Proofs.Layout
import InsertLayout.Proofs.Locate

/-!
# Reading a text piece by piece

A `Reading` keeps something of a text: it drops blanks, and it reads a text behind another one as it
would on its own if the first one closes its quotes. A reading of a statement and of its rendering
is put together from readings of the same cells (`Dissection.read_eq`, `LaidOut.read_eq`), with the
parentheses and commas that each of the two has, and a reading of a document from readings of its
statements (`Reading.located`, `Reading.format_located`).
-/

set_option autoImplicit false

namespace InsertLayout

open Text Statement Document

variable {β : Type} {quotes : QuoteSet} {options : Options}

/-! ## Readings -/

/-- What is kept of a text, with nothing kept of blanks. -/
structure Reading (quotes : QuoteSet) (read : Text → List β) : Prop where
  append : ∀ {s t : Text}, Balanced quotes s → read (s ++ t) = read s ++ read t
  blank : ∀ {b : Text}, Blank b → read b = []

/-- What one scan keeps of each character, given the state before it. -/
def Text.scanned (quotes : QuoteSet) (keep : QuoteState → Char → List β) :
    QuoteState → Text → List β
  | _, [] => []
  | state, c :: t => keep state c ++ scanned quotes keep (state.step quotes c) t

theorem scanned_append (keep : QuoteState → Char → List β) (state : QuoteState) (s t : Text) :
    Text.scanned quotes keep state (s ++ t) =
      Text.scanned quotes keep state s ++ Text.scanned quotes keep (state.scan quotes s) t := by
  induction s generalizing state with
  | nil => rfl
  | cons c s ih => simp [Text.scanned, ih]

/-- Behind a balanced text, a scan starts over. -/
theorem Text.Balanced.scanned_append {s : Text} (hs : Balanced quotes s)
    (keep : QuoteState → Char → List β) (t : Text) :
    Text.scanned quotes keep .unquoted (s ++ t) =
      Text.scanned quotes keep .unquoted s ++ Text.scanned quotes keep .unquoted t := by
  rw [InsertLayout.scanned_append, show QuoteState.unquoted.scan quotes s = .unquoted from hs]

/-- Of what a scan keeps, a part is what a scan keeps, too. -/
theorem filter_scanned (p : β → Bool) (keep : QuoteState → Char → List β) (state : QuoteState)
    (t : Text) : (Text.scanned quotes keep state t).filter p =
      Text.scanned quotes (fun state c => (keep state c).filter p) state t := by
  induction t generalizing state with
  | nil => rfl
  | cons c t ih => rw [Text.scanned, Text.scanned, List.filter_append, ih]

/-- A scan that keeps no unquoted blank is a reading. -/
theorem reading_scanned (hq : quotes.Plain) {keep : QuoteState → Char → List β}
    (hkeep : ∀ c, isBlank c = true → keep .unquoted c = []) :
    Reading quotes (Text.scanned quotes keep .unquoted) where
  append hs := hs.scanned_append keep _
  blank {b} hb := by
    induction b with
    | nil => rfl
    | cons c b ih =>
      obtain ⟨hc, hb⟩ := List.forall_mem_cons.1 hb
      rw [Text.scanned, hkeep c hc, QuoteState.step, if_neg (hq.notMem_of_blank hc)]
      exact ih hb

namespace Reading

variable {read : Text → List β} (hr : Reading quotes read)
include hr

theorem nil : read [] = [] := hr.blank Blank.nil

theorem cons {c : Char} (hc : c ∉ quotes) (t : Text) : read (c :: t) = read [c] ++ read t :=
  hr.append (balanced_singleton hc)

theorem padded (hq : quotes.Plain) {f x : Text} (h : Padded f x) (hf : Balanced quotes f) :
    read x = read f := by
  obtain ⟨a, b, ha, hb, rfl⟩ := h
  have ha' := balanced_blank hq ha
  rw [hr.append (ha'.append hf), hr.append ha', hr.blank ha, hr.blank hb]
  simp

theorem trim (hq : quotes.Plain) {t : Text} (ht : Balanced quotes t) : read t.trim = read t :=
  (hr.padded hq (padded_trim t) (ht.trim hq)).symm

/-- Of joined cells, the cells and the commas are read. -/
theorem joined (hq : quotes.Plain) {fs : List Text} {t : Text} (h : Joined fs t)
    (hfs : ∀ f ∈ fs, Balanced quotes f) :
    read t = List.intercalate (read [',']) (fs.map read) := by
  induction h with
  | @last f x hx =>
    rw [hr.padded hq hx (hfs _ List.mem_cons_self), List.map_singleton, List.intercalate_singleton]
  | @more f x t fs hx ht ih =>
    obtain ⟨hf, hfs⟩ := List.forall_mem_cons.1 hfs
    rw [hr.append (hx.balanced hq hf), hr.padded hq hx hf, hr.cons hq.comma_notMem, ih hfs]
    cases ht <;> simp

theorem statementEnd (hq : quotes.Plain) : read [')', ';'] = read [')'] ++ read [';'] :=
  hr.cons hq.close_notMem _

theorem separator (hq : quotes.Plain) {b : Text} (hb : Blank b) (t : Text) :
    read (')' :: (b ++ ',' :: t)) = read [')'] ++ (read [','] ++ read t) := by
  rw [hr.cons hq.close_notMem, hr.append (balanced_blank hq hb), hr.blank hb,
    hr.cons hq.comma_notMem t, List.nil_append]

end Reading

/-! ## Statements -/

section
variable (read : Text → List β)

/-- What is read of a statement with the given cells in its list of columns, and readings of its
rows. -/
def readStatement (clause : Text) (cells : List Text) (keyword : Text) (rows : List (List β)) :
    List β :=
  read clause ++ (read ['('] ++ (List.intercalate (read [',']) (cells.map read) ++ (read [')'] ++
    (read keyword ++ (List.intercalate (read [')'] ++ read [',']) rows ++ (read [')'] ++
      read [';']))))))

/-- What is read of a row whose opening parenthesis is `opening`. -/
def readRow (opening : Text) (row : List Text) : List β :=
  read opening ++ List.intercalate (read [',']) (row.map read)

/-- The parenthesis that opens the text of a row, if there is one. -/
def rowOpening (x : Text) : Text := if x.trimLeft.head? = some '(' then ['('] else []

/-- The cells of a list of columns, with the empty ones. -/
def columnCells (quotes : QuoteSet) (t : Text) : List Text :=
  ((Needle.char ',').split quotes t).map trim

end

theorem columnNames_eq (quotes : QuoteSet) (t : Text) :
    columnNames quotes t = (columnCells quotes t).filter (!·.isEmpty) := by
  have hid : wrapColumn none = id := rfl
  simp [columnNames, parseColumns, columnCells, hid]

/-- Texts without content do not count. -/
theorem flatten_map_filter {read : Text → List β} (hnil : read [] = []) (cells : List Text) :
    ((cells.filter (!·.isEmpty)).map read).flatten = (cells.map read).flatten := by
  induction cells with
  | nil => rfl
  | cons f cells ih => cases f <;> simp [hnil, ih]

/-- The text of a row is its opening parenthesis and its fields. -/
theorem rowOpening_append (x : Text) :
    x.trimLeft = rowOpening x ++ stripOpen x.trimLeft := by
  unfold rowOpening
  split
  · rename_i h
    obtain ⟨u, hu⟩ := List.head?_eq_some_iff.1 h
    rw [hu]
    rfl
  · rename_i h
    cases hx : x.trimLeft with
    | nil => rfl
    | cons c u => rw [stripOpen_of_ne (by simpa [hx] using h)]; rfl

section
variable {read : Text → List β} (hr : Reading quotes read) (hq : quotes.Plain)
include hr hq

theorem Reading.rowText {x : Text} (hx : Balanced quotes x) :
    read x = readRow read (rowOpening x) (rowFields quotes x) := by
  obtain ⟨b, hb, hxb⟩ := exists_trimLeft x
  have hopen : Balanced quotes (rowOpening x) := by
    unfold rowOpening
    split
    · exact balanced_singleton hq.open_notMem
    · exact balanced_nil
  have hcells : ∀ f ∈ rowFields quotes x, Balanced quotes f := fun f hf =>
    (cell_of_mem_rowFields hq hx hf).balanced
  have hb' := balanced_blank hq hb
  calc read x = read x.trimLeft := by
        conv_lhs => rw [hxb, hr.append hb', hr.blank hb, List.nil_append]
    _ = read (rowOpening x) ++ read (stripOpen x.trimLeft) := by
        conv_lhs => rw [rowOpening_append, hr.append hopen]
    _ = readRow read (rowOpening x) (rowFields quotes x) := by
        rw [hr.joined hq (joined_rowFields x) hcells, readRow]

/-- Of a list of values, the rows and what separates them are read. -/
theorem Reading.valueList {t : Text} {xs : List Text} (h : ValueList quotes t xs) :
    read t = List.intercalate (read [')'] ++ read [','])
      (xs.map fun x => readRow read (rowOpening x) (rowFields quotes x)) ++
        (read [')'] ++ read [';']) := by
  induction h with
  | @last x hx _ =>
    rw [hr.append hx, hr.rowText hq hx, hr.statementEnd hq]
    simp
  | @more x b t xs hx _ hb ht ih =>
    rw [hr.append hx, hr.rowText hq hx, hr.separator hq hb, ih]
    cases xs with
    | nil => exact absurd rfl ht.rows_ne_nil
    | cons y xs => simp

/-- What is read of a statement. -/
theorem Reading.dissection {t : Text} {p : Parts} {blanks lead : Text} {xs : List Text}
    (h : Dissection quotes t p blanks lead xs) :
    read t = readStatement read p.clause.trim (columnCells quotes p.columns) p.keyword
      (xs.map fun x => readRow read (rowOpening x) (rowFields quotes x)) := by
  have hcells : ∀ c ∈ columnCells quotes p.columns, Balanced quotes c := fun c hc =>
    (cell_of_mem_split hq h.columns_balanced hc).balanced
  have hblanks := balanced_blank hq h.blank
  have hkeyword := balanced_keyword hq h.keyword
  rw [h.eq, hr.append h.clause_balanced, hr.cons hq.open_notMem,
    hr.append h.columns_balanced, hr.cons hq.close_notMem (blanks ++ _ ++ _),
    hr.append (hblanks.append hkeyword), hr.append hblanks, hr.blank h.blank,
    hr.append (balanced_blank hq h.lead_blank), hr.blank h.lead_blank,
    hr.joined hq (joined_split quotes p.columns) hcells, hr.valueList hq h.list, readStatement,
    hr.trim hq h.clause_balanced]
  simp only [columnCells, List.nil_append]

theorem Reading.rowsText {rows : List (List Text)} {t : Text} (h : RowsText rows t)
    (hrows : ∀ row ∈ rows, ∀ f ∈ row, Balanced quotes f) :
    read t = List.intercalate (read [')'] ++ read [',']) (rows.map (readRow read ['('])) ++
      (read [')'] ++ read [';']) := by
  have hrow : ∀ {row : List Text} {x : Text}, RowText row x → (∀ f ∈ row, Balanced quotes f) →
      read x = readRow read ['('] row := by
    rintro row _ ⟨b, t, hb, ht, rfl⟩ hf
    rw [hr.append (balanced_blank hq hb), hr.blank hb, hr.cons hq.open_notMem,
      hr.joined hq ht hf, readRow, List.nil_append]
  induction h with
  | @last row x hx =>
    obtain ⟨hf, -⟩ := List.forall_mem_cons.1 hrows
    rw [hr.append (hx.balanced hq hf), hrow hx hf, hr.statementEnd hq]
    simp
  | @more row x b t rows hx hb ht ih =>
    obtain ⟨hf, hrows⟩ := List.forall_mem_cons.1 hrows
    rw [hr.append (hx.balanced hq hf), hrow hx hf, hr.separator hq hb, ih hrows]
    cases ht <;> simp

/-- What is read of a rendering. -/
theorem Reading.render {s : Statement} (hs : QuotesClosed quotes s) (hrows : s.rows ≠ []) :
    read s.render =
      readStatement read s.clause s.columns s.keyword (s.rows.map (readRow read ['('])) := by
  obtain ⟨header, values, h, hvalues⟩ := laidOut_render hs.rows
  have hclause := h.clause_padded.balanced hq hs.clause
  have hbetween := balanced_blank hq h.between_blank
  have hcolumns : read header = List.intercalate (read [',']) (s.columns.map read) := by
    rcases h.columns with ⟨hnil, hb⟩ | hj
    · rw [hr.blank hb, hnil]; rfl
    · exact hr.joined hq hj hs.columns
  rw [h.eq, hr.append hclause, hr.cons hq.open_notMem,
    hr.append (h.header_balanced hq hs), hr.cons hq.close_notMem (['\n'] ++ _ ++ _),
    hr.append (hbetween.append hs.keyword), hr.append hbetween, hr.blank h.between_blank,
    hr.rowsText hq (hvalues hrows) hs.fields, hr.padded hq h.clause_padded hs.clause, hcolumns,
    readStatement]
  simp only [List.nil_append]

end

/-! ## Documents -/

theorem balanced_wrapColumn {wrap : Option Char} (hwrap : ∀ w, wrap = some w → w ∉ quotes)
    {c : Text} (hc : Balanced quotes c) : Balanced quotes (wrapColumn wrap c) := by
  cases wrap with
  | none => exact hc
  | some w =>
    have hw := hwrap w rfl
    have hlast : Balanced quotes [w] := balanced_singleton hw
    refine (balanced_cons_iff hw).2 (Balanced.append ?_ hlast)
    rw [Text.Balanced, scan_filter hw fun q h => by cases h]
    exact hc

/-- Whatever is located, the statement read from it closes its quotes, wrapped or not. -/
theorem quotesClosed_ofParts (hq : options.quotes.Plain)
    (hwrap : ∀ w, options.columnWrap = some w → w ∉ options.quotes) {t : Text} {p : Parts}
    {blanks lead : Text} {xs : List Text} (h : Dissection options.quotes t p blanks lead xs) :
    QuotesClosed options.quotes (ofParts options p) := by
  have hs := (h.sound hq).quotesClosed hq
  rw [ofParts_eq]
  exact { hs with
    columns := List.forall_mem_map.2 fun c hc => balanced_wrapColumn hwrap (hs.columns c hc) }

theorem rows_ne_nil_ofParts (hq : options.quotes.Plain) {t : Text} {p : Parts}
    {blanks lead : Text} {xs : List Text} (h : Dissection options.quotes t p blanks lead xs) :
    (ofParts options p).rows ≠ [] := by
  unfold ofParts
  rw [h.rows_eq hq]
  simpa using h.list.rows_ne_nil

theorem balanced_render (hq : quotes.Plain) {s : Statement} (hs : QuotesClosed quotes s)
    (hrows : s.rows ≠ []) : Balanced quotes s.render := by
  obtain ⟨header, values, h, hvalues⟩ := laidOut_render hs.rows
  rw [h.eq]
  exact h.front_balanced hq hs ((hvalues hrows).balanced hq hs.fields)

theorem Located.statement_balanced (hq : quotes.Plain) {gap w u rest : Text}
    (h : Located quotes gap w u rest) : Balanced quotes (w ++ u ++ [')', ';']) :=
  h.balanced.append (balanced_end hq)

/-- A statement closes its quotes when it is formatted, too. -/
theorem Located.format_balanced (hq : options.quotes.Plain)
    (hwrap : ∀ w, options.columnWrap = some w → w ∉ options.quotes) {gap w u rest : Text}
    (h : Located options.quotes gap w u rest) :
    Balanced options.quotes (formatStatement options (w ++ u ++ [')', ';'])) := by
  cases hparts : cutParts options.quotes (w ++ u ++ [')', ';']) with
  | error e => rw [formatStatement_of_error hparts]; exact h.statement_balanced hq
  | ok p =>
    obtain ⟨blanks, lead, xs, hd⟩ := exists_dissection hq h.balanced h.avoids hparts
    rw [formatStatement_of_ok hparts]
    exact balanced_render hq (quotesClosed_ofParts hq hwrap hd) (rows_ne_nil_ofParts hq hd)

section
variable {read : Text → List β} (hr : Reading options.quotes read) (hq : options.quotes.Plain)
  {gap w u rest : Text} (h : Located options.quotes gap w u rest)
include hr hq h

/-- A text is read statement by statement. -/
theorem Reading.located : read (gap ++ (w ++ u ++ [')', ';']) ++ rest) =
    read gap ++ (read (w ++ u ++ [')', ';']) ++ read rest) := by
  rw [hr.append (h.gap_balanced.append (h.statement_balanced hq)), hr.append h.gap_balanced,
    List.append_assoc]

/-- So is a formatted text. -/
theorem Reading.format_located (hwrap : ∀ w, options.columnWrap = some w → w ∉ options.quotes) :
    read (format options (gap ++ (w ++ u ++ [')', ';']) ++ rest)) =
      read gap ++ (read (formatStatement options (w ++ u ++ [')', ';'])) ++
        read (format options rest)) := by
  rw [format_of_located h, hr.append (h.gap_balanced.append (h.format_balanced hq hwrap)),
    hr.append h.gap_balanced, List.append_assoc]

end

end InsertLayout
