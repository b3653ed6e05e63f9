import InsertLayout.Proofs.Compose
import InsertLayout.Proofs.Idempotence

/-!
# When formatting twice differs from formatting once

Removing wrap characters from the inside of a column can bring a `)` next to a semicolon or to the
keyword. The rendering is then cut in another place than the statement was: at the `);`, or, if a
row follows the keyword, at the `)` before it. In the second case a column is cut in two, and
wrapping its first half adds a wrap character. `Settled` says that neither happens to a statement,
and that what stands behind such a `);` stays as it is; a text is the same after formatting it once
and twice exactly if all its statements are settled (`format_format_iff`).
-/

set_option autoImplicit false

namespace InsertLayout

open Text Statement Document

variable {quotes : QuoteSet} {options : Options}

/-! ## The header -/

/-- What stands between the parentheses of the header. -/
def Statement.headerText (s : Statement) : Text :=
  List.intercalate [',', ' '] (List.zipWith padRight s.columns s.columnWidths)

/-- What stands behind the header in the rendering of a statement with rows. -/
def Statement.behindHeader (s : Statement) : Text :=
  ')' :: '\n' :: s.keyword ++ '\n' :: s.renderRows ++ [';']

/-- Whether a list of columns is cut early: the keyword and a row follow the first `)` in it that
the keyword follows. -/
def endsEarly (quotes : QuoteSet) (t : Text) : Bool :=
  match seek? quotes columnsEnd? .unquoted t with
  | some (_, _, rest) => rest.trimLeft.head? == some '('
  | none => false

/-- The header is not cut early, neither as a whole nor before the first `);` in it, and what stands
behind that `);` stays as it is. -/
def Settled (options : Options) (s : Statement) : Prop :=
  match statementEnd.cut? options.quotes s.headerText with
  | none => endsEarly options.quotes s.headerText = false
  | some (front, rest) => endsEarly options.quotes front = false ∧
      format options (rest ++ s.behindHeader) = rest ++ s.behindHeader

instance (s : Statement) : Decidable (Settled options s) := by
  unfold Settled
  split <;> infer_instance

theorem render_eq_header {s : Statement} (h : s.rows ≠ []) :
    s.render = (s.clause ++ ['\n']) ++ '(' :: (s.headerText ++ s.behindHeader) := by
  rw [render, if_neg (by simpa using h)]
  simp [renderHeader, renderCells, headerText, behindHeader]

theorem joined_headerText {s : Statement} (h : s.columns ≠ []) : Joined s.columns s.headerText :=
  joined_intercalate (forall₂_padRight _ _ (length_columnWidths s)) h

/-! ## Wrap characters before a parenthesis -/

theorem WrapApart.wrapsNoEnd {w : Char} (hw : WrapApart options.quotes w)
    (hwrap : options.columnWrap = some w) : WrapsNoEnd options := by
  intro d hd
  obtain rfl := Option.some.inj (hwrap.symm.trans hd)
  exact ⟨hw.notMem, fun h => hw.not_punctuation (by simp [h])⟩

section
variable {w : Char} (hw : WrapApart quotes w)
include hw

theorem WrapApart.notMem_of_blank {b : Text} (hb : Blank b) : w ∉ b := fun h => by
  simpa [hw.not_blank] using hb w h

/-- In a wrapped cell, a parenthesis stands behind one of the two wrap characters. -/
theorem WrapApart.count_padded {b x a z : Text} (hb : w ∉ b) (hx : Padded (w :: b ++ [w]) x)
    (h : x = a ++ ')' :: z) : a.count w = 1 := by
  have hclose : w ≠ ')' := fun h => hw.not_punctuation (by simp [h])
  obtain ⟨p, q, hp, hq, rfl⟩ := hx
  have hnot : ∀ {u : Text}, Blank u → ')' ∉ u := fun hu h => by simpa [isBlank] using hu ')' h
  have heq : (p ++ [w]) ++ (b ++ ([w] ++ q)) = a ++ ')' :: z := by rw [← h]; simp
  rcases append_eq_append_cons heq with ⟨z', hz, -⟩ | ⟨a', rfl, hinner⟩
  · refine absurd (show ')' ∈ p ++ [w] by rw [hz]; simp) ?_
    simpa [hclose.symm] using hnot hp
  · rcases append_eq_append_cons hinner with ⟨z', rfl, -⟩ | ⟨a'', -, hz⟩
    · have ha' : w ∉ a' := fun h => hb (by simp [h])
      simp [List.count_eq_zero_of_not_mem (hw.notMem_of_blank hp),
        List.count_eq_zero_of_not_mem ha']
    · refine absurd (show ')' ∈ [w] ++ q by rw [hz]; simp) ?_
      simpa [hclose.symm] using hnot hq

/-- Before a parenthesis in joined wrapped cells, the number of wrap characters is odd. -/
theorem WrapApart.count_joined {fs : List Text} {t : Text} (ht : Joined fs t)
    (hfs : ∀ f ∈ fs, ∃ b, w ∉ b ∧ f = w :: b ++ [w]) {a z : Text} (h : t = a ++ ')' :: z) :
    a.count w % 2 = 1 := by
  have hcomma : w ≠ ',' := fun h => hw.not_punctuation (by simp [h])
  induction ht generalizing a with
  | last hx =>
    obtain ⟨b, hb, rfl⟩ := hfs _ List.mem_cons_self
    rw [hw.count_padded hb hx h]
  | @more f x t fs hx _ ih =>
    obtain ⟨⟨b, hb, rfl⟩, hrest⟩ := List.forall_mem_cons.1 hfs
    rcases append_eq_append_cons h with ⟨z', hz, -⟩ | ⟨a', rfl, hz⟩
    · rw [hw.count_padded hb hx hz]
    · rcases List.cons_eq_append_iff.1 hz with ⟨-, hz⟩ | ⟨a', rfl, rfl⟩
      · simp at hz
      · have hodd := ih hrest rfl
        obtain ⟨p, q, hp, hq, rfl⟩ := hx
        simp only [List.count_append, List.count_cons, List.count_nil, beq_iff_eq, if_true,
          List.count_eq_zero_of_not_mem (hw.notMem_of_blank hp),
          List.count_eq_zero_of_not_mem (hw.notMem_of_blank hq),
          List.count_eq_zero_of_not_mem hb, if_neg hcomma.symm]
        omega

end

/-! ## One cut -/

/-- A statement whose list of columns is cut within `h` can be parsed exactly if a row follows the
keyword there. -/
theorem cutParts_of_seek (hq : quotes.Plain) {clause h a k r : Text}
    (hclause : Balanced quotes clause) (havoid : Avoids quotes ['('] clause)
    (hseek : seek? quotes columnsEnd? .unquoted h = some (a, k, r)) (t : Text) :
    cutParts quotes (clause ++ '(' :: (h ++ ')' :: t)) =
      if r.trimLeft.head? = some '(' then .ok ⟨clause, a, k, (r ++ ')' :: t).trim⟩
      else .error (.malformedValues (r ++ ')' :: t).trim) := by
  obtain ⟨u, rfl, -, hmiss, hbal, hu⟩ := seek?_eq_some_iff.1 hseek
  obtain ⟨u, rfl, hkey⟩ := columnsEnd?_eq_some_iff.1 hu
  have hclose (v : Text) : NoWord (')' :: v) := noWord_append_cons Blank.nil (by simp) v
  have hseek' : seek? quotes columnsEnd? .unquoted (a ++ ')' :: u ++ ')' :: t) =
      some (a, k, r ++ ')' :: t) := by
    refine seek?_eq_some_iff.2 ⟨')' :: (u ++ ')' :: t), by simp, by simp, ?_, hbal, ?_⟩
    · exact (misses_columnsEnd?_iff (hclose _)).2 ((misses_columnsEnd?_iff (hclose _)).1 hmiss)
    · exact keyword?_append hkey (hclose t).continues
  have hcut := Needle.cut?_char_eq_some_iff.2
    ⟨(rfl : clause ++ '(' :: (a ++ ')' :: u ++ ')' :: t) = _), hclause, havoid⟩
  have hstarts : startsWithRow (r ++ ')' :: t).trim = (r.trimLeft.head? == some '(') := by
    have hhead := head?_trim (r ++ ')' :: t)
    rw [head?_trimLeft_append, trimLeft_cons (by decide)] at hhead
    cases htrim : (r ++ ')' :: t).trim with
    | nil =>
      rw [htrim] at hhead
      cases hr : r.trimLeft.head? <;> simp [hr] at hhead
    | cons c v =>
      rw [htrim] at hhead
      cases hr : r.trimLeft.head? with
      | none =>
        obtain rfl : c = ')' := by simpa [hr] using hhead
        rfl
      | some d =>
        obtain rfl : c = d := by simpa [hr] using hhead
        rfl
  rw [cutParts, hcut, hq.without_eq]
  simp only [hseek', hstarts, beq_iff_eq]

/-- A statement that ends at the first `);` behind its clause has no keyword, unless one stands
before that end. -/
theorem cutParts_of_noKeyword (hq : quotes.Plain) {clause head t : Text}
    (hclause : Balanced quotes clause) (havoid : Avoids quotes ['('] clause)
    (hkeyword : AvoidsKeyword quotes head)
    (ht : t = clause ++ '(' :: (head ++ [')', ';'])) :
    cutParts quotes t = .error (.missingKeyword t) := by
  have hcut := Needle.cut?_char_eq_some_iff.2 ⟨ht, hclause, havoid⟩
  have hend : Misses quotes columnsEnd? (QuoteState.unquoted.scan quotes head) [')', ';'] [] := by
    intro a b he hb _
    rcases a with _ | ⟨c, _ | ⟨d, a⟩⟩
    · obtain rfl : [')', ';'] = b := he
      rfl
    · obtain ⟨rfl, rfl⟩ := List.cons.inj he
      rfl
    · have hnil : a = [] ∧ b = [] := by simpa using (List.cons.inj (List.cons.inj he).2).2
      exact absurd hnil.2 hb
  have hseek : seek? quotes columnsEnd? .unquoted (head ++ [')', ';']) = none :=
    seek?_eq_none_iff.2 (misses_append_iff.2
      ⟨(misses_columnsEnd?_iff (noWord_append_cons Blank.nil (by simp) [';'])).2 hkeyword, hend⟩)
  rw [cutParts, hcut, hq.without_eq]
  simp only [hseek]

/-- Wrapped columns hold two wrap characters each. -/
theorem length_filter_wrapped (w : Char) (names : List Text) :
    ((names.map (wrapColumn (some w))).map (List.filter (· == w))).flatten.length =
      2 * names.length := by
  induction names with
  | nil => rfl
  | cons c names ih =>
    have hnone : (c.filter (· != w)).filter (· == w) = [] := by
      simp [List.filter_eq_nil_iff]
    simp only [List.map_cons, List.flatten_cons, List.length_append, ih, List.length_cons,
      wrapColumn, List.filter_append, List.filter_cons, beq_self_eq_true, if_true, hnone,
      List.filter_nil, List.length_nil]
    omega

section
variable {w : Char} (hq : options.quotes.Plain) (hw : WrapApart options.quotes w)
  (hwrap : options.columnWrap = some w)
include hq hw hwrap

/-- A statement with an odd number of wrap characters between its columns gets more of them. -/
theorem formatStatement_ne {gap v u rest : Text} (h : Located options.quotes gap v u rest)
    {p : Parts} (hparts : cutParts options.quotes (v ++ u ++ [')', ';']) = .ok p)
    (hodd : p.columns.count w % 2 = 1) :
    formatStatement options (v ++ u ++ [')', ';']) ≠ v ++ u ++ [')', ';'] := by
  intro hsame
  obtain ⟨blanks, lead, xs, hd⟩ := exists_dissection hq h.balanced h.avoids hparts
  have hr : Reading.Faithful options (List.filter (· == w)) :=
    faithful_filter hw.not_blank (fun h => hw.not_punctuation (by simp [← h]))
      fun h => hw.not_punctuation (by simp [← h])
  have hclosed := quotesClosed_ofParts hq (by simpa [hwrap] using hw.notMem) hd
  have hcells : ∀ c ∈ columnCells options.quotes p.columns, Balanced options.quotes c :=
    fun c hc => (cell_of_mem_split hq hd.columns_balanced hc).balanced
  -- Everything but the columns is read the same before and after.
  have hread := congrArg (List.filter (· == w)) hsame
  rw [formatStatement_of_ok hparts, hr.reading.dissection hq hd,
    hr.reading.render hq hclosed (rows_ne_nil_ofParts hq hd), hr.rows_eq hq hd] at hread
  simp only [readStatement] at hread
  have hcolumns := List.append_cancel_right
    (List.append_cancel_left (List.append_cancel_left hread))
  have hbefore : List.intercalate (List.filter (· == w) [','])
      ((columnCells options.quotes p.columns).map (List.filter (· == w))) =
        p.columns.filter (· == w) :=
    (hr.reading.joined hq (joined_split options.quotes p.columns) hcells).symm
  have hlength := congrArg List.length hcolumns
  rw [hbefore, ← List.countP_eq_length_filter, hr.comma, intercalate_nil_left, ofParts,
    parseColumns_eq, hwrap, length_filter_wrapped] at hlength
  rw [List.count] at hodd
  omega

/-- A statement whose list of columns starts with `head` stays as it is exactly if `head` is not cut
early, provided that it does if `head` is not cut at all. -/
theorem formatStatement_eq_self_iff {gap v u rest : Text} (h : Located options.quotes gap v u rest)
    {clause head t : Text} (heq : v ++ u ++ [')', ';'] = clause ++ '(' :: (head ++ ')' :: t))
    (hclause : Balanced options.quotes clause) (havoid : Avoids options.quotes ['('] clause)
    (hodd : ∀ a z, head = a ++ ')' :: z → a.count w % 2 = 1)
    (hwhole : AvoidsKeyword options.quotes head →
      formatStatement options (v ++ u ++ [')', ';']) = v ++ u ++ [')', ';']) :
    formatStatement options (v ++ u ++ [')', ';']) = v ++ u ++ [')', ';'] ↔
      endsEarly options.quotes head = false := by
  cases hseek : seek? options.quotes columnsEnd? .unquoted head with
  | none =>
    have hkeyword := (misses_columnsEnd?_iff NoWord.nil).1 (seek?_eq_none_iff.1 hseek)
    simp only [endsEarly, hseek, iff_true]
    exact hwhole hkeyword
  | some p =>
    obtain ⟨a, k, r⟩ := p
    have hparts := cutParts_of_seek hq hclause havoid hseek t
    rw [← heq] at hparts
    by_cases hrow : r.trimLeft.head? = some '('
    · obtain ⟨z, rfl, -, -, -, hz⟩ := seek?_eq_some_iff.1 hseek
      obtain ⟨z, rfl, -⟩ := columnsEnd?_eq_some_iff.1 hz
      rw [if_pos hrow] at hparts
      have hne := formatStatement_ne hq hw hwrap h hparts (hodd a z rfl)
      have hearly : endsEarly options.quotes (a ++ ')' :: z) = true := by
        simp [endsEarly, hseek, hrow]
      rw [hearly]
      exact ⟨fun hsame => absurd hsame hne, fun hfalse => by cases hfalse⟩
    · rw [if_neg hrow] at hparts
      have hearly : endsEarly options.quotes head = false := by simp [endsEarly, hseek, hrow]
      exact ⟨fun _ => hearly, fun _ => formatStatement_of_error hparts⟩

end

/-! ## One statement -/

/-- A text that is one statement is formatted as that statement. -/
theorem format_statement {v u : Text} (h : Located options.quotes [] v u []) :
    format options (v ++ u ++ [')', ';']) = formatStatement options (v ++ u ++ [')', ';']) := by
  have hnil : nextPiece? options.quotes [] = none := rfl
  simpa [format_of_none hnil] using format_of_located h

theorem Text.Avoids.filter {w d : Char} (hw : w ∉ quotes) {t : Text}
    (h : Avoids quotes [d] t) : Avoids quotes [d] (t.filter (· != w)) := by
  intro a b he ha
  rw [List.append_assoc] at he
  obtain ⟨s, r, rfl, rfl, hr⟩ := List.filter_eq_append_iff.1 he
  obtain ⟨x, y, rfl, hx, -, -⟩ := List.filter_eq_cons_iff.1 hr
  have hnil : x.filter (· != w) = [] := List.filter_eq_nil_iff.2 hx
  refine h (s ++ x) y (by simp) ?_
  have hscan : QuoteState.unquoted.scan quotes ((s ++ x).filter (· != w)) =
      QuoteState.unquoted.scan quotes (s ++ x) := scan_filter hw fun q h => by cases h
  rw [Balanced, ← hscan, List.filter_append, hnil, List.append_nil]
  exact ha

section
variable {w : Char} (hq : options.quotes.Plain) (hw : WrapApart options.quotes w)
  (hwrap : options.columnWrap = some w) {t : Text} {p : Parts} {blanks lead : Text}
  {xs : List Text} (hd : Dissection options.quotes t p blanks lead xs)
include hq hw hwrap hd

omit hq hw hd in
theorem exists_of_mem_columns {c : Text} (hc : c ∈ (ofParts options p).columns) :
    ∃ b, w ∉ b ∧ c = w :: b ++ [w] := by
  rw [ofParts, parseColumns_eq, hwrap] at hc
  obtain ⟨b, -, rfl⟩ := List.mem_map.1 hc
  exact ⟨b.filter (· != w), by simp, rfl⟩

theorem quotesClosed_wrapped : QuotesClosed options.quotes (ofParts options p) :=
  quotesClosed_ofParts hq (by simpa [hwrap] using hw.notMem) hd

/-- A wrapped column is a cell. -/
theorem cell_of_mem_columns {c : Text} (hc : c ∈ (ofParts options p).columns) :
    Cell options.quotes c := by
  have hclosed := (quotesClosed_wrapped hq hw hwrap hd).columns c hc
  rw [ofParts_eq, hwrap] at hc
  obtain ⟨b, hb, rfl⟩ := List.mem_map.1 hc
  have hcomma : ',' ≠ w := fun h => hw.not_punctuation (by simp [← h])
  have hlast : Balanced options.quotes [w] := balanced_singleton hw.notMem
  refine ⟨trimmed_iff.2 (bounded_wrapped hw.not_blank _), hclosed, ?_⟩
  have hbare := (((hd.sound hq).columns b hb).avoids_comma).filter hw.notMem
  have hfront : Avoids options.quotes [','] ([w] ++ b.filter (· != w)) :=
    (avoids_of_notMem List.mem_cons_self (by simpa using hcomma)).append_char hlast hbare
  exact hfront.append_notMem (by simpa using hcomma)

omit hq hd in
theorem headerText_count {a z : Text} (h : (ofParts options p).headerText = a ++ ')' :: z) :
    a.count w % 2 = 1 := by
  by_cases hnil : (ofParts options p).columns = []
  · rw [headerText, hnil] at h
    simp at h
  · exact hw.count_joined (joined_headerText hnil)
      (fun c hc => exists_of_mem_columns hwrap hc) h

omit hw hwrap in
theorem clause_balanced_wrapped : Balanced options.quotes ((ofParts options p).clause ++ ['\n']) :=
  ((hd.sound hq).clause_balanced).append (balanced_blank hq (Blank.cons (by decide) Blank.nil))

omit hw hwrap in
theorem clause_avoids_wrapped :
    Avoids options.quotes ['('] ((ofParts options p).clause ++ ['\n']) :=
  (hd.sound hq).clause_avoids.append_notMem (by decide)

end

section
variable {w : Char} (hq : options.quotes.Plain) (hw : WrapApart options.quotes w)
  (hwrap : options.columnWrap = some w) {gap v u rest : Text}
  (h : Located options.quotes gap v u rest) {p : Parts} {blanks lead : Text} {xs : List Text}
  (hd : Dissection options.quotes (v ++ u ++ [')', ';']) p blanks lead xs)
include hq hw hwrap h hd

/-- A rendering whose header holds no `);` stays as it is exactly if the header is not cut early. -/
theorem format_render_of_avoids
    (havoid : Avoids options.quotes [')', ';'] (ofParts options p).headerText) :
    format options (ofParts options p).render = (ofParts options p).render ↔
      endsEarly options.quotes (ofParts options p).headerText = false := by
  have hclosed := quotesClosed_wrapped hq hw hwrap hd
  have hrows : (ofParts options p).rows ≠ [] := rows_ne_nil_ofParts hq hd
  have hunwrapped := hd.whole_of_word hq h.word
  have hmem : ∀ c ∈ (ofParts options p).columns, ∃ a b,
      (ofParts options p).headerText = a ++ c ++ b ∧ Balanced options.quotes a ∧
        continuesWord b = false := fun c hc =>
    (joined_headerText (List.ne_nil_of_mem hc)).exists_of_mem hq hclosed.columns hc
  have hwhole : Whole options.quotes v (ofParts options p) :=
    { hunwrapped with
      columns_avoid_end := fun c hc => by
        obtain ⟨a, b, heq, ha, -⟩ := hmem c hc
        rw [heq] at havoid
        exact havoid.left.right ha }
  obtain ⟨y, hy, hyb, hya⟩ := exists_body_render hq hclosed hwhole
  have hlocated : Located options.quotes [] v y [] :=
    ⟨balanced_nil, misses_nil _ _, h.word, hyb, hya⟩
  rw [hy, format_statement hlocated]
  refine formatStatement_eq_self_iff hq hw hwrap hlocated
    (by rw [← hy, render_eq_header hrows]; rfl) (clause_balanced_wrapped hq hd)
    (clause_avoids_wrapped hq hd) (fun a z => headerText_count hw hwrap) fun hkeyword => ?_
  -- Without an early keyword, the header is the list of columns again.
  have hsound : Sound options.quotes (ofParts options p) :=
    { hd.sound hq with
      columns := fun c hc => by
        obtain ⟨b, -, hcb⟩ := exists_of_mem_columns hwrap hc
        obtain ⟨a, r, heq, ha, hr⟩ := hmem c hc
        rw [heq] at hkeyword
        exact { cell_of_mem_columns hq hw hwrap hd hc with
          ne_nil := by simp [hcb]
          avoids_keyword := (hkeyword.left hr).right ha } }
  rw [← hy]
  exact formatStatement_render hq hsound

omit hw hwrap in
/-- A rendering whose header holds a `);` starts with a statement that ends there. -/
theorem exists_located_header {front back : Text}
    (heq : (ofParts options p).headerText = front ++ [')', ';'] ++ back)
    (hfront : Balanced options.quotes front) (havoid : Avoids options.quotes [')', ';'] front) :
    ∃ y, v ++ y = ((ofParts options p).clause ++ ['\n']) ++ '(' :: front ∧
      Located options.quotes [] v y (back ++ (ofParts options p).behindHeader) ∧
      (ofParts options p).render = [] ++ (v ++ y ++ [')', ';']) ++
        (back ++ (ofParts options p).behindHeader) := by
  have hunwrapped := hd.whole_of_word hq h.word
  obtain ⟨x, hx⟩ := hunwrapped.clause
  have hclause : (ofParts options p).clause = v ++ x := hx
  have hopen : Balanced options.quotes ['('] := balanced_singleton hq.open_notMem
  have hcb : Balanced options.quotes ((ofParts options p).clause ++ ['\n']) :=
    clause_balanced_wrapped hq hd
  have hca : Avoids options.quotes [')', ';'] ((ofParts options p).clause ++ ['\n']) :=
    hunwrapped.clause_avoids_end.append_end (hd.sound hq).clause_balanced
      (avoids_of_notMem List.mem_cons_self (by decide)) (.inl (by decide))
  have hoa : Avoids options.quotes [')', ';'] ('(' :: front) :=
    (avoids_of_notMem (t := ['(']) List.mem_cons_self (by decide)).append_end hopen havoid
      (.inr (by decide))
  have hbody : v ++ (x ++ ['\n'] ++ '(' :: front) =
      ((ofParts options p).clause ++ ['\n']) ++ '(' :: front := by rw [hclause]; simp
  refine ⟨x ++ ['\n'] ++ '(' :: front, hbody, ?_, ?_⟩
  · exact ⟨balanced_nil, misses_nil _ _, h.word, hbody ▸ hcb.append (hopen.append hfront),
      hbody ▸ hca.append_end hcb hoa (.inl (by simp))⟩
  · rw [render_eq_header (rows_ne_nil_ofParts hq hd), hbody, heq]
    simp

/-- A rendering whose header holds a `);` stays as it is exactly if the header is not cut early
before it, and what stands behind it stays as it is. -/
theorem format_render_of_cut {front back : Text}
    (heq : (ofParts options p).headerText = front ++ [')', ';'] ++ back)
    (hfront : Balanced options.quotes front) (havoid : Avoids options.quotes [')', ';'] front) :
    format options (ofParts options p).render = (ofParts options p).render ↔
      endsEarly options.quotes front = false ∧
        format options (back ++ (ofParts options p).behindHeader) =
          back ++ (ofParts options p).behindHeader := by
  obtain ⟨y, hbody, hlocated, hrender⟩ := exists_located_header hq h hd heq hfront havoid
  have hcb : Balanced options.quotes ((ofParts options p).clause ++ ['\n']) :=
    clause_balanced_wrapped hq hd
  have hodd : ∀ a z, front = a ++ ')' :: z → a.count w % 2 = 1 := by
    intro a z hz
    have hheader : (ofParts options p).headerText = a ++ ')' :: (z ++ ([')', ';'] ++ back)) := by
      rw [heq, hz]; simp
    exact headerText_count hw hwrap hheader
  have hstatement := formatStatement_eq_self_iff hq hw hwrap hlocated (t := [';'])
    (by rw [hbody]; simp) hcb (clause_avoids_wrapped hq hd) hodd
    fun hkeyword => formatStatement_of_error (cutParts_of_noKeyword hq hcb
      (clause_avoids_wrapped hq hd) hkeyword (by rw [hbody]; simp))
  have hnoEnd := hw.wrapsNoEnd hwrap
  rw [hrender, format_of_located hlocated, List.nil_append, List.nil_append, ← hstatement]
  constructor
  · intro hsame
    obtain ⟨f, hf⟩ := exists_formatStatement_append hq hlocated
    exact append_cancel_of_semicolons hsame (by rw [hf]; simp) (by rw [List.getLast?_append]; rfl)
      (semicolons_formatStatement hq hnoEnd hlocated)
  · rintro ⟨hsame, hrest⟩
    rw [hsame, hrest]

end

/-- The rendering of a located statement stays as it is exactly if the statement is settled. -/
theorem format_render_iff {w : Char} (hq : options.quotes.Plain) (hw : WrapApart options.quotes w)
    (hwrap : options.columnWrap = some w) {gap v u rest : Text}
    (h : Located options.quotes gap v u rest) {p : Parts}
    (hparts : cutParts options.quotes (v ++ u ++ [')', ';']) = .ok p) :
    format options (ofParts options p).render = (ofParts options p).render ↔
      Settled options (ofParts options p) := by
  obtain ⟨blanks, lead, xs, hd⟩ := exists_dissection hq h.balanced h.avoids hparts
  rw [Settled]
  cases hcut : statementEnd.cut? options.quotes (ofParts options p).headerText with
  | none =>
    exact format_render_of_avoids hq hw hwrap h hd (statementEnd_cut?_eq_none_iff.1 hcut)
  | some f =>
    obtain ⟨front, back⟩ := f
    obtain ⟨heq, hfront, havoid⟩ := statementEnd_cut?_eq_some_iff.1 hcut
    exact format_render_of_cut hq hw hwrap h hd heq hfront havoid

/-! ## Whole texts -/

/-- A text ends with a semicolon when it is formatted, if it does before. -/
theorem getLast?_format (hq : options.quotes.Plain) {t : Text} (ht : t.getLast? = some ';') :
    (format options t).getLast? = some ';' := by
  induction t using ofText_induction options.quotes with
  | last t h => rwa [format_of_none h]
  | more gap v u rest h ih =>
    rw [format_of_located h]
    rcases List.eq_nil_or_concat rest with rfl | ⟨rest, c, rfl⟩
    · obtain ⟨f, hf⟩ := exists_formatStatement_append hq h
      have hnil : nextPiece? options.quotes [] = none := rfl
      rw [format_of_none hnil, hf]
      simp
    · rw [List.concat_eq_append, ← List.append_assoc, List.getLast?_concat] at ht
      have hlast := ih (by rw [List.concat_eq_append, List.getLast?_concat]; exact ht)
      rw [List.getLast?_append, hlast]
      rfl

/-- A formatted statement starts with the keyword of the statement. -/
theorem exists_formatStatement_word (hq : options.quotes.Plain) {gap v u rest : Text}
    (h : Located options.quotes gap v u rest) :
    ∃ f, formatStatement options (v ++ u ++ [')', ';']) = v ++ f := by
  cases hparts : cutParts options.quotes (v ++ u ++ [')', ';']) with
  | error e =>
    rw [formatStatement_of_error hparts]
    exact ⟨u ++ [')', ';'], List.append_assoc ..⟩
  | ok p =>
    obtain ⟨blanks, lead, xs, hd⟩ := exists_dissection hq h.balanced h.avoids hparts
    rw [List.append_assoc] at hd
    obtain ⟨x, hx⟩ := (hd.whole hq fun c hc => h.word.keywordLetter hc).clause
    have hclause : (ofParts options p).clause = v ++ x := hx
    rw [formatStatement_of_ok hparts, Statement.render, hclause]
    simp only [List.append_assoc]
    exact ⟨_, rfl⟩

/-- Formatting a text twice is formatting each statement in it twice. -/
theorem format_format_located (hq : options.quotes.Plain)
    (hquote : ∀ w, options.columnWrap = some w → w ∉ options.quotes) {gap v u rest : Text}
    (h : Located options.quotes gap v u rest) :
    format options (format options (gap ++ (v ++ u ++ [')', ';']) ++ rest)) =
      gap ++ (format options (formatStatement options (v ++ u ++ [')', ';'])) ++
        format options (format options rest)) := by
  have hbal := h.format_balanced hq hquote
  obtain ⟨f, hf⟩ := exists_formatStatement_append hq h
  obtain ⟨g, hg⟩ := exists_formatStatement_word hq h
  have hmiss : Misses options.quotes insertKeyword.after? .unquoted gap
      (formatStatement options (v ++ u ++ [')', ';']) ++ format options rest) := by
    rw [hg, List.append_assoc]
    exact h.misses_word _
  have hclosed : Closed options.quotes (formatStatement options (v ++ u ++ [')', ';'])) := by
    rw [hf] at hbal ⊢
    exact closed_of_end hq
      (hbal.of_append_notMem hq.notMem_of_mem_end)
  rw [format_of_located h, List.append_assoc, format_append_of_misses h.gap_balanced hmiss,
    format_append hclosed]

/-- A text is the same after formatting it once and twice exactly if the statements in it are
settled. -/
theorem format_format_iff {w : Char} (hq : options.quotes.Plain) (hw : WrapApart options.quotes w)
    (hwrap : options.columnWrap = some w) (t : Text) :
    format options (format options t) = format options t ↔
      ∀ p ∈ partsOf options.quotes t, Settled options (ofParts options p) := by
  have hnoEnd := hw.wrapsNoEnd hwrap
  have hquote : ∀ w, options.columnWrap = some w → w ∉ options.quotes := fun w h => (hnoEnd w h).1
  induction t using ofText_induction options.quotes with
  | last t h =>
    rw [format_of_none h, format_of_none h, partsOf_of_none h]
    simp
  | more gap v u rest h ih =>
    have hstatement : format options (formatStatement options (v ++ u ++ [')', ';'])) =
        formatStatement options (v ++ u ++ [')', ';']) ↔
          ∀ p, cutParts options.quotes (v ++ u ++ [')', ';']) = .ok p →
            Settled options (ofParts options p) := by
      cases hparts : cutParts options.quotes (v ++ u ++ [')', ';']) with
      | error e =>
        have hlocated : Located options.quotes [] v u [] :=
          ⟨balanced_nil, misses_nil _ _, h.word, h.balanced, h.avoids⟩
        rw [formatStatement_of_error hparts, format_statement hlocated,
          formatStatement_of_error hparts]
        simp
      | ok p =>
        rw [formatStatement_of_ok hparts, format_render_iff hq hw hwrap h hparts]
        simp
    rw [format_format_located hq hquote h, format_of_located h, List.append_assoc gap,
      List.append_cancel_left_eq]
    simp only [mem_partsOf_of_located h, or_imp]
    rw [forall_and]
    refine Iff.trans ?_ (and_congr hstatement ih)
    constructor
    · intro hsame
      -- Both sides end with a semicolon and have as many of them, so that nothing cancels out.
      obtain ⟨f, hf⟩ := exists_formatStatement_append hq h
      have hlast : (formatStatement options (v ++ u ++ [')', ';'])).getLast? = some ';' := by
        rw [hf]
        simp
      exact append_cancel_of_semicolons hsame (getLast?_format hq hlast) hlast
        (semicolons_format hq hnoEnd _)
    · rintro ⟨hsame, hrest⟩
      rw [hsame, hrest]

/-- With the default options, too. -/
theorem format_format_default_iff (t : Text) :
    format {} (format {} t) = format {} t ↔
      ∀ p ∈ partsOf .standard t, Settled {} (ofParts {} p) :=
  @format_format_iff {} '`' (by decide) (by decide) rfl t

/-- A column that is cut in two when the statement is formatted again. -/
theorem format_format_inner_wrap :
    format {} "INSERT INTO t (a)` VALUES (x), b) VALUES (1);".toList =
        "INSERT INTO t\n(`a) VALUES (x)`, `b`)\nVALUES\n(              1);".toList ∧
      format {} (format {} "INSERT INTO t (a)` VALUES (x), b) VALUES (1);".toList) =
        "INSERT INTO t\n(`a`)\nVALUES\n(x)`, `b`)\nVALUES\n(              1);".toList ∧
      format {} (format {} "INSERT INTO t (a)` VALUES (x), b) VALUES (1);".toList) ≠
        format {} "INSERT INTO t (a)` VALUES (x), b) VALUES (1);".toList := by
  decide +kernel

end InsertLayout
