import InsertLayout.Proofs.Layout
import InsertLayout.Proofs.Locate

/-!
# Formatting twice

A rendered statement is located where the statement was and is parsed into the same parts, so that
formatting a second time finds nothing to change. The columns are the exception: removing wrap
characters from the inside of a column can bring a `)` next to a semicolon or a keyword. If that
does not happen (`WrapsSoundly`), the formatted text is cut at the same places as the text, into
statements that are formatted already (`ofText_format`), and formatting is idempotent
(`format_format`).
-/

set_option autoImplicit false

namespace InsertLayout

open Text Statement Document

variable {quotes : QuoteSet} {options : Options}

/-! ## Wrapped columns -/

/-- A column that is a column again when it is wrapped, and that does not end the statement. -/
structure WrapsSoundly (options : Options) (c : Text) : Prop where
  column : Column options.quotes (wrapColumn options.columnWrap c)
  avoids_end : Avoids options.quotes [')', ';'] (wrapColumn options.columnWrap c)

/-- A wrap character apart from the quotes, the blanks, the keywords and the punctuation. -/
structure WrapApart (quotes : QuoteSet) (w : Char) : Prop where
  notMem : w ∉ quotes
  not_blank : isBlank w = false
  not_letter : isKeywordLetter w = false
  not_punctuation : w ∉ ['(', ')', ',', ';']

instance (w : Char) : Decidable (WrapApart quotes w) :=
  decidable_of_iff (w ∉ quotes ∧ isBlank w = false ∧ isKeywordLetter w = false ∧
    w ∉ ['(', ')', ',', ';'])
    ⟨fun h => ⟨h.1, h.2.1, h.2.2.1, h.2.2.2⟩, fun h => ⟨h.1, h.2, h.3, h.4⟩⟩

/-- A column that is free of the wrap character, but for one at each end or at none. -/
def WrappedOrBare (w : Char) (c : Text) : Prop := w ∉ c ∨ ∃ b, w ∉ b ∧ c = w :: b ++ [w]

instance (w : Char) (c : Text) : Decidable (WrappedOrBare w c) :=
  decidable_of_iff (w ∉ c ∨ w ∉ c.tail.dropLast ∧ c = w :: c.tail.dropLast ++ [w]) <| by
    refine or_congr_right ⟨fun h => ⟨_, h⟩, ?_⟩
    rintro ⟨b, hb, rfl⟩
    simpa using hb

theorem wrapColumn_of_notMem {w : Char} {c : Text} (h : w ∉ c) :
    wrapColumn (some w) c = w :: c ++ [w] := by
  rw [wrapColumn, List.filter_eq_self.2]
  exact fun d hd => by simpa using fun he : d = w => h (he ▸ hd)

/-- Wrapping a column again changes nothing. -/
theorem wrapColumn_wrapColumn (wrap : Option Char) (c : Text) :
    wrapColumn wrap (wrapColumn wrap c) = wrapColumn wrap c := by
  cases wrap with
  | none => rfl
  | some w => simp [wrapColumn]

theorem bounded_wrapped {w : Char} (hw : isBlank w = false) (c : Text) :
    Bounded (w :: c ++ [w]) where
  head d s h := by
    obtain ⟨rfl, -⟩ := List.cons.inj h
    exact hw
  last s d h := by
    obtain rfl : w = d := by simpa using (List.append_inj' h rfl).2
    exact hw

theorem WrapApart.column {w : Char} (hw : WrapApart quotes w) {c : Text}
    (hc : Column quotes c) : Column quotes (w :: c ++ [w]) := by
  have hcomma : w ≠ ',' := fun h => hw.not_punctuation (by simp [h])
  have hclose : w ≠ ')' := fun h => hw.not_punctuation (by simp [h])
  have hlast : Balanced quotes [w] := balanced_singleton hw.notMem
  refine ⟨⟨trimmed_iff.2 (bounded_wrapped hw.not_blank c), ?_, ?_⟩, by simp, ?_⟩
  · exact (balanced_cons_iff hw.notMem).2 (hc.balanced.append hlast)
  · have hfront : Avoids quotes [','] ([w] ++ c) :=
      (avoids_of_notMem List.mem_cons_self (by simpa using hcomma.symm)).append_char hlast
        hc.avoids_comma
    exact hfront.append_notMem (by simpa using hcomma.symm)
  · have hletter : NoLetter [w] := fun d s h => by
      rw [trimLeft_cons hw.not_blank] at h
      rw [← (List.cons.inj h).1]
      exact hw.not_letter
    have hend : AvoidsKeyword quotes [w] := fun a b he _ =>
      absurd (show ')' ∈ [w] by rw [he]; simp) (by simpa using hclose.symm)
    exact avoidsKeyword_cons hw.notMem hclose (hc.avoids_keyword.append hc.balanced hend hletter)

theorem WrapApart.avoids_end {w : Char} (hw : WrapApart quotes w) {c : Text}
    (hc : Column quotes c) (havoid : Avoids quotes [')', ';'] c) :
    Avoids quotes [')', ';'] (w :: c ++ [w]) := by
  have hclose : w ≠ ')' := fun h => hw.not_punctuation (by simp [h])
  have hsemi : w ≠ ';' := fun h => hw.not_punctuation (by simp [h])
  have hwrap : Avoids quotes [')', ';'] [w] :=
    avoids_of_notMem List.mem_cons_self (by simpa using hclose.symm)
  have hlast : Balanced quotes [w] := balanced_singleton hw.notMem
  have hfront := hwrap.append_end hlast havoid (.inr (by simpa using hclose))
  exact hfront.append_end (hlast.append hc.balanced) hwrap (.inl (by simpa using hsemi))

/-- Columns that are wrapped or bare stay columns when they are wrapped. -/
theorem WrapApart.wrapsSoundly {w : Char} (hwrap : options.columnWrap = some w)
    (hw : WrapApart options.quotes w) {c : Text} (hc : Column options.quotes c)
    (havoid : Avoids options.quotes [')', ';'] c)
    (hbare : WrappedOrBare w c) : WrapsSoundly options c := by
  rcases hbare with hbare | ⟨b, hb, rfl⟩
  · have heq : wrapColumn options.columnWrap c = w :: c ++ [w] := by
      rw [hwrap, wrapColumn_of_notMem hbare]
    exact ⟨heq ▸ hw.column hc, heq ▸ hw.avoids_end hc havoid⟩
  · have heq : wrapColumn options.columnWrap (w :: b ++ [w]) = w :: b ++ [w] := by
      rw [hwrap, ← wrapColumn_of_notMem hb, wrapColumn_wrapColumn]
    exact ⟨heq.symm ▸ hc, heq.symm ▸ havoid⟩

/-! ## One statement -/

/-- A statement with other column names. -/
theorem Statement.Sound.withColumns {s : Statement} (h : Sound quotes s) {columns : List Text}
    (hcolumns : ∀ c ∈ columns, Column quotes c) : Sound quotes { s with columns } :=
  { h with columns := hcolumns }

theorem Statement.Whole.withColumns {s : Statement} {w : Text} (h : Whole quotes w s)
    {columns : List Text} (hcolumns : ∀ c ∈ columns, Avoids quotes [')', ';'] c) :
    Whole quotes w { s with columns } :=
  { h with columns_avoid_end := hcolumns }

/-- A located statement stands between its keyword and its first `);`. -/
theorem Statement.Dissection.whole_of_word (hq : quotes.Plain) {w u : Text} (hw : InsertWord w)
    {p : Parts} {blanks lead : Text} {xs : List Text}
    (hd : Dissection quotes (w ++ u ++ [')', ';']) p blanks lead xs) :
    Whole quotes w (ofParts { quotes, columnWrap := none } p) := by
  rw [List.append_assoc] at hd
  exact hd.whole hq fun c hc => hw.keywordLetter hc

/-- The rendering of a sound statement is left as it is by formatting. -/
theorem formatStatement_render (hq : options.quotes.Plain) {p : Parts}
    (hs : Sound options.quotes (ofParts options p)) :
    formatStatement options (ofParts options p).render = (ofParts options p).render := by
  have hwrap : ∀ c ∈ (ofParts options p).columns, wrapColumn options.columnWrap c = c := by
    rw [ofParts_eq]
    exact List.forall_mem_map.2 fun c _ => wrapColumn_wrapColumn options.columnWrap c
  unfold formatStatement renderStatement
  rw [parse_render hq hs rfl hwrap]
  rfl

/-- A statement whose columns wrap soundly is formatted into a statement that starts with the same
word, ends at its first `);`, and is left as it is by formatting. -/
theorem exists_formatStatement (hq : options.quotes.Plain) {w u : Text} (hw : InsertWord w)
    (hbal : Balanced options.quotes (w ++ u)) (havoid : Avoids options.quotes [')', ';'] (w ++ u))
    (hcolumns : ∀ p, cutParts options.quotes (w ++ u ++ [')', ';']) = .ok p →
      ∀ c ∈ columnNames options.quotes p.columns, WrapsSoundly options c) :
    ∃ v, formatStatement options (w ++ u ++ [')', ';']) = w ++ v ++ [')', ';'] ∧
      Balanced options.quotes (w ++ v) ∧ Avoids options.quotes [')', ';'] (w ++ v) ∧
      formatStatement options (w ++ v ++ [')', ';']) = w ++ v ++ [')', ';'] := by
  cases hparts : cutParts options.quotes (w ++ u ++ [')', ';']) with
  | error e =>
    have hsame := formatStatement_of_error hparts
    exact ⟨u, hsame, hbal, havoid, hsame⟩
  | ok p =>
    obtain ⟨blanks, lead, xs, hd⟩ := exists_dissection hq hbal havoid hparts
    have hcolumns := hcolumns p hparts
    have hsound : Sound options.quotes (ofParts options p) := by
      rw [ofParts_eq]
      exact (hd.sound hq).withColumns (List.forall_mem_map.2 fun c hc => (hcolumns c hc).column)
    have hwhole : Whole options.quotes w (ofParts options p) := by
      rw [ofParts_eq]
      exact (hd.whole_of_word hq hw).withColumns
        (List.forall_mem_map.2 fun c hc => (hcolumns c hc).avoids_end)
    obtain ⟨v, hv, hvb, hva⟩ := exists_body_render hq (hsound.quotesClosed hq) hwhole
    refine ⟨v, by rw [formatStatement_of_ok hparts, hv], hvb, hva, ?_⟩
    rw [← hv]
    exact formatStatement_render hq hsound

/-! ## Whole texts -/

/-- The columns of a located statement are columns, and do not end the statement. -/
theorem column_of_mem_partsOf (hq : quotes.Plain) {t : Text} {p : Parts} (h : p ∈ partsOf quotes t)
    {c : Text} (hc : c ∈ columnNames quotes p.columns) :
    Column quotes c ∧ Avoids quotes [')', ';'] c := by
  induction t using ofText_induction quotes with
  | last t hnone =>
    rw [partsOf_of_none hnone] at h
    cases h
  | more gap w u rest hlocated ih =>
    rcases (mem_partsOf_of_located hlocated).1 h with hparts | hp
    · obtain ⟨blanks, lead, xs, hd⟩ :=
        exists_dissection hq hlocated.balanced hlocated.avoids hparts
      exact ⟨column_of_mem_columnNames hq hd.columns_balanced hd.columns_avoid hc,
        avoids_end_of_mem_columnNames hq hd.columns_avoid_end hc⟩
    · exact ih hp

/-- A formatted text is cut where the text is, and its statements are formatted already. -/
theorem ofText_format (hq : options.quotes.Plain) {t : Text}
    (hcolumns : ∀ p ∈ partsOf options.quotes t, ∀ c ∈ columnNames options.quotes p.columns,
      WrapsSoundly options c) :
    ofText options.quotes (format options t) = (ofText options.quotes t).format options ∧
      ((ofText options.quotes t).format options).format options =
        (ofText options.quotes t).format options := by
  induction t using ofText_induction options.quotes with
  | last t h =>
    rw [format_of_none h, ofText_of_none h]
    exact ⟨rfl, rfl⟩
  | more gap w u rest h ih =>
    obtain ⟨v, hv, hvb, hva, hfixed⟩ := exists_formatStatement hq h.word h.balanced h.avoids
      fun p hp => hcolumns p ((mem_partsOf_of_located h).2 (.inl hp))
    obtain ⟨hcut, hpieces⟩ := ih fun p hp => hcolumns p ((mem_partsOf_of_located h).2 (.inr hp))
    have hlocated : Located options.quotes gap w v (format options rest) := h.replace hvb hva
    have hpieces := congrArg Document.pieces hpieces
    simp only [Document.format] at hpieces
    refine ⟨?_, ?_⟩
    · rw [format_of_located h, hv, ofText_of_located hlocated, ofText_of_located h, hcut]
      simp only [Document.format, List.map_cons, hv]
    · rw [ofText_of_located h]
      simp only [Document.format, List.map_cons, hv, hfixed, hpieces]

/-- A formatted text is cut into statements that are formatted already. -/
theorem format_ofText_format (hq : options.quotes.Plain) {t : Text}
    (hcolumns : ∀ p ∈ partsOf options.quotes t, ∀ c ∈ columnNames options.quotes p.columns,
      WrapsSoundly options c) :
    (ofText options.quotes (format options t)).format options =
      ofText options.quotes (format options t) := by
  obtain ⟨hcut, hfixed⟩ := ofText_format hq hcolumns
  rw [hcut, hfixed]

/-- A text that is cut into formatted statements stays as it is. -/
theorem format_of_settled {t : Text}
    (h : (ofText options.quotes t).format options = ofText options.quotes t) :
    format options t = t ∧ reformat? options t = none := by
  have hnone := reformat?_eq_none_iff.2 h
  exact ⟨by rw [InsertLayout.format, hnone]; rfl, hnone⟩

/-- Without a wrap character, the columns of located statements stay as they are. -/
theorem wrapsSoundly_of_none (hq : options.quotes.Plain) (hwrap : options.columnWrap = none)
    {t : Text} : ∀ p ∈ partsOf options.quotes t, ∀ c ∈ columnNames options.quotes p.columns,
      WrapsSoundly options c := by
  intro p hp c hc
  obtain ⟨hcolumn, havoid⟩ := column_of_mem_partsOf hq hp hc
  have heq : wrapColumn options.columnWrap c = c := by rw [hwrap]; rfl
  exact ⟨heq.symm ▸ hcolumn, heq.symm ▸ havoid⟩

/-- Formatting is idempotent, and finds nothing to change in a formatted text: for quotes apart from
the syntax, and without a wrap character or with one that stands apart too and is in no column but
around it. -/
theorem format_format (hq : options.quotes.Plain) {t : Text}
    (hwrap : ∀ w, options.columnWrap = some w → WrapApart options.quotes w ∧
      ∀ p ∈ partsOf options.quotes t, ∀ c ∈ columnNames options.quotes p.columns,
        WrappedOrBare w c) :
    format options (format options t) = format options t ∧
      reformat? options (format options t) = none := by
  cases hw : options.columnWrap with
  | none => exact format_of_settled (format_ofText_format hq (wrapsSoundly_of_none hq hw))
  | some w =>
    obtain ⟨happart, hbare⟩ := hwrap w hw
    refine format_of_settled (format_ofText_format hq fun p hp c hc => ?_)
    obtain ⟨hcolumn, havoid⟩ := column_of_mem_partsOf hq hp hc
    exact happart.wrapsSoundly hw hcolumn havoid (hbare p hp c hc)

/-- A text that formatting changes once and not again. -/
theorem format_format_names :
    reformat? {} "insert into t(a,`b`) values (1,'x') ,(NOW());".toList ≠ none ∧
      format {} (format {} "insert into t(a,`b`) values (1,'x') ,(NOW());".toList) =
        format {} "insert into t(a,`b`) values (1,'x') ,(NOW());".toList ∧
      reformat? {} (format {} "insert into t(a,`b`) values (1,'x') ,(NOW());".toList) = none :=
  ⟨by decide +kernel, format_format (by decide) (by rintro w ⟨rfl⟩; decide +kernel)⟩

end InsertLayout
