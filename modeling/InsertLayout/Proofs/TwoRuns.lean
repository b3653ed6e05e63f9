import InsertLayout.Proofs.Alike

/-!
# Two runs that differ in quoted contents

Two texts of the same shape are formatted in lockstep: their statements are located at the same
places (`Alike.exists_located`), fall into parts of the same shape (`Dissection.exists_alike`), and
are rendered with the same widths (`Corresponds.render`). So what stands in the quoted regions never
decides where anything starts or ends (`sameShape_format`).
-/

set_option autoImplicit false

namespace InsertLayout

open Text Statement Document

variable {quotes : QuoteSet} {options : Options}

theorem forall_mem_of_forall₂ {α β : Type} {R : α → β → Prop} {P : α → Prop} {Q : β → Prop}
    {as : List α} {bs : List β} (h : List.Forall₂ R as bs) (himp : ∀ a b, R a b → P a → Q b)
    (has : ∀ a ∈ as, P a) : ∀ b ∈ bs, Q b := by
  induction h with
  | nil => simp
  | cons hab _ ih =>
    obtain ⟨ha, has⟩ := List.forall_mem_cons.1 has
    exact List.forall_mem_cons.2 ⟨himp _ _ hab ha, ih has⟩

/-! ## Locating -/

section
variable (hq : quotes.Plain)
include hq

/-- Where no statement starts in a text, none does in one that is alike. -/
theorem Twin.misses_insert {s s' t t' : Text} (hs : Twin quotes s s') (ht : Alike quotes t t')
    (h : Misses quotes insertKeyword.after? .unquoted s t) :
    Misses quotes insertKeyword.after? .unquoted s' t' := by
  rintro a' b' rfl hne ha'
  obtain ⟨a, b, rfl, ha, hb⟩ := hs.alike.exists_place ha'
  rw [Option.eq_none_iff_forall_ne_some]
  intro rest' hsome
  obtain ⟨w, hw, he⟩ := insertKeyword_after?_iff.1 hsome
  have hplace := hb.append (hs.of_append ha hb).balanced ht
  rw [he] at hplace
  obtain ⟨rest, hrest, -⟩ := hplace.symm.exists_notMem fun c hc =>
    hq.notMem_of_letter (hw.keywordLetter hc)
  have hbne : b ≠ [] := by
    rintro rfl
    cases hb
    exact hne rfl
  have hnone := h a b rfl hbne ha.balanced
  rw [insertKeyword_after?_iff.2 ⟨w, hw, hrest⟩] at hnone
  cases hnone

/-- The first statement of a text has a counterpart in every text that is alike. -/
theorem Alike.exists_located {gap w u rest t' : Text} (h : Located quotes gap w u rest)
    (ht : Alike quotes (gap ++ (w ++ u ++ [')', ';']) ++ rest) t') :
    ∃ gap' u' rest', t' = gap' ++ (w ++ u' ++ [')', ';']) ++ rest' ∧
      Located quotes gap' w u' rest' ∧ Twin quotes gap gap' ∧
      Twin quotes (w ++ u ++ [')', ';']) (w ++ u' ++ [')', ';']) ∧ Alike quotes rest rest' := by
  have hend := hq.notMem_of_mem_end
  have heq : gap ++ (w ++ u ++ [')', ';']) ++ rest = gap ++ ((w ++ u) ++ ([')', ';'] ++ rest)) := by
    simp
  rw [heq] at ht
  obtain ⟨gap', t₁, rfl, hgap, ht₁⟩ := ht.exists_twin h.gap_balanced
  obtain ⟨b', t₂, rfl, hb, ht₂⟩ := ht₁.exists_twin h.balanced
  obtain ⟨u', rfl, -⟩ := hb.alike.exists_notMem fun c hc =>
    hq.notMem_of_letter (h.word.keywordLetter hc)
  obtain ⟨rest', rfl, hrest⟩ := ht₂.exists_notMem hend
  refine ⟨gap', u', rest', by simp, ?_, hgap, hb.append (.of_notMem hend), hrest⟩
  refine ⟨hgap.symm.balanced, ?_, h.word, hb.symm.balanced, hb.alike.avoids hend h.avoids⟩
  have hmiss := h.gap_misses
  rw [← List.append_assoc, ← List.append_assoc, List.append_assoc (w ++ u)] at hmiss
  simpa using hgap.misses_insert hq ht₁ hmiss

theorem Alike.nextPiece?_eq_none {t t' : Text} (h : Alike quotes t t')
    (hnone : nextPiece? quotes t = none) : nextPiece? quotes t' = none := by
  rw [Option.eq_none_iff_forall_ne_some]
  rintro ⟨⟨gap', statement'⟩, rest'⟩ hsome
  obtain ⟨w, u', hlocated, rfl, rfl⟩ := nextPiece?_eq_some_iff.1 hsome
  obtain ⟨gap, u, rest, rfl, hlocated, -⟩ := h.symm.exists_located hq hlocated
  have hsome : nextPiece? quotes (gap ++ (w ++ u ++ [')', ';']) ++ rest) =
      some (⟨gap, w ++ u ++ [')', ';']⟩, rest) :=
    nextPiece?_eq_some_iff.2 ⟨w, u, hlocated, rfl, rfl⟩
  rw [hnone] at hsome
  cases hsome

/-! ## Parsing -/

theorem ValueList.exists_alike {t t' : Text} {xs : List Text} (h : ValueList quotes t xs)
    (ht : Alike quotes t t') :
    ∃ xs', ValueList quotes t' xs' ∧ List.Forall₂ (Twin quotes) xs xs' := by
  induction h generalizing t' with
  | @last x hx havoid =>
    obtain ⟨x', r, rfl, hxx, hr⟩ := ht.exists_twin hx
    obtain rfl := hr.eq_of_notMem hq.notMem_of_mem_end
    exact ⟨[x'], .last hxx.symm.balanced (hxx.alike.avoidsRowEnd hq havoid), .cons hxx .nil⟩
  | @more x b t xs hx havoid hb _ ih =>
    obtain ⟨x', r, rfl, hxx, hr⟩ := ht.exists_twin hx
    obtain ⟨r₁, rfl, hr₁⟩ := hr.exists_cons hq.close_notMem
    obtain ⟨r₂, rfl, hr₂⟩ := hr₁.exists_notMem (hq.notMem_of_mem_blank hb)
    obtain ⟨t', rfl, hr₃⟩ := hr₂.exists_cons hq.comma_notMem
    obtain ⟨xs', hxs', hxs⟩ := ih hr₃
    exact ⟨x' :: xs', .more hxx.symm.balanced (hxx.alike.avoidsRowEnd hq havoid) hb hxs',
      .cons hxx hxs⟩

/-- The parts of a statement have counterparts in every statement that is alike. -/
theorem Statement.Dissection.exists_alike {t t' : Text} {p : Parts} {blanks lead : Text}
    {xs : List Text} (hd : Dissection quotes t p blanks lead xs) (h : Twin quotes t t') :
    ∃ p' xs', Dissection quotes t' p' blanks lead xs' ∧ Twin quotes p.clause p'.clause ∧
      Twin quotes p.columns p'.columns ∧ p'.keyword = p.keyword ∧
      List.Forall₂ (Twin quotes) xs xs' := by
  have hkeyword : ∀ c ∈ p.keyword, c ∉ quotes := fun c hc =>
    hq.notMem_of_letter (isKeywordLetter_of_mem hd.keyword hc)
  have hend := hq.notMem_of_mem_end
  have halike := h.alike
  rw [hd.eq, List.append_assoc blanks] at halike
  obtain ⟨clause, r₁, rfl, hclause, hr₁⟩ := halike.exists_twin hd.clause_balanced
  obtain ⟨r₂, rfl, hr₂⟩ := hr₁.exists_cons hq.open_notMem
  obtain ⟨columns, r₃, rfl, hcolumns, hr₃⟩ := hr₂.exists_twin hd.columns_balanced
  obtain ⟨r₄, rfl, hr₄⟩ := hr₃.exists_cons hq.close_notMem
  obtain ⟨r₅, rfl, hr₅⟩ := hr₄.exists_notMem (hq.notMem_of_mem_blank hd.blank)
  obtain ⟨r₆, rfl, hr₆⟩ := hr₅.exists_notMem hkeyword
  obtain ⟨values, rfl, hvalues⟩ := hr₆.exists_notMem (hq.notMem_of_mem_blank hd.lead_blank)
  obtain ⟨xs', hlist, hxs⟩ := ValueList.exists_alike hq hd.list hvalues
  have htrimmed : p.values.Trimmed :=
    (trim_prepend hd.lead_blank p.values).symm.trans hd.values.symm
  have hbalanced : Balanced quotes p.values := by
    have ht := h.balanced
    have heq : t = (p.clause ++ '(' :: (p.columns ++ ')' :: (blanks ++ p.keyword))) ++
        (lead ++ p.values) := by
      rw [hd.eq]; simp
    rw [heq, balanced_append_iff (hd.balanced_front hq)] at ht
    exact (balanced_append_iff (balanced_blank hq hd.lead_blank)).1 ht
  have hbounded := (Twin.mk hvalues hbalanced).bounded hq (trimmed_iff.1 htrimmed)
  refine ⟨⟨clause, columns, p.keyword, values⟩, xs', ?_, hclause, hcolumns, rfl, hxs⟩
  exact {
    eq := by simp
    clause_balanced := hclause.symm.balanced
    clause_avoids := hclause.alike.avoids (by simpa using hq.open_notMem) hd.clause_avoids
    columns_balanced := hcolumns.symm.balanced
    columns_avoid := hcolumns.alike.avoidsKeyword hq hd.columns_avoid
    blank := hd.blank
    keyword := hd.keyword
    rest_word := hr₆.continuesWord_eq ▸ hd.rest_word
    values := by
      rw [trim_prepend hd.lead_blank]
      exact (trimmed_iff.2 hbounded).symm
    starts := hvalues.startsWithRow_eq ▸ hd.starts
    lead_blank := hd.lead_blank
    clause_avoids_end := hclause.alike.avoids hend hd.clause_avoids_end
    columns_avoid_end := hcolumns.alike.avoids hend hd.columns_avoid_end
    list := hlist
    rows_avoid_end := by
      refine forall_mem_of_forall₂ hxs (fun x x' hx => ?_) hd.rows_avoid_end
      exact hx.alike.avoids hend }

/-- The column names correspond. -/
theorem Twin.forall₂_columnNames {t t' : Text} (h : Twin quotes t t') :
    List.Forall₂ (Twin quotes) (columnNames quotes t) (columnNames quotes t') := by
  rw [columnNames_eq, columnNames_eq]
  have hempty : ∀ c c' : Text, Twin quotes c c' → c.isEmpty = c'.isEmpty := fun c c' hc => by
    cases hc.alike <;> rfl
  have hcells : List.Forall₂ (Twin quotes) (columnCells quotes t) (columnCells quotes t') :=
    List.rel_map (fun _ _ h => h.trim hq) (h.forall₂_split hq)
  exact List.rel_filter (fun c c' hc => by simp [hempty c c' hc]) hcells

end

theorem Twin.filter {w : Char} (hw : w ∉ quotes) {t t' : Text} (h : Twin quotes t t')
    (ht : ∀ x ∈ contents quotes t, w ∉ x) (ht' : ∀ x ∈ contents quotes t', w ∉ x) :
    Twin quotes (t.filter (· != w)) (t'.filter (· != w)) := by
  obtain ⟨halike, hbal⟩ := h
  induction halike with
  | nil => exact .of_notMem (by simp)
  | cons hc _ ih =>
    rw [contents_cons hc] at ht ht'
    have hrest := ih ht ht' ((balanced_cons_iff hc).1 hbal)
    rw [List.filter_cons, List.filter_cons]
    split
    · exact hrest.cons hc
    · exact hrest
  | region hq hx hx' hwidth _ ih =>
    rw [contents_region hq hx] at ht
    rw [contents_region hq hx'] at ht'
    obtain ⟨hwx, ht⟩ := List.forall_mem_cons.1 ht
    obtain ⟨hwx', ht'⟩ := List.forall_mem_cons.1 ht'
    have hrest := ih ht ht' ((balanced_region_iff hq hx).1 hbal)
    rw [filter_region hw hq hwx, filter_region hw hq hwx']
    exact ⟨.region hq hx hx' hwidth hrest.alike, (balanced_region_iff hq hx).2 hrest.balanced⟩
  | opened hq hx => exact absurd hbal (not_balanced_opened hq hx)

/-- Columns correspond when they are wrapped, too. -/
theorem Twin.wrapColumn {c c' : Text} (h : Twin options.quotes c c')
    (hc : WrapsOutside options c) (hc' : WrapsOutside options c') :
    Twin options.quotes (wrapColumn options.columnWrap c)
      (Statement.wrapColumn options.columnWrap c') := by
  cases hcol : options.columnWrap with
  | none => exact h
  | some w =>
    obtain ⟨hw, hfree⟩ := hc w hcol
    exact ((h.filter hw hfree (hc' w hcol).2).append (.singleton hw)).cons hw

theorem forall₂_wrapColumn {cs cs' : List Text} (h : List.Forall₂ (Twin options.quotes) cs cs')
    (hwrap : ∀ c ∈ cs, WrapsOutside options c) (hwrap' : ∀ c ∈ cs', WrapsOutside options c) :
    List.Forall₂ (Twin options.quotes) (cs.map (wrapColumn options.columnWrap))
      (cs'.map (wrapColumn options.columnWrap)) := by
  induction h with
  | nil => exact .nil
  | cons hc _ ih =>
    obtain ⟨hw, hwrap⟩ := List.forall_mem_cons.1 hwrap
    obtain ⟨hw', hwrap'⟩ := List.forall_mem_cons.1 hwrap'
    exact .cons (hc.wrapColumn hw hw') (ih hwrap hwrap')

/-! ## Rendering -/

/-- The parts of two statements correspond. -/
structure Corresponds (quotes : QuoteSet) (s s' : Statement) : Prop where
  clause : Twin quotes s.clause s'.clause
  columns : List.Forall₂ (Twin quotes) s.columns s'.columns
  keyword_eq : s'.keyword = s.keyword
  keyword : ∀ c ∈ s.keyword, c ∉ quotes
  rows : List.Forall₂ (List.Forall₂ (Twin quotes)) s.rows s'.rows
  quotes_eq : s.quotes = quotes
  quotes_eq' : s'.quotes = quotes

theorem Twin.padRight {t t' : Text} (hq : quotes.Plain) (h : Twin quotes t t') (n : Nat) :
    Twin quotes (t.padRight n) (t'.padRight n) := by
  unfold Text.padRight
  rw [h.alike.width_eq]
  exact h.append (.of_notMem (hq.notMem_of_mem_blank (Blank.spaces _)))

theorem Twin.padLeft {t t' : Text} (hq : quotes.Plain) (h : Twin quotes t t') (n : Nat) :
    Twin quotes (t.padLeft n) (t'.padLeft n) := by
  unfold Text.padLeft
  rw [h.alike.width_eq]
  exact Twin.append (.of_notMem (hq.notMem_of_mem_blank (Blank.spaces _))) h

theorem Twin.intercalate {sep : Text} (hsep : ∀ c ∈ sep, c ∉ quotes) {ts ts' : List Text}
    (h : List.Forall₂ (Twin quotes) ts ts') :
    Twin quotes (List.intercalate sep ts) (List.intercalate sep ts') := by
  induction h with
  | nil => exact .of_notMem (by simp)
  | @cons t t' ts ts' ht hts ih =>
    cases hts with
    | nil => simpa using ht
    | cons hu hts =>
      rw [List.intercalate_cons_cons, List.intercalate_cons_cons]
      exact (ht.append (.of_notMem hsep)).append ih

theorem widen_eq {row row' : List Text} (h : List.Forall₂ (Twin quotes) row row')
    (widths : List Nat) : widen widths row = widen widths row' := by
  induction h generalizing widths with
  | nil => rfl
  | cons hf _ ih =>
    cases widths with
    | nil => rfl
    | cons n widths => rw [widen, widen, hf.alike.width_eq, ih]

section
variable (hq : quotes.Plain)
include hq

theorem Twin.renderCells {cells cells' : List Text}
    (h : List.Forall₂ (Twin quotes) cells cells') :
    Twin quotes (renderCells cells) (Statement.renderCells cells') := by
  have hsep : ∀ c ∈ [',', ' '], c ∉ quotes := by
    simpa using ⟨hq.comma_notMem, hq.notMem_of_blank (by decide)⟩
  have hcells := Twin.intercalate hsep h
  exact (hcells.append (.singleton hq.close_notMem)).cons hq.open_notMem

theorem forall₂_alignRow_twin {row row' : List Text} (h : List.Forall₂ (Twin quotes) row row')
    (widths : List Nat) :
    List.Forall₂ (Twin quotes) (alignRow quotes widths row) (alignRow quotes widths row') := by
  induction h generalizing widths with
  | nil => cases widths <;> exact .nil
  | cons hf hrow ih =>
    cases widths with
    | nil => exact .cons hf hrow
    | cons n widths =>
      refine .cons ?_ (ih widths)
      unfold alignField
      rw [hf.alike.occursIn_eq]
      split
      · exact hf.padRight hq n
      · exact hf.padLeft hq n

theorem forall₂_zipWith_padRight {columns columns' : List Text}
    (h : List.Forall₂ (Twin quotes) columns columns') (widths : List Nat) :
    List.Forall₂ (Twin quotes) (List.zipWith Text.padRight columns widths)
      (List.zipWith Text.padRight columns' widths) := by
  induction h generalizing widths with
  | nil => exact .nil
  | cons hc _ ih =>
    cases widths with
    | nil => exact .nil
    | cons n widths => exact .cons (hc.padRight hq n) (ih widths)

namespace Corresponds

variable {s s' : Statement} (h : Corresponds quotes s s')
include h

omit hq in
theorem columnWidths_eq : s.columnWidths = s'.columnWidths := by
  have hcolumns : s.columns.map width = s'.columns.map width := by
    have := List.rel_map (P := Eq) (fun _ _ hc => hc.alike.width_eq) h.columns
    exact List.forall₂_eq_eq_eq ▸ this
  unfold columnWidths
  rw [hcolumns]
  exact List.rel_foldl (P := Eq) (fun _ _ hw _ _ hrow => hw ▸ widen_eq hrow _) rfl h.rows

theorem renderHeader : Twin quotes s.renderHeader s'.renderHeader := by
  unfold Statement.renderHeader
  rw [h.columnWidths_eq]
  exact Twin.renderCells hq (forall₂_zipWith_padRight hq h.columns _)

theorem renderRows : Twin quotes s.renderRows s'.renderRows := by
  have hsep : ∀ c ∈ [',', '\n'], c ∉ quotes := by
    simpa using ⟨hq.comma_notMem, hq.notMem_of_blank (by decide)⟩
  unfold Statement.renderRows
  rw [h.columnWidths_eq, h.quotes_eq, h.quotes_eq']
  refine Twin.intercalate hsep (List.rel_map (fun row row' hrow => ?_) h.rows)
  exact Twin.renderCells hq (forall₂_alignRow_twin hq hrow _)

/-- Statements that correspond are rendered alike. -/
theorem render : Twin quotes s.render s'.render := by
  have hbreak : '\n' ∉ quotes := hq.notMem_of_blank (by decide)
  have hfront := h.clause.append ((h.renderHeader hq).cons hbreak)
  have hkeyword := hfront.append ((Twin.of_notMem h.keyword).cons hbreak)
  have hempty : s.rows.isEmpty = s'.rows.isEmpty := by
    rw [Bool.eq_iff_iff, List.isEmpty_iff_length_eq_zero, List.isEmpty_iff_length_eq_zero,
      h.rows.length_eq]
  unfold Statement.render
  rw [h.keyword_eq, hempty]
  refine hkeyword.append ?_
  split
  · exact .of_notMem (by simp)
  · exact ((h.renderRows hq).cons hbreak).append (.singleton hq.semicolon_notMem)

end Corresponds

end

/-! ## Formatting -/

section
variable (hq : options.quotes.Plain)
include hq

/-- What two statements that are alike are parsed into corresponds. -/
theorem Statement.Dissection.corresponds {t t' : Text} {p p' : Parts} {blanks lead : Text}
    {xs xs' : List Text} (hd : Dissection options.quotes t p blanks lead xs)
    (hd' : Dissection options.quotes t' p' blanks lead xs')
    (hclause : Twin options.quotes p.clause p'.clause)
    (hcolumns : Twin options.quotes p.columns p'.columns) (hkeyword : p'.keyword = p.keyword)
    (hxs : List.Forall₂ (Twin options.quotes) xs xs')
    (hwrap : ∀ c ∈ columnNames options.quotes p.columns, WrapsOutside options c)
    (hwrap' : ∀ c ∈ columnNames options.quotes p'.columns, WrapsOutside options c) :
    Corresponds options.quotes (ofParts options p) (ofParts options p') where
  clause := hclause.trim hq
  columns := by
    unfold ofParts
    rw [parseColumns_eq, parseColumns_eq]
    exact forall₂_wrapColumn (hcolumns.forall₂_columnNames hq) hwrap hwrap'
  keyword_eq := hkeyword
  keyword c hc := hq.notMem_of_letter (isKeywordLetter_of_mem hd.keyword hc)
  rows := by
    unfold ofParts
    rw [hd.rows_eq hq, hd'.rows_eq hq]
    exact List.rel_map (fun _ _ hx => hx.forall₂_rowFields hq) hxs
  quotes_eq := rfl
  quotes_eq' := rfl

/-- A statement that is alike is formatted alike. -/
theorem twin_formatStatement {gap w u u' rest gap' rest' : Text}
    (h : Located options.quotes gap w u rest) (h' : Located options.quotes gap' w u' rest')
    (ht : Twin options.quotes (w ++ u ++ [')', ';']) (w ++ u' ++ [')', ';']))
    (hwrap : ∀ p, cutParts options.quotes (w ++ u ++ [')', ';']) = .ok p →
      ∀ c ∈ columnNames options.quotes p.columns, WrapsOutside options c)
    (hwrap' : ∀ p, cutParts options.quotes (w ++ u' ++ [')', ';']) = .ok p →
      ∀ c ∈ columnNames options.quotes p.columns, WrapsOutside options c) :
    Twin options.quotes (formatStatement options (w ++ u ++ [')', ';']))
      (formatStatement options (w ++ u' ++ [')', ';'])) := by
  cases hparts : cutParts options.quotes (w ++ u ++ [')', ';']) with
  | error e =>
    cases hparts' : cutParts options.quotes (w ++ u' ++ [')', ';']) with
    | error e' =>
      rw [formatStatement_of_error hparts, formatStatement_of_error hparts']
      exact ht
    | ok p' =>
      obtain ⟨blanks, lead, xs', hd'⟩ := exists_dissection hq h'.balanced h'.avoids hparts'
      obtain ⟨p, xs, hd, -⟩ := hd'.exists_alike hq ht.symm
      rw [(cutParts_eq_ok_iff hq).2 ⟨_, _, hd.toMadeOf⟩] at hparts
      cases hparts
  | ok p =>
    obtain ⟨blanks, lead, xs, hd⟩ := exists_dissection hq h.balanced h.avoids hparts
    obtain ⟨p', xs', hd', hclause, hcolumns, hkeyword, hxs⟩ := hd.exists_alike hq ht
    have hparts' := (cutParts_eq_ok_iff hq).2 ⟨_, _, hd'.toMadeOf⟩
    have hcorresponds := hd.corresponds hq hd' hclause hcolumns hkeyword hxs (hwrap p hparts)
      (hwrap' p' hparts')
    rw [formatStatement_of_ok hparts, formatStatement_of_ok hparts']
    exact hcorresponds.render hq

/-- A text that is alike is formatted alike. -/
theorem alike_format {t t' : Text} (h : Alike options.quotes t t')
    (hwrap : ∀ p ∈ partsOf options.quotes t, ∀ c ∈ columnNames options.quotes p.columns,
      WrapsOutside options c)
    (hwrap' : ∀ p ∈ partsOf options.quotes t', ∀ c ∈ columnNames options.quotes p.columns,
      WrapsOutside options c) :
    Alike options.quotes (format options t) (format options t') := by
  induction t using ofText_induction options.quotes generalizing t' with
  | last t hnone =>
    rw [format_of_none hnone, format_of_none (h.nextPiece?_eq_none hq hnone)]
    exact h
  | more gap w u rest hlocated ih =>
    obtain ⟨gap', u', rest', rfl, hlocated', hgap, hstatement, hrest⟩ :=
      h.exists_located hq hlocated
    have hparts := @mem_partsOf_of_located _ _ _ _ _ hlocated
    have hparts' := @mem_partsOf_of_located _ _ _ _ _ hlocated'
    have hformat := twin_formatStatement hq hlocated hlocated' hstatement
      (fun p hp => hwrap p (hparts.2 (.inl hp))) fun p hp => hwrap' p (hparts'.2 (.inl hp))
    rw [format_of_located hlocated, format_of_located hlocated']
    refine (hgap.append hformat).alike.append (hgap.append hformat).balanced (ih hrest ?_ ?_)
    · exact fun p hp => hwrap p (hparts.2 (.inr hp))
    · exact fun p hp => hwrap' p (hparts'.2 (.inr hp))

/-- What stands in quotes never influences the structure: two texts of the same shape are formatted
into texts of the same shape, and each keeps its own contents. -/
theorem sameShape_format {t t' : Text} (hwrap : WrapsOutside options t)
    (hwrap' : WrapsOutside options t') (h : SameShape options.quotes t t') :
    SameShape options.quotes (format options t) (format options t') ∧
      contents options.quotes (format options t) = contents options.quotes t ∧
      contents options.quotes (format options t') = contents options.quotes t' := by
  have halike := alike_format hq (sameShape_iff_alike.1 h)
    (fun _ hp _ hc => hwrap.column hq hp hc) fun _ hp _ hc => hwrap'.column hq hp hc
  exact ⟨sameShape_iff_alike.2 halike, contents_format hq hwrap, contents_format hq hwrap'⟩

end

/-- A literal that looks like the end of a statement and the start of another one. -/
theorem sameShape_format_lookalike :
    SameShape .standard "INSERT INTO t (a) VALUES ('x);INSERT'), (\")\");".toList
        "INSERT INTO t (a) VALUES ('012345678'), (\"y\");".toList ∧
      SameShape .standard (format {} "INSERT INTO t (a) VALUES ('x);INSERT'), (\")\");".toList)
        (format {} "INSERT INTO t (a) VALUES ('012345678'), (\"y\");".toList) ∧
      contents .standard (format {} "INSERT INTO t (a) VALUES ('x);INSERT'), (\")\");".toList) =
        contents .standard "INSERT INTO t (a) VALUES ('x);INSERT'), (\")\");".toList ∧
      contents .standard (format {} "INSERT INTO t (a) VALUES ('012345678'), (\"y\");".toList) =
        contents .standard "INSERT INTO t (a) VALUES ('012345678'), (\"y\");".toList :=
  ⟨by decide +kernel, @sameShape_format {} (by decide) _ _ (by rintro w ⟨rfl⟩; decide +kernel)
    (by rintro w ⟨rfl⟩; decide +kernel) (by decide +kernel)⟩

end InsertLayout
