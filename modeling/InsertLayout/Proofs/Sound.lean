import InsertLayout.Proofs.Cells

/-!
# What a located statement is parsed into

A statement that can be parsed, and that holds no unquoted `);` before its last two characters, is
dissected into its parts and the texts of its rows (`exists_dissection`), and the parts are `Sound`
(`Dissection.sound`): trimmed, with every quote closed, and without the unquoted punctuation that
would end them earlier. The end of the statement stands in none of them (`Dissection.whole`).
-/

set_option autoImplicit false

namespace InsertLayout

open Text

variable {quotes : QuoteSet}

/-- The name of a column, or what stands in its place: a cell that does not end the list. -/
structure Column (quotes : QuoteSet) (c : Text) : Prop extends Cell quotes c where
  ne_nil : c ≠ []
  avoids_keyword : Statement.AvoidsKeyword quotes c

instance (c : Text) : Decidable (Column quotes c) :=
  decidable_of_iff (Cell quotes c ∧ c ≠ [] ∧ Statement.AvoidsKeyword quotes c)
    ⟨fun ⟨hc, hn, ha⟩ => ⟨hc, hn, ha⟩, fun ⟨hc, hn, ha⟩ => ⟨hc, hn, ha⟩⟩

namespace Statement

/-- No part of a statement can be taken for another one. -/
structure Sound (quotes : QuoteSet) (s : Statement) : Prop where
  clause_trimmed : s.clause.Trimmed
  clause_balanced : Balanced quotes s.clause
  clause_avoids : Avoids quotes ['('] s.clause
  columns : ∀ c ∈ s.columns, Column quotes c
  keyword : isValuesKeyword s.keyword = true
  rows : ∀ row ∈ s.rows, row ≠ []
  cells : ∀ row ∈ s.rows, ∀ f ∈ row, Cell quotes f
  avoids_end : ∀ row ∈ s.rows, ∀ f ∈ row, Avoids quotes [')', ';'] f
  closed : ∀ row ∈ s.rows, ∀ f ∈ row.dropLast, ∀ g, f ≠ g ++ [')']

/-- Every quote is closed in the part in which it is opened, and no row is without fields. -/
structure QuotesClosed (quotes : QuoteSet) (s : Statement) : Prop where
  clause : Balanced quotes s.clause
  columns : ∀ c ∈ s.columns, Balanced quotes c
  keyword : Balanced quotes s.keyword
  rows : ∀ row ∈ s.rows, row ≠ []
  fields : ∀ row ∈ s.rows, ∀ f ∈ row, Balanced quotes f

/-- The rendering of a statement ends at its first `);`, and starts with the word `w`. -/
structure Whole (quotes : QuoteSet) (w : Text) (s : Statement) : Prop where
  clause : ∃ v, s.clause = w ++ v
  clause_avoids_end : Avoids quotes [')', ';'] s.clause
  columns_avoid_end : ∀ c ∈ s.columns, Avoids quotes [')', ';'] c
  keyword : isValuesKeyword s.keyword = true
  rows_ne_nil : s.rows ≠ []
  fields_avoid_end : ∀ row ∈ s.rows, ∀ f ∈ row, Avoids quotes [')', ';'] f

/-! ## Dissection -/

/-- How a located statement is made up of its parts and the texts of its rows. -/
structure Dissection (quotes : QuoteSet) (t : Text) (p : Parts) (blanks lead : Text)
    (xs : List Text) : Prop extends MadeOf quotes t p blanks (lead ++ p.values) where
  lead_blank : Blank lead
  clause_avoids_end : Avoids quotes [')', ';'] p.clause
  columns_avoid_end : Avoids quotes [')', ';'] p.columns
  list : ValueList quotes p.values xs
  rows_avoid_end : ∀ x ∈ xs, Avoids quotes [')', ';'] x

/-- The keyword opens no quoted region. -/
theorem balanced_keyword (hq : quotes.Plain) {k : Text} (hk : isValuesKeyword k = true) :
    Balanced quotes k :=
  balanced_of_notMem fun _ hc => hq.notMem_of_letter (isKeywordLetter_of_mem hk hc)

theorem Sound.quotesClosed (hq : quotes.Plain) {s : Statement} (h : Sound quotes s) :
    QuotesClosed quotes s where
  clause := h.clause_balanced
  columns c hc := (h.columns c hc).balanced
  keyword := balanced_keyword hq h.keyword
  rows := h.rows
  fields row hrow f hf := (h.cells row hrow f hf).balanced

/-- What stands before the values of a statement opens no quoted region. -/
theorem MadeOf.balanced_front (hq : quotes.Plain) {t : Text} {p : Parts} {blanks rest : Text}
    (h : MadeOf quotes t p blanks rest) :
    Balanced quotes (p.clause ++ '(' :: (p.columns ++ ')' :: (blanks ++ p.keyword))) := by
  refine h.clause_balanced.append ((balanced_cons_iff hq.open_notMem).2 ?_)
  refine h.columns_balanced.append ((balanced_cons_iff hq.close_notMem).2 ?_)
  exact (balanced_blank hq h.blank).append (balanced_keyword hq h.keyword)

theorem exists_dissection (hq : quotes.Plain) {body : Text} {p : Parts}
    (hbal : Balanced quotes body) (havoid : Avoids quotes [')', ';'] body)
    (h : cutParts quotes (body ++ [')', ';']) = .ok p) :
    ∃ blanks lead xs, Dissection quotes (body ++ [')', ';']) p blanks lead xs := by
  obtain ⟨blanks, rest, hm⟩ := (cutParts_eq_ok_iff hq).1 h
  have hfront := hm.balanced_front hq
  -- The keyword ends with a letter, so that the end of the statement comes behind it.
  have hsplit : (p.clause ++ '(' :: (p.columns ++ ')' :: (blanks ++ p.keyword))) ++ rest =
      body ++ [')', ';'] := by rw [hm.eq]; simp
  obtain ⟨y, rfl, rfl⟩ := exists_of_append_eq_end hsplit <| by
    intro q c he hc
    obtain ⟨k, d, hk⟩ : ∃ k d, p.keyword = k ++ [d] := by
      rcases List.eq_nil_or_concat p.keyword with hnil | ⟨k, d, hk⟩
      · have := length_of_isValuesKeyword hm.keyword
        simp [hnil] at this
      · exact ⟨k, d, by rw [hk, List.concat_eq_append]⟩
    have heq : (p.clause ++ '(' :: (p.columns ++ ')' :: (blanks ++ k))) ++ [d] = q ++ [c] := by
      rw [← he, hk]; simp
    obtain rfl : d = c := by simpa using (List.append_inj' heq rfl).2
    have hletter := isKeywordLetter_of_mem hm.keyword (c := d) (by rw [hk]; simp)
    obtain rfl | rfl : d = ')' ∨ d = ';' := by simpa using hc
    · exact absurd hletter (by decide)
    · exact absurd hletter (by decide)
  have hy : Balanced quotes y := (balanced_append_iff hfront).1 hbal
  obtain ⟨lead, hlead, hly⟩ := exists_trimLeft y
  have hvalues : p.values = y.trimLeft ++ [')', ';'] := by
    rw [hm.values, trim, trimLeft_append_cons (by decide),
      show y.trimLeft ++ [')', ';'] = (y.trimLeft ++ [')']) ++ [';'] by simp,
      trimRight_concat (by decide)]
  rw [hly] at hy havoid
  have hyl : Balanced quotes y.trimLeft := (balanced_append_iff (balanced_blank hq hlead)).1 hy
  have hya : Avoids quotes [')', ';'] y.trimLeft :=
    (havoid.right hfront).right (balanced_blank hq hlead)
  obtain ⟨xs, hxs⟩ := exists_valueList hq hyl
  have hrest : y ++ [')', ';'] = lead ++ p.values := by
    rw [hvalues, ← List.append_assoc, ← hly]
  refine ⟨blanks, lead, xs, ⟨hrest ▸ hm, hlead, ?_, ?_, hvalues ▸ hxs, ?_⟩⟩
  · exact havoid.left.left
  · have hcolumns : Avoids quotes [')', ';'] ('(' :: (p.columns ++ ')' :: (blanks ++ p.keyword))) :=
      havoid.left.right hm.clause_balanced
    have hopen : Balanced quotes ['('] := balanced_singleton hq.open_notMem
    exact (hcolumns.right (s := ['(']) hopen).left
  · exact hxs.avoids_end hq rfl hya

section
variable {t : Text} {p : Parts} {blanks lead : Text} {xs : List Text}

theorem Dissection.rows_eq (hq : quotes.Plain) (h : Dissection quotes t p blanks lead xs) :
    parseRows quotes p.values = xs.map (rowFields quotes) :=
  h.list.parseRows_eq hq h.rows_avoid_end

end

/-! ## The cells of a row -/

/-- The text of a row without the parenthesis that opens it. -/
theorem exists_rowText (x : Text) :
    ∃ o, (Blank o ∨ ∃ b, Blank b ∧ o = b ++ ['(']) ∧ x = o ++ stripOpen x.trimLeft := by
  obtain ⟨b, hb, hx⟩ := exists_trimLeft x
  obtain ⟨o, ho | ho, hxo⟩ := exists_stripOpen x.trimLeft
  · refine ⟨b, .inl hb, ?_⟩
    rw [ho, List.nil_append] at hxo
    rwa [← hxo]
  · refine ⟨b ++ ['('], .inr ⟨b, hb, rfl⟩, ?_⟩
    rw [List.append_assoc, ← ho, ← hxo, ← hx]

theorem balanced_rowOpen (hq : quotes.Plain) {o : Text}
    (ho : Blank o ∨ ∃ b, Blank b ∧ o = b ++ ['(']) : Balanced quotes o := by
  rcases ho with ho | ⟨b, hb, rfl⟩
  · exact balanced_blank hq ho
  · exact (balanced_blank hq hb).append
      (balanced_singleton hq.open_notMem)

theorem rowFields_ne_nil (x : Text) : rowFields quotes x ≠ [] := by
  simp [rowFields, parseFields, Needle.split_ne_nil]

theorem joined_rowFields (x : Text) : Joined (rowFields quotes x) (stripOpen x.trimLeft) :=
  joined_split quotes _

section
variable (hq : quotes.Plain) {x : Text}
include hq

theorem cell_of_mem_rowFields (hx : Balanced quotes x) {f : Text} (hf : f ∈ rowFields quotes x) :
    Cell quotes f := by
  obtain ⟨o, ho, heq⟩ := exists_rowText x
  rw [heq] at hx
  exact cell_of_mem_split hq ((balanced_append_iff (balanced_rowOpen hq ho)).1 hx) hf

theorem avoids_end_of_mem_rowFields (havoid : Avoids quotes [')', ';'] x) {f : Text}
    (hf : f ∈ rowFields quotes x) : Avoids quotes [')', ';'] f := by
  obtain ⟨o, ho, heq⟩ := exists_rowText x
  rw [heq] at havoid
  have hz := havoid.right (balanced_rowOpen hq ho)
  obtain ⟨p, hp, rfl⟩ := List.mem_map.1 hf
  obtain ⟨-, a, b, hab, ha, -⟩ := Needle.exists_of_mem_split hq.comma_notMem hp
  rw [hab] at hz
  exact (hz.left.right ha).trim hq

/-- A field that ends with a parenthesis is the last one: before a comma, the parenthesis would
have ended the row. -/
theorem closed_of_mem_rowFields (havoid : AvoidsRowEnd quotes x) {f : Text}
    (hf : f ∈ (rowFields quotes x).dropLast) (g : Text) : f ≠ g ++ [')'] := by
  rintro rfl
  obtain ⟨o, ho, heq⟩ := exists_rowText x
  rw [heq] at havoid
  have hz := havoid.right (balanced_rowOpen hq ho)
  rw [rowFields, parseFields, ← List.map_dropLast] at hf
  obtain ⟨p, hp, hpg⟩ := List.mem_map.1 hf
  obtain ⟨u, v, huv, hu, hpb⟩ := Needle.exists_of_mem_dropLast_split hq.comma_notMem hp
  obtain ⟨a, b, ha, hb, hpa⟩ := exists_trim p
  rw [hpg] at hpa
  have hga : Balanced quotes (a ++ g) := by
    have hclose : Balanced quotes ((a ++ g) ++ [')']) := by
      rw [hpa] at hpb
      simpa using hpb.of_append_notMem (hq.notMem_of_mem_blank hb)
    exact hclose.of_append_notMem (by simpa using hq.close_notMem)
  refine hz (u ++ (a ++ g)) (b ++ ',' :: v) ?_ (hu.append hga) ?_
  · rw [huv, hpa]; simp
  · rw [trimLeft_append hb, trimLeft_cons (by decide)]; rfl

end

/-! ## Soundness -/

section
variable {t : Text} {p : Parts} {blanks lead : Text} {xs : List Text}

/-- The column names as they stand. -/
def columnNames (quotes : QuoteSet) (t : Text) : List Text :=
  parseColumns { quotes, columnWrap := none } t

theorem parseColumns_eq (options : Options) (t : Text) :
    parseColumns options t =
      (columnNames options.quotes t).map (wrapColumn options.columnWrap) := by
  have hid : wrapColumn none = id := rfl
  simp only [columnNames, parseColumns, hid, List.map_id]

/-- Wrapping only changes the columns. -/
theorem ofParts_eq (options : Options) (p : Parts) :
    ofParts options p = { ofParts { options with columnWrap := none } p with
      columns := (ofParts { options with columnWrap := none } p).columns.map
        (wrapColumn options.columnWrap) } := by
  unfold ofParts
  rw [parseColumns_eq]
  rfl

theorem mem_columnNames {c : Text} :
    c ∈ columnNames quotes t ↔ (∃ p ∈ (Needle.char ',').split quotes t, p.trim = c) ∧ c ≠ [] := by
  have hid : wrapColumn none = id := rfl
  simp [columnNames, parseColumns, hid]

theorem column_of_mem_columnNames (hq : quotes.Plain) (hbal : Balanced quotes t)
    (havoid : AvoidsKeyword quotes t) {c : Text} (hc : c ∈ columnNames quotes t) :
    Column quotes c := by
  obtain ⟨⟨p, hp, rfl⟩, hne⟩ := mem_columnNames.1 hc
  obtain ⟨-, u, v, rfl, hu, hv⟩ := Needle.exists_of_mem_split hq.comma_notMem hp
  refine ⟨cell_of_mem_split hq hbal (List.mem_map_of_mem hp), hne, ?_⟩
  rw [List.append_assoc] at havoid
  have hword : continuesWord v = false := by
    rcases hv with rfl | ⟨-, hv⟩
    · rfl
    · obtain ⟨v, rfl⟩ := List.head?_eq_some_iff.1 hv
      exact (noWord_append_cons Blank.nil (by simp) v).continues
  have hpk := (havoid.right hu).left hword
  obtain ⟨a, b, ha, hb, hpa⟩ := exists_trim p
  rw [hpa] at hpk
  exact (hpk.left (blank_noWord hb).continues).right (balanced_blank hq ha)

theorem avoids_end_of_mem_columnNames (hq : quotes.Plain) (havoid : Avoids quotes [')', ';'] t)
    {c : Text} (hc : c ∈ columnNames quotes t) : Avoids quotes [')', ';'] c := by
  obtain ⟨⟨p, hp, rfl⟩, -⟩ := mem_columnNames.1 hc
  obtain ⟨-, u, v, rfl, hu, -⟩ := Needle.exists_of_mem_split hq.comma_notMem hp
  exact (havoid.left.right hu).trim hq

/-- What a located statement is parsed into, without wrapping its columns, is sound. -/
theorem Dissection.sound (hq : quotes.Plain) (h : Dissection quotes t p blanks lead xs) :
    Sound quotes (ofParts { quotes, columnWrap := none } p) where
  clause_trimmed := trimmed_trim _
  clause_balanced := h.clause_balanced.trim hq
  clause_avoids := h.clause_avoids.trim hq
  columns _ := column_of_mem_columnNames hq h.columns_balanced h.columns_avoid
  keyword := h.keyword
  rows := by
    unfold ofParts
    rw [h.rows_eq hq]
    exact List.forall_mem_map.2 fun x _ => rowFields_ne_nil x
  cells := by
    unfold ofParts
    rw [h.rows_eq hq]
    exact List.forall_mem_map.2 fun x hx f => cell_of_mem_rowFields hq (h.list.balanced x hx)
  avoids_end := by
    unfold ofParts
    rw [h.rows_eq hq]
    exact List.forall_mem_map.2 fun x hx f =>
      avoids_end_of_mem_rowFields hq (h.rows_avoid_end x hx)
  closed := by
    unfold ofParts
    rw [h.rows_eq hq]
    exact List.forall_mem_map.2 fun x hx f =>
      closed_of_mem_rowFields hq (h.list.avoidsRowEnd x hx)

/-- It stands between its first word and its first `);`. -/
theorem Dissection.whole (hq : quotes.Plain) {w u : Text}
    (h : Dissection quotes (w ++ u) p blanks lead xs) (hw : ∀ c ∈ w, isKeywordLetter c = true) :
    Whole quotes w (ofParts { quotes, columnWrap := none } p) where
  clause := by
    -- The word holds no parenthesis, so it ends within the clause.
    have hclause : ∃ v, p.clause = w ++ v := by
      rcases List.append_eq_append_iff.1 h.eq with ⟨v, hv, -⟩ | ⟨v, hv, he⟩
      · exact ⟨v, hv⟩
      · rcases List.cons_eq_append_iff.1 he with ⟨rfl, -⟩ | ⟨v, rfl, -⟩
        · exact ⟨[], by simpa using hv.symm⟩
        · exact absurd (hw '(' (by rw [hv]; simp)) (by decide)
    obtain ⟨v, hv⟩ := hclause
    rw [ofParts, hv]
    exact exists_trim_append (fun c hc => isBlank_of_letter (hw c hc)) v
  clause_avoids_end := h.clause_avoids_end.trim hq
  columns_avoid_end _ := avoids_end_of_mem_columnNames hq h.columns_avoid_end
  keyword := h.keyword
  rows_ne_nil := by
    unfold ofParts
    rw [h.rows_eq hq]
    simpa using h.list.rows_ne_nil
  fields_avoid_end := (h.sound hq).avoids_end

end

end Statement

end InsertLayout
