import InsertLayout.Proofs.Conservation

/-!
# Formatting piece by piece

A text that no statement goes on from, `Closed`, is formatted on its own, whatever follows it
(`format_append`). Texts up to the end of a statement are closed (`closed_of_end`), also where that
statement is one that is located in the text (`exists_closed_of_mem_spans`): up to there, the text
is `Complete`, and what follows it is cut on its own (`Complete.ofText_append`). `Finished` says the
same of a text in terms of what is searched for behind the end of its last statement; formatting
goes through such texts piece by piece (`format_concat`).
-/

set_option autoImplicit false

namespace InsertLayout

open Text Statement Document

variable {quotes : QuoteSet} {options : Options}

theorem nextPiece?_append {gap rest : Text} (hgap : Balanced quotes gap)
    (hmiss : Misses quotes insertKeyword.after? .unquoted gap rest) :
    nextPiece? quotes (gap ++ rest) =
      (nextPiece? quotes rest).map fun p => (⟨gap ++ p.1.gap, p.1.statement⟩, p.2) := by
  have hseek : seekInsert? quotes (gap ++ rest) =
      (seekInsert? quotes rest).map fun p => (gap ++ p.1, p.2) := by
    rw [seekInsert?, seek?_append (misses_insert_iff.2 hmiss),
      show QuoteState.unquoted.scan quotes gap = .unquoted from hgap]
    rfl
  rw [nextPiece?, nextPiece?, hseek]
  cases seekInsert? quotes rest with
  | none => rfl
  | some p =>
    obtain ⟨gap', rest'⟩ := p
    cases h : statementEnd.cut? quotes rest' <;> simp [h]

/-- Text in which no statement starts is copied. -/
theorem format_append_of_misses {gap rest : Text} (hgap : Balanced options.quotes gap)
    (hmiss : Misses options.quotes insertKeyword.after? .unquoted gap rest) :
    format options (gap ++ rest) = gap ++ format options rest := by
  have hnext := nextPiece?_append hgap hmiss
  cases h : nextPiece? options.quotes rest with
  | none =>
    rw [h] at hnext
    rw [format_of_none h, format_of_none hnext]
  | some p =>
    obtain ⟨⟨gap', statement⟩, rest'⟩ := p
    rw [h] at hnext
    obtain ⟨w, u, hl, rfl, rfl⟩ := nextPiece?_eq_some_iff.1 h
    obtain ⟨w', u', hl', heq, heq'⟩ := nextPiece?_eq_some_iff.1 hnext
    dsimp only at hl hl' heq heq' ⊢
    rw [heq', heq, format_of_located hl', ← heq, format_of_located hl]
    simp

/-- No statement goes on behind a text: its tail closes its quotes and starts no statement, and no
keyword goes on behind its last character. -/
structure Closed (quotes : QuoteSet) (t : Text) : Prop where
  balanced : Balanced quotes (ofText quotes t).tail
  misses : Misses quotes insertKeyword.after? .unquoted (ofText quotes t).tail []
  last : ∀ c, t.getLast? = some c → c.isAlpha = false

/-- A keyword that ends in no letter of a text does not start in it because of what follows. -/
theorem misses_insert_append {t rest : Text}
    (h : Misses quotes insertKeyword.after? .unquoted t [])
    (hlast : ∀ c, t.getLast? = some c → c.isAlpha = false) :
    Misses quotes insertKeyword.after? .unquoted t rest := by
  intro a b he hb ha
  rw [Option.eq_none_iff_forall_ne_some]
  intro r hsome
  obtain ⟨w, hw, hwr⟩ := insertKeyword_after?_iff.1 hsome
  rcases List.append_eq_append_iff.1 hwr with ⟨v, rfl, -⟩ | ⟨v, rfl, -⟩
  · rcases List.eq_nil_or_concat b with rfl | ⟨b, c, rfl⟩
    · exact hb rfl
    · have halpha := hw.letter (show c ∈ b.concat c ++ v by simp)
      rw [hlast c (by rw [he, List.concat_eq_append, ← List.append_assoc, List.getLast?_concat])]
        at halpha
      cases halpha
  · have hnone := h a (w ++ v) he hb ha
    rw [insertKeyword_after?_iff.2 ⟨w, hw, by simp; rfl⟩] at hnone
    cases hnone

/-- A closed text is formatted on its own. -/
theorem format_append {s : Text} (hs : Closed options.quotes s) (t : Text) :
    format options (s ++ t) = format options s ++ format options t := by
  obtain ⟨hbal, hmiss, hlast⟩ := hs
  induction s using ofText_induction options.quotes with
  | last s h =>
    rw [ofText_of_none h] at hbal hmiss
    rw [format_of_none h, format_append_of_misses hbal (misses_insert_append hmiss hlast)]
  | more gap w u rest h ih =>
    rw [ofText_of_located h] at hbal hmiss
    have hrest : ∀ c, rest.getLast? = some c → c.isAlpha = false := fun c hc =>
      hlast c (by rw [List.getLast?_append, hc]; rfl)
    have hlocated : Located options.quotes gap w u (rest ++ t) := h.replace h.balanced h.avoids
    rw [List.append_assoc, format_of_located hlocated, format_of_located h, ih hbal hmiss hrest]
    simp only [List.append_assoc]

theorem not_end_of_word (gap : Text) {w : Text} (hw : InsertWord w) :
    ∀ q c, gap ++ w = q ++ [c] → c ∉ [')', ';'] := by
  intro q c h hc
  rcases List.eq_nil_or_concat w with rfl | ⟨v, d, rfl⟩
  · cases hw.length
  · rw [List.concat_eq_append, ← List.append_assoc] at h
    obtain rfl : d = c := by simpa using (List.append_inj' h rfl).2
    have hletter : d.isAlpha = true := hw.letter (by simp)
    obtain rfl | rfl : d = ')' ∨ d = ';' := by simpa using hc
    · exact absurd hletter (by decide)
    · exact absurd hletter (by decide)

/-- If no statement stands before the end of a statement, none starts there either. -/
theorem misses_insert_of_end {y : Text} (hy : Balanced quotes y)
    (h : nextPiece? quotes (y ++ [')', ';']) = none) :
    Misses quotes insertKeyword.after? .unquoted (y ++ [')', ';']) [] := by
  cases hseek : seekInsert? quotes (y ++ [')', ';']) with
  | none => exact misses_insert_iff.1 (seek?_eq_none_iff.1 hseek)
  | some p =>
    -- A statement that starts before the end would end there at the latest.
    obtain ⟨gap, r⟩ := p
    obtain ⟨heq, hgap, -, w, u, hw, rfl⟩ := seekInsert?_eq_some_iff.1 hseek
    obtain ⟨v, rfl, rfl⟩ := exists_of_append_eq_end
      (show (gap ++ w) ++ u = y ++ [')', ';'] by rw [heq, List.append_assoc])
      (not_end_of_word gap hw)
    rw [nextPiece?, hseek] at h
    have hcut : statementEnd.cut? quotes (w ++ (v ++ [')', ';'])) = none := by
      cases hcut : statementEnd.cut? quotes (w ++ (v ++ [')', ';'])) with
      | none => rfl
      | some p => simp [hcut] at h
    have hnone := seek?_eq_none_iff.1 hcut (w ++ v) [')', ';'] (by simp) (by simp) <| by
      rw [List.append_assoc] at hy
      exact (balanced_append_iff hgap).1 hy
    cases hnone

/-- Nothing, or a text up to the end of a statement. -/
def EndsClosed (quotes : QuoteSet) (t : Text) : Prop :=
  t = [] ∨ ∃ y, Balanced quotes y ∧ t = y ++ [')', ';']

/-- What stands behind a statement ends like the whole text. -/
theorem Located.endsClosed (hq : quotes.Plain) {gap w u rest : Text}
    (h : Located quotes gap w u rest)
    (ht : EndsClosed quotes (gap ++ (w ++ u ++ [')', ';']) ++ rest)) : EndsClosed quotes rest := by
  rcases ht with hnil | ⟨y, hy, heq⟩
  · simp at hnil
  · have hfront := h.gap_balanced.append (h.statement_balanced hq)
    rcases List.append_eq_append_iff.1 heq with ⟨v, rfl, rfl⟩ | ⟨v, hv, hend⟩
    · exact .inr ⟨v, (balanced_append_iff hfront).1 hy, rfl⟩
    · rcases v with _ | ⟨c, _ | ⟨d, v⟩⟩
      · exact .inr ⟨[], balanced_nil, by simpa using hend.symm⟩
      · obtain ⟨rfl, -⟩ := by simpa using hend
        simpa using congrArg List.getLast? hv
      · obtain ⟨-, -, hnil⟩ := by simpa using hend
        exact .inl hnil.2

/-- No statement is open in what such a text leaves. -/
theorem EndsClosed.tail (hq : quotes.Plain) {t : Text} (ht : EndsClosed quotes t) :
    Balanced quotes (ofText quotes t).tail ∧
      Misses quotes insertKeyword.after? .unquoted (ofText quotes t).tail [] := by
  induction t using ofText_induction quotes with
  | last t h =>
    rw [ofText_of_none h]
    rcases ht with rfl | ⟨y, hy, rfl⟩
    · exact ⟨balanced_nil, misses_nil _ _⟩
    · exact ⟨hy.append (balanced_end hq), misses_insert_of_end hy h⟩
  | more gap w u rest h ih =>
    rw [ofText_of_located h]
    exact ih (h.endsClosed hq ht)

/-- A text up to the end of a statement is closed. -/
theorem closed_of_end (hq : quotes.Plain) {z : Text} (hz : Balanced quotes z) :
    Closed quotes (z ++ [')', ';']) := by
  have hends : EndsClosed quotes (z ++ [')', ';']) := .inr ⟨z, hz, rfl⟩
  obtain ⟨hbal, hmiss⟩ := hends.tail hq
  refine ⟨hbal, hmiss, fun c hc => ?_⟩
  obtain rfl : ';' = c := by simpa using hc
  decide

/-! ## Cutting at the end of a statement -/

theorem closed_nil : Closed quotes [] := by
  have htail : (ofText quotes []).tail = [] := by
    rw [ofText_of_none rfl]
  refine ⟨?_, ?_, fun _ h => by cases h⟩
  · rw [htail]
    exact balanced_nil
  · rw [htail]
    exact misses_nil _ _

/-- A statement before a closed text leaves it closed. -/
theorem Located.closed_append {gap w u rest : Text} (h : Located quotes gap w u rest) {s : Text}
    (hs : Closed quotes s) : Closed quotes (gap ++ (w ++ u ++ [')', ';']) ++ s) := by
  have hlocated : Located quotes gap w u s := h.replace h.balanced h.avoids
  have htail : (ofText quotes (gap ++ (w ++ u ++ [')', ';']) ++ s)).tail =
      (ofText quotes s).tail := by
    rw [ofText_of_located hlocated]
  refine ⟨htail ▸ hs.balanced, htail ▸ hs.misses, fun c hc => ?_⟩
  cases hlast : s.getLast? with
  | none =>
    obtain rfl := List.getLast?_eq_none_iff.1 hlast
    obtain rfl : ';' = c := by simpa using hc
    decide
  | some d =>
    rw [List.getLast?_append, hlast] at hc
    obtain rfl : d = c := by simpa using hc
    exact hs.last d hlast

/-- A text ends where its last statement ends. -/
def Complete (quotes : QuoteSet) (t : Text) : Prop := (ofText quotes t).tail = []

instance (t : Text) : Decidable (Complete quotes t) := inferInstanceAs (Decidable (_ = _))

theorem complete_nil : Complete quotes [] := by
  unfold Complete
  rw [ofText_of_none rfl]

theorem Located.complete_append_iff {gap w u rest : Text} (h : Located quotes gap w u rest)
    {s : Text} : Complete quotes (gap ++ (w ++ u ++ [')', ';']) ++ s) ↔ Complete quotes s := by
  have hlocated : Located quotes gap w u s := h.replace h.balanced h.avoids
  unfold Complete
  rw [ofText_of_located hlocated]

theorem Complete.closed {t : Text} (ht : Complete quotes t) : Closed quotes t := by
  induction t using ofText_induction quotes with
  | last t h =>
    unfold Complete at ht
    rw [ofText_of_none h] at ht
    obtain rfl : t = [] := ht
    exact closed_nil
  | more gap w u rest h ih => exact h.closed_append (ih (h.complete_append_iff.1 ht))

/-- What follows a complete text is cut into statements on its own. -/
theorem Complete.ofText_append {s : Text} (hs : Complete quotes s) (t : Text) :
    ofText quotes (s ++ t) =
      ⟨(ofText quotes s).pieces ++ (ofText quotes t).pieces, (ofText quotes t).tail⟩ := by
  induction s using ofText_induction quotes with
  | last s h =>
    unfold Complete at hs
    rw [ofText_of_none h] at hs ⊢
    obtain rfl : s = [] := hs
    rfl
  | more gap w u rest h ih =>
    have hlocated : Located quotes gap w u (rest ++ t) := h.replace h.balanced h.avoids
    rw [List.append_assoc _ rest, ofText_of_located hlocated, ofText_of_located h,
      ih (h.complete_append_iff.1 hs)]
    rfl

/-- Each statement of a text is the end of a complete part of it. -/
theorem exists_complete_of_mem_spans {t : Text} {offset : Nat} {span : Span}
    (h : span ∈ spansFrom offset (ofText quotes t).pieces) :
    ∃ s r, t = s ++ r ∧ offset + s.byteLength = span.stop ∧ Complete quotes s := by
  induction t using ofText_induction quotes generalizing offset with
  | last t hnone =>
    rw [ofText_of_none hnone] at h
    cases h
  | more gap w u rest hlocated ih =>
    rw [ofText_of_located hlocated, spansFrom] at h
    rcases List.mem_cons.1 h with rfl | h
    · refine ⟨gap ++ (w ++ u ++ [')', ';']), rest, rfl, ?_, ?_⟩
      · rw [byteLength_append, Nat.add_assoc]
      · simpa using hlocated.complete_append_iff.2 complete_nil
    · obtain ⟨s, r, rfl, hstop, hs⟩ := ih h
      refine ⟨gap ++ (w ++ u ++ [')', ';']) ++ s, r, by simp, ?_,
        hlocated.complete_append_iff.2 hs⟩
      rw [byteLength_append, byteLength_append]
      dsimp only at hstop
      omega

/-- Each statement of a text is the end of a closed part of it. -/
theorem exists_closed_of_mem_spans {t : Text} {offset : Nat} {span : Span}
    (h : span ∈ spansFrom offset (ofText quotes t).pieces) :
    ∃ s r, t = s ++ r ∧ offset + s.byteLength = span.stop ∧ Closed quotes s := by
  obtain ⟨s, r, ht, hstop, hs⟩ := exists_complete_of_mem_spans h
  exact ⟨s, r, ht, hstop, hs.closed⟩

/-! ## Where the last statement ends -/

/-- The byte offset at which the last statement ends; without one, the front of the text. -/
def Document.lastStop (d : Document) : Nat := (d.spans.getLast?.map Span.stop).getD 0

/-- The last statement ends behind all pieces. -/
theorem getLast?_spansFrom (offset : Nat) (pieces : List Piece) :
    ((spansFrom offset pieces).getLast?.map Span.stop).getD offset =
      offset + byteLength (pieces.flatMap fun p => p.gap ++ p.statement) := by
  induction pieces generalizing offset with
  | nil => simp [spansFrom]
  | cons p pieces ih =>
    rw [spansFrom, List.getLast?_cons, Option.map_some, Option.getD_some,
      ← Option.getD_map Span.stop, ih, List.flatMap_cons, byteLength_append, byteLength_append]
    omega

/-- The tail of a text stands behind the end of its last statement. -/
theorem dropBytes?_lastStop (quotes : QuoteSet) (t : Text) :
    t.dropBytes? (ofText quotes t).lastStop = some (ofText quotes t).tail := by
  have hstop : (ofText quotes t).lastStop =
      byteLength ((ofText quotes t).pieces.flatMap fun p => p.gap ++ p.statement) := by
    unfold Document.lastStop Document.spans
    rw [getLast?_spansFrom, Nat.zero_add]
  have htext : ((ofText quotes t).pieces.flatMap fun p => p.gap ++ p.statement) ++
      (ofText quotes t).tail = t := toText_ofText quotes t
  have hdrop := dropBytes?_byteLength
    ((ofText quotes t).pieces.flatMap fun p => p.gap ++ p.statement) (ofText quotes t).tail
  rwa [htext, ← hstop] at hdrop

/-- No statement goes on behind a text, in terms of what is searched for: from the end of the last
statement on, no keyword is found and every quote is closed, and the text ends with no letter. -/
structure Finished (quotes : QuoteSet) (t : Text) : Prop where
  keyword : insertKeyword.find? quotes (ofText quotes t).lastStop t = none
  balanced : (t.dropBytes? (ofText quotes t).lastStop).map (QuoteState.unquoted.scan quotes) =
    some .unquoted
  last : ∀ c, t.getLast? = some c → c.isAlpha = false

instance (t : Text) : Decidable (Finished quotes t) :=
  decidable_of_iff (insertKeyword.find? quotes (ofText quotes t).lastStop t = none ∧
    (t.dropBytes? (ofText quotes t).lastStop).map (QuoteState.unquoted.scan quotes) =
      some .unquoted ∧ (t.getLast?.all fun c => !c.isAlpha) = true) <| by
  have hlast : (t.getLast?.all fun c => !c.isAlpha) = true ↔
      ∀ c, t.getLast? = some c → c.isAlpha = false := by
    cases t.getLast? <;> simp
  rw [hlast]
  exact ⟨fun ⟨hk, hb, hl⟩ => ⟨hk, hb, hl⟩, fun ⟨hk, hb, hl⟩ => ⟨hk, hb, hl⟩⟩

theorem Finished.closed {t : Text} (h : Finished quotes t) : Closed quotes t := by
  have hdrop := dropBytes?_lastStop quotes t
  have hkeyword := h.keyword
  have hbalanced := h.balanced
  rw [hdrop] at hbalanced
  refine ⟨Option.some.inj hbalanced, ?_, h.last⟩
  rw [Needle.find?, hdrop] at hkeyword
  cases hcut : insertKeyword.cut? quotes (ofText quotes t).tail with
  | none => exact seek?_eq_none_iff.1 hcut
  | some p => simp [hcut] at hkeyword

/-- Formatting goes piece by piece: what no statement goes on from is formatted on its own, whatever
follows it, and so is a text up to the end of any of its statements. -/
theorem format_concat (options : Options) :
    (∀ s t, Finished options.quotes s →
      format options (s ++ t) = format options s ++ format options t) ∧
    ∀ t, ∀ span ∈ (ofText options.quotes t).spans, ∃ s r,
      t.takeBytes? span.stop = some s ∧ t.dropBytes? span.stop = some r ∧
        format options t = format options s ++ format options r := by
  constructor
  · intro s t hs
    exact format_append hs.closed t
  · intro t span hspan
    obtain ⟨s, r, rfl, hstop, hs⟩ := exists_closed_of_mem_spans hspan
    rw [Nat.zero_add] at hstop
    rw [← hstop]
    exact ⟨s, r, takeBytes?_byteLength s r, dropBytes?_byteLength s r, format_append hs r⟩

/-- A comment with a literal in it stands between two statements. -/
theorem format_concat_comment :
    Finished .standard "insert into t(a) values (1); -- 'a;'\n".toList ∧
      format {} ("insert into t(a) values (1); -- 'a;'\n".toList ++
          "INSERT INTO u (b) VALUES ('é'), ('x');".toList) =
        format {} "insert into t(a) values (1); -- 'a;'\n".toList ++
          format {} "INSERT INTO u (b) VALUES ('é'), ('x');".toList ∧
      ((ofText .standard "insert into t(a) values ('é'); -- 'a;'\n".toList).spans.map Span.stop =
          [31] ∧
        ∃ s r, takeBytes? 31 "insert into t(a) values ('é'); -- 'a;'\n".toList = some s ∧
          dropBytes? 31 "insert into t(a) values ('é'); -- 'a;'\n".toList = some r ∧
          format {} "insert into t(a) values ('é'); -- 'a;'\n".toList =
            format {} s ++ format {} r) := by
  have hfinished : Finished .standard "insert into t(a) values (1); -- 'a;'\n".toList := by
    decide +kernel
  have hspan : (⟨0, 31, "insert into t(a) values ('é');".toList⟩ : Span) ∈
      (ofText .standard "insert into t(a) values ('é'); -- 'a;'\n".toList).spans := by
    decide +kernel
  exact ⟨hfinished, (format_concat {}).1 _ _ hfinished, by decide +kernel,
    (format_concat {}).2 _ _ hspan⟩

end InsertLayout
