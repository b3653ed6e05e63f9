import InsertLayout.Document.Format
import InsertLayout.Proofs.Parts

/-!
# Locating statements

`Located quotes gap w u rest`: the keyword `w`, the text `u` and the end of a statement make up the
first statement of a text that starts with `gap` and goes on with `rest` (`nextPiece?_eq_some_iff`),
and so does every span (`exists_located_of_next?`).
A statement is located in the same place whatever its body is replaced by, as long as the end of a
statement does not come earlier (`Located.replace`). `ofText_induction` goes along the statements of
a text, and `format_of_located` and `format_of_none` are the equations of formatting in these terms.
-/

set_option autoImplicit false

namespace InsertLayout

open Text

/-! ## The keyword of a statement -/

/-- The keyword with which a statement starts, as it may be written. -/
def InsertWord (w : Text) : Prop := w.map Char.toLower = ['i', 'n', 's', 'e', 'r', 't']

theorem InsertWord.length {w : Text} (h : InsertWord w) : w.length = 6 := by
  simpa using congrArg List.length h

theorem InsertWord.letter {w : Text} (h : InsertWord w) {c : Char} (hc : c ∈ w) :
    c.isAlpha = true := by
  have hmem : c.toLower ∈ ['i', 'n', 's', 'e', 'r', 't'] := by
    rw [← show w.map Char.toLower = _ from h]
    exact List.mem_map_of_mem hc
  have hall : ∀ d ∈ ['i', 'n', 's', 'e', 'r', 't'], d.isAlpha = true :=
    List.all_eq_true.1 (by decide)
  exact isAlpha_of_toLower (hall _ hmem)

theorem InsertWord.keywordLetter {w : Text} (h : InsertWord w) {c : Char} (hc : c ∈ w) :
    isKeywordLetter c = true := by simp [isKeywordLetter, h.letter hc]

namespace Needle

theorem afterChars?_ignoreCase_iff {needle : Needle} (hcase : needle.ignoreCase = true)
    {n t rest : Text} : needle.afterChars? n t = some rest ↔
      ∃ w, w.map Char.toLower = n.map Char.toLower ∧ t = w ++ rest := by
  induction n generalizing t with
  | nil =>
    constructor
    · intro h
      exact ⟨[], rfl, by simpa [afterChars?] using h⟩
    · rintro ⟨w, hw, rfl⟩
      obtain rfl : w = [] := by simpa using hw
      rfl
  | cons a n ih =>
    cases t with
    | nil =>
      refine ⟨fun h => (by cases h), ?_⟩
      rintro ⟨w, hw, he⟩
      obtain ⟨rfl, rfl⟩ := List.append_eq_nil_iff.1 he.symm
      cases hw
    | cons b t =>
      rw [afterChars?, same, if_pos hcase]
      constructor
      · intro h
        split at h
        · rename_i hab
          obtain ⟨w, hw, rfl⟩ := ih.1 h
          exact ⟨b :: w, by simp [hw, beq_iff_eq.1 hab], rfl⟩
        · cases h
      · rintro ⟨w, hw, he⟩
        obtain ⟨c, w, rfl⟩ := List.exists_cons_of_ne_nil (l := w) (by rintro rfl; cases hw)
        obtain ⟨rfl, rfl⟩ := by simpa using he
        obtain ⟨hb, hw⟩ := by simpa using hw
        rw [if_pos (by simp [hb])]
        exact ih.2 ⟨w, hw, rfl⟩

end Needle

theorem insertKeyword_after?_iff {t rest : Text} :
    insertKeyword.after? t = some rest ↔ ∃ w, InsertWord w ∧ t = w ++ rest := by
  rw [Needle.after?, if_neg (by decide)]
  exact Needle.afterChars?_ignoreCase_iff rfl

/-- Only the first six characters matter to the keyword. -/
theorem insertKeyword_after?_eq_none {t : Text} (ht : 6 ≤ t.length) {u v : Text}
    (h : insertKeyword.after? (t ++ u) = none) : insertKeyword.after? (t ++ v) = none := by
  rw [Option.eq_none_iff_forall_ne_some]
  intro rest hsome
  obtain ⟨w, hw, he⟩ := insertKeyword_after?_iff.1 hsome
  rcases List.append_eq_append_iff.1 he with ⟨x, rfl, -⟩ | ⟨x, rfl, -⟩
  · have hx : x = [] := by
      have := hw.length
      rw [List.length_append] at this
      exact List.length_eq_zero_iff.1 (by omega)
    subst hx
    rw [insertKeyword_after?_iff.2 ⟨t, by simpa using hw, rfl⟩] at h
    cases h
  · rw [insertKeyword_after?_iff.2 ⟨w, hw, List.append_assoc ..⟩] at h
    cases h

/-! ## One statement -/

variable {quotes : QuoteSet}

theorem misses_statementEnd_iff {t rest : Text} (hrest : rest.head? ≠ some ';') :
    Misses quotes statementEnd.after? .unquoted t rest ↔ Avoids quotes [')', ';'] t := by
  have hafter := @Needle.after?_eq_some_iff statementEnd rfl (by decide)
  constructor
  · intro h a b he ha
    have hnone := h a (')' :: ';' :: b) (by rw [he]; simp) (by simp) ha
    rw [hafter.2 (show ')' :: ';' :: b ++ rest = statementEnd.chars ++ (b ++ rest) from rfl)]
      at hnone
    cases hnone
  · intro h a b he hb ha
    rw [Option.eq_none_iff_forall_ne_some]
    intro r hsome
    have heq : b ++ rest = [')', ';'] ++ r := hafter.1 hsome
    rcases b with _ | ⟨c, _ | ⟨d, b⟩⟩
    · exact hb rfl
    · obtain ⟨-, heq⟩ := by simpa using heq
      exact hrest (by rw [heq]; rfl)
    · obtain ⟨rfl, rfl, -⟩ := by simpa using heq
      exact h a b (by rw [he]; simp) ha

/-- A text is cut at the end of a statement exactly where that end first stands outside quotes. -/
theorem statementEnd_cut?_eq_some_iff {t before rest : Text} :
    statementEnd.cut? quotes t = some (before, rest) ↔
      t = before ++ [')', ';'] ++ rest ∧ Balanced quotes before ∧
        Avoids quotes [')', ';'] before := by
  have hafter := @Needle.after?_eq_some_iff statementEnd rfl (by decide)
  constructor
  · intro h
    obtain ⟨r, rfl, -, hmiss, hbal, hr⟩ := seek?_eq_some_iff.1 h
    obtain rfl : r = [')', ';'] ++ rest := hafter.1 hr
    exact ⟨by simp, hbal, (misses_statementEnd_iff (by simp)).1 hmiss⟩
  · rintro ⟨rfl, hbal, havoid⟩
    exact seek?_eq_some_iff.2 ⟨[')', ';'] ++ rest, by simp, by simp,
      (misses_statementEnd_iff (by simp)).2 havoid, hbal, hafter.2 rfl⟩

theorem statementEnd_cut?_eq_none_iff {t : Text} :
    statementEnd.cut? quotes t = none ↔ Avoids quotes [')', ';'] t :=
  seek?_eq_none_iff.trans (misses_statementEnd_iff (by simp))

instance (t : Text) : Decidable (Avoids quotes [')', ';'] t) :=
  decidable_of_iff _ statementEnd_cut?_eq_none_iff

/-- The first statement behind `gap` is `w ++ u ++ [')', ';']`, with `rest` behind it. -/
structure Located (quotes : QuoteSet) (gap w u rest : Text) : Prop where
  gap_balanced : Balanced quotes gap
  gap_misses : Misses quotes insertKeyword.after? .unquoted gap (w ++ (u ++ [')', ';'] ++ rest))
  word : InsertWord w
  balanced : Balanced quotes (w ++ u)
  avoids : Avoids quotes [')', ';'] (w ++ u)

/-- No statement starts before the keyword, whatever stands behind it. -/
theorem Located.misses_word {gap w u rest : Text} (h : Located quotes gap w u rest) (t : Text) :
    Misses quotes insertKeyword.after? .unquoted gap (w ++ t) := by
  intro a b he hb ha
  have hlen : 6 ≤ (b ++ w).length := by simp [h.word.length]
  have hnone := h.gap_misses a b he hb ha
  rw [← List.append_assoc] at hnone ⊢
  exact insertKeyword_after?_eq_none hlen hnone

/-- The place of a statement does not depend on what stands between its keyword and its end. -/
theorem Located.replace {gap w u rest : Text} (h : Located quotes gap w u rest) {u' rest' : Text}
    (hbal : Balanced quotes (w ++ u')) (havoid : Avoids quotes [')', ';'] (w ++ u')) :
    Located quotes gap w u' rest' :=
  ⟨h.gap_balanced, h.misses_word _, h.word, hbal, havoid⟩

theorem misses_insert_iff {t rest : Text} :
    Misses quotes (fun u => if (insertKeyword.after? u).isSome then some u else none)
      .unquoted t rest ↔ Misses quotes insertKeyword.after? .unquoted t rest := by
  refine forall_congr' fun x => forall_congr' fun y => ?_
  refine forall_congr' fun _ => forall_congr' fun _ => forall_congr' fun _ => ?_
  cases h : insertKeyword.after? (y ++ rest) <;> simp [h]

theorem seekInsert?_eq_some_iff {t gap rest : Text} :
    seekInsert? quotes t = some (gap, rest) ↔ t = gap ++ rest ∧ Balanced quotes gap ∧
      Misses quotes insertKeyword.after? .unquoted gap rest ∧
      ∃ w u, InsertWord w ∧ rest = w ++ u := by
  have haccept : ∀ u v : Text,
      (if (insertKeyword.after? u).isSome then some u else none) = some v ↔
        u = v ∧ ∃ w x, InsertWord w ∧ v = w ++ x := by
    intro u v
    constructor
    · intro h
      split at h
      · rename_i hsome
        obtain ⟨x, hx⟩ := Option.isSome_iff_exists.1 hsome
        obtain ⟨w, hw, hu⟩ := insertKeyword_after?_iff.1 hx
        obtain rfl := Option.some.inj h
        exact ⟨rfl, w, x, hw, hu⟩
      · cases h
    · rintro ⟨rfl, w, x, hw, hu⟩
      rw [insertKeyword_after?_iff.2 ⟨w, hw, hu⟩]
      rfl
  rw [seekInsert?, seek?_eq_some_iff]
  constructor
  · rintro ⟨r, rfl, -, hmiss, hscan, hr⟩
    obtain ⟨rfl, hword⟩ := (haccept r rest).1 hr
    exact ⟨rfl, hscan, misses_insert_iff.1 hmiss, hword⟩
  · rintro ⟨rfl, hgap, hmiss, w, u, hw, hu⟩
    refine ⟨rest, rfl, ?_, misses_insert_iff.2 hmiss, hgap,
      (haccept rest rest).2 ⟨rfl, w, u, hw, hu⟩⟩
    intro hnil
    have := hw.length
    rw [(List.append_eq_nil_iff.1 (hu.symm.trans hnil)).1] at this
    cases this

/-- A statement is the first one of a text exactly if it is located there. -/
theorem nextPiece?_eq_some_iff {t rest : Text} {piece : Piece} :
    nextPiece? quotes t = some (piece, rest) ↔ ∃ w u, Located quotes piece.gap w u rest ∧
      piece.statement = w ++ u ++ [')', ';'] ∧ t = piece.gap ++ piece.statement ++ rest := by
  obtain ⟨gap, statement⟩ := piece
  simp only [nextPiece?, bind, Option.bind_eq_some_iff, pure]
  constructor
  · rintro ⟨⟨gap', t₁⟩, h₁, ⟨body, t₂⟩, h₂, he⟩
    obtain ⟨⟨rfl, rfl⟩, rfl⟩ := by simpa using he
    obtain ⟨rfl, hgap, hmiss, w, x, hw, hx⟩ := seekInsert?_eq_some_iff.1 h₁
    obtain ⟨hr, hbal, havoid⟩ := statementEnd_cut?_eq_some_iff.1 h₂
    dsimp only at hr
    rw [List.append_assoc] at hr
    -- The keyword holds no parenthesis, so it ends before the end of the statement.
    have hbody : ∃ u, body = w ++ u := by
      rcases List.append_eq_append_iff.1 (hx.symm.trans hr) with ⟨u, hu, -⟩ | ⟨v, hv, hend⟩
      · exact ⟨u, hu⟩
      · rcases List.cons_eq_append_iff.1 hend with ⟨rfl, -⟩ | ⟨v, rfl, -⟩
        · exact ⟨[], by simpa using hv.symm⟩
        · exact absurd (hw.letter (show ')' ∈ w by rw [hv]; simp)) (by decide)
    obtain ⟨u, rfl⟩ := hbody
    refine ⟨w, u, ⟨hgap, ?_, hw, hbal, havoid⟩, rfl, ?_⟩
    · rwa [hr, List.append_assoc, ← List.append_assoc u] at hmiss
    · rw [hr]
      simp [statementEnd]
  · rintro ⟨w, u, h, hst, rfl⟩
    subst hst
    have hrest : w ++ (u ++ [')', ';'] ++ rest) = (w ++ u) ++ [')', ';'] ++ rest := by simp
    refine ⟨(gap, w ++ (u ++ [')', ';'] ++ rest)), ?_, (w ++ u, rest), ?_, rfl⟩
    · exact seekInsert?_eq_some_iff.2
        ⟨by simp, h.gap_balanced, h.gap_misses, w, _, h.word, rfl⟩
    · exact statementEnd_cut?_eq_some_iff.2 ⟨hrest, h.balanced, h.avoids⟩

/-- A span is a located statement, behind the byte offset from which it is looked for. -/
theorem exists_located_of_next? {start : Nat} {t : Text} {span : Span}
    (h : Span.next? quotes start t = some span) :
    ∃ gap w u rest, Located quotes gap w u rest ∧ span.raw = w ++ u ++ [')', ';'] ∧
      t.dropBytes? start = some (gap ++ span.raw ++ rest) := by
  simp only [Span.next?, bind, Option.bind_eq_some_iff] at h
  obtain ⟨t', hdrop, ⟨piece, rest⟩, hpiece, hspan⟩ := h
  obtain ⟨w, u, hlocated, hstatement, rfl⟩ := nextPiece?_eq_some_iff.1 hpiece
  have hraw : span.raw = piece.statement := by
    rw [Document.spansFrom, List.head?_cons] at hspan
    obtain rfl := Option.some.inj hspan
    rfl
  exact ⟨piece.gap, w, u, rest, hlocated, hraw.trans hstatement, by rw [hraw]; exact hdrop⟩

/-! ## Formatting one statement -/

section
variable {options : Options} {t : Text}

theorem formatStatement_of_error {e : ParseError}
    (h : Statement.cutParts options.quotes t = .error e) : formatStatement options t = t := by
  simp [formatStatement, renderStatement, Statement.parse, h, Except.map]

theorem formatStatement_of_ok {p : Statement.Parts}
    (h : Statement.cutParts options.quotes t = .ok p) :
    formatStatement options t = (Statement.ofParts options p).render := by
  simp [formatStatement, renderStatement, Statement.parse, h, Except.map]

end

/-! ## All statements -/

namespace Document

theorem ofText_of_located {gap w u rest : Text} (h : Located quotes gap w u rest) :
    ofText quotes (gap ++ (w ++ u ++ [')', ';']) ++ rest) =
      ⟨⟨gap, w ++ u ++ [')', ';']⟩ :: (ofText quotes rest).pieces, (ofText quotes rest).tail⟩ := by
  have hnext : (pieceCutter quotes).next? (gap ++ (w ++ u ++ [')', ';']) ++ rest) =
      some (⟨gap, w ++ u ++ [')', ';']⟩, rest) := nextPiece?_eq_some_iff.2 ⟨w, u, h, rfl, rfl⟩
  rw [ofText, Cutter.run_of_some hnext]
  rfl

theorem ofText_of_none {t : Text} (h : nextPiece? quotes t = none) : ofText quotes t = ⟨[], t⟩ := by
  have hnext : (pieceCutter quotes).next? t = none := h
  rw [ofText, Cutter.run_of_none hnext]

/-- Induction along the statements of a text. -/
theorem ofText_induction (quotes : QuoteSet) {motive : Text → Prop}
    (last : ∀ t, nextPiece? quotes t = none → motive t)
    (more : ∀ gap w u rest, Located quotes gap w u rest → motive rest →
      motive (gap ++ (w ++ u ++ [')', ';']) ++ rest))
    (t : Text) : motive t := by
  induction h : t.length using Nat.strongRecOn generalizing t with
  | ind n ih =>
    subst h
    cases hnext : nextPiece? quotes t with
    | none => exact last t hnext
    | some p =>
      obtain ⟨⟨gap, statement⟩, rest⟩ := p
      obtain ⟨w, u, hlocated, rfl, rfl⟩ := nextPiece?_eq_some_iff.1 hnext
      exact more gap w u rest hlocated (ih _ (length_lt_of_nextPiece? hnext) rest rfl)

end Document

open Document

variable {options : Options}

theorem format_eq (options : Options) (t : Text) :
    format options t = ((ofText options.quotes t).format options).toText := by
  unfold InsertLayout.format reformat? Document.reformat?
  dsimp only
  split
  · rename_i h
    rw [h, toText_ofText]
    rfl
  · rfl

/-- Formatting goes on behind the first statement. -/
theorem format_of_located {gap w u rest : Text} (h : Located options.quotes gap w u rest) :
    format options (gap ++ (w ++ u ++ [')', ';']) ++ rest) =
      gap ++ formatStatement options (w ++ u ++ [')', ';']) ++ format options rest := by
  rw [format_eq, format_eq, ofText_of_located h]
  simp [Document.format, toText]

/-- Without a statement, nothing changes. -/
theorem format_of_none {t : Text} (h : nextPiece? options.quotes t = none) :
    format options t = t := by
  rw [format_eq, ofText_of_none h]
  rfl

/-- The parts of the statements of a text, of those that can be parsed. -/
def partsOf (quotes : QuoteSet) (t : Text) : List Statement.Parts :=
  (ofText quotes t).pieces.filterMap fun piece =>
    (Statement.cutParts quotes piece.statement).toOption

theorem mem_partsOf_of_located {gap w u rest : Text} (h : Located quotes gap w u rest)
    {p : Statement.Parts} : p ∈ partsOf quotes (gap ++ (w ++ u ++ [')', ';']) ++ rest) ↔
      Statement.cutParts quotes (w ++ u ++ [')', ';']) = .ok p ∨ p ∈ partsOf quotes rest := by
  rw [partsOf, ofText_of_located h, List.filterMap_cons]
  cases Statement.cutParts quotes (w ++ u ++ [')', ';']) with
  | error e => simp [Except.toOption, partsOf]
  | ok p' => simp [Except.toOption, partsOf, eq_comm]

theorem partsOf_of_none {t : Text} (h : nextPiece? quotes t = none) : partsOf quotes t = [] := by
  rw [partsOf, ofText_of_none h]
  rfl

theorem reformat?_eq_none_iff {t : Text} : reformat? options t = none ↔
    (ofText options.quotes t).format options = ofText options.quotes t := by
  rw [reformat?, Document.reformat?]
  split <;> simp_all

end InsertLayout
