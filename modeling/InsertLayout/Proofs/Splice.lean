import InsertLayout.Proofs.Compose

/-!
# Spans and the text between them

`FoundFrom quotes t start spans`: from a byte offset on, the spans are found one after another, and
behind the last one none is. There is one such list for each text, that of the document
(`foundFrom_iff`). The spans stand in order (`FoundFrom.pairwise`) and each of them is the text
between its two offsets (`Span.next?_spec`). `splice?` replaces the spans and copies what stands
between them: with the rendering of each statement that can be parsed, and every other statement as
it stands, it is formatting (`format_splice`). Whether formatting changes a text can be told from
the statements one by one, since two changes never cancel out (`reformat?_exact`).
-/

set_option autoImplicit false

namespace InsertLayout

open Text Statement Document

variable {quotes : QuoteSet} {options : Options}

/-! ## One span -/

/-- A span is located behind the place from which it is looked for. -/
theorem Span.next?_eq_some_iff {start : Nat} {t : Text} {span : Span} :
    Span.next? quotes start t = some span ↔ ∃ front gap w u rest,
      t = front ++ gap ++ span.raw ++ rest ∧ Located quotes gap w u rest ∧
        span.raw = w ++ u ++ [')', ';'] ∧ front.byteLength = start ∧
          span.start = (front ++ gap).byteLength ∧
            span.stop = (front ++ gap ++ span.raw).byteLength := by
  obtain ⟨first, stop, raw⟩ := span
  unfold Span.next?
  simp only [bind, Option.bind_eq_some_iff]
  constructor
  · rintro ⟨t', hdrop, ⟨piece, rest⟩, hpiece, hspan⟩
    obtain ⟨front, rfl, rfl⟩ := eq_append_of_dropBytes? hdrop
    obtain ⟨w, u, hlocated, hstatement, rfl⟩ := nextPiece?_eq_some_iff.1 hpiece
    obtain ⟨rfl, rfl, rfl⟩ := by simpa [spansFrom] using hspan
    refine ⟨front, piece.gap, w, u, rest, by simp, hlocated, hstatement, rfl, ?_, ?_⟩
    · rw [byteLength_append]
    · rw [byteLength_append, byteLength_append]
  · rintro ⟨front, gap, w, u, rest, rfl, hlocated, hraw, rfl, hfirst, hstop⟩
    refine ⟨gap ++ raw ++ rest, ?_, (⟨gap, raw⟩, rest), ?_, ?_⟩
    · have hdrop := dropBytes?_byteLength front (gap ++ raw ++ rest)
      rwa [← List.append_assoc, ← List.append_assoc] at hdrop
    · exact nextPiece?_eq_some_iff.2 ⟨w, u, hlocated, hraw, rfl⟩
    · rw [hfirst, hstop, byteLength_append (front ++ gap), byteLength_append]
      rfl

/-- A span lies behind the place from which it is looked for, has room for its keyword and its end,
and is the text between its offsets. -/
theorem Span.next?_spec {start : Nat} {t : Text} {span : Span}
    (h : Span.next? quotes start t = some span) :
    start ≤ span.start ∧ span.start + 8 ≤ span.stop ∧
      t.slice? span.start span.stop = some span.raw := by
  obtain ⟨front, gap, w, u, rest, rfl, hlocated, hraw, rfl, hfirst, hstop⟩ :=
    Span.next?_eq_some_iff.1 h
  have hsize : 8 ≤ span.raw.byteLength := by
    have hlength := length_le_byteLength span.raw
    have hword := hlocated.word.length
    rw [hraw, List.length_append, List.length_append, hword] at hlength
    rw [hraw]
    simp only [List.length_cons, List.length_nil] at hlength
    omega
  have hslice := slice?_byteLength (front ++ gap) span.raw rest
  rw [← hfirst, ← hstop] at hslice
  rw [byteLength_append _ span.raw, ← hfirst] at hstop
  rw [byteLength_append] at hfirst
  exact ⟨by omega, by omega, hslice⟩

/-- What is searched for behind a leading part of a text is searched for in what follows it. -/
theorem insertKeyword_find?_append (front t : Text) :
    insertKeyword.find? quotes front.byteLength (front ++ t) =
      (seekInsert? quotes t).map fun p => front.byteLength + p.1.byteLength := by
  unfold Needle.find?
  rw [dropBytes?_byteLength]
  cases hseek : seekInsert? quotes t with
  | none =>
    have hcut : insertKeyword.cut? quotes t = none :=
      seek?_eq_none_iff.2 (misses_insert_iff.1 (seek?_eq_none_iff.1 hseek))
    simp [hcut]
  | some p =>
    obtain ⟨gap, rest⟩ := p
    obtain ⟨rfl, hgap, hmiss, w, u, hw, rfl⟩ := seekInsert?_eq_some_iff.1 hseek
    have hcut : insertKeyword.cut? quotes (gap ++ (w ++ u)) = some (gap, u) := by
      refine seek?_eq_some_iff.2 ⟨w ++ u, rfl, ?_, hmiss, hgap, ?_⟩
      · intro hnil
        have hlength := hw.length
        rw [(List.append_eq_nil_iff.1 hnil).1] at hlength
        cases hlength
      · exact insertKeyword_after?_iff.2 ⟨w, hw, rfl⟩
    simp [hcut]

/-- Where no span is found, a keyword that is found belongs to a statement that does not end. -/
theorem Span.find?_end_of_next?_eq_none {start first : Nat} {t : Text}
    (h : Span.next? quotes start t = none)
    (hfirst : insertKeyword.find? quotes start t = some first) :
    statementEnd.find? quotes first t = none := by
  cases hdrop : t.dropBytes? start with
  | none => simp [Needle.find?, hdrop] at hfirst
  | some t' =>
    obtain ⟨front, rfl, rfl⟩ := eq_append_of_dropBytes? hdrop
    rw [insertKeyword_find?_append, Option.map_eq_some_iff] at hfirst
    obtain ⟨⟨gap, rest⟩, hseek, rfl⟩ := hfirst
    have hnext : nextPiece? quotes t' = none := by
      cases hpiece : nextPiece? quotes t' with
      | none => rfl
      | some p => simp [Span.next?, hdrop, hpiece, spansFrom] at h
    have hcut : statementEnd.cut? quotes rest = none := by
      cases hcut : statementEnd.cut? quotes rest with
      | none => rfl
      | some p => simp [nextPiece?, hseek, hcut] at hnext
    obtain ⟨rfl, -⟩ := seekInsert?_eq_some_iff.1 hseek
    unfold Needle.find?
    rw [← byteLength_append, ← List.append_assoc, dropBytes?_byteLength]
    simp [hcut]

/-! ## All spans -/

/-- The spans that are found one after another from a byte offset on: the search for each one starts
where the one before ends, and behind the last one it finds nothing. -/
inductive FoundFrom (quotes : QuoteSet) (t : Text) : Nat → List Span → Prop where
  | last {start : Nat} : Span.next? quotes start t = none → FoundFrom quotes t start []
  | more {start : Nat} {span : Span} {spans : List Span} :
      Span.next? quotes start t = some span → FoundFrom quotes t span.stop spans →
        FoundFrom quotes t start (span :: spans)

namespace FoundFrom

variable {t : Text} {start : Nat} {spans : List Span}

theorem unique (h : FoundFrom quotes t start spans) {others : List Span}
    (h' : FoundFrom quotes t start others) : spans = others := by
  induction h generalizing others with
  | last hnone =>
    cases h' with
    | last _ => rfl
    | more hsome _ => rw [hnone] at hsome; cases hsome
  | more hsome _ ih =>
    cases h' with
    | last hnone => rw [hnone] at hsome; cases hsome
    | more hsome' htail =>
      rw [hsome] at hsome'
      obtain rfl := Option.some.inj hsome'
      rw [ih htail]

/-- Each span lies behind the offset, has room for its keyword and its end, and is the text between
its own offsets. -/
theorem spec (h : FoundFrom quotes t start spans) : ∀ span ∈ spans,
    start ≤ span.start ∧ span.start + 8 ≤ span.stop ∧
      t.slice? span.start span.stop = some span.raw := by
  induction h with
  | last _ => intro span hspan; cases hspan
  | more hsome _ ih =>
    obtain ⟨hstart, hsize, hslice⟩ := Span.next?_spec hsome
    intro span hspan
    rcases List.mem_cons.1 hspan with rfl | hspan
    · exact ⟨hstart, hsize, hslice⟩
    · obtain ⟨hbehind, hrest⟩ := ih span hspan
      exact ⟨by omega, hrest⟩

/-- The spans stand one behind the other. -/
theorem pairwise (h : FoundFrom quotes t start spans) :
    spans.Pairwise fun a b => a.stop ≤ b.start := by
  induction h with
  | last _ => exact List.Pairwise.nil
  | more _ htail ih => exact List.pairwise_cons.2 ⟨fun span hspan => (htail.spec span hspan).1, ih⟩

/-- Behind the last span, none is found. -/
theorem next?_eq_none (h : FoundFrom quotes t start spans) :
    Span.next? quotes ((spans.getLast?.map Span.stop).getD start) t = none := by
  induction h with
  | last hnone => exact hnone
  | more _ _ ih =>
    rw [List.getLast?_cons, Option.map_some, Option.getD_some, ← Option.getD_map Span.stop]
    exact ih

end FoundFrom

theorem foundFrom_spansFrom (front t : Text) : FoundFrom quotes (front ++ t) front.byteLength
    (spansFrom front.byteLength (ofText quotes t).pieces) := by
  induction t using ofText_induction quotes generalizing front with
  | last t h =>
    rw [ofText_of_none h]
    apply FoundFrom.last
    unfold Span.next?
    rw [dropBytes?_byteLength]
    simp [h]
  | more gap w u rest h ih =>
    rw [ofText_of_located h]
    unfold spansFrom
    apply FoundFrom.more
    · exact Span.next?_eq_some_iff.2
        ⟨front, gap, w, u, rest, by simp, h, rfl, rfl, by simp, by simp [Nat.add_assoc]⟩
    · have hrest := ih (front ++ (gap ++ (w ++ u ++ [')', ';'])))
      rwa [List.append_assoc, byteLength_append front, byteLength_append gap,
        ← Nat.add_assoc] at hrest

/-- The spans that are found from the front of a text on are those of its statements. -/
theorem foundFrom_iff {t : Text} {spans : List Span} :
    FoundFrom quotes t 0 spans ↔ spans = (ofText quotes t).spans := by
  have hfound : FoundFrom quotes t 0 (ofText quotes t).spans := foundFrom_spansFrom [] t
  constructor
  · intro h
    exact h.unique hfound
  · rintro rfl
    exact hfound

/-! ## Replacing spans -/

/-- The text from a byte offset to the end of the last of several spans, with the spans replaced. -/
def splice? (replace : Text → Text) (t : Text) : Nat → List Span → Option Text
  | _, [] => some []
  | start, span :: spans => do
    let gap ← t.slice? start span.start
    let rest ← splice? replace t span.stop spans
    return gap ++ replace span.raw ++ rest

theorem splice?_spansFrom (replace : Text → Text) (front t : Text) :
    splice? replace (front ++ t) front.byteLength
        (spansFrom front.byteLength (ofText quotes t).pieces) =
      some ((ofText quotes t).pieces.flatMap fun p => p.gap ++ replace p.statement) := by
  induction t using ofText_induction quotes generalizing front with
  | last t h =>
    rw [ofText_of_none h]
    rfl
  | more gap w u rest h ih =>
    have hslice := slice?_byteLength front gap ((w ++ u ++ [')', ';']) ++ rest)
    have hrest := ih (front ++ (gap ++ (w ++ u ++ [')', ';'])))
    rw [List.append_assoc, byteLength_append front, byteLength_append gap,
      ← Nat.add_assoc] at hrest
    rw [byteLength_append, List.append_assoc, ← List.append_assoc gap] at hslice
    rw [ofText_of_located h]
    unfold spansFrom splice?
    simp only [hslice, hrest]
    rfl

theorem formatStatement_eq (options : Options) (t : Text) :
    formatStatement options t = ((parse options t).toOption.map render).getD t := by
  unfold formatStatement renderStatement
  cases parse options t <;> rfl

/-- Formatting goes through the spans of a text from one to the next, in order, and ends where none
is left. It replaces each statement that can be parsed by its rendering, leaves each other one as it
stands, and copies the text between them and that behind the last one, also if a statement starts
there that does not end. -/
theorem format_splice (options : Options) (t : Text) :
    (∀ spans, FoundFrom options.quotes t 0 spans ↔ spans = (ofText options.quotes t).spans) ∧
    ((ofText options.quotes t).spans.Pairwise fun a b => a.stop ≤ b.start) ∧
    (∀ span ∈ (ofText options.quotes t).spans, span.start + 8 ≤ span.stop ∧
      t.slice? span.start span.stop = some span.raw) ∧
    (∃ front tail,
      splice? (fun raw => ((parse options raw).toOption.map render).getD raw) t 0
          (ofText options.quotes t).spans = some front ∧
        t.dropBytes? (ofText options.quotes t).lastStop = some tail ∧
          format options t = front ++ tail) ∧
    ∀ start, insertKeyword.find? options.quotes (ofText options.quotes t).lastStop t = some start →
      statementEnd.find? options.quotes start t = none := by
  have hfound := (@foundFrom_iff options.quotes t _).2 rfl
  refine ⟨fun spans => foundFrom_iff, hfound.pairwise, ?_, ?_, ?_⟩
  · intro span hspan
    exact (hfound.spec span hspan).2
  · have hfront := @splice?_spansFrom options.quotes (formatStatement options) [] t
    rw [show formatStatement options = _ from funext (formatStatement_eq options)] at hfront
    refine ⟨_, _, hfront, dropBytes?_lastStop options.quotes t, ?_⟩
    rw [format_eq]
    unfold Document.format toText
    rw [show formatStatement options = _ from funext (formatStatement_eq options),
      List.flatMap_map]
  · intro start hstart
    exact Span.find?_end_of_next?_eq_none hfound.next?_eq_none hstart

/-! ## Change detection -/

/-- A document stays as it is when it is formatted exactly if each of its statements does. -/
theorem Document.format_eq_iff {d : Document} : d.format options = d ↔
    ∀ piece ∈ d.pieces, formatStatement options piece.statement = piece.statement := by
  obtain ⟨pieces, tail⟩ := d
  unfold Document.format
  rw [Document.mk.injEq, eq_self, and_true]
  conv_lhs => rw [← List.map_id pieces, List.map_map]
  rw [List.map_inj_left]
  refine forall_congr' fun piece => forall_congr' fun _ => ?_
  obtain ⟨gap, statement⟩ := piece
  simp

/-- Formatting reports a new text exactly if the text made of the formatted statements and the gaps
differs from the old one, and that is the text reported: it differs as soon as one statement
does. -/
theorem reformat?_exact (hq : options.quotes.Plain) (hwrap : WrapsNoEnd options) (t : Text) :
    (∀ o, reformat? options t = some o ↔
      o = ((ofText options.quotes t).format options).toText ∧ o ≠ t) ∧
    (reformat? options t = none ↔ ((ofText options.quotes t).format options).toText = t) ∧
    (((ofText options.quotes t).format options).toText = t ↔
      ∀ piece ∈ (ofText options.quotes t).pieces,
        formatStatement options piece.statement = piece.statement) := by
  have hnone : reformat? options t = none ↔
      ((ofText options.quotes t).format options).toText = t := by
    rw [reformat?_eq_none_iff, ← format_eq_self_iff hq hwrap, format_eq]
  have hsome : ∀ o, reformat? options t = some o →
      ((ofText options.quotes t).format options).toText = o := by
    intro o ho
    rw [← format_eq, InsertLayout.format, ho, Option.getD_some]
  refine ⟨fun o => ?_, hnone, ?_⟩
  · cases h : reformat? options t with
    | none =>
      rw [hnone.1 h]
      simp
    | some o' =>
      rw [hsome o' h]
      have hne : o' ≠ t := fun he => by
        rw [hnone.2 ((hsome o' h).trans he)] at h
        cases h
      constructor
      · intro ho
        obtain rfl := Option.some.inj ho
        exact ⟨rfl, hne⟩
      · rintro ⟨rfl, -⟩
        rfl
  · rw [← hnone, reformat?_eq_none_iff, format_eq_iff]

/-- A statement gets longer and another one shorter by as much, and the text is a new one. -/
theorem reformat?_exact_same_length :
    QuoteSet.Plain .standard ∧ WrapsNoEnd {} ∧
      reformat? {} "INSERT t (a) VALUES (1);INSERT t (`b`)   VALUES  (  2 );".toList =
        some "INSERT t\n(`a`)\nVALUES\n(  1);INSERT t\n(`b`)\nVALUES\n(  2);".toList ∧
      "INSERT t\n(`a`)\nVALUES\n(  1);INSERT t\n(`b`)\nVALUES\n(  2);".toList.length =
        "INSERT t (a) VALUES (1);INSERT t (`b`)   VALUES  (  2 );".toList.length ∧
      "INSERT t\n(`a`)\nVALUES\n(  1);INSERT t\n(`b`)\nVALUES\n(  2);".toList ≠
        "INSERT t (a) VALUES (1);INSERT t (`b`)   VALUES  (  2 );".toList := by
  have hplain : QuoteSet.Plain .standard := by decide
  have hwrap : WrapsNoEnd {} := by
    rintro w ⟨rfl⟩
    decide
  have hnew :
      reformat? {} "INSERT t (a) VALUES (1);INSERT t (`b`)   VALUES  (  2 );".toList =
        some "INSERT t\n(`a`)\nVALUES\n(  1);INSERT t\n(`b`)\nVALUES\n(  2);".toList := by
    decide +kernel
  exact ⟨hplain, hwrap, hnew, by decide +kernel, (((reformat?_exact hplain hwrap _).1 _).1 hnew).2⟩

end InsertLayout
