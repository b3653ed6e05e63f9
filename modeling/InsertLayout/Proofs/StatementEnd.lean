import InsertLayout.Proofs.Conservation

/-!
# Where a statement ends

A located statement ends with its first unquoted `);`, and not with its first unquoted `;`. Where
the two differ, other statements are taken for a part of it. `EndsOnce` says that a text ends with a
character that stands nowhere else in it outside quotes; a statement does with its semicolon exactly
if its first unquoted semicolon stands behind a parenthesis (`endsOnce_iff_first`) and, if it can be
parsed, exactly if no part of it holds one (`endsOnce_iff_parts`).
-/

set_option autoImplicit false

namespace InsertLayout

open Text Statement Document

variable {quotes : QuoteSet} {options : Options}

/-! ## Unquoted occurrences of a character -/

/-- Outside quotes, one character is kept, and nothing else. -/
def keepUnquoted (c : Char) (state : QuoteState) (d : Char) : Text :=
  if state = .unquoted ∧ d = c then [d] else []

/-- The occurrences of a character outside quotes. -/
def outside (quotes : QuoteSet) (c : Char) (t : Text) : Text :=
  scanned quotes (keepUnquoted c) .unquoted t

theorem outside_append {s : Text} (hs : Balanced quotes s) (c : Char) (t : Text) :
    outside quotes c (s ++ t) = outside quotes c s ++ outside quotes c t :=
  hs.scanned_append (keepUnquoted c) t

theorem outside_singleton (quotes : QuoteSet) (c d : Char) :
    outside quotes c [d] = if d = c then [d] else [] := by
  by_cases h : d = c <;> simp [outside, scanned, keepUnquoted, h]

theorem scanned_keepUnquoted_eq_nil_iff {c : Char} {t : Text} {state : QuoteState} :
    scanned quotes (keepUnquoted c) state t = [] ↔
      ∀ a b, t = a ++ [c] ++ b → state.scan quotes a ≠ .unquoted := by
  induction t generalizing state with
  | nil => simp [scanned]
  | cons d t ih =>
    rw [scanned, List.append_eq_nil_iff, ih]
    constructor
    · rintro ⟨hd, h⟩ a b he
      cases a with
      | nil =>
        obtain ⟨rfl, -⟩ := by simpa using he
        simpa [keepUnquoted] using hd
      | cons e a =>
        obtain ⟨rfl, rfl⟩ := by simpa using he
        exact h a b (by simp)
    · intro h
      refine ⟨?_, fun a b he => h (d :: a) b (by simp [he])⟩
      unfold keepUnquoted
      by_cases hd : state = .unquoted ∧ d = c
      · obtain ⟨hstate, rfl⟩ := hd
        exact absurd hstate (h [] t rfl)
      · rw [if_neg hd]

theorem outside_eq_nil_iff {c : Char} {t : Text} :
    outside quotes c t = [] ↔ Avoids quotes [c] t := scanned_keepUnquoted_eq_nil_iff

theorem faithful_outside (hq : options.quotes.Plain) {c : Char} (hc : isBlank c = false)
    (hopen : '(' ≠ c) (hcomma : ',' ≠ c) : Reading.Faithful options (outside options.quotes c) where
  reading := reading_scanned hq fun d hd => if_neg fun h => by
    obtain ⟨-, rfl⟩ := h
    rw [hc] at hd
    cases hd
  opening := by rw [outside_singleton, if_neg hopen]
  comma := by rw [outside_singleton, if_neg hcomma]

/-! ## Texts that end with the only occurrence of a character -/

/-- A text ends with a character that stands nowhere else in it outside quotes. -/
def EndsOnce (quotes : QuoteSet) (c : Char) (t : Text) : Prop :=
  ∃ u, t = u ++ [c] ∧ Balanced quotes u ∧ Avoids quotes [c] u

instance (c : Char) (t : Text) : Decidable (EndsOnce quotes c t) :=
  decidable_of_iff
    (t = t.dropLast ++ [c] ∧ Balanced quotes t.dropLast ∧ Avoids quotes [c] t.dropLast) <| by
    refine ⟨fun h => ⟨_, h⟩, ?_⟩
    rintro ⟨u, rfl, h⟩
    simpa using h

theorem endsOnce_append_iff {c : Char} {u : Text} (hu : Balanced quotes u) :
    EndsOnce quotes c (u ++ [c]) ↔ outside quotes c (u ++ [c]) = [c] := by
  rw [outside_append hu, outside_singleton, if_pos rfl]
  constructor
  · rintro ⟨v, hv, -, havoid⟩
    obtain rfl := List.append_cancel_right hv
    rw [outside_eq_nil_iff.2 havoid, List.nil_append]
  · intro h
    have hnil : outside quotes c u = [] := by simpa using h
    exact ⟨u, rfl, hu, outside_eq_nil_iff.1 hnil⟩

/-! ## Semicolons in a statement -/

/-- The unquoted semicolons of a rendering are those of its parts, and the one at its end. -/
theorem outside_render (hq : quotes.Plain) {s : Statement} (hs : QuotesClosed quotes s)
    (hkeyword : isValuesKeyword s.keyword = true) (hrows : s.rows ≠ []) :
    outside quotes ';' s.render =
      outside quotes ';' s.clause ++ (s.columns.map (outside quotes ';')).flatten ++
        (s.rows.map fun row => (row.map (outside quotes ';')).flatten).flatten ++ [';'] := by
  have hr : Reading.Faithful { quotes } (outside quotes ';') :=
    faithful_outside hq (by decide) (by decide) (by decide)
  have hrow : readRow (outside quotes ';') ['('] =
      fun row => (row.map (outside quotes ';')).flatten :=
    funext fun row => hr.readRow_eq (.inl rfl) row
  have hclose : outside quotes ';' [')'] = [] := by rw [outside_singleton, if_neg (by decide)]
  have hsemicolon : outside quotes ';' [';'] = [';'] := by rw [outside_singleton, if_pos rfl]
  have hletters : outside quotes ';' s.keyword = [] := by
    rw [outside_eq_nil_iff]
    apply avoids_of_notMem List.mem_cons_self
    intro hmem
    exact absurd (isKeywordLetter_of_mem hkeyword hmem) (by decide)
  rw [hr.reading.render hq hs hrows, readStatement, hr.opening, hr.comma, hclose, hsemicolon,
    hletters, hrow, List.append_nil, intercalate_nil_left, intercalate_nil_left]
  simp only [List.nil_append, List.append_assoc]

section
variable (hq : quotes.Plain) {body : Text} (hbal : Balanced quotes body)
  (havoid : Avoids quotes [')', ';'] body)
include hq hbal havoid

/-- A statement holds a single semicolon if the first one in it is the end of the statement. -/
theorem endsOnce_iff_first : EndsOnce quotes ';' (body ++ [')', ';']) ↔
    ∃ front back, (Needle.char ';').cut? quotes (body ++ [')', ';']) = some (front, back) ∧
      front.getLast? = some ')' := by
  constructor
  · rintro ⟨u, hu, hub, hua⟩
    have happend : u ++ [';'] = (body ++ [')']) ++ [';'] := by
      rw [← hu]
      simp
    have heq : u = body ++ [')'] := List.append_cancel_right happend
    refine ⟨u, [], Needle.cut?_char_eq_some_iff.2 ⟨hu, hub, hua⟩, ?_⟩
    rw [heq, List.getLast?_concat]
  · rintro ⟨front, back, hcut, hlast⟩
    obtain ⟨heq, hfront, hfa⟩ := Needle.cut?_char_eq_some_iff.1 hcut
    obtain ⟨f, rfl⟩ := List.getLast?_eq_some_iff.1 hlast
    have hf : Balanced quotes f := hfront.of_append_notMem (by simpa using hq.close_notMem)
    have hfe : Avoids quotes [')', ';'] f := by
      intro a b he ha
      apply hfa (a ++ [')']) (b ++ [')'])
      · rw [he]
        simp
      · exact ha.append (balanced_singleton hq.close_notMem)
    -- Both texts are what comes before the first end of a statement.
    have hfirst := statementEnd_cut?_eq_some_iff.2
      ⟨show body ++ [')', ';'] = f ++ [')', ';'] ++ back by rw [heq]; simp, hf, hfe⟩
    rw [statementEnd_cut?_eq_some_iff.2 ⟨(List.append_nil _).symm, hbal, havoid⟩] at hfirst
    obtain ⟨rfl, rfl⟩ := by simpa using hfirst
    exact ⟨body ++ [')'], by simp, hfront, hfa⟩

/-- A statement holds a single semicolon if none of its parts holds one. -/
theorem endsOnce_iff_parts {s : Statement}
    (hs : parse { quotes, columnWrap := none } (body ++ [')', ';']) = .ok s) :
    EndsOnce quotes ';' (body ++ [')', ';']) ↔ Avoids quotes [';'] s.clause ∧
      (∀ c ∈ s.columns, Avoids quotes [';'] c) ∧
        ∀ row ∈ s.rows, ∀ f ∈ row, Avoids quotes [';'] f := by
  obtain ⟨p, hparts, rfl⟩ := parse_eq_ok_iff.1 hs
  obtain ⟨blanks, lead, xs, hd⟩ := exists_dissection hq hbal havoid hparts
  have hr : Reading.Faithful { quotes, columnWrap := none } (outside quotes ';') :=
    faithful_outside hq (by decide) (by decide) (by decide)
  have hrows : (ofParts { quotes, columnWrap := none } p).rows ≠ [] := rows_ne_nil_ofParts hq hd
  -- The statement and its rendering hold the same semicolons.
  have hread := hr.render hq (by simp) hd fun _ _ => rfl
  have hrender := outside_render hq ((hd.sound hq).quotesClosed hq) hd.keyword hrows
  have hbody : Balanced quotes (body ++ [')']) :=
    hbal.append (balanced_singleton hq.close_notMem)
  rw [show body ++ [')', ';'] = (body ++ [')']) ++ [';'] by simp] at hread ⊢
  rw [endsOnce_append_iff hbody, ← hread, hrender, List.append_left_eq_self,
    List.append_eq_nil_iff, List.append_eq_nil_iff, List.flatten_eq_nil_iff,
    List.flatten_eq_nil_iff, and_assoc, List.forall_mem_map, List.forall_mem_map]
  simp only [List.flatten_eq_nil_iff, List.forall_mem_map, outside_eq_nil_iff]

end

/-- What makes up a span: it ends with its first unquoted `);`. It holds no other unquoted semicolon
exactly if the first one behind its keyword stands behind a parenthesis and, once it can be parsed,
exactly if no part of it holds one. -/
theorem endsOnce_span_iff (hq : quotes.Plain) {start : Nat} {t : Text} {span : Span}
    (h : Span.next? quotes start t = some span) :
    (∃ body, span.raw = body ++ [')', ';'] ∧ Balanced quotes body ∧
      Avoids quotes [')', ';'] body) ∧
    (EndsOnce quotes ';' span.raw ↔ ∃ front back,
      (Needle.char ';').cut? quotes span.raw = some (front, back) ∧ front.getLast? = some ')') ∧
    ∀ s, parse { quotes, columnWrap := none } span.raw = .ok s →
      (EndsOnce quotes ';' span.raw ↔ Avoids quotes [';'] s.clause ∧
        (∀ c ∈ s.columns, Avoids quotes [';'] c) ∧
          ∀ row ∈ s.rows, ∀ f ∈ row, Avoids quotes [';'] f) := by
  obtain ⟨gap, w, u, rest, hlocated, hraw, -⟩ := exists_located_of_next? h
  rw [hraw]
  refine ⟨⟨w ++ u, rfl, hlocated.balanced, hlocated.avoids⟩, ?_, ?_⟩
  · exact endsOnce_iff_first hq hlocated.balanced hlocated.avoids
  · intro s hs
    exact endsOnce_iff_parts hq hlocated.balanced hlocated.avoids hs

/-- Behind another statement, a single semicolon ends a statement with one in a literal. -/
theorem endsOnce_span_iff_literal :
    QuoteSet.Plain .standard ∧
      Span.next? .standard 2 "a;\nINSERT INTO t (a) VALUES ('x;', f(1));".toList =
        some ⟨3, 41, "INSERT INTO t (a) VALUES ('x;', f(1));".toList⟩ ∧
      EndsOnce .standard ';' "INSERT INTO t (a) VALUES ('x;', f(1));".toList ∧
      parse { quotes := .standard, columnWrap := none }
          "INSERT INTO t (a) VALUES ('x;', f(1));".toList =
        .ok ⟨"INSERT INTO t".toList, ["a".toList], "VALUES".toList,
          [["'x;'".toList, "f(1)".toList]], .standard⟩ ∧
      ∀ row ∈ [["'x;'".toList, "f(1)".toList]], ∀ f ∈ row, Avoids .standard [';'] f := by
  have hplain : QuoteSet.Plain .standard := by decide
  have hspan : Span.next? .standard 2 "a;\nINSERT INTO t (a) VALUES ('x;', f(1));".toList =
      some ⟨3, 41, "INSERT INTO t (a) VALUES ('x;', f(1));".toList⟩ := by decide +kernel
  have hends : EndsOnce .standard ';' "INSERT INTO t (a) VALUES ('x;', f(1));".toList := by
    decide +kernel
  have hparse : parse { quotes := .standard, columnWrap := none }
      "INSERT INTO t (a) VALUES ('x;', f(1));".toList =
        .ok ⟨"INSERT INTO t".toList, ["a".toList], "VALUES".toList,
          [["'x;'".toList, "f(1)".toList]], .standard⟩ := by decide +kernel
  obtain ⟨-, -, hparts⟩ := endsOnce_span_iff hplain hspan
  exact ⟨hplain, hspan, hends, hparse, ((hparts _ hparse).1 hends).2.2⟩

/-- A statement without values, a statement of another kind, and one that is aligned already. -/
def withoutValues : Text :=
  "INSERT INTO t (a) SELECT 1;\nUPDATE v SET x = 1,   y = 2;\n".toList ++
    "INSERT INTO u\n(`b`)\nVALUES\n(  1);".toList

/-- All of it is one span, which can be parsed and is laid out as a single statement. -/
theorem endsOnce_span_merged :
    Span.next? .standard 0 withoutValues = some ⟨0, 90, withoutValues⟩ ∧
      (parse {} withoutValues).isOk = true ∧ ¬ EndsOnce .standard ';' withoutValues ∧
      format {} withoutValues =
        "INSERT INTO t\n(`a) SELECT 1;\nUPDATE v SET x = 1`, `y = 2;\n".toList ++
          "INSERT INTO u\n(b`)\nVALUES\n(                                1);".toList := by
  refine ⟨?_, ?_, ?_, ?_⟩ <;> decide +kernel

end InsertLayout
