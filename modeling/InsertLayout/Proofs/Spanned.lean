import InsertLayout.Proofs.Idempotence
import InsertLayout.Proofs.Splice

/-!
# The statements that spans are parsed into

`Spanned quotes s`: the statement `s` is sound and has rows, its clause starts with the keyword
`INSERT`, and the end of a statement stands in none of its parts. If a span can be parsed, it is
parsed into such a statement (`Located.spanned`). Conversely the rendering of such a statement is a
span (`Spanned.next?_render`) and is parsed into the statement again (`Spanned.parse_render`). So
these are the statements that spans are parsed into, and there are no others (`parse_span_exact`).
-/

set_option autoImplicit false

namespace InsertLayout

open Text Statement

variable {quotes : QuoteSet} {s : Statement}

/-- A sound statement with rows that starts with the keyword and is not ended before its last
row. -/
structure Statement.Spanned (quotes : QuoteSet) (s : Statement) : Prop extends Sound quotes s where
  quotes_eq : s.quotes = quotes
  rows_ne_nil : s.rows ≠ []
  clause_word : ∃ w v, InsertWord w ∧ s.clause = w ++ v
  clause_avoids_end : Avoids quotes [')', ';'] s.clause
  columns_avoid_end : ∀ c ∈ s.columns, Avoids quotes [')', ';'] c

/-! ## What spans are parsed into -/

/-- What a located statement is parsed into. The columns are taken as they stand, since wrapping
them can bring a `)` next to a keyword or a semicolon. -/
theorem Located.spanned (hq : quotes.Plain) {gap w u rest : Text}
    (h : Located quotes gap w u rest)
    (hs : parse { quotes, columnWrap := none } (w ++ u ++ [')', ';']) = .ok s) :
    Spanned quotes s := by
  obtain ⟨p, hparts, rfl⟩ := parse_eq_ok_iff.1 hs
  obtain ⟨blanks, lead, xs, hd⟩ := exists_dissection hq h.balanced h.avoids hparts
  have hwhole := hd.whole_of_word hq h.word
  obtain ⟨v, hclause⟩ := hwhole.clause
  exact { hd.sound hq with
    quotes_eq := rfl
    rows_ne_nil := hwhole.rows_ne_nil
    clause_word := ⟨w, v, h.word, hclause⟩
    clause_avoids_end := hwhole.clause_avoids_end
    columns_avoid_end := hwhole.columns_avoid_end }

/-! ## Renderings that are spans -/

namespace Statement

theorem Spanned.whole (h : Spanned quotes s) : ∃ w, InsertWord w ∧ Whole quotes w s := by
  obtain ⟨w, v, hw, hclause⟩ := h.clause_word
  exact ⟨w, hw, {
    clause := ⟨v, hclause⟩
    clause_avoids_end := h.clause_avoids_end
    columns_avoid_end := h.columns_avoid_end
    keyword := h.keyword
    rows_ne_nil := h.rows_ne_nil
    fields_avoid_end := h.avoids_end }⟩

/-- The rendering is located at its own front, and nothing is left behind it. -/
theorem Spanned.exists_located_render (hq : quotes.Plain) (h : Spanned quotes s) :
    ∃ w u, Located quotes [] w u [] ∧ s.render = w ++ u ++ [')', ';'] := by
  obtain ⟨w, hw, hwhole⟩ := h.whole
  obtain ⟨u, hrender, hbal, havoid⟩ := exists_body_render hq (h.toSound.quotesClosed hq) hwhole
  exact ⟨w, u, ⟨balanced_nil, misses_nil _ _, hw, hbal, havoid⟩, hrender⟩

theorem Spanned.next?_render (hq : quotes.Plain) (h : Spanned quotes s) :
    Span.next? quotes 0 s.render = some ⟨0, s.render.byteLength, s.render⟩ := by
  obtain ⟨w, u, hlocated, hrender⟩ := h.exists_located_render hq
  refine Span.next?_eq_some_iff.2 ⟨[], [], w, u, [], ?_, hlocated, hrender, rfl, rfl, rfl⟩
  rw [List.nil_append, List.nil_append, List.append_nil]

theorem Spanned.parse_render (hq : quotes.Plain) (h : Spanned quotes s) :
    parse { quotes, columnWrap := none } s.render = .ok s :=
  Statement.parse_render hq h.toSound h.quotes_eq fun _ _ => rfl

/-- What parsing guarantees about spans, and that it guarantees no more: a statement that some span
is parsed into is `Spanned`, and every `Spanned` statement is parsed from a span, its own
rendering. -/
theorem parse_span_exact (hq : quotes.Plain) :
    (∀ start t span, Span.next? quotes start t = some span →
      parse { quotes, columnWrap := none } span.raw = .ok s → Spanned quotes s) ∧
    (Spanned quotes s →
      Span.next? quotes 0 s.render = some ⟨0, s.render.byteLength, s.render⟩ ∧
        parse { quotes, columnWrap := none } s.render = .ok s) := by
  refine ⟨fun start t span hspan hs => ?_, fun h => ⟨h.next?_render hq, h.parse_render hq⟩⟩
  obtain ⟨gap, w, u, rest, hlocated, hraw, -⟩ := exists_located_of_next? hspan
  exact hlocated.spanned hq (hraw ▸ hs)

/-- Parentheses and the end of a statement in literals, calls, an empty field, and rows that are
shorter or longer than the list of columns. -/
def ragged : Statement where
  clause := "insert into 't('".toList
  columns := ["a".toList, "'c) VALUES'".toList]
  keyword := "Values".toList
  rows := [["1".toList, "'x);'".toList, "f(g())".toList], [[]]]
  quotes := .standard

/-- A text that writes it, with an empty column that does not count. -/
def raggedText : Text := "insert into 't(' (a,,'c) VALUES')Values(1,'x);',f(g())) ,();".toList

/-- Its span is found behind other text, and its rendering makes up a span of its own. -/
theorem parse_span_exact_ragged :
    QuoteSet.Plain .standard ∧
      Span.next? .standard 2 ("é;\n".toList ++ raggedText) = some ⟨4, 64, raggedText⟩ ∧
      parse { quotes := .standard, columnWrap := none } raggedText = .ok ragged ∧
      Spanned .standard ragged ∧
      Span.next? .standard 0 ragged.render =
        some ⟨0, ragged.render.byteLength, ragged.render⟩ ∧
      parse { quotes := .standard, columnWrap := none } ragged.render = .ok ragged := by
  have hplain : QuoteSet.Plain .standard := by decide
  have hspan : Span.next? .standard 2 ("é;\n".toList ++ raggedText) =
      some ⟨4, 64, raggedText⟩ := by decide +kernel
  have hparse : parse { quotes := .standard, columnWrap := none } raggedText = .ok ragged := by
    decide +kernel
  obtain ⟨hsound, hcomplete⟩ := parse_span_exact hplain
  have hspanned := hsound _ _ _ hspan hparse
  exact ⟨hplain, hspan, hparse, hspanned, hcomplete hspanned⟩

end Statement

end InsertLayout
