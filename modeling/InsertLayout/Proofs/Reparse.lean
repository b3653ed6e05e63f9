import InsertLayout.Proofs.Layout
import InsertLayout.Proofs.Locate

/-!
# Parsing every layout of a statement

`s.Layouts t`: the text `t` writes the statement `s`, with arbitrary blanks wherever blanks may
stand, those before the statement included. Whatever the blanks, such a text is parsed into `s` if
`s` is sound, and wrapping only changes the columns of what is parsed (`parse_layout`). The
rendering is such a text (`layouts_render`), so that parsing undoes it.
-/

set_option autoImplicit false

namespace InsertLayout

open Text

namespace Statement

variable {quotes : QuoteSet} {s : Statement} {t front : Text}

instance (s : Statement) : Decidable (Sound quotes s) :=
  decidable_of_iff (s.clause.Trimmed ∧ Balanced quotes s.clause ∧ Avoids quotes ['('] s.clause ∧
    (∀ c ∈ s.columns, Column quotes c) ∧ isValuesKeyword s.keyword = true ∧
    (∀ row ∈ s.rows, row ≠ []) ∧ (∀ row ∈ s.rows, ∀ f ∈ row, Cell quotes f) ∧
    (∀ row ∈ s.rows, ∀ f ∈ row, Avoids quotes [')', ';'] f) ∧
    ∀ row ∈ s.rows, ∀ f ∈ row.dropLast, f.getLast? ≠ some ')') <| by
  have hclosed : ∀ f : Text, f.getLast? ≠ some ')' ↔ ∀ g, f ≠ g ++ [')'] := by
    intro f
    rw [ne_eq, List.getLast?_eq_some_iff, not_exists]
  simp only [hclosed]
  constructor
  · rintro ⟨ht, hb, ha, hc, hk, hr, hf, he, hl⟩
    exact ⟨ht, hb, ha, hc, hk, hr, hf, he, hl⟩
  · rintro ⟨ht, hb, ha, hc, hk, hr, hf, he, hl⟩
    exact ⟨ht, hb, ha, hc, hk, hr, hf, he, hl⟩

/-! ## Texts that write a statement -/

/-- The texts that write a statement: its parts in order, with arbitrary blanks before, between and
behind them. -/
def Layouts (s : Statement) (t : Text) : Prop :=
  ∃ front text before header between values,
    Blank front ∧ LaidOut s text before header between values ∧ t = front ++ text

theorem layouts_render (hs : ∀ row ∈ s.rows, row ≠ []) : s.Layouts s.render := by
  obtain ⟨header, values, h, -⟩ := laidOut_render hs
  exact ⟨[], s.render, ['\n'], header, ['\n'], values, Blank.nil, h, rfl⟩

/-! ## Blanks before a statement -/

theorem MadeOf.prepend (hq : quotes.Plain) {p : Parts} {blanks rest : Text}
    (h : MadeOf quotes t p blanks rest) (hfront : Blank front) :
    MadeOf quotes (front ++ t) { p with clause := front ++ p.clause } blanks rest := by
  have havoid : Avoids quotes ['('] front :=
    avoids_of_notMem List.mem_cons_self (hfront.notMem (by decide))
  exact { h with
    eq := by rw [h.eq]; simp
    clause_balanced := (balanced_blank hq hfront).append h.clause_balanced
    clause_avoids := havoid.append_char (balanced_blank hq hfront) h.clause_avoids }

/-- The blanks go to the clause, from which they are trimmed. -/
theorem parse_prepend {options : Options} (hq : options.quotes.Plain) (hfront : Blank front)
    (h : parse options t = .ok s) : parse options (front ++ t) = .ok s := by
  obtain ⟨p, hparts, rfl⟩ := parse_eq_ok_iff.1 h
  obtain ⟨blanks, rest, hmade⟩ := (cutParts_eq_ok_iff hq).1 hparts
  refine parse_eq_ok_iff.2
    ⟨_, (cutParts_eq_ok_iff hq).2 ⟨blanks, rest, hmade.prepend hq hfront⟩, ?_⟩
  unfold ofParts
  rw [trim_prepend hfront]

/-! ## Parsing -/

/-- Wrapping only changes the columns of what is parsed. -/
theorem parse_wrap (quotes : QuoteSet) (wrap : Option Char) (t : Text) :
    parse { quotes, columnWrap := wrap } t =
      (parse { quotes, columnWrap := none } t).map fun s =>
        { s with columns := s.columns.map (wrapColumn wrap) } := by
  unfold parse
  cases cutParts quotes t with
  | error e => rfl
  | ok p => exact congrArg Except.ok (ofParts_eq { quotes, columnWrap := wrap } p)

/-- How a statement is laid out does not matter to what it is parsed into: every layout of a sound
statement is parsed into the statement, with its columns wrapped if columns are to be, and its
rendering is such a layout. -/
theorem parse_layout (hq : quotes.Plain) (hs : Sound quotes s) (hquotes : s.quotes = quotes) :
    (∀ t, s.Layouts t → parse { quotes, columnWrap := none } t = .ok s ∧
      ∀ wrap, parse { quotes, columnWrap := wrap } t =
        .ok { s with columns := s.columns.map (wrapColumn wrap) }) ∧
    parse { quotes, columnWrap := none } s.render = .ok s := by
  have hparse : ∀ t, s.Layouts t → parse { quotes, columnWrap := none } t = .ok s := by
    rintro t ⟨front, text, before, header, between, values, hfront, h, rfl⟩
    apply parse_prepend hq hfront
    exact h.parse_eq hq hs hquotes fun _ _ => rfl
  refine ⟨fun t ht => ⟨hparse t ht, fun wrap => ?_⟩, hparse _ (layouts_render hs.rows)⟩
  rw [parse_wrap, hparse t ht]
  rfl

/-- Commas, parentheses and the end of a statement in literals, an empty field, and calls at the end
of rows. -/
def punctuated : Statement where
  clause := "INSERT INTO t".toList
  columns := ["a".toList, "'b,c'".toList]
  keyword := "valueſ".toList
  rows := [[[], "f(x)".toList], ["'x);'".toList, "(1)".toList]]
  quotes := .standard

/-- Blanks of many kinds stand around its parts. -/
theorem parse_layout_punctuated :
    QuoteSet.Plain .standard ∧ Sound .standard punctuated ∧ punctuated.quotes = .standard ∧
      punctuated.Layouts
        "\u3000INSERT INTO t\n( a ,\n'b,c')\u00a0valueſ (\t, f(x) ) ,\n( 'x);', (1));\n".toList ∧
      parse { quotes := .standard, columnWrap := none }
        "\u3000INSERT INTO t\n( a ,\n'b,c')\u00a0valueſ (\t, f(x) ) ,\n( 'x);', (1));\n".toList =
          .ok punctuated := by
  have hplain : QuoteSet.Plain .standard := by decide
  have hsound : Sound .standard punctuated := by decide +kernel
  have hpad : ∀ {f x : Text} (a b : Text), Blank a → Blank b → x = a ++ f ++ b → Padded f x :=
    fun a b ha hb h => ⟨a, b, ha, hb, h⟩
  have hcolumns : Joined punctuated.columns (" a ".toList ++ ',' :: "\n'b,c'".toList) :=
    .more (hpad [' '] [' '] (by decide) (by decide) (by decide))
      (.last (hpad ['\n'] [] (by decide) (by decide) (by decide)))
  have hfirst : RowText [[], "f(x)".toList]
      (" ".toList ++ '(' :: ("\t".toList ++ ',' :: " f(x) ".toList)) :=
    ⟨_, _, by decide, .more (hpad ['\t'] [] (by decide) (by decide) (by decide))
      (.last (hpad [' '] [' '] (by decide) (by decide) (by decide))), rfl⟩
  have hsecond : RowText ["'x);'".toList, "(1)".toList]
      ("\n".toList ++ '(' :: (" 'x);'".toList ++ ',' :: " (1)".toList)) :=
    ⟨_, _, by decide, .more (hpad [' '] [] (by decide) (by decide) (by decide))
      (.last (hpad [' '] [] (by decide) (by decide) (by decide))), rfl⟩
  have hrows : RowsText punctuated.rows _ :=
    .more (b := [' ']) hfirst (by decide) (.last hsecond)
  have hlayout : punctuated.Layouts
      "\u3000INSERT INTO t\n( a ,\n'b,c')\u00a0valueſ (\t, f(x) ) ,\n( 'x);', (1));\n".toList :=
    ⟨"\u3000".toList, _, "\n".toList, _, "\u00a0".toList, _, by decide,
      ⟨rfl, by decide, .inr hcolumns, by decide, .inr ⟨_, "\n".toList, hrows, by decide, rfl⟩⟩,
      by decide +kernel⟩
  exact ⟨hplain, hsound, rfl, hlayout, ((parse_layout hplain hsound rfl).1 _ hlayout).1⟩

end Statement

end InsertLayout
