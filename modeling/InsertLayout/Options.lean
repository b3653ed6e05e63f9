import InsertLayout.Quote.Basic

/-!
# Options

What the layout depends on: which characters are quotes, and which character column names are
wrapped in. The defaults are the quotes of literals and identifiers, and the backtick.
`Options.validate` refuses a set without quotes and a wrap character that would itself open a
quote (`Options.validate_eq_ok_iff`).
-/

set_option autoImplicit false

namespace InsertLayout

/-- What the layout depends on. -/
structure Options where
  /-- A field with one of these in it is aligned to the left. -/
  quotes : QuoteSet := .standard
  /-- The character around each column name; with none, names stay as they are written. -/
  columnWrap : Option Char := some '`'
  deriving DecidableEq, Inhabited

/-- Why options are refused. -/
inductive Options.Invalid where
  | noQuotes
  | wrapIsQuote (wrap : Char)
  deriving DecidableEq

/-- Refuses options without quotes, and those whose wrap character is a quote. -/
def Options.validate (options : Options) : Except Options.Invalid Unit :=
  if options.quotes.isEmpty then .error .noQuotes
  else match options.columnWrap with
    | some wrap => if wrap ∈ options.quotes then .error (.wrapIsQuote wrap) else .ok ()
    | none => .ok ()

/-- Options are valid exactly if there are quotes and the wrap character is none of them. -/
theorem Options.validate_eq_ok_iff {options : Options} :
    options.validate = .ok () ↔ options.quotes.isEmpty = false ∧
      ∀ wrap, options.columnWrap = some wrap → wrap ∉ options.quotes := by
  unfold Options.validate
  cases hempty : options.quotes.isEmpty with
  | true => simp
  | false =>
    cases hwrap : options.columnWrap with
    | none => simp
    | some wrap =>
      by_cases hmem : wrap ∈ options.quotes
      · simp [hmem]
      · simp [hmem]

end InsertLayout
