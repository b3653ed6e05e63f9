import InsertLayout.Quote.Basic
import InsertLayout.Text.Width

/-!
# Statements and their layout

An `INSERT` statement is a clause, a list of columns, the keyword before the values, and rows of
fields, which may be shorter or longer than the list of columns. `Statement.render` writes it with
one row a line and every column as wide as its widest entry. Column names and fields with a quote
in them stand at the left of their column, all other fields at its right; fields behind the last
column are not padded.
-/

set_option autoImplicit false

namespace InsertLayout

/-- A statement in its parts. -/
structure Statement where
  /-- What stands before the list of columns. -/
  clause : Text
  columns : List Text
  /-- The keyword `VALUES` as it is written. -/
  keyword : Text
  rows : List (List Text)
  /-- The quotes that tell a literal from other fields. -/
  quotes : QuoteSet
  deriving DecidableEq

namespace Statement

/-- Columns made wide enough for the fields of a row. -/
def widen : List Nat → List Text → List Nat
  | [], _ => []
  | widths, [] => widths
  | width :: widths, field :: fields => max width field.width :: widen widths fields

/-- The width of each column: that of its widest entry, the name included. -/
def columnWidths (s : Statement) : List Nat := s.rows.foldl widen (s.columns.map Text.width)

/-- A field in a column of some width: a literal at the left and anything else at the right. -/
def alignField (quotes : QuoteSet) (width : Nat) (field : Text) : Text :=
  if quotes.occursIn field then field.padRight width else field.padLeft width

/-- The fields of a row in columns of the given widths. -/
def alignRow (quotes : QuoteSet) : List Nat → List Text → List Text
  | [], fields => fields
  | _, [] => []
  | width :: widths, field :: fields =>
    alignField quotes width field :: alignRow quotes widths fields

/-- Cells between parentheses, with a comma and a space between each two. -/
def renderCells (cells : List Text) : Text := '(' :: List.intercalate [',', ' '] cells ++ [')']

/-- The column names in their columns. -/
def renderHeader (s : Statement) : Text :=
  renderCells (List.zipWith Text.padRight s.columns s.columnWidths)

/-- The rows, one a line. -/
def renderRows (s : Statement) : Text :=
  let widths := s.columnWidths
  List.intercalate [',', '\n'] <|
    s.rows.map fun row => renderCells (alignRow s.quotes widths row)

/-- The statement, aligned; without rows, nothing stands behind the keyword. -/
def render (s : Statement) : Text :=
  s.clause ++ '\n' :: s.renderHeader ++ '\n' :: s.keyword
    ++ if s.rows.isEmpty then [] else '\n' :: s.renderRows ++ [';']

@[simp] theorem length_widen (widths : List Nat) (row : List Text) :
    (widen widths row).length = widths.length := by
  fun_induction widen widths row <;> simp_all

/-- Each column has a width. -/
@[simp] theorem length_columnWidths (s : Statement) :
    s.columnWidths.length = s.columns.length := by
  have key : ∀ (rows : List (List Text)) (widths : List Nat),
      (rows.foldl widen widths).length = widths.length := by
    intro rows
    induction rows with
    | nil => intro widths; rfl
    | cons row rows ih => intro widths; rw [List.foldl_cons, ih, length_widen]
  rw [columnWidths, key, List.length_map]

/-- A row keeps its number of fields. -/
@[simp] theorem length_alignRow (quotes : QuoteSet) (widths : List Nat) (row : List Text) :
    (alignRow quotes widths row).length = row.length := by
  fun_induction alignRow quotes widths row <;> simp_all

end Statement

end InsertLayout
