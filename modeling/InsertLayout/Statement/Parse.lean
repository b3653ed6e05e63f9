import InsertLayout.Options
import InsertLayout.Quote.Needle
import InsertLayout.Statement.Basic
import InsertLayout.Text.Blank
import InsertLayout.Text.WordChar

/-!
# Parsing statements

A statement has the form `clause ( columns ) VALUES ( fields ), ( fields ) … ;`. The list of
columns starts at the first unquoted `(` and ends at the first unquoted `)` behind it that the
keyword follows; a row ends at an unquoted `)` that a comma follows. Blanks may stand between the
parts, and calls with parentheses of their own inside a field. `Statement.cutParts` finds the
texts of the parts or says which one is lacking, `ofParts` reads them, and `Statement.parse` does
both.
-/

set_option autoImplicit false

namespace InsertLayout

/-- The part that a statement lacks. -/
inductive ParseError where
  | missingColumns (statement : Text)
  | missingKeyword (statement : Text)
  /-- The values do not start with a row. -/
  | malformedValues (values : Text)
  deriving DecidableEq

/-- The wording of an error. -/
def ParseError.message : ParseError → Text
  | missingColumns statement => "No column list found in statement: ".toList ++ statement
  | missingKeyword statement =>
    "No VALUES keyword follows the column list in statement: ".toList ++ statement
  | malformedValues values => "Value list does not start with a tuple: ".toList ++ values

namespace Statement

/-! ## The keyword -/

/-- A letter without its case; the long s is a form of the letter s. -/
def foldCase (c : Char) : Char := if c = 'ſ' then 's' else c.toLower

/-- Whether a text is the keyword before the values, in any case. -/
def isValuesKeyword (t : Text) : Bool := t.map foldCase == ['v', 'a', 'l', 'u', 'e', 's']

/-- Whether a text goes on with a word character. -/
def continuesWord : Text → Bool
  | [] => false
  | c :: _ => isWordChar c

/-- The keyword at the front of a text, as a word of its own behind blanks or none, and the text
behind it. -/
def keyword? (t : Text) : Option (Text × Text) :=
  let (word, rest) := t.trimLeft.splitAt 6
  if isValuesKeyword word && !continuesWord rest then some (word, rest) else none

/-! ## Columns -/

/-- The end of the list of columns: a parenthesis that the keyword follows. -/
def columnsEnd? : Text → Option (Text × Text)
  | ')' :: t => keyword? t
  | _ => none

/-- A column name in its wrap characters; those inside it are removed. -/
def wrapColumn : Option Char → Text → Text
  | none, column => column
  | some wrap, column => wrap :: column.filter (· != wrap) ++ [wrap]

/-- The column names in a list of columns, in which an empty name does not count. -/
def parseColumns (options : Options) (t : Text) : List Text :=
  (((Needle.char ',').split options.quotes t).map Text.trim).filter (!·.isEmpty)
    |>.map (wrapColumn options.columnWrap)

/-! ## Rows -/

/-- The end of a row that another one follows: a parenthesis, blanks or none, and a comma. Yields
the blanks and the text behind the comma. -/
def rowEnd? : Text → Option (Text × Text)
  | ')' :: t =>
    match Text.trimLeft t with
    | ',' :: rest => some (Text.leadingBlanks t, rest)
    | _ => none
  | _ => none

/-- The text of the next row and what is left behind its comma. Quotes that stand between the row
and the comma are opened as anywhere else; the closing parenthesis opens none. -/
def nextRow? (quotes : QuoteSet) (p : QuoteState × Text) : Option (Text × QuoteState × Text) := do
  let marks := quotes.without ')'
  let (row, blanks, rest) ← seek? marks rowEnd? p.1 p.2
  return (row, QuoteState.scan marks .unquoted (blanks ++ [',']), rest)

theorem length_lt_of_rowEnd? {t blanks rest : Text} (h : rowEnd? t = some (blanks, rest)) :
    rest.length < t.length := by
  rw [rowEnd?.eq_def] at h
  split at h
  · rename_i t
    have hle : (Text.trimLeft t).length ≤ t.length := (List.dropWhile_suffix _).length_le
    split at h
    · rename_i heq
      rw [heq] at hle
      obtain ⟨-, rfl⟩ := by simpa using h
      simp at hle ⊢; omega
    · cases h
  · cases h

theorem length_lt_of_nextRow? {quotes : QuoteSet} {p p' : QuoteState × Text} {row : Text}
    (h : nextRow? quotes p = some (row, p')) : p'.2.length < p.2.length := by
  simp only [nextRow?, bind, Option.bind_eq_some_iff, pure] at h
  obtain ⟨⟨before, blanks, rest⟩, hseek, he⟩ := h
  obtain ⟨-, rfl⟩ := by simpa using he
  obtain ⟨found, hfound, hend, -⟩ := exists_of_seek? hseek
  have := length_lt_of_rowEnd? hend
  simp [hfound]; omega

/-- Takes the texts of the rows that another row follows. -/
def rowCutter (quotes : QuoteSet) : Cutter (QuoteState × Text) Text where
  size p := p.2.length
  next? := nextRow? quotes
  size_lt := length_lt_of_nextRow?

/-- The fields in the text between two parentheses. -/
def parseFields (quotes : QuoteSet) (t : Text) : List Text :=
  ((Needle.char ',').split quotes t).map Text.trim

/-- The text of a row without the parenthesis that opens it. -/
def stripOpen : Text → Text
  | '(' :: t => t
  | t => t

/-- A text without a given end. -/
def stripEnd? (suffix t : Text) : Option Text :=
  if suffix.isSuffixOf t then some (t.take (t.length - suffix.length)) else none

/-- The text of a row that another one follows, without its parenthesis and without an end of
statement. -/
def innerRow (t : Text) : Text :=
  let t := stripOpen t.trim
  (stripEnd? [')', ';'] t).getD t

/-- The text of the last row without its parentheses; the end of the statement may be missing. -/
def lastRow (t : Text) : Text :=
  let t := stripOpen t.trim
  ((stripEnd? [')', ';'] t).or (stripEnd? [')'] t)).getD t

/-- The rows of a list of values. -/
def parseRows (quotes : QuoteSet) (t : Text) : List (List Text) :=
  if t.isEmpty then []
  else
    let (rows, _, last) := (rowCutter quotes).run (.unquoted, t)
    rows.map (parseFields quotes ∘ innerRow) ++ [parseFields quotes (lastRow last)]

/-! ## Statements -/

/-- Whether a list of values is empty or starts with a row. -/
def startsWithRow : Text → Bool
  | [] => true
  | c :: _ => c == '('

/-- The texts of the parts of a statement, as they stand. -/
structure Parts where
  clause : Text
  /-- What stands between the parentheses of the list of columns. -/
  columns : Text
  keyword : Text
  /-- What stands behind the keyword, without blanks at its ends. -/
  values : Text
  deriving DecidableEq

/-- Cuts a statement into its parts. -/
def cutParts (quotes : QuoteSet) (t : Text) : Except ParseError Parts :=
  match (Needle.char '(').cut? quotes t with
  | none => .error (.missingColumns t)
  | some (clause, rest) =>
    match seek? (quotes.without ')') columnsEnd? .unquoted rest with
    | none => .error (.missingKeyword t)
    | some (columns, keyword, rest) =>
      let values := rest.trim
      if startsWithRow values then .ok { clause, columns, keyword, values }
      else .error (.malformedValues values)

/-- The statement that has the given parts. -/
def ofParts (options : Options) (parts : Parts) : Statement where
  clause := parts.clause.trim
  columns := parseColumns options parts.columns
  keyword := parts.keyword
  rows := parseRows options.quotes parts.values
  quotes := options.quotes

/-- Takes a statement apart. -/
def parse (options : Options) (t : Text) : Except ParseError Statement :=
  (cutParts options.quotes t).map (ofParts options)

end Statement

end InsertLayout
