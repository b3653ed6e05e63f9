import InsertLayout.Document.Basic
import InsertLayout.Statement.Parse

/-!
# Formatting documents

Formatting a document renders every statement in it that can be parsed and leaves all other text
as it stands. `Document.reformat?` yields the new text if some statement changed, and nothing
otherwise; `format` yields the text in both cases, and `events` what was met on the way.
-/

set_option autoImplicit false

namespace InsertLayout

/-- The rendering of a statement, or why it has none. -/
def renderStatement (options : Options) (t : Text) : Except ParseError Text :=
  (Statement.parse options t).map Statement.render

/-- The rendering of a statement, or the statement as it stands if it cannot be parsed. -/
def formatStatement (options : Options) (t : Text) : Text :=
  match renderStatement options t with
  | .ok rendered => rendered
  | .error _ => t

namespace Document

/-- The document with every statement formatted. -/
def format (options : Options) (d : Document) : Document :=
  { d with
    pieces := d.pieces.map fun p => { p with statement := formatStatement options p.statement } }

/-- The text after formatting, if some statement changed. -/
def reformat? (options : Options) (d : Document) : Option Text :=
  let formatted := d.format options
  if formatted = d then none else some formatted.toText

end Document

/-- The text after formatting, if some statement in it changed. -/
def reformat? (options : Options) (t : Text) : Option Text :=
  (Document.ofText options.quotes t).reformat? options

/-- The text after formatting. -/
def format (options : Options) (t : Text) : Text := (reformat? options t).getD t

/-! ## Events -/

/-- What is met while a document is formatted. -/
inductive Event where
  /-- A statement that cannot be parsed. -/
  | unchanged (error : ParseError)
  /-- A statement, parsed or not, and its place. -/
  | formatted (start stop : Nat)
  /-- A statement that does not end, and where it starts. -/
  | unterminated (start : Nat)
  deriving DecidableEq

/-- The events of a statement. -/
def Span.events (options : Options) (span : Span) : List Event :=
  match renderStatement options span.raw with
  | .ok _ => [.formatted span.start span.stop]
  | .error e => [.unchanged e, .formatted span.start span.stop]

/-- The events of formatting a document, in order. -/
def Document.events (options : Options) (d : Document) : List Event :=
  let tailStart := d.toText.byteLength - d.tail.byteLength
  d.spans.flatMap (Span.events options)
    ++ match unterminated? options.quotes d.tail with
      | some gap => [.unterminated (tailStart + gap.byteLength)]
      | none => []

/-! ## Selections -/

/-- A selection that is no part of a document, and the size of the document. -/
structure InvalidSelection where
  start : Nat
  stop : Nat
  size : Nat
  deriving DecidableEq

/-- The wording of the error. -/
def InvalidSelection.message (e : InvalidSelection) : Text :=
  "Invalid selection ".toList ++ .ofNat e.start ++ "..".toList ++ .ofNat e.stop
    ++ " for a document of ".toList ++ .ofNat e.size ++ " bytes".toList

/-- The document after the text between two byte offsets has been formatted. -/
def formatSelection (options : Options) (start stop : Nat) (t : Text) :
    Except InvalidSelection Text :=
  match t.takeBytes? start, t.slice? start stop, t.dropBytes? stop with
  | some before, some selected, some after => .ok (before ++ format options selected ++ after)
  | _, _, _ => .error ⟨start, stop, t.byteLength⟩

end InsertLayout
