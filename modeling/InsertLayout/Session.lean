import InsertLayout.Document.Format
import InsertLayout.Options.OfJson

/-!
# Sessions

A session holds a document, the options in force and a cursor into the document. `Session.step`
carries out one request: it formats the document or a part of it, changes the options, edits the
document, or looks for the next statement behind the cursor. A request that is refused leaves the
session as it is, and no edit moves the cursor.
-/

set_option autoImplicit false

namespace InsertLayout

/-- A document that is being worked on. -/
structure Session where
  text : Text
  options : Options
  /-- The byte offset at which the search for the next statement starts. -/
  cursor : Nat

/-- What a session can be asked to do. -/
inductive Request where
  | format
  | select (start stop : Nat)
  | setOptions (value : Json)
  | append (text : Text)
  | prepend (text : Text)
  | seek (position : Nat)
  | next
  | parseNext

/-- What a session answers. -/
inductive Response where
  /-- The document after formatting, and whether it changed. -/
  | formatted (text : Text) (changed : Bool)
  | selected (result : Except InvalidSelection Text)
  | options (result : Except Options.Error Options)
  | size (bytes : Nat)
  | cursor (position : Nat)
  | found (span : Option Span) (cursor : Nat)
  | parsed (result : Option (Except ParseError Statement)) (cursor : Nat)

namespace Session

/-- Moves the cursor behind the next statement, if there is one. -/
def advance (session : Session) : Option Span × Session :=
  match Span.next? session.options.quotes session.cursor session.text with
  | some span => (some span, { session with cursor := span.stop })
  | none => (none, session)

/-- Carries out a request. -/
def step (session : Session) : Request → Response × Session
  | .format =>
    match reformat? session.options session.text with
    | some text => (.formatted text true, { session with text })
    | none => (.formatted session.text false, session)
  | .select start stop =>
    match formatSelection session.options start stop session.text with
    | .ok text => (.selected (.ok text), { session with text })
    | .error e => (.selected (.error e), session)
  | .setOptions value =>
    match Options.ofJson? value with
    | .ok options => (.options (.ok options), { session with options })
    | .error e => (.options (.error e), session)
  | .append text =>
    let text := session.text ++ text
    (.size text.byteLength, { session with text })
  | .prepend text =>
    let text := text ++ session.text
    (.size text.byteLength, { session with text })
  | .seek cursor => (.cursor cursor, { session with cursor })
  | .next =>
    let (span, session) := session.advance
    (.found span session.cursor, session)
  | .parseNext =>
    let (span, session) := session.advance
    (.parsed (span.map fun s => Statement.parse session.options s.raw) session.cursor, session)

/-- Carries out requests one after another. -/
def run (session : Session) : List Request → List Response
  | [] => []
  | request :: requests =>
    let (response, session) := session.step request
    response :: run session requests

end Session

end InsertLayout
