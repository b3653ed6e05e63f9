import InsertLayout.Json.Reader
import InsertLayout.Json.Writer
import InsertLayout.Options
import InsertLayout.Text.Quoted

/-!
# Options from JSON

Options are written as a JSON object with at most the fields `quotes`, a string of quote
characters, and `column_wrap`, a string of one character or null; a field that is missing has its
default. `Options.ofJson?` refuses what is no object, then the first field in the order of the
keys that is unknown or ill-typed, and then options that are not valid.
-/

set_option autoImplicit false

namespace InsertLayout

namespace Options

/-- What the value of a field must be. -/
inductive FieldType where
  | string
  | character
  deriving DecidableEq

/-- A field that does not fit the options. -/
inductive Mismatch where
  | unknownField (key : Text)
  | wrongType (value : Json) (expected : FieldType)
  /-- A string that is not of one character. -/
  | wrongLength (value : Text)

/-- Why a text or a value gives no options. -/
inductive Error where
  /-- The text is not JSON. -/
  | syntaxError
  | notObject (value : Json)
  | mismatch (reason : Mismatch)
  | invalid (reason : Invalid)

/-! ## Wording -/

/-- A value as the message about its type names it. -/
def describe : Json → Text
  | .null => "null".toList
  | .bool b => "boolean `".toList ++ (Json.bool b).compact ++ ['`']
  | .int n => "integer `".toList ++ (Json.int n).compact ++ ['`']
  | .float x => "floating point `".toList ++ (Json.float x).compact ++ ['`']
  | .str t => "string ".toList ++ t.quoted
  | .arr _ => "sequence".toList
  | .obj _ => "map".toList

/-- What is expected, in words. -/
def FieldType.message : FieldType → Text
  | string => "a string".toList
  | character => "a character".toList

/-- The wording of a mismatch. -/
def Mismatch.message : Mismatch → Text
  | unknownField key =>
    "unknown field `".toList ++ key ++ "`, expected `quotes` or `column_wrap`".toList
  | wrongType value expected =>
    "invalid type: ".toList ++ describe value ++ ", expected ".toList ++ expected.message
  | wrongLength value =>
    "invalid value: ".toList ++ describe (.str value) ++ ", expected ".toList
      ++ FieldType.character.message

/-- What options have to satisfy, and how these do not. -/
def unmet (expected got : Text) : Text :=
  "Invalid option: expected ".toList ++ expected ++ ", got ".toList ++ got

/-- The wording of a refusal. -/
def Invalid.message : Invalid → Text
  | noQuotes => unmet "at least one quote character".toList "an empty quote set".toList
  | wrapIsQuote wrap => unmet "a column wrap character that is not a quote character".toList [wrap]

/-- The wording of an error, behind the words that name its kind. -/
def Error.message : Error → Text
  | syntaxError => "JSON error: not a JSON text".toList
  | notObject value => unmet "object".toList value.compact
  | mismatch reason => "JSON error: ".toList ++ reason.message
  | invalid reason => reason.message

/-! ## Reading -/

/-- The quotes that a value gives. -/
def quotesOf? : Json → Except Mismatch QuoteSet
  | .str t => .ok (.ofText t)
  | value => .error (.wrongType value .string)

/-- The wrap character, or none, that a value gives. -/
def columnWrapOf? : Json → Except Mismatch (Option Char)
  | .null => .ok none
  | .str [c] => .ok (some c)
  | .str t => .error (.wrongLength t)
  | value => .error (.wrongType value .character)

/-- The options with one field set. -/
def set (options : Options) (key : Text) (value : Json) : Except Mismatch Options :=
  if key = "quotes".toList then
    (quotesOf? value).map fun quotes => { options with quotes }
  else if key = "column_wrap".toList then
    (columnWrapOf? value).map fun columnWrap => { options with columnWrap }
  else .error (.unknownField key)

/-- The options with fields set one after another. -/
def setAll (options : Options) : List (Text × Json) → Except Mismatch Options
  | [] => .ok options
  | (key, value) :: fields =>
    match options.set key value with
    | .ok options => setAll options fields
    | .error e => .error e

/-- The options that a value gives. -/
def ofJson? : Json → Except Error Options
  | .obj fields =>
    match setAll {} fields with
    | .error e => .error (.mismatch e)
    | .ok options =>
      match options.validate with
      | .error e => .error (.invalid e)
      | .ok () => .ok options
  | value => .error (.notObject value)

/-- The options that a text gives. -/
def ofText? (t : Text) : Except Error Options :=
  match Json.ofText? Json.maxDepth t with
  | some value => ofJson? value
  | none => .error .syntaxError

end Options

end InsertLayout
