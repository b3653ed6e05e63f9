import InsertLayout.Json.Token

/-!
# Reading JSON

`Json.ofText?` reads a text that is one JSON value. The tokens are taken one after another by a
machine whose state holds the arrays and objects that are still open, innermost first, and says
what is to come next. More of them open at a time than a given depth are refused. Of two fields
with the same key the later one counts.
-/

set_option autoImplicit false

namespace InsertLayout.Json

/-- The greatest number of arrays and objects inside one another in a file. -/
def maxDepth : Nat := 127

/-- An array or object that is still open. -/
inductive Frame where
  /-- An array with its items so far, the last one first. -/
  | items (done : List Json)
  /-- An object with its fields so far and the key whose value is being read. -/
  | fields (done : List (Text × Json)) (key : Text)

/-- What is to come next, inside which frames. -/
inductive Reading where
  | value (frames : List Frame)
  /-- The first item of an array, or its end. -/
  | firstItem (frames : List Frame)
  /-- The first key of an object, or its end. -/
  | firstKey (frames : List Frame)
  | key (done : List (Text × Json)) (frames : List Frame)
  | colon (done : List (Text × Json)) (key : Text) (frames : List Frame)
  /-- A comma or the end of what is open, behind a complete value. -/
  | afterValue (value : Json) (frames : List Frame)

namespace Reading

/-- A token where a value is to start. -/
def startValue (depth : Nat) (frames : List Frame) : Token → Option Reading
  | .scalar v => some (.afterValue v frames)
  | .openArray => if frames.length < depth then some (.firstItem frames) else none
  | .openObject => if frames.length < depth then some (.firstKey frames) else none
  | _ => none

/-- One more token. -/
def step (depth : Nat) : Reading → Token → Option Reading
  | .value frames, token => startValue depth frames token
  | .firstItem frames, .closeArray => some (.afterValue (.arr []) frames)
  | .firstItem frames, token => startValue depth (.items [] :: frames) token
  | .firstKey frames, .closeObject => some (.afterValue (.obj []) frames)
  | .firstKey frames, .scalar (.str k) => some (.colon [] k frames)
  | .key done frames, .scalar (.str k) => some (.colon done k frames)
  | .colon done k frames, .colon => some (.value (.fields done k :: frames))
  | .afterValue v (.items done :: frames), .comma => some (.value (.items (v :: done) :: frames))
  | .afterValue v (.items done :: frames), .closeArray =>
    some (.afterValue (.arr (v :: done).reverse) frames)
  | .afterValue v (.fields done k :: frames), .comma => some (.key (setField k v done) frames)
  | .afterValue v (.fields done k :: frames), .closeObject =>
    some (.afterValue (.obj (setField k v done)) frames)
  | _, _ => none

end Reading

/-- The value that a sequence of tokens writes, with at most `depth` arrays and objects inside one
another. -/
def ofTokens? (depth : Nat) (tokens : List Token) : Option Json :=
  match tokens.foldlM (Reading.step depth) (.value []) with
  | some (.afterValue value []) => some value
  | _ => none

/-- The value that a text writes. -/
def ofText? (depth : Nat) (t : Text) : Option Json := (Token.ofText? t).bind (ofTokens? depth)

end InsertLayout.Json
