import InsertLayout.Text.Basic

/-!
# JSON values

Values of the data format JSON, with whole numbers and floating point numbers kept apart. An
object lists its fields by ascending key, and each key once: `Json.setField` keeps this, replacing
the value of a key that is there already.
-/

set_option autoImplicit false

namespace InsertLayout

/-- A JSON value. -/
inductive Json where
  | null
  | bool (value : Bool)
  | int (value : Int)
  | float (value : Float)
  | str (value : Text)
  | arr (items : List Json)
  | obj (fields : List (Text × Json))
  deriving Inhabited

namespace Json

/-- Whether a key comes before another one: by the first code point in which they differ. -/
def keyLt : Text → Text → Bool
  | _, [] => false
  | [], _ :: _ => true
  | a :: s, b :: t => if a = b then keyLt s t else a.toNat < b.toNat

/-- The fields with one more, or with a new value for a key that is there already. -/
def setField (key : Text) (value : Json) : List (Text × Json) → List (Text × Json)
  | [] => [(key, value)]
  | (k, v) :: fields =>
    if keyLt key k then (key, value) :: (k, v) :: fields
    else if k = key then (key, value) :: fields
    else (k, v) :: setField key value fields

/-- The value of a key of an object. -/
def field? (key : Text) : Json → Option Json
  | obj fields => fields.lookup key
  | _ => none

end Json

end InsertLayout
