import InsertLayout.Json.Value
import InsertLayout.Decimal.Shortest

/-!
# Writing JSON

`Json.compact` writes a value without white space. In a string only the double quote, the
backslash and the control characters are escaped. A floating point number is written with the
fewest digits that read back: with a point in it from `1e-5` up to below `1e16`, with an exponent
elsewhere.
-/

set_option autoImplicit false

namespace InsertLayout.Json

/-- A hexadecimal number of four digits. -/
def hexUnit (n : Nat) : Text :=
  let ds := Nat.toDigits 16 n
  List.replicate (4 - ds.length) '0' ++ ds

/-- One character of a string. -/
def escapeChar (c : Char) : Text :=
  match c with
  | '"' => ['\\', '"']
  | '\\' => ['\\', '\\']
  | '\x08' => ['\\', 'b']
  | '\t' => ['\\', 't']
  | '\n' => ['\\', 'n']
  | '\x0c' => ['\\', 'f']
  | '\r' => ['\\', 'r']
  | c => if c.toNat < 0x20 then ['\\', 'u'] ++ hexUnit c.toNat else [c]

/-- A string between double quotes. -/
def writeString (t : Text) : Text := '"' :: t.flatMap escapeChar ++ ['"']

/-- A whole number. -/
def writeInt : Int → Text
  | .ofNat n => Text.ofNat n
  | .negSucc n => '-' :: Text.ofNat (n + 1)

/-- A decimal: positional if its point stands at most four places before its digits and at most
sixteen behind their start, and otherwise in scientific form. -/
def writeDecimal (d : Decimal) : Text :=
  let ds := Text.ofNat d.digits
  let point : Int := ds.length + d.exponent
  if -5 < point ∧ point ≤ 0 then
    '0' :: '.' :: List.replicate (-point).toNat '0' ++ ds
  else if 0 < point ∧ point ≤ 16 then
    let whole := ds.take point.toNat ++ List.replicate (point.toNat - ds.length) '0'
    let fraction := ds.drop point.toNat
    whole ++ '.' :: (if fraction.isEmpty then ['0'] else fraction)
  else
    let exponent := point - 1
    ds.take 1 ++ (if ds.length ≤ 1 then [] else '.' :: ds.drop 1)
      ++ 'e' :: (if exponent < 0 then '-' else '+') :: Text.ofNat exponent.natAbs

/-- A floating point number; the values that are no numbers have no form of their own. -/
def writeFloat (x : Float) : Text :=
  if x.isNaN || x.isInf then "null".toList
  else
    let sign : Text := if 0x8000000000000000 ≤ x.toBits.toNat then ['-'] else []
    sign ++ if x == 0 then "0.0".toList else writeDecimal (Decimal.shortest x)

mutual

/-- The value without white space. -/
def compact : Json → Text
  | null => "null".toList
  | bool true => "true".toList
  | bool false => "false".toList
  | int n => writeInt n
  | float x => writeFloat x
  | str t => writeString t
  | arr items => '[' :: List.intercalate [','] (compactItems items) ++ [']']
  | obj fields => '\x7b' :: List.intercalate [','] (compactFields fields) ++ ['\x7d']

/-- The items of an array. -/
def compactItems : List Json → List Text
  | [] => []
  | item :: items => compact item :: compactItems items

/-- The fields of an object. -/
def compactFields : List (Text × Json) → List Text
  | [] => []
  | (key, value) :: fields => (writeString key ++ ':' :: compact value) :: compactFields fields

end

end InsertLayout.Json
