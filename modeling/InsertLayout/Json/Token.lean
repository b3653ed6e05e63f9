import InsertLayout.Json.Number
import InsertLayout.Text.Cutter

/-!
# Tokens of JSON

A JSON text is a sequence of tokens with white space between them: punctuation, the three words,
numbers and strings. `Json.Token.ofText?` reads them all and refuses a text that has anything else
in it. A string is read one character after another, an escape being one of them; the escape of a
code point above U+FFFF is a pair of surrogates, and half of a pair is refused.
-/

set_option autoImplicit false

namespace InsertLayout.Json

/-- White space between tokens: space, tab, line feed and carriage return. -/
def isSpace (c : Char) : Bool := c == ' ' || c == '\t' || c == '\n' || c == '\r'

/-- The text without the white space at its front. -/
def skipSpace (t : Text) : Text := t.dropWhile isSpace

/-! ## Strings -/

/-- The value of a hexadecimal digit. -/
def hexDigit? (c : Char) : Option Nat :=
  if '0' ≤ c ∧ c ≤ '9' then some (c.toNat - '0'.toNat)
  else if 'a' ≤ c ∧ c ≤ 'f' then some (c.toNat - 'a'.toNat + 10)
  else if 'A' ≤ c ∧ c ≤ 'F' then some (c.toNat - 'A'.toNat + 10)
  else none

/-- Four hexadecimal digits. -/
def codeUnit? : Text → Option (Nat × Text)
  | a :: b :: c :: d :: t => do
    let a ← hexDigit? a
    let b ← hexDigit? b
    let c ← hexDigit? c
    let d ← hexDigit? d
    return (((a * 16 + b) * 16 + c) * 16 + d, t)
  | _ => none

/-- The second half of a pair of surrogates, escaped on its own. -/
def trailingSurrogate? : Text → Option (Nat × Text)
  | '\\' :: 'u' :: t => (codeUnit? t).filter fun p => 0xDC00 ≤ p.1 && p.1 ≤ 0xDFFF
  | _ => none

/-- The code point written behind `\u`. -/
def codePoint? (t : Text) : Option (Char × Text) := do
  let (unit, t) ← codeUnit? t
  if 0xD800 ≤ unit ∧ unit ≤ 0xDBFF then
    let (low, t) ← trailingSurrogate? t
    return (Char.ofNat (0x10000 + (unit - 0xD800) * 0x400 + (low - 0xDC00)), t)
  else if 0xDC00 ≤ unit ∧ unit ≤ 0xDFFF then none
  else return (Char.ofNat unit, t)

/-- The character written behind a backslash. -/
def escape? : Text → Option (Char × Text)
  | [] => none
  | c :: t =>
    match c with
    | '"' | '\\' | '/' => some (c, t)
    | 'b' => some ('\x08', t)
    | 'f' => some ('\x0c', t)
    | 'n' => some ('\n', t)
    | 'r' => some ('\r', t)
    | 't' => some ('\t', t)
    | 'u' => codePoint? t
    | _ => none

/-- The next character of a string; none at its closing quote, and none at a control character. -/
def stringChar? : Text → Option (Char × Text)
  | [] => none
  | c :: t =>
    if c == '"' || c.toNat < 0x20 then none
    else if c == '\\' then escape? t
    else some (c, t)

theorem length_lt_of_codeUnit? {t rest : Text} {n : Nat} (h : codeUnit? t = some (n, rest)) :
    rest.length < t.length := by
  rw [codeUnit?.eq_def] at h
  split at h
  · simp only [bind, Option.bind_eq_some_iff, pure, Option.some.injEq, Prod.mk.injEq] at h
    obtain ⟨_, -, _, -, _, -, _, -, -, rfl⟩ := h
    simp; omega
  · cases h

theorem length_lt_of_trailingSurrogate? {t rest : Text} {n : Nat}
    (h : trailingSurrogate? t = some (n, rest)) : rest.length < t.length := by
  rw [trailingSurrogate?.eq_def] at h
  split at h
  · have := length_lt_of_codeUnit? (Option.filter_eq_some_iff.1 h).1
    simp; omega
  · cases h

theorem length_lt_of_codePoint? {t rest : Text} {c : Char} (h : codePoint? t = some (c, rest)) :
    rest.length < t.length := by
  simp only [codePoint?, bind, Option.bind_eq_some_iff] at h
  obtain ⟨⟨unit, t₁⟩, h₁, h⟩ := h
  have h₁ := length_lt_of_codeUnit? h₁
  split at h
  · obtain ⟨⟨low, t₂⟩, h₂, h⟩ := Option.bind_eq_some_iff.1 h
    have h₂ := length_lt_of_trailingSurrogate? h₂
    obtain ⟨-, rfl⟩ := by simpa [pure] using h
    exact Nat.lt_trans h₂ h₁
  · split at h
    · cases h
    · obtain ⟨-, rfl⟩ := by simpa [pure] using h
      exact h₁

theorem length_lt_of_escape? {t rest : Text} {c : Char} (h : escape? t = some (c, rest)) :
    rest.length < t.length := by
  rw [escape?.eq_def] at h
  split at h
  · cases h
  · split at h
    case h_10 => cases h
    case h_9 => exact Nat.lt_succ_of_lt (length_lt_of_codePoint? h)
    all_goals
      obtain ⟨-, rfl⟩ := by simpa using h
      simp

theorem length_lt_of_stringChar? {t rest : Text} {c : Char} (h : stringChar? t = some (c, rest)) :
    rest.length < t.length := by
  rw [stringChar?.eq_def] at h
  split at h
  · cases h
  · split at h
    · cases h
    · split at h
      · exact Nat.lt_succ_of_lt (length_lt_of_escape? h)
      · obtain ⟨-, rfl⟩ := by simpa using h
        simp

/-- Takes the characters of a string. -/
def stringCutter : Cutter Text Char where
  size := List.length
  next? := stringChar?
  size_lt := length_lt_of_stringChar?

/-- The string whose opening quote has been read. -/
def string? (t : Text) : Option (Text × Text) :=
  match stringCutter.run t with
  | (chars, '"' :: rest) => some (chars, rest)
  | _ => none

/-! ## Tokens -/

/-- A token. -/
inductive Token where
  | openArray
  | closeArray
  | openObject
  | closeObject
  | comma
  | colon
  /-- A word, a number or a string, as the value that it is. -/
  | scalar (value : Json)

/-- The token at the front of a text without leading white space. -/
def Token.read? : Text → Option (Token × Text)
  | '[' :: t => some (.openArray, t)
  | ']' :: t => some (.closeArray, t)
  | '\x7b' :: t => some (.openObject, t)
  | '\x7d' :: t => some (.closeObject, t)
  | ',' :: t => some (.comma, t)
  | ':' :: t => some (.colon, t)
  | 'n' :: 'u' :: 'l' :: 'l' :: t => some (.scalar .null, t)
  | 't' :: 'r' :: 'u' :: 'e' :: t => some (.scalar (.bool true), t)
  | 'f' :: 'a' :: 'l' :: 's' :: 'e' :: t => some (.scalar (.bool false), t)
  | '"' :: t => (string? t).map fun p => (.scalar (.str p.1), p.2)
  | t => do
    let (n, rest) ← Numeral.read? t
    let value ← n.toJson?
    return (.scalar value, rest)

theorem length_lt_of_string? {t chars rest : Text} (h : string? t = some (chars, rest)) :
    rest.length < t.length := by
  have hle : (stringCutter.run t).2.length ≤ t.length := stringCutter.size_run_le t
  rw [string?] at h
  split at h
  · rename_i heq
    rw [heq] at hle
    obtain ⟨-, rfl⟩ := by simpa using h
    exact hle
  · cases h

theorem length_lt_of_read? {t rest : Text} {token : Token}
    (h : Token.read? t = some (token, rest)) : rest.length < t.length := by
  rw [Token.read?.eq_def] at h
  split at h
  case h_10 =>
    obtain ⟨p, hp, he⟩ := Option.map_eq_some_iff.1 h
    have := length_lt_of_string? hp
    obtain ⟨-, rfl⟩ := by simpa using he
    exact Nat.lt_succ_of_lt this
  case h_11 =>
    simp only [bind, Option.bind_eq_some_iff, pure] at h
    obtain ⟨p, hp, value, -, he⟩ := h
    obtain ⟨-, rfl⟩ := by simpa using he
    exact Numeral.length_lt_of_read? hp
  all_goals
    obtain ⟨-, rfl⟩ := by simpa using h
    simp only [List.length_cons]; omega

/-- Takes the tokens of a text. -/
def tokenCutter : Cutter Text Token where
  size := List.length
  next? t := Token.read? (skipSpace t)
  size_lt h := Nat.lt_of_lt_of_le (length_lt_of_read? h) (List.dropWhile_suffix _).length_le

/-- All tokens of a text that has nothing but tokens and white space. -/
def Token.ofText? (t : Text) : Option (List Token) :=
  match tokenCutter.run t with
  | (tokens, rest) => if (skipSpace rest).isEmpty then some tokens else none

end InsertLayout.Json
