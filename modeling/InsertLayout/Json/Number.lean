import InsertLayout.Json.Value

/-!
# Numbers in JSON

The grammar of numbers, and the value of one. A number without fraction and exponent is a whole
number if it fits 64 bits, signed or unsigned, and is not `-0`. Any other is a floating point
number: the leading digits that fit 64 bits, rounded, times or divided by a power of ten; digits
that do not fit are dropped. One that is too large has no value.
-/

set_option autoImplicit false

namespace InsertLayout

/-- A number as it is written; the digits are those of its parts. -/
structure Numeral where
  negative : Bool
  whole : Text
  fraction : Text
  exponent : Int
  /-- Whether there is neither a fraction nor an exponent. -/
  integral : Bool

namespace Numeral

/-- Digits at the front, and the rest. -/
def digits (t : Text) : Text × Text := (t.takeWhile Char.isDigit, t.dropWhile Char.isDigit)

/-- The number that digits denote. -/
def natOfDigits (ds : Text) : Nat := ds.foldl (fun n d => n * 10 + (d.toNat - '0'.toNat)) 0

/-- The whole part: one zero, or digits that start with another one. -/
def whole? (t : Text) : Option (Text × Text) :=
  match digits t with
  | ([], _) => none
  | ('0' :: _ :: _, _) => none
  | (ds, rest) => some (ds, rest)

/-- A fraction, if there is a point: at least one digit. -/
def fraction? : Text → Option (Option Text × Text)
  | '.' :: t =>
    match digits t with
    | ([], _) => none
    | (ds, rest) => some (some ds, rest)
  | t => some (none, t)

/-- An exponent, if there is a letter `e`: a sign or none, and at least one digit. -/
def exponent? (t : Text) : Option (Option Int × Text) :=
  match t with
  | c :: t =>
    if c == 'e' || c == 'E' then
      let (negative, unsigned) : Bool × Text :=
        match t with
        | '-' :: t => (true, t)
        | '+' :: t => (false, t)
        | _ => (false, t)
      match digits unsigned with
      | ([], _) => none
      | (ds, rest) =>
        let n : Int := natOfDigits ds
        some (some (if negative then -n else n), rest)
    else some (none, c :: t)
  | [] => some (none, [])

/-- The number at the front of a text, and the rest. -/
def read? (t : Text) : Option (Numeral × Text) := do
  let (negative, t) := match t with
    | '-' :: t => (true, t)
    | _ => (false, t)
  let (whole, t) ← whole? t
  let (fraction, t) ← fraction? t
  let (exponent, t) ← exponent? t
  let integral := fraction.isNone && exponent.isNone
  return (⟨negative, whole, fraction.getD [], exponent.getD 0, integral⟩, t)

/-- The largest number of 64 bits. -/
def maxWord : Nat := 0xFFFFFFFFFFFFFFFF

/-- The greatest magnitude of a negative number of 64 bits. -/
def maxMagnitude : Nat := 0x8000000000000000

/-- A number and the power of ten that it is to be multiplied by. -/
structure Scaled where
  significand : Nat
  exponent : Int

/-- Collects the digits of the whole part while they fit a word; each digit after that multiplies
the number by ten. -/
def collectWhole (n : Nat) : Text → Scaled
  | [] => ⟨n, 0⟩
  | d :: ds =>
    let next := n * 10 + (d.toNat - '0'.toNat)
    if next ≤ maxWord then collectWhole next ds else ⟨n, (d :: ds).length⟩

/-- Goes on with the digits of the fraction while they fit a word, and drops the others. -/
def collectFraction (s : Scaled) : Text → Scaled
  | [] => s
  | d :: ds =>
    let next := s.significand * 10 + (d.toNat - '0'.toNat)
    if next ≤ maxWord then collectFraction ⟨next, s.exponent - 1⟩ ds else s

/-- The power of ten, rounded to a floating point number. -/
def powerOfTen (n : Nat) : Float := Float.ofScientific 1 false n

/-- Divides by a power of ten, in steps of the largest one that there is. -/
def divideByPower (x : Float) (n : Nat) : Float :=
  if n ≤ 308 then x / powerOfTen n
  else if x == 0 then x
  else divideByPower (x / powerOfTen 308) (n - 308)
termination_by n

namespace Scaled

/-- The floating point number, unless it is too large. -/
def toFloat? (s : Scaled) : Option Float :=
  let x := (UInt64.ofNat s.significand).toFloat
  match s.exponent with
  | .negSucc n => some (divideByPower x (n + 1))
  | .ofNat n =>
    if n ≤ 308 then
      let y := x * powerOfTen n
      if y.isInf then none else some y
    else if x == 0 then some x else none

end Scaled

/-- The value as a floating point number, unless it is too large. -/
def toFloat? (n : Numeral) : Option Float :=
  let s := collectFraction (collectWhole 0 n.whole) n.fraction
  let magnitude := Scaled.toFloat? ⟨s.significand, s.exponent + n.exponent⟩
  if n.negative then magnitude.map (- ·) else magnitude

/-- The value, unless it is too large. -/
def toJson? (n : Numeral) : Option Json :=
  let magnitude := natOfDigits n.whole
  if n.integral && !n.negative && magnitude ≤ maxWord then some (.int magnitude)
  else if n.integral && n.negative && 0 < magnitude && magnitude ≤ maxMagnitude then
    some (.int (-magnitude))
  else n.toFloat?.map .float

theorem length_digits (t : Text) : (digits t).1.length + (digits t).2.length = t.length := by
  rw [← List.length_append]
  exact congrArg List.length List.takeWhile_append_dropWhile

theorem length_lt_of_whole? {t ds rest : Text} (h : whole? t = some (ds, rest)) :
    rest.length < t.length := by
  have hlen := length_digits t
  rw [whole?] at h
  split at h
  · cases h
  · cases h
  · rename_i ds' rest' hne _ heq
    obtain ⟨rfl, rfl⟩ : ds' = ds ∧ rest' = rest := by simpa using h
    rw [heq] at hlen
    cases ds' with
    | nil => exact absurd rfl hne
    | cons d ds => simp at hlen; omega

theorem length_le_of_fraction? {t rest : Text} {ds : Option Text}
    (h : fraction? t = some (ds, rest)) : rest.length ≤ t.length := by
  rw [fraction?.eq_def] at h
  split at h
  · rename_i t
    have hlen := length_digits t
    split at h
    · cases h
    · rename_i heq
      rw [heq] at hlen
      obtain ⟨-, rfl⟩ := by simpa using h
      simp at hlen ⊢; omega
  · obtain ⟨-, rfl⟩ := by simpa using h
    exact Nat.le_refl _

theorem length_le_of_exponent? {t rest : Text} {e : Option Int}
    (h : exponent? t = some (e, rest)) : rest.length ≤ t.length := by
  rw [exponent?.eq_def] at h
  split at h
  · rename_i c t
    split at h
    · split at h
      rename_i negative unsigned heq
      have hle : unsigned.length ≤ t.length := by
        split at heq <;> (obtain ⟨-, rfl⟩ := by simpa using heq) <;> simp
      have hlen := length_digits unsigned
      split at h
      · cases h
      · rename_i heq
        rw [heq] at hlen
        obtain ⟨-, rfl⟩ := by simpa using h
        simp at hlen ⊢; omega
    · obtain ⟨-, rfl⟩ := by simpa using h
      exact Nat.le_refl _
  · obtain ⟨-, rfl⟩ := by simpa using h
    exact Nat.le_refl _

theorem length_lt_of_read? {t rest : Text} {n : Numeral} (h : read? t = some (n, rest)) :
    rest.length < t.length := by
  simp only [read?, bind, Option.bind_eq_some_iff, pure] at h
  obtain ⟨⟨ds, t₁⟩, h₁, ⟨fr, t₂⟩, h₂, ⟨ex, t₃⟩, h₃, h⟩ := h
  obtain ⟨-, rfl⟩ := by simpa using h
  have h₁ := length_lt_of_whole? h₁
  have h₂ := length_le_of_fraction? h₂
  have h₃ := length_le_of_exponent? h₃
  split at h₁ <;> simp at * <;> omega

end Numeral

end InsertLayout
