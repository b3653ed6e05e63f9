/-!
# Shortest decimals of floating point numbers

A finite binary64 number other than zero is `m · 2 ^ q`, and every real in an interval around it
rounds to it. `Decimal.shortest` is the decimal with the fewest digits in that interval; of two
with equally many it is the nearer one, and of two equally near ones the one whose last digit is
even. For each count of digits only the two neighbours of the number on the grid of that many
digits are tried: if any point of the grid lies in the interval, one of these does. Seventeen
digits always suffice.
-/

set_option autoImplicit false

namespace InsertLayout

/-- The number `digits · 10 ^ exponent`. -/
structure Decimal where
  digits : Nat
  exponent : Int
  deriving DecidableEq, Repr

namespace Decimal

/-- A positive number and the interval of the reals that round to it, as fractions over one
denominator. -/
structure Rounding where
  low : Nat
  value : Nat
  high : Nat
  denominator : Nat
  /-- Whether the ends of the interval round to the number, too. -/
  closed : Bool

namespace Rounding

/-- The number `m · 2 ^ q`; `narrow` says that it is a power of two, below which the next number is
only half as far away as above. -/
def ofBinary (m : Nat) (q : Int) (narrow : Bool) : Rounding :=
  let scale : Nat × Nat := match q with
    | .ofNat n => (Nat.pow 2 n, 4)
    | .negSucc n => (1, Nat.pow 2 (n + 3))
  { low := (4 * m - if narrow then 1 else 2) * scale.1
    value := 4 * m * scale.1
    high := (4 * m + 2) * scale.1
    denominator := scale.2
    closed := m % 2 == 0 }

/-- The fractions over `10 ^ exponent` as the unit. -/
def inUnits (r : Rounding) : Int → Rounding
  | .ofNat n => { r with denominator := r.denominator * Nat.pow 10 n }
  | .negSucc n =>
    let k := Nat.pow 10 (n + 1)
    { r with low := r.low * k, value := r.value * k, high := r.high * k }

/-- Whether a whole number lies in the interval. -/
def covers (r : Rounding) (c : Nat) : Bool :=
  let x := c * r.denominator
  if r.closed then r.low ≤ x && x ≤ r.high else r.low < x && x < r.high

/-- The whole number in the interval that is next to the value, if one of its neighbours is. -/
def nearest? (r : Rounding) : Option Nat :=
  let below := r.value / r.denominator
  let above := below + 1
  let toBelow := r.value - below * r.denominator
  let toAbove := above * r.denominator - r.value
  match r.covers below && 0 < below, r.covers above with
  | true, true =>
    if toBelow < toAbove || (toBelow == toAbove && below % 2 == 0) then some below else some above
  | true, false => some below
  | false, true => some above
  | false, false => none

/-- The exponent of the first power of ten above the value. -/
def magnitude (r : Rounding) : Int :=
  let digitCount (n : Nat) : Int := (Nat.toDigits 10 n).length
  let e := digitCount r.value - digitCount r.denominator
  let unit := r.inUnits e
  if unit.denominator ≤ unit.value then e + 1 else e

end Rounding

/-- The decimal without the zeros at the end of its digits; `fuel` bounds their number. -/
def normalize : Nat → Decimal → Decimal
  | 0, d => d
  | fuel + 1, d =>
    if d.digits ≠ 0 ∧ d.digits % 10 = 0 then normalize fuel ⟨d.digits / 10, d.exponent + 1⟩
    else d

/-- The decimal in the interval with the fewest digits from `count` up; after `fuel` trials the
value is cut off instead. -/
def search (r : Rounding) (magnitude : Int) : Nat → Nat → Decimal
  | 0, count =>
    let exponent := magnitude - count
    ⟨(r.inUnits exponent).value / (r.inUnits exponent).denominator, exponent⟩
  | fuel + 1, count =>
    let exponent := magnitude - count
    match (r.inUnits exponent).nearest? with
    | some digits => normalize (count + 1) ⟨digits, exponent⟩
    | none => search r magnitude fuel (count + 1)

/-- The shortest decimal in an interval around a positive number. -/
def ofRounding (r : Rounding) : Decimal := search r r.magnitude 17 1

/-- The value of the bit that starts a significand and is not stored. -/
def leadingBit : Nat := 0x10000000000000

/-- The interval around the magnitude of a finite number other than zero. -/
def Rounding.ofFloat (x : Float) : Rounding :=
  let bits := x.toBits.toNat
  let fraction : Nat := bits % leadingBit
  let biased : Nat := bits / leadingBit % 0x800
  if biased = 0 then ofBinary fraction (-1074) false
  else ofBinary (leadingBit + fraction) ((biased : Int) - 1075) (fraction == 0 && 1 < biased)

/-- The shortest decimal that rounds to the magnitude of a finite number other than zero. -/
def shortest (x : Float) : Decimal := ofRounding (.ofFloat x)

end Decimal

end InsertLayout
