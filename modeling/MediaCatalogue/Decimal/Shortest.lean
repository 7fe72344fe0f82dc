import MediaCatalogue.Decimal.Binary64

/-!
# The shortest decimal digits of a double

Between the two midpoints to its neighbours every decimal number reads back as the same double.
`Magnitude.shortest` picks, on the coarsest decimal grid that has a point in that interval, the
point nearest to the double: the fewest digits that read back, and among those the closest ones.

* `Digits.positional` writes digits without an exponent, `Digits.scientific` with one;
* `Digits.text` takes the form that suits the size of the number, `Binary64.text` writes a double.
-/

namespace MediaCatalogue.Decimal

/-- The number `coefficient * 10 ^ exponent`. -/
structure Digits where
  /-- The digits, read as a natural number. -/
  coefficient : Nat
  /-- The place of the last digit. -/
  exponent : Int
deriving DecidableEq, Repr

namespace Digits

/-- Drops zeros at the end of the digits. -/
def strip (d : Digits) : Digits :=
  if d.coefficient ≠ 0 ∧ d.coefficient % 10 = 0 then
    strip ⟨d.coefficient / 10, d.exponent + 1⟩
  else d
termination_by d.coefficient
decreasing_by omega

/-- The digits themselves. -/
def chars (d : Digits) : List Char := Nat.toDigits 10 d.coefficient

/-- How many digits stand before the decimal point; none or less for numbers below one. -/
def point (d : Digits) : Int := d.chars.length + d.exponent

/-- Without an exponent: at least one digit on each side of the point. -/
def positional (d : Digits) : String :=
  let cs := d.chars
  if 0 ≤ d.exponent then
    String.ofList (cs ++ List.replicate d.exponent.toNat '0') ++ ".0"
  else if 0 < d.point then
    String.ofList (cs.take d.point.toNat ++ '.' :: cs.drop d.point.toNat)
  else "0." ++ String.ofList (List.replicate (-d.point).toNat '0' ++ cs)

/-- One digit, the others behind the point if there are any, and the exponent with its sign. -/
def scientific (d : Digits) : String :=
  let power := (if 1 ≤ d.point then "+" else "") ++ toString (d.point - 1)
  match d.chars with
  | [] => "0e+0"
  | [c] => String.ofList [c] ++ "e" ++ power
  | c :: cs => String.ofList (c :: '.' :: cs) ++ "e" ++ power

/-- Without an exponent as long as the decimal point stands at most 16 digits to the right and at
most 4 zeros to the left of the first digit. -/
def text (d : Digits) : String :=
  if -5 < d.point ∧ d.point ≤ 16 then d.positional else d.scientific

end Digits

namespace Magnitude

/-- The decimal numbers that read back as a magnitude: those between `low / unit` and `high / unit`,
the ends included if `closed`; the magnitude itself is `exact / unit`. -/
structure Interval where
  /-- The lower midpoint. -/
  low : Nat
  /-- The magnitude. -/
  exact : Nat
  /-- The upper midpoint. -/
  high : Nat
  /-- The common denominator. -/
  unit : Nat
  /-- The midpoints themselves read back. -/
  closed : Bool

/-- The interval of a magnitude. Below a power of two the neighbours are nearer. -/
def interval (m : Magnitude) : Interval :=
  let low := if m.significand = hiddenBit ∧ minExponent < m.exponent then 4 * m.significand - 1
    else 4 * m.significand - 2
  let scale := shiftRatio 1 1 (m.exponent - 2)
  { low := low * scale.1
    exact := 4 * m.significand * scale.1
    high := (4 * m.significand + 2) * scale.1
    unit := scale.2
    closed := m.significand % 2 == 0 }

/-- The point `coefficient * num / den` of a decimal grid lies in the interval. -/
def Interval.contains (i : Interval) (coefficient num den : Nat) : Bool :=
  let point := coefficient * num * i.unit
  if i.closed then i.low * den ≤ point && point ≤ i.high * den
  else i.low * den < point && point < i.high * den

/-- The grid point in the interval nearest to the magnitude, on the grid of the multiples of `10 ^
exponent`. -/
def Interval.nearest? (i : Interval) (exponent : Int) : Option Nat :=
  let num := Nat.pow 10 exponent.toNat
  let den := Nat.pow 10 (-exponent).toNat
  let below := i.exact * den / (num * i.unit)
  let gap := i.exact * den - below * num * i.unit
  let above := num * i.unit - gap
  match i.contains below num den, i.contains (below + 1) num den with
  | true, true =>
    if gap < above || (gap == above && below % 2 == 0) then some below else some (below + 1)
  | true, false => some below
  | false, true => some (below + 1)
  | false, false => none

/-- Tries ever finer grids, `steps` of them. -/
def Interval.search (i : Interval) : Nat → Int → Digits
  | 0, exponent => ⟨0, exponent⟩
  | steps + 1, exponent =>
    match i.nearest? exponent with
    | some coefficient => ⟨coefficient, exponent⟩
    | none => i.search steps (exponent - 1)

/-- The fewest digits that read back as the magnitude, the nearest of them. A grid that is finer
than 17 digits always has a point in the interval, so the search needs no more than 24 steps from a
power of ten above it. -/
def shortest (m : Magnitude) : Digits :=
  if m.significand = 0 then ⟨0, 0⟩
  else
    let bits : Int := m.exponent + Nat.log2 m.significand + 1
    (m.interval.search 24 (bits * 30103 / 100000 + 2)).strip

end Magnitude

/-- The text of a double: the fewest digits that read back, with a sign if it is negative. -/
def Binary64.text (x : Binary64) : String :=
  (if x.negative then "-" else "") ++ x.magnitude.shortest.text

end MediaCatalogue.Decimal
