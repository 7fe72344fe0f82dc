/-!
# Double precision numbers

A finite double is a sign and a magnitude `significand * 2 ^ exponent`, where the significand has at
most 53 bits and the exponent is at least `-1074`; magnitudes are kept with the largest significand
that fits. All arithmetic is exact arithmetic on natural numbers followed by one rounding to the
nearest magnitude, ties to the even significand (`Magnitude.ofRatio?`), so every value here can be
computed in a proof.

* `Magnitude.ofRatio?` rounds a quotient of natural numbers;
* `Magnitude.mul?` and `Magnitude.div?` are the rounded product and quotient of two magnitudes;
* `Magnitude.scaleByTen?` moves the decimal point of a magnitude: the way decimal literals are read.
-/

namespace MediaCatalogue.Decimal

/-- The absolute value `significand * 2 ^ exponent` of a finite double. -/
structure Magnitude where
  /-- At most 53 bits. -/
  significand : Nat
  /-- At least `-1074`. -/
  exponent : Int
deriving DecidableEq, Repr

/-- A finite double. Zero has two signs. -/
structure Binary64 where
  /-- The number is below zero, or the negative zero. -/
  negative : Bool
  /-- The absolute value. -/
  magnitude : Magnitude
deriving DecidableEq, Repr

namespace Magnitude

/-- The least exponent. -/
def minExponent : Int := -1074

/-- The greatest exponent. -/
def maxExponent : Int := 971

/-- A significand of exactly 53 bits is at least two to the power of 52. -/
def hiddenBit : Nat := 0x10000000000000

/-- Zero. -/
def zero : Magnitude := ⟨0, minExponent⟩

/-- The quotient of two natural numbers, rounded to the nearest one, a half to the even
neighbour. -/
def roundDiv (num den : Nat) : Nat :=
  let q := num / den
  let twice := 2 * (num % den)
  if den < twice || (twice == den && q % 2 == 1) then q + 1 else q

/-- `num / den * 2 ^ shift` as a quotient of natural numbers. -/
def shiftRatio (num den : Nat) (shift : Int) : Nat × Nat :=
  if 0 ≤ shift then (num * Nat.pow 2 shift.toNat, den) else (num, den * Nat.pow 2 (-shift).toNat)

/-- The exponent for which the quotient of `num` and `den` has a significand of 53 bits, or the
least exponent if that one is smaller. -/
def exponentOf (num den : Nat) : Int :=
  let guess : Int := (Nat.log2 num : Int) - (Nat.log2 den : Int) - 52
  let scaled := shiftRatio num den (-guess)
  max minExponent (if scaled.1 / scaled.2 < hiddenBit then guess - 1 else guess)

/-- The magnitude nearest to a quotient, unless it is too large for one. -/
def ofRatio? (num den : Nat) : Option Magnitude :=
  if num = 0 then some zero
  else
    let exponent := exponentOf num den
    let scaled := shiftRatio num den (-exponent)
    let significand := roundDiv scaled.1 scaled.2
    let rounded : Magnitude :=
      if significand = 2 * hiddenBit then ⟨hiddenBit, exponent + 1⟩ else ⟨significand, exponent⟩
    if rounded.exponent ≤ maxExponent then some rounded else none

/-- The rounded product. -/
def mul? (a b : Magnitude) : Option Magnitude :=
  let ratio := shiftRatio (a.significand * b.significand) 1 (a.exponent + b.exponent)
  ofRatio? ratio.1 ratio.2

/-- The rounded quotient by a magnitude that is not zero. -/
def div? (a b : Magnitude) : Option Magnitude :=
  let ratio := shiftRatio a.significand b.significand (a.exponent - b.exponent)
  ofRatio? ratio.1 ratio.2

/-- The magnitude nearest to `10 ^ n`, for the `n` up to 308 that have one. -/
def powerOfTen? (n : Nat) : Option Magnitude := ofRatio? (Nat.pow 10 n) 1

/-- Divides by `10 ^ 308`, rounding each time, `times` times or until nothing is left. -/
def divideRepeatedly? : Nat → Magnitude → Option Magnitude
  | 0, m => some m
  | times + 1, m =>
    if m.significand = 0 then some m
    else ((powerOfTen? 308).bind (div? m)).bind (divideRepeatedly? times)

/-- Multiplies by a power of ten in steps that are each one rounded product or quotient by the
magnitude of a power up to `10 ^ 308`. Fails if the result is too large. -/
def scaleByTen? (m : Magnitude) (power : Int) : Option Magnitude :=
  if m.significand = 0 then some m
  else if 308 < power then none
  else if 0 ≤ power then (powerOfTen? power.toNat).bind (mul? m)
  else
    let times := ((-power).toNat - 1) / 308
    (divideRepeatedly? times m).bind fun smaller =>
      (powerOfTen? ((-power).toNat - 308 * times)).bind (div? smaller)

end Magnitude

end MediaCatalogue.Decimal
