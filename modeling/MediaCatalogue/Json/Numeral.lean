import MediaCatalogue.Json.Value
import MediaCatalogue.Word

/-!
# Numbers as they are written in JSON

A `Numeral` holds the parts of a written number. `Numeral.value?` is its value:

* a whole number that fits 64 bits, signed or unsigned, stays one, except for the negative zero;
* any other number becomes a double. Its digits are read into a 64-bit number for as long as they
  fit (`absorb`); the digits after that only count for the place of the decimal point. The number is
  rounded once, and then scaled by its power of ten;
* a number that is too large for a double has no value.
-/

namespace MediaCatalogue.Json

open Decimal

/-- The parts of a written number. -/
structure Numeral where
  /-- There is a minus sign. -/
  negative : Bool := false
  /-- The digits before the point. -/
  whole : List Nat := []
  /-- The digits behind the point, if there is one. -/
  fraction : Option (List Nat) := none
  /-- The exponent, if there is one. -/
  exponent : Option Int := none
deriving DecidableEq, Repr

/-- Reads digits after a number that fits 64 bits for as long as the result fits; gives the number,
and how many digits were left over. -/
def absorb (kept : Nat) : List Nat → Nat × Nat
  | [] => (kept, 0)
  | digit :: digits =>
    if kept * 10 + digit < Word.limit64 then absorb (kept * 10 + digit) digits
    else (kept, digits.length + 1)

namespace Numeral

/-- The digits that count and the power of ten to scale them by. -/
def parts (n : Numeral) : Nat × Int :=
  let (kept, dropped) := absorb 0 n.whole
  let digits := n.fraction.getD []
  let (kept, unread) := absorb kept digits
  (kept, (dropped : Int) - ((digits.length - unread : Nat) : Int) + n.exponent.getD 0)

/-- The number as a double. -/
def double? (n : Numeral) : Option Binary64 :=
  let (kept, power) := n.parts
  ((Magnitude.ofRatio? kept 1).bind (Magnitude.scaleByTen? · power)).map (⟨n.negative, ·⟩)

/-- The number as a whole number, if it is written as one, fits 64 bits, and is not the negative
zero. -/
def integer? (n : Numeral) : Option Int :=
  if n.fraction.isSome || n.exponent.isSome then none
  else
    match absorb 0 n.whole with
    | (kept, 0) =>
      if !n.negative then some kept
      else if 0 < kept ∧ kept ≤ Word.signedLimit then some (-kept) else none
    | _ => none

/-- The value of a written number. -/
def value? (n : Numeral) : Option Number :=
  match n.integer? with
  | some value => some (.integer value)
  | none => n.double?.map .double

end Numeral

end MediaCatalogue.Json
