import MediaCatalogue.Time.Instant

/-!
# Durations

A `Duration` is a number of nanoseconds. `Duration.text` writes it in the largest of the units
second, millisecond, microsecond and nanosecond that is not larger than it, with as many decimals as
it needs.
-/

namespace MediaCatalogue

/-- A length of time. -/
structure Duration where
  /-- Nanoseconds. -/
  nanos : Nat
deriving DecidableEq, Repr

namespace Duration

/-- The duration of some milliseconds. -/
def ofMillis (millis : Nat) : Duration := ⟨millis * 1000000⟩

/-- Whole milliseconds. -/
def millis (d : Duration) : Nat := d.nanos / 1000000

/-- `amount / scale` with the decimals it needs; `scale` is ten to the power `places`. -/
def inUnit (amount scale places : Nat) (unit : String) : String :=
  let decimals := (Instant.padded places (amount % scale)).toList
  let kept := (decimals.reverse.dropWhile (· = '0')).reverse
  toString (amount / scale) ++ (if kept.isEmpty then "" else "." ++ String.ofList kept) ++ unit

/-- The text of a duration. -/
def text (d : Duration) : String :=
  if 1000000000 ≤ d.nanos then inUnit d.nanos 1000000000 9 "s"
  else if 1000000 ≤ d.nanos then inUnit d.nanos 1000000 6 "ms"
  else if 1000 ≤ d.nanos then inUnit d.nanos 1000 3 "µs"
  else toString d.nanos ++ "ns"

end Duration

end MediaCatalogue
