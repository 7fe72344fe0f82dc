import MediaCatalogue.Time.Civil
import MediaCatalogue.Word

/-!
# Points in time

An `Instant` counts seconds since the start of 1970 (UTC) and has a part of a second in nanoseconds.
The part is below `10 ^ 9`, except within a leap second, which is kept in the second before it with
a part of `10 ^ 9` or more.

* `Instant.nanos?` is the number of nanoseconds since 1970, if a signed 64-bit number can hold it; a
  leap second has the same count as the second after it;
* `Instant.ofNanos` is the instant of such a number;
* `Instant.millis` counts milliseconds, rounded down;
* `Instant.rfc3339` and `Instant.display` are the two ways of writing an instant.
-/

namespace MediaCatalogue

open Time

/-- A point in time. -/
structure Instant where
  /-- Whole seconds since the start of 1970. -/
  seconds : Int
  /-- Nanoseconds in the second; a billion or more within a leap second. -/
  fraction : Nat
deriving DecidableEq, Repr

namespace Instant

instance : Inhabited Instant := ⟨⟨0, 0⟩⟩

/-- Nanoseconds in a second. -/
def billion : Int := 1000000000

/-- Seconds in a day. -/
def daySeconds : Int := 86400

/-- Nanoseconds since the start of 1970. They are computed in signed 64-bit steps: the seconds are
scaled first, before 1970 one second later and with a part that is a second less, so that only
counts outside 64 bits are lost. -/
def nanos? (t : Instant) : Option Int :=
  let later := t.seconds < 0
  let seconds := if later then t.seconds + 1 else t.seconds
  let fraction : Int := if later then t.fraction - billion else t.fraction
  let scaled := seconds * billion
  if Word.fits scaled && Word.fits (scaled + fraction) then some (scaled + fraction) else none

/-- The instant that lies a number of nanoseconds after the start of 1970. -/
def ofNanos (nanos : Int) : Instant :=
  ⟨nanos / billion, (nanos % billion).toNat⟩

/-- Milliseconds since the start of 1970, rounded down. -/
def millis (t : Instant) : Int := t.seconds * 1000 + (t.fraction / 1000000 : Nat)

/-! ### Text -/

/-- A number with at least `width` digits. -/
def padded (width n : Nat) : String :=
  let digits := Nat.toDigits 10 n
  String.ofList (List.replicate (width - digits.length) '0' ++ digits)

/-- A year: four digits from 0 to 9999, else a sign and at least four digits. -/
def yearText (year : Int) : String :=
  if 0 ≤ year ∧ year ≤ 9999 then padded 4 year.toNat
  else (if year < 0 then "-" else "+") ++ padded 4 year.natAbs

/-- A part of a second with 0, 3, 6 or 9 digits, the fewest that are exact. -/
def fractionText (nanos : Nat) : String :=
  if nanos = 0 then ""
  else if nanos % 1000000 = 0 then "." ++ padded 3 (nanos / 1000000)
  else if nanos % 1000 = 0 then "." ++ padded 6 (nanos / 1000)
  else "." ++ padded 9 nanos

/-- The date and the time of day, with `separator` between them. A leap second is the second 60. -/
def text (separator : String) (t : Instant) : String :=
  let date := Date.ofDayNumber (t.seconds / daySeconds)
  let time := (t.seconds % daySeconds).toNat
  let leap := 1000000000 ≤ t.fraction
  let second := if leap then time % 60 + 1 else time % 60
  let nanos := if leap then t.fraction - 1000000000 else t.fraction
  yearText date.year ++ "-" ++ padded 2 date.month ++ "-" ++ padded 2 date.day ++ separator ++
    padded 2 (time / 3600) ++ ":" ++ padded 2 (time / 60 % 60) ++ ":" ++ padded 2 second ++
    fractionText nanos

/-- The text of an instant in events and answers. -/
def rfc3339 (t : Instant) : String := t.text "T" ++ "Z"

/-- The text of an instant in messages. -/
def display (t : Instant) : String := t.text " " ++ " UTC"

end Instant

end MediaCatalogue
