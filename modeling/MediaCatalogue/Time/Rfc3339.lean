import MediaCatalogue.Text.Blank
import MediaCatalogue.Time.Instant

/-!
# Reading timestamps

`Instant.parse` reads a date, a time of day and an offset from UTC in a relaxed form of RFC 3339.
White space may stand before each number and each separator and around the whole; numbers may be
short; the year may have a sign and then any number of digits; a second 60 is a leap second in any
minute.
-/

namespace MediaCatalogue.Time

open Text

/-- A reader of a part of a timestamp: what it read, and the characters after it. -/
abbrev Part (α : Type) := List Char → Option (α × List Char)

/-- The value of decimal digits. -/
def decimal (digits : List Char) : Nat :=
  digits.foldl (fun n c => n * 10 + (c.toNat - '0'.toNat)) 0

/-- White space, then a number of at least one and at most `width` digits. -/
def number (width : Nat) : Part Nat := fun cs =>
  let digits := ((trimStart cs).take width).takeWhile Char.isDigit
  if digits.isEmpty then none else some (decimal digits, (trimStart cs).drop digits.length)

/-- White space, then a year. -/
def year : Part Int := fun cs =>
  match trimStart cs with
  | '-' :: rest => if (rest.head?.any Char.isDigit) then
      (number rest.length rest).map fun (n, rest) => (-(n : Int), rest) else none
  | '+' :: rest => if (rest.head?.any Char.isDigit) then
      (number rest.length rest).map fun (n, rest) => ((n : Int), rest) else none
  | rest => (number 4 rest).map fun (n, rest) => ((n : Int), rest)

/-- White space, then one character. -/
def mark (c : Char) : Part Unit := fun cs =>
  match trimStart cs with
  | d :: rest => if d = c then some ((), rest) else none
  | [] => none

/-- The separator between date and time. -/
def dateEnd : Part Unit
  | c :: rest => if c = 'T' ∨ c = 't' ∨ c = ' ' then some ((), rest) else none
  | [] => none

/-- A point and at least one digit, as nanoseconds; digits after the ninth do not count. -/
def fraction : Part Nat
  | '.' :: cs =>
    let digits := cs.takeWhile Char.isDigit
    if digits.isEmpty then none
    else
      let kept := digits.take 9
      some (decimal kept * Nat.pow 10 (9 - kept.length), cs.drop digits.length)
  | cs => some (0, cs)

/-- Two digits. -/
def twoDigits : Part Nat
  | a :: b :: rest => if a.isDigit && b.isDigit then some (decimal [a, b], rest) else none
  | _ => none

/-- The offset from UTC in seconds. -/
def offset : Part Int := fun cs =>
  match trimStart cs with
  | [] => none
  | c :: rest =>
    if c = 'Z' ∨ c = 'z' then some (0, rest)
    else if ((c :: rest).take 3).map Char.toUpper = ['U', 'T', 'C'] then some (0, rest.drop 2)
    else do
      let size : Int ←
        if c = '+' then some 1 else if c = '-' ∨ c = '\u2212' then some (-1) else none
      let (hours, rest) ← twoDigits rest
      let (minutes, rest) ← twoDigits (rest.dropWhile fun c => c = ':' || isBlank c)
      if minutes < 60 ∧ hours < 24 then some (size * (hours * 3600 + minutes * 60), rest) else none

/-- A date that exists. -/
def date : Part Date := fun cs => do
  let (year, cs) ← year cs
  let ((), cs) ← mark '-' cs
  let (month, cs) ← number 2 cs
  let ((), cs) ← mark '-' cs
  let (day, cs) ← number 2 cs
  let date : Date := ⟨year, month, day⟩
  if date.exists? then some (date, cs) else none

/-- A time of day: seconds since midnight and nanoseconds. -/
def timeOfDay : Part (Nat × Nat) := fun cs => do
  let (hour, cs) ← number 2 cs
  let ((), cs) ← mark ':' cs
  let (minute, cs) ← number 2 cs
  let ((), cs) ← mark ':' cs
  let (second, cs) ← number 2 cs
  let (nanos, cs) ← fraction cs
  if hour < 24 ∧ minute < 60 then
    if second < 60 then some ((hour * 3600 + minute * 60 + second, nanos), cs)
    else if second = 60 then some ((hour * 3600 + minute * 60 + 59, 1000000000 + nanos), cs)
    else none
  else none

end MediaCatalogue.Time

namespace MediaCatalogue.Instant

open Time

/-- Reads a timestamp. -/
def parse (text : String) : Option Instant := do
  let (date, cs) ← Time.date text.toList
  let ((), cs) ← dateEnd cs
  let ((seconds, nanos), cs) ← timeOfDay cs
  let (offset, cs) ← Time.offset cs
  if (Text.trimStart cs).isEmpty then
    let seconds := date.dayNumber * daySeconds + seconds - offset
    if (Date.ofDayNumber (seconds / daySeconds)).inRange then some ⟨seconds, nanos⟩ else none
  else none

end MediaCatalogue.Instant
