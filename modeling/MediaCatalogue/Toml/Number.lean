import MediaCatalogue.Decimal.Binary64
import MediaCatalogue.Time.Civil
import MediaCatalogue.Toml.Text
import MediaCatalogue.Toml.Value
import MediaCatalogue.Word

/-!
# Numbers, dates and times in TOML

Whole numbers have 64 bits and may be written with base 16, 8 or 2. Digits may be grouped by single
underscores. A number with a fraction or an exponent must not lie above the largest double. Dates
must be in the calendar.

* `Reader.number` reads whatever begins with a digit or a sign.
-/

namespace MediaCatalogue.Toml.Reader

/-- Digits after a first digit, without the underscores between them. -/
def moreDigits (isDigit : Char → Bool) : List Char → List Char × List Char
  | '_' :: d :: cs =>
    if isDigit d then
      let (digits, rest) := moreDigits isDigit cs
      (d :: digits, rest)
    else ([], '_' :: d :: cs)
  | c :: cs =>
    if isDigit c then
      let (digits, rest) := moreDigits isDigit cs
      (c :: digits, rest)
    else ([], c :: cs)
  | [] => ([], [])

/-- At least one digit. -/
def digits (isDigit : Char → Bool) : Part (List Char)
  | c :: cs => if isDigit c then some ((moreDigits isDigit (c :: cs))) else none
  | [] => none

/-- A sign; the number is below zero if it is a minus. -/
def sign : List Char → Bool × List Char
  | '+' :: cs => (false, cs)
  | '-' :: cs => (true, cs)
  | cs => (false, cs)

/-- Digits without a leading zero, or one zero. -/
def wholeDigits : Part (List Char)
  | '0' :: cs => some (['0'], cs)
  | cs => digits Char.isDigit cs

/-- The value of digits. -/
def valueOf (base : Nat) (digits : List Char) : Nat :=
  digits.foldl (fun n c => n * base + (Text.hexDigit? c).getD 0) 0

/-- A whole number that fits 64 bits. -/
def checkedInteger (value : Int) : Option Toml :=
  if Word.fits value then some (.integer value) else none

/-- A whole number with another base than ten. -/
def basedInteger (base : Nat) (isDigit : Char → Bool) : Part Toml := fun cs => do
  let (digits, rest) ← digits isDigit cs
  return (← checkedInteger (valueOf base digits), rest)

/-- A whole number. -/
def integer : Part Toml
  | '0' :: 'x' :: cs => basedInteger 16 (fun c => (Text.hexDigit? c).isSome) cs
  | '0' :: 'o' :: cs => basedInteger 8 (fun c => '0' ≤ c && c ≤ '7') cs
  | '0' :: 'b' :: cs => basedInteger 2 (fun c => c == '0' || c == '1') cs
  | cs => do
    let (negative, cs) := sign cs
    let (digits, rest) ← wholeDigits cs
    let value : Int := valueOf 10 digits
    return (← checkedInteger (if negative then -value else value), rest)

/-- A point and digits. -/
def fraction : Part (List Char)
  | '.' :: cs => digits Char.isDigit cs
  | _ => none

/-- An exponent. -/
def exponent : Part Int
  | c :: cs =>
    if c == 'e' || c == 'E' then do
      let (negative, cs) := sign cs
      let (digits, rest) ← digits Char.isDigit cs
      let size : Int := valueOf 10 digits
      return (if negative then -size else size, rest)
    else none
  | [] => none

/-- The number `digits * 10 ^ power` is not above the largest double. -/
def isFinite (digits : List Char) (power : Int) : Bool :=
  let significant := digits.dropWhile (· == '0')
  let point := (significant.length : Int) + power
  if significant.isEmpty || point < 300 then true
  else if 400 < point then false
  else
    let value := valueOf 10 significant
    let (num, den) :=
      if 0 ≤ power then (value * Nat.pow 10 power.toNat, 1) else (value, Nat.pow 10 (-power).toNat)
    (Decimal.Magnitude.ofRatio? num den).isSome

/-- What was read up to `rest`. -/
def readText (cs rest : List Char) : String := String.ofList (cs.take (cs.length - rest.length))

/-- A number with a fraction or an exponent. -/
def decimalFloat : Part Toml := fun cs => do
  let (negative, afterSign) := sign cs
  let (whole, rest) ← wholeDigits afterSign
  let (decimals, power, rest) ←
    match fraction rest with
    | some (decimals, rest) =>
      match exponent rest with
      | some (power, rest) => some (decimals, power, rest)
      | none => some (decimals, 0, rest)
    | none => (exponent rest).map fun (power, rest) => ([], power, rest)
  if negative || isFinite (whole ++ decimals) (power - decimals.length) then
    return (.float (readText cs rest), rest)
  else none

/-- An infinity, or what is no number. -/
def specialFloat : Part Toml := fun cs =>
  match (sign cs).2 with
  | 'i' :: 'n' :: 'f' :: rest => some (.float (readText cs rest), rest)
  | 'n' :: 'a' :: 'n' :: rest => some (.float (readText cs rest), rest)
  | _ => none

/-! ### Dates and times -/

/-- A number of exactly `count` digits. -/
def fixed (count : Nat) : Part Nat := fun cs =>
  let digits := cs.take count
  if digits.length = count ∧ digits.all Char.isDigit then some (valueOf 10 digits, cs.drop count)
  else none

/-- One character. -/
def mark (c : Char) : Part Unit
  | d :: cs => if d = c then some ((), cs) else none
  | [] => none

/-- A date. -/
def date : Part Unit := fun cs => do
  let (year, cs) ← fixed 4 cs
  let ((), cs) ← mark '-' cs
  let (month, cs) ← fixed 2 cs
  let ((), cs) ← mark '-' cs
  let (day, cs) ← fixed 2 cs
  if (Time.Date.mk year month day).exists? then some ((), cs) else none

/-- An hour and a minute. -/
def hourMinute : Part Unit := fun cs => do
  let (hour, cs) ← fixed 2 cs
  let ((), cs) ← mark ':' cs
  let (minute, cs) ← fixed 2 cs
  if hour < 24 ∧ minute < 60 then some ((), cs) else none

/-- Drops a point and digits, if there are some. -/
def dropFraction : List Char → List Char
  | '.' :: c :: cs => if c.isDigit then cs.dropWhile Char.isDigit else '.' :: c :: cs
  | cs => cs

/-- A time of day. -/
def time : Part Unit := fun cs => do
  let ((), cs) ← hourMinute cs
  let ((), cs) ← mark ':' cs
  let (second, cs) ← fixed 2 cs
  if second ≤ 60 then some ((), dropFraction cs) else none

/-- Drops an offset from UTC, if there is one. -/
def dropOffset : List Char → List Char
  | c :: cs =>
    if c == 'Z' || c == 'z' then cs
    else if c == '+' || c == '-' then ((hourMinute cs).map Prod.snd).getD (c :: cs)
    else c :: cs
  | [] => []

/-- The rest of a date: a time of day, if there is one. -/
def dropTime : List Char → List Char
  | c :: cs =>
    if c == 'T' || c == 't' || c == ' ' then
      match time cs with
      | some ((), rest) => dropOffset rest
      | none => c :: cs
    else c :: cs
  | [] => []

/-- A date, a time, or both. -/
def datetime : Part Toml := fun cs =>
  match date cs with
  | some ((), rest) => some (.datetime (readText cs (dropTime rest)), dropTime rest)
  | none => (time cs).map fun ((), rest) => (.datetime (readText cs rest), rest)

/-- Whatever begins with a digit or a sign. -/
def number : Part Toml := fun cs =>
  datetime cs <|> decimalFloat cs <|> specialFloat cs <|> integer cs

end MediaCatalogue.Toml.Reader
