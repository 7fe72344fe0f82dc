import MediaCatalogue.Text.Blank
import MediaCatalogue.Text.Hexadecimal

/-!
# Texts in TOML

A text stands between double quotes, where a backslash has a meaning, or between single quotes,
where it has none; three quotes instead of one make it go over several lines. `Reader.text` reads a
text one character at a time.

* A line break right after three opening quotes does not count, and one in the text is always a line
  feed;
* a backslash at the end of a line drops all white space up to the next character;
* up to two quotes may stand directly before three closing ones.
-/

namespace MediaCatalogue.Toml.Reader

/-- A reader of a part of a document: what it read, and the characters after it. -/
abbrev Part (α : Type) := List Char → Option (α × List Char)

/-- The character may stand in comments and texts: it is a tab, or no control character. -/
def isPlain (c : Char) : Bool := c == '\t' || (0x20 ≤ c.toNat && c.toNat != 0x7f)

/-- The character is white space inside a line. -/
def isSpace (c : Char) : Bool := c == ' ' || c == '\t'

/-- The character that a letter after a backslash stands for. -/
def escaped? (c : Char) : Option Char :=
  match c with
  | 'b' => some '\x08'
  | 't' => some '\t'
  | 'n' => some '\n'
  | 'f' => some '\x0c'
  | 'r' => some '\r'
  | '"' => some '"'
  | '\\' => some '\\'
  | _ => none

/-- The character of a code point, if it has one. -/
def charOf? (code : Nat) : Option Char := if code.isValidChar then some (Char.ofNat code) else none

/-- How a text is quoted. -/
structure Quotes where
  /-- The quote. -/
  quote : Char
  /-- The text may go over several lines. -/
  multiline : Bool

/-- A backslash has a meaning. -/
def Quotes.escapes (q : Quotes) : Bool := q.quote == '"'

/-- Where a reader of a text stands. -/
inductive Mode where
  /-- After a character. -/
  | plain
  /-- After a backslash. -/
  | escape
  /-- After a backslash and a letter, with `left + 1` digits to come; those before are worth
  `value`. -/
  | code (left value : Nat)
  /-- After some quotes. -/
  | quotes (count : Nat)
  /-- After a carriage return that belongs to a line break. -/
  | lineBreak
  /-- In the white space that a backslash drops; `broken` if a line break was among it. -/
  | dropping (broken : Bool)
  /-- After a carriage return in that white space. -/
  | droppingBreak

/-- A character of the text: what it stands for, and what comes after it. -/
def plainStep (q : Quotes) (c : Char) : Option (List Char × Mode) :=
  if c == q.quote then some ([], .quotes 1)
  else if c == '\\' && q.escapes then some ([], .escape)
  else if c == '\n' && q.multiline then some (['\n'], .plain)
  else if c == '\r' && q.multiline then some ([], .lineBreak)
  else if isPlain c then some ([c], .plain)
  else none

/-- A character in white space that a backslash drops. -/
def dropStep (q : Quotes) (broken : Bool) (c : Char) : Option (List Char × Mode) :=
  if isSpace c then some ([], .dropping broken)
  else if c == '\n' then some ([], .dropping true)
  else if c == '\r' then some ([], .droppingBreak)
  else if broken then plainStep q c
  else none

/-- One character more. -/
def step (q : Quotes) (mode : Mode) (c : Char) : Option (List Char × Mode) :=
  match mode with
  | .plain => plainStep q c
  | .escape =>
    if c == 'u' then some ([], .code 3 0)
    else if c == 'U' then some ([], .code 7 0)
    else
      match escaped? c with
      | some d => some ([d], .plain)
      | none => if q.multiline then dropStep q false c else none
  | .code left value => do
    let value := value * 16 + (← Text.hexDigit? c)
    match left with
    | 0 => return ([← charOf? value], .plain)
    | left + 1 => return ([], .code left value)
  | .quotes count =>
    if c == q.quote then some ([], .quotes (count + 1))
    else (plainStep q c).map fun (read, mode) => (List.replicate count q.quote ++ read, mode)
  | .lineBreak => if c == '\n' then some (['\n'], .plain) else none
  | .dropping broken => dropStep q broken c
  | .droppingBreak => if c == '\n' then some ([], .dropping true) else none

/-- The text is complete before the character `next`: gives the quotes that belong to it. -/
def complete? (q : Quotes) (mode : Mode) (next : Option Char) : Option (List Char) :=
  match mode with
  | .quotes count =>
    if !q.multiline then some []
    else if 3 ≤ count && (count == 5 || next != some q.quote) then
      some (List.replicate (count - 3) q.quote)
    else none
  | _ => none

/-- The rest of a text, after its opening quotes. -/
def textFrom (q : Quotes) : Mode → Part (List Char)
  | mode, [] => (complete? q mode none).map (·, [])
  | mode, c :: cs =>
    match complete? q mode (some c) with
    | some quotes => some (quotes, c :: cs)
    | none => do
      let (read, mode) ← step q mode c
      let (text, rest) ← textFrom q mode cs
      return (read ++ text, rest)

/-- A line break. -/
def lineBreak? : List Char → Option (List Char)
  | '\n' :: cs => some cs
  | '\r' :: '\n' :: cs => some cs
  | _ => none

/-- A text on one line. -/
def lineText : Part (List Char)
  | '"' :: cs => textFrom ⟨'"', false⟩ .plain cs
  | '\'' :: cs => textFrom ⟨'\'', false⟩ .plain cs
  | _ => none

/-- A text. -/
def text : Part (List Char)
  | '"' :: '"' :: '"' :: cs => textFrom ⟨'"', true⟩ .plain ((lineBreak? cs).getD cs)
  | '\'' :: '\'' :: '\'' :: cs => textFrom ⟨'\'', true⟩ .plain ((lineBreak? cs).getD cs)
  | cs => lineText cs

end MediaCatalogue.Toml.Reader
