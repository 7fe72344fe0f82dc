import MediaCatalogue.Text.Hexadecimal

/-!
# Universally unique identifiers

A `Uuid` is 32 hexadecimal digits. `Uuid.parse` reads the plain, the hyphenated, the braced and the
`urn:uuid:` form, with letters of either case; `Uuid.text` writes the hyphenated form with small
letters.
-/

namespace MediaCatalogue

/-- A universally unique identifier: the values of its 32 hexadecimal digits. -/
structure Uuid where
  /-- The digits. -/
  digits : List Nat
deriving DecidableEq, Repr

namespace Uuid

/-- Exactly 32 digits. -/
def parsePlain (cs : List Char) : Option Uuid :=
  if cs.length = 32 then (cs.mapM Text.hexDigit?).map Uuid.mk else none

/-- The lengths of the groups between the hyphens. -/
def groups : List Nat := [8, 4, 4, 4, 12]

/-- Takes groups of the given lengths, with a hyphen between two groups and nothing after the last
one. -/
def splitGroups : List Nat → List Char → Option (List Char)
  | [], _ => none
  | [size], cs => if cs.length = size then some cs else none
  | size :: sizes, cs =>
    if (cs.drop size).head? = some '-' then
      (splitGroups sizes (cs.drop (size + 1))).map (cs.take size ++ ·)
    else none

/-- Groups of digits with hyphens between them. -/
def parseHyphenated (cs : List Char) : Option Uuid :=
  (splitGroups groups cs).bind parsePlain

/-- The characters in front of a hyphenated identifier that is written as a name, in small
letters. -/
def nameStart : List Char := "urn:uuid:".toList

/-- The text is written as a name; the letters of the start may be of either case. -/
def isName (cs : List Char) : Bool := nameStart.isPrefixOf (cs.map Char.toLower)

/-- Reads an identifier in any of its forms. -/
def parse (text : String) : Option Uuid :=
  let cs := text.toList
  match cs with
  | '{' :: rest => if rest.getLast? = some '}' then parseHyphenated rest.dropLast else none
  | _ =>
    if isName cs then parseHyphenated (cs.drop nameStart.length)
    else if cs.length = 32 then parsePlain cs
    else parseHyphenated cs

/-- The digits in groups, with hyphens between them. -/
def joinGroups : List Nat → List Char → List Char
  | [], _ => []
  | [_], cs => cs
  | size :: sizes, cs => cs.take size ++ '-' :: joinGroups sizes (cs.drop size)

/-- The hyphenated form. -/
def text (uuid : Uuid) : String :=
  String.ofList (joinGroups groups (uuid.digits.map Nat.digitChar))

end Uuid

end MediaCatalogue
