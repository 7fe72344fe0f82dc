import MediaCatalogue.Json.Numeral
import MediaCatalogue.Text.Utf8

/-!
# JSON documents as they are written

A `Node` is a JSON document before it is checked in full: repeated fields are kept in the order of
the text, and a text or a number that cannot be represented (a surrogate without its partner, bytes
that are not UTF-8, a number beyond the largest double) is marked by `none` and does no harm where
nobody looks at it. The value of a document is `Node.value` in `Json.Embedded`.

* `Node.fits` says whether a document is not nested too deeply;
* `Node.ofJson` is the document that writes a value.
-/

namespace MediaCatalogue.Json

/-- A JSON document as it is written. -/
inductive Node where
  /-- The word `null`. -/
  | null
  /-- The word `true` or `false`. -/
  | bool (value : Bool)
  /-- A number; `none` if it is too large. -/
  | number (value : Option Number)
  /-- A text; `none` if it is none. -/
  | string (value : Option String)
  /-- A list of documents. -/
  | array (items : List Node)
  /-- Named documents in the order of the text, with repetitions. -/
  | object (fields : List (Option String × Node))
deriving Repr

namespace Node

instance : Inhabited Node := ⟨null⟩

/-- How deeply arrays and objects may be nested in a text. -/
def maxDepth : Nat := 127

/-- The document has no more than `depth` arrays and objects inside each other. -/
def fits : Nat → Node → Bool
  | 0, array _ => false
  | 0, object _ => false
  | depth + 1, array items => items.all (fits depth)
  | depth + 1, object fields => fields.all fun field => fits depth field.2
  | _, _ => true

mutual

/-- The document that writes a value. -/
def ofJson : Json → Node
  | .null => null
  | .bool value => bool value
  | .number value => number (some value)
  | .string value => string (some value)
  | .array items => array (ofItems items)
  | .object fields => object (ofFields fields)

/-- The documents that write the items of an array. -/
def ofItems : List Json → List Node
  | [] => []
  | item :: items => ofJson item :: ofItems items

/-- The documents that write the fields of an object. -/
def ofFields : List (String × Json) → List (Option String × Node)
  | [] => []
  | (name, value) :: fields => (some name, ofJson value) :: ofFields fields

end

end Node

/-! ### Texts -/

/-- A part of a written text. -/
inductive Piece where
  /-- A byte that stands for itself. -/
  | byte (value : UInt8)
  /-- A UTF-16 code unit, written by its number. -/
  | unit (value : Nat)
deriving DecidableEq, Repr

/-- The unit is the first of a pair. -/
def isHighSurrogate (unit : Nat) : Bool := 0xd800 ≤ unit && unit < 0xdc00

/-- The unit is the second of a pair. -/
def isLowSurrogate (unit : Nat) : Bool := 0xdc00 ≤ unit && unit < 0xe000

/-- The bytes that the pieces stand for, if every surrogate has its partner next to it. -/
def pieceBytes : List Piece → Option (List UInt8)
  | [] => some []
  | .byte value :: pieces => (pieceBytes pieces).map (value :: ·)
  | .unit high :: .unit low :: pieces =>
    if isHighSurrogate high then
      if isLowSurrogate low then
        let code := 0x10000 + (high - 0xd800) * 0x400 + (low - 0xdc00)
        (pieceBytes pieces).map (String.utf8EncodeChar (Char.ofNat code) ++ ·)
      else none
    else if isLowSurrogate high then none
    else (pieceBytes (.unit low :: pieces)).map (String.utf8EncodeChar (Char.ofNat high) ++ ·)
  | .unit value :: pieces =>
    if isHighSurrogate value || isLowSurrogate value then none
    else (pieceBytes pieces).map (String.utf8EncodeChar (Char.ofNat value) ++ ·)

/-- The text that the pieces write, if they write one. -/
def pieceText (pieces : List Piece) : Option String :=
  (pieceBytes pieces).bind Text.Utf8.decode

end MediaCatalogue.Json
