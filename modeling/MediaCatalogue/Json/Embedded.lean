import MediaCatalogue.Id
import MediaCatalogue.Json.Reader
import MediaCatalogue.Text.Quoted

/-!
# The values of documents

The value of a document is what it says, with one exception: an object whose first field is called
`embeddedName` stands for the document that the text in this field writes, and it must not have
other fields. In a text the first field is the one that is written first, in a value that was read
before it is the one with the least name. So an object that was read from a text, where its field of
this name came second, cannot be read again.

* `DecodeError` says what is wrong with a document;
* `Node.value` is the value of a document, for any reading of embedded texts;
* `parse` is the value that bytes write. The documents in texts are read by `parse` too, from fewer
  bytes each time.
-/

namespace MediaCatalogue.Json

/-- What is wrong with a document. -/
inductive DecodeError where
  /-- The bytes are not one document, or it cannot be represented. -/
  | notADocument
  /-- A value of another type was expected. -/
  | invalidType (got want : String)
  /-- A value of another form was expected. -/
  | invalidValue (got want : String)
  /-- A list has another number of items. -/
  | invalidLength (length : Nat) (want : String)
  /-- A record lacks a field. -/
  | missingField (name : String)
  /-- A record has a field twice. -/
  | duplicateField (name : String)
  /-- A word is none of those that are allowed. -/
  | unknownVariant (name : String) (allowed : List String)
  /-- Something else stands where a value should be. -/
  | expectedValue
  /-- A list goes on after its last item. -/
  | trailingCharacters
  /-- A text is not the code of an id. -/
  | badCode (cause : Id.CodeError)
  /-- A text is not a timestamp. -/
  | badTimestamp
  /-- A text is not a universally unique identifier. -/
  | badUuid
deriving DecidableEq, Repr

/-- The words that are allowed. -/
def oneOf (names : List String) : String :=
  let quoted := names.map fun name => "`" ++ name ++ "`"
  match quoted with
  | [one] => one
  | [one, two] => one ++ " or " ++ two
  | _ => "one of " ++ String.intercalate ", " quoted

/-- The wording of a complaint. -/
def DecodeError.message : DecodeError → String
  | notADocument => "not a JSON document"
  | invalidType got want => "invalid type: " ++ got ++ ", expected " ++ want
  | invalidValue got want => "invalid value: " ++ got ++ ", expected " ++ want
  | invalidLength length want => "invalid length " ++ toString length ++ ", expected " ++ want
  | missingField name => "missing field `" ++ name ++ "`"
  | duplicateField name => "duplicate field `" ++ name ++ "`"
  | unknownVariant name allowed => "unknown variant `" ++ name ++ "`, expected " ++ oneOf allowed
  | expectedValue => "expected value"
  | trailingCharacters => "trailing characters"
  | badCode cause => "Invalid input: " ++ cause.message
  | badTimestamp => "invalid timestamp"
  | badUuid => "UUID parsing failed"

/-- How a complaint names what it found. -/
def Node.describe : Node → String
  | null => "null"
  | bool value => "boolean `" ++ toString value ++ "`"
  | number (some (.integer value)) => "integer `" ++ toString value ++ "`"
  | number (some (.double value)) => "floating point `" ++ value.text ++ "`"
  | number none => "number"
  | string text => "string " ++ Text.quoted (text.getD "")
  | array _ => "sequence"
  | object _ => "map"

namespace Node

/-- The name of the field that holds the text of another document. -/
def embeddedName : String := "$serde_json::private::RawValue"

/-- The value of an object that holds the text of another document, and so many other fields. The
wording of what is wrong with the other document is left out. -/
def embeddedValue (parse : String → Option Json) (content : Node) (others : Nat) :
    Except DecodeError Json :=
  match content with
  | string (some text) =>
    match parse text with
    | some value =>
      if others = 0 then .ok value
      else .error (.invalidLength (others + 1) "fewer elements in map")
    | none => .error .notADocument
  | string none => .error .notADocument
  | other => .error (.invalidType other.describe "raw value")

/-- The value of an object if it holds the text of another document. -/
def embedded? (parse : String → Option Json) :
    List (Option String × Node) → Option (Except DecodeError Json)
  | (some name, content) :: others =>
    if name = embeddedName then some (embeddedValue parse content others.length) else none
  | _ => none

mutual

/-- The value of a document, if `parse` gives the values of embedded texts. -/
def value (parse : String → Option Json) : Node → Except DecodeError Json
  | null => .ok .null
  | bool value => .ok (.bool value)
  | number (some value) => .ok (.number value)
  | number none => .error .notADocument
  | string (some text) => .ok (.string text)
  | string none => .error .notADocument
  | array items => (itemValues parse items).map .array
  | object fields =>
    match embedded? parse fields with
    | some result => result
    | none => (fieldValues parse fields).map .ofFields

/-- The values of the items of an array. -/
def itemValues (parse : String → Option Json) : List Node → Except DecodeError (List Json)
  | [] => .ok []
  | item :: items => do return (← value parse item) :: (← itemValues parse items)

/-- The names and values of the fields of an object. -/
def fieldValues (parse : String → Option Json) :
    List (Option String × Node) → Except DecodeError (List (String × Json))
  | [] => .ok []
  | (none, _) :: _ => .error .notADocument
  | (some name, content) :: fields => do
    return (name, ← value parse content) :: (← fieldValues parse fields)

end

/-- The value of a document in a text, if it has one and is not nested too deeply. -/
def valueIn? (parse : String → Option Json) (depth : Nat) (node : Node) : Option Json :=
  if node.fits depth then (node.value parse).toOption else none

end Node

/-- The value that the bytes write, if they write one that can be represented. A text in them is
shorter than they are (`Json.parse_eq`). -/
def parse (bytes : List UInt8) : Option Json :=
  (read bytes).bind fun node =>
    node.valueIn? (fun text =>
      let inner := Text.Utf8.encode text
      if _h : inner.length < bytes.length then parse inner else none) Node.maxDepth
termination_by bytes.length

/-- The value that a text writes. -/
def parseText (text : String) : Option Json := parse (Text.Utf8.encode text)

end MediaCatalogue.Json
