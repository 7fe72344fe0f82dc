import MediaCatalogue.Json.Embedded
import MediaCatalogue.Time.Rfc3339
import MediaCatalogue.Uuid

/-!
# From documents to typed values

A `Decoder` turns a document into a typed value or says what is wrong with it. Documents come from
two origins with slightly different complaints: from a text, where fields are met in the order of
the text and may be repeated, and from a value that was read before, where every field occurs once,
in ascending order.

* `Decoder.record` reads a record from an object or from the list of its fields. In an object the
  fields are checked in the order of the document: unknown fields are skipped unseen, a repeated one
  is a fault, and afterwards missing ones are looked for in the order of the record;
* `Decoder.choice` reads one of some words, alone or as the only field of an object whose value is
  `null`;
* `Decoder.run` decodes bytes. If the bytes are not one valid document that is the only complaint.
-/

namespace MediaCatalogue.Json

/-- Where a document comes from. -/
inductive Origin where
  /-- It is read from a text. -/
  | text
  /-- It is a value that was read before. -/
  | value
deriving DecidableEq, Repr

/-- Turns a document into a typed value. -/
abbrev Decoder (α : Type) := Origin → Node → Except DecodeError α

namespace Decoder

/-- A text, which complaints call `want`. -/
def textAs (want : String) : Decoder String := fun _ node =>
  match node with
  | .string (some text) => .ok text
  | .string none => .error .notADocument
  | other => .error (.invalidType other.describe want)

/-- A text. -/
def text : Decoder String := textAs "a string"

/-- The code of an id. -/
def id : Decoder Id := fun origin node => do
  match Id.ofCode (← text origin node) with
  | .ok id => .ok id
  | .error cause => .error (.badCode cause)

/-- A timestamp. -/
def instant : Decoder Instant := fun origin node => do
  match Instant.parse (← textAs "an RFC 3339 formatted date and time string" origin node) with
  | some instant => .ok instant
  | none => .error .badTimestamp

/-- A universally unique identifier. -/
def uuid : Decoder Uuid := fun origin node => do
  match Uuid.parse (← textAs "a formatted UUID string" origin node) with
  | some uuid => .ok uuid
  | none => .error .badUuid

/-- Something, or `null`. -/
def optional {α : Type} (decoder : Decoder α) : Decoder (Option α) := fun origin node =>
  match node with
  | .null => .ok none
  | other => (decoder origin other).map some

/-- Any value, in a place that lies inside `level` arrays and objects. Only in a text they are
counted. -/
def value (level : Nat) : Decoder Json := fun origin node =>
  match origin with
  | .text =>
    match node.valueIn? parseText (Node.maxDepth - level) with
    | some value => .ok value
    | none => .error .notADocument
  | .value => node.value parseText

/-- A list. -/
def list {α : Type} (decoder : Decoder α) : Decoder (List α) := fun origin node =>
  match node with
  | .array items => items.mapM (decoder origin)
  | other => .error (.invalidType other.describe "a sequence")

/-- The meaning of a word. -/
def lookupWord {α : Type} (words : List (String × α)) (word : String) : Except DecodeError α :=
  match words.lookup word with
  | some meaning => .ok meaning
  | none => .error (.unknownVariant word (words.map Prod.fst))

/-- Only `null` may stand behind a word that is the name of a field. -/
def checkUnit : Node → Except DecodeError Unit
  | .null => .ok ()
  | other => .error (.invalidType other.describe "unit")

/-- One of some words, each with its meaning. -/
def choice {α : Type} (words : List (String × α)) : Decoder α := fun origin node =>
  match origin, node with
  | _, .string (some word) => lookupWord words word
  | _, .string none => .error .notADocument
  | _, .object [(some word, node)] => do
    let meaning ← lookupWord words word
    checkUnit node
    return meaning
  | .text, .object ((some word, node) :: _) => do
    let _ ← lookupWord words word
    checkUnit node
    .error .expectedValue
  | .text, _ => .error .expectedValue
  | .value, .object _ => .error (.invalidValue "map" "map with a single key")
  | .value, other => .error (.invalidType other.describe "string or map")

/-! ### Records -/

/-- A field of a record of type `α`. -/
structure Field (α : Type) where
  /-- Its name. -/
  name : String
  /-- It may be missing from an object. -/
  mayMiss : Bool
  /-- It may be missing at the end of a list. -/
  mayMissInList : Bool
  /-- Decodes the value of the field and puts it into the record. -/
  put : Origin → Node → α → Except DecodeError α

variable {α β : Type}

/-- Decodes a value and puts it into a record. -/
def putWith (decoder : Decoder β) (set : β → α → α) : Origin → Node → α → Except DecodeError α :=
  fun origin node record => (decoder origin node).map (set · record)

/-- A field that must be there. -/
def required (name : String) (decoder : Decoder β) (set : β → α → α) : Field α :=
  ⟨name, false, false, putWith decoder set⟩

/-- A field that may be missing from an object or be `null`, but has its place in a list. -/
def optionalField (name : String) (decoder : Decoder β) (set : Option β → α → α) : Field α :=
  ⟨name, true, false, putWith (optional decoder) set⟩

/-- A field that may be missing. -/
def defaulted (name : String) (decoder : Decoder β) (set : β → α → α) : Field α :=
  ⟨name, true, true, putWith decoder set⟩

/-- The fields of an object one after the other, with the names that were seen before. -/
def readFields (fields : List (Field α)) (origin : Origin) :
    List (Option String × Node) → List String → α → Except DecodeError (List String × α)
  | [], seen, record => .ok (seen, record)
  | (none, _) :: _, _, _ => .error .notADocument
  | (some name, node) :: rest, seen, record =>
    match fields.find? (·.name = name) with
    | none => readFields fields origin rest seen record
    | some field =>
      if seen.contains name then .error (.duplicateField name)
      else do readFields fields origin rest (name :: seen) (← field.put origin node record)

/-- Every field that must be there was seen. -/
def checkMissing (fields : List (Field α)) (seen : List String) : Except DecodeError Unit :=
  match fields.find? fun field => !field.mayMiss && !seen.contains field.name with
  | some field => .error (.missingField field.name)
  | none => .ok ()

/-- How many elements a record has. -/
def elements (name : String) (count : Nat) : String :=
  "struct " ++ name ++ " with " ++ toString count ++ (if count = 1 then " element" else " elements")

/-- The items of a list as the fields of a record in order; `index` items were read before. Gives
the record and the items that are left. -/
def readItems (want : String) (origin : Origin) :
    List (Field α) → List Node → Nat → α → Except DecodeError (α × List Node)
  | [], items, _, record => .ok (record, items)
  | field :: fields, [], index, record =>
    if field.mayMissInList then readItems want origin fields [] (index + 1) record
    else .error (.invalidLength index want)
  | field :: fields, item :: items, index, record => do
    readItems want origin fields items (index + 1) (← field.put origin item record)

/-- A record called `name`. The fields that the document has replace those of `blank`. -/
def record (name : String) (fields : List (Field α)) (blank : α) : Decoder α := fun origin node =>
  match node with
  | .object members => do
    let (seen, record) ← readFields fields origin members [] blank
    checkMissing fields seen
    return record
  | .array items => do
    let (record, rest) ← readItems (elements name fields.length) origin fields items 0 blank
    match rest, origin with
    | [], _ => .ok record
    | _, .text => .error .trailingCharacters
    | _, .value => .error (.invalidLength items.length "fewer elements in array")
  | other => .error (.invalidType other.describe ("struct " ++ name))

/-! ### Bytes and values -/

/-- Decodes bytes. -/
def run (decoder : Decoder α) (bytes : List UInt8) : Except DecodeError α :=
  match read bytes with
  | none => .error .notADocument
  | some node =>
    match decoder .text node with
    | .ok value => .ok value
    | .error cause =>
      if (node.valueIn? parseText Node.maxDepth).isSome then .error cause else .error .notADocument

/-- Decodes a value that was read before. -/
def runValue (decoder : Decoder α) (value : Json) : Except DecodeError α :=
  decoder .value (Node.ofJson value)

end Decoder

end MediaCatalogue.Json
