import MediaCatalogue.Fault
import MediaCatalogue.Publisher
import MediaCatalogue.Resolved

/-!
# Content and topics

`Content` is one publisher's record of one work; its attributes are opaque. A `Topic` is a tag of a
publisher.
-/

namespace MediaCatalogue

/-- The kinds of content. -/
inductive ContentKind where
  /-- A single work. -/
  | item
  /-- A part of a series. -/
  | episode
  /-- A group of series. -/
  | brand
  /-- A group of episodes. -/
  | series
  /-- A film. -/
  | film
deriving DecidableEq, Repr, Inhabited

namespace ContentKind

/-- The word for a kind. -/
def word : ContentKind → String
  | item => "item"
  | episode => "episode"
  | brand => "brand"
  | series => "series"
  | film => "film"

/-- All kinds. -/
def all : List ContentKind := [item, episode, brand, series, film]

/-- All kinds with their words. -/
def words : List (String × ContentKind) := all.map fun kind => (kind.word, kind)

/-- The kind for a word. -/
def ofWord (word : String) : Except Fault ContentKind :=
  match words.lookup word with
  | some kind => .ok kind
  | none => .error (.invalidInput (.unknownKind word))

/-- Reads a kind. -/
def decoder : Json.Decoder ContentKind := .choice words

end ContentKind

/-- One publisher's record of one work. -/
structure Content where
  /-- The id. -/
  id : Id
  /-- The publisher of the record. -/
  publisher : Publisher
  /-- The kind of work. -/
  kind : ContentKind
  /-- The title. -/
  title : Option String
  /-- When the publisher last changed the record. -/
  lastUpdated : Instant
  /-- Everything else. -/
  attributes : Json
deriving DecidableEq, Repr, Inhabited

namespace Content

instance : Identified Content := ⟨id⟩

open Json.Decoder in
/-- Reads a record. -/
def decoder : Json.Decoder Content :=
  record "Content"
    [required "id" Json.Decoder.id fun id c => { c with id },
     required "publisher" Publisher.decoder fun publisher c => { c with publisher },
     required "kind" ContentKind.decoder fun kind c => { c with kind },
     optionalField "title" text fun title c => { c with title },
     required "last_updated" instant fun lastUpdated c => { c with lastUpdated },
     defaulted "attributes" (value 1) fun attributes c => { c with attributes }]
    default

/-- The value that writes a record. -/
def toJson (c : Content) : Json :=
  .object [("id", .string c.id.code), ("publisher", c.publisher.toJson),
    ("kind", .string c.kind.word), ("title", .ofText? c.title),
    ("last_updated", .string c.lastUpdated.rfc3339), ("attributes", c.attributes)]

end Content

/-- A tag of a publisher. -/
structure Topic where
  /-- The id. -/
  id : Id
  /-- The publisher of the tag. -/
  publisher : Publisher
  /-- What the tag is about. -/
  scope : String
  /-- The tag. -/
  value : String
  /-- The title. -/
  title : Option String
  /-- When the publisher last changed the tag. -/
  lastUpdated : Instant
deriving DecidableEq, Repr, Inhabited

namespace Topic

open Json.Decoder in
/-- Reads a tag. -/
def decoder : Json.Decoder Topic :=
  record "Topic"
    [required "id" Json.Decoder.id fun id t => { t with id },
     required "publisher" Publisher.decoder fun publisher t => { t with publisher },
     required "namespace" text fun scope t => { t with scope },
     required "value" text fun value t => { t with value },
     optionalField "title" text fun title t => { t with title },
     required "last_updated" instant fun lastUpdated t => { t with lastUpdated }]
    default

/-- The value that writes a tag. -/
def toJson (t : Topic) : Json :=
  .object [("id", .string t.id.code), ("publisher", t.publisher.toJson),
    ("namespace", .string t.scope), ("value", .string t.value), ("title", .ofText? t.title),
    ("last_updated", .string t.lastUpdated.rfc3339)]

end Topic

end MediaCatalogue
