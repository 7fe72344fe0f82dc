import MediaCatalogue.Content
import MediaCatalogue.Equivalence.Edge

/-!
# The tables of the catalogue

A `Catalogue` holds everything that is stored about media. Rows are found by the number in their key
column; they hold plain numbers and words, because a table may hold what no write of this library
put there.

* `Catalogue.content` and `Catalogue.topics` : the newest record and tag of each id;
* `Catalogue.assertions` and `Catalogue.edges` : who asserted last which records denote the same
  work;
* `Catalogue.sets` : the equivalence sets that are in use, as a label for each member;
* `Catalogue.pending` : the requests to bring equivalence sets up to date.

`Table.insertNewer` is the rule of all conditional writes: a row is replaced only by a newer one.
-/

namespace MediaCatalogue

/-- Rows by the number in their key column. -/
abbrev Table (Row : Type) := Std.ExtTreeMap Int Row

/-- Puts a row into a table, unless the table has a row with that key that is at least as new. Tells
whether it did. -/
def Table.insertNewer {Row : Type} (time : Row → Int) (key : Int) (row : Row) (table : Table Row) :
    Bool × Table Row :=
  match table[key]? with
  | some stored => if time stored < time row then (true, table.insert key row) else (false, table)
  | none => (true, table.insert key row)

/-- A stored record. -/
structure ContentRow where
  /-- The key of the publisher. -/
  publisher : String
  /-- The word for the kind of work. -/
  kind : String
  /-- The title. -/
  title : Option String
  /-- The text of everything else. -/
  attributes : String
  /-- When the record was changed, in nanoseconds. -/
  lastUpdated : Int
deriving DecidableEq, Repr

/-- A stored tag. -/
structure TopicRow where
  /-- The key of the publisher. -/
  publisher : String
  /-- What the tag is about. -/
  scope : String
  /-- The tag. -/
  value : String
  /-- The title. -/
  title : Option String
  /-- When the tag was changed, in nanoseconds. -/
  lastUpdated : Int
deriving DecidableEq, Repr

/-- The last assertion about the equivalents of a record. -/
structure AssertionRow where
  /-- The key of the publisher that made it. -/
  publisher : String
  /-- When it was made, in nanoseconds. -/
  lastUpdated : Int
deriving DecidableEq, Repr

/-- A request to bring the equivalence set of a record up to date. -/
structure RequestRow where
  /-- How often the request was repeated. -/
  generation : Int
  /-- When the request was first made, in nanoseconds. -/
  requestedAt : Int
deriving DecidableEq, Repr

/-- The generation as its column holds it: a number that outgrew the column is lost. -/
def RequestRow.generation? (row : RequestRow) : Option Int :=
  if Word.fits row.generation then some row.generation else none

/-- All tables. -/
structure Catalogue where
  /-- Records by id. -/
  content : Table ContentRow := ∅
  /-- Tags by id. -/
  topics : Table TopicRow := ∅
  /-- Assertions by the id they are about. -/
  assertions : Table AssertionRow := ∅
  /-- What is asserted. -/
  edges : EdgeSet := ∅
  /-- The label of the equivalence set of each id. An id without a label is alone. -/
  sets : Table Int := ∅
  /-- Requests by id. -/
  pending : Table RequestRow := ∅

/-- The version of the layout of the tables. -/
def Catalogue.layout : Nat := 2

/-- Nothing is stored. -/
def Catalogue.empty : Catalogue := {}

/-- The row that stores a record which was changed at the time `lastUpdated`. -/
def Content.row (record : Content) (lastUpdated : Int) : ContentRow :=
  { publisher := record.publisher.key, kind := record.kind.word, title := record.title
    attributes := record.attributes.render, lastUpdated }

/-- The row that stores a tag which was changed at the time `lastUpdated`. -/
def Topic.row (tag : Topic) (lastUpdated : Int) : TopicRow :=
  { publisher := tag.publisher.key, scope := tag.scope, value := tag.value, title := tag.title
    lastUpdated }

/-- Nanoseconds for a storage column, or the fault that they do not fit. -/
def Instant.storable (t : Instant) : Except Fault Int :=
  match t.nanos? with
  | some nanos => .ok nanos
  | none => .error (.invalidInput (.unstorable t))

end MediaCatalogue
