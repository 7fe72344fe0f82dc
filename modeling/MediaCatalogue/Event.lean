import MediaCatalogue.Content

/-!
# Change events

A `ChangeEvent` says that an entity was created or changed, when, and by which source. Its payload
depends on the type of the entity and is decoded separately.

* `ChangeEvent.decode` reads a message, `ChangeEvent.encode` writes one;
* `ChangeEvent.payloadAs` decodes the payload.
-/

namespace MediaCatalogue

/-- The types of entities. -/
inductive EntityType where
  /-- A record of a work. -/
  | content
  /-- A tag. -/
  | topic
  /-- The records that denote the same work as another one. -/
  | equivalence
deriving DecidableEq, Repr, Inhabited

namespace EntityType

/-- The word for a type. -/
def word : EntityType → String
  | content => "content"
  | topic => "topic"
  | equivalence => "equivalence"

/-- All types with their words. -/
def words : List (String × EntityType) :=
  [content, topic, equivalence].map fun type => (type.word, type)

/-- Reads a type. -/
def decoder : Json.Decoder EntityType := .choice words

end EntityType

/-- An entity was created or changed. -/
structure ChangeEvent where
  /-- The identifier that the producer gave to the event. -/
  eventId : Option Uuid
  /-- The entity. -/
  entityId : Id
  /-- When the change happened. -/
  timestamp : Instant
  /-- The type of the entity. -/
  entityType : EntityType
  /-- The key of the publisher that reports the change. -/
  source : String
  /-- The body, according to the type. -/
  payload : Json
deriving DecidableEq, Repr, Inhabited

/-- The body of an event about a record. -/
structure ContentPayload where
  /-- The kind of work. -/
  kind : ContentKind
  /-- The title. -/
  title : Option String
  /-- Everything else. -/
  attributes : Json
deriving DecidableEq, Repr, Inhabited

/-- The body of an event about a tag. -/
structure TopicPayload where
  /-- What the tag is about. -/
  scope : String
  /-- The tag. -/
  value : String
  /-- The title. -/
  title : Option String
deriving DecidableEq, Repr, Inhabited

/-- The body of an event about equivalence: all records that are now asserted to denote the same
work. -/
structure EquivalencePayload where
  /-- The records. -/
  equivalents : List Id
deriving DecidableEq, Repr, Inhabited

open Json.Decoder

/-- Reads the body of an event about a record. -/
def ContentPayload.decoder : Json.Decoder ContentPayload :=
  record "ContentPayload"
    [required "kind" ContentKind.decoder fun kind p => { p with kind },
     defaulted "title" (optional text) fun title p => { p with title },
     defaulted "attributes" (value 1) fun attributes p => { p with attributes }]
    default

/-- Reads the body of an event about a tag. -/
def TopicPayload.decoder : Json.Decoder TopicPayload :=
  record "TopicPayload"
    [required "namespace" text fun scope p => { p with scope },
     required "value" text fun value p => { p with value },
     defaulted "title" (optional text) fun title p => { p with title }]
    default

/-- Reads the body of an event about equivalence. -/
def EquivalencePayload.decoder : Json.Decoder EquivalencePayload :=
  record "EquivalencePayload"
    [required "equivalents" (list Json.Decoder.id) fun equivalents p => { p with equivalents }]
    default

namespace ChangeEvent

/-- Reads an event. -/
def decoder : Json.Decoder ChangeEvent :=
  record "ChangeEvent"
    [defaulted "event_id" (optional uuid) fun eventId e => { e with eventId },
     required "entity_id" Json.Decoder.id fun entityId e => { e with entityId },
     required "timestamp" instant fun timestamp e => { e with timestamp },
     required "entity_type" EntityType.decoder fun entityType e => { e with entityType },
     required "source" text fun source e => { e with source },
     defaulted "payload" (value 1) fun payload e => { e with payload }]
    default

/-- Reads an event from a message. -/
def decode (bytes : List UInt8) : Except Fault ChangeEvent :=
  (decoder.run bytes).mapError fun cause => .malformedEvent (.undecodable cause)

/-- The value that writes an event. An event without an identifier has no field for it. -/
def toJson (e : ChangeEvent) : Json :=
  .object ((e.eventId.map fun uuid => ("event_id", Json.string uuid.text)).toList ++
    [("entity_id", .string e.entityId.code), ("timestamp", .string e.timestamp.rfc3339),
     ("entity_type", .string e.entityType.word), ("source", .string e.source),
     ("payload", e.payload)])

/-- The message that writes an event. -/
def encode (e : ChangeEvent) : List UInt8 := Text.Utf8.encode e.toJson.render

/-- Decodes the payload of an event. -/
def payloadAs {α : Type} (e : ChangeEvent) (decoder : Json.Decoder α) : Except Fault α :=
  (decoder.runValue e.payload).mapError fun cause =>
    .malformedEvent (.payload e.entityType.word e.entityId cause)

end ChangeEvent

end MediaCatalogue
