import MediaCatalogue.Equivalence.Assertion
import MediaCatalogue.Event
import MediaCatalogue.Ingest.Error
import MediaCatalogue.Registry

/-!
# Updates

An event with a known source and a payload of its type is an `EntityUpdate`: a record, a tag, or the
new equivalents of a record.

* `EntityUpdate.ofEvent` interprets an event; a source that is not known is found before a payload
  that does not fit.
-/

namespace MediaCatalogue

/-- What an event asks to store. -/
inductive EntityUpdate where
  /-- A record. -/
  | content (record : Content)
  /-- A tag. -/
  | topic (tag : Topic)
  /-- New equivalents of a record. -/
  | equivalence (update : EquivalenceUpdate)

namespace EntityUpdate

/-- The entity that is updated. -/
def entityId : EntityUpdate → Id
  | content record => record.id
  | topic tag => tag.id
  | equivalence update => update.subject

/-- The type of the entity. -/
def entityType : EntityUpdate → EntityType
  | content _ => .content
  | topic _ => .topic
  | equivalence _ => .equivalence

/-- When the entity changed. -/
def timestamp : EntityUpdate → Instant
  | content record => record.lastUpdated
  | topic tag => tag.lastUpdated
  | equivalence update => update.timestamp

/-- The update of an event that `publisher` reports. -/
def ofPayload (e : ChangeEvent) (publisher : Publisher) : Except Fault EntityUpdate :=
  match e.entityType with
  | .content => do
    let payload ← e.payloadAs ContentPayload.decoder
    return content
      { id := e.entityId, publisher, kind := payload.kind, title := payload.title,
        lastUpdated := e.timestamp, attributes := payload.attributes }
  | .topic => do
    let payload ← e.payloadAs TopicPayload.decoder
    return topic
      { id := e.entityId, publisher, scope := payload.scope, value := payload.value,
        title := payload.title, lastUpdated := e.timestamp }
  | .equivalence => do
    let payload ← e.payloadAs EquivalencePayload.decoder
    return equivalence
      { subject := e.entityId
        equivalents := IdSet.ofList (payload.equivalents.filter (· ≠ e.entityId))
        source := publisher, timestamp := e.timestamp }

/-- Interprets an event. -/
def ofEvent (registry : Registry) (e : ChangeEvent) : Except IngestError EntityUpdate :=
  match registry.find? e.source with
  | none => .error (.unknownSource e.source)
  | some publisher => (ofPayload e publisher).mapError .ofFault

end EntityUpdate

end MediaCatalogue
