import MediaCatalogue.Store.RefreshQueue

/-!
# Conditional writes

Records and tags are written only if they are newer than what is stored under their ids. A record
that is written leaves a request for its id in the same call.
-/

namespace MediaCatalogue

open Statements

/-- Stores a record unless the stored one is at least as new. Tells whether it did. -/
def Content.write (now : Instant) (record : Content) : Statements Bool := do
  let lastUpdated ← record.lastUpdated.storable
  mark
  let applied ← statement fun c =>
    let (applied, content) :=
      Table.insertNewer ContentRow.lastUpdated record.id.stored (record.row lastUpdated) c.content
    (applied, { c with content })
  if applied then requestAll now (IdSet.ofList [record.id])
  mark
  return applied

/-- Stores a tag unless the stored one is at least as new. Tells whether it did. -/
def Topic.write (tag : Topic) : Statements Bool := do
  let lastUpdated ← tag.lastUpdated.storable
  statement fun c =>
    let (applied, topics) :=
      Table.insertNewer TopicRow.lastUpdated tag.id.stored (tag.row lastUpdated) c.topics
    (applied, { c with topics })

end MediaCatalogue
