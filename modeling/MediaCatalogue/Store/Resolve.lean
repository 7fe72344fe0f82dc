import MediaCatalogue.Registry
import MediaCatalogue.Store.Snapshots

/-!
# Reading records

`resolveContent` reads the records of some ids. Rows whose publisher is not known are skipped, a
kind that is not known is a fault, and attributes that are not written in JSON count as `null`.
-/

namespace MediaCatalogue

/-- The record of a row, if its publisher is known. -/
def ContentRow.content? (registry : Registry) (id : Id) (row : ContentRow) :
    Except Fault (Option Content) :=
  match registry.find? row.publisher with
  | none => .ok none
  | some publisher => do
    return some
      { id, publisher, kind := ← ContentKind.ofWord row.kind, title := row.title
        lastUpdated := Instant.ofNanos row.lastUpdated
        attributes := (Json.parseText row.attributes).getD .null }

/-- The record that the tables hold for an id. -/
def Catalogue.content? (registry : Registry) (c : Catalogue) (id : Id) :
    Except Fault (Option Content) :=
  match c.content[id.stored]? with
  | none => .ok none
  | some row => row.content? registry id

/-- The records of some ids. -/
def resolveContent (registry : Registry) (see : Snapshots) (ids : IdSet) :
    Except Fault (Resolved Content) := do
  let found ← (batches ids.toList).zipIdx.mapM fun (batch, index) => do
    let c ← see index
    batch.mapM (c.content? registry)
  return .of ids (found.flatten.filterMap id)

end MediaCatalogue
