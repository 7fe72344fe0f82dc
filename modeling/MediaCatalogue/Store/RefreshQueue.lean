import MediaCatalogue.Store.Statements

/-!
# Requests to bring equivalence sets up to date

A write that may change an equivalence set leaves a request for each id it affects. A request that
is made again keeps its place and gets the next generation, so that whoever served an earlier
generation does not remove the later one.

* `Catalogue.request` makes one request, `requestAll` is the part of a write call that makes
  several;
* `Catalogue.oldestRequests` reads requests, those made first before the others, and those of one
  time by id;
* `completeRequest` removes a request unless it was made again.
-/

namespace MediaCatalogue

/-- A request as it is read. -/
structure RefreshRequest where
  /-- The id. -/
  id : Id
  /-- How often the request had been repeated. -/
  generation : Int
deriving DecidableEq, Repr

/-- The fault that the generation of a request outgrew its column. -/
def Fault.lostGeneration (id : Id) : Fault :=
  .database s!"the generation of the request for {id.code} is lost"

namespace Catalogue

/-- Makes a request at the time `now`, or makes it again. -/
def request (now : Int) (id : Id) (c : Catalogue) : Catalogue :=
  { c with
    pending := c.pending.alter id.stored fun
      | none => some ⟨0, now⟩
      | some row => some { row with generation := row.generation + 1 } }

/-- Requests by age: by the time they were first made, then by id. -/
def byAge (a b : Int × RequestRow) : Bool :=
  a.2.requestedAt < b.2.requestedAt ||
    (a.2.requestedAt = b.2.requestedAt && decide (a.1 ≤ b.1))

/-- The request of a row. -/
def requestOf (row : Int × RequestRow) : Except Fault RefreshRequest := do
  let id ← Id.ofStored row.1
  match row.2.generation? with
  | some generation => return ⟨id, generation⟩
  | none => throw (.lostGeneration id)

/-- At most `limit` requests, the oldest ones first. -/
def oldestRequests (limit : Nat) (c : Catalogue) : Except Fault (List RefreshRequest) :=
  ((c.pending.toList.mergeSort byAge).take limit).mapM requestOf

/-- Removes a request unless it was made again, and tells whether it did. -/
def withoutRequest (r : RefreshRequest) (c : Catalogue) : Bool × Catalogue :=
  match c.pending[r.id.stored]? with
  | some row =>
    if row.generation = r.generation then
      (true, { c with pending := c.pending.erase r.id.stored })
    else (false, c)
  | none => (false, c)

end Catalogue

open Statements

/-- Makes requests for some ids, in ascending order. -/
def requestAll (now : Instant) (ids : IdSet) : Statements Unit := do
  let requestedAt ← now.storable
  ids.toList.forM fun id => update (Catalogue.request requestedAt id)

/-- Removes a request unless it was made again since it was read, and tells whether it did. -/
def completeRequest (r : RefreshRequest) : Statements Bool :=
  statement (Catalogue.withoutRequest r)

end MediaCatalogue
