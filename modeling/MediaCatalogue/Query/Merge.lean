import MediaCatalogue.Query.Services

/-!
# Merging equivalent records

The records of one equivalence set are merged into one result for each id that was asked for: the
record that represents the set, and the others if they were asked for. Records of publishers that
are not enabled take no part. The representative is the first in this order: the publisher that the
application prefers, then the id that was asked for, then the lowest id.

* `merge` chooses from one set, `Services.mergeIds` answers for some ids with at most one call of
  each service.
-/

namespace MediaCatalogue

variable {σ : Type}

/-- The merged records for an id. -/
structure Merged where
  /-- The id that was asked for. -/
  id : Id
  /-- The record that represents the set. -/
  primary : Content
  /-- The other records, if they were asked for. -/
  equivalents : List Content
  /-- The equivalence set from which the records come. -/
  equivalentIds : IdSet

instance : Identified Merged := ⟨Merged.id⟩

/-- A record that was not merged with others. -/
def Merged.alone (record : Content) : Merged :=
  ⟨record.id, record, [], IdSet.ofList [record.id]⟩

/-- A record and the place of its publisher. -/
structure Candidate where
  /-- The place of the publisher; the preferred one has place 0. -/
  rank : Nat
  /-- The record. -/
  record : Content

/-- The order of preference among candidates, when `requested` was asked for. -/
def Candidate.preferred (requested : Id) (a b : Candidate) : Bool :=
  let otherA := decide (a.record.id ≠ requested)
  let otherB := decide (b.record.id ≠ requested)
  a.rank < b.rank ||
    (a.rank = b.rank &&
      ((!otherA && otherB) || (otherA == otherB && decide (a.record.id.value ≤ b.record.id.value))))

/-- The records of a set that take part. -/
def candidates (sources : Sources) (records : IdMap Content) (set : IdSet) : List Candidate :=
  set.toList.filterMap fun id => do
    let record ← records[id]?
    let rank ← sources.rank? record.publisher
    return ⟨rank, record⟩

/-- Merges the records of a set. There is no result if none of them takes part. -/
def merge (sources : Sources) (retain : Bool) (records : IdMap Content) (requested : Id)
    (set : IdSet) : Option Merged :=
  match (candidates sources records set).mergeSort (Candidate.preferred requested) with
  | [] => none
  | first :: others =>
    some ⟨requested, first.record, if retain then others.map Candidate.record else [], set⟩

/-- Records by id. -/
def recordsById (r : Resolved Content) : IdMap Content :=
  Std.ExtTreeMap.ofList (r.resources.map fun record => (record.id, record))

/-- Answers for some ids. -/
def Services.mergeIds (services : Services σ) (ids : IdSet) (context : QueryContext) :
    Step σ (Resolved Merged) := do
  if ids.isEmpty || context.sources.isEmpty then return .none ids
  let sets ← (services.lookup ids context.sources.enabled).step
  if sets.isEmpty then return .none ids
  let wanted := IdSet.ofList (sets.toList.flatMap fun (_, members) => members.toList)
  let records := recordsById (← (services.resolve wanted).step)
  return .of ids (sets.toList.filterMap fun (id, members) =>
    merge context.sources context.details.retainsAll records id members)

end MediaCatalogue
