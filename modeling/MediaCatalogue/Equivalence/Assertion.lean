import MediaCatalogue.Store.RefreshQueue

/-!
# Assertions

A publisher asserts which records denote the same work as a subject. A newer assertion about a
subject replaces all edges of the older one, whoever made it, and leaves requests for the subject
and for all ids that were, or now are, asserted to be equivalent.
-/

namespace MediaCatalogue

/-- The records that `source` now asserts to denote the same work as `subject`. -/
structure EquivalenceUpdate where
  /-- The record the assertion is about. -/
  subject : Id
  /-- The records that denote the same work. -/
  equivalents : IdSet
  /-- Who asserts it. -/
  source : Publisher
  /-- When it was asserted. -/
  timestamp : Instant

namespace EdgeSet

/-- The targets of the edges of a subject, in ascending order. -/
def targets (edges : EdgeSet) (subject : Int) : List Int :=
  (edges.toList.filter (·.subject = subject)).map Edge.target

/-- The ids of the targets of a subject. -/
def targetIds (edges : EdgeSet) (subject : Id) : Except Fault IdSet := do
  return IdSet.ofList (← (edges.targets subject.stored).mapM Id.ofStored)

/-- The edges of all other subjects. -/
def withoutSubject (edges : EdgeSet) (subject : Id) : EdgeSet :=
  edges.filter (·.subject ≠ subject.stored)

end EdgeSet

namespace EquivalenceUpdate

open Statements

/-- The ids whose equivalence sets may change, if `previous` ids were asserted before. -/
def affected (u : EquivalenceUpdate) (previous : IdSet) : IdSet :=
  (previous.insertMany u.equivalents.toList).insert u.subject

/-- Replaces the assertion about the subject unless the stored one is at least as new. Gives the ids
that were asserted before, if it did. -/
def write (now : Instant) (u : EquivalenceUpdate) : Statements (Option IdSet) := do
  let lastUpdated ← u.timestamp.storable
  mark
  let applied ← statement fun c =>
    let (applied, assertions) :=
      Table.insertNewer AssertionRow.lastUpdated u.subject.stored ⟨u.source.key, lastUpdated⟩
        c.assertions
    (applied, { c with assertions })
  if !applied then
    mark
    return none
  let outcome ← query fun c => c.edges.targetIds u.subject
  let previous ← outcome
  update fun c => { c with edges := c.edges.withoutSubject u.subject }
  (u.equivalents.toList.filter (· ≠ u.subject)).forM fun target =>
    update fun c => { c with edges := c.edges.insert ⟨u.subject.stored, target.stored⟩ }
  requestAll now (u.affected previous)
  mark
  return some previous

end EquivalenceUpdate

end MediaCatalogue
