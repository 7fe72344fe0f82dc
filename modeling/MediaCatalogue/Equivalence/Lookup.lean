import MediaCatalogue.Sources
import MediaCatalogue.Store.Snapshots

/-!
# Looking up equivalence sets

`lookup` finds for each requested id the members of its equivalence set that are stored with an
enabled publisher. An id without such members is absent from the answer.

The tables are read by several statements: first the labels of the requested ids, then for each
batch of labels the ids that carry one of them, and the ids without any label that stand for
themselves.
-/

namespace MediaCatalogue

namespace Catalogue

/-- The label of an id; an id without one labels itself. -/
def labelOf (c : Catalogue) (id : Id) : Except Fault (Id × Id) :=
  match c.sets[id.stored]? with
  | none => .ok (id, id)
  | some label => do return (id, ← Id.ofStored label)

/-- The number has a record whose publisher has one of the keys. -/
def isStoredBy (c : Catalogue) (keys : List String) (column : Int) : Bool :=
  match c.content[column]? with
  | some row => keys.contains row.publisher
  | none => false

/-- The ids that carry a label, each with that label. -/
def membersOf (c : Catalogue) (keys : List String) (label : Id) : Except Fault (List (Id × Id)) :=
  ((c.sets.toList.filter fun row => row.2 = label.stored && c.isStoredBy keys row.1)).mapM
    fun row => do return (label, ← Id.ofStored row.1)

/-- An id stands for itself: it is stored, and has no label. -/
def isAlone (c : Catalogue) (keys : List String) (id : Id) : Bool :=
  c.isStoredBy keys id.stored && !c.sets.contains id.stored

end Catalogue

/-- Collects the members of each label. -/
def collect (pairs : List (Id × Id)) : IdMap IdSet :=
  pairs.foldl (fun sets pair => sets.insert pair.1 ((sets.getD pair.1 ∅).insert pair.2)) ∅

/-- The labels of some ids, read by the statements from number 0 on. -/
def readLabels (see : Snapshots) (ids : IdSet) : Except Fault (List (Id × Id)) := do
  let found ← (batches ids.toList).zipIdx.mapM fun (batch, index) => do
    let c ← see index
    batch.mapM c.labelOf
  return found.flatten

/-- The members of some labels, read by two statements for each batch from number `start` on. -/
def readMembers (see : Snapshots) (start : Nat) (keys : List String) (labels : IdSet) :
    Except Fault (List (Id × Id)) := do
  let found ← (batches labels.toList).zipIdx.mapM fun (batch, index) => do
    let c ← see (start + 2 * index)
    let labelled ← batch.mapM (c.membersOf keys)
    let c ← see (start + 2 * index + 1)
    return labelled.flatten ++ (batch.filter (c.isAlone keys)).map fun id => (id, id)
  return found.flatten

/-- The equivalence sets of some ids, as far as they are stored with enabled publishers. -/
def lookup (see : Snapshots) (ids : IdSet) (enabled : PublisherSet) : Except Fault (IdMap IdSet) :=
  if ids.isEmpty || enabled.isEmpty then .ok ∅
  else do
    let keys := enabled.toList.map Publisher.key
    let labels ← readLabels see ids
    let start := (batches ids.toList).length
    let sets := collect (← readMembers see start keys (IdSet.ofList (labels.map Prod.snd)))
    return Std.ExtTreeMap.ofList
      (labels.filterMap fun (id, label) => (sets[label]?).map fun members => (id, members))

end MediaCatalogue
