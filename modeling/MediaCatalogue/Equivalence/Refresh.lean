import MediaCatalogue.Equivalence.Component
import MediaCatalogue.Store.Statements

/-!
# Bringing equivalence sets up to date

The tables keep for every member of an equivalence set with several members its label, which is the
lowest id of the set; an id that is alone has no label. `Catalogue.refreshed` computes these rows
anew for the component of one id, and for the components of all ids that had the same label as that
id before: an edge that went away may have split their set.
-/

namespace MediaCatalogue

namespace Catalogue

/-- The numbers whose label is `label`, in ascending order. -/
def labelledWith (c : Catalogue) (label : Int) : List Int :=
  (c.sets.toList.filter (·.2 = label)).map Prod.fst

/-- An id and all ids that have the same label. -/
def seeds (c : Catalogue) (id : Id) : Except Fault IdSet :=
  match c.sets[id.stored]? with
  | none => .ok (IdSet.ofList [id])
  | some label => do
    return IdSet.ofList (id :: (← (c.labelledWith label).mapM Id.ofStored))

/-- Gives every member of a component its label, and none to one that is alone. -/
def labelComponent (members : IdSet) (c : Catalogue) : Catalogue :=
  match members.toList with
  | [] => c
  | [id] => { c with sets := c.sets.erase id.stored }
  | lowest :: others =>
    { c with
      sets := (lowest :: others).foldl (fun sets id => sets.insert id.stored lowest.stored) c.sets }

/-- Labels the components of some ids, one after the other; a component that was visited is not
visited again. -/
def labelFrom (links : Links) : List Id → IdSet → Catalogue → Except Fault Catalogue
  | [], _, c => .ok c
  | seed :: rest, visited, c =>
    if visited.contains seed then labelFrom links rest visited c
    else do
      let members ← component links seed
      labelFrom links rest (visited.insertMany members.toList) (c.labelComponent members)

/-- The tables with the labels around an id brought up to date. -/
def refreshed (id : Id) (c : Catalogue) : Except Fault Catalogue := do
  labelFrom c.edges.links (← c.seeds id).toList ∅ c

end Catalogue

open Statements

/-- Brings the labels around an id up to date. -/
def refresh (id : Id) : Statements Unit := do
  mark
  let outcome ← query (Catalogue.refreshed id)
  let catalogue ← outcome
  update fun _ => catalogue
  mark

end MediaCatalogue
