import MediaCatalogue.Deployment.State
import MediaCatalogue.Query.Execute

/-!
# Queries to a deployment

`Deployment.services` are the services that answer queries from the tables of a deployment, or from
stand-ins that give a fixed answer, fail, or never come back. A `Tally` counts the calls of the
store and of the equivalence index.
-/

namespace MediaCatalogue

/-- How often services were called. -/
structure Tally where
  /-- Calls of the store. -/
  storageReads : Nat := 0
  /-- Calls of the equivalence index. -/
  indexLookups : Nat := 0
deriving DecidableEq, Repr

/-- What stands behind a service. -/
inductive Backing (α : Type) where
  /-- The tables of the deployment. -/
  | tables
  /-- A fixed answer. -/
  | fixed (answer : α)
  /-- Every call fails. -/
  | failing (fault : Fault)
  /-- No call comes back. -/
  | hanging

namespace Deployment

variable {σ α : Type}

/-- A call with a known outcome. -/
def outcome (result : Except Fault α) : Call σ α :=
  match result with
  | .ok answer => return answer
  | .error fault => throw (.fault fault)

/-- The outcome of a call, where the tables give the answer `stored`. -/
def Backing.call (stored : Except Fault α) : Backing α → Call σ α
  | .tables => outcome stored
  | .fixed answer => return answer
  | .failing fault => throw (.fault fault)
  | .hanging => throw .never

/-- The services of a deployment. Its tables hold no titles: a title index is one of its own, or
there is none. -/
def services (d : Deployment) (index : Backing (IdMap IdSet))
    (titles : Option (TitleQuery → Call Tally (List Id))) : Services Tally :=
  { titles
    lookup := fun ids enabled => do
      modify fun t => { t with indexLookups := t.indexLookups + 1 }
      Backing.call (d.lookup ids enabled) index
    resolve := fun ids => do
      modify fun t => { t with storageReads := t.storageReads + 1 }
      outcome (d.resolve ids) }

end Deployment

end MediaCatalogue
