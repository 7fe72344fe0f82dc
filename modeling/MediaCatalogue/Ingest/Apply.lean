import MediaCatalogue.Ingest.Update
import MediaCatalogue.Store.Write

/-!
# Applying updates

Each type of entity has a writer of its own. `Writers.apply` applies an update with the writer of
its type, and tells which ids need their equivalence sets brought up to date, or that the update
came too late.

* `Writers.stored` are the writers on the tables of the catalogue.
-/

namespace MediaCatalogue

/-- An access to something that may fail and may change a state `σ`. -/
abbrev Access (σ α : Type) := ExceptT Fault (StateM σ) α

/-- What became of an update. -/
inductive Outcome where
  /-- It was stored; the equivalence sets of these ids may have changed. -/
  | applied (refresh : IdSet)
  /-- What is stored is at least as new. -/
  | stale

/-- A writer for each type of entity. -/
structure Writers (σ : Type) where
  /-- Stores a record unless the stored one is at least as new. -/
  content : Content → Access σ Bool
  /-- Stores a tag unless the stored one is at least as new. -/
  topic : Topic → Access σ Bool
  /-- Stores an assertion unless the stored one is at least as new. Gives the ids that were asserted
  before, if it did. -/
  equivalence : EquivalenceUpdate → Access σ (Option IdSet)

namespace Writers

variable {σ : Type}

/-- Applies an update. -/
def apply (writers : Writers σ) : EntityUpdate → Access σ Outcome
  | .content record => do
    return if ← writers.content record then .applied (IdSet.ofList [record.id]) else .stale
  | .topic tag => do
    return if ← writers.topic tag then .applied ∅ else .stale
  | .equivalence update => do
    match ← writers.equivalence update with
    | some previous => return .applied (update.affected previous)
    | none => return .stale

/-- A write call as an access to the tables. -/
def access {α : Type} (working : Option Nat) (call : Statements α) : Access Catalogue α :=
  ExceptT.mk fun c => call.perform working c

/-- The writers on the tables, at the time `now`, if `working` statements of a call work. -/
def stored (now : Instant) (working : Option Nat) : Writers Catalogue :=
  { content := fun record => access working (record.write now)
    topic := fun tag => access working tag.write
    equivalence := fun update => access working (update.write now) }

end Writers

end MediaCatalogue
