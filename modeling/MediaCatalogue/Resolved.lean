import MediaCatalogue.Distinct
import MediaCatalogue.Id

/-!
# Answers to requests for ids

A `Resolved` pairs the ids that were requested with what was found for them. Every resource belongs
to one requested id, and every requested id has at most one resource; the others are missing.

* `Resolved.of` drops resources that nobody asked for, and all but the first one of an id;
* `Resolved.filterMap` changes or drops resources, and keeps what was requested.
-/

namespace MediaCatalogue

/-- Things that have an id. -/
class Identified (α : Type) where
  /-- The id of a thing. -/
  idOf : α → Id

export Identified (idOf)

/-- What was found for some ids. -/
structure Resolved (α : Type) where
  /-- The ids that were requested. -/
  requested : IdSet
  /-- What was found, in the order in which it was found. -/
  resources : List α

namespace Resolved

variable {α β : Type}

/-- Nothing was found. -/
def none (requested : IdSet) : Resolved α := ⟨requested, []⟩

variable [Identified α] [Identified β]

/-- The first resource of each requested id. -/
def of (requested : IdSet) (resources : List α) : Resolved α :=
  ⟨requested, distinctBy idOf (resources.filter (idOf · ∈ requested))⟩

/-- The requested ids for which nothing was found. -/
def missing (r : Resolved α) : IdSet := r.requested.eraseMany (r.resources.map idOf)

/-- Changes resources, or drops them. -/
def filterMap (f : α → Option β) (r : Resolved α) : Resolved β :=
  of r.requested (r.resources.filterMap f)

/-- The number of resources. -/
def size (r : Resolved α) : Nat := r.resources.length

/-- Nothing was found. -/
def isEmpty (r : Resolved α) : Bool := r.resources.isEmpty

end Resolved

end MediaCatalogue
