import MediaCatalogue.Query.Detail
import MediaCatalogue.Query.Selection
import MediaCatalogue.Sources

/-!
# Queries

A `Query` asks for one record, for those of several records that exist, or for the records whose
titles match a text. A `QueryContext` says who asks, and for which details.
-/

namespace MediaCatalogue

/-- What is asked for. -/
inductive Query where
  /-- One record, which must exist. -/
  | single (id : Id)
  /-- Those records on a page of a list that exist. -/
  | multiple (ids : List Id) (selection : Selection)
  /-- Records with matching titles. -/
  | search (text : String) (selection : Selection)
deriving DecidableEq, Repr

/-- The word for the kind of a query. -/
def Query.kind : Query → String
  | single _ => "single"
  | multiple _ _ => "multiple"
  | search _ _ => "search"

/-- Who asks, and for which details. -/
structure QueryContext where
  /-- The publishers that the application may see, the preferred ones first. -/
  sources : Sources
  /-- The details. -/
  details : DetailSet

end MediaCatalogue
