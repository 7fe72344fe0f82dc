import MediaCatalogue.Distinct
import MediaCatalogue.Id

/-!
# Pages

A `Selection` is a page of a list: `offset` items are skipped, then at most `limit` are taken.

* `Selection.of` keeps the limit between 1 and 100;
* `Selection.selectIds` is a page of the different ids of a list, in the order of their first
  occurrences.
-/

namespace MediaCatalogue

/-- A page of a list. -/
structure Selection where
  /-- How many items are skipped. -/
  offset : Nat
  /-- How many items are taken at most. -/
  limit : Nat
deriving DecidableEq, Repr

namespace Selection

/-- The limit that holds when none is given. -/
def defaultLimit : Nat := 50

/-- The greatest limit. -/
def maxLimit : Nat := 100

/-- The first page with the default limit. -/
def first : Selection := ⟨0, defaultLimit⟩

instance : Inhabited Selection := ⟨first⟩

/-- A page whose limit, if one is given, is brought between 1 and the greatest limit. -/
def of (offset : Nat) (limit : Option Nat) : Selection :=
  ⟨offset, min maxLimit (max 1 (limit.getD defaultLimit))⟩

/-- The items of a list that are on the page. -/
def page {α : Type} (selection : Selection) (items : List α) : List α :=
  (items.drop selection.offset).take selection.limit

/-- The ids on a page of the different ids of a list. -/
def selectIds (selection : Selection) (ids : List Id) : IdSet :=
  IdSet.ofList (selection.page (distinct ids))

end Selection

end MediaCatalogue
