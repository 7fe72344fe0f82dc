import MediaCatalogue.Fault
import MediaCatalogue.Text.Separated

/-!
# Details of an answer

Queries are annotated with the details that an answer shall show. Two of them concern equivalent
records; the others are passed on to whoever shows the answer.

* `Detail.parseList` reads a comma separated list. Blank entries are ignored, an unknown one is a
  fault;
* `DetailSet.retainsAll` and `DetailSet.wantsEquivalence` are the two questions that answers depend
  on.
-/

namespace MediaCatalogue

/-- A detail of an answer that can be asked for. -/
inductive Detail where
  /-- The id alone. -/
  | id
  /-- A short description. -/
  | description
  /-- A long description. -/
  | extended
  /-- Images. -/
  | images
  /-- Topics. -/
  | topics
  /-- Search results are merged across equivalent records. -/
  | equivalents
  /-- All equivalent records are kept beside the one that represents them. -/
  | allEquivalents
deriving DecidableEq, Repr, Inhabited

namespace Detail

/-- The key of a detail. -/
def key : Detail → String
  | id => "id"
  | description => "description"
  | extended => "extended"
  | images => "images"
  | topics => "topics"
  | equivalents => "equivalents"
  | allEquivalents => "all_equivalents"

/-- All details in their order. -/
def all : List Detail :=
  [id, description, extended, images, topics, equivalents, allEquivalents]

/-- The place of a detail among all. -/
def position : Detail → Nat
  | id => 0
  | description => 1
  | extended => 2
  | images => 3
  | topics => 4
  | equivalents => 5
  | allEquivalents => 6

theorem position_injective {a b : Detail} (h : a.position = b.position) : a = b := by
  cases a <;> cases b <;> first | rfl | cases h

/-- Details are ordered by their places. -/
instance : Ord Detail := ⟨compareOn position⟩

instance : Std.TransOrd Detail := inferInstanceAs (Std.TransCmp (compareOn position))

instance : Std.LawfulEqOrd Detail where
  eq_of_compare h := position_injective (Std.LawfulEqOrd.eq_of_compare (α := Nat) h)

/-- All details with their keys. -/
def words : List (String × Detail) := all.map fun detail => (detail.key, detail)

/-- The detail of a key. -/
def ofKey (key : String) : Except Fault Detail :=
  match words.lookup key with
  | some detail => .ok detail
  | none => .error (.invalidInput (.unknownDetail key))

/-- Reads a detail. -/
def decoder : Json.Decoder Detail := .choice words

end Detail

/-- Finite sets of details. -/
abbrev DetailSet := Std.ExtTreeSet Detail

/-- The entries of a comma separated list, without white space around them, and without the blank
ones. -/
def Detail.entries (list : String) : List String :=
  (((Text.separated ',' list.toList).map Text.trim).filter (! ·.isEmpty)).map String.ofList

/-- Reads a comma separated list of details. -/
def Detail.parseList (list : String) : Except Fault DetailSet := do
  return Std.ExtTreeSet.ofList (← (entries list).mapM ofKey)

namespace DetailSet

/-- Equivalent records are kept beside the one that represents them. -/
def retainsAll (details : DetailSet) : Bool := details.contains .allEquivalents

/-- Search results are merged across equivalent records. -/
def wantsEquivalence (details : DetailSet) : Bool :=
  details.contains .equivalents || retainsAll details

end DetailSet

end MediaCatalogue
