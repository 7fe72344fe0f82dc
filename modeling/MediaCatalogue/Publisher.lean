import MediaCatalogue.Json.Decode

/-!
# Publishers

A `Publisher` is an organisation that supplies records. Its key identifies it.

* `Publisher.decoder` reads a publisher, `Publisher.toJson` writes one;
* publishers are ordered by key, then country, then title.
-/

namespace MediaCatalogue

/-- An organisation that supplies records. -/
structure Publisher where
  /-- The key that identifies the publisher. -/
  key : String
  /-- The code of its country. -/
  country : String
  /-- The name that is shown. -/
  title : String
deriving DecidableEq, Repr, Inhabited

namespace Publisher

/-- By key, then country, then title. -/
def order : Publisher → Publisher → Ordering :=
  compareLex (compareOn key) (compareLex (compareOn country) (compareOn title))

instance : Ord Publisher := ⟨order⟩

instance : Std.TransOrd Publisher :=
  inferInstanceAs
    (Std.TransCmp (compareLex (compareOn key) (compareLex (compareOn country) (compareOn title))))

instance : Std.LawfulEqOrd Publisher where
  eq_of_compare {a b} h := by
    simp only [compare, order, compareLex_eq_eq, compareOn] at h
    obtain ⟨key, country, title⟩ := h
    cases a
    cases b
    cases Std.LawfulEqOrd.eq_of_compare (α := String) key
    cases Std.LawfulEqOrd.eq_of_compare (α := String) country
    cases Std.LawfulEqOrd.eq_of_compare (α := String) title
    rfl

open Json.Decoder in
/-- Reads a publisher. -/
def decoder : Json.Decoder Publisher :=
  record "Publisher"
    [required "key" text fun key p => { p with key },
     required "country" text fun country p => { p with country },
     required "title" text fun title p => { p with title }]
    ⟨"", "", ""⟩

/-- The value that writes a publisher. -/
def toJson (p : Publisher) : Json :=
  .object [("key", .string p.key), ("country", .string p.country), ("title", .string p.title)]

end Publisher

end MediaCatalogue
