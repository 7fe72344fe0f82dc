/-!
# TOML values

A TOML document is a table of values. Numbers with a fraction, dates and times are kept as they are
written.

While a document is read its tables are open: later lines may add to them. A `Toml.Table` knows how
it came about, because that decides who may add to it. `Table.alter` walks down a path of keys and
makes the tables that are not there yet.

* A table that is named by a header is explicit, and cannot be named again;
* a table on the way to a header or to a dotted key is implicit. A dotted key may add only to tables
  that dotted keys made, a header may name a table that was only on the way to other headers;
* the last table of an array of tables stands for the array on the way to others.
-/

namespace MediaCatalogue

/-- A TOML value. -/
inductive Toml where
  /-- A text. -/
  | string (text : String)
  /-- A whole number of 64 bits with a sign. -/
  | integer (value : Int)
  /-- Any other number, as it is written. -/
  | float (text : String)
  /-- A truth value. -/
  | boolean (value : Bool)
  /-- A date, a time, or both, as it is written. -/
  | datetime (text : String)
  /-- A list of values. -/
  | array (items : List Toml)
  /-- Named values. -/
  | table (entries : List (String × Toml))
deriving Repr

namespace Toml

instance : Inhabited Toml := ⟨table []⟩

/-- The value of a key; nothing if there is none, or if the value is no table. -/
def find? (key : String) : Toml → Option Toml
  | table entries => entries.lookup key
  | _ => none

/-- What stands behind a key of an open table. -/
inductive Entry where
  /-- A complete value. -/
  | value (value : Toml)
  /-- A table. -/
  | table (implicit dotted : Bool) (entries : List (String × Entry))
  /-- An array of tables, given by their entries; the last table stands first. -/
  | tables (items : List (List (String × Entry)))

/-- An open table. -/
structure Table where
  /-- No header named the table. -/
  implicit : Bool := false
  /-- A dotted key made the table. -/
  dotted : Bool := false
  /-- What is in the table. -/
  entries : List (String × Entry) := []

namespace Table

/-- Puts an entry into a list, in place of one with the same key. -/
def replace (key : String) (entry : Entry) (entries : List (String × Entry)) :
    List (String × Entry) :=
  (key, entry) :: entries.filter (·.1 ≠ key)

/-- The table as an entry of another one. -/
def entry (t : Table) : Entry := .table t.implicit t.dotted t.entries

/-- Changes the table at the end of a path. Tables on the way that are not there are made; `dotted`
tells whether the path belongs to a dotted key. -/
def alter (dotted : Bool) (change : Table → Option Table) : List String → Table → Option Table
  | [], t => change t
  | key :: path, t => do
    let put (entry : Entry) : Table := { t with entries := replace key entry t.entries }
    match t.entries.lookup key with
    | none => do
      let child ← alter dotted change path { implicit := true, dotted }
      return put child.entry
    | some (.value _) => none
    | some (.table implicit byDots entries) =>
      if dotted && !implicit then none
      else do
        let child ← alter dotted change path { implicit, dotted := byDots, entries }
        return put child.entry
    | some (.tables []) => none
    | some (.tables (last :: others)) => do
      let child ← alter dotted change path { entries := last }
      return put (.tables (child.entries :: others))

/-- Gives a key that is not there yet a value. The key stands at the end of a dotted
path of keys. -/
def assign (path : List String) (key : String) (value : Toml) : Table → Option Table :=
  alter true (fun t =>
    if t.dotted == path.isEmpty || (t.entries.lookup key).isSome then none
    else some { t with entries := replace key (.value value) t.entries }) path

/-- Begins a table that a header names. -/
def open? (path : List String) (key : String) : Table → Option Table :=
  alter false (fun t =>
    match t.entries.lookup key with
    | none => some { t with entries := replace key (.table false false []) t.entries }
    | some (.table true false entries) =>
      some { t with entries := replace key (.table false false entries) t.entries }
    | some _ => none) path

/-- Begins another table of an array of tables. -/
def append? (path : List String) (key : String) : Table → Option Table :=
  alter false (fun t =>
    match t.entries.lookup key with
    | none => some { t with entries := replace key (.tables [[]]) t.entries }
    | some (.tables items) =>
      some { t with entries := replace key (.tables ([] :: items)) t.entries }
    | some _ => none) path

end Table

mutual

/-- The value of an entry. -/
def Entry.close : Entry → Toml
  | .value value => value
  | .table _ _ entries => .table (closeEntries entries)
  | .tables items => .array (closeTables items).reverse

/-- The values of entries. -/
def closeEntries : List (String × Entry) → List (String × Toml)
  | [] => []
  | (key, entry) :: entries => (key, entry.close) :: closeEntries entries

/-- The values of tables. -/
def closeTables : List (List (String × Entry)) → List Toml
  | [] => []
  | entries :: items => .table (closeEntries entries) :: closeTables items

end

/-- The value of a table that is complete. -/
def Table.close (t : Table) : Toml := t.entry.close

end Toml

end MediaCatalogue
