import MediaCatalogue.Toml.Value

/-!
# From TOML to typed values

A decoder turns a value into a typed one, or fails. `Decoder.record` reads a record whose fields may
all be missing, from a table or from the list of its fields in order. Keys and items that the record
does not know are ignored. A date, too, counts as a table without any known key.
-/

namespace MediaCatalogue.Toml

/-- Turns a value into a typed one. -/
abbrev Decoder (α : Type) := Toml → Option α

namespace Decoder

variable {α β : Type}

/-- A text. -/
def text : Decoder String
  | .string text => some text
  | _ => none

/-- A whole number from zero, below a limit. -/
def natural (limit : Nat) : Decoder Nat
  | .integer value => if 0 ≤ value ∧ value < limit then some value.toNat else none
  | _ => none

/-- A list. -/
def list (decoder : Decoder α) : Decoder (List α)
  | .array items => items.mapM decoder
  | _ => none

/-- A field of a record. -/
structure Field (α : Type) where
  /-- Its key. -/
  key : String
  /-- Decodes the value of the field and puts it into the record. -/
  put : Toml → α → Option α

/-- A field with a decoder. -/
def field (key : String) (decoder : Decoder β) (set : β → α → α) : Field α :=
  ⟨key, fun value record => (decoder value).map (set · record)⟩

/-- Puts the values that are there into a record. -/
def putAll (record : α) (values : List (Field α × Toml)) : Option α :=
  values.foldlM (fun record (field, value) => field.put value record) record

/-- A record. Fields that are missing have the values of `defaults`. -/
def record (fields : List (Field α)) (defaults : α) : Decoder α
  | .table entries =>
    putAll defaults (fields.filterMap fun field => (entries.lookup field.key).map (field, ·))
  | .array items => putAll defaults (fields.zip items)
  | .datetime _ => some defaults
  | _ => none

end Decoder

end MediaCatalogue.Toml
