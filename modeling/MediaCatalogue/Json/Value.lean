import MediaCatalogue.Decimal.Shortest

/-!
# JSON values

`Json` is a JSON value. Whole numbers are kept exactly as long as they fit 64 bits, signed or
unsigned; all other numbers are doubles. An object is a list of fields; values that were read have
their fields in ascending order of their names, each name once (`Json.insertField` builds that form:
a repeated name keeps its last value).

* `Json.render` writes a value without white space.
-/

namespace MediaCatalogue

open Decimal

/-- A number in a JSON value. -/
inductive Json.Number where
  /-- A whole number. -/
  | integer (value : Int)
  /-- Any other number, rounded to a double. -/
  | double (value : Binary64)
deriving DecidableEq, Repr

/-- A JSON value. -/
inductive Json where
  /-- The value `null`. -/
  | null
  /-- A truth value. -/
  | bool (value : Bool)
  /-- A number. -/
  | number (value : Json.Number)
  /-- A text. -/
  | string (value : String)
  /-- A list of values. -/
  | array (items : List Json)
  /-- Named values. -/
  | object (fields : List (String × Json))
deriving Repr

namespace Json

instance : Inhabited Json := ⟨null⟩

/-! ### Equality -/

mutual

/-- Decides whether two values are the same. -/
def decideEq : (a b : Json) → Decidable (a = b)
  | null, null => isTrue rfl
  | bool a, bool b => if h : a = b then isTrue (h ▸ rfl) else isFalse fun e => h (bool.inj e)
  | number a, number b => if h : a = b then isTrue (h ▸ rfl) else isFalse fun e => h (number.inj e)
  | string a, string b => if h : a = b then isTrue (h ▸ rfl) else isFalse fun e => h (string.inj e)
  | array a, array b =>
    match decideEqItems a b with
    | isTrue h => isTrue (h ▸ rfl)
    | isFalse h => isFalse fun e => h (array.inj e)
  | object a, object b =>
    match decideEqFields a b with
    | isTrue h => isTrue (h ▸ rfl)
    | isFalse h => isFalse fun e => h (object.inj e)
  | null, bool _ | null, number _ | null, string _ | null, array _ | null, object _
  | bool _, null | bool _, number _ | bool _, string _ | bool _, array _ | bool _, object _
  | number _, null | number _, bool _ | number _, string _ | number _, array _
  | number _, object _
  | string _, null | string _, bool _ | string _, number _ | string _, array _
  | string _, object _
  | array _, null | array _, bool _ | array _, number _ | array _, string _ | array _, object _
  | object _, null | object _, bool _ | object _, number _ | object _, string _
  | object _, array _ => isFalse nofun

/-- Decides whether two lists of values are the same. -/
def decideEqItems : (a b : List Json) → Decidable (a = b)
  | [], [] => isTrue rfl
  | [], _ :: _ | _ :: _, [] => isFalse nofun
  | x :: xs, y :: ys =>
    match decideEq x y, decideEqItems xs ys with
    | isTrue h, isTrue hs => isTrue (h ▸ hs ▸ rfl)
    | isFalse h, _ => isFalse fun e => h (List.cons.inj e).1
    | _, isFalse h => isFalse fun e => h (List.cons.inj e).2

/-- Decides whether two lists of fields are the same. -/
def decideEqFields : (a b : List (String × Json)) → Decidable (a = b)
  | [], [] => isTrue rfl
  | [], _ :: _ | _ :: _, [] => isFalse nofun
  | (k, x) :: xs, (l, y) :: ys =>
    if hk : k = l then
      match decideEq x y, decideEqFields xs ys with
      | isTrue h, isTrue hs => isTrue (hk ▸ h ▸ hs ▸ rfl)
      | isFalse h, _ => isFalse fun e => h (Prod.mk.inj (List.cons.inj e).1).2
      | _, isFalse h => isFalse fun e => h (List.cons.inj e).2
    else isFalse fun e => hk (Prod.mk.inj (List.cons.inj e).1).1

end

instance : DecidableEq Json := decideEq

/-! ### Fields -/

/-- Puts a field at its place in a list of fields in ascending order of names, in place of a field
of the same name. -/
def insertField (name : String) (value : Json) : List (String × Json) → List (String × Json)
  | [] => [(name, value)]
  | (other, kept) :: fields =>
    if name < other then (name, value) :: (other, kept) :: fields
    else if name = other then (name, value) :: fields
    else (other, kept) :: insertField name value fields

/-- An object with its fields in ascending order of names; of two fields of one name the last one is
kept. -/
def ofFields (fields : List (String × Json)) : Json :=
  object (fields.foldl (fun sorted field => insertField field.1 field.2 sorted) [])

/-- The value of a field; `null` if there is none, or if the value is no object. -/
def field (name : String) : Json → Json
  | object fields => (fields.lookup name).getD null
  | _ => null

/-- A whole number. -/
def ofInt (value : Int) : Json := number (.integer value)

/-- A whole number. -/
def ofNat (value : Nat) : Json := ofInt value

/-- A text, or `null`. -/
def ofText? : Option String → Json
  | some text => string text
  | none => null

/-! ### Text -/

/-- The text of a number. -/
def Number.text : Number → String
  | integer value => toString value
  | double value => value.text

/-- A hexadecimal digit. -/
def hexDigit (n : Nat) : Char := Nat.digitChar n

/-- One character of a text: quotes, backslashes and control characters are escaped. -/
def escape (c : Char) : List Char :=
  if c = '"' then ['\\', '"']
  else if c = '\\' then ['\\', '\\']
  else if c = '\x08' then ['\\', 'b']
  else if c = '\x0c' then ['\\', 'f']
  else if c = '\n' then ['\\', 'n']
  else if c = '\r' then ['\\', 'r']
  else if c = '\t' then ['\\', 't']
  else if c.toNat < 0x20 then
    ['\\', 'u', '0', '0', hexDigit (c.toNat / 16), hexDigit (c.toNat % 16)]
  else [c]

/-- A text between quotes. -/
def textLiteral (text : String) : List Char :=
  '"' :: text.toList.flatMap escape ++ ['"']

mutual

/-- The characters of a value. -/
def chars : Json → List Char
  | null => "null".toList
  | bool true => "true".toList
  | bool false => "false".toList
  | number value => value.text.toList
  | string value => textLiteral value
  | array items => '[' :: itemChars items ++ [']']
  | object fields => '{' :: fieldChars fields ++ ['}']

/-- The characters of the items of an array, with commas between them. -/
def itemChars : List Json → List Char
  | [] => []
  | [item] => chars item
  | item :: items => chars item ++ ',' :: itemChars items

/-- The characters of the fields of an object, with commas between them. -/
def fieldChars : List (String × Json) → List Char
  | [] => []
  | [(name, value)] => textLiteral name ++ ':' :: chars value
  | (name, value) :: fields => textLiteral name ++ ':' :: chars value ++ ',' :: fieldChars fields

end

/-- The text of a value, without white space. -/
def render (value : Json) : String := String.ofList (chars value)

end Json

end MediaCatalogue
