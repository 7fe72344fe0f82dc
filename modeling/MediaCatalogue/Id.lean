import MediaCatalogue.Word
import Std.Data.ExtTreeMap
import Std.Data.ExtTreeSet

/-!
# Content identifiers

An `Id` names one publisher's record of one work. It is a number below `Word.signedLimit`, so it
fits a signed storage column, and it travels as a compact lower case *code*: the number in base 30,
written with digits and consonants only (no vowels, so that codes never spell words), without
leading zeros.

* `Id.code` writes the code of an id, `Id.ofCode` reads one;
* `Id.ofNat` and `Id.ofStored` check numbers that come from callers and from storage columns;
* `Id.CodeError` lists what can be wrong with a code, in the order in which the faults are looked
  for;
* `IdSet` and `IdMap` are the finite sets and maps over ids that the rest of the library uses. They
  are extensional: two of them with the same members are equal.
-/

namespace MediaCatalogue

/-- A content identifier: a number that fits a signed 64-bit column. -/
structure Id where
  /-- The number. -/
  value : Nat
  /-- Ids fit a signed 64-bit column. -/
  value_lt : value < Word.signedLimit
deriving DecidableEq, Repr

namespace Id

/-- The id of the number zero. -/
def zero : Id := ⟨0, by decide⟩

instance : Inhabited Id := ⟨zero⟩

/-- Numerals are ids, up to the bits that do not fit. -/
instance (n : Nat) : OfNat Id n := ⟨⟨n % Word.signedLimit, Nat.mod_lt n (by decide)⟩⟩

@[ext]
theorem ext {a b : Id} (h : a.value = b.value) : a = b := by
  cases a
  cases b
  cases h
  rfl

/-! ### Order -/

/-- Ids are ordered by their numbers. -/
instance : Ord Id := ⟨compareOn value⟩

instance : Std.TransOrd Id := inferInstanceAs (Std.TransCmp (compareOn value))

instance : Std.LawfulEqOrd Id where
  eq_of_compare h := Id.ext (Std.LawfulEqOrd.eq_of_compare (α := Nat) h)

/-! ### Numbers and storage columns -/

/-- What can be wrong with the code of an id. -/
inductive CodeError where
  /-- The code has no character. -/
  | empty
  /-- A character of the code is not in the alphabet. -/
  | badDigit (code : String)
  /-- The number written by the code does not fit 64 bits. -/
  | overflow (code : String)
  /-- The number is not below `Word.signedLimit`. -/
  | outOfRange (value : Nat)
deriving DecidableEq, Repr

/-- The wording of a code error. -/
def CodeError.message : CodeError → String
  | empty => "empty id code"
  | badDigit code => s!"invalid id code: {code}"
  | overflow code => s!"id code overflows: {code}"
  | outOfRange value => s!"id {value} out of range"

/-- The id of a number that is small enough. -/
def ofNat (value : Nat) : Except CodeError Id :=
  if h : value < Word.signedLimit then .ok ⟨value, h⟩ else .error (.outOfRange value)

/-- The number that a storage column holds for an id. -/
def stored (id : Id) : Int := id.value

/-- The id that a storage column holds, if the number in it is one. -/
def ofStored? : Int → Option Id
  | .ofNat value => if h : value < Word.signedLimit then some ⟨value, h⟩ else none
  | .negSucc _ => none

@[simp]
theorem ofStored?_stored (id : Id) : ofStored? id.stored = some id :=
  dif_pos id.value_lt

theorem ofStored?_eq_some_iff {column : Int} {id : Id} :
    ofStored? column = some id ↔ column = id.stored := by
  constructor
  · intro h
    cases column with
    | ofNat value =>
      simp only [ofStored?] at h
      split at h
      · cases h
        rfl
      · cases h
    | negSucc => cases h
  · rintro rfl
    exact ofStored?_stored id

theorem stored_injective {a b : Id} (h : a.stored = b.stored) : a = b := by
  apply Id.ext
  simp only [stored] at h
  omega

/-! ### Codes -/

/-- The digits of a code, least first: the decimal digits, then the consonants but `l`. -/
def alphabet : List Char := "0123456789bcdfghjkmnpqrstvwxyz".toList

/-- The base of codes. -/
def base : Nat := 30

/-- The value of a digit. -/
def digit? (c : Char) : Option Nat := alphabet.idxOf? c

/-- The digit of a value below the base. -/
def digitOf (value : Nat) : Char := alphabet.getD value '0'

/-- The digits of a number, most significant first; one digit for zero. -/
def digits (n : Nat) : List Char :=
  if n < base then [digitOf n] else digits (n / base) ++ [digitOf (n % base)]
termination_by n
decreasing_by simp only [base] at *; omega

/-- The code of an id. -/
def code (id : Id) : String := String.ofList (digits id.value)

/-- Reads the digits `cs` of `code` after digits that were worth `value`: each one must be in the
alphabet, and no intermediate number may need more than 64 bits. -/
def readDigits (code : String) : List Char → Nat → Except CodeError Nat
  | [], value => .ok value
  | c :: cs, value =>
    match digit? c with
    | none => .error (.badDigit code)
    | some d =>
      if value * base + d < Word.limit64 then readDigits code cs (value * base + d)
      else .error (.overflow code)

/-- Reads the code of an id. Leading zeros are allowed. -/
def ofCode (code : String) : Except CodeError Id :=
  if code.isEmpty then .error .empty
  else do ofNat (← readDigits code code.toList 0)

end Id

/-- Finite sets of ids. -/
abbrev IdSet := Std.ExtTreeSet Id

/-- Finite maps from ids. -/
abbrev IdMap (β : Type) := Std.ExtTreeMap Id β

namespace IdSet

/-- The set of the ids of a list. -/
def ofList (ids : List Id) : IdSet := Std.ExtTreeSet.ofList ids

@[simp]
theorem mem_ofList {ids : List Id} {id : Id} : id ∈ ofList ids ↔ id ∈ ids := by
  simp [ofList, Std.ExtTreeSet.mem_ofList]

end IdSet

end MediaCatalogue
