import MediaCatalogue.Json.Decode
import MediaCatalogue.Query.Services

/-!
# A title index on the network

A `TitleIndex` is asked by fetching an address, and answers with a list of hits in JSON, the best
first. Fetching is left to the caller: it gives a response, or nothing if the index cannot be
reached.

* `TitleIndex.address` is the address that is fetched for a query;
* `TitleIndex.hits` reads a response: each id counts once, at its first place.
-/

namespace MediaCatalogue

/-- The answer to fetching an address. -/
structure Response where
  /-- The status; 200 to 299 mean success. -/
  status : Nat
  /-- What was sent. -/
  body : List UInt8

/-- A title index on the network. -/
structure TitleIndex where
  /-- Where the index is, without slashes at the end. -/
  base : String
deriving DecidableEq, Repr

namespace TitleIndex

/-- The index at an address. Slashes at its end do not count. -/
def ofAddress (address : String) : TitleIndex :=
  ⟨String.ofList (address.toList.reverse.dropWhile (· = '/')).reverse⟩

/-- The byte stands for itself in an address. -/
def isPlain (b : UInt8) : Bool :=
  let c := Char.ofNat b.toNat
  b < 0x80 && (c.isAlphanum || c == '*' || c == '-' || c == '.' || c == '_')

/-- A hexadecimal digit. -/
def hexDigit (n : Nat) : Char := (Nat.digitChar n).toUpper

/-- A text as a part of an address. -/
def encode (text : String) : List Char :=
  (Text.Utf8.encode text).flatMap fun b =>
    if b == 0x20 then ['+']
    else if isPlain b then [Char.ofNat b.toNat]
    else ['%', hexDigit (b.toNat / 16), hexDigit (b.toNat % 16)]

/-- What is asked for, as names with values. -/
def parameters (query : TitleQuery) : List (String × String) :=
  [("q", query.text), ("limit", toString query.selection.limit),
   ("offset", toString query.selection.offset)] ++
    if query.publishers.isEmpty then []
    else [("publishers", String.intercalate "," query.publishers)]

/-- The address that is fetched for a query. Parameters that the base has are kept, what follows a
`#` is not sent. -/
def address (index : TitleIndex) (query : TitleQuery) : String :=
  let titles := String.ofList ((index.base ++ "/titles").toList.takeWhile (· ≠ '#'))
  let mark := if titles.toList.contains '?' then "&" else "?"
  let pairs := (parameters query).map fun (name, value) =>
    name ++ "=" ++ String.ofList (encode value)
  titles ++ mark ++ String.intercalate "&" pairs

open Json.Decoder in
/-- Reads a list of hits. -/
def decoder : Json.Decoder (List Id) :=
  let hit := record "SearchHit" [required "id" Json.Decoder.id fun id _ => id] Id.zero
  record "SearchResponse" [defaulted "results" (list hit) fun hits _ => hits] []

/-- The ids in a response. -/
def hits (response : Response) : Except Fault (List Id) :=
  if 200 ≤ response.status ∧ response.status < 300 then
    match decoder.run response.body with
    | .ok ids => .ok (distinct ids)
    | .error _ => .error (.dependency .invalidResponse)
  else .error (.dependency (.refused response.status (Text.Utf8.decodeLossy response.body)))

/-- Asks the index. -/
def search (index : TitleIndex) (fetch : String → Option Response) (query : TitleQuery) :
    Except Fault (List Id) :=
  match fetch (index.address query) with
  | none => .error (.dependency .unreachable)
  | some response => hits response

end TitleIndex

end MediaCatalogue
