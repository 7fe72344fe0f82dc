import MediaCatalogue.Toml.Number

/-!
# TOML documents

`Toml.parse` reads a document: lines that give keys their values, headers of tables, blank lines and
comments. Values nest to a limited depth, and paths of keys have a limited length.
-/

namespace MediaCatalogue.Toml.Reader

/-- Values and paths must have fewer levels than this. -/
def levelLimit : Nat := 80

/-- Drops white space inside a line. -/
def skipSpaces (cs : List Char) : List Char := cs.dropWhile isSpace

/-- Drops a comment, if there is one. -/
def skipComment : List Char → List Char
  | '#' :: cs => cs.dropWhile isPlain
  | cs => cs

/-- The rest of a line: nothing but a comment. -/
def lineEnd? (cs : List Char) : Option (List Char) :=
  match skipComment (skipSpaces cs) with
  | [] => some []
  | cs => lineBreak? cs

/-- Drops white space, line breaks and comments that are complete. -/
def skipFill : Bool → List Char → Option (List Char)
  | _, '\r' :: '\n' :: cs => skipFill false cs
  | _, '\n' :: cs => skipFill false cs
  | true, [] => none
  | false, [] => some []
  | true, c :: cs => if isPlain c then skipFill true cs else none
  | false, c :: cs =>
    if isSpace c then skipFill false cs
    else if c == '#' then skipFill true cs
    else some (c :: cs)

/-! ### Keys -/

/-- The character may stand in a key without quotes. -/
def isBare (c : Char) : Bool := (c.isAlphanum || c == '-' || c == '_')

/-- One key. -/
def simpleKey : Part String := fun cs =>
  match cs with
  | [] => none
  | c :: _ =>
    if c == '"' || c == '\'' then (lineText cs).map fun (text, rest) => (String.ofList text, rest)
    else if isBare c then some (String.ofList (cs.takeWhile isBare), cs.dropWhile isBare)
    else none

/-- Keys with points between them, at most `fuel` ones. -/
def keysFrom : Nat → Part (List String)
  | 0, _ => none
  | fuel + 1, cs => do
    let (key, rest) ← simpleKey (skipSpaces cs)
    match skipSpaces rest with
    | '.' :: rest => do
      let (keys, rest) ← keysFrom fuel rest
      return (key :: keys, rest)
    | rest => return ([key], rest)

/-- A path of keys: those on the way, and the last one. -/
def path : Part (List String × String) := fun cs => do
  let (keys, rest) ← keysFrom (levelLimit - 1) cs
  return ((keys.dropLast, ← keys.getLast?), rest)

/-! ### Values -/

/-- The items of an array after its bracket, at most `fuel` ones. -/
def arrayItems (item : Part Toml) : Nat → Part (List Toml)
  | 0, _ => none
  | fuel + 1, cs => do
    match ← skipFill false cs with
    | ']' :: rest => return ([], rest)
    | cs =>
      let (first, rest) ← item cs
      match ← skipFill false rest with
      | ']' :: rest => return ([first], rest)
      | ',' :: rest => do
        let (items, rest) ← arrayItems item fuel rest
        return (first :: items, rest)
      | _ => none

/-- A key with its value, put into a table. -/
def assignment (item : Part Toml) (t : Table) : Part Table := fun cs => do
  let ((keys, key), rest) ← path cs
  let ((), rest) ← mark '=' rest
  let (value, rest) ← item (skipSpaces rest)
  return (← t.assign keys key value, rest)

/-- The keys and values of a table between braces, at most `fuel` ones, put into a table. -/
def inlineEntries (item : Part Toml) : Nat → Table → Part Table
  | 0, _, _ => none
  | fuel + 1, t, cs => do
    let (t, rest) ← assignment item t cs
    match skipSpaces rest with
    | '}' :: rest => return (t, rest)
    | ',' :: rest => inlineEntries item fuel t rest
    | _ => none

/-- A table between braces, after the opening one. -/
def inlineTable (item : Part Toml) : Part Toml := fun cs =>
  match skipSpaces cs with
  | '}' :: rest => some (.table [], rest)
  | _ => (inlineEntries item cs.length {} cs).map fun (t, rest) => (t.close, rest)

/-- A value that has fewer than `levels + 1` levels. -/
def value (levels : Nat) : Part Toml := fun cs =>
  match cs, levels with
  | '[' :: rest, levels + 1 =>
    (arrayItems (value levels) cs.length rest).map fun (items, rest) => (.array items, rest)
  | '{' :: rest, levels + 1 => inlineTable (value levels) rest
  | 't' :: 'r' :: 'u' :: 'e' :: rest, _ => some (.boolean true, rest)
  | 'f' :: 'a' :: 'l' :: 's' :: 'e' :: rest, _ => some (.boolean false, rest)
  | c :: rest, _ =>
    if c == '"' || c == '\'' then
      (text (c :: rest)).map fun (text, rest) => (.string (String.ofList text), rest)
    else number (c :: rest)
  | [], _ => none

/-! ### Lines -/

/-- A document in the middle of reading it. -/
structure Draft where
  /-- The whole table. -/
  root : Table := {}
  /-- The path of the last header. -/
  header : List String := []

/-- The line of a header. -/
def headerLine (d : Draft) : List Char → Option (Draft × List Char)
  | '[' :: '[' :: cs => do
    let ((keys, key), rest) ← path cs
    let ((), rest) ← mark ']' rest
    let ((), rest) ← mark ']' rest
    return (⟨← d.root.append? keys key, keys ++ [key]⟩, ← lineEnd? rest)
  | '[' :: cs => do
    let ((keys, key), rest) ← path cs
    let ((), rest) ← mark ']' rest
    return (⟨← d.root.open? keys key, keys ++ [key]⟩, ← lineEnd? rest)
  | _ => none

/-- The line of a key. -/
def keyLine (d : Draft) (cs : List Char) : Option (Draft × List Char) := do
  let ((keys, key), rest) ← path cs
  let ((), rest) ← mark '=' rest
  let (value, rest) ← value (levelLimit - 1) (skipSpaces rest)
  let root ← Table.alter false (Table.assign keys key value) d.header d.root
  return ({ d with root }, ← lineEnd? rest)

/-- The lines of a document, at most `fuel` ones. -/
def lines : Nat → Draft → List Char → Option Draft
  | 0, _, _ => none
  | fuel + 1, d, cs =>
    match skipSpaces cs with
    | [] => some d
    | c :: cs => do
      let (d, rest) ←
        if c == '[' then headerLine d (c :: cs)
        else if c == '#' || c == '\n' || c == '\r' then (lineEnd? (c :: cs)).map (d, ·)
        else keyLine d (c :: cs)
      lines fuel d rest

end MediaCatalogue.Toml.Reader

namespace MediaCatalogue.Toml

/-- Reads a document. A byte order mark at its start does not count. -/
def parse (document : String) : Option Toml :=
  let cs := document.toList
  let cs := if cs.head? = some '\ufeff' then cs.tail else cs
  (Reader.lines (cs.length + 1) {} cs).map (·.root.close)

end MediaCatalogue.Toml
