import MediaCatalogue.Json.Node
import MediaCatalogue.Text.Hexadecimal

/-!
# Reading JSON

The reader takes a document one byte at a time. What it knows between two bytes is a `Reader.State`:
the stack of the arrays and objects that are open, and a `Reader.Phase` that says what may come
next. Because a step looks at one byte only, reading a concatenation is reading its parts one after
the other (`List.foldlM_append`), and documents of any depth are read without recursion.

* `Reader.step` is the effect of one byte, `Reader.finish` that of the end of the input;
* `read` is the document that some bytes write, if they write exactly one.
-/

namespace MediaCatalogue.Json

namespace Reader

/-- An array or object that is open. The items and fields that are complete stand last first. -/
inductive Frame where
  /-- An array. -/
  | array (items : List Node)
  /-- An object. -/
  | object (fields : List (Option String × Node))
  /-- An object in which the name of a field was read, and its value is still to come. -/
  | field (fields : List (Option String × Node)) (name : Option String)

/-- The last part of a number that was read. -/
inductive NumberPart where
  /-- The minus sign. -/
  | sign
  /-- A zero in front of the point. -/
  | zero
  /-- A digit in front of the point. -/
  | whole
  /-- The point. -/
  | point
  /-- A digit behind the point. -/
  | fraction
  /-- The letter of the exponent. -/
  | mark
  /-- The sign of the exponent. -/
  | markSign
  /-- A digit of the exponent. -/
  | exponent
deriving DecidableEq

/-- A number that is being read: its digits stand last first. -/
structure Draft where
  /-- The last part that was read. -/
  part : NumberPart
  /-- There is a minus sign. -/
  negative : Bool := false
  /-- The digits before the point. -/
  whole : List Nat := []
  /-- The digits behind the point. -/
  fraction : List Nat := []
  /-- The exponent has a minus sign. -/
  exponentNegative : Bool := false
  /-- The size of the exponent. -/
  exponent : Option Nat := none

/-- The number may end here. -/
def NumberPart.complete : NumberPart → Bool
  | zero | whole | fraction | exponent => true
  | sign | point | mark | markSign => false

/-- The number that was read. -/
def Draft.numeral (d : Draft) : Numeral :=
  { negative := d.negative
    whole := d.whole.reverse
    fraction := if d.fraction.isEmpty then none else some d.fraction.reverse
    exponent := d.exponent.map fun size => if d.exponentNegative then -size else size }

/-- Where the reader stands inside a text. -/
inductive TextPart where
  /-- After a character. -/
  | character
  /-- After a backslash. -/
  | escape
  /-- After some of the four digits of a code unit, which are worth `value`. -/
  | unit (digits value : Nat)

/-- What the reader expects. -/
inductive Phase where
  /-- A value. -/
  | value
  /-- The first item of an array, or its end. -/
  | firstItem
  /-- The first name in an object, or its end. -/
  | firstName
  /-- A name. -/
  | name
  /-- The colon after a name. -/
  | colon
  /-- A comma or the end of what is open. -/
  | separator
  /-- The rest of a word that stands for a value. -/
  | word (rest : List UInt8) (node : Node)
  /-- The rest of a number. -/
  | number (draft : Draft)
  /-- The rest of a text, which is a name if `isName`; its pieces stand last first. -/
  | text (isName : Bool) (part : TextPart) (pieces : List Piece)
  /-- Nothing more: the document is complete. -/
  | done (node : Node)

/-- What the reader knows between two bytes. -/
structure State where
  /-- What is open, the innermost first. -/
  stack : List Frame
  /-- What is expected next. -/
  phase : Phase

/-- Before the first byte. -/
def start : State := ⟨[], .value⟩

/-- The byte is white space. -/
def isSpace (b : UInt8) : Bool := b == 0x20 || b == 0x09 || b == 0x0a || b == 0x0d

/-- The value of a decimal digit. -/
def digit? (b : UInt8) : Option Nat :=
  if 0x30 ≤ b && b ≤ 0x39 then some (b.toNat - 0x30) else none

/-- The value of a hexadecimal digit. -/
def hexDigit? (b : UInt8) : Option Nat := Text.hexDigit? (.ofNat b.toNat)

/-- A value is complete: it goes to what is open, or it is the document. -/
def complete (stack : List Frame) (node : Node) : Option State :=
  match stack with
  | [] => some ⟨[], .done node⟩
  | .array items :: stack => some ⟨.array (node :: items) :: stack, .separator⟩
  | .field fields name :: stack => some ⟨.object ((name, node) :: fields) :: stack, .separator⟩
  | .object _ :: _ => none

/-- A value begins. -/
def beginValue (stack : List Frame) (b : UInt8) : Option State :=
  if isSpace b then some ⟨stack, .value⟩
  else if b == 0x22 then some ⟨stack, .text false .character []⟩
  else if b == 0x5b then some ⟨.array [] :: stack, .firstItem⟩
  else if b == 0x7b then some ⟨.object [] :: stack, .firstName⟩
  else if b == 0x2d then some ⟨stack, .number { part := .sign, negative := true }⟩
  else if b == 0x30 then some ⟨stack, .number { part := .zero, whole := [0] }⟩
  else if b == 0x6e then some ⟨stack, .word [0x75, 0x6c, 0x6c] .null⟩
  else if b == 0x74 then some ⟨stack, .word [0x72, 0x75, 0x65] (.bool true)⟩
  else if b == 0x66 then some ⟨stack, .word [0x61, 0x6c, 0x73, 0x65] (.bool false)⟩
  else (digit? b).map fun d => ⟨stack, .number { part := .whole, whole := [d] }⟩

/-- A name begins. -/
def beginName (stack : List Frame) (phase : Phase) (b : UInt8) : Option State :=
  if isSpace b then some ⟨stack, phase⟩
  else if b == 0x22 then some ⟨stack, .text true .character []⟩
  else none

/-- A comma or an end, after a value. -/
def separate (stack : List Frame) (b : UInt8) : Option State :=
  if isSpace b then some ⟨stack, .separator⟩
  else
    match stack with
    | .array items :: outer =>
      if b == 0x2c then some ⟨stack, .value⟩
      else if b == 0x5d then complete outer (.array items.reverse)
      else none
    | .object fields :: outer =>
      if b == 0x2c then some ⟨stack, .name⟩
      else if b == 0x7d then complete outer (.object fields.reverse)
      else none
    | _ => none

/-- A byte after a complete value. -/
def afterValue (state : State) (b : UInt8) : Option State :=
  match state.phase with
  | .separator => separate state.stack b
  | .done _ => if isSpace b then some state else none
  | _ => none

/-- The number with one more byte in it, if the byte can belong to it. -/
def Draft.extend (d : Draft) (b : UInt8) : Option Draft :=
  match d.part, digit? b with
  | .sign, some n =>
    some { d with part := if n = 0 then .zero else .whole, whole := [n] }
  | .whole, some n => some { d with whole := n :: d.whole }
  | .point, some n | .fraction, some n =>
    some { d with part := .fraction, fraction := n :: d.fraction }
  | .mark, some n | .markSign, some n | .exponent, some n =>
    some { d with part := .exponent, exponent := some (d.exponent.getD 0 * 10 + n) }
  | .zero, none | .whole, none =>
    if b == 0x2e then some { d with part := .point }
    else if b == 0x65 || b == 0x45 then some { d with part := .mark }
    else none
  | .fraction, none => if b == 0x65 || b == 0x45 then some { d with part := .mark } else none
  | .mark, none =>
    if b == 0x2b then some { d with part := .markSign }
    else if b == 0x2d then some { d with part := .markSign, exponentNegative := true }
    else none
  | _, _ => none

/-- The number is complete. -/
def endNumber (stack : List Frame) (d : Draft) : Option State :=
  if d.part.complete then complete stack (.number d.numeral.value?) else none

/-- A byte in or after a number. A digit cannot follow a leading zero. -/
def stepNumber (stack : List Frame) (d : Draft) (b : UInt8) : Option State :=
  match d.extend b with
  | some d => some ⟨stack, .number d⟩
  | none => if (digit? b).isSome then none else do afterValue (← endNumber stack d) b

/-- The text is complete: it is a name or a value. -/
def endText (stack : List Frame) (isName : Bool) (pieces : List Piece) : Option State :=
  let text := pieceText pieces.reverse
  if isName then
    match stack with
    | .object fields :: outer => some ⟨.field fields text :: outer, .colon⟩
    | _ => none
  else complete stack (.string text)

/-- The byte that an escaped letter stands for. -/
def escaped? (b : UInt8) : Option UInt8 :=
  if b == 0x22 || b == 0x5c || b == 0x2f then some b
  else if b == 0x62 then some 0x08
  else if b == 0x66 then some 0x0c
  else if b == 0x6e then some 0x0a
  else if b == 0x72 then some 0x0d
  else if b == 0x74 then some 0x09
  else none

/-- A byte in a text. -/
def stepText (stack : List Frame) (isName : Bool) (part : TextPart) (pieces : List Piece)
    (b : UInt8) : Option State :=
  match part with
  | .character =>
    if b == 0x22 then endText stack isName pieces
    else if b == 0x5c then some ⟨stack, .text isName .escape pieces⟩
    else if b < 0x20 then none
    else some ⟨stack, .text isName .character (.byte b :: pieces)⟩
  | .escape =>
    if b == 0x75 then some ⟨stack, .text isName (.unit 0 0) pieces⟩
    else (escaped? b).map fun value => ⟨stack, .text isName .character (.byte value :: pieces)⟩
  | .unit digits value =>
    (hexDigit? b).map fun d =>
      if digits = 3 then ⟨stack, .text isName .character (.unit (value * 16 + d) :: pieces)⟩
      else ⟨stack, .text isName (.unit (digits + 1) (value * 16 + d)) pieces⟩

/-- The effect of one byte. -/
def step (state : State) (b : UInt8) : Option State :=
  match state.phase with
  | .value => beginValue state.stack b
  | .firstItem =>
    if isSpace b then some state
    else if b == 0x5d then
      match state.stack with
      | .array _ :: outer => complete outer (.array [])
      | _ => none
    else beginValue state.stack b
  | .firstName =>
    if b == 0x7d then
      match state.stack with
      | .object _ :: outer => complete outer (.object [])
      | _ => none
    else beginName state.stack .firstName b
  | .name => beginName state.stack .name b
  | .colon =>
    if isSpace b then some state
    else if b == 0x3a then some ⟨state.stack, .value⟩
    else none
  | .separator | .done _ => afterValue state b
  | .word rest node =>
    match rest with
    | expected :: rest =>
      if b != expected then none
      else if rest.isEmpty then complete state.stack node
      else some ⟨state.stack, .word rest node⟩
    | [] => none
  | .number draft => stepNumber state.stack draft b
  | .text isName part pieces => stepText state.stack isName part pieces b

/-- The document that was read, at the end of the input. -/
def finish (state : State) : Option Node :=
  match state.phase with
  | .done node => some node
  | .number draft =>
    match endNumber state.stack draft with
    | some ⟨_, .done node⟩ => some node
    | _ => none
  | _ => none

end Reader

/-- The document that the bytes write, if they write exactly one. -/
def read (bytes : List UInt8) : Option Node :=
  (bytes.foldlM Reader.step Reader.start).bind Reader.finish

end MediaCatalogue.Json
