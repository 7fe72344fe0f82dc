/-!
# UTF-8

Texts and the bytes that write them. `Text.Utf8.encode` writes a text; `Text.Utf8.decode` reads
bytes and refuses every sequence that no text is written as: stray continuation bytes, overlong
forms, surrogates, numbers above the last code point and sequences that are cut short.
-/

namespace MediaCatalogue.Text.Utf8

/-- The bytes of a text. -/
def encode (text : String) : List UInt8 := text.toList.flatMap String.utf8EncodeChar

/-- The byte continues a sequence. -/
def isContinuation (b : UInt8) : Bool := 0x80 ≤ b && b < 0xc0

/-- The last six bits of a continuation byte. -/
def payload (b : UInt8) : Nat := b.toNat % 0x40

/-- The characters that the bytes write. -/
def characters : List UInt8 → Option (List Char)
  | [] => some []
  | a :: rest =>
    if a < 0x80 then (characters rest).map (Char.ofNat a.toNat :: ·)
    else match rest with
    | [] => none
    | b :: rest =>
      if !isContinuation b then none
      else if 0xc2 ≤ a && a < 0xe0 then
        (characters rest).map (Char.ofNat (a.toNat % 0x20 * 0x40 + payload b) :: ·)
      else match rest with
      | [] => none
      | c :: rest =>
        if !isContinuation c then none
        else if 0xe0 ≤ a && a < 0xf0 then
          let code := (a.toNat % 0x10 * 0x40 + payload b) * 0x40 + payload c
          if 0x800 ≤ code && !(0xd800 ≤ code && code < 0xe000) then
            (characters rest).map (Char.ofNat code :: ·)
          else none
        else match rest with
        | [] => none
        | d :: rest =>
          if !isContinuation d then none
          else
            let code := ((a.toNat % 8 * 0x40 + payload b) * 0x40 + payload c) * 0x40 + payload d
            if 0xf0 ≤ a && a < 0xf8 && 0x10000 ≤ code && code < 0x110000 then
              (characters rest).map (Char.ofNat code :: ·)
            else none

/-- The text that the bytes write, if they are UTF-8. -/
def decode (bytes : List UInt8) : Option String := (characters bytes).map String.ofList

/-! ### Reading whatever can be read -/

/-- The least and the greatest byte that may follow the first byte of a sequence. -/
def secondRange (a : UInt8) : UInt8 × UInt8 :=
  if a == 0xe0 then (0xa0, 0xbf)
  else if a == 0xed then (0x80, 0x9f)
  else if a == 0xf0 then (0x90, 0xbf)
  else if a == 0xf4 then (0x80, 0x8f)
  else (0x80, 0xbf)

/-- How many bytes a sequence with this first byte has, if it can be a first byte. -/
def sequenceLength? (a : UInt8) : Option Nat :=
  if a < 0x80 then some 1
  else if 0xc2 ≤ a && a < 0xe0 then some 2
  else if 0xe0 ≤ a && a < 0xf0 then some 3
  else if 0xf0 ≤ a && a < 0xf5 then some 4
  else none

/-- How many of the bytes after the first one belong to its sequence, as far as they are right. -/
def rightBytes (a : UInt8) (rest : List UInt8) : Nat :=
  match sequenceLength? a, rest with
  | some length, b :: rest =>
    let (low, high) := secondRange a
    if 1 < length && low ≤ b && b ≤ high then
      1 + ((rest.take (length - 2)).takeWhile isContinuation).length
    else 0
  | _, _ => 0

/-- The characters that the bytes write, with a replacement character for every sequence that breaks
off. -/
def charactersLossy : List UInt8 → List Char
  | [] => []
  | a :: rest =>
    let size := rightBytes a rest
    let read := (characters (a :: rest.take size)).getD ['\ufffd']
    read ++ charactersLossy (rest.drop size)
termination_by bytes => bytes.length
decreasing_by
  simp only [List.length_drop, List.length_cons]
  omega

/-- The text that the bytes write, with replacement characters for what is not UTF-8. -/
def decodeLossy (bytes : List UInt8) : String := String.ofList (charactersLossy bytes)

end MediaCatalogue.Text.Utf8
