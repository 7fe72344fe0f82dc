import MediaCatalogue.Text.Hexadecimal
import MediaCatalogue.Text.Shown

/-!
# Quoted texts

`Text.quoted` shows a text on one line between double quotes, so that a complaint about it can be
read: quotes and backslashes get a backslash, a few control characters their letter, and every other
character that cannot be shown its code in braces.
-/

namespace MediaCatalogue.Text

/-- One character of a quoted text. -/
def quotedChar (c : Char) : String :=
  if c = '\x00' then "\\0"
  else if c = '\t' then "\\t"
  else if c = '\r' then "\\r"
  else if c = '\n' then "\\n"
  else if c = '"' then "\\\""
  else if c = '\\' then "\\\\"
  else if isShown c then c.toString
  else "\\u\x7b" ++ hex c.toNat ++ "\x7d"

/-- The text between double quotes, with escapes for what cannot be shown as itself. -/
def quoted (text : String) : String :=
  "\"" ++ String.join (text.toList.map quotedChar) ++ "\""

end MediaCatalogue.Text
