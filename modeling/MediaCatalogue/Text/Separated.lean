/-!
# Separated texts

`Text.separated c` splits a text at every `c`. There is one part more than there are separators, so
that the empty text has one part, which is empty.
-/

namespace MediaCatalogue.Text

/-- The parts between the separators `c`. -/
def separated (c : Char) : List Char → List (List Char)
  | [] => [[]]
  | d :: ds =>
    if d = c then [] :: separated c ds
    else
      match separated c ds with
      | [] => [[d]]
      | part :: parts => (d :: part) :: parts

theorem separated_ne_nil (c : Char) (cs : List Char) : separated c cs ≠ [] := by
  cases cs with
  | nil => simp [separated]
  | cons d ds =>
    simp only [separated]
    split
    · simp
    · split <;> simp

end MediaCatalogue.Text
