/-!
# Words

Storage columns and messages hold numbers in words of 32 or 64 bits. The limits of words are written
out here, and `Word.fits` tells whether a number fits the signed word of a storage column.
-/

namespace MediaCatalogue.Word

/-- A number of 32 bits lies below two to the power of 32. -/
abbrev limit32 : Nat := 0x100000000

/-- A number of 64 bits lies below two to the power of 64. -/
abbrev limit64 : Nat := 0x10000000000000000

/-- A signed number of 64 bits lies below two to the power of 63, and not below its negative. -/
abbrev signedLimit : Nat := 0x8000000000000000

/-- The number fits a signed word of 64 bits. -/
def fits (n : Int) : Bool := -(signedLimit : Int) ≤ n && n < signedLimit

theorem fits_iff {n : Int} : fits n = true ↔ -(signedLimit : Int) ≤ n ∧ n < signedLimit := by
  simp [fits]

end MediaCatalogue.Word
