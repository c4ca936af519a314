import FormulaEdit.Text.CodeRange

/-!
# White space

Blank characters separate atoms and are cut from the ends of a chunk of text.
-/

namespace FormulaEdit.Text

/-- The code points of white space. -/
def blankRanges : CodeRanges := [
    (0x9, 0xd), (0x1c, 0x20), (0x85, 0x85), (0xa0, 0xa0), (0x1680, 0x1680), (0x2000, 0x200a),
    (0x2028, 0x2029), (0x202f, 0x202f), (0x205f, 0x205f), (0x3000, 0x3000)]

/-- Whether a character is white space. -/
def isBlank (c : Char) : Bool :=
  blankRanges.has c.toNat

/-- A text without the white space at its two ends. -/
def stripChars (text : List Char) : List Char :=
  ((text.dropWhile isBlank).reverse.dropWhile isBlank).reverse

/-- A text without the white space at its two ends. -/
def strip (text : String) : String :=
  String.ofList (stripChars text.toList)

end FormulaEdit.Text
