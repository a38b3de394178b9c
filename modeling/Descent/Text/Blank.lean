import Descent.Text.CharSet

/-!
# White space

The white space characters of the Unicode standard, and texts without white space
at their ends.
-/

namespace Descent.Text

/-- White space: the six ASCII characters and the spaces and separators of other scripts. -/
def whiteSpace : CharSet :=
  ⟨[(0x9, 0xD), (0x20, 0x20), (0x85, 0x85), (0xA0, 0xA0), (0x1680, 0x1680), (0x2000, 0x200A),
    (0x2028, 0x2029), (0x202F, 0x202F), (0x205F, 0x205F), (0x3000, 0x3000)]⟩

/-- The character is white space. -/
def isBlank (c : Char) : Bool := whiteSpace.contains c

/-- A text without the white space at its end. -/
def trimEnd (cs : List Char) : List Char := (cs.reverse.dropWhile isBlank).reverse

/-- A text without the white space at its two ends. -/
def trim (cs : List Char) : List Char := trimEnd (cs.dropWhile isBlank)

end Descent.Text
