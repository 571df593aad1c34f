/-! # Blanks

The characters that set words apart, by the property `White_Space`: blanks of all widths,
tabulators and all marks that end a line or a paragraph.
-/

set_option autoImplicit false

namespace SplitReader.Text

/-- The blanks past ASCII that stand alone in their neighbourhood. -/
def wideBlanks : List Nat := [0x85, 0xA0, 0x1680, 0x2028, 0x2029, 0x202F, 0x205F, 0x3000]

/-- The character is a blank or ends a line. -/
def isBlank (c : Char) : Bool :=
  let n := c.toNat
  n = 0x20 || (0x09 ≤ n && n ≤ 0x0D) || (0x2000 ≤ n && n ≤ 0x200A) || wideBlanks.contains n

def trimmed (cs : List Char) : List Char :=
  ((cs.dropWhile isBlank).reverse.dropWhile isBlank).reverse

end SplitReader.Text
