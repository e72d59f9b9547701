/-!
# Blank characters

The characters with the property `White_Space`, and texts without them at either end.

## Main definitions

- `isBlank`: the property.
- `trimBlank`: a text without the blanks at its ends.
-/

namespace VirtualTopology.Text

/-- The characters with the property `White_Space`. -/
def isBlank (c : Char) : Bool :=
  let n := c.toNat
  (0x9 ≤ n && n ≤ 0xD) || n == 0x20 || n == 0x85 || n == 0xA0 || n == 0x1680 ||
    (0x2000 ≤ n && n ≤ 0x200A) || n == 0x2028 || n == 0x2029 || n == 0x202F || n == 0x205F ||
    n == 0x3000

/-- A text without the blanks before its first and after its last other character. -/
def trimBlank (cs : List Char) : List Char :=
  ((cs.dropWhile isBlank).reverse.dropWhile isBlank).reverse

end VirtualTopology.Text
