/-!
# Blank characters

The white space of Unicode: the separators and the controls that move the pen without a mark.
-/

namespace DeviceSuite.Text

/-- Whether a character is white space. -/
def isBlank (c : Char) : Bool :=
  let code := c.toNat
  (0x09 ≤ code && code ≤ 0x0D) || code = 0x20 || code = 0x85 || code = 0xA0 || code = 0x1680 ||
    (0x2000 ≤ code && code ≤ 0x200A) || code = 0x2028 || code = 0x2029 || code = 0x202F ||
    code = 0x205F || code = 0x3000

/-- A text without its leading white space. -/
def dropBlanks (cs : List Char) : List Char := cs.dropWhile isBlank

end DeviceSuite.Text
