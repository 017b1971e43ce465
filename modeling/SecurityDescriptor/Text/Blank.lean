/-!
# Blank characters

The characters that count as blank at the two ends of a line, after the Unicode
property White_Space and the four information separators U+001C to U+001F.  A zero
width space and a byte order mark are not blank.
-/

namespace SecurityDescriptor.Text

/-- A character that is dropped at the ends of a line. -/
def isBlank (c : Char) : Bool :=
  let n := c.toNat
  (0x09 ≤ n && n ≤ 0x0d) || (0x1c ≤ n && n ≤ 0x20) || n == 0x85 || n == 0xa0 || n == 0x1680
    || (0x2000 ≤ n && n ≤ 0x200a) || n == 0x2028 || n == 0x2029 || n == 0x202f || n == 0x205f
    || n == 0x3000

/-- Drops the blanks at both ends. -/
def strip (cs : List Char) : List Char :=
  ((cs.dropWhile isBlank).reverse.dropWhile isBlank).reverse

end SecurityDescriptor.Text
