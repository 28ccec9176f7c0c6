/-!
# Blank characters

A blank is a character with the Unicode property White_Space. Names, numerals
and type tags are read after the blanks at both ends are cut off, and a text of
blanks alone counts as empty.
-/

namespace SqlText.Text

/-- The 25 code points with the Unicode property White_Space. -/
def isBlank (c : Char) : Bool :=
  let n := c.toNat
  (0x09 ≤ n && n ≤ 0x0D) || n == 0x20 || n == 0x85 || n == 0xA0 || n == 0x1680 ||
    (0x2000 ≤ n && n ≤ 0x200A) || n == 0x2028 || n == 0x2029 || n == 0x202F ||
    n == 0x205F || n == 0x3000

/-- The text without the blanks at its two ends. -/
def trimmed (cs : List Char) : List Char :=
  ((cs.dropWhile isBlank).reverse.dropWhile isBlank).reverse

/-- Nothing but blanks, or nothing at all. -/
def isBlankText (s : String) : Bool :=
  s.toList.all isBlank

end SqlText.Text
