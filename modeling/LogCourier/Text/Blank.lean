/-!
# Blank characters

The characters with the Unicode property *White_Space*, twenty-five of them, and
the removal of those that end a text. The tabulator, the line ends and the space
are among them, and so are the no-break space and the ideographic space, which
the ASCII classes of core leave out.
-/

namespace LogCourier.Text

/-- Whether a character has the property *White_Space*. -/
def isBlank (c : Char) : Bool :=
  let n := c.toNat
  (9 ≤ n && n ≤ 13) || n == 0x20 || n == 0x85 || n == 0xA0 || n == 0x1680
    || (0x2000 ≤ n && n ≤ 0x200A) || n == 0x2028 || n == 0x2029 || n == 0x202F
    || n == 0x205F || n == 0x3000

/-- A text without the blanks that end it. -/
def trimEnd (cs : List Char) : List Char :=
  (cs.reverse.dropWhile isBlank).reverse

end LogCourier.Text
