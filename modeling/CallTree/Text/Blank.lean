/-!
# Blank characters

Three classes of blanks are told apart. `isBlank` is the class that trimming a
piece of text removes: the white space of Unicode and the four separators of
information. `isWhiteSpace` is the white space of Unicode alone, which is what
may surround a number. `isHairline` is the class of marks that take no room, such
as a byte-order mark, and may stand between two tokens of a source.
-/

namespace CallTree.Text

/-- White space as Unicode defines it. -/
def isWhiteSpace (c : Char) : Bool :=
  let n := c.toNat
  (0x09 ≤ n && n ≤ 0x0D) || n = 0x20 || n = 0x85 || n = 0xA0 || n = 0x1680
    || (0x2000 ≤ n && n ≤ 0x200A) || n = 0x2028 || n = 0x2029 || n = 0x202F
    || n = 0x205F || n = 0x3000

/-- What trimming removes. -/
def isBlank (c : Char) : Bool :=
  isWhiteSpace c || (0x1C ≤ c.toNat && c.toNat ≤ 0x1F)

/-- A blank without width that may stand between two tokens. -/
def isHairline (c : Char) : Bool :=
  c.toNat = 0xFEFF || c.toNat = 0x2060 || c.toNat = 0x200B

end CallTree.Text
