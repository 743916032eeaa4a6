/-!
Blank characters, and text with the blanks at its ends removed.
-/

namespace SvgDiagram
namespace Text

/-- Code points of the blank characters, in increasing order. -/
def blanks : List Nat := [
  0x9, 0xA, 0xB, 0xC, 0xD, 0x1C, 0x1D, 0x1E, 0x1F, 0x20, 0x85, 0xA0, 0x1680, 0x2000, 0x2001, 0x2002,
  0x2003, 0x2004, 0x2005, 0x2006, 0x2007, 0x2008, 0x2009, 0x200A, 0x2028, 0x2029, 0x202F, 0x205F,
  0x3000]

def isBlank (c : Char) : Bool := blanks.contains c.toNat

/-- Whether the character may stand around a numeral. The four information separators are blank, and
yet no numeral may be padded with them. -/
def isPadding (c : Char) : Bool := isBlank c && !(0x1C ≤ c.toNat && c.toNat ≤ 0x1F)

/-- The text without the leading and trailing characters that satisfy `p`. -/
def trimBoth (p : Char → Bool) (cs : List Char) : List Char :=
  ((cs.dropWhile p).reverse.dropWhile p).reverse

def strip (cs : List Char) : List Char := trimBoth isBlank cs

def stripEnd (cs : List Char) : List Char := (cs.reverse.dropWhile isBlank).reverse

end Text
end SvgDiagram
