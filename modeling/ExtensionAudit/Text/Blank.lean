/-!
Blanks: the characters that separate words. They are the white space of Unicode and the four
information separators U+001C to U+001F. Trimming, blank tests and the gaps of a call all mean this
one class.
-/

namespace ExtensionAudit.Text

/-- White space, or one of the four information separators. -/
def isBlank (c : Char) : Bool :=
  let n := c.toNat
  (0x09 ≤ n && n ≤ 0x0D) || (0x1C ≤ n && n ≤ 0x20) || n == 0x85 || n == 0xA0 || n == 0x1680 ||
    (0x2000 ≤ n && n ≤ 0x200A) || n == 0x2028 || n == 0x2029 || n == 0x202F || n == 0x205F ||
    n == 0x3000

def dropBlanks (cs : List Char) : List Char := cs.dropWhile isBlank

def dropTrailingBlanks (cs : List Char) : List Char := (cs.reverse.dropWhile isBlank).reverse

def trim (cs : List Char) : List Char := dropTrailingBlanks (dropBlanks cs)

def isAllBlank (cs : List Char) : Bool := cs.all isBlank

end ExtensionAudit.Text
