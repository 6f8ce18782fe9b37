import Dpll.Text.Split

/-!
# Blanks and words

A blank is a character with the Unicode property `White_Space`. Words are the longest stretches of
other characters.
-/

set_option autoImplicit false

namespace Dpll.Text

/-- The characters with the property `White_Space`, as ranges of code points. -/
def blankRanges : List (Nat × Nat) :=
  [(0x09, 0x0D), (0x20, 0x20), (0x85, 0x85), (0xA0, 0xA0), (0x1680, 0x1680), (0x2000, 0x200A),
    (0x2028, 0x2029), (0x202F, 0x202F), (0x205F, 0x205F), (0x3000, 0x3000)]

def isBlank (char : Char) : Bool :=
  blankRanges.any fun range => range.1 ≤ char.toNat && char.toNat ≤ range.2

def words (text : List Char) : List (List Char) :=
  (pieces isBlank text).filter (!·.isEmpty)

end Dpll.Text
