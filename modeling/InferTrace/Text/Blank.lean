/-
Blank characters: what separates tokens and carries none itself.

The class is Unicode's white space together with the four information separators
U+001C..U+001F. It holds neither the zero-width space U+200B nor the byte-order mark U+FEFF.
-/

namespace InferTrace.Text

/-- Closed ranges of blank code points, in ascending order. -/
def blankRanges : List (Nat × Nat) :=
  [(0x09, 0x0D), (0x1C, 0x20), (0x85, 0x85), (0xA0, 0xA0), (0x1680, 0x1680),
   (0x2000, 0x200A), (0x2028, 0x2029), (0x202F, 0x202F), (0x205F, 0x205F), (0x3000, 0x3000)]

/-- A character that separates tokens. -/
def isBlank (c : Char) : Bool :=
  blankRanges.any fun (lo, hi) => lo ≤ c.toNat && c.toNat ≤ hi

end InferTrace.Text
