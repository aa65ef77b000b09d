import Reckoner.Text.Ranges

/-!
White space: the characters with the Unicode property `White_Space`.

Blank characters separate tokens and never belong to one. `allBlank` and
`trimEnd` are the two places outside the scanner that look at them.
-/

namespace Reckoner.Text

/-- The code points with the property `White_Space`. -/
def blankRanges : List (Nat × Nat) :=
  [(0x9, 0xD), (0x20, 0x20), (0x85, 0x85), (0xA0, 0xA0), (0x1680, 0x1680), (0x2000, 0x200A),
    (0x2028, 0x2029), (0x202F, 0x202F), (0x205F, 0x205F), (0x3000, 0x3000)]

def isBlank (c : Char) : Bool :=
  inRanges blankRanges c.toNat

/-- Whether a text has no character that could start a token. -/
def allBlank (s : String) : Bool :=
  s.toList.all isBlank

/-- The characters up to and including the last one that is not blank. -/
def trimEnd (cs : List Char) : List Char :=
  (cs.reverse.dropWhile isBlank).reverse

end Reckoner.Text
