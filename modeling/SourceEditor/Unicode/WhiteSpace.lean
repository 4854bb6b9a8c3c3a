import SourceEditor.Unicode.Ranges

/-!
# White space

The characters with the Unicode property `White_Space`. The set is larger than core's
`Char.isWhitespace`: it holds the form feed, the vertical tab and the spaces above ASCII.
-/

namespace SourceEditor.Unicode

/-- The code points with the property `White_Space`. -/
def whiteSpaceRanges : Ranges :=
  [(0x9, 0xD), (0x20, 0x20), (0x85, 0x85), (0xA0, 0xA0), (0x1680, 0x1680), (0x2000, 0x200A),
   (0x2028, 0x2029), (0x202F, 0x202F), (0x205F, 0x205F), (0x3000, 0x3000)]

/-- Whether a character has the property `White_Space`. -/
def isWhiteSpace (c : Char) : Bool :=
  whiteSpaceRanges.contains c.toNat

end SourceEditor.Unicode
