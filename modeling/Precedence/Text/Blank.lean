import Precedence.Text.CharSet

/-!
# White space

The code points with the Unicode property White_Space. Blanks stand between tokens and mean
nothing.
-/

namespace Precedence.Text

/-- Code points with the property White_Space. -/
def blanks : CharSet where
  runs := [
    (0x9, 0xD), (0x20, 0x20), (0x85, 0x85), (0xA0, 0xA0), (0x1680, 0x1680), (0x2000, 0x200A),
    (0x2028, 0x2029), (0x202F, 0x202F), (0x205F, 0x205F), (0x3000, 0x3000)]

/-- A character that may stand between tokens. -/
def isBlank (c : Char) : Bool :=
  blanks.contains c

end Precedence.Text
