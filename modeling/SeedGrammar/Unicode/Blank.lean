import SeedGrammar.Text.CodeRanges

namespace SeedGrammar
namespace Unicode

/-!
# Blank characters

The white space of version 17 of the Unicode character database: the ASCII
controls from tab to carriage return, the spaces of various widths, and the
line and paragraph separators.
-/

/-- The characters with the property White_Space. -/
def blankRanges : Text.CodeRanges :=
  [(0x9, 0xD), (0x20, 0x20), (0x85, 0x85), (0xA0, 0xA0), (0x1680, 0x1680), (0x2000, 0x200A),
   (0x2028, 0x2029), (0x202F, 0x202F), (0x205F, 0x205F), (0x3000, 0x3000)]

/-- Whether a character is white space. -/
def isBlank (c : Char) : Bool :=
  blankRanges.has c

end Unicode
end SeedGrammar
