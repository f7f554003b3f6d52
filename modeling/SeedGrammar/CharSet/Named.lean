import SeedGrammar.CharSet.Basic
import SeedGrammar.Unicode.Blank
import SeedGrammar.Unicode.Digit
import SeedGrammar.Unicode.Word

namespace SeedGrammar
namespace CharSet

/-!
# Character sets with a name

Digits, blanks and word characters are those of all scripts, and their tables
are in normal form already.  The classes that are called by a word between
colons are the ASCII ones.
-/

/-- The decimal digits. -/
def digit : CharSet := ⟨Unicode.digitRanges⟩

/-- The white space characters. -/
def blank : CharSet := ⟨Unicode.blankRanges⟩

/-- The word characters. -/
def word : CharSet := ⟨Unicode.wordRanges⟩

/-- The ASCII classes that have names. -/
def named? (name : String) : Option CharSet :=
  let make (pairs : List (Char × Char)) : Option CharSet :=
    some (ofRanges (pairs.map fun pair => (pair.1.toNat, pair.2.toNat)))
  if name = "alnum" then make [('0', '9'), ('A', 'Z'), ('a', 'z')]
  else if name = "alpha" then make [('A', 'Z'), ('a', 'z')]
  else if name = "ascii" then make [('\x00', '\x7f')]
  else if name = "blank" then make [('\t', '\t'), (' ', ' ')]
  else if name = "cntrl" then make [('\x00', '\x1f'), ('\x7f', '\x7f')]
  else if name = "digit" then make [('0', '9')]
  else if name = "graph" then make [('!', '~')]
  else if name = "lower" then make [('a', 'z')]
  else if name = "print" then make [(' ', '~')]
  else if name = "punct" then make [('!', '/'), (':', '@'), ('[', '\x60'), ('\x7b', '~')]
  else if name = "space" then make [('\t', '\r'), (' ', ' ')]
  else if name = "upper" then make [('A', 'Z')]
  else if name = "word" then make [('0', '9'), ('A', 'Z'), ('_', '_'), ('a', 'z')]
  else if name = "xdigit" then make [('0', '9'), ('A', 'F'), ('a', 'f')]
  else none

end CharSet
end SeedGrammar
