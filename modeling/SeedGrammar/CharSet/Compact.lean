import SeedGrammar.CharSet.Basic
import SeedGrammar.Error.Grammar

namespace SeedGrammar
namespace CharSet

/-!
# The compact form of a character set

Grammar authors write a set as in `a-zA-Z_`.  A backslash makes the next
character literal, except that the letters n, t and r name control
characters; a backslash at the end is itself.  A dash between two characters
makes a range unless it is escaped, and stands for itself at either end.
Reading goes from left to right in two steps: the escapes are decoded first,
so either end of a range may be an escaped character.
-/

/-- A character of the compact form, and whether a backslash preceded it. -/
structure CompactItem where
  char : Char
  escaped : Bool
deriving DecidableEq, Repr

/-- What a character stands for after a backslash. -/
def unescape (c : Char) : Char :=
  if c = 'n' then '\n'
  else if c = 't' then '\t'
  else if c = 'r' then '\r'
  else c

/-- Decode the escapes. -/
def compactItems : List Char -> List CompactItem
  | [] => []
  | c :: rest =>
    if c = '\\' then
      match rest with
      | [] => [⟨'\\', true⟩]
      | next :: rest => ⟨unescape next, true⟩ :: compactItems rest
    else ⟨c, false⟩ :: compactItems rest

/-- Read decoded items as ranges.  The first range whose ends are the wrong
way round is the error. -/
def compactRanges : List CompactItem -> Except (Char × Char) Text.CodeRanges
  | [] => .ok []
  | first :: dash :: last :: rest =>
    if dash.char = '-' ∧ dash.escaped = false then
      if last.char < first.char then .error (first.char, last.char)
      else (compactRanges rest).map ((first.char.toNat, last.char.toNat) :: ·)
    else (compactRanges (dash :: last :: rest)).map ((first.char.toNat, first.char.toNat) :: ·)
  | first :: rest => (compactRanges rest).map ((first.char.toNat, first.char.toNat) :: ·)

/-- The set that a compact form stands for. -/
def ofCompact (pattern : String) : Except GrammarError CharSet :=
  match compactRanges (compactItems pattern.toList) with
  | .ok ranges => .ok (ofRanges ranges)
  | .error (first, last) =>
    .error (.invalidCharset pattern
      ("range " ++ Text.quotedChar first ++ "-" ++ Text.quotedChar last ++ " is reversed"))

end CharSet
end SeedGrammar
