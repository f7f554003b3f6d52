import SeedGrammar.CharSet.Basic
import SeedGrammar.Text.Digits

namespace SeedGrammar
namespace CharSet

/-!
# A character set as a class of a regular expression

A class is written with its ranges in order.  Only ASCII letters and digits
stand for themselves; every other end of a range is written by its code
point, so no character of the set can be read as an operator.  The empty set
has no class of its own and is written as the complement of everything.
-/

/-- The end of a range as it is written inside a class. -/
def classCode (code : Nat) : String :=
  match Text.scalar? code with
  | some c => if c.isAlphanum then c.toString else "\\x\x7b" ++ Text.upperHex code ++ "\x7d"
  | none => "\\x\x7b" ++ Text.upperHex code ++ "\x7d"

/-- A range as it is written inside a class. -/
def classRange (range : Nat × Nat) : String :=
  if range.1 = range.2 then classCode range.1
  else classCode range.1 ++ "-" ++ classCode range.2

/-- The class of a regular expression with the same members. -/
def classText (set : CharSet) : String :=
  if set.isEmpty then "[^\\x\x7b0\x7d-\\x\x7b10FFFF\x7d]"
  else "[" ++ String.join (set.ranges.map classRange) ++ "]"

end CharSet
end SeedGrammar
