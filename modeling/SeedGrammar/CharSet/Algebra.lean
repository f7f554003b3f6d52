import SeedGrammar.CharSet.Basic
import SeedGrammar.Unicode.Fold

namespace SeedGrammar
namespace CharSet

/-!
# Operations on sets of characters

Intersection and the two differences are written with union and complement,
so they inherit the normal form of the ranges.  Two further operations
disregard case.  A set is closed under case in two steps, since the folded
form of a character is its own folded form: first every member brings in the
character that it folds to, then every character comes in that folds to one
of those.
-/

/-- The characters of both sets. -/
def inter (first second : CharSet) : CharSet :=
  complement (union (complement first) (complement second))

/-- The characters of the first set that the second does not hold. -/
def diff (first second : CharSet) : CharSet :=
  complement (union (complement first) second)

/-- The characters of exactly one of two sets. -/
def symmDiff (first second : CharSet) : CharSet :=
  union (diff first second) (diff second first)

/-- The set of one character. -/
def single (c : Char) : CharSet :=
  range c c

/-- The characters that equal a given one up to case. -/
def anyCase (c : Char) : CharSet :=
  ofRanges ((Unicode.caseVariants c.toNat).map fun code => (code, code))

/-- The characters that equal some member up to case. -/
def closeCase (set : CharSet) : CharSet :=
  let folded := Unicode.foldPairs.filterMap fun (code, target) =>
    if set.ranges.hasCode code then some (target, target) else none
  let withFolded : Text.CodeRanges := folded ++ set.ranges
  let unfolded := Unicode.foldPairs.filterMap fun (code, target) =>
    if withFolded.hasCode target then some (code, code) else none
  ofRanges (unfolded ++ withFolded)

/-- The set without regard to case, if case is to be ignored. -/
def closeCaseIf (ignoreCase : Bool) (set : CharSet) : CharSet :=
  if ignoreCase then set.closeCase else set

/-- The complement of the set, if it is negated. -/
def complementIf (negated : Bool) (set : CharSet) : CharSet :=
  if negated then set.complement else set

end CharSet
end SeedGrammar
