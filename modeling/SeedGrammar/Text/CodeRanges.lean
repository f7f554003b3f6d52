namespace SeedGrammar
namespace Text

/-!
# Lists of code point ranges

Character classes and character sets are both given by inclusive ranges of
code points.  Membership is the plain disjunction over the ranges; nothing
is assumed about their order, so the meaning of a list does not depend on
an invariant of its writer.  A list whose ranges are in order can be searched
by halving instead.
-/

/-- Inclusive ranges of code points. -/
abbrev CodeRanges := List (Nat × Nat)

namespace CodeRanges

/-- Whether some range holds the code point. -/
def hasCode (ranges : CodeRanges) (code : Nat) : Bool :=
  ranges.any fun range => decide (range.1 ≤ code) && decide (code ≤ range.2)

/-- Whether some range holds the character. -/
def has (ranges : CodeRanges) (c : Char) : Bool :=
  ranges.hasCode c.toNat

/-- Look for a code point by halving: what lies above the range in the middle
is searched if that range ends before the code point, and what lies below it
if the range starts after the code point.  As many steps as there are ranges
are enough. -/
def halve (code : Nat) : Nat -> CodeRanges -> Bool
  | 0, _ => false
  | steps + 1, ranges =>
    match ranges.drop (ranges.length / 2) with
    | [] => false
    | middle :: above =>
      if middle.2 < code then halve code steps above
      else if code < middle.1 then halve code steps (ranges.take (ranges.length / 2))
      else true

theorem hasCode_iff {ranges : CodeRanges} {code : Nat} :
    ranges.hasCode code = true ↔ ∃ range ∈ ranges, range.1 ≤ code ∧ code ≤ range.2 := by
  simp [hasCode]

@[simp] theorem hasCode_nil (code : Nat) : hasCode [] code = false := rfl

@[simp] theorem hasCode_cons (range : Nat × Nat) (rest : CodeRanges) (code : Nat) :
    hasCode (range :: rest) code =
      (decide (range.1 ≤ code) && decide (code ≤ range.2) || hasCode rest code) := rfl

theorem hasCode_append (first second : CodeRanges) (code : Nat) :
    hasCode (first ++ second) code = (hasCode first code || hasCode second code) := by
  simp [hasCode, List.any_append]

end CodeRanges

end Text
end SeedGrammar
