import SeedGrammar.Pattern.Basic

namespace SeedGrammar

/-!
# Regular expressions as they are written

The tree of a regular expression keeps its groups, branches and changes of
flags where they stand.  Its nesting counts the constructions around the
innermost element; a sequence or a choice counts as one when it has at least
two parts, so parts are put together by `sequence` and `choice`, which leave
a single part as it is.
-/

/-- A regular expression as it is written.  An element is a set of
characters, with the nesting of the bracket that it was written as. -/
inductive PatternTree where
  | flagChange
  | element (set : CharSet) (nesting : Nat)
  | assert (assertion : Assertion)
  | group (index : Option Nat) (body : PatternTree)
  | times (bounds : RepeatBounds) (greedy : Bool) (body : PatternTree)
  | seq (items : List PatternTree)
  | alt (branches : List PatternTree)

namespace PatternTree

/-- Trees one after the other. -/
def sequence : List PatternTree -> PatternTree
  | [item] => item
  | items => seq items

/-- Trees to be tried in order. -/
def choice : List PatternTree -> PatternTree
  | [branch] => branch
  | branches => alt branches

/-- The greatest nesting that is accepted. -/
def maxNesting : Nat := 250

mutual

/-- The number of constructions around the innermost element. -/
def nesting : PatternTree -> Nat
  | flagChange => 0
  | element _ nesting => nesting
  | assert _ => 0
  | group _ body => body.nesting + 1
  | times _ _ body => body.nesting + 1
  | seq [] => 0
  | seq items => greatestNesting items + 1
  | alt [] => 0
  | alt branches => greatestNesting branches + 1

/-- The greatest nesting in a list of trees. -/
def greatestNesting : List PatternTree -> Nat
  | [] => 0
  | tree :: rest => max tree.nesting (greatestNesting rest)

end

mutual

/-- The expression that the tree stands for. -/
def toPattern : PatternTree -> Pattern
  | flagChange => .empty
  | element set _ => .one set
  | assert assertion => .assert assertion
  | group (some index) body => .group index body.toPattern
  | group none body => body.toPattern
  | times bounds greedy body => .repeated bounds greedy body.toPattern
  | seq items => .sequence (toPatterns items)
  | alt branches => .choice (toPatterns branches)

/-- The expressions of a list of trees, without the changes of flags. -/
def toPatterns : List PatternTree -> List Pattern
  | [] => []
  | flagChange :: rest => toPatterns rest
  | tree :: rest => tree.toPattern :: toPatterns rest

end

end PatternTree
end SeedGrammar
