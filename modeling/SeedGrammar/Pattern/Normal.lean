import SeedGrammar.Pattern.ByteClass
import SeedGrammar.Pattern.Tree

namespace SeedGrammar

/-!
# The normal form of a regular expression

The size of a regular expression is measured in a normal form, so that it
does not depend on how the expression is written.  Adjacent characters are
one literal; sequences and choices do not contain sequences and choices of
their own kind; a choice between characters, or between classes, is a class;
and what all branches of a choice begin with is written once, in front of it.
A set of one character is a literal.
-/

/-- A regular expression in normal form. -/
inductive NormalPattern where
  | empty
  | literal (chars : List Char)
  | cls (members : ByteClass)
  | assert (assertion : Assertion)
  | group (index : Nat) (body : NormalPattern)
  | times (bounds : RepeatBounds) (greedy : Bool) (body : NormalPattern)
  | seq (items : List NormalPattern)
  | alt (branches : List NormalPattern)

namespace NormalPattern

mutual

/-- Whether two normal forms are the same. -/
def same : NormalPattern -> NormalPattern -> Bool
  | empty, empty => true
  | literal first, literal second => first == second
  | cls first, cls second => first.set == second.set
  | assert first, assert second => first == second
  | group first left, group second right => first == second && same left right
  | times first greedy left, times second lazy right =>
    first == second && greedy == lazy && same left right
  | seq left, seq right => allSame left right
  | alt left, alt right => allSame left right
  | _, _ => false

/-- Whether two lists of normal forms are the same. -/
def allSame : List NormalPattern -> List NormalPattern -> Bool
  | [], [] => true
  | first :: left, second :: right => same first second && allSame left right
  | _, _ => false

end

mutual

/-- Whether every match is empty, whatever the text. -/
def isZeroWidth : NormalPattern -> Bool
  | empty => true
  | literal _ => false
  | cls _ => false
  | assert _ => true
  | group _ body => body.isZeroWidth
  | times bounds _ body => body.isZeroWidth || bounds.max == some 0
  | seq items => allZeroWidth items
  | alt branches => allZeroWidth branches

/-- Whether every match of every expression is empty. -/
def allZeroWidth : List NormalPattern -> Bool
  | [] => true
  | pattern :: rest => pattern.isZeroWidth && allZeroWidth rest

end

/-- The expression of a set of characters. -/
def ofSet (set : CharSet) : NormalPattern :=
  match set.ranges with
  | [(first, last)] =>
    if first = last then literal [Char.ofNat first] else cls (.ofSet set)
  | _ => cls (.ofSet set)

/-- A repetition.  Once is the expression itself, and not at all is the empty
expression. -/
def repeated (bounds : RepeatBounds) (greedy : Bool) (body : NormalPattern) : NormalPattern :=
  let bounds := bounds.capped body.isZeroWidth
  if bounds = ⟨0, some 0⟩ then empty
  else if bounds = ⟨1, some 1⟩ then body
  else times bounds greedy body

/-- The parts of a sequence; anything else is its own only part. -/
def items : NormalPattern -> List NormalPattern
  | seq items => items
  | pattern => [pattern]

/-- The branches of a choice; anything else is its own only branch. -/
def branches : NormalPattern -> List NormalPattern
  | alt branches => branches
  | pattern => [pattern]

/-- Drop what is empty and join adjacent literals. -/
def joinLiterals : List NormalPattern -> List NormalPattern
  | [] => []
  | pattern :: rest =>
    match pattern, joinLiterals rest with
    | empty, rest => rest
    | literal first, literal second :: rest => literal (first ++ second) :: rest
    | pattern, rest => pattern :: rest

/-- Expressions one after the other. -/
def sequence (patterns : List NormalPattern) : NormalPattern :=
  match joinLiterals (patterns.flatMap items) with
  | [] => empty
  | [pattern] => pattern
  | patterns => seq patterns

/-- The set of a literal of one character. -/
def charSet? : NormalPattern -> Option CharSet
  | literal [c] => some (.ofChars [c])
  | _ => none

/-- The set of a class. -/
def classSet? : NormalPattern -> Option CharSet
  | cls members => some members.set
  | _ => none

/-- The set that a choice between sets stands for. -/
def unionOf? (set? : NormalPattern -> Option CharSet) (patterns : List NormalPattern) :
    Option NormalPattern :=
  (patterns.mapM set?).map fun sets => ofSet (.ofRanges (sets.flatMap (·.ranges)))

/-- A choice between expressions none of which is a choice. -/
def choiceOf (patterns : List NormalPattern) : NormalPattern :=
  match patterns with
  | [pattern] => pattern
  | patterns => ((unionOf? charSet? patterns).or (unionOf? classSet? patterns)).getD (alt patterns)

/-- How many expressions two lists have in common at their start. -/
def commonLength : List NormalPattern -> List NormalPattern -> Nat
  | first :: left, second :: right => if same first second then commonLength left right + 1 else 0
  | _, _ => 0

/-- The parts of a sequence of at least two. -/
def sequenceItems? : NormalPattern -> Option (List NormalPattern)
  | seq items => some items
  | _ => none

/-- Expressions to be tried in order.  When all of them are sequences, what
they begin with in common is written in front of a choice between their
remainders, and those have no further beginning in common. -/
def choice (patterns : List NormalPattern) : NormalPattern :=
  let patterns := patterns.flatMap branches
  match choiceOf patterns with
  | alt patterns =>
    match patterns.mapM sequenceItems? with
    | some (first :: rest) =>
      let common := rest.foldl (fun common items => min common (commonLength first items))
        first.length
      if common = 0 then alt patterns
      else
        let remainders := (first :: rest).map fun items => sequence (items.drop common)
        sequence (first.take common ++ [choiceOf (remainders.flatMap branches)])
    | _ => alt patterns
  | pattern => pattern

mutual

/-- The normal form of an expression as it is written. -/
def ofTree : PatternTree -> NormalPattern
  | .flagChange => empty
  | .element set _ => ofSet set
  | .assert assertion => assert assertion
  | .group (some index) body => group index (ofTree body)
  | .group none body => ofTree body
  | .times bounds greedy body => repeated bounds greedy (ofTree body)
  | .seq items => sequence (ofTrees items)
  | .alt branches => choice (ofTrees branches)

/-- The normal forms of a list of expressions. -/
def ofTrees : List PatternTree -> List NormalPattern
  | [] => []
  | tree :: rest => ofTree tree :: ofTrees rest

end

end NormalPattern
end SeedGrammar
