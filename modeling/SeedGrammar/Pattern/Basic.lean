import SeedGrammar.CharSet.Basic

namespace SeedGrammar

/-!
# Regular expressions

A regular expression in the form in which it is matched: flags have been
resolved into sets of characters and assertions, and groups carry the number
under which their span is recorded.  The smart constructor `repeated` removes
the repetitions that cannot make a difference.
-/

/-- A condition on the characters beside a position. -/
inductive Assertion where
  | textStart
  | textEnd
  | lineStart
  | lineEnd
  | wordBoundary
  | noWordBoundary
  | wordStart
  | wordEnd
deriving DecidableEq, Repr

/-- How often something is repeated; there need not be an upper bound. -/
structure RepeatBounds where
  min : Nat
  max : Option Nat
deriving DecidableEq, Repr

namespace RepeatBounds

/-- Repeating what is always empty more than once adds nothing. -/
def capped (bounds : RepeatBounds) (zeroWidth : Bool) : RepeatBounds :=
  if zeroWidth then ⟨Nat.min bounds.min 1, some ((bounds.max.map (Nat.min · 1)).getD 1)⟩
  else bounds

end RepeatBounds

/-- A regular expression. -/
inductive Pattern where
  | empty
  | one (set : CharSet)
  | assert (assertion : Assertion)
  | group (index : Nat) (body : Pattern)
  | seq (first second : Pattern)
  | alt (first second : Pattern)
  | times (bounds : RepeatBounds) (greedy : Bool) (body : Pattern)
deriving DecidableEq, Repr

namespace Pattern

/-- Whether every match is empty, whatever the text. -/
def isZeroWidth : Pattern -> Bool
  | empty => true
  | one _ => false
  | assert _ => true
  | group _ body => body.isZeroWidth
  | seq first second => first.isZeroWidth && second.isZeroWidth
  | alt first second => first.isZeroWidth && second.isZeroWidth
  | times bounds _ body => body.isZeroWidth || bounds.max == some 0

/-- Whether every match has at least one character. -/
def consumes : Pattern -> Bool
  | empty => false
  | one _ => true
  | assert _ => false
  | group _ body => body.consumes
  | seq first second => first.consumes || second.consumes
  | alt first second => first.consumes && second.consumes
  | times bounds _ body => bounds.min != 0 && body.consumes

/-- Whether the expression begins with the start of the text in each of its
alternatives, so that it cannot match elsewhere. -/
def isAnchored : Pattern -> Bool
  | assert .textStart => true
  | group _ body => body.isAnchored
  | seq first _ => first.isAnchored
  | alt first second => first.isAnchored && second.isAnchored
  | _ => false

/-- A repetition.  Once is the expression itself, and not at all is the empty
expression. -/
def repeated (bounds : RepeatBounds) (greedy : Bool) (body : Pattern) : Pattern :=
  let bounds := bounds.capped body.isZeroWidth
  if bounds = ⟨0, some 0⟩ then empty
  else if bounds = ⟨1, some 1⟩ then body
  else times bounds greedy body

/-- Expressions one after the other. -/
def sequence : List Pattern -> Pattern
  | [] => empty
  | [pattern] => pattern
  | pattern :: rest => seq pattern (sequence rest)

/-- Expressions to be tried in order. -/
def choice : List Pattern -> Pattern
  | [] => empty
  | [pattern] => pattern
  | pattern :: rest => alt pattern (choice rest)

/-- One more than the greatest number of a group: the whole match counts as
group zero. -/
def groupCount : Pattern -> Nat
  | empty => 1
  | one _ => 1
  | assert _ => 1
  | group index body => max (index + 1) body.groupCount
  | seq first second => max first.groupCount second.groupCount
  | alt first second => max first.groupCount second.groupCount
  | times _ _ body => body.groupCount

end Pattern
end SeedGrammar
