import SeedGrammar.Grammar.Basic

namespace SeedGrammar
namespace Grammar

/-!
# Grammars as text

A node is shown by its clause with the operands inside.  Below the node that
is asked for, the root of a rule is shown by the name of the rule, which is
what makes the text of a cyclic grammar finite: apart from the steps to such
a root, operands have smaller numbers than the clause they belong to.
-/

variable {L : Signature}

/-- A name with operands. -/
def wrapped (name : String) (operands : List String) : String :=
  name ++ "(" ++ String.intercalate ", " operands ++ ")"

/-- The text of a leaf. -/
def leafText : Leaf L PatternProgram -> String
  | .exact literal => wrapped "Exact" [Stream.display literal]
  | .charset _ label _ => label
  | .pattern source _ _ => "Regex(/" ++ source ++ "/)"
  | .empty => "Empty"
  | .eof => "Eof"
  | .fail message _ => wrapped "Fail" [Text.quoted message]
  | .custom name _ => wrapped "Custom" [name]

/-- The upper bound of a repetition. -/
def boundText : Option Nat -> String
  | some max => Text.decimal max
  | none => "Infinity"

/-- The text of a clause, given that of its operands. -/
def clauseText (operand : NodeId -> String) : Clause L PatternProgram NodeId -> String
  | .leaf atom => leafText atom
  | .map inner _ => wrapped "Map" [operand inner]
  | .update inner _ => wrapped "StateF" [operand inner]
  | .sequence items _ => wrapped "Seq" (items.map operand)
  | .choice alts => wrapped "Alt" (alts.map operand)
  | .optional inner _ => wrapped "Optional" [operand inner]
  | .attempt inner => wrapped "Try" [operand inner]
  | .lookahead inner look negative =>
    wrapped (if negative then "NotFollowedBy" else "FollowedBy") [operand inner, operand look]
  | .repeated inner _ min max =>
    operand inner ++ wrapped ".repeat" [Text.decimal min, boundText max]
  | .reference name _ _ => wrapped "Ref" [name]
  | .leftRecursion inner => wrapped "LeftRecur" [operand inner]

/-- The text of a node, with a bound on the depth.  Only the node at the top
is shown by its clause even if it is the root of a rule. -/
def describeWithin (grammar : Grammar L) : Nat -> Bool -> NodeId -> String
  | fuel, top, id =>
    match if top then none else grammar.rootName? id with
    | some name => "<" ++ name ++ ">"
    | none =>
      match fuel, grammar.nodes[id]? with
      | fuel + 1, some clause => clauseText (grammar.describeWithin fuel false) clause
      | _, _ => "?" ++ id.display

/-- The text of a node. -/
def describe (grammar : Grammar L) (id : NodeId) : String :=
  grammar.describeWithin (grammar.nodeCount + 1) true id

/-- The text of a grammar: a line for each rule. -/
def display (grammar : Grammar L) : String :=
  String.join (grammar.rules.map fun rule =>
    rule.name ++ " = " ++ grammar.describe rule.root ++ "\n")

end Grammar
end SeedGrammar
