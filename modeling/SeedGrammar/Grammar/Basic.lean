import SeedGrammar.Clause
import SeedGrammar.Error.Grammar
import SeedGrammar.Text.Quoted

namespace SeedGrammar

/-!
# Resolved grammars

A resolved grammar is a list of clauses whose operands are numbers of other
clauses, and a list of rules, each of which names the node that it starts
at.  Rules that only refer to each other share a root; such a root is shown
under the name of the first of them.
-/

/-- A named entry point: its type and the node that it starts at. -/
structure Rule (L : Signature) where
  name : String
  type : ValueType L.Kind
  root : NodeId

/-- A resolved grammar. -/
structure Grammar (L : Signature) where
  nodes : List (Clause L PatternProgram NodeId)
  rules : List (Rule L)

namespace Grammar

variable {L : Signature}

/-- The rule of a name. -/
def rule? (grammar : Grammar L) (name : String) : Option (Rule L) :=
  grammar.rules.find? (·.name == name)

/-- The root of the rule of a name. -/
def ruleId? (grammar : Grammar L) (name : String) : Option NodeId :=
  (grammar.rule? name).map (·.root)

/-- The names of the rules in the order of their definition. -/
def ruleNames (grammar : Grammar L) : List String :=
  grammar.rules.map (·.name)

/-- The number of nodes. -/
def nodeCount (grammar : Grammar L) : Nat :=
  grammar.nodes.length

/-- The name under which a node is shown, if it is the root of a rule. -/
def rootName? (grammar : Grammar L) (id : NodeId) : Option String :=
  (grammar.rules.find? (·.root == id)).map (·.name)

/-- The names and the size of a grammar. -/
def summary (grammar : Grammar L) : String :=
  "Grammar \x7b rules: " ++ Text.bracketed (grammar.ruleNames.map Text.quoted)
    ++ ", nodes: " ++ Text.decimal grammar.nodeCount ++ " \x7d"

end Grammar
end SeedGrammar
