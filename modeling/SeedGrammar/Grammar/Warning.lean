import SeedGrammar.Error.Parse

namespace SeedGrammar

/-!
# Warnings

A warning points at a node of a grammar that is valid but probably not what
its author meant.  Its text ends with the related nodes as a path, if there
are any.
-/

/-- What a warning is about. -/
inductive WarningKind where
  /-- A rule reaches itself leftmost without allowing left recursion; parsing
  with it does not end. -/
  | unguardedLeftRecursion
  /-- An alternative that can never be chosen. -/
  | unreachableAlternative
  /-- A rule that the root rule does not lead to. -/
  | unusedRule
deriving DecidableEq, Repr

/-- The name of a kind. -/
def WarningKind.name : WarningKind -> String
  | unguardedLeftRecursion => "UnguardedLeftRecursion"
  | unreachableAlternative => "UnreachableAlternative"
  | unusedRule => "UnusedRule"

/-- The text of a kind. -/
def WarningKind.display : WarningKind -> String
  | unguardedLeftRecursion => "unguarded left recursion"
  | unreachableAlternative => "unreachable alternative"
  | unusedRule => "unused rule"

/-- A warning about a node. -/
structure GrammarWarning where
  kind : WarningKind
  node : NodeId
  message : String
  related : List NodeId
deriving DecidableEq, Repr

namespace GrammarWarning

/-- A warning without related nodes. -/
def about (kind : WarningKind) (node : NodeId) (message : String) : GrammarWarning :=
  ⟨kind, node, message, []⟩

/-- Attach related nodes. -/
def withRelated (warning : GrammarWarning) (related : List NodeId) : GrammarWarning :=
  { warning with related := related }

/-- The text of a warning. -/
def display (warning : GrammarWarning) : String :=
  "[node " ++ warning.node.display ++ "] " ++ warning.kind.display ++ ": " ++ warning.message
    ++ (if warning.related.isEmpty then ""
      else " (path: " ++ String.intercalate " -> " (warning.related.map NodeId.display) ++ ")")

end GrammarWarning
end SeedGrammar
