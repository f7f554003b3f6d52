import SeedGrammar.Text.Digits
import SeedGrammar.Text.Quoted

namespace SeedGrammar

/-!
# Invalid grammars

A grammar is checked once, when it is built.  Each way in which the check
can fail is a constructor here, with the data that its message shows; a
grammar that produces one of these errors is never run.
-/

/-- Why a grammar cannot be built, or an entry point not be found. -/
inductive GrammarError where
  /-- A sequence without elements. -/
  | emptySequence
  /-- An alternation without alternatives. -/
  | emptyAlternation
  /-- A literal without units. -/
  | emptyLiteral
  /-- Repetition of a parser that may succeed without consuming. -/
  | nullableRepeat (parser : String)
  /-- Left recursion around a parser that may succeed without consuming. -/
  | nullableLeftRecursion (parser : String)
  /-- A lower bound of a repetition above its upper bound. -/
  | invalidRepeatBounds (min max : Nat)
  /-- A reference to a rule that does not exist. -/
  | unresolvedReference (name : String)
  /-- Rules that refer to each other and never reach a parser. -/
  | cyclicReference (name : String)
  /-- Two rules with one name. -/
  | duplicateRule (name : String)
  /-- An entry point asked for by the name of no rule. -/
  | unknownRule (name : String)
  /-- A rule that produces another type than its user expects. -/
  | typeMismatch (name expected found : String)
  /-- A regular expression that cannot be read. -/
  | invalidPattern (pattern reason : String)
  /-- A compact character set that cannot be read. -/
  | invalidCharset (pattern reason : String)
deriving DecidableEq, Repr

namespace GrammarError

/-- The name of the kind of an error. -/
def name : GrammarError -> String
  | emptySequence => "EmptySequence"
  | emptyAlternation => "EmptyAlternation"
  | emptyLiteral => "EmptyLiteral"
  | nullableRepeat _ => "NullableRepeat"
  | nullableLeftRecursion _ => "NullableLeftRecursion"
  | invalidRepeatBounds _ _ => "InvalidRepeatBounds"
  | unresolvedReference _ => "UnresolvedReference"
  | cyclicReference _ => "CyclicReference"
  | duplicateRule _ => "DuplicateRule"
  | unknownRule _ => "UnknownRule"
  | typeMismatch _ _ _ => "TypeMismatch"
  | invalidPattern _ _ => "InvalidPattern"
  | invalidCharset _ _ => "InvalidCharset"

/-- The message of an error. -/
def message : GrammarError -> String
  | emptySequence => "Sequence can not be empty"
  | emptyAlternation => "Alternation can not be empty"
  | emptyLiteral => "Exact match of an empty literal, use empty() instead"
  | nullableRepeat parser => "Repeat on nullable parser: " ++ parser
  | nullableLeftRecursion parser => "Left recursion on nullable parser: " ++ parser
  | invalidRepeatBounds min max =>
    "Invalid repeat bounds: min " ++ Text.decimal min ++ " exceeds max " ++ Text.decimal max
  | unresolvedReference name => "Referenced rule does not exist: " ++ name
  | cyclicReference name => "Rule " ++ name ++ " only refers to itself through references"
  | duplicateRule name => "Rule defined more than once: " ++ name
  | unknownRule name => "Unknown rule: " ++ name
  | typeMismatch name expected found =>
    "Rule " ++ name ++ " produces " ++ found ++ " but " ++ expected ++ " was expected"
  | invalidPattern pattern reason =>
    "Invalid pattern " ++ Text.quoted pattern ++ ": " ++ reason
  | invalidCharset pattern reason =>
    "Invalid charset " ++ Text.quoted pattern ++ ": " ++ reason

end GrammarError
end SeedGrammar
