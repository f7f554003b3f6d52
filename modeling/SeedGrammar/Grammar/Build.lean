import SeedGrammar.Grammar.Description
import SeedGrammar.Grammar.Lowering
import SeedGrammar.Grammar.Nullability
import SeedGrammar.Grammar.Reference
import SeedGrammar.Parser

namespace SeedGrammar

/-!
# Building a grammar

A grammar is built from named parsers.  Names are checked first, then every
rule is lowered in order, references are bound and replaced by what they
lead to, and last the clauses that loop are checked: the bounds of a
repetition must be in order, and neither what is repeated nor what may start
with itself can succeed without consuming.

The questions about nullability that this last step asks leave their answers
behind, so a grammar is built together with what is known about it.
-/

/-- A rule before the grammar is built. -/
structure Definition (L : Signature) where
  name : String
  type : ValueType L.Kind
  parser : Parser L type

/-- The rules of a grammar in the order of their definition. -/
structure GrammarBuilder (L : Signature) where
  definitions : List (Definition L)

/-- A grammar with what is known about its nodes. -/
structure BuiltGrammar (L : Signature) where
  grammar : Grammar L
  known : Nullability

namespace Grammar

variable {L : Signature}

/-- Check that the clauses that loop advance, in the order of the nodes. -/
def validate (grammar : Grammar L) :
    List (Clause L PatternProgram NodeId) -> Nullability -> Except GrammarError Nullability
  | [], known => .ok known
  | .repeated inner _ min max :: rest, known =>
    match max with
    | some max =>
      if max < min then .error (.invalidRepeatBounds min max)
      else
        match grammar.isNullable inner known with
        | (true, _) => .error (.nullableRepeat (grammar.describe inner))
        | (false, known) => grammar.validate rest known
    | none =>
      match grammar.isNullable inner known with
      | (true, _) => .error (.nullableRepeat (grammar.describe inner))
      | (false, known) => grammar.validate rest known
  | .leftRecursion inner :: rest, known =>
    match grammar.isNullable inner known with
    | (true, _) => .error (.nullableLeftRecursion (grammar.describe inner))
    | (false, known) => grammar.validate rest known
  | _ :: rest, known => grammar.validate rest known

end Grammar

namespace GrammarBuilder

variable {L : Signature}

/-- A grammar without rules. -/
def empty : GrammarBuilder L := ⟨[]⟩

/-- Add a rule. -/
def rule (builder : GrammarBuilder L) (name : String) {type : ValueType L.Kind}
    (parser : Parser L type) : GrammarBuilder L :=
  ⟨builder.definitions ++ [⟨name, type, parser⟩]⟩

/-- The number of rules added so far. -/
def ruleCount (builder : GrammarBuilder L) : Nat :=
  builder.definitions.length

/-- The first name that occurs for the second time. -/
def duplicate? : List String -> List String -> Option String
  | _, [] => none
  | seen, name :: rest => if name ∈ seen then some name else duplicate? (name :: seen) rest

/-- Lower the rules in order. -/
def lowerRules : List (Definition L) -> Lowering L (List (Rule L))
  | [] => return []
  | definition :: rest => do
    let root ← Lowering.expr definition.parser.expr
    let rules ← lowerRules rest
    return ⟨definition.name, definition.type, root⟩ :: rules

/-- Bind and replace the references of a lowered grammar, and check it. -/
def resolve (lowered : Grammar L) : Except GrammarError (BuiltGrammar L) :=
  match Grammar.bindAll lowered.rules lowered.nodes with
  | .error error => .error error
  | .ok bound =>
    match Grammar.targets bound with
    | .error error => .error error
    | .ok targets =>
      let grammar := Grammar.redirect targets ⟨bound, lowered.rules⟩
      match grammar.validate grammar.nodes (Nullability.unknown grammar.nodeCount) with
      | .error error => .error error
      | .ok known => .ok ⟨grammar, known⟩

/-- Build the grammar, with a cache of compiled regular expressions that the
outcome is accompanied by in any case. -/
def build (builder : GrammarBuilder L) (cache : PatternCache) :
    Except GrammarError (BuiltGrammar L) × PatternCache :=
  match duplicate? [] (builder.definitions.map (·.name)) with
  | some name => (.error (.duplicateRule name), cache)
  | none =>
    match (lowerRules builder.definitions).run.run (Lowering.start cache) with
    | (.error error, state) => (.error error, state.cache)
    | (.ok rules, state) => (resolve ⟨state.nodes, rules⟩, state.cache)

end GrammarBuilder
end SeedGrammar
