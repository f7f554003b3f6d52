import SeedGrammar.Engine.Dispatch
import SeedGrammar.Grammar.Build
import SeedGrammar.Grammar.Reach

namespace SeedGrammar

/-!
# Parsing an input

An entry point is a rule of a resolved grammar with limits on the size of an
input and on the nesting of nodes; a limit of zero is none.  A parse runs the
root of the rule from the start of the input.  It need not reach the end:
the result says how much was consumed, on failure as well as on success.

The engine is given a number of steps, which bounds both the nesting of
nodes and the rounds of each loop.  Grammars that recurse without consuming
use up any number of them; all others finish within some number, and a
finished result does not depend on it.
-/

/-- Limits of a parse; zero is no limit. -/
structure ParserConfig where
  maxInputSize : Nat
  maxRecursionDepth : Nat
deriving DecidableEq, Repr

namespace ParserConfig

/-- No limits. -/
def unlimited : ParserConfig := ⟨0, 0⟩

/-- The limits by name. -/
def summary (config : ParserConfig) : String :=
  "ParserConfig \x7b max_input_size: " ++ Text.decimal config.maxInputSize
    ++ ", max_recursion_depth: " ++ Text.decimal config.maxRecursionDepth ++ " \x7d"

end ParserConfig

/-- A grammar at work on an input. -/
structure Machine (L : Signature) where
  grammar : Grammar L
  input : L.Input
  maxDepth : Nat

namespace Machine

variable {L : Signature}

/-- The failure of a node that is nested too deep. -/
def tooDeep (position : Nat) (id : NodeId) : ParseError L.Payload :=
  ((ParseError.bare position).withNode id).withMessage "recursion limit exceeded"

/-- Leave a node.  Whatever it came to, a parse that has been aborted comes to
the error that has aborted it. -/
def leave (outcome : Outcome L) (after : ParseContext L) : Return L (Outcome L) :=
  let after := { after with depth := after.depth - 1 }
  match after.aborted with
  | some error => .returned (.error error) after
  | none => .returned outcome after

/-- Call a node.  If it is nested too deep then the parse is aborted. -/
def parseNode (machine : Machine L) : Nat -> NodeCaller L NodeId
  | 0, _, _ => .exhausted
  | steps + 1, id, context =>
    match context.aborted with
    | some error => .returned (.error error) context
    | none =>
      let entered := { context with depth := context.depth + 1 }
      let ended : Return L (Outcome L) :=
        if 0 < machine.maxDepth ∧ machine.maxDepth < entered.depth then
          .returned (.error (tooDeep entered.position id))
            { entered with aborted := some (tooDeep entered.position id) }
        else
          match machine.grammar.nodes[id]? with
          | none => .faulted (.nodeOutOfRange id)
          | some clause =>
            clause.dispatch (machine.parseNode steps) steps machine.input
              machine.grammar.writesState id entered
      ended.andThen leave

/-- Run a node that is nested so deep, counting from one.  This is what
`parseNode` does, with an ending of its own for a parse that is aborted. -/
def run (machine : Machine L) : Nat -> Nat -> Caller L NodeId
  | 0, _, _, _ => .exhausted
  | steps + 1, depth, id, context =>
    if 0 < machine.maxDepth ∧ machine.maxDepth < depth then
      .halted (tooDeep context.position id) context
    else
      match machine.grammar.nodes[id]? with
      | none => .faulted (.nodeOutOfRange id)
      | some clause =>
        clause.run (machine.run steps (depth + 1)) steps machine.input
          machine.grammar.writesState id context

end Machine

/-- What a parse comes to: a value or a failure, the final position and the
final state. -/
structure ParseResult (L : Signature) (type : ValueType L.Kind) where
  result : Except (ParseError L.Payload) (type.Carrier L)
  consumed : Nat
  state : L.State

/-- How a parse ends: with a result, with a fault, or without steps. -/
inductive ParseRun (L : Signature) (type : ValueType L.Kind) where
  | completed (result : ParseResult L type)
  | faulted (fault : Fault)
  | exhausted

/-- A rule of a resolved grammar, with limits. -/
structure EntryPoint (L : Signature) (type : ValueType L.Kind) where
  grammar : Grammar L
  root : NodeId
  config : ParserConfig

namespace Grammar

variable {L : Signature}

/-- The entry point of a rule that produces values of a type. -/
def entryPoint (grammar : Grammar L) (type : ValueType L.Kind) (name : String) :
    Except GrammarError (EntryPoint L type) :=
  match grammar.rule? name with
  | none => .error (.unknownRule name)
  | some rule =>
    if rule.type = type then .ok ⟨grammar, rule.root, ParserConfig.unlimited⟩
    else .error (.typeMismatch name (type.name L.kindName) (rule.type.name L.kindName))

end Grammar

namespace EntryPoint

variable {L : Signature} {type : ValueType L.Kind}

/-- Replace the limits. -/
def withConfig (entry : EntryPoint L type) (config : ParserConfig) : EntryPoint L type :=
  { entry with config := config }

/-- The text of the rule. -/
def display (entry : EntryPoint L type) : String :=
  entry.grammar.describe entry.root

/-- Root and limits by name. -/
def summary (entry : EntryPoint L type) : String :=
  "CompiledParser \x7b root: NodeId(" ++ Text.decimal entry.root ++ "), config: "
    ++ entry.config.summary ++ " \x7d"

/-- The failure of an input that is too large. -/
def tooLarge (size limit : Nat) : ParseError L.Payload :=
  (ParseError.bare 0).withMessage
    ("input too large: " ++ Text.decimal size ++ " units exceeds limit of " ++ Text.decimal limit)

/-- What a parse comes to if its root returns so: if it has been aborted then
to the error that has aborted it. -/
def conclusion (root : NodeId) : Return L (Outcome L) -> ParseRun L type
  | .returned outcome context =>
    match context.aborted.elim outcome .error with
    | .ok value =>
      match value.get? type with
      | some content => .completed ⟨.ok content, context.position, context.state⟩
      | none => .faulted (.wrongType root)
    | .error error => .completed ⟨.error error, context.position, context.state⟩
  | .faulted fault => .faulted fault
  | .exhausted => .exhausted

/-- Parse an input with a number of steps. -/
def parseWithin (entry : EntryPoint L type) (steps : Nat) (input : L.Input) (state : L.State) :
    ParseRun L type :=
  let size := Stream.length input
  if 0 < entry.config.maxInputSize ∧ entry.config.maxInputSize < size then
    .completed ⟨.error (tooLarge size entry.config.maxInputSize), 0, state⟩
  else
    let machine : Machine L := ⟨entry.grammar, input, entry.config.maxRecursionDepth⟩
    conclusion entry.root (machine.parseNode steps entry.root (ParseContext.start state))

/-- The number of steps that a parse gets when nothing is said about it. -/
def defaultSteps : Nat := 1000000000

/-- Parse an input. -/
def parse (entry : EntryPoint L type) (input : L.Input) (state : L.State) : ParseRun L type :=
  entry.parseWithin defaultSteps input state

end EntryPoint

namespace Parser

variable {L : Signature} {type : ValueType L.Kind}

/-- The name of the only rule of a parser that is resolved on its own. -/
def rootRule : String := "<root>"

/-- Resolve a parser on its own.  A reference inside it can only name the
parser itself. -/
def compile (parser : Parser L type) (cache : PatternCache) :
    Except GrammarError (EntryPoint L type × Nullability) × PatternCache :=
  match (GrammarBuilder.empty.rule rootRule parser).build cache with
  | (.error error, cache) => (.error error, cache)
  | (.ok built, cache) =>
    ((built.grammar.entryPoint type rootRule).map fun entry => (entry, built.known), cache)

end Parser
end SeedGrammar
