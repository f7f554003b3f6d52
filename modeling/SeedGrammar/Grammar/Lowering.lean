import SeedGrammar.Expr
import SeedGrammar.Grammar.Basic
import SeedGrammar.Pattern.Cache

namespace SeedGrammar

/-!
# From expressions to nodes

Every expression becomes a node after its operands did, so nodes are numbered
from the leaves up and from left to right.  An expression whose key has been
met before is the node that it was then.  Clauses that can never be right
are refused on the way: empty literals, sequences and choices, and regular
expressions that cannot be read.

What has been compiled stays in the cache even if a later clause is refused.
-/

/-- The nodes so far, the node of each key, and the compiled regular
expressions. -/
structure LoweringState (L : Signature) where
  nodes : List (Clause L PatternProgram NodeId)
  placed : List (Nat × NodeId)
  cache : PatternCache

/-- Lowering may fail, and leaves its state behind when it does. -/
abbrev Lowering (L : Signature) := ExceptT GrammarError (StateM (LoweringState L))

namespace Lowering

variable {L : Signature}

/-- The state before anything is lowered. -/
def start (cache : PatternCache) : LoweringState L := ⟨[], [], cache⟩

/-- The node of a key, if it has one. -/
def node? (key : Nat) : Lowering L (Option NodeId) := do
  return ((← get).placed.find? (·.1 == key)).map (·.2)

/-- Append the node of a key. -/
def place (key : Nat) (clause : Clause L PatternProgram NodeId) : Lowering L NodeId := do
  let state ← get
  let id := state.nodes.length
  set { state with nodes := state.nodes ++ [clause], placed := (key, id) :: state.placed }
  return id

/-- Compile a regular expression. -/
def compile (source : String) : Lowering L PatternProgram := do
  let state ← get
  let (pattern, cache) := state.cache.getOrCompile source
  set { state with cache := cache }
  match pattern with
  | some pattern => return pattern
  | none => throw (.invalidPattern source "it is not a regular expression")

/-- Lower a leaf. -/
def leaf : Leaf L Unit -> Lowering L (Leaf L PatternProgram)
  | .exact literal =>
    if Stream.isEmpty literal then throw .emptyLiteral else return .exact literal
  | .charset set label read => return .charset set label read
  | .pattern source _ text => do
    let pattern ← compile source
    return .pattern source pattern text
  | .empty => return .empty
  | .eof => return .eof
  | .fail message payload => return .fail message payload
  | .custom name act => return .custom name act

mutual

/-- The node of an expression. -/
def expr : Expr L -> Lowering L NodeId
  | .node key clause => do
    match ← node? key with
    | some id => return id
    | none =>
      let lowered ← Lowering.clause clause
      place key lowered

/-- Lower the operands of a clause. -/
def clause : Clause L Unit (Expr L) -> Lowering L (Clause L PatternProgram NodeId)
  | .leaf atom => return .leaf (← leaf atom)
  | .map inner transform => return .map (← expr inner) transform
  | .update inner next => return .update (← expr inner) next
  | .sequence items gather =>
    match items with
    | [] => throw .emptySequence
    | first :: rest => do
      let first ← expr first
      let rest ← exprs rest
      return .sequence (first :: rest) gather
  | .choice alts =>
    match alts with
    | [] => throw .emptyAlternation
    | first :: rest => do
      let first ← expr first
      let rest ← exprs rest
      return .choice (first :: rest)
  | .optional inner element => return .optional (← expr inner) element
  | .attempt inner => return .attempt (← expr inner)
  | .lookahead inner look negative => do
    let inner ← expr inner
    let look ← expr look
    return .lookahead inner look negative
  | .repeated inner element min max => return .repeated (← expr inner) element min max
  | .reference name expected _ => return .reference name expected none
  | .leftRecursion inner => return .leftRecursion (← expr inner)

/-- The nodes of several expressions, from left to right. -/
def exprs : List (Expr L) -> Lowering L (List NodeId)
  | [] => return []
  | first :: rest => do
    let first ← expr first
    let rest ← exprs rest
    return first :: rest

end

end Lowering
end SeedGrammar
