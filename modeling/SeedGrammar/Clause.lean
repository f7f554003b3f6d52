import SeedGrammar.CharSet.Basic
import SeedGrammar.Error.Parse
import SeedGrammar.Value

namespace SeedGrammar

/-!
# Clauses

A clause is one operator of a grammar with its operands left abstract.  In
an expression the operands are expressions; in a resolved grammar they are
the numbers of nodes.  What a clause does when it runs, which operands it
has and how they are renumbered is said once, for both.

Functions of the grammar's author are part of clauses.  Those on values are
kept in a form that takes any value and may find it to be of the wrong type;
the typed combinators only build functions for which that never happens.
-/

/-- What a function sees of the match that it is applied to: the input, the
start and end of the match, the state at its end and the node. -/
structure Token (L : Signature) where
  input : L.Input
  range : Nat × Nat
  state : L.State
  node : NodeId

namespace Token

variable {L : Signature}

/-- Where the match starts. -/
def start (token : Token L) : Nat := token.range.1

/-- Where the match ends. -/
def stop (token : Token L) : Nat := token.range.2

/-- The matched part of the input. -/
def span (token : Token L) : L.Input :=
  Stream.slice token.input token.range.1 token.range.2

end Token

/-- A violated assumption of the engine.  None arises from a grammar that
was built with the typed combinators. -/
inductive Fault where
  | nodeOutOfRange (id : NodeId)
  | unresolvedReference (id : NodeId)
  | emptyChoice (id : NodeId)
  | missingSeed (id : NodeId)
  | wrongType (id : NodeId)
deriving DecidableEq, Repr

/-- What running a node comes to: a value, or a failure. -/
abbrev Outcome (L : Signature) := Except (ParseError L.Payload) (Value L)

/-- A function on outcomes, which may see the match. -/
abbrev Transform (L : Signature) := Outcome L -> Token L -> Except Fault (Outcome L)

/-- How a leaf of the author's own reports that it does not match. -/
inductive Rejection (ε : Type) where
  | plain
  | message (message : String)
  | payload (payload : ε)
deriving DecidableEq, Repr

/-- A leaf of the author's own: from the input, a position and the state, a
value with the number of units it consumes. -/
abbrev Action (L : Signature) :=
  L.Input -> Nat -> L.State -> Except (Rejection L.Payload) (Value L × Nat)

/-- A clause without operands.  Regular expressions are accompanied by data
of type `ρ`: nothing before they are compiled, the compiled form after. -/
inductive Leaf (L : Signature) (ρ : Type) where
  | exact (literal : L.Input)
  | charset (set : CharSet) (label : String) (read : L.Input -> Nat -> Option (Char × Nat))
  | pattern (source : String) (program : ρ) (text : L.Input -> String)
  | empty
  | eof
  | fail (message : String) (payload : Option L.Payload)
  | custom (name : String) (act : Action L)

/-- An operator of a grammar, with operands of type `α`. -/
inductive Clause (L : Signature) (ρ α : Type) where
  | leaf (atom : Leaf L ρ)
  | map (inner : α) (transform : Transform L)
  | update (inner : α) (next : L.State -> Token L -> L.State)
  | sequence (items : List α) (gather : Gather L.Kind)
  | choice (alts : List α)
  | optional (inner : α) (element : ValueType L.Kind)
  | attempt (inner : α)
  | lookahead (inner look : α) (negative : Bool)
  | repeated (inner : α) (element : ValueType L.Kind) (min : Nat) (max : Option Nat)
  | reference (name : String) (expected : ValueType L.Kind) (target : Option α)
  | leftRecursion (inner : α)

namespace Clause

variable {L : Signature} {ρ α β : Type}

/-- The operands in the order in which they run.  The target of a reference
is not one of them. -/
def children : Clause L ρ α -> List α
  | leaf _ => []
  | map inner _ => [inner]
  | update inner _ => [inner]
  | sequence items _ => items
  | choice alts => alts
  | optional inner _ => [inner]
  | attempt inner => [inner]
  | lookahead inner look _ => [inner, look]
  | repeated inner _ _ _ => [inner]
  | reference _ _ _ => []
  | leftRecursion inner => [inner]

/-- Renumber the operands and keep the target of a reference. -/
def redirect (f : α -> α) : Clause L ρ α -> Clause L ρ α
  | leaf atom => .leaf atom
  | map inner transform => .map (f inner) transform
  | update inner next => .update (f inner) next
  | sequence items gather => .sequence (items.map f) gather
  | choice alts => .choice (alts.map f)
  | optional inner element => .optional (f inner) element
  | attempt inner => .attempt (f inner)
  | lookahead inner look negative => .lookahead (f inner) (f look) negative
  | repeated inner element min max => .repeated (f inner) element min max
  | reference name expected target => .reference name expected target
  | leftRecursion inner => .leftRecursion (f inner)

/-- Whether a clause is a reference. -/
def isReference : Clause L ρ α -> Bool
  | reference _ _ _ => true
  | _ => false

theorem children_redirect (f : α -> α) (clause : Clause L ρ α) :
    (clause.redirect f).children = clause.children.map f := by
  cases clause <;> rfl

end Clause
end SeedGrammar
