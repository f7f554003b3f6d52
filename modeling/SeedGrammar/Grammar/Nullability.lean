import SeedGrammar.Grammar.Basic

namespace SeedGrammar

/-!
# Which nodes can succeed without consuming

Whether a node is nullable follows from the same question about its
operands, up to the point where the answer is certain.  Nodes refer to each
other in cycles, so a node whose answer is being computed counts as nullable
until then.  Answers are kept: an answer that was computed while a node
around it still counted as nullable stays as it is, hence what is kept
depends on the order of the questions, and the kept answers are a value that
every question takes and returns.
-/

/-- What is known about a node: nothing, that its answer is being computed,
or the answer. -/
inductive NullStatus where
  | unknown
  | computing
  | known (answer : Bool)
deriving DecidableEq, Repr

/-- What is known about each node. -/
structure Nullability where
  cells : List NullStatus
deriving DecidableEq, Repr

namespace Nullability

/-- Nothing is known about any of so many nodes. -/
def unknown (count : Nat) : Nullability :=
  ⟨List.replicate count .unknown⟩

/-- What is known about a node, if it exists. -/
def get? (known : Nullability) (id : NodeId) : Option NullStatus :=
  known.cells[id]?

/-- Replace what is known about a node. -/
def set (known : Nullability) (id : NodeId) (status : NullStatus) : Nullability :=
  ⟨known.cells.set id status⟩

end Nullability

/-- A question about a node, given what is known. -/
abbrev NullQuestion := NodeId -> Nullability -> Bool × Nullability

/-- Whether all nodes are nullable.  Nodes after the first that is not are
not asked about. -/
def allNullable (ask : NullQuestion) : List NodeId -> Nullability -> Bool × Nullability
  | [], known => (true, known)
  | id :: rest, known =>
    match ask id known with
    | (true, known) => allNullable ask rest known
    | (false, known) => (false, known)

/-- Whether some node is nullable.  Nodes after the first that is are not
asked about. -/
def anyNullable (ask : NullQuestion) : List NodeId -> Nullability -> Bool × Nullability
  | [], known => (false, known)
  | id :: rest, known =>
    match ask id known with
    | (true, known) => (true, known)
    | (false, known) => anyNullable ask rest known

/-- Whether a leaf can succeed without consuming.  A leaf of the author's own
is taken to consume, and a leaf that only fails counts as one that does not
have to. -/
def Leaf.isNullable {L : Signature} : Leaf L PatternProgram -> Bool
  | exact _ => false
  | charset _ _ _ => false
  | pattern _ program _ => program.isMatch []
  | empty => true
  | eof => true
  | fail _ _ => true
  | custom _ _ => false

/-- Whether a clause can succeed without consuming, given the question about
its operands. -/
def Clause.isNullable {L : Signature} (ask : NullQuestion) :
    Clause L PatternProgram NodeId -> Nullability -> Bool × Nullability
  | leaf atom, known => (atom.isNullable, known)
  | map inner _, known => ask inner known
  | update inner _, known => ask inner known
  | sequence items _, known => allNullable ask items known
  | choice alts, known => anyNullable ask alts known
  | optional _ _, known => (true, known)
  | attempt inner, known => ask inner known
  | lookahead _ look _, known => ask look known
  | repeated _ _ min _, known => (min == 0, known)
  | reference _ _ target, known =>
    match target with
    | some target => ask target known
    | none => (false, known)
  | leftRecursion _, known => (false, known)

namespace Grammar

variable {L : Signature}

/-- Whether a node is nullable, with a bound on the nesting of questions.
Each nested question is about another node, so the number of nodes is
enough. -/
def isNullableWithin (grammar : Grammar L) : Nat -> NullQuestion
  | fuel, id, known =>
    match known.get? id with
    | none => (false, known)
    | some (.known answer) => (answer, known)
    | some .computing => (true, known)
    | some .unknown =>
      match fuel, grammar.nodes[id]? with
      | fuel + 1, some clause =>
        let (answer, known) :=
          clause.isNullable (grammar.isNullableWithin fuel) (known.set id .computing)
        (answer, known.set id (.known answer))
      | _, _ => (true, known)

/-- Whether a node can succeed without consuming. -/
def isNullable (grammar : Grammar L) : NullQuestion :=
  grammar.isNullableWithin grammar.nodeCount

end Grammar
end SeedGrammar
