import SeedGrammar.Grammar.Basic

namespace SeedGrammar

/-!
# Reachable nodes

A search over the nodes of a grammar keeps the nodes that it has visited and
visits none twice, so it ends on cycles.  The depth of the search is at most
the number of nodes, which bounds the recursion.
-/

namespace Clause

variable {L : Signature} {ρ α : Type}

/-- Everything that a clause leads to: its operands, or the target of a
reference. -/
def successors : Clause L ρ α -> List α
  | reference _ _ target => target.toList
  | clause => clause.children

/-- Whether a clause itself replaces the state. -/
def isUpdate : Clause L ρ α -> Bool
  | update _ _ => true
  | _ => false

end Clause

namespace Grammar

variable {L : Signature}

/-- Visit a node and everything that it leads to, with a bound on the depth.
Numbers of no node are passed over. -/
def visit (grammar : Grammar L) (next : Clause L PatternProgram NodeId -> List NodeId) :
    Nat -> List NodeId -> NodeId -> List NodeId
  | 0, visited, _ => visited
  | fuel + 1, visited, id =>
    if id ∈ visited then visited
    else
      match grammar.nodes[id]? with
      | none => visited
      | some clause => (next clause).foldl (grammar.visit next fuel) (id :: visited)

/-- The nodes that can run when a node does. -/
def reachable (grammar : Grammar L) (id : NodeId) : List NodeId :=
  grammar.visit Clause.children (grammar.nodeCount + 1) [] id

/-- Whether running a node can replace the state.  It can for all that is
known about a number of no node. -/
def writesState (grammar : Grammar L) (id : NodeId) : Bool :=
  if id < grammar.nodeCount then
    (grammar.visit Clause.successors (grammar.nodeCount + 1) [] id).any fun id =>
      (grammar.nodes[id]?).any Clause.isUpdate
  else true

end Grammar
end SeedGrammar
