import SeedGrammar.Grammar.Basic

namespace SeedGrammar
namespace Grammar

/-!
# References

A reference is first bound to the root of the rule that it names, which has
to produce the type that the reference expects.  That root may be a
reference in turn, so each node is then replaced by the end of the chain of
references that starts at it.  A chain that comes back to one of its own
references has no end, and the grammar is refused.

Each chain is followed once.  The end is then known of all nodes on it, and a
later chain that comes to one of them ends there.
-/

variable {L : Signature}

/-- Bind a reference to the rule of its name. -/
def bind (rules : List (Rule L)) :
    Clause L PatternProgram NodeId -> Except GrammarError (Clause L PatternProgram NodeId)
  | .reference name expected _ =>
    match rules.find? (·.name == name) with
    | none => .error (.unresolvedReference name)
    | some rule =>
      if rule.type = expected then .ok (.reference name expected (some rule.root))
      else
        .error (.typeMismatch name (expected.name L.kindName) (rule.type.name L.kindName))
  | clause => .ok clause

/-- Bind all references, in the order of the nodes. -/
def bindAll (rules : List (Rule L)) :
    List (Clause L PatternProgram NodeId) ->
      Except GrammarError (List (Clause L PatternProgram NodeId))
  | [] => .ok []
  | clause :: rest =>
    match bind rules clause with
    | .error error => .error error
    | .ok clause => (bindAll rules rest).map (clause :: ·)

/-- The end of a chain of references and the references that were passed, given
the ends that are known, and with a bound on the references to come. -/
def chainEnd (nodes : List (Clause L PatternProgram NodeId)) (known : List (Option NodeId)) :
    Nat -> List NodeId -> NodeId -> Except GrammarError (NodeId × List NodeId)
  | 0, passed, id => .ok (id, passed)
  | fuel + 1, passed, id =>
    match (known[id]?).join with
    | some last => .ok (last, passed)
    | none =>
      match nodes[id]? with
      | some (.reference name _ target) =>
        if id ∈ passed then .error (.cyclicReference name)
        else
          match target with
          | some target => chainEnd nodes known fuel (id :: passed) target
          | none => .error (.unresolvedReference name)
      | _ => .ok (id, passed)

/-- Note the end of a chain for each of some nodes. -/
def noteEnd (last : NodeId) : List NodeId -> List (Option NodeId) -> List (Option NodeId)
  | [], known => known
  | id :: rest, known => noteEnd last rest (known.set id (some last))

/-- Find the ends of the chains that start at several nodes, unless they are
known.  The first chain without an end is the error. -/
def chainEnds (nodes : List (Clause L PatternProgram NodeId)) :
    List NodeId -> List (Option NodeId) -> Except GrammarError (List (Option NodeId))
  | [], known => .ok known
  | start :: rest, known =>
    match (known[start]?).join with
    | some _ => chainEnds nodes rest known
    | none =>
      match chainEnd nodes known (nodes.length + 1) [] start with
      | .error error => .error error
      | .ok (last, passed) => chainEnds nodes rest (noteEnd last (last :: passed) known)

/-- What each node is replaced by. -/
def targets (nodes : List (Clause L PatternProgram NodeId)) : Except GrammarError (List NodeId) :=
  (chainEnds nodes (List.range nodes.length) (List.replicate nodes.length none)).map
    (List.mapIdx fun id last => last.getD id)

/-- Replace the operands of all clauses and the roots of all rules. -/
def redirect (targets : List NodeId) (grammar : Grammar L) : Grammar L :=
  let target := fun id => (targets[id]?).getD id
  ⟨grammar.nodes.map (·.redirect target),
    grammar.rules.map fun rule => { rule with root := target rule.root }⟩

end Grammar
end SeedGrammar
