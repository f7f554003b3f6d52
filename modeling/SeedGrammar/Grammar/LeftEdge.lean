import SeedGrammar.Grammar.Nullability

namespace SeedGrammar

/-!
# What can run first

Two searches follow a grammar along its left edges, from a node to those of
its operands that can run at the position where the node itself starts.  In
a sequence these are the items up to the first that has to consume.

The first set of a node is the set of leaves that such a search meets, in
the order in which it meets them.  A left path is a chain of edges from one
node to another; it does not pass through a clause that allows left
recursion, for that clause ends the recursion when it is met again.
-/

namespace Grammar

variable {L : Signature}

/-- A search for leaves: the nodes visited, the leaves met, the latest first,
and what is known of nullability. -/
structure FirstSearch where
  visited : List NodeId
  leaves : List NodeId
  known : Nullability

/-- Search the items of a sequence up to the first that is not nullable. -/
def searchItems (grammar : Grammar L) (search : NodeId -> FirstSearch -> FirstSearch) :
    List NodeId -> FirstSearch -> FirstSearch
  | [], state => state
  | id :: rest, state =>
    let state := search id state
    match grammar.isNullable id state.known with
    | (true, known) => grammar.searchItems search rest { state with known := known }
    | (false, known) => { state with known := known }

/-- Search for the leaves that can start a match, with a bound on the
depth. -/
def searchFirst (grammar : Grammar L) : Nat -> NodeId -> FirstSearch -> FirstSearch
  | 0, _, state => state
  | fuel + 1, id, state =>
    if id ∈ state.visited then state
    else
      let search := grammar.searchFirst fuel
      let state := { state with visited := id :: state.visited }
      match grammar.nodes[id]? with
      | none => state
      | some (.leaf _) => { state with leaves := id :: state.leaves }
      | some (.sequence items _) => grammar.searchItems search items state
      | some (.choice alts) => alts.foldl (fun state alt => search alt state) state
      | some (.map inner _) => search inner state
      | some (.update inner _) => search inner state
      | some (.optional inner _) => search inner state
      | some (.attempt inner) => search inner state
      | some (.lookahead inner _ _) => search inner state
      | some (.repeated inner _ _ _) => search inner state
      | some (.leftRecursion inner) => search inner state
      | some (.reference _ _ target) =>
        match target with
        | some target => search target state
        | none => state

/-- The leaves that can start a match of a node, in the order of the
search. -/
def firstSet (grammar : Grammar L) (id : NodeId) (known : Nullability) :
    List NodeId × Nullability :=
  let state := grammar.searchFirst (grammar.nodeCount + 1) id ⟨[], [], known⟩
  (state.leaves.reverse, state.known)

/-- The items of a sequence up to the first that is not nullable. -/
def leadingItems (grammar : Grammar L) : List NodeId -> Nullability -> List NodeId × Nullability
  | [], known => ([], known)
  | id :: rest, known =>
    match grammar.isNullable id known with
    | (true, known) =>
      let (items, known) := grammar.leadingItems rest known
      (id :: items, known)
    | (false, known) => ([id], known)

/-- The ends of the left edges of a node. -/
def leftEdges (grammar : Grammar L) (id : NodeId) (known : Nullability) :
    List NodeId × Nullability :=
  match grammar.nodes[id]? with
  | some (.sequence items _) => grammar.leadingItems items known
  | some (.choice alts) => (alts, known)
  | some (.map inner _) => ([inner], known)
  | some (.update inner _) => ([inner], known)
  | some (.optional inner _) => ([inner], known)
  | some (.attempt inner) => ([inner], known)
  | some (.lookahead inner _ _) => ([inner], known)
  | some (.repeated inner _ _ _) => ([inner], known)
  | _ => ([], known)

/-- A search for a path: the nodes visited, and what is known of
nullability. -/
structure PathSearch where
  visited : List NodeId
  known : Nullability

/-- Try the ends of edges in order.  The target ends the search, and a node
visited before is not tried again. -/
def tryEdges (target : NodeId)
    (search : NodeId -> PathSearch -> Option (List NodeId) × PathSearch) :
    List NodeId -> PathSearch -> Option (List NodeId) × PathSearch
  | [], state => (none, state)
  | next :: rest, state =>
    if next = target then (some [next], state)
    else if next ∈ state.visited then tryEdges target search rest state
    else
      match search next { state with visited := next :: state.visited } with
      | (some path, state) => (some path, state)
      | (none, state) => tryEdges target search rest state

/-- Search for a chain of left edges to a target, with a bound on the
depth. -/
def searchPath (grammar : Grammar L) (target : NodeId) :
    Nat -> NodeId -> PathSearch -> Option (List NodeId) × PathSearch
  | 0, _, state => (none, state)
  | fuel + 1, id, state =>
    let (edges, known) := grammar.leftEdges id state.known
    match tryEdges target (grammar.searchPath target fuel) edges { state with known := known } with
    | (some path, state) => (some (id :: path), state)
    | (none, state) => (none, state)

/-- A chain of left edges from a node back to itself. -/
def leftCycle (grammar : Grammar L) (id : NodeId) (known : Nullability) :
    Option (List NodeId) × Nullability :=
  let (path, state) := grammar.searchPath id (grammar.nodeCount + 1) id ⟨[], known⟩
  (path, state.known)

end Grammar
end SeedGrammar
