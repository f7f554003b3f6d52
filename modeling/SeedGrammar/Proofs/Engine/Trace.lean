import SeedGrammar.Engine.Parse
import SeedGrammar.Proofs.Engine.Dialogue

namespace SeedGrammar

/-!
# What happens during a parse

The machine only says what a run comes to.  A trace says what happens on the
way: which nodes are entered in which contexts, how deep they are nested, and
what those that finish come to.  It is made from the calls of the dialogues
of the nodes, hence it cannot differ from what the machine does.

Questions about a whole parse, such as how deep it is nested or what an
earlier call left for a later one, are questions about its trace.
-/

/-- Something that happens to a node during a parse: it is entered, or it has
come to an outcome, since it was entered in the first of two contexts. -/
inductive Event (L : Signature) where
  | entered (depth : Nat) (id : NodeId) (context : Context L)
  | finished (depth : Nat) (id : NodeId) (first : Context L) (outcome : Outcome L)
      (after : Context L)

namespace Event

variable {L : Signature}

/-- How deep the node of an event is nested. -/
def depth : Event L -> Nat
  | entered depth _ _ => depth
  | finished depth _ _ _ _ => depth

end Event

namespace Machine

variable {L : Signature}

/-- The dialogue of a node that is nested so deep. -/
def dialogue (machine : Machine L) (rounds depth : Nat) (id : NodeId) (context : Context L) :
    Dialogue L NodeId (Outcome L) :=
  if 0 < machine.maxDepth ∧ machine.maxDepth < depth then
    .answered (.halted (tooDeep context.position id) context)
  else
    match machine.grammar.nodes[id]? with
    | none => .answered (.faulted (.nodeOutOfRange id))
    | some clause =>
      clause.dialogue rounds machine.input machine.grammar.writesState id context

/-- A node does what its dialogue says, with its operands nested one deeper. -/
theorem run_succ (machine : Machine L) (steps depth : Nat) (id : NodeId) (context : Context L) :
    machine.run (steps + 1) depth id context =
      (machine.dialogue steps depth id context).run (machine.run steps (depth + 1)) := by
  rw [run, dialogue]
  by_cases trips : 0 < machine.maxDepth ∧ machine.maxDepth < depth
  · rw [if_pos trips, if_pos trips, Dialogue.run_answered]
  · rw [if_neg trips, if_neg trips]
    cases machine.grammar.nodes[id]? with
    | none => rfl
    | some clause => exact Clause.run_eq_dialogue _ steps machine.input _ id clause context

/-- The calls of a node to its operands. -/
def callsOf (machine : Machine L) (steps depth : Nat) (id : NodeId) (context : Context L) :
    List (NodeId × Context L) :=
  (machine.dialogue steps depth id context).calls (machine.run steps (depth + 1))

/-- The end of a run as an event, if the run has finished. -/
def completion (depth : Nat) (id : NodeId) (first : Context L) :
    Reply L (Outcome L) -> List (Event L)
  | .finished outcome after => [.finished depth id first outcome after]
  | _ => []

/-- What happens during a run of a node, in order. -/
def trace (machine : Machine L) : Nat -> Nat -> NodeId -> Context L -> List (Event L)
  | 0, _, _, _ => []
  | steps + 1, depth, id, context =>
    .entered depth id context ::
      ((machine.callsOf steps depth id context).flatMap fun made =>
        machine.trace steps (depth + 1) made.1 made.2) ++
      completion depth id context (machine.run (steps + 1) depth id context)

/-- How deep the deepest of some events is nested. -/
def deepest (events : List (Event L)) : Nat :=
  (events.map Event.depth).foldr max 0

theorem deepest_le_iff {events : List (Event L)} {bound : Nat} :
    deepest events ≤ bound ↔ forall event, event ∈ events -> event.depth ≤ bound := by
  induction events with
  | nil => simp [deepest]
  | cons event rest inductionHypothesis =>
      rw [List.forall_mem_cons, <- inductionHypothesis]
      exact Nat.max_le

theorem mem_completion {depth : Nat} {id : NodeId} {first : Context L}
    {reply : Reply L (Outcome L)} {event : Event L} :
    event ∈ completion depth id first reply ↔
      exists outcome after, reply = .finished outcome after ∧
        event = .finished depth id first outcome after := by
  constructor
  · intro member
    cases reply with
    | finished outcome after => exact ⟨outcome, after, rfl, List.mem_singleton.mp member⟩
    | halted error place => cases member
    | faulted fault => cases member
    | exhausted => cases member
  · rintro ⟨outcome, after, rfl, rfl⟩
    exact List.mem_singleton.mpr rfl

/-- A trace consists of the events of the node itself and of those of its
calls. -/
theorem mem_trace_succ {machine : Machine L} {steps depth : Nat} {id : NodeId}
    {context : Context L} {event : Event L} :
    event ∈ machine.trace (steps + 1) depth id context ↔
      event = .entered depth id context ∨
        (exists made, made ∈ machine.callsOf steps depth id context ∧
          event ∈ machine.trace steps (depth + 1) made.1 made.2) ∨
        exists outcome after, machine.run (steps + 1) depth id context = .finished outcome after ∧
          event = .finished depth id context outcome after := by
  rw [trace, List.cons_append, List.mem_cons, List.mem_append, List.mem_flatMap, mem_completion]

/-- A relation between earlier and later events of a node follows from what it
says within the calls of the node, between two of them, and at the ends of the
node itself. -/
theorem pairwise_trace_succ {machine : Machine L} {relation : Event L -> Event L -> Prop}
    {steps depth : Nat} {id : NodeId} {context : Context L}
    (first : forall event,
      ((exists made, made ∈ machine.callsOf steps depth id context ∧
          event ∈ machine.trace steps (depth + 1) made.1 made.2) ∨
        exists outcome after, machine.run (steps + 1) depth id context = .finished outcome after ∧
          event = .finished depth id context outcome after) ->
      relation (.entered depth id context) event)
    (within : forall made, made ∈ machine.callsOf steps depth id context ->
      (machine.trace steps (depth + 1) made.1 made.2).Pairwise relation)
    (between : (machine.callsOf steps depth id context).Pairwise fun made later =>
      forall event, event ∈ machine.trace steps (depth + 1) made.1 made.2 ->
        forall other, other ∈ machine.trace steps (depth + 1) later.1 later.2 ->
          relation event other)
    (last : forall made, made ∈ machine.callsOf steps depth id context ->
      forall event, event ∈ machine.trace steps (depth + 1) made.1 made.2 ->
        forall outcome after, machine.run (steps + 1) depth id context = .finished outcome after ->
          relation event (.finished depth id context outcome after)) :
    (machine.trace (steps + 1) depth id context).Pairwise relation := by
  rw [trace, List.cons_append]
  apply List.Pairwise.cons
  · intro event later
    rw [List.mem_append, List.mem_flatMap, mem_completion] at later
    exact first event later
  apply List.pairwise_append.mpr
  refine ⟨List.pairwise_flatMap.mpr ⟨within, between⟩, ?_, ?_⟩
  · cases machine.run (steps + 1) depth id context with
    | finished outcome after => exact List.pairwise_singleton _ _
    | halted error place => exact List.Pairwise.nil
    | faulted fault => exact List.Pairwise.nil
    | exhausted => exact List.Pairwise.nil
  · intro event member other isLast
    rcases List.mem_flatMap.mp member with ⟨made, isCall, inner⟩
    rcases mem_completion.mp isLast with ⟨outcome, after, ends, rfl⟩
    exact last made isCall event inner outcome after ends

end Machine
end SeedGrammar
