import SeedGrammar.Proofs.Engine.Steps
import SeedGrammar.Proofs.Engine.Typing
import SeedGrammar.Proofs.Grammar.Reach

namespace SeedGrammar

/-!
# Nodes without left recursion

A node from which no left recursion can be reached depends on position and state
alone.  What it comes to can therefore be said without a context: from which
snapshot it comes to which outcome at which other snapshot.  The number of steps
is left out as well, as long as there are enough.

Whatever seeds there are stay as they are.
-/

variable {L : Signature}

/-- Whether a clause allows left recursion. -/
def Clause.isLeftRecursion {ρ α : Type} : Clause L ρ α -> Bool
  | leftRecursion _ => true
  | _ => false

namespace Grammar

/-- Whether no left recursion can be reached from a node. -/
def LoopFree (grammar : Grammar L) (id : NodeId) : Prop :=
  forall other clause, grammar.Path Clause.children id other ->
    grammar.nodes[other]? = some clause -> clause.isLeftRecursion = false

/-- Searching what can be reached tells whether a left recursion is among it. -/
theorem loopFree_iff {grammar : Grammar L} {id : NodeId} :
    grammar.LoopFree id ↔ forall other, other ∈ grammar.reachable id ->
      (grammar.nodes[other]?).any Clause.isLeftRecursion = false := by
  have isFree : forall other : NodeId, (grammar.nodes[other]?).any Clause.isLeftRecursion = false ↔
      forall clause : Clause L PatternProgram NodeId, grammar.nodes[other]? = some clause ->
        clause.isLeftRecursion = false := by
    intro other
    cases grammar.nodes[other]? with
    | none => simp
    | some clause => simp
  by_cases inRange : id < grammar.nodeCount
  · constructor
    · intro loopFree other member
      apply (isFree other).mpr
      intro clause found
      exact loopFree other clause ((mem_visit_iff inRange).mp member).1 found
    · intro none other clause path found
      have otherInRange := (List.getElem?_eq_some_iff.mp found).1
      exact (isFree other).mp (none other ((mem_visit_iff inRange).mpr ⟨path, otherInRange⟩))
        clause found
  · -- A number of no node leads nowhere, and nothing is reached from it.
    have absent : grammar.nodes[id]? = none := List.getElem?_eq_none (Nat.le_of_not_lt inRange)
    constructor
    · intro _ other member
      simp only [reachable, visit, List.not_mem_nil, if_false, absent] at member
    · intro _ other clause path found
      cases Relation.ReflTransGen.cases_head path with
      | inl same =>
          rw [<- same, absent] at found
          cases found
      | inr first =>
          rcases first with ⟨_, ⟨_, isClause, _⟩, _⟩
          rw [absent] at isClause
          cases isClause

instance (grammar : Grammar L) (id : NodeId) : Decidable (grammar.LoopFree id) :=
  decidable_of_iff _ loopFree_iff.symm

end Grammar

theorem Agreement.seedless_covers (grammar : Grammar L) (seeds seeds' : SeedTable L) :
    (Agreement.seedless seeds seeds').Covers grammar grammar.LoopFree where
  nodes _ _ := rfl
  children {id clause} loopFree found child isChild := by
    intro other reached path
    exact loopFree other reached (.head ⟨clause, found, isChild⟩ path)
  bears {id clause} loopFree found := by
    apply bears_self rfl
    intro inner isLoop
    have free := loopFree id clause .refl found
    rw [isLoop] at free
    cases free

/-- A context with a given position and state, and nothing else yet. -/
def Snapshot.fresh (snapshot : Snapshot L) : Context L :=
  ⟨snapshot.position, snapshot.state, (0, 0), SeedTable.empty⟩

theorem Snapshot.fresh_typed (types : NodeId -> ValueType L.Kind -> Prop)
    (snapshot : Snapshot L) : snapshot.fresh.Typed types := by
  intro id start seed type found
  cases found

namespace Machine

/-- Whether a node, run by itself, comes to an outcome from one snapshot at
another. -/
def Comes (machine : Machine L) (id : NodeId) (first : Snapshot L) (outcome : Outcome L)
    (last : Snapshot L) : Prop :=
  exists steps after, machine.run steps 1 id first.fresh = .finished outcome after ∧
    after.snapshot = last

variable {machine : Machine L} {id : NodeId}

theorem run_loopFree (unlimited : machine.maxDepth = 0) (loopFree : machine.grammar.LoopFree id)
    {steps more : Nat} (enough : steps ≤ more) (depth depth' : Nat) {first second : Context L}
    (same : first.snapshot = second.snapshot) :
    (machine.run steps depth id first).Follows (Agreement.seedless first.seeds second.seeds)
      (machine.run more depth' id second) := by
  rcases Snapshot.mk.inj same with ⟨position, state⟩
  exact machine.run_follows (Agreement.seedless_covers machine.grammar first.seeds second.seeds)
    enough (Or.inl unlimited) loopFree ⟨position, state, rfl, rfl⟩

/-- In whatever context the node runs, it does what it does by itself, and it
leaves the seeds alone. -/
theorem comes_of_run (unlimited : machine.maxDepth = 0)
    (loopFree : machine.grammar.LoopFree id) {steps depth : Nat} {context after : Context L}
    {outcome : Outcome L} (ends : machine.run steps depth id context = .finished outcome after) :
    machine.Comes id context.snapshot outcome after.snapshot ∧ after.seeds = context.seeds := by
  have follows := run_loopFree unlimited loopFree (Nat.le_refl steps) depth 1
    (show context.snapshot = context.snapshot.fresh.snapshot from rfl)
  rw [ends] at follows
  generalize fresh : machine.run steps 1 id context.snapshot.fresh = reply at follows
  cases follows with
  | @finished _ outcome' _ after' alike same =>
      have sameOutcome : outcome = outcome' := alike.eq
      subst sameOutcome
      rcases same with ⟨position, state, seeds, _⟩
      have sameSnapshot : after'.snapshot = after.snapshot := by
        rw [Context.snapshot, Context.snapshot, position, state]
      exact ⟨⟨steps, after', fresh, sameSnapshot⟩, seeds⟩

theorem run_of_comes (unlimited : machine.maxDepth = 0)
    (loopFree : machine.grammar.LoopFree id) {first last : Snapshot L} {outcome : Outcome L}
    (comes : machine.Comes id first outcome last) :
    exists enough, forall steps, enough ≤ steps -> forall context : Context L,
      context.snapshot = first ->
        exists after, machine.run steps 1 id context = .finished outcome after ∧
          after.snapshot = last ∧ after.seeds = context.seeds := by
  rcases comes with ⟨enough, ending, fresh, isLast⟩
  refine ⟨enough, ?_⟩
  intro steps isEnough context isFirst
  have follows := run_loopFree unlimited loopFree isEnough 1 1
    (show first.fresh.snapshot = context.snapshot from isFirst.symm)
  rw [fresh] at follows
  generalize ran : machine.run steps 1 id context = reply at follows
  cases follows with
  | @finished _ outcome' _ after alike same =>
      have sameOutcome : outcome = outcome' := alike.eq
      subst sameOutcome
      rcases same with ⟨position, state, _, seeds⟩
      refine ⟨after, rfl, ?_, seeds⟩
      rw [<- isLast, Context.snapshot, Context.snapshot, position, state]

/-- What a node comes to is determined. -/
theorem Comes.unique {first last last' : Snapshot L} {outcome outcome' : Outcome L}
    (comes : machine.Comes id first outcome last) (comes' : machine.Comes id first outcome' last') :
    outcome = outcome' ∧ last = last' := by
  rcases comes with ⟨steps, after, ends, rfl⟩
  rcases comes' with ⟨steps', after', ends', rfl⟩
  have same := run_more_finished (Nat.le_max_left steps steps') ends
  have same' := run_more_finished (Nat.le_max_right steps steps') ends'
  rw [same] at same'
  cases same'
  exact ⟨rfl, rfl⟩

variable {types : NodeId -> ValueType L.Kind -> Prop}

theorem Comes.type_eq (typing : machine.grammar.Typing types) {type : ValueType L.Kind}
    (isTyped : types id type) {first last : Snapshot L} {outcome : Outcome L}
    (comes : machine.Comes id first outcome last) :
    forall value, outcome = .ok value -> value.type = type := by
  rcases comes with ⟨steps, after, ends, _⟩
  have safe := machine.run_safe typing steps 1 id first.fresh ⟨type, isTyped⟩
    (first.fresh_typed types)
  rw [ends] at safe
  exact safe.1 type isTyped

/-- Unless its steps are used up, a typed node finishes. -/
theorem finishes_of_ends (unlimited : machine.maxDepth = 0)
    (loopFree : machine.grammar.LoopFree id) (typing : machine.grammar.Typing types)
    {type : ValueType L.Kind} (isTyped : types id type) {steps depth : Nat} {context : Context L}
    (ends : machine.run steps depth id context ≠ .exhausted) :
    exists outcome after, machine.run steps depth id context = .finished outcome after := by
  have follows := run_loopFree unlimited loopFree (Nat.le_refl steps) depth 1
    (show context.snapshot = context.snapshot.fresh.snapshot from rfl)
  have safe := machine.run_safe typing steps 1 id context.snapshot.fresh ⟨type, isTyped⟩
    (context.snapshot.fresh_typed types)
  generalize machine.run steps 1 id context.snapshot.fresh = fresh at follows safe
  generalize machine.run steps depth id context = reply at follows ends
  cases follows with
  | @finished outcome _ after _ _ _ => exact ⟨outcome, after, rfl⟩
  | halted _ _ => exact absurd safe (unlimited ▸ Nat.lt_irrefl 0)
  | faulted _ => cases safe
  | exhausted => exact absurd rfl ends

end Machine
end SeedGrammar
