import SeedGrammar.Proofs.Engine.Aborts
import SeedGrammar.Proofs.Engine.Agreement

namespace SeedGrammar

/-!
# Steps, nesting and seeds

A machine is given steps and is told how deep it is nested.  Neither shows in
a reply that is not exhausted: more steps change nothing, and without a limit
on nesting a node does the same at every depth.  Both are one comparison of a
machine with itself.

A second comparison forgets the seeds.  A node from which no left recursion
can be reached never looks at them, so position and state alone decide what
it comes to, and it leaves the seeds as they are.
-/

variable {L : Signature}

namespace Agreement

/-- The comparison that disregards nothing. -/
def identical (L : Signature) : Agreement L where
  nodes := Eq
  contexts := Eq
  position same := by rw [same]
  state same := by rw [same]
  moved same := by
    intro position state
    rw [same]
  ranged same := by
    intro range
    rw [same]

/-- The comparison that disregards latest ranges and seeds.  The seeds on both
sides are fixed, hence runs that agree leave them alone. -/
def seedless (seeds seeds' : SeedTable L) : Agreement L where
  nodes := Eq
  contexts first second :=
    first.position = second.position ∧ first.state = second.state ∧
      first.seeds = seeds ∧ second.seeds = seeds'
  position same := same.1
  state same := same.2.1
  moved same _ _ := ⟨rfl, rfl, same.2.2⟩
  ranged same _ := same

/-- Nodes of a grammar that a comparison leaves alone: their operands are
among them, and their functions and seeds do not tell what is disregarded. -/
structure Covers (agreement : Agreement L) (grammar : Grammar L) (within : NodeId -> Prop) :
    Prop where
  nodes : forall id, within id -> agreement.nodes id id
  children : forall {id clause}, within id -> grammar.nodes[id]? = some clause ->
    forall child, child ∈ clause.children -> within child
  bears : forall {id clause}, within id -> grammar.nodes[id]? = some clause ->
    agreement.Bears id id clause

/-- Where numbers of nodes count, no function tells a node from itself. -/
theorem bears_self {agreement : Agreement L} (nodes : agreement.nodes = Eq) {ρ α : Type}
    {clause : Clause L ρ α} (noLoop : forall inner, clause ≠ .leftRecursion inner) (id : NodeId) :
    agreement.Bears id id clause := by
  cases clause with
  | map inner transform =>
      intro outcome outcome' input range state alike
      rw [nodes] at alike ⊢
      rw [alike.eq]
      cases transform outcome' ⟨input, range, state, id⟩ with
      | ok result => exact .ok (AnswersAlike.refl (fun _ => rfl) result)
      | error fault => exact .error (Fault.Alike.refl (fun _ => rfl) fault)
  | update inner next =>
      intro input range state
      rfl
  | leftRecursion inner => exact absurd rfl (noLoop inner)
  | leaf atom => trivial
  | sequence items gather => trivial
  | choice alts => trivial
  | optional inner element => trivial
  | attempt inner => trivial
  | lookahead inner look negative => trivial
  | repeated inner element min max => trivial
  | reference name expected target => trivial

/-- Where numbers of nodes count and contexts have the same seeds, no node tells
what else is disregarded. -/
theorem covers_of_seeds {agreement : Agreement L} (nodes : agreement.nodes = Eq)
    (sameSeeds : forall {first second}, agreement.contexts first second ->
      first.seeds = second.seeds)
    (reseeded : forall {first second}, agreement.contexts first second -> forall seeds,
      agreement.contexts { first with seeds := seeds } { second with seeds := seeds })
    (grammar : Grammar L) : agreement.Covers grammar fun _ => True where
  nodes id _ := by rw [nodes]
  children _ _ _ _ := trivial
  bears {id clause} _ _ := by
    cases clause with
    | leftRecursion inner =>
        constructor
        · intro first second same start
          rw [sameSeeds same, nodes]
          cases second.seeds.get? id start with
          | none => exact .none
          | some seed => exact .some ⟨rfl, rfl, AnswersAlike.refl (fun _ => rfl) seed.outcome⟩
        · intro first second same start seed seed' seeds
          rw [nodes] at seeds
          rcases SeedsAlike.eq seeds with rfl
          rw [sameSeeds same]
          exact reseeded same _
    | _ =>
        apply bears_self nodes
        intro inner same
        cases same

theorem identical_covers (grammar : Grammar L) :
    (identical L).Covers grammar fun _ => True := by
  apply covers_of_seeds rfl
  · intro first second same
    rw [same]
  · intro first second same seeds
    rw [same]
    rfl

end Agreement

/-- Replies that are the same up to nothing are the same. -/
theorem Reply.Follows.eq {reply other : Reply L (Outcome L)}
    (follows : reply.Follows (Agreement.identical L) other) (ends : reply ≠ .exhausted) :
    other = reply := by
  cases follows with
  | finished alike same =>
      rcases alike.eq with rfl
      rw [same]
  | halted alike same =>
      rcases alike.eq with rfl
      rw [same]
  | faulted alike => rw [alike.eq]
  | exhausted => exact absurd rfl ends

/-- A grammar at work on an input, without a limit on nesting. -/
def Grammar.machine (grammar : Grammar L) (input : L.Input) : Machine L :=
  ⟨grammar, input, 0⟩

namespace Machine

/-- A machine with more steps follows itself, and at any depth if there is no
limit on nesting. -/
theorem run_follows {agreement : Agreement L} (machine : Machine L) {within : NodeId -> Prop}
    (covers : agreement.Covers machine.grammar within) {steps more depth depth' : Nat}
    (enough : steps ≤ more) (depths : machine.maxDepth = 0 ∨ depth = depth') {id : NodeId}
    (member : within id) {first second : Context L} (same : agreement.contexts first second) :
    (machine.run steps depth id first).Follows agreement
      (machine.run more depth' id second) := by
  induction steps generalizing more depth depth' id first second with
  | zero => exact .exhausted
  | succ steps inductionHypothesis =>
      rcases Nat.exists_eq_add_one_of_ne_zero (Nat.ne_zero_of_lt enough) with ⟨more, rfl⟩
      have nodes := covers.nodes id member
      have tripped : (0 < machine.maxDepth ∧ machine.maxDepth < depth) ↔
          (0 < machine.maxDepth ∧ machine.maxDepth < depth') := by
        omega
      rw [run, run]
      by_cases trips : 0 < machine.maxDepth ∧ machine.maxDepth < depth'
      · rw [if_pos (tripped.mpr trips), if_pos trips, agreement.position same]
        have failure := ParseError.Alike.withNode nodes
          (ParseError.bare second.position : ParseError L.Payload)
        exact .halted ⟨rfl, failure.node, rfl, rfl⟩ same
      · rw [if_neg (mt tripped.mp trips), if_neg trips]
        cases found : machine.grammar.nodes[id]? with
        | none => exact .faulted (.nodeOutOfRange nodes)
        | some clause =>
            have callers : agreement.Callers (fun child child' => child = child' ∧ within child)
                (machine.run steps (depth + 1)) (machine.run more (depth' + 1)) := by
              rintro child _ ⟨rfl, childMember⟩ before before' agree
              exact inductionHypothesis (by omega) (by omega) childMember agree
            refine Agreement.clause_follows callers nodes (Nat.le_of_succ_le_succ enough)
              machine.input ?_ ?_ (covers.bears member found) same
            · rintro child _ ⟨rfl, _⟩
              rfl
            · apply Clause.Corresponds.same
              intro child isChild
              exact ⟨rfl, covers.children member found child isChild⟩

/-- More steps do not change a reply that is not exhausted. -/
theorem run_more {machine : Machine L} {steps more depth : Nat} {id : NodeId}
    {context : Context L} (enough : steps ≤ more)
    (ends : machine.run steps depth id context ≠ .exhausted) :
    machine.run more depth id context = machine.run steps depth id context :=
  (machine.run_follows (Agreement.identical_covers machine.grammar) enough (Or.inr rfl)
    trivial rfl).eq ends

theorem run_more_finished {machine : Machine L} {steps more depth : Nat} {id : NodeId}
    {context after : Context L} {outcome : Outcome L} (enough : steps ≤ more)
    (finishes : machine.run steps depth id context = .finished outcome after) :
    machine.run more depth id context = .finished outcome after := by
  rw [run_more enough (Reply.finished_ne_exhausted finishes), finishes]

/-- Without a limit on nesting the depth does not matter. -/
theorem run_depth {machine : Machine L} (unlimited : machine.maxDepth = 0) (steps : Nat)
    (depth depth' : Nat) (id : NodeId) (context : Context L) :
    machine.run steps depth id context = machine.run steps depth' id context := by
  have follows : forall depth depth',
      (machine.run steps depth id context).Follows (Agreement.identical L)
        (machine.run steps depth' id context) := by
    intro depth depth'
    exact machine.run_follows (Agreement.identical_covers machine.grammar) (Nat.le_refl steps)
      (Or.inl unlimited) trivial rfl
  by_cases spent : machine.run steps depth id context = .exhausted
  · by_cases spent' : machine.run steps depth' id context = .exhausted
    · rw [spent, spent']
    · exact (follows depth' depth).eq spent'
  · exact ((follows depth depth').eq spent).symm

/-- Without a limit on nesting a node does what its clause does. -/
theorem run_clause {machine : Machine L} (unlimited : machine.maxDepth = 0) {id : NodeId}
    {clause : Clause L PatternProgram NodeId} (found : machine.grammar.nodes[id]? = some clause)
    (steps depth : Nat) (context : Context L) :
    machine.run (steps + 1) depth id context =
      clause.run (machine.run steps 1) steps machine.input machine.grammar.writesState id
        context := by
  have free : ¬(0 < machine.maxDepth ∧ machine.maxDepth < depth) := by omega
  have callers : machine.run steps (depth + 1) = machine.run steps 1 := by
    funext operand before
    exact run_depth unlimited steps (depth + 1) 1 operand before
  rw [run, if_neg free, found]
  simp only [callers]

end Machine

/-- An entry point starts at the root of the rule of its name, which is of its
type. -/
theorem Grammar.rule?_of_entryPoint {grammar : Grammar L} {type : ValueType L.Kind}
    {name : String} {entry : EntryPoint L type}
    (isEntry : grammar.entryPoint type name = .ok entry) :
    entry.grammar = grammar ∧ exists rule, grammar.rule? name = some rule ∧ rule.type = type ∧
      rule.root = entry.root := by
  rw [entryPoint] at isEntry
  cases isRule : grammar.rule? name with
  | none =>
      rw [isRule] at isEntry
      cases isEntry
  | some rule =>
      rw [isRule] at isEntry
      dsimp only at isEntry
      split at isEntry
      · rename_i sameType
        cases isEntry
        exact ⟨rfl, rule, rfl, sameType, rfl⟩
      · cases isEntry

namespace EntryPoint

variable {type : ValueType L.Kind}

/-- The machine that a parse runs. -/
def machine (entry : EntryPoint L type) (input : L.Input) : Machine L :=
  ⟨entry.grammar, input, entry.config.maxRecursionDepth⟩

/-- Whether an input is refused for its size. -/
def Refuses (entry : EntryPoint L type) (input : L.Input) : Prop :=
  0 < entry.config.maxInputSize ∧ entry.config.maxInputSize < Stream.length input

/-- What a parse comes to if its root comes to some reply. -/
def conclude (root : NodeId) : Reply L (Outcome L) -> ParseRun L type
  | .finished (.ok value) context =>
    match value.get? type with
    | some content => .completed ⟨.ok content, context.position, context.state⟩
    | none => .faulted (.wrongType root)
  | .finished (.error error) context =>
    .completed ⟨.error error, context.position, context.state⟩
  | .halted error context => .completed ⟨.error error, context.position, context.state⟩
  | .faulted fault => .faulted fault
  | .exhausted => .exhausted

theorem parseWithin_of_refuses {entry : EntryPoint L type} {input : L.Input}
    (refuses : entry.Refuses input) (steps : Nat) (state : L.State) :
    entry.parseWithin steps input state =
      .completed ⟨.error (tooLarge (Stream.length input) entry.config.maxInputSize), 0, state⟩ :=
  if_pos refuses

/-- A parse whose root mirrors a run comes to what the run comes to. -/
theorem conclusion_of_mirrors {root : NodeId} {ended : Return L (Outcome L)}
    {reply : Reply L (Outcome L)} (mirrors : ended.Mirrors 0 reply) :
    (conclusion root ended : ParseRun L type) = conclude root reply := by
  cases mirrors with
  | finished outcome context => cases outcome <;> rfl
  | halted error place range => rfl
  | faulted fault => rfl
  | exhausted => rfl

/-- A parse of an input that is not refused comes to what a run of the root comes to. -/
theorem parseWithin_of_accepts {entry : EntryPoint L type} {input : L.Input}
    (accepts : ¬entry.Refuses input) (steps : Nat) (state : L.State) :
    entry.parseWithin steps input state =
      conclude entry.root ((entry.machine input).run steps 1 entry.root (Context.start state)) := by
  rw [parseWithin]
  apply (if_neg accepts).trans
  exact conclusion_of_mirrors
    ((entry.machine input).parseNode_mirrors steps 0 entry.root (Context.start state))

/-- The root of a parse that ends has not used up its steps. -/
theorem root_ne_exhausted {entry : EntryPoint L type} {steps : Nat} {input : L.Input}
    {state : L.State} (accepts : ¬entry.Refuses input)
    (ends : entry.parseWithin steps input state ≠ .exhausted) :
    (entry.machine input).run steps 1 entry.root (Context.start state) ≠ .exhausted := by
  intro spent
  apply ends
  rw [parseWithin_of_accepts accepts, spent, conclude]

theorem completed_ne_exhausted {run : ParseRun L type} {result : ParseResult L type}
    (completed : run = .completed result) : run ≠ .exhausted := by
  rw [completed]
  intro spent
  cases spent

/-- More steps do not change what a parse comes to. -/
theorem parseWithin_more {entry : EntryPoint L type} {steps more : Nat} {input : L.Input}
    {state : L.State} (enough : steps ≤ more)
    (ends : entry.parseWithin steps input state ≠ .exhausted) :
    entry.parseWithin more input state = entry.parseWithin steps input state := by
  by_cases refuses : entry.Refuses input
  · rw [parseWithin_of_refuses refuses, parseWithin_of_refuses refuses]
  · rw [parseWithin_of_accepts refuses, parseWithin_of_accepts refuses,
      Machine.run_more enough (root_ne_exhausted refuses ends)]

end EntryPoint
end SeedGrammar
