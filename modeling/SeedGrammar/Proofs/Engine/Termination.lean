import SeedGrammar.Proofs.Engine.Positions

namespace SeedGrammar

/-!
# Parses that end

A node answers if it comes to some reply with enough steps.  Where positions
never go back, the rounds that its own loop makes are bounded, so it answers
if all its calls do, `Machine.answers_of_calls`.  What remains for a whole
parse is a measure that decreases from a node to its calls.

With a limit on nesting that measure is the nesting which is left.  Nothing
else is asked of the grammar: the rules may run into themselves without
consuming, leaves may match without consuming, and functions may turn
failures into values.
-/

variable {L : Signature}

/-- Whether no count that a leaf of the author's own reports inside an input
makes the position wrap around. -/
def Grammar.CountsFit (grammar : Grammar L) (input : L.Input) : Prop :=
  forall (id : NodeId) name act, grammar.nodes[id]? = some (.leaf (.custom name act)) ->
    forall position state value count, position ≤ Stream.length input ->
      act input position state = .ok (value, count) -> position + count < wordCount

namespace Machine

variable {machine : Machine L} {nullable : NodeId -> Prop}

/-- Whether a node comes to a reply. -/
def Answers (machine : Machine L) (depth : Nat) (id : NodeId) (context : Context L) : Prop :=
  exists steps, machine.run steps depth id context ≠ .exhausted

/-- A dialogue that comes to a reply does so with more rounds. -/
theorem dialogue_more {rounds more depth : Nat} {id : NodeId} {context : Context L}
    {call : Caller L NodeId} (enough : rounds ≤ more)
    (ends : (machine.dialogue rounds depth id context).run call ≠ .exhausted) :
    (machine.dialogue more depth id context).run call ≠ .exhausted := by
  rw [dialogue] at ends ⊢
  by_cases trips : 0 < machine.maxDepth ∧ machine.maxDepth < depth
  · rwa [if_pos trips] at ends ⊢
  · rw [if_neg trips] at ends ⊢
    cases found : machine.grammar.nodes[id]? with
    | none =>
        intro spent
        cases spent
    | some clause =>
        rw [found] at ends
        dsimp only at ends ⊢
        rw [<- Clause.run_eq_dialogue] at ends ⊢
        have callers : (Agreement.identical L).Callers Eq call call := by
          rintro operand _ rfl first _ rfl
          cases call operand first with
          | finished outcome after =>
              exact .finished (AnswersAlike.refl (fun _ => rfl) outcome) rfl
          | halted error place => exact .halted (ParseError.Alike.refl (fun _ => rfl) error) rfl
          | faulted fault => exact .faulted (Fault.Alike.refl (fun _ => rfl) fault)
          | exhausted => exact .exhausted
        have covers := Agreement.identical_covers machine.grammar
        have sameWrites : forall operand operand' : NodeId, operand = operand' ->
            machine.grammar.writesState operand = machine.grammar.writesState operand' := by
          rintro operand _ rfl
          rfl
        have follows := Agreement.clause_follows callers (covers.nodes id trivial) enough
          machine.input sameWrites (Clause.Corresponds.same fun _ _ => rfl)
          (covers.bears trivial found) (rfl : context = context)
        rwa [follows.eq ends]

/-- If no count wraps around inside the input, none does in a run. -/
theorem never_wraps (reads : machine.grammar.ReadsWithin machine.input)
    (fits : machine.grammar.CountsFit machine.input) {steps depth : Nat} {id : NodeId}
    {context : Context L} (within : context.Within (machine.bounds True)) :
    forall event, event ∈ machine.trace steps depth id context -> ¬event.Wraps machine := by
  have covers : machine.Covers fun _ => True := fun _ _ _ _ => trivial
  have honours := machine.run_honours reads covers steps depth id (within_forward within False) (by
      intro impossible
      exact impossible.elim)
  intro event member wraps
  cases event with
  | entered place node first => exact wraps
  | finished place node first outcome after =>
      have inside : first.position ≤ Stream.length machine.input :=
        (honours.2 _ member).1.within.position
      rcases wraps with ⟨clause, found, wraps⟩
      cases clause with
      | leaf atom =>
          cases atom with
          | custom name act =>
              rcases wraps with ⟨value, count, result, beyond⟩
              have small := fits node name act found _ _ value count inside result
              omega
          | _ => exact wraps
      | _ => exact wraps

/-- All calls of a node are such as its contract allows. -/
theorem calls_asked (reads : machine.grammar.ReadsWithin machine.input)
    (fits : machine.grammar.CountsFit machine.input) (covers : machine.Covers nullable)
    {steps depth : Nat} {id : NodeId} {context : Context L}
    (within : context.Within (machine.bounds True)) {made : NodeId × Context L}
    (isCall : made ∈ machine.callsOf steps depth id context) :
    exists clause, machine.grammar.nodes[id]? = some clause ∧
      (clause.contract (machine.bounds True) nullable id context).asks made.1 made.2 := by
  have calls : forall made, made ∈ machine.callsOf steps depth id context ->
      context.Reaches (machine.bounds True) made.2 ->
        (machine.run steps (depth + 1) made.1 made.2).Honours
          ((machine.bounds True).ending (made.2.position ≤ context.position -> nullable made.1)
            made.2) := by
    intro made _ reaches
    have honours := machine.run_honours reads covers steps (depth + 1) made.1 reaches.within
      fun _ => never_wraps reads fits reaches.within
    exact Reply.Honours.idle_imp honours.1 fun idle _ => idle
  exact (step_obeys reads within (fun _ => never_wraps reads fits within) calls).2 made isCall

/-- A clause answers if its calls do. -/
theorem answers_of_calls (reads : machine.grammar.ReadsWithin machine.input)
    (fits : machine.grammar.CountsFit machine.input) (covers : machine.Covers nullable)
    {depth : Nat} {id : NodeId} {context : Context L}
    {clause : Clause L PatternProgram NodeId}
    (free : ¬(0 < machine.maxDepth ∧ machine.maxDepth < depth))
    (found : machine.grammar.nodes[id]? = some clause)
    (within : context.Within (machine.bounds True))
    (calls : forall operand reached,
      (clause.contract (machine.bounds True) nullable id context).asks operand reached ->
        machine.Answers (depth + 1) operand reached) :
    machine.Answers depth id context := by
  let rounds := clause.budget (Stream.length machine.input) + 1
  have noWrap : True -> ¬clause.Wraps machine.input context := by
    intro _ wraps
    rcases wraps_of_clause 0 free found wraps with ⟨event, member, eventWraps⟩
    exact never_wraps reads fits within event member eventWraps
  have obeys := dialogue_obeys nullable reads free found within noWrap rounds
  have settles := Dialogue.obeys_settles (fun steps => machine.run steps (depth + 1)) obeys
    (by
      intro spent
      exact absurd (spent trivial) (Nat.not_succ_le_self _))
    (by
      intro operand reached asked
      rcases calls operand reached asked with ⟨steps, ends⟩
      refine ⟨steps, _, ends, ?_, ?_⟩
      · have honours := machine.run_honours reads covers steps (depth + 1) operand asked.2.1.within
          fun _ => never_wraps reads fits asked.2.1.within
        exact Reply.Honours.idle_imp honours.1 fun idle _ => idle
      · intro more enough
        exact run_more enough ends)
  rcases settles with ⟨steps, settled⟩
  refine ⟨max steps rounds + 1, ?_⟩
  rw [run_succ]
  exact dialogue_more (Nat.le_max_right steps rounds) (settled _ (Nat.le_max_left steps rounds))

/-- With a limit on nesting every node answers. -/
theorem answers_of_limited (machine : Machine L)
    (reads : machine.grammar.ReadsWithin machine.input)
    (fits : machine.grammar.CountsFit machine.input) (limited : 0 < machine.maxDepth)
    (left : Nat) {depth : Nat} {id : NodeId} {context : Context L}
    (near : machine.maxDepth < depth + left) (within : context.Within (machine.bounds True)) :
    machine.Answers depth id context := by
  induction left generalizing depth id context with
  | zero =>
      refine ⟨1, ?_⟩
      rw [run, if_pos ⟨limited, near⟩]
      intro spent
      cases spent
  | succ left inductionHypothesis =>
      by_cases trips : 0 < machine.maxDepth ∧ machine.maxDepth < depth
      · refine ⟨1, ?_⟩
        rw [run, if_pos trips]
        intro spent
        cases spent
      · cases found : machine.grammar.nodes[id]? with
        | none =>
            refine ⟨1, ?_⟩
            rw [run, if_neg trips, found]
            intro spent
            cases spent
        | some clause =>
            have covers : machine.Covers fun _ => True := fun _ _ _ _ => trivial
            apply answers_of_calls reads fits covers trips found within
            intro operand reached asked
            exact inductionHypothesis (by omega) asked.2.1.within

end Machine

namespace EntryPoint

variable {type : ValueType L.Kind}

theorem conclude_ne_exhausted {root : NodeId} {reply : Reply L (Outcome L)}
    (ends : reply ≠ .exhausted) : (conclude root reply : ParseRun L type) ≠ .exhausted := by
  intro spent
  cases reply with
  | finished outcome after =>
      cases outcome with
      | error error => cases spent
      | ok value =>
          rw [conclude] at spent
          split at spent <;> cases spent
  | halted error place => cases spent
  | faulted fault => cases spent
  | exhausted => exact ends rfl

/-- A parse ends if its root answers. -/
theorem ends_of_answers {entry : EntryPoint L type} {input : L.Input} {state : L.State}
    (answers : (entry.machine input).Answers 1 entry.root (Context.start state)) :
    exists steps run, run ≠ .exhausted ∧
      forall more, steps ≤ more -> entry.parseWithin more input state = run := by
  rcases answers with ⟨steps, ends⟩
  have parseEnds : entry.parseWithin steps input state ≠ .exhausted := by
    by_cases refuses : entry.Refuses input
    · rw [parseWithin_of_refuses refuses]
      intro spent
      cases spent
    · rw [parseWithin_of_accepts refuses]
      exact conclude_ne_exhausted ends
  exact ⟨steps, _, parseEnds, fun more enough => parseWithin_more enough parseEnds⟩

/-- Any limit on nesting makes parsing total: with enough steps every parse
comes to an end, the same for all greater numbers. -/
theorem ends_of_nesting_limit (entry : EntryPoint L type)
    (limited : 0 < entry.config.maxRecursionDepth) (input : L.Input) (state : L.State)
    (reads : entry.grammar.ReadsWithin input) (fits : entry.grammar.CountsFit input) :
    exists steps run, run ≠ .exhausted ∧
      forall more, steps ≤ more -> entry.parseWithin more input state = run := by
  apply ends_of_answers
  exact (entry.machine input).answers_of_limited reads fits limited
    entry.config.maxRecursionDepth (Nat.lt_add_of_pos_left Nat.one_pos)
    (Context.start_within _ state)

/-- A rule that starts with itself after a leaf that consumes nothing, below a
function that turns every failure into a value. -/
def runaway : EntryPoint plainText .unit :=
  ⟨⟨[.map 1 fun _ _ => .ok (.ok ⟨.unit, ()⟩), .sequence [2, 0] (.pick 0),
    .leaf (.custom "nothing" fun _ _ _ => .ok (⟨.unit, ()⟩, 0))], []⟩, 0, ⟨0, 100⟩⟩

theorem runaway_ends : 0 < runaway.config.maxRecursionDepth ∧
    exists steps run, run ≠ .exhausted ∧
      forall more, steps ≤ more -> runaway.parseWithin more "ab" () = run := by
  have limited : 0 < runaway.config.maxRecursionDepth := by decide
  refine ⟨limited, ends_of_nesting_limit runaway limited "ab" () ?_ ?_⟩
  · intro id atom found
    match id with
    | 0 => cases found
    | 1 => cases found
    | 2 =>
        cases found
        trivial
    | _ + 3 => cases found
  · intro id name act found position state value count inside result
    match id with
    | 0 => cases found
    | 1 => cases found
    | 2 =>
        cases found
        cases result
        exact Nat.lt_of_le_of_lt inside (by decide)
    | _ + 3 => cases found

end EntryPoint
end SeedGrammar
