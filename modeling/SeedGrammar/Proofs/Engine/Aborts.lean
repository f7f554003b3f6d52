import SeedGrammar.Engine.Parse

namespace SeedGrammar

/-!
# A parse that has been aborted

Once the limit on nesting has been tripped, the error is in the context and every call
that is still open returns it.  No clause reacts to it: an option does not turn it into a
value, an attempt does not go back, a choice tries nothing else, and a left recursion keeps
its seed.  Position, state and seeds stay as they were when the limit was tripped.  The only
thing that still changes is the latest range, since functions on outcomes are still applied.

Hence the engine can be read as if the limit ended a run at once, `Machine.parseNode_mirrors`.
The nesting that the context counts is that of the node which is run.
-/

variable {L : Signature} {β γ : Type}

/-- Whether a call at some depth returns what a run finishes with, or the parse has been
aborted where the run has been halted.  The latest range may differ then. -/
inductive Return.Mirrors (depth : Nat) :
    Return L (Except (ParseError L.Payload) β) -> Reply L (Except (ParseError L.Payload) β) ->
      Prop where
  | finished (answer : Except (ParseError L.Payload) β) (context : Context L) :
      Mirrors depth (.returned answer ⟨context, depth, none⟩) (.finished answer context)
  | halted (error : ParseError L.Payload) (place : Context L) (range : Nat × Nat) :
      Mirrors depth (.returned (.error error) ⟨{ place with range := range }, depth, some error⟩)
        (.halted error place)
  | faulted (fault : Fault) : Mirrors depth (.faulted fault) (.faulted fault)
  | exhausted : Mirrors depth .exhausted .exhausted

/-- Whether a clause ends as a run does, except that it may have made something else of the
error that has aborted the parse. -/
inductive Return.Follows (depth : Nat) : Return L (Outcome L) -> Reply L (Outcome L) -> Prop where
  | mirrors {ended : Return L (Outcome L)} {reply : Reply L (Outcome L)} :
      ended.Mirrors depth reply -> Follows depth ended reply
  | aborted (outcome : Outcome L) (error : ParseError L.Payload) (place : Context L)
      (range : Nat × Nat) :
      Follows depth (.returned outcome ⟨{ place with range := range }, depth, some error⟩)
        (.halted error place)

/-- Whether what follows a call passes on the error that has aborted the parse, and leaves
everything but the latest range as it is. -/
def PassesOn (next : Except (ParseError L.Payload) β -> ParseContext L ->
    Return L (Except (ParseError L.Payload) γ)) : Prop :=
  forall error context, context.aborted = some error ->
    exists range, next (.error error) context =
      .returned (.error error) { context with range := range }

/-- Whether calls of operands mirror runs of them. -/
def CallsMirror {α : Type} (depth : Nat) (call : NodeCaller L α) (run : Caller L α) : Prop :=
  forall operand context,
    (call operand ⟨context, depth, none⟩).Mirrors depth (run operand context)

namespace Return.Mirrors

variable {depth : Nat} {ended : Return L (Except (ParseError L.Payload) β)}
  {reply : Reply L (Except (ParseError L.Payload) β)}

/-- What follows has to mirror only what follows a run that finishes. -/
theorem andThen
    {next : Except (ParseError L.Payload) β -> ParseContext L ->
      Return L (Except (ParseError L.Payload) γ)}
    {next' : Except (ParseError L.Payload) β -> Context L ->
      Reply L (Except (ParseError L.Payload) γ)}
    (mirrors : ended.Mirrors depth reply)
    (onward : forall answer context,
      (next answer ⟨context, depth, none⟩).Mirrors depth (next' answer context))
    (passesOn : PassesOn next) :
    (ended.andThen next).Mirrors depth (reply.andThen next') := by
  cases mirrors with
  | finished answer context => exact onward answer context
  | halted error place range =>
      rcases passesOn error ⟨{ place with range := range }, depth, some error⟩ rfl with
        ⟨later, passed⟩
      rw [Return.andThen, passed]
      exact .halted error place later
  | faulted fault => exact .faulted fault
  | exhausted => exact .exhausted

end Return.Mirrors

/-- A node that is left returns the error that has aborted the parse, whatever its clause has
made of it. -/
theorem Return.Follows.leave {depth : Nat} {ended : Return L (Outcome L)}
    {reply : Reply L (Outcome L)} (follows : ended.Follows (depth + 1) reply) :
    (ended.andThen Machine.leave).Mirrors depth reply := by
  cases follows with
  | mirrors mirrors =>
      cases mirrors with
      | finished outcome context => exact .finished outcome context
      | halted error place range => exact .halted error place range
      | faulted fault => exact .faulted fault
      | exhausted => exact .exhausted
  | aborted outcome error place range => exact .halted error place range

theorem passesOn_of_eq {next : Except (ParseError L.Payload) β -> ParseContext L ->
      Return L (Except (ParseError L.Payload) γ)}
    (same : forall error context, context.aborted = some error ->
      next (.error error) context = .returned (.error error) context) : PassesOn next :=
  fun error context aborted => ⟨context.range, same error context aborted⟩

namespace ParseContext

theorem isAborted_of_eq {context : ParseContext L} {error : ParseError L.Payload}
    (aborted : context.aborted = some error) : context.isAborted = true := by
  rw [isAborted, aborted]
  rfl

@[simp] theorem isAborted_none (context : Context L) (depth : Nat) :
    (⟨context, depth, none⟩ : ParseContext L).isAborted = false := rfl

@[simp] theorem restore_mk (context : Context L) (depth : Nat)
    (aborted : Option (ParseError L.Payload)) (snapshot : Snapshot L) :
    (⟨context, depth, aborted⟩ : ParseContext L).restore snapshot =
      ⟨context.restore snapshot, depth, aborted⟩ := rfl

end ParseContext

/-! ## Clauses -/

section Clauses

variable {α : Type} {depth : Nat} {call : NodeCaller L α} {run : Caller L α}

theorem returnWith_mirrors (self : NodeId) (value : Option (Value L)) (context : Context L) :
    (returnWith self value ⟨context, depth, none⟩).Mirrors depth (finishWith self value context) := by
  cases value with
  | some value => exact .finished _ _
  | none => exact .faulted _

theorem returnGathered_mirrors (self : NodeId) (gather : Gather L.Kind) (values : Values L)
    (context : Context L) :
    (returnGathered self gather values ⟨context, depth, none⟩).Mirrors depth
      (finishGathered self gather values context) := by
  cases values with
  | error error => exact .finished _ _
  | ok values => exact returnWith_mirrors self (gather.collect values) context

theorem returnGathered_passesOn (self : NodeId) (gather : Gather L.Kind) :
    PassesOn (returnGathered self gather : Values L -> ParseContext L -> Return L (Outcome L)) :=
  passesOn_of_eq fun _ _ _ => rfl

variable (calls : CallsMirror depth call run)

include calls

theorem dispatchSequence_mirrors (items : List α) (context : Context L) :
    (dispatchSequence call items ⟨context, depth, none⟩).Mirrors depth
      (runSequence run items context) := by
  induction items generalizing context with
  | nil => exact .finished _ _
  | cons item rest inductionHypothesis =>
      apply (calls item context).andThen
      · intro outcome after
        cases outcome with
        | error error => exact .finished _ _
        | ok value =>
            apply (inductionHypothesis after).andThen
            · exact fun values last => .finished _ _
            · exact passesOn_of_eq fun _ _ _ => rfl
      · exact passesOn_of_eq fun _ _ _ => rfl

theorem dispatchChoice_mirrors (self : NodeId) (start : Snapshot L)
    (last : Option (ParseError L.Payload)) (alts : List α) (context : Context L) :
    (dispatchChoice call self start last alts ⟨context, depth, none⟩).Mirrors depth
      (runChoice run self start last alts context) := by
  induction alts generalizing last context with
  | nil =>
      cases last with
      | some error => exact .finished _ _
      | none => exact .faulted _
  | cons alt rest inductionHypothesis =>
      rw [dispatchChoice, runChoice]
      apply (calls alt context).andThen
      · intro outcome after
        cases outcome with
        | ok value => exact .finished _ _
        | error error =>
            by_cases returned : after.position = start.position
            · simpa [returned, ParseContext.isAborted] using
                inductionHypothesis (some error) (after.restore start)
            · simpa [returned] using .finished (.error error) after
      · apply passesOn_of_eq
        intro error after aborted
        simp [ParseContext.isAborted_of_eq aborted]

theorem dispatchRepeated_mirrors (keepState : Bool) (inner : α) (min : Nat) (max : Option Nat)
    (rounds : Nat) (values : List (Value L)) (context : Context L) :
    (dispatchRepeated call keepState inner min max rounds values ⟨context, depth, none⟩).Mirrors
      depth (runRepeated run keepState inner min max rounds values context) := by
  induction rounds generalizing values context with
  | zero => exact .exhausted
  | succ rounds inductionHypothesis =>
      rw [dispatchRepeated, runRepeated]
      by_cases full : max.any (· ≤ values.length) = true
      · rw [if_pos full, if_pos full]
        exact .finished _ _
      · rw [if_neg full, if_neg full]
        apply (calls inner context).andThen
        · intro outcome after
          cases outcome with
          | ok value =>
              by_cases last : after.position = context.position ∧ min ≤ values.length + 1
              · simp only [if_pos last]
                exact .finished _ _
              · simp only [if_neg last]
                exact inductionHypothesis (value :: values) after
          | error error =>
              by_cases final : after.position ≠ context.position ∨ values.length < min
              · simp only [if_pos final, if_pos (Or.inr final)]
                exact .finished _ _
              · have goesOn : ¬((⟨after, depth, none⟩ : ParseContext L).isAborted = true ∨
                    after.position ≠ context.position ∨ values.length < min) :=
                  fun stops => stops.elim Bool.noConfusion final
                simp only [if_neg final, if_neg goesOn]
                exact .finished _ _
        · apply passesOn_of_eq
          intro error after aborted
          simp [ParseContext.isAborted_of_eq aborted]

theorem dispatchGrowth_mirrors (self : NodeId) (inner : α) (start : Snapshot L) (rounds : Nat)
    (context : Context L) :
    (dispatchGrowth call self inner start rounds ⟨context, depth, none⟩).Mirrors depth
      (runGrowth run self inner start rounds context) := by
  induction rounds generalizing context with
  | zero => exact .exhausted
  | succ rounds inductionHypothesis =>
      rw [dispatchGrowth, runGrowth]
      apply (calls inner (context.restore start)).andThen
      · intro outcome after
        simp only [ParseContext.isAborted_none, Bool.false_eq_true, if_false]
        cases found : after.seeds.get? self start.position with
        | none => exact .faulted _
        | some seed =>
            by_cases done : after.position ≤ seed.position
            · simp only [if_pos done]
              exact .finished _ _
            · simp only [if_neg done]
              cases outcome with
              | error error => exact .finished _ _
              | ok value => exact inductionHypothesis _
      · apply passesOn_of_eq
        intro error after aborted
        rw [if_pos (ParseContext.isAborted_of_eq aborted)]

/-- A function that is applied to every outcome is applied to the error that has aborted the
parse, too. -/
theorem dispatch_map_follows (rounds : Nat) (input : L.Input) (writes : α -> Bool) (self : NodeId)
    (inner : α) (transform : Transform L) (context : Context L) :
    ((Clause.map inner transform).dispatch call rounds input writes self
      ⟨context, depth, none⟩).Follows depth
        ((Clause.map inner transform).run run rounds input writes self context) := by
  have called := calls inner context
  rw [Clause.dispatch, Clause.run]
  generalize call inner ⟨context, depth, none⟩ = ended at called
  generalize run inner context = reply at called
  cases called with
  | finished outcome after =>
      rw [Return.andThen, Reply.andThen_finished]
      dsimp only
      cases transform outcome (Context.token { after with
          range := (context.position, after.position) } input self) with
      | ok answer => exact .mirrors (.finished _ _)
      | error fault => exact .mirrors (.faulted fault)
  | halted error place range =>
      rw [Return.andThen, Reply.andThen_halted]
      dsimp only
      cases transform (.error error) (Context.token { place with
          range := (context.position, place.position) } input self) with
      | ok answer => exact .aborted answer error place _
      | error fault => exact .aborted (.error error) error place _
  | faulted fault => exact .mirrors (.faulted fault)
  | exhausted => exact .mirrors .exhausted

/-- A clause whose operands are mirrored does as its run does. -/
theorem Clause.dispatch_follows (rounds : Nat) (input : L.Input) (writes : α -> Bool)
    (self : NodeId) (clause : Clause L PatternProgram α) (context : Context L) :
    (clause.dispatch call rounds input writes self ⟨context, depth, none⟩).Follows depth
      (clause.run run rounds input writes self context) := by
  cases clause with
  | map inner transform =>
      exact dispatch_map_follows calls rounds input writes self inner transform context
  | leaf atom => exact .mirrors (.finished _ _)
  | update inner next =>
      apply Return.Follows.mirrors
      apply (calls inner context).andThen
      · intro outcome after
        cases outcome with
        | error error => exact .finished _ _
        | ok value => exact .finished _ _
      · exact passesOn_of_eq fun _ _ _ => rfl
  | sequence items gather =>
      apply Return.Follows.mirrors
      apply (dispatchSequence_mirrors calls items context).andThen
      · exact returnGathered_mirrors self gather
      · exact returnGathered_passesOn self gather
  | choice alts =>
      exact .mirrors (dispatchChoice_mirrors calls self context.snapshot none alts context)
  | optional inner element =>
      apply Return.Follows.mirrors
      apply (calls inner context).andThen
      · intro outcome after
        cases outcome with
        | ok value => exact returnWith_mirrors self _ after
        | error error =>
            by_cases returned : after.position = context.position
            · simp only [returned, ParseContext.isAborted_none, Bool.not_false, and_self, if_true]
              exact .finished _ _
            · simp only [returned, false_and, if_false]
              exact .finished _ _
      · apply passesOn_of_eq
        intro error after aborted
        simp [ParseContext.isAborted_of_eq aborted]
  | attempt inner =>
      apply Return.Follows.mirrors
      apply (calls inner context).andThen
      · intro outcome after
        cases outcome with
        | ok value => exact .finished _ _
        | error error => exact .finished _ _
      · apply passesOn_of_eq
        intro error after aborted
        simp [ParseContext.isAborted_of_eq aborted]
  | lookahead inner look negative =>
      apply Return.Follows.mirrors
      apply (calls inner context).andThen
      · intro outcome middle
        cases outcome with
        | error error => exact .finished _ _
        | ok value =>
            apply (calls look middle).andThen
            · intro looked after
              by_cases refused : looked.isOk = negative
              · simp only [ParseContext.isAborted_none, Bool.false_eq_true, if_false, if_pos refused]
                exact .finished _ _
              · simp only [ParseContext.isAborted_none, Bool.false_eq_true, if_false, if_neg refused]
                exact .finished _ _
            · apply passesOn_of_eq
              intro error after aborted
              simp [ParseContext.isAborted_of_eq aborted]
      · exact passesOn_of_eq fun _ _ _ => rfl
  | repeated inner element min max =>
      apply Return.Follows.mirrors
      apply (dispatchRepeated_mirrors calls _ inner min max rounds [] context).andThen
      · exact returnGathered_mirrors self _
      · exact returnGathered_passesOn self _
  | reference name expected target => exact .mirrors (.faulted _)
  | leftRecursion inner =>
      rw [dispatch, Clause.run]
      cases context.seeds.get? self context.position with
      | some seed => exact .mirrors (.finished _ _)
      | none =>
          exact .mirrors (dispatchGrowth_mirrors calls self inner context.snapshot rounds _)

end Clauses

namespace Machine

/-- The engine does what the machine does whose runs are halted by the limit on nesting.  The
induction is on the steps. -/
theorem parseNode_mirrors (machine : Machine L) (steps depth : Nat) :
    CallsMirror depth (machine.parseNode steps) (machine.run steps (depth + 1)) := by
  induction steps generalizing depth with
  | zero => exact fun _ _ => .exhausted
  | succ steps inductionHypothesis =>
      intro id context
      rw [parseNode, run]
      apply Return.Follows.leave
      by_cases trips : 0 < machine.maxDepth ∧ machine.maxDepth < depth + 1
      · rw [if_pos trips, if_pos trips]
        exact .mirrors (.halted (tooDeep context.position id) context context.range)
      · rw [if_neg trips, if_neg trips]
        cases machine.grammar.nodes[id]? with
        | none => exact .mirrors (.faulted _)
        | some clause =>
            exact clause.dispatch_follows (inductionHypothesis (depth + 1)) steps machine.input
              machine.grammar.writesState id context

end Machine
end SeedGrammar
