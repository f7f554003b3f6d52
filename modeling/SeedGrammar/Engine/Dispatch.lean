import SeedGrammar.Engine.Step

namespace SeedGrammar

/-!
# Running a clause under a limit on nesting

A node that is nested too deep aborts the whole parse.  Its error is kept in
the context, and from then on every call answers with it.  Nothing undoes
this by itself: what goes back after a failure, tries something else or goes
on has to see that the parse has been aborted, so each clause that reacts to
failures looks at the context first.  A function that is applied to every
outcome is applied to this error, too, but what it makes of it is dropped by
the node that it belongs to.

These are the clauses as they run.  `Clause.run` is the same with an ending
of its own for a parse that has been aborted, which nothing can react to.
-/

/-- The state of a parse, how deep the current node is nested, and the error
that has aborted the parse, if one has. -/
structure ParseContext (L : Signature) extends Context L where
  depth : Nat
  aborted : Option (ParseError L.Payload)

namespace ParseContext

variable {L : Signature}

/-- The context at the start of a parse. -/
def start (state : L.State) : ParseContext L :=
  ⟨Context.start state, 0, none⟩

/-- Whether the parse has been aborted. -/
def isAborted (context : ParseContext L) : Bool :=
  context.aborted.isSome

/-- Go back to an earlier position and state. -/
def restore (context : ParseContext L) (snapshot : Snapshot L) : ParseContext L :=
  { context with toContext := context.toContext.restore snapshot }

end ParseContext

/-- How a call for an answer of type `α` ends. -/
inductive Return (L : Signature) (α : Type) where
  | returned (answer : α) (context : ParseContext L)
  | faulted (fault : Fault)
  | exhausted

namespace Return

variable {L : Signature} {α β : Type}

/-- Continue a call that has returned. -/
@[inline] def andThen (ended : Return L α) (next : α -> ParseContext L -> Return L β) :
    Return L β :=
  match ended with
  | returned answer context => next answer context
  | faulted fault => faulted fault
  | exhausted => exhausted

end Return

section Dispatch

variable {L : Signature} {α : Type}

/-- A way to call an operand. -/
abbrev NodeCaller (L : Signature) (α : Type) := α -> ParseContext L -> Return L (Outcome L)

/-- Call operands one after the other. -/
def dispatchSequence (call : NodeCaller L α) : List α -> ParseContext L -> Return L (Values L)
  | [], context => .returned (.ok []) context
  | item :: rest, context =>
    (call item context).andThen fun outcome context =>
      match outcome with
      | .error error => .returned (.error error) context
      | .ok value =>
        (dispatchSequence call rest context).andThen fun values context =>
          .returned (values.map (value :: ·)) context

/-- Call operands from the same start until one matches, or fails after it
advanced, or aborts the parse. -/
def dispatchChoice (call : NodeCaller L α) (self : NodeId) (start : Snapshot L) :
    Option (ParseError L.Payload) -> List α -> ParseContext L -> Return L (Outcome L)
  | some error, [], context => .returned (.error error) context
  | none, [], _ => .faulted (.emptyChoice self)
  | _, alt :: rest, context =>
    (call alt context).andThen fun outcome after =>
      match outcome with
      | .ok value => .returned (.ok value) after
      | .error error =>
        if after.position ≠ start.position ∨ after.isAborted then .returned (.error error) after
        else dispatchChoice call self start (some error) rest (after.restore start)

/-- Call an operand repeatedly, given the values so far, the latest first. -/
def dispatchRepeated (call : NodeCaller L α) (keepState : Bool) (inner : α) (min : Nat)
    (max : Option Nat) : Nat -> List (Value L) -> ParseContext L -> Return L (Values L)
  | 0, _, _ => .exhausted
  | rounds + 1, values, context =>
    if max.any (· ≤ values.length) then .returned (.ok values.reverse) context
    else
      (call inner context).andThen fun outcome after =>
        match outcome with
        | .ok value =>
          if after.position = context.position ∧ min ≤ values.length + 1 then
            .returned (.ok (value :: values).reverse) after
          else dispatchRepeated call keepState inner min max rounds (value :: values) after
        | .error error =>
          if after.isAborted ∨ after.position ≠ context.position ∨ values.length < min then
            .returned (.error error) after
          else
            .returned (.ok values.reverse)
              { after with
                position := context.position
                state := if keepState then after.state else context.state }

/-- Answer with a seed. -/
def returnSeed (seed : Seed L) (context : ParseContext L) : Return L (Outcome L) :=
  .returned seed.outcome { context with position := seed.position, state := seed.state }

/-- Call the operand of a left recursion from its start for as long as it gets
farther than the seed.  The seeds are not touched any more once the parse has
been aborted. -/
def dispatchGrowth (call : NodeCaller L α) (self : NodeId) (inner : α) (start : Snapshot L) :
    Nat -> ParseContext L -> Return L (Outcome L)
  | 0, _ => .exhausted
  | rounds + 1, context =>
    (call inner (context.restore start)).andThen fun outcome after =>
      if after.isAborted then .returned outcome after
      else
        match after.seeds.get? self start.position with
        | none => .faulted (.missingSeed self)
        | some seed =>
          if after.position ≤ seed.position then returnSeed seed after
          else
            match outcome with
            | .error error => .returned (.error error) after
            | .ok value =>
              let grown : Seed L := ⟨after.position, after.state, .ok value⟩
              dispatchGrowth call self inner start rounds
                { after with seeds := after.seeds.set self start.position grown }

/-- A value if there is one, or the fault that there is none. -/
def returnWith (self : NodeId) (value : Option (Value L)) (context : ParseContext L) :
    Return L (Outcome L) :=
  match value with
  | some value => .returned (.ok value) context
  | none => .faulted (.wrongType self)

/-- The value made from several values, unless one of them failed. -/
def returnGathered (self : NodeId) (gather : Gather L.Kind) (values : Values L)
    (context : ParseContext L) : Return L (Outcome L) :=
  match values with
  | .error error => .returned (.error error) context
  | .ok values => returnWith self (gather.collect values) context

/-- Call a clause at the current position. -/
def Clause.dispatch (call : NodeCaller L α) (rounds : Nat) (input : L.Input)
    (writes : α -> Bool) (self : NodeId) (clause : Clause L PatternProgram α)
    (context : ParseContext L) : Return L (Outcome L) :=
  match clause with
  | leaf atom =>
    let (outcome, after) := atom.run input self context.toContext
    .returned outcome { context with toContext := after }
  | map inner transform =>
    (call inner context).andThen fun outcome after =>
      let after := { after with range := (context.position, after.position) }
      match transform outcome (after.token input self), after.aborted with
      | .ok outcome, _ => .returned outcome after
      | .error fault, none => .faulted fault
      | .error _, some error => .returned (.error error) after
  | update inner next =>
    (call inner context).andThen fun outcome after =>
      match outcome with
      | .error error => .returned (.error error) after
      | .ok value =>
        let after := { after with range := (context.position, after.position) }
        .returned (.ok value) { after with state := next after.state (after.token input self) }
  | sequence items gather =>
    (dispatchSequence call items context).andThen (returnGathered self gather)
  | choice alts => dispatchChoice call self context.snapshot none alts context
  | optional inner element =>
    (call inner context).andThen fun outcome after =>
      match outcome with
      | .ok value =>
        returnWith self
          ((value.get? element).map fun content => ⟨.option element, some content⟩) after
      | .error error =>
        if after.position = context.position ∧ !after.isAborted then
          .returned (.ok ⟨.option element, none⟩) (after.restore context.snapshot)
        else .returned (.error error) after
  | attempt inner =>
    (call inner context).andThen fun outcome after =>
      match outcome with
      | .ok value => .returned (.ok value) after
      | .error error =>
        if after.isAborted then .returned (.error error) after
        else .returned (.error error) (after.restore context.snapshot)
  | lookahead inner look negative =>
    (call inner context).andThen fun outcome middle =>
      match outcome with
      | .error error => .returned (.error error) middle
      | .ok value =>
        (call look middle).andThen fun looked after =>
          if after.isAborted then .returned looked after
          else
            let after := after.restore middle.snapshot
            if looked.isOk = negative then
              .returned
                (.error (((ParseError.bare middle.position).withNode self).withMessage
                  (lookaheadMessage negative)))
                after
            else .returned (.ok value) after
  | repeated inner element min max =>
    (dispatchRepeated call (!writes inner) inner min max rounds [] context).andThen
      (returnGathered self (.list element))
  | reference _ _ _ => .faulted (.unresolvedReference self)
  | leftRecursion inner =>
    match context.seeds.get? self context.position with
    | some seed => returnSeed seed context
    | none =>
      let seed : Seed L :=
        ⟨context.position, context.state,
          .error ((ParseError.bare context.position).withNode self)⟩
      dispatchGrowth call self inner context.snapshot rounds
        { context with seeds := context.seeds.set self context.position seed }

end Dispatch
end SeedGrammar
