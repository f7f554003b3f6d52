import SeedGrammar.Engine.Reply

namespace SeedGrammar

/-!
# Running a clause

What a clause does is defined relative to a way to call its operands, so it
does not matter whether these are nodes or expressions.

A failure that has advanced is final for most clauses: they go back only
where nothing was consumed.  Attempting undoes the advance, and looking ahead
undoes it either way.  A sequence undoes nothing.

Left recursion starts with a seed that fails at its own position, and runs
its operand again and again.  Each time the operand meets the clause at that
position it gets the seed instead; as long as the match ends farther than
the seed, it becomes the seed.  Seeds outlive every undoing: what was found
at a position stays found for the rest of the parse.

Two loops are not bounded by a list of operands.  They count down a number
of rounds, and a run that uses it up is exhausted.

This is the form to reason about, in which the limit on nesting is an ending
of its own.  `Clause.dispatch` is the clause as it runs, where the error of the
limit is kept in the context and each clause has to see to it.
-/

/-- A count that an author's own leaf reports is added to a position as
machine words are. -/
def wordAdd (position count : Nat) : Nat :=
  (position + count) % wordCount

namespace Leaf

variable {L : Signature}

/-- A failure of a leaf: where it starts, and at which node. -/
def failure (context : Context L) (self : NodeId) : ParseError L.Payload :=
  (ParseError.bare context.position).withNode self

/-- A failure that leaves the context as it is. -/
def failed (context : Context L) (error : ParseError L.Payload) : Outcome L × Context L :=
  (.error error, context)

/-- A value, and the position after it. -/
def matched (context : Context L) (value : Value L) (position : Nat) : Outcome L × Context L :=
  (.ok value, { context with position := position })

/-- Run a leaf at the current position. -/
def run (input : L.Input) (self : NodeId) (atom : Leaf L PatternProgram) (context : Context L) :
    Outcome L × Context L :=
  let start := context.position
  let error := failure context self
  match atom with
  | exact literal =>
    if Stream.matchesAt input start literal then
      matched context ⟨.text, literal⟩ (start + Stream.length literal)
    else failed context error
  | charset set _ read =>
    match read input start with
    | some (c, width) =>
      if set.contains c then matched context ⟨.char, c⟩ (start + width)
      else failed context error
    | none => failed context (error.withMessage "EOF")
  | pattern _ program text =>
    match Text.dropBytes start (text input).toList with
    | none => failed context error
    | some rest =>
      match program.find? rest with
      | some found =>
        matched context ⟨.captures, found.captures⟩
          (start + Text.byteLength (rest.take found.stop))
      | none => failed context error
  | empty => matched context ⟨.unit, ()⟩ start
  | eof =>
    if Stream.length input ≤ start then matched context ⟨.unit, ()⟩ start
    else failed context (error.withMessage "expected end of input")
  | fail message payload =>
    failed context { error with message := some message, payload := payload }
  | custom _ act =>
    match act input start context.state with
    | .ok (value, count) =>
      matched context value (min (wordAdd start count) (Stream.length input))
    | .error .plain => failed context error
    | .error (.message message) => failed context (error.withMessage message)
    | .error (.payload payload) => failed context (error.withPayload payload)

end Leaf

section Steps

variable {L : Signature} {α : Type}

/-- A way to run an operand. -/
abbrev Caller (L : Signature) (α : Type) := α -> Context L -> Reply L (Outcome L)

/-- The values of several operands, or the failure of the first that does not
match. -/
abbrev Values (L : Signature) := Except (ParseError L.Payload) (List (Value L))

/-- Run operands one after the other. -/
def runSequence (call : Caller L α) : List α -> Context L -> Reply L (Values L)
  | [], context => .finished (.ok []) context
  | item :: rest, context =>
    (call item context).andThen fun outcome context =>
      match outcome with
      | .error error => .finished (.error error) context
      | .ok value =>
        (runSequence call rest context).andThen fun values context =>
          .finished (values.map (value :: ·)) context

/-- Run operands from the same start until one matches, or fails after it
advanced.  If all fail where they started, the failure of the last counts. -/
def runChoice (call : Caller L α) (self : NodeId) (start : Snapshot L) :
    Option (ParseError L.Payload) -> List α -> Context L -> Reply L (Outcome L)
  | some error, [], context => .finished (.error error) context
  | none, [], _ => .faulted (.emptyChoice self)
  | _, alt :: rest, context =>
    (call alt context).andThen fun outcome after =>
      match outcome with
      | .ok value => .finished (.ok value) after
      | .error error =>
        if after.position = start.position then
          runChoice call self start (some error) rest (after.restore start)
        else .finished (.error error) after

/-- Run an operand repeatedly, given the values so far, the latest first.  A
match that does not advance is the last if there are enough values; so is a
failure, unless it advanced. -/
def runRepeated (call : Caller L α) (keepState : Bool) (inner : α) (min : Nat)
    (max : Option Nat) : Nat -> List (Value L) -> Context L -> Reply L (Values L)
  | 0, _, _ => .exhausted
  | rounds + 1, values, context =>
    if max.any (· ≤ values.length) then .finished (.ok values.reverse) context
    else
      (call inner context).andThen fun outcome after =>
        match outcome with
        | .ok value =>
          if after.position = context.position ∧ min ≤ values.length + 1 then
            .finished (.ok (value :: values).reverse) after
          else runRepeated call keepState inner min max rounds (value :: values) after
        | .error error =>
          if after.position ≠ context.position ∨ values.length < min then
            .finished (.error error) after
          else
            .finished (.ok values.reverse)
              { after with
                position := context.position
                state := if keepState then after.state else context.state }

/-- Answer with a seed. -/
def replay (seed : Seed L) (context : Context L) : Reply L (Outcome L) :=
  .finished seed.outcome { context with position := seed.position, state := seed.state }

/-- Run the operand of a left recursion from its start for as long as it gets
farther than the seed. -/
def runGrowth (call : Caller L α) (self : NodeId) (inner : α) (start : Snapshot L) :
    Nat -> Context L -> Reply L (Outcome L)
  | 0, _ => .exhausted
  | rounds + 1, context =>
    (call inner (context.restore start)).andThen fun outcome after =>
      match after.seeds.get? self start.position with
      | none => .faulted (.missingSeed self)
      | some seed =>
        if after.position ≤ seed.position then replay seed after
        else
          match outcome with
          | .error error => .finished (.error error) after
          | .ok value =>
            let grown : Seed L := ⟨after.position, after.state, .ok value⟩
            runGrowth call self inner start rounds
              { after with seeds := after.seeds.set self start.position grown }

/-- A value if there is one, or the fault that there is none. -/
def finishWith (self : NodeId) (value : Option (Value L)) (context : Context L) :
    Reply L (Outcome L) :=
  match value with
  | some value => .finished (.ok value) context
  | none => .faulted (.wrongType self)

/-- The value made from several values, unless one of them failed. -/
def finishGathered (self : NodeId) (gather : Gather L.Kind) (values : Values L)
    (context : Context L) : Reply L (Outcome L) :=
  match values with
  | .error error => .finished (.error error) context
  | .ok values => finishWith self (gather.collect values) context

/-- The message of a failed condition on what follows. -/
def lookaheadMessage (negative : Bool) : String :=
  if negative then "unexpected match of negative lookahead" else "expected lookahead to match"

/-- Run a clause at the current position.  `writes` tells whether an operand
can replace the state: a repetition restores the state after its last match
only if it has to. -/
def Clause.run (call : Caller L α) (rounds : Nat) (input : L.Input) (writes : α -> Bool)
    (self : NodeId) (clause : Clause L PatternProgram α) (context : Context L) :
    Reply L (Outcome L) :=
  match clause with
  | leaf atom =>
    let (outcome, after) := atom.run input self context
    .finished outcome after
  | map inner transform =>
    (call inner context).andThen fun outcome after =>
      let after := { after with range := (context.position, after.position) }
      match transform outcome (after.token input self) with
      | .ok outcome => .finished outcome after
      | .error fault => .faulted fault
  | update inner next =>
    (call inner context).andThen fun outcome after =>
      match outcome with
      | .error error => .finished (.error error) after
      | .ok value =>
        let after := { after with range := (context.position, after.position) }
        .finished (.ok value)
          { after with state := next after.state (after.token input self) }
  | sequence items gather =>
    (runSequence call items context).andThen (finishGathered self gather)
  | choice alts => runChoice call self context.snapshot none alts context
  | optional inner element =>
    (call inner context).andThen fun outcome after =>
      match outcome with
      | .ok value =>
        finishWith self
          ((value.get? element).map fun content => ⟨.option element, some content⟩) after
      | .error error =>
        if after.position = context.position then
          .finished (.ok ⟨.option element, none⟩) (after.restore context.snapshot)
        else .finished (.error error) after
  | attempt inner =>
    (call inner context).andThen fun outcome after =>
      match outcome with
      | .ok value => .finished (.ok value) after
      | .error error => .finished (.error error) (after.restore context.snapshot)
  | lookahead inner look negative =>
    (call inner context).andThen fun outcome middle =>
      match outcome with
      | .error error => .finished (.error error) middle
      | .ok value =>
        (call look middle).andThen fun looked after =>
          let after := after.restore middle.snapshot
          if looked.isOk = negative then
            .finished
              (.error (((ParseError.bare middle.position).withNode self).withMessage
                (lookaheadMessage negative)))
              after
          else .finished (.ok value) after
  | repeated inner element min max =>
    (runRepeated call (!writes inner) inner min max rounds [] context).andThen
      (finishGathered self (.list element))
  | reference _ _ _ => .faulted (.unresolvedReference self)
  | leftRecursion inner =>
    match context.seeds.get? self context.position with
    | some seed => replay seed context
    | none =>
      let seed : Seed L :=
        ⟨context.position, context.state,
          .error ((ParseError.bare context.position).withNode self)⟩
      runGrowth call self inner context.snapshot rounds
        { context with seeds := context.seeds.set self context.position seed }

end Steps
end SeedGrammar
