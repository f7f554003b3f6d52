import SeedGrammar.Engine.Step

namespace SeedGrammar

/-!
# Clauses as dialogues

A clause depends on its operands only through their replies, so it can be
read as a dialogue: it calls an operand in some context, sees the outcome
and the context after it, and goes on until it has a reply of its own.  A
dialogue says nothing about what operands do, hence two questions can be
asked of the same one: which reply it comes to with a given way to run
operands, and which calls it makes on the way.

That the dialogue of a clause is what the clause does is
`Clause.run_eq_dialogue`.  The other facts are about all dialogues.  A
dialogue depends on the replies to the calls that it makes and on no other,
a call that does not finish is where it ends, and what it passes to its
operands and comes to itself can be followed from call to call.
-/

/-- A run that is left to choose how operands are run: it is over, or it
calls an operand and goes on with the outcome and the context after it. -/
inductive Dialogue (L : Signature) (α β : Type) where
  | answered (reply : Reply L β)
  | ask (operand : α) (context : Context L)
      (next : Outcome L -> Context L -> Dialogue L α β)

namespace Dialogue

variable {L : Signature} {α β γ : Type}

/-- The reply that a dialogue comes to. -/
def run (call : Caller L α) : Dialogue L α β -> Reply L β
  | answered reply => reply
  | ask operand context next =>
    (call operand context).andThen fun outcome after => (next outcome after).run call

/-- The calls that a dialogue makes, in order.  After a call that does not
finish there are none. -/
def calls (call : Caller L α) : Dialogue L α β -> List (α × Context L)
  | answered _ => []
  | ask operand context next =>
    (operand, context) ::
      match call operand context with
      | .finished outcome after => (next outcome after).calls call
      | _ => []

/-- Continue a dialogue that comes to an answer. -/
def andThen (rest : β -> Context L -> Dialogue L α γ) : Dialogue L α β -> Dialogue L α γ
  | answered (.finished answer context) => rest answer context
  | answered (.halted error context) => answered (.halted error context)
  | answered (.faulted fault) => answered (.faulted fault)
  | answered .exhausted => answered .exhausted
  | ask operand context next =>
    ask operand context fun outcome after => (next outcome after).andThen rest

@[simp] theorem run_answered (call : Caller L α) (reply : Reply L β) :
    (answered reply : Dialogue L α β).run call = reply := rfl

@[simp] theorem run_ask (call : Caller L α) (operand : α) (context : Context L)
    (next : Outcome L -> Context L -> Dialogue L α β) :
    (ask operand context next).run call =
      (call operand context).andThen fun outcome after => (next outcome after).run call := rfl

/-- A dialogue that finishes after a call has finished that call before. -/
theorem run_ask_finished {call : Caller L α} {operand : α} {context : Context L}
    {next : Outcome L -> Context L -> Dialogue L α β} {answer : β} {last : Context L}
    (ends : (ask operand context next).run call = .finished answer last) :
    exists outcome after, call operand context = .finished outcome after ∧
      (next outcome after).run call = .finished answer last :=
  Reply.andThen_eq_finished ends

theorem run_andThen (call : Caller L α) (rest : β -> Context L -> Dialogue L α γ)
    (dialogue : Dialogue L α β) :
    (dialogue.andThen rest).run call =
      (dialogue.run call).andThen fun answer context => (rest answer context).run call := by
  induction dialogue with
  | answered reply => cases reply <;> rfl
  | ask operand context next inductionHypothesis =>
      simp only [andThen, run_ask, Reply.andThen_assoc]
      congr 1
      funext outcome after
      exact inductionHypothesis outcome after

/-! ## What a dialogue depends on -/

theorem calls_ask_finished {call : Caller L α} {operand : α} {context : Context L}
    (next : Outcome L -> Context L -> Dialogue L α β) {outcome : Outcome L} {after : Context L}
    (reply : call operand context = .finished outcome after) :
    (ask operand context next).calls call =
      (operand, context) :: (next outcome after).calls call := by
  rw [calls, reply]

theorem calls_ask_stuck {call : Caller L α} {operand : α} {context : Context L}
    (next : Outcome L -> Context L -> Dialogue L α β)
    (stuck : forall outcome after, call operand context ≠ .finished outcome after) :
    (ask operand context next).calls call = [(operand, context)] := by
  rw [calls]
  cases reply : call operand context with
  | finished outcome after => exact absurd reply (stuck outcome after)
  | halted error place => rfl
  | faulted fault => rfl
  | exhausted => rfl

/-- The first call is always made, the others after it has finished. -/
theorem mem_calls_ask {call : Caller L α} {operand : α} {context : Context L}
    {next : Outcome L -> Context L -> Dialogue L α β} {made : α × Context L} :
    made ∈ (ask operand context next).calls call ↔
      made = (operand, context) ∨
        exists outcome after, call operand context = .finished outcome after ∧
          made ∈ (next outcome after).calls call := by
  by_cases finishes : exists outcome after, call operand context = .finished outcome after
  · rcases finishes with ⟨outcome, after, reply⟩
    rw [calls_ask_finished next reply, List.mem_cons]
    apply or_congr_right
    constructor
    · intro later
      exact ⟨outcome, after, reply, later⟩
    · rintro ⟨outcome', after', reply', later⟩
      rw [reply] at reply'
      cases reply'
      exact later
  · have stuck : forall outcome after, call operand context ≠ .finished outcome after :=
      fun outcome after reply => finishes ⟨outcome, after, reply⟩
    rw [calls_ask_stuck next stuck, List.mem_singleton]
    constructor
    · exact Or.inl
    · rintro (first | ⟨outcome, after, reply, _⟩)
      · exact first
      · exact absurd reply (stuck outcome after)

/-- A dialogue that is continued makes its own calls first. -/
theorem mem_calls_andThen {call : Caller L α} {dialogue : Dialogue L α β}
    (rest : β -> Context L -> Dialogue L α γ) {made : α × Context L}
    (member : made ∈ dialogue.calls call) : made ∈ (dialogue.andThen rest).calls call := by
  induction dialogue with
  | answered reply => cases member
  | ask operand context next inductionHypothesis =>
      apply mem_calls_ask.mpr
      rcases mem_calls_ask.mp member with first | ⟨outcome, after, reply, later⟩
      · exact Or.inl first
      · exact Or.inr ⟨outcome, after, reply, inductionHypothesis outcome after later⟩

/-- A dialogue that is continued without calls makes its own calls only. -/
theorem calls_andThen_answered {call : Caller L α} (reply : β -> Context L -> Reply L γ)
    (dialogue : Dialogue L α β) :
    (dialogue.andThen fun answer after => answered (reply answer after)).calls call =
      dialogue.calls call := by
  induction dialogue with
  | answered reply => cases reply <;> rfl
  | ask operand context next inductionHypothesis =>
      rw [andThen, calls, calls]
      congr 1
      cases isRun : call operand context with
      | finished outcome after => exact inductionHypothesis outcome after
      | halted error place => rfl
      | faulted fault => rfl
      | exhausted => rfl

/-- Callers that give the same replies to the calls of a dialogue make it come
to the same reply.  Nothing else about a caller matters. -/
theorem run_congr {call other : Caller L α} (dialogue : Dialogue L α β)
    (agree : forall made, made ∈ dialogue.calls call ->
      other made.1 made.2 = call made.1 made.2) :
    dialogue.run other = dialogue.run call := by
  induction dialogue with
  | answered reply => rfl
  | ask operand context next inductionHypothesis =>
      have first := agree (operand, context) (mem_calls_ask.mpr (Or.inl rfl))
      simp only [run_ask, first]
      cases reply : call operand context with
      | finished outcome after =>
          apply inductionHypothesis
          intro made member
          exact agree made (mem_calls_ask.mpr (Or.inr ⟨outcome, after, reply, member⟩))
      | halted error place => rfl
      | faulted fault => rfl
      | exhausted => rfl

/-- A dialogue that does not use up its steps makes no call that does. -/
theorem call_ne_exhausted {call : Caller L α} (dialogue : Dialogue L α β)
    (ends : dialogue.run call ≠ .exhausted) {made : α × Context L}
    (member : made ∈ dialogue.calls call) : call made.1 made.2 ≠ .exhausted := by
  induction dialogue with
  | answered reply => cases member
  | ask operand context next inductionHypothesis =>
      rcases mem_calls_ask.mp member with first | ⟨outcome, after, reply, later⟩
      · subst first
        intro spent
        apply ends
        rw [run_ask, spent, Reply.andThen_exhausted]
      · rw [run_ask, reply, Reply.andThen_finished] at ends
        exact inductionHypothesis outcome after ends later

/-- If another caller gives the same replies to the calls of a dialogue except
that it halts some of them, the dialogue halts as the first of those does. -/
theorem run_halted_of_call {call other : Caller L α}
    (trips : ParseError L.Payload -> Context L -> Prop) (dialogue : Dialogue L α β)
    (follows : forall made, made ∈ dialogue.calls call ->
      other made.1 made.2 = call made.1 made.2 ∨
        exists error place, other made.1 made.2 = .halted error place ∧ trips error place)
    (halts : exists made, made ∈ dialogue.calls call ∧
      exists error place, other made.1 made.2 = .halted error place ∧ trips error place) :
    exists error place, dialogue.run other = .halted error place ∧ trips error place := by
  induction dialogue with
  | answered reply =>
      rcases halts with ⟨made, member, _⟩
      cases member
  | ask operand context next inductionHypothesis =>
      have firstCall : (operand, context) ∈ (ask operand context next).calls call :=
        mem_calls_ask.mpr (Or.inl rfl)
      have stop : forall error place, other operand context = .halted error place ->
          (ask operand context next).run other = .halted error place := by
        intro error place halted
        rw [run_ask, halted, Reply.andThen_halted]
      rcases halts with ⟨made, member, error, place, halted, tripped⟩
      rcases mem_calls_ask.mp member with first | ⟨outcome, after, reply, later⟩
      · subst first
        exact ⟨error, place, stop error place halted, tripped⟩
      · rcases follows _ firstCall with same | ⟨early, spot, stopped, tripped⟩
        · rw [run_ask, same.trans reply, Reply.andThen_finished]
          apply inductionHypothesis outcome after
          · intro made member
            exact follows made (mem_calls_ask.mpr (Or.inr ⟨outcome, after, reply, member⟩))
          · exact ⟨made, later, error, place, halted, tripped⟩
        · exact ⟨early, spot, stop early spot stopped, tripped⟩

/-! ## The dialogues of loops and clauses -/

/-- Ask operands one after the other. -/
def sequence : List α -> Context L -> Dialogue L α (Values L)
  | [], context => answered (.finished (.ok []) context)
  | item :: rest, context =>
    ask item context fun outcome after =>
      match outcome with
      | .error error => answered (.finished (.error error) after)
      | .ok value =>
        (sequence rest after).andThen fun values last =>
          answered (.finished (values.map (value :: ·)) last)

/-- Ask operands from the same start until one does not fail there. -/
def choice (self : NodeId) (start : Snapshot L) :
    Option (ParseError L.Payload) -> List α -> Context L -> Dialogue L α (Outcome L)
  | some error, [], context => answered (.finished (.error error) context)
  | none, [], _ => answered (.faulted (.emptyChoice self))
  | _, alt :: rest, context =>
    ask alt context fun outcome after =>
      match outcome with
      | .ok value => answered (.finished (.ok value) after)
      | .error error =>
        if after.position = start.position then
          choice self start (some error) rest (after.restore start)
        else answered (.finished (.error error) after)

/-- Ask an operand repeatedly, given the values so far, the latest first. -/
def repeated (keepState : Bool) (inner : α) (min : Nat) (max : Option Nat) :
    Nat -> List (Value L) -> Context L -> Dialogue L α (Values L)
  | 0, _, _ => answered .exhausted
  | rounds + 1, values, context =>
    if max.any (· ≤ values.length) then answered (.finished (.ok values.reverse) context)
    else
      ask inner context fun outcome after =>
        match outcome with
        | .ok value =>
          if after.position = context.position ∧ min ≤ values.length + 1 then
            answered (.finished (.ok (value :: values).reverse) after)
          else repeated keepState inner min max rounds (value :: values) after
        | .error error =>
          if after.position ≠ context.position ∨ values.length < min then
            answered (.finished (.error error) after)
          else
            answered (.finished (.ok values.reverse)
              { after with
                position := context.position
                state := if keepState then after.state else context.state })

/-- Ask the operand of a left recursion from its start for as long as it gets
farther than the seed. -/
def growth (self : NodeId) (inner : α) (start : Snapshot L) :
    Nat -> Context L -> Dialogue L α (Outcome L)
  | 0, _ => answered .exhausted
  | rounds + 1, context =>
    ask inner (context.restore start) fun outcome after =>
      match after.seeds.get? self start.position with
      | none => answered (.faulted (.missingSeed self))
      | some seed =>
        if after.position ≤ seed.position then answered (replay seed after)
        else
          match outcome with
          | .error error => answered (.finished (.error error) after)
          | .ok value =>
            growth self inner start rounds
              { after with
                seeds := after.seeds.set self start.position
                  ⟨after.position, after.state, .ok value⟩ }

theorem run_sequence (call : Caller L α) (items : List α) (context : Context L) :
    (sequence items context).run call = runSequence call items context := by
  induction items generalizing context with
  | nil => rfl
  | cons item rest inductionHypothesis =>
      rw [sequence, runSequence, run_ask]
      congr 1
      funext outcome after
      cases outcome with
      | error error => rfl
      | ok value =>
          rw [run_andThen, inductionHypothesis]
          rfl

theorem run_choice (call : Caller L α) (self : NodeId) (start : Snapshot L)
    (last : Option (ParseError L.Payload)) (alts : List α) (context : Context L) :
    (choice self start last alts context).run call =
      runChoice call self start last alts context := by
  induction alts generalizing last context with
  | nil => cases last <;> rfl
  | cons alt rest inductionHypothesis =>
      rw [choice, runChoice, run_ask]
      congr 1
      funext outcome after
      cases outcome with
      | ok value => rfl
      | error error =>
          by_cases stayed : after.position = start.position
          · simp only [if_pos stayed, inductionHypothesis]
          · simp only [if_neg stayed, run_answered]

theorem run_repeated (call : Caller L α) (keepState : Bool) (inner : α) (min : Nat)
    (max : Option Nat) (rounds : Nat) (values : List (Value L)) (context : Context L) :
    (repeated keepState inner min max rounds values context).run call =
      runRepeated call keepState inner min max rounds values context := by
  induction rounds generalizing values context with
  | zero => rfl
  | succ rounds inductionHypothesis =>
      rw [repeated, runRepeated]
      by_cases full : max.any (· ≤ values.length) = true
      · rw [if_pos full, if_pos full, run_answered]
      · rw [if_neg full, if_neg full, run_ask]
        congr 1
        funext outcome after
        cases outcome with
        | ok value =>
            by_cases idle : after.position = context.position ∧ min ≤ values.length + 1
            · simp only [if_pos idle, run_answered]
            · simp only [if_neg idle, inductionHypothesis]
        | error error =>
            by_cases final : after.position ≠ context.position ∨ values.length < min
            · simp only [if_pos final, run_answered]
            · simp only [if_neg final, run_answered]

theorem run_growth (call : Caller L α) (self : NodeId) (inner : α) (start : Snapshot L)
    (rounds : Nat) (context : Context L) :
    (growth self inner start rounds context).run call =
      runGrowth call self inner start rounds context := by
  induction rounds generalizing context with
  | zero => rfl
  | succ rounds inductionHypothesis =>
      rw [growth, runGrowth, run_ask]
      congr 1
      funext outcome after
      cases after.seeds.get? self start.position with
      | none => rfl
      | some seed =>
          by_cases shorter : after.position ≤ seed.position
          · simp only [if_pos shorter, run_answered]
          · cases outcome with
            | error error => simp only [if_neg shorter, run_answered]
            | ok value => simp only [if_neg shorter, inductionHypothesis]

end Dialogue

variable {L : Signature} {α : Type}

/-- The dialogue of a clause at the current position. -/
def Clause.dialogue (rounds : Nat) (input : L.Input) (writes : α -> Bool) (self : NodeId)
    (clause : Clause L PatternProgram α) (context : Context L) : Dialogue L α (Outcome L) :=
  match clause with
  | leaf atom => .answered (.finished (atom.run input self context).1 (atom.run input self context).2)
  | map inner transform =>
    .ask inner context fun outcome after =>
      let after := { after with range := (context.position, after.position) }
      .answered
        (match transform outcome (after.token input self) with
        | .ok outcome => .finished outcome after
        | .error fault => .faulted fault)
  | update inner next =>
    .ask inner context fun outcome after =>
      match outcome with
      | .error error => .answered (.finished (.error error) after)
      | .ok value =>
        let after := { after with range := (context.position, after.position) }
        .answered (.finished (.ok value)
          { after with state := next after.state (after.token input self) })
  | sequence items gather =>
    (Dialogue.sequence items context).andThen fun values after =>
      .answered (finishGathered self gather values after)
  | choice alts => Dialogue.choice self context.snapshot none alts context
  | optional inner element =>
    .ask inner context fun outcome after =>
      match outcome with
      | .ok value =>
        .answered (finishWith self
          ((value.get? element).map fun content => ⟨.option element, some content⟩) after)
      | .error error =>
        .answered
          (if after.position = context.position then
            .finished (.ok ⟨.option element, none⟩) (after.restore context.snapshot)
          else .finished (.error error) after)
  | attempt inner =>
    .ask inner context fun outcome after =>
      match outcome with
      | .ok value => .answered (.finished (.ok value) after)
      | .error error => .answered (.finished (.error error) (after.restore context.snapshot))
  | lookahead inner look negative =>
    .ask inner context fun outcome middle =>
      match outcome with
      | .error error => .answered (.finished (.error error) middle)
      | .ok value =>
        .ask look middle fun looked after =>
          let after := after.restore middle.snapshot
          .answered
            (if looked.isOk = negative then
              .finished
                (.error (((ParseError.bare middle.position).withNode self).withMessage
                  (lookaheadMessage negative)))
                after
            else .finished (.ok value) after)
  | repeated inner element min max =>
    (Dialogue.repeated (!writes inner) inner min max rounds [] context).andThen
      fun values after => .answered (finishGathered self (.list element) values after)
  | reference _ _ _ => .answered (.faulted (.unresolvedReference self))
  | leftRecursion inner =>
    match context.seeds.get? self context.position with
    | some seed => .answered (replay seed context)
    | none =>
      .growth self inner context.snapshot rounds
        { context with
          seeds := context.seeds.set self context.position
            ⟨context.position, context.state,
              .error ((ParseError.bare context.position).withNode self)⟩ }

/-- A clause does what its dialogue says. -/
theorem Clause.run_eq_dialogue (call : Caller L α) (rounds : Nat) (input : L.Input)
    (writes : α -> Bool) (self : NodeId) (clause : Clause L PatternProgram α)
    (context : Context L) :
    clause.run call rounds input writes self context =
      (clause.dialogue rounds input writes self context).run call := by
  cases clause with
  | leaf atom => rfl
  | map inner transform => rfl
  | update inner next =>
      simp only [Clause.run, Clause.dialogue, Dialogue.run_ask]
      congr 1
      funext outcome after
      cases outcome <;> rfl
  | sequence items gather =>
      simp only [Clause.run, Clause.dialogue, Dialogue.run_andThen, Dialogue.run_sequence]
      rfl
  | choice alts => exact (Dialogue.run_choice call self context.snapshot none alts context).symm
  | optional inner element =>
      simp only [Clause.run, Clause.dialogue, Dialogue.run_ask]
      congr 1
      funext outcome after
      cases outcome <;> rfl
  | attempt inner =>
      simp only [Clause.run, Clause.dialogue, Dialogue.run_ask]
      congr 1
      funext outcome after
      cases outcome <;> rfl
  | lookahead inner look negative =>
      simp only [Clause.run, Clause.dialogue, Dialogue.run_ask]
      congr 1
      funext outcome middle
      cases outcome <;> rfl
  | repeated inner element min max =>
      simp only [Clause.run, Clause.dialogue, Dialogue.run_andThen, Dialogue.run_repeated]
      rfl
  | reference name expected target => rfl
  | leftRecursion inner =>
      simp only [Clause.run, Clause.dialogue]
      cases context.seeds.get? self context.position with
      | some seed => rfl
      | none => exact (Dialogue.run_growth call self inner context.snapshot rounds _).symm

end SeedGrammar
