import SeedGrammar.Proofs.Engine.Positions
import SeedGrammar.Proofs.Grammar.Resolution

namespace SeedGrammar

/-!
# States that are not saved

A repetition ends with an attempt that fails, and goes on from the state before
it.  To have that state it saves it, but only if a clause that replaces the state
can run below its operand.  If there is none, the state after the failed attempt
is taken for the state before.

Clauses are not the only ones that bring a state along.  A seed holds the state
at the end of its match, and seeds outlive every undoing.  A seed that was
planted in one state and is met in another brings the first one back, although
nothing below the left recursion replaces the state.

That is the only exception, `Machine.state_kept_or_recalled`: unless a left
recursion recalls another state, a node below which nothing replaces the state
leaves it as it was, and a parse that saves the state before every repetition
comes to the same.  The exception is real, `Machine.staleRepetition_leaks`: a
repetition that does not save the state ends with that of an alternative that was
given up.
-/

variable {L : Signature}

/-! ## Contexts that hold a state -/

/-- Whether a context has the state of an earlier one, and still has its seeds. -/
structure Context.Holds (first after : Context L) : Prop where
  state : after.state = first.state
  seeds : forall key seed, first.seedAt key = some seed -> after.seedAt key = some seed

namespace Context.Holds

theorem refl (context : Context L) : context.Holds context where
  state := rfl
  seeds _ _ planted := planted

theorem trans {first middle last : Context L} (before : first.Holds middle)
    (after : middle.Holds last) : first.Holds last where
  state := after.state.trans before.state
  seeds key seed planted := after.seeds key seed (before.seeds key seed planted)

/-- Positions and ranges do not matter. -/
theorem moved {first middle : Context L} (holds : first.Holds middle) (position : Nat)
    {state : L.State} (same : state = first.state) (range : Nat × Nat) :
    first.Holds ⟨position, state, range, middle.seeds⟩ where
  state := same
  seeds := holds.seeds

/-- A seed may be planted or replaced where there was none at first. -/
theorem planted {first middle : Context L} {key : NodeId × Nat} (holds : first.Holds middle)
    (absent : first.seedAt key = none) (seed : Seed L) : first.Holds (middle.withSeed key seed) where
  state := holds.state
  seeds other found isThere := by
    have foreign : other ≠ key := by
      intro same
      rw [same, absent] at isThere
      cases isThere
    rw [seedAt_withSeed_of_ne _ _ foreign]
    exact holds.seeds other found isThere

end Context.Holds

/-- A run ends in the state in which it started, whatever it comes to. -/
def Context.holding (first : Context L) : Ending L where
  matched after := first.Holds after
  failed _ after := first.Holds after

/-- A run that honours the end in its own state returns in it. -/
theorem Reply.Honours.returns_holds {first : Context L} {reply : Reply L (Outcome L)}
    (honours : reply.Honours first.holding) {outcome : Outcome L} {last : Context L}
    (returns : reply.Returns outcome last) : first.Holds last := by
  cases returns with
  | finished =>
      cases outcome with
      | error error => exact honours
      | ok value => exact honours
  | halted => exact honours

theorem Context.holding_allows {β : Type} {first after : Context L}
    {answer : Except (ParseError L.Payload) β} :
    first.holding.Allows answer after ↔ first.Holds after := by
  cases answer <;> rfl

theorem Leaf.run_state (input : L.Input) (self : NodeId) (atom : Leaf L PatternProgram)
    (context : Context L) : (atom.run input self context).2.state = context.state := by
  cases atom with
  | exact literal =>
      rw [run]
      split <;> rfl
  | charset set label read =>
      simp only [run]
      split
      · split <;> rfl
      · rfl
  | pattern source program text =>
      simp only [run]
      split
      · rfl
      · split <;> rfl
  | empty => rfl
  | eof =>
      simp only [run]
      split <;> rfl
  | fail message payload => rfl
  | custom name act =>
      simp only [run]
      split <;> rfl

/-! ## Clauses that do not replace the state -/

namespace Clause

variable {α : Type} {context : Context L}

/-- Whether a clause is a left recursion that answers with a seed of another state. -/
def RecallsState {ρ : Type} (self : NodeId) (context : Context L) : Clause L ρ α -> Prop
  | leftRecursion _ => exists seed, context.seedAt (self, context.position) = some seed ∧
      seed.state ≠ context.state
  | _ => False

/-- A clause calls its operands in the state in which it started, and they end in
that state as well. -/
def holder (clause : Clause L PatternProgram α) (context : Context L) : Contract L α where
  asks operand reached := operand ∈ clause.children ∧ context.Holds reached
  ends _ reached := reached.holding

theorem growth_holds {self : NodeId} {inner : α}
    (absent : context.seedAt (self, context.position) = none) (rounds : Nat) :
    (Dialogue.growth self inner context.snapshot rounds
      (context.withSeed (self, context.position)
        ⟨context.position, context.state,
          .error ((ParseError.bare context.position).withNode self)⟩)).Obeys
      ((leftRecursion inner : Clause L PatternProgram α).holder context) True context.holding := by
  -- The seed was planted in the state that growth goes back to.
  let invariant (seed : Seed L) (reached : Context L) : Prop :=
    reached.seedAt (self, context.position) = some seed ∧ seed.state = context.state ∧
      context.Holds reached
  have back : forall {reached : Context L}, context.Holds reached ->
      context.Holds (reached.restore context.snapshot) :=
    fun holds => holds.moved _ rfl _
  have onward : forall {seed reached} {outcome : Outcome L} {after}, invariant seed reached ->
      (reached.restore context.snapshot).holding.Allows outcome after -> invariant seed after := by
    intro seed reached outcome after holds allowed
    have past := Context.holding_allows.mp allowed
    exact ⟨past.seeds _ _ holds.1, holds.2.1, (back holds.2.2).trans past⟩
  apply Dialogue.obeys_growth 0 invariant
  · intro seed reached holds
    exact ⟨List.mem_singleton_self inner, back holds.2.2⟩
  · intro seed reached outcome after holds allowed
    exact (onward holds allowed).1
  · intro seed reached outcome after holds allowed
    exact Context.holding_allows.mpr ((onward holds allowed).2.2.moved _ holds.2.1 _)
  · intro seed reached error after holds failed
    exact (back holds.2.2).trans failed
  · intro seed reached after value holds matched _
    have past := (back holds.2.2).trans matched
    exact ⟨Or.inr trivial, after.seedAt_withSeed_self (self, context.position) _, past.state,
      past.planted absent _⟩
  · intro _
    trivial
  · exact ⟨context.seedAt_withSeed_self (self, context.position) _, rfl,
      (Context.Holds.refl context).planted absent _⟩

theorem repeated_holds {inner : α} {element : ValueType L.Kind} {min : Nat} {max : Option Nat}
    (keepState : Bool) (rounds : Nat) :
    (Dialogue.repeated keepState inner min max rounds [] context).Obeys
      ((repeated inner element min max : Clause L PatternProgram α).holder context) True
      context.holding := by
  have enough : rounds ≤ 0 -> True := fun _ => trivial
  refine Dialogue.obeys_repeated (fun _ _ reached => context.Holds reached) ?full ?asks ?idles
    ?goesOn ?fails ?stops enough (Context.Holds.refl context)
  case full => exact fun holds _ => holds
  case asks => exact fun holds => ⟨List.mem_singleton_self inner, holds⟩
  case idles => exact fun holds past _ => holds.trans past
  case goesOn => exact fun holds past _ => ⟨0, holds.trans past, Or.inr trivial⟩
  case fails => exact fun holds past => holds.trans past
  case stops =>
    intro needed count reached error after state holds past _ saved
    have whole := holds.trans past
    rcases saved with rfl | rfl
    · exact whole.moved reached.position whole.state after.range
    · exact whole.moved reached.position holds.state after.range

theorem sequence_holds {items : List α} {gather : Gather L.Kind} :
    (Dialogue.sequence items context).Obeys
      ((sequence items gather : Clause L PatternProgram α).holder context) True
      context.holding := by
  refine Dialogue.obeys_sequence (fun rest reached => rest ⊆ items ∧ context.Holds reached) ?asks
    ?fails ?moves ?matched ⟨List.Subset.refl items, Context.Holds.refl context⟩
  case asks => exact fun holds => ⟨holds.1 List.mem_cons_self, holds.2⟩
  case fails => exact fun holds past => holds.2.trans past
  case moves =>
    exact fun holds past =>
      ⟨fun _ member => holds.1 (List.mem_cons_of_mem _ member), holds.2.trans past⟩
  case matched => exact fun holds => holds.2

theorem choice_holds {self : NodeId} {alts : List α} :
    (Dialogue.choice self context.snapshot none alts context).Obeys
      ((choice alts : Clause L PatternProgram α).holder context) True context.holding := by
  refine Dialogue.obeys_choice (fun _ rest reached => rest ⊆ alts ∧ context.Holds reached) ?asks
    ?matched ?stays ?advances ?fails ⟨List.Subset.refl alts, Context.Holds.refl context⟩
  case asks => exact fun holds => ⟨holds.1 List.mem_cons_self, holds.2⟩
  case matched => exact fun holds past => holds.2.trans past
  case stays =>
    exact fun holds past _ =>
      ⟨fun _ member => holds.1 (List.mem_cons_of_mem _ member),
        (holds.2.trans past).moved _ rfl _⟩
  case advances => exact fun holds past => holds.2.trans past
  case fails => exact fun holds => holds.2

/-- An operand that runs first. -/
theorem holder_asks_first {clause : Clause L PatternProgram α} {operand : α}
    (isChild : operand ∈ clause.children) : (clause.holder context).asks operand context :=
  ⟨isChild, .refl context⟩

/-- A clause that does not replace the state, and does not recall another one,
holds the state if its operands do. -/
theorem dialogue_holds {clause : Clause L PatternProgram α} (keeps : clause.isUpdate = false)
    {self : NodeId} (steady : ¬clause.RecallsState self context) (rounds : Nat) (input : L.Input)
    (writes : α -> Bool) :
    (clause.dialogue rounds input writes self context).Obeys (clause.holder context) True
      context.holding := by
  have here := Context.Holds.refl context
  have back : forall {after : Context L}, context.Holds after ->
      context.Holds (after.restore context.snapshot) :=
    fun past => past.moved _ rfl _
  cases clause with
  | leaf atom =>
      apply Context.holding_allows.mpr
      refine ⟨atom.run_state input self context, ?_⟩
      intro key seed planted
      rw [Context.seedAt, atom.run_seeds]
      exact planted
  | map inner transform =>
      refine ⟨holder_asks_first (List.mem_singleton_self inner), ?_⟩
      intro outcome after allowed
      have past := Context.holding_allows.mp allowed
      dsimp only
      split
      · exact Context.holding_allows.mpr (past.moved _ past.state _)
      · trivial
  | update inner next => cases keeps
  | sequence items gather =>
      apply Dialogue.obeys_andThen sequence_holds
      intro values after allowed
      exact Dialogue.obeys_finishGathered self gather allowed
  | choice alts => exact choice_holds
  | optional inner element =>
      apply Dialogue.obeys_ask (holder_asks_first (List.mem_singleton_self inner))
      · intro error after past
        dsimp only
        split
        · exact back past
        · exact past
      · intro value after past
        exact Dialogue.obeys_finishWith self _ past
  | attempt inner =>
      apply Dialogue.obeys_ask (holder_asks_first (List.mem_singleton_self inner))
      · intro error after past
        exact back past
      · intro value after past
        exact past
  | lookahead inner look negative =>
      apply Dialogue.obeys_ask (holder_asks_first List.mem_cons_self)
      · intro error after past
        exact past
      · intro value middle between
        refine ⟨⟨List.mem_cons_of_mem _ List.mem_cons_self, between⟩, ?_⟩
        intro looked after allowed
        have past := Context.holding_allows.mp allowed
        have undone : context.Holds (after.restore middle.snapshot) :=
          (between.trans past).moved _ between.state _
        dsimp only
        split
        · exact undone
        · exact undone
  | repeated inner element min max =>
      apply Dialogue.obeys_andThen (repeated_holds _ rounds)
      intro values after allowed
      exact Dialogue.obeys_finishGathered self (.list element) allowed
  | reference name expected target => trivial
  | leftRecursion inner =>
      rw [dialogue]
      cases found : context.seeds.get? self context.position with
      | some seed =>
          by_cases same : seed.state = context.state
          · exact Context.holding_allows.mpr (here.moved seed.position same context.range)
          · exact absurd ⟨seed, found, same⟩ steady
      | none => exact growth_holds found rounds

end Clause

/-! ## Runs that do not replace the state -/

/-- Whether no clause that replaces the state can run below a node. -/
def Grammar.KeepsState (grammar : Grammar L) (id : NodeId) : Prop :=
  forall other clause, grammar.Path Clause.successors id other ->
    grammar.nodes[other]? = some clause -> clause.isUpdate = false

theorem Grammar.keepsState_of_writesState {grammar : Grammar L} {id : NodeId}
    (quiet : grammar.writesState id = false) : grammar.KeepsState id := by
  have isNode : id < grammar.nodeCount := by
    apply Decidable.byContradiction
    intro beyond
    rw [writesState, if_neg beyond] at quiet
    cases quiet
  intro other clause path found
  cases updates : clause.isUpdate with
  | false => rfl
  | true =>
      have writes := (writesState_iff isNode).mpr ⟨other, clause, path, found, updates⟩
      rw [quiet] at writes
      cases writes

theorem Clause.mem_successors {ρ α : Type} {clause : Clause L ρ α} {operand : α}
    (member : operand ∈ clause.children) : operand ∈ clause.successors := by
  cases clause with
  | reference name expected target => cases member
  | _ => exact member

/-- Whether an event is the end of a left recursion that has answered with a seed
of another state. -/
def Event.RecallsState (machine : Machine L) : Event L -> Prop
  | entered _ _ _ => False
  | finished _ id first _ _ => exists clause, machine.grammar.nodes[id]? = some clause ∧
      clause.RecallsState id first

namespace Machine

variable {machine : Machine L}

/-- Whether a left recursion recalls another state in the course of a run. -/
def RecallsState (machine : Machine L) (steps depth : Nat) (id : NodeId) (context : Context L) :
    Prop :=
  exists event, event ∈ machine.trace steps depth id context ∧ event.RecallsState machine

theorem recallsState_of_call {steps depth : Nat} {id : NodeId} {context : Context L}
    {made : NodeId × Context L} (isCall : made ∈ machine.callsOf steps depth id context)
    (recalls : machine.RecallsState steps (depth + 1) made.1 made.2) :
    machine.RecallsState (steps + 1) depth id context := by
  rcases recalls with ⟨event, member, recalls⟩
  exact ⟨event, mem_trace_succ.mpr (Or.inr (Or.inl ⟨made, isCall, member⟩)), recalls⟩

/-- A left recursion that recalls a state finishes with it, so this is an event. -/
theorem recallsState_of_clause (steps : Nat) {depth : Nat} {id : NodeId} {context : Context L}
    {clause : Clause L PatternProgram NodeId}
    (free : ¬(0 < machine.maxDepth ∧ machine.maxDepth < depth))
    (found : machine.grammar.nodes[id]? = some clause)
    (recalls : clause.RecallsState id context) :
    machine.RecallsState (steps + 1) depth id context := by
  cases clause with
  | leftRecursion inner =>
      rcases recalls with ⟨seed, planted, other⟩
      have ends : machine.run (steps + 1) depth id context = replay seed context := by
        have there : context.seeds.get? id context.position = some seed := planted
        rw [run, if_neg free, found]
        simp only [Clause.run, there]
      exact ⟨_, mem_trace_succ.mpr (Or.inr (Or.inr ⟨_, _, ends, rfl⟩)), .leftRecursion inner,
        found, seed, planted, other⟩
  | _ => exact recalls.elim

/-- A left recursion recalls a state in the course of a run if it does in one of its calls, or
if it is what is run. -/
theorem recallsState_succ {steps depth : Nat} {id : NodeId} {context : Context L} :
    machine.RecallsState (steps + 1) depth id context ↔
      (exists made, made ∈ machine.callsOf steps depth id context ∧
        machine.RecallsState steps (depth + 1) made.1 made.2) ∨
      exists clause, ¬(0 < machine.maxDepth ∧ machine.maxDepth < depth) ∧
        machine.grammar.nodes[id]? = some clause ∧ clause.RecallsState id context := by
  constructor
  · rintro ⟨event, member, recalls⟩
    rcases mem_trace_succ.mp member with rfl | ⟨made, isCall, within⟩ | ⟨outcome, after, ends, rfl⟩
    · exact recalls.elim
    · exact Or.inl ⟨made, isCall, event, within, recalls⟩
    · rcases recalls with ⟨clause, found, recalls⟩
      refine Or.inr ⟨clause, ?_, found, recalls⟩
      intro trips
      rw [run, if_pos trips] at ends
      cases ends
  · rintro (⟨made, isCall, recalls⟩ | ⟨clause, free, found, recalls⟩)
    · exact recallsState_of_call isCall recalls
    · exact recallsState_of_clause steps free found recalls

/-- A node below which nothing replaces the state ends in the state in which it
started, unless a left recursion recalls another one. -/
theorem run_holds {steps depth : Nat} {id : NodeId} {context : Context L}
    (keeps : machine.grammar.KeepsState id)
    (steady : ¬machine.RecallsState steps depth id context) :
    (machine.run steps depth id context).Honours context.holding := by
  induction steps generalizing depth id context with
  | zero => trivial
  | succ steps inductionHypothesis =>
      rw [run_succ]
      by_cases trips : 0 < machine.maxDepth ∧ machine.maxDepth < depth
      · rw [dialogue, if_pos trips]
        exact Context.Holds.refl context
      · cases found : machine.grammar.nodes[id]? with
        | none =>
            rw [dialogue, if_neg trips, found]
            trivial
        | some clause =>
            have isDialogue : machine.dialogue steps depth id context =
                clause.dialogue steps machine.input machine.grammar.writesState id context := by
              rw [dialogue, if_neg trips, found]
            have obeys := Clause.dialogue_holds (keeps id clause .refl found)
              (fun recalls => steady (recallsState_of_clause steps trips found recalls)) steps
              machine.input machine.grammar.writesState
            rw [<- isDialogue] at obeys
            apply (Dialogue.obeys_calls (machine.run steps (depth + 1)) obeys ?_ ?_).2
            · rintro made member ⟨isChild, _⟩
              apply inductionHypothesis
              · intro other clause' path
                exact keeps other clause'
                  (.head ⟨clause, found, Clause.mem_successors isChild⟩ path)
              · exact fun recalls => steady (recallsState_of_call member recalls)
            · rintro operand reached error place ⟨_, holds⟩ past
              exact holds.trans past

end Machine

/-! ## Saving every state -/

/-- Run a node as `Machine.run` does, except that every repetition saves the state
and restores it. -/
def Machine.runSaving (machine : Machine L) : Nat -> Nat -> Caller L NodeId
  | 0, _, _, _ => .exhausted
  | steps + 1, depth, id, context =>
    if 0 < machine.maxDepth ∧ machine.maxDepth < depth then
      .halted (tooDeep context.position id) context
    else
      match machine.grammar.nodes[id]? with
      | none => .faulted (.nodeOutOfRange id)
      | some clause =>
        clause.run (machine.runSaving steps (depth + 1)) steps machine.input (fun _ => true) id
          context

namespace Dialogue

variable {α : Type} {call other : Caller L α}

theorem repeated_calls {keepState : Bool} {inner : α} {min : Nat} {max : Option Nat}
    {rounds : Nat} {values : List (Value L)} {context : Context L} {made : α × Context L}
    (member : made ∈ (repeated keepState inner min max rounds values context).calls call) :
    made.1 = inner := by
  induction rounds generalizing values context with
  | zero => cases member
  | succ rounds inductionHypothesis =>
      rw [repeated] at member
      split at member
      · cases member
      · rcases mem_calls_ask.mp member with rfl | ⟨outcome, after, _, later⟩
        · rfl
        · cases outcome with
          | error error =>
              dsimp only at later
              split at later <;> cases later
          | ok value =>
              dsimp only at later
              split at later
              · cases later
              · exact inductionHypothesis later

/-- Whether a repetition saves the state is only seen after its calls. -/
theorem repeated_calls_eq (keepState other : Bool) (inner : α) (min : Nat) (max : Option Nat)
    (rounds : Nat) (values : List (Value L)) (context : Context L) :
    (repeated other inner min max rounds values context).calls call =
      (repeated keepState inner min max rounds values context).calls call := by
  induction rounds generalizing values context with
  | zero => rfl
  | succ rounds inductionHypothesis =>
      rw [repeated, repeated]
      by_cases full : max.any (· ≤ values.length) = true
      · rw [if_pos full, if_pos full]
      · rw [if_neg full, if_neg full, calls, calls]
        split
        · rename_i outcome after reply
          cases outcome with
          | error error =>
              dsimp only
              split <;> rfl
          | ok value =>
              dsimp only
              split
              · rfl
              · rw [inductionHypothesis]
        · rfl

/-- Whether a repetition saves the state does not matter if the attempts that fail
leave it as it was. -/
theorem repeated_saving {inner : α} {min : Nat} {max : Option Nat} {rounds : Nat}
    {values : List (Value L)} {context : Context L}
    (agree : forall made,
      made ∈ (repeated true inner min max rounds values context).calls call ->
        other made.1 made.2 = call made.1 made.2)
    (kept : forall made,
      made ∈ (repeated true inner min max rounds values context).calls call ->
        forall error after, call made.1 made.2 = .finished (.error error) after ->
          after.state = made.2.state) :
    (repeated false inner min max rounds values context).run other =
      (repeated true inner min max rounds values context).run call := by
  induction rounds generalizing values context with
  | zero => rfl
  | succ rounds inductionHypothesis =>
      rw [repeated] at agree kept
      rw [repeated, repeated]
      by_cases full : max.any (· ≤ values.length) = true
      · rw [if_pos full, if_pos full, run_answered, run_answered]
      · rw [if_neg full] at agree kept
        rw [if_neg full, if_neg full, run_ask, run_ask,
          agree (inner, context) (mem_calls_ask.mpr (Or.inl rfl))]
        have first := kept (inner, context) (mem_calls_ask.mpr (Or.inl rfl))
        dsimp only at first ⊢
        cases reply : call inner context with
        | finished outcome after =>
            simp only [Reply.andThen_finished]
            cases outcome with
            | error error =>
                have same := first error after reply
                by_cases final : after.position ≠ context.position ∨ values.length < min
                · simp only [if_pos final, run_answered]
                · simp only [if_neg final, run_answered, same, if_true]
                  rfl
            | ok value =>
                by_cases idle : after.position = context.position ∧ min ≤ values.length + 1
                · simp only [if_pos idle, run_answered]
                · simp only [if_neg idle]
                  apply inductionHypothesis
                  · intro made member
                    apply agree made
                    refine mem_calls_ask.mpr (Or.inr ⟨_, after, reply, ?_⟩)
                    simpa only [if_neg idle] using member
                  · intro made member
                    apply kept made
                    refine mem_calls_ask.mpr (Or.inr ⟨_, after, reply, ?_⟩)
                    simpa only [if_neg idle] using member
        | halted error place => rfl
        | faulted fault => rfl
        | exhausted => rfl

end Dialogue

/-- A clause that saves the state comes to the same if its calls do, and those
that a repetition would not save the state for leave it as it was. -/
theorem Clause.dialogue_saving {α : Type} {call other : Caller L α} {rounds : Nat}
    {input : L.Input} {writes : α -> Bool} {self : NodeId} {clause : Clause L PatternProgram α}
    {context : Context L}
    (agree : forall made, made ∈ (clause.dialogue rounds input writes self context).calls call ->
      other made.1 made.2 = call made.1 made.2)
    (kept : forall made, made ∈ (clause.dialogue rounds input writes self context).calls call ->
      writes made.1 = false -> forall error after,
        call made.1 made.2 = .finished (.error error) after -> after.state = made.2.state) :
    (clause.dialogue rounds input (fun _ => true) self context).run other =
      (clause.dialogue rounds input writes self context).run call := by
  cases clause with
  | repeated inner element min max =>
      rw [dialogue] at agree kept
      rw [dialogue, dialogue, Dialogue.run_andThen, Dialogue.run_andThen]
      dsimp only [Dialogue.run_answered]
      congr 1
      cases quiet : writes inner with
      | true =>
          rw [quiet] at agree
          exact Dialogue.run_congr _ fun made member =>
            agree made (Dialogue.mem_calls_andThen _ member)
      | false =>
          rw [quiet] at agree kept
          apply Dialogue.repeated_saving
          · intro made member
            exact agree made (Dialogue.mem_calls_andThen _ member)
          · intro made member
            apply kept made (Dialogue.mem_calls_andThen _ member)
            rw [Dialogue.repeated_calls member, quiet]
  | _ => exact Dialogue.run_congr _ agree

/-- It does not matter whether a repetition saves the state if all its calls that fail leave
it as it was: the calls are the same, and so is the reply. -/
theorem Clause.dialogue_resaving {α : Type} {call : Caller L α} {rounds : Nat}
    {input : L.Input} {writes others : α -> Bool} {self : NodeId}
    {clause : Clause L PatternProgram α} {context : Context L}
    (kept : forall inner element min max, clause = .repeated inner element min max ->
      others inner = writes inner ∨
        forall made, made ∈ (clause.dialogue rounds input writes self context).calls call ->
          forall error after, call made.1 made.2 = .finished (.error error) after ->
            after.state = made.2.state) :
    (clause.dialogue rounds input others self context).calls call =
        (clause.dialogue rounds input writes self context).calls call ∧
      (clause.dialogue rounds input others self context).run call =
        (clause.dialogue rounds input writes self context).run call := by
  cases clause with
  | repeated inner element min max =>
      have isCall : ((repeated inner element min max : Clause L PatternProgram α).dialogue rounds
          input others self context).calls call = ((repeated inner element min max :
            Clause L PatternProgram α).dialogue rounds input writes self context).calls call := by
        rw [dialogue, dialogue, Dialogue.calls_andThen_answered, Dialogue.calls_andThen_answered,
          Dialogue.repeated_calls_eq]
      refine ⟨isCall, ?_⟩
      rcases kept inner element min max rfl with agree | leaves
      · rw [dialogue, dialogue, agree]
      · rw [← dialogue_saving (fun _ _ => rfl) fun made member _ => leaves made (isCall ▸ member),
          ← dialogue_saving (fun _ _ => rfl) fun made member _ => leaves made member]
  | _ => exact ⟨rfl, rfl⟩

namespace Machine

variable {machine : Machine L}

/-- Saving the state before every repetition makes no difference, unless a left
recursion recalls another state. -/
theorem runSaving_eq_run {steps depth : Nat} {id : NodeId} {context : Context L}
    (steady : ¬machine.RecallsState steps depth id context) :
    machine.runSaving steps depth id context = machine.run steps depth id context := by
  induction steps generalizing depth id context with
  | zero => rfl
  | succ steps inductionHypothesis =>
      have calls : forall made, made ∈ machine.callsOf steps depth id context ->
          ¬machine.RecallsState steps (depth + 1) made.1 made.2 :=
        fun made isCall recalls => steady (recallsState_of_call isCall recalls)
      rw [callsOf] at calls
      rw [run_succ, runSaving]
      by_cases trips : 0 < machine.maxDepth ∧ machine.maxDepth < depth
      · rw [if_pos trips, dialogue, if_pos trips]
        rfl
      · cases found : machine.grammar.nodes[id]? with
        | none =>
            rw [if_neg trips, dialogue, if_neg trips, found]
            rfl
        | some clause =>
            have isDialogue : machine.dialogue steps depth id context =
                clause.dialogue steps machine.input machine.grammar.writesState id context := by
              rw [dialogue, if_neg trips, found]
            rw [isDialogue] at calls ⊢
            rw [if_neg trips]
            dsimp only
            rw [Clause.run_eq_dialogue]
            apply Clause.dialogue_saving
            · intro made isCall
              exact inductionHypothesis (calls made isCall)
            · intro made isCall quiet error after fails
              have holds := run_holds (Grammar.keepsState_of_writesState quiet) (calls made isCall)
              rw [fails] at holds
              exact holds.state

/-- Not to save the state is not noticed, unless a left recursion recalls another
state: a node that is taken not to replace the state ends in the state in which it
started, whether it matches or fails, and a parse comes to the same as if every
repetition saved the state and restored it. -/
theorem state_kept_or_recalled (machine : Machine L) (steps depth : Nat) (id : NodeId)
    (context : Context L) :
    (machine.grammar.writesState id = false -> forall outcome last,
      (machine.run steps depth id context).Returns outcome last ->
        last.state = context.state ∨ machine.RecallsState steps depth id context) ∧
    (machine.runSaving steps depth id context = machine.run steps depth id context ∨
      machine.RecallsState steps depth id context) := by
  by_cases recalls : machine.RecallsState steps depth id context
  · exact ⟨fun _ _ _ _ => Or.inr recalls, Or.inr recalls⟩
  · refine ⟨?_, Or.inl (runSaving_eq_run recalls)⟩
    intro quiet outcome last returns
    have holds := run_holds (Grammar.keepsState_of_writesState quiet) recalls
    exact Or.inl (holds.returns_holds returns).state

/-- An attempt that changes the state before it runs a left recursion and fails,
followed by a repetition of the left recursion, which fails at once. -/
def staleParser : Construction (Parser countedText (.list .text)) := do
  let letter ← (← Parser.exact "a").leftRecursive
  let count ← (← Parser.empty).updateState fun count _ => Nat.succ count
  (← (← count.thenRight (← letter.atLeastOne)).attempt).orElse (← letter.many)

/-- The rule with the repetition that does not save the state. -/
def staleRules : GrammarBuilder countedText := ⟨[⟨"stale", .list .text, (staleParser 0).1⟩]⟩

/-- The nodes of the rule with the repetition that does not save the state. -/
def staleGrammar : Grammar countedText :=
  ⟨[.leaf .empty, .update 0 fun count _ => Nat.succ count, .leaf (.exact "a"), .leftRecursion 2,
    .repeated 3 .text 1 none, .sequence [1, 4] (.pick 1), .attempt 5, .repeated 3 .text 0 none,
    .choice [6, 7]], [⟨"stale", .list .text, 8⟩]⟩

/-- The attempt is lowered first, and the repetition after it. -/
theorem staleRules_accepted : exists known,
    staleRules.build PatternCache.empty = (.ok ⟨staleGrammar, known⟩, PatternCache.empty) := by
  let count : Expr countedText := .node 3 (.update (.node 2 (.leaf .empty)) fun count _ => Nat.succ count)
  let letter : Expr countedText := .node 1 (.leftRecursion (.node 0 (.leaf (.exact "a"))))
  let attempt : Expr countedText :=
    .node 6 (.attempt (.node 5 (.sequence [count, .node 4 (.repeated letter .text 1 none)] (.pick 1))))
  let placed : List (Nat × NodeId) := [(6, 6), (5, 5), (4, 4), (1, 3), (0, 2), (3, 1), (2, 0)]
  have isAttempt : (Lowering.expr attempt).Yields (Lowering.start PatternCache.empty) 6
      ⟨staleGrammar.nodes.take 7, placed, PatternCache.empty⟩ := rfl
  have isRepetition : (Lowering.exprs [.node 7 (.repeated letter .text 0 none)]).Yields
      ⟨staleGrammar.nodes.take 7, placed, PatternCache.empty⟩ [7]
      ⟨staleGrammar.nodes.take 8, (7, 7) :: placed, PatternCache.empty⟩ := rfl
  have isExpr : (staleParser 0).1.expr =
      .node 8 (.choice [attempt, .node 7 (.repeated letter .text 0 none)]) := rfl
  have isChoice := Lowering.yields_choice.mpr ⟨_, _, _, isAttempt, isRepetition, rfl⟩
  have isLowered := (@Lowering.yields_new _ 8 _ _ _ _ rfl).mpr ⟨_, _, isChoice, rfl⟩
  rw [<- isExpr] at isLowered
  have areTargets : Grammar.targets staleGrammar.nodes = .ok [0, 1, 2, 3, 4, 5, 6, 7, 8] := rfl
  exact GrammarBuilder.exists_known_of_lowered isLowered "stale" rfl areTargets rfl (by decide +kernel)

/-- A repetition that starts afresh ends in the state in which it started. -/
theorem staleRepetition_keeps : exists outcome last,
    (staleGrammar.machine "b").run 8 1 7 (Context.start Nat.zero) = .finished outcome last ∧
      (last.state = Nat.zero ∨
        (staleGrammar.machine "b").RecallsState 8 1 7 (Context.start Nat.zero)) := by
  have quiet : staleGrammar.writesState 7 = false := by decide
  have ends : (staleGrammar.machine "b").run 8 1 7 (Context.start Nat.zero) =
      .finished (.ok ⟨.list .text, []⟩) ⟨0, Nat.zero, (0, 0),
        ⟨[((3, 0), ⟨0, Nat.zero, .error ((ParseError.bare 0).withNode 3)⟩)]⟩⟩ := rfl
  refine ⟨_, _, ends, ?_⟩
  apply (state_kept_or_recalled (staleGrammar.machine "b") 8 1 7 (Context.start Nat.zero)).1 quiet
  rw [ends]
  exact .finished

/-- Whether a parse from a node comes to the same state as one that saves the state
before every repetition. -/
def SavesUnobservably (machine : Machine L) (root : NodeId) (state : L.State) : Prop :=
  forall steps outcome other last after,
    machine.run steps 1 root (Context.start state) = .finished outcome last ->
    machine.runSaving steps 1 root (Context.start state) = .finished other after ->
    last.state = after.state

/-- The seed of the attempt was planted in the changed state.  The repetition, below
which nothing replaces the state, meets it and ends with that state; it would have
restored its own if it had saved it. -/
theorem staleRepetition_leaks : exists known,
    staleRules.build PatternCache.empty = (.ok ⟨staleGrammar, known⟩, PatternCache.empty) ∧
      staleGrammar.writesState 3 = false ∧
      ¬(staleGrammar.machine "b").SavesUnobservably 8 Nat.zero := by
  rcases staleRules_accepted with ⟨known, accepted⟩
  refine ⟨known, accepted, by decide, ?_⟩
  intro unobservable
  have same := unobservable 8 _ _ _ _ rfl rfl
  exact absurd same Nat.one_ne_zero

end Machine
end SeedGrammar
