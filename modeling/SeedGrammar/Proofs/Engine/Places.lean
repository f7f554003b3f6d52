import SeedGrammar.Proofs.Engine.Positions

namespace SeedGrammar

/-!
# Places that are not left

Only leaves take a parse to a new position.  Everything else goes on from where
an operand ended, back to a position where it has been, or to the end of a seed,
and that is where an operand ended as well.  So if no leaf leads out of a set of
positions, a parse that starts in the set stays there with its position and the
ends of all its seeds, `Machine.run_staysIn`.

This holds of any set.  Nothing is assumed of functions, which are not asked
where to go on.
-/

variable {L : Signature} {places : Nat -> Prop}

/-- Whether the position of a context and the ends of its seeds are among some
positions. -/
structure Context.StaysIn (places : Nat -> Prop) (context : Context L) : Prop where
  position : places context.position
  seeds : forall key seed, context.seedAt key = some seed -> places seed.position

namespace Context.StaysIn

variable {context : Context L}

/-- States and ranges do not matter. -/
theorem moved (stays : context.StaysIn places) {position : Nat} (isPlace : places position)
    (state : L.State) (range : Nat × Nat) :
    Context.StaysIn places ⟨position, state, range, context.seeds⟩ :=
  ⟨isPlace, stays.seeds⟩

theorem restored (stays : context.StaysIn places) {snapshot : Snapshot L}
    (isPlace : places snapshot.position) : (context.restore snapshot).StaysIn places :=
  stays.moved isPlace snapshot.state context.range

/-- A seed may be planted where it ends at one of the positions. -/
theorem planted (stays : context.StaysIn places) (key : NodeId × Nat) {seed : Seed L}
    (isPlace : places seed.position) : (context.withSeed key seed).StaysIn places where
  position := stays.position
  seeds other found isThere := by
    by_cases same : other = key
    · rw [same, seedAt_withSeed_self] at isThere
      cases isThere
      exact isPlace
    · rw [seedAt_withSeed_of_ne _ _ same] at isThere
      exact stays.seeds other found isThere

end Context.StaysIn

/-- Whether a leaf that is run at one of some positions ends at one. -/
def Leaf.StaysIn (places : Nat -> Prop) (input : L.Input) (atom : Leaf L PatternProgram) : Prop :=
  forall self context, places context.position -> places (atom.run input self context).2.position

/-- Whether the leaf of a clause, if it is one, does not lead out of some
positions. -/
def Clause.StaysIn {α : Type} (places : Nat -> Prop) (input : L.Input) :
    Clause L PatternProgram α -> Prop
  | .leaf atom => atom.StaysIn places input
  | _ => True

/-- A run ends at one of some positions, whatever it comes to. -/
def endsIn (L : Signature) (places : Nat -> Prop) : Ending L where
  matched after := after.StaysIn places
  failed _ after := after.StaysIn places

theorem endsIn_allows {β : Type} {answer : Except (ParseError L.Payload) β} {after : Context L} :
    (endsIn L places).Allows answer after ↔ after.StaysIn places := by
  cases answer <;> rfl

/-- Operands are called at some positions and end there. -/
def callsIn (L : Signature) (α : Type) (places : Nat -> Prop) : Contract L α where
  asks _ context := context.StaysIn places
  ends _ _ := endsIn L places

section Clauses

variable {α : Type} {spent : Prop} {context : Context L}

theorem Dialogue.growth_staysIn {self : NodeId} {inner : α} {start : Snapshot L}
    (isPlace : places start.position) (rounds : Nat) (stays : context.StaysIn places) :
    (Dialogue.growth self inner start rounds context).Obeys (callsIn L α places) True
      (endsIn L places) := by
  induction rounds generalizing context with
  | zero => trivial
  | succ rounds inductionHypothesis =>
      refine ⟨stays.restored isPlace, ?_⟩
      intro outcome after allowed
      have past : after.StaysIn places := endsIn_allows.mp allowed
      dsimp only
      cases found : after.seeds.get? self start.position with
      | none => trivial
      | some seed =>
          by_cases shorter : after.position ≤ seed.position
          · simp only [if_pos shorter]
            have isEnd : places seed.position := past.seeds (self, start.position) seed found
            exact endsIn_allows.mpr (past.moved isEnd seed.state after.range)
          · simp only [if_neg shorter]
            cases outcome with
            | error error => exact past
            | ok value =>
                exact inductionHypothesis (past.planted (self, start.position) past.position)

theorem Dialogue.repeated_staysIn {keepState : Bool} {inner : α} {min : Nat} {max : Option Nat}
    (rounds : Nat) (stays : context.StaysIn places) :
    (Dialogue.repeated keepState inner min max rounds [] context).Obeys (callsIn L α places) True
      (endsIn L places) := by
  have enough : rounds ≤ 0 -> True := fun _ => trivial
  refine Dialogue.obeys_repeated (fun _ _ reached => reached.StaysIn places) ?full ?asks ?idles
    ?goesOn ?fails ?stops enough stays
  case full => exact fun reached _ => reached
  case asks => exact id
  case idles => exact fun _ past _ => past
  case goesOn => exact fun _ past _ => ⟨0, past, Or.inr trivial⟩
  case fails => exact fun _ past => past
  case stops =>
    intro needed count reached error after state here past _ _
    exact Context.StaysIn.moved past here.position state after.range

/-- A clause calls its operands at positions where it has been, and ends where
its leaf or an operand ended. -/
theorem Clause.dialogue_staysIn {input : L.Input} {clause : Clause L PatternProgram α}
    (leaf : clause.StaysIn places input) (rounds : Nat) (writes : α -> Bool) (self : NodeId)
    (stays : context.StaysIn places) :
    (clause.dialogue rounds input writes self context).Obeys (callsIn L α places) True
      (endsIn L places) := by
  have back : forall {after : Context L}, after.StaysIn places ->
      (after.restore context.snapshot).StaysIn places :=
    fun past => past.restored stays.position
  cases clause with
  | leaf atom =>
      apply endsIn_allows.mpr
      refine ⟨leaf self context stays.position, ?_⟩
      intro key seed planted
      rw [Context.seedAt, atom.run_seeds] at planted
      exact stays.seeds key seed planted
  | map inner transform =>
      refine ⟨stays, ?_⟩
      intro outcome after allowed
      have past : after.StaysIn places := endsIn_allows.mp allowed
      dsimp only
      split
      · exact endsIn_allows.mpr (past.moved past.position after.state _)
      · trivial
  | update inner next =>
      apply Dialogue.obeys_ask stays
      · intro error after past
        exact past
      · intro value after past
        exact past.moved past.position _ _
  | sequence items gather =>
      apply Dialogue.obeys_andThen
      · exact Dialogue.obeys_sequence (fun _ reached => reached.StaysIn places) id
          (fun _ past => past) (fun _ past => past) id stays
      · intro values after allowed
        exact Dialogue.obeys_finishGathered self gather allowed
  | choice alts =>
      exact Dialogue.obeys_choice (fun _ _ reached => reached.StaysIn places) id
        (fun _ past => past) (fun _ past _ => back past) (fun _ past => past) id stays
  | optional inner element =>
      apply Dialogue.obeys_ask stays
      · intro error after past
        dsimp only
        split
        · exact back past
        · exact past
      · intro value after past
        exact Dialogue.obeys_finishWith self _ past
  | attempt inner =>
      apply Dialogue.obeys_ask stays
      · intro error after past
        exact back past
      · intro value after past
        exact past
  | lookahead inner look negative =>
      apply Dialogue.obeys_ask stays
      · intro error after past
        exact past
      · intro value middle between
        refine ⟨between, ?_⟩
        intro looked after allowed
        have past : after.StaysIn places := endsIn_allows.mp allowed
        have undone : (after.restore middle.snapshot).StaysIn places :=
          past.restored between.position
        dsimp only
        split
        · exact undone
        · exact undone
  | repeated inner element min max =>
      apply Dialogue.obeys_andThen (Dialogue.repeated_staysIn rounds stays)
      intro values after allowed
      exact Dialogue.obeys_finishGathered self (.list element) allowed
  | reference name expected target => trivial
  | leftRecursion inner =>
      rw [dialogue]
      cases found : context.seeds.get? self context.position with
      | some seed =>
          have isEnd : places seed.position := stays.seeds (self, context.position) seed found
          exact endsIn_allows.mpr (stays.moved isEnd seed.state context.range)
      | none =>
          exact Dialogue.growth_staysIn stays.position rounds
            (stays.planted (self, context.position) stays.position)

end Clauses

/-- Whether no leaf of a grammar leads out of some positions. -/
def Grammar.StaysIn (places : Nat -> Prop) (input : L.Input) (grammar : Grammar L) : Prop :=
  forall (id : NodeId) atom, grammar.nodes[id]? = some (.leaf atom) -> atom.StaysIn places input

/-- The clause of a node does not lead out either. -/
theorem Grammar.StaysIn.clause {input : L.Input} {grammar : Grammar L}
    (leaves : grammar.StaysIn places input) {id : NodeId}
    {clause : Clause L PatternProgram NodeId} (found : grammar.nodes[id]? = some clause) :
    clause.StaysIn places input := by
  cases clause with
  | leaf atom => exact leaves id atom found
  | _ => trivial

/-- Whether the contexts of an event are at some positions. -/
def Event.StaysIn (places : Nat -> Prop) : Event L -> Prop
  | entered _ _ first => first.StaysIn places
  | finished _ _ first _ after => first.StaysIn places ∧ after.StaysIn places

namespace Machine

variable {machine : Machine L}

/-- A node that is called at one of the positions, and is no leaf that leads out of
them, makes its calls at some of them, and ends at one if they do. -/
theorem step_staysIn {steps depth : Nat} (id : NodeId) {context : Context L}
    (leaf : forall clause, machine.grammar.nodes[id]? = some clause ->
      clause.StaysIn places machine.input)
    (stays : context.StaysIn places)
    (calls : forall made, made ∈ machine.callsOf steps depth id context ->
      made.2.StaysIn places ->
        (machine.run steps (depth + 1) made.1 made.2).Honours (endsIn L places)) :
    (forall made, made ∈ machine.callsOf steps depth id context -> made.2.StaysIn places) ∧
      (machine.run (steps + 1) depth id context).Honours (endsIn L places) := by
  rw [callsOf] at calls ⊢
  rw [run_succ]
  by_cases trips : 0 < machine.maxDepth ∧ machine.maxDepth < depth
  · rw [dialogue, if_pos trips]
    refine ⟨?_, stays⟩
    intro made member
    cases member
  · cases found : machine.grammar.nodes[id]? with
    | none =>
        rw [dialogue, if_neg trips, found]
        refine ⟨?_, trivial⟩
        intro made member
        cases member
    | some clause =>
        have obeys := clause.dialogue_staysIn (leaf clause found) steps
          machine.grammar.writesState id stays
        have isDialogue : machine.dialogue steps depth id context =
            clause.dialogue steps machine.input machine.grammar.writesState id context := by
          rw [dialogue, if_neg trips, found]
        rw [<- isDialogue] at obeys
        exact Dialogue.obeys_calls (machine.run steps (depth + 1)) obeys calls fun _ past => past

/-- A run that starts at one of some positions that no leaf leads out of stays at
them, with everything that happens on the way. -/
theorem run_staysIn (leaves : machine.grammar.StaysIn places machine.input) (steps depth : Nat)
    (id : NodeId) {context : Context L} (stays : context.StaysIn places) :
    (machine.run steps depth id context).Honours (endsIn L places) ∧
      forall event, event ∈ machine.trace steps depth id context -> event.StaysIn places := by
  induction steps generalizing depth id context with
  | zero =>
      refine ⟨trivial, ?_⟩
      intro event member
      cases member
  | succ steps inductionHypothesis =>
      have node := step_staysIn id (fun _ => leaves.clause) stays fun made _ madeStays =>
        (inductionHypothesis (depth + 1) made.1 madeStays).1
      refine ⟨node.2, ?_⟩
      intro event member
      rcases mem_trace_succ.mp member with own | ⟨made, isCall, inner⟩ | ⟨outcome, after, ends, own⟩
      · rw [own]
        exact stays
      · exact (inductionHypothesis (depth + 1) made.1 (node.1 made isCall)).2 event inner
      · rw [own]
        have honoured := node.2
        rw [ends] at honoured
        exact ⟨stays, endsIn_allows.mp honoured⟩

end Machine

/-- A run that honours an end at some positions returns at one of them. -/
theorem Reply.Honours.returns_staysIn {reply : Reply L (Outcome L)}
    (honours : reply.Honours (endsIn L places)) {outcome : Outcome L} {last : Context L}
    (returns : reply.Returns outcome last) : last.StaysIn places := by
  cases returns with
  | finished => exact endsIn_allows.mp honours
  | halted => exact honours

end SeedGrammar
