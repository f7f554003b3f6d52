import SeedGrammar.Proofs.Engine.Progress
import SeedGrammar.Proofs.Engine.Steps
import SeedGrammar.Proofs.Engine.Trace
import SeedGrammar.Proofs.PlainText

namespace SeedGrammar

/-!
# Positions during a parse

Clauses keep to their contracts, and what a contract relies on is what the
contracts of the operands promise.  So by induction on the steps all calls of
a parse start and end within bounds, `Machine.run_honours`.  So do failures, unless a
function on outcomes puts one elsewhere: `EntryPoint.failures_inside`.

Positions go back over a call only if in the course of it a leaf of the
author's own reports a count that wraps around.  Such a leaf does go back,
which no caller expects: `EntryPoint.positions_inside` says when a call
returns behind the place where it was entered, and `skipping` is a parse in
which one does.
-/

variable {L : Signature}

namespace Grammar

/-- Whether what the leaves of a grammar read lies inside the input. -/
def ReadsWithin (grammar : Grammar L) (input : L.Input) : Prop :=
  forall (id : NodeId) atom, grammar.nodes[id]? = some (.leaf atom) -> atom.ReadsWithin input

/-- Whether the counts that the author's own leaves report are machine words. -/
def CountsWords (grammar : Grammar L) : Prop :=
  forall (id : NodeId) name act, grammar.nodes[id]? = some (.leaf (.custom name act)) ->
    forall input position state value count, act input position state = .ok (value, count) ->
      count < wordCount

/-- Whether a function on outcomes puts a failure at a position: it gets a token
of a match inside the input and no failure that is there already. -/
def PutsFailureAt (grammar : Grammar L) (input : L.Input) (position : Nat) : Prop :=
  exists (id : NodeId) (inner : NodeId) (transform : Transform L) (outcome : Outcome L)
      (token : Token L) (error : ParseError L.Payload),
    grammar.nodes[id]? = some (.map inner transform) ∧ Token.Within input token ∧
      transform outcome token = .ok (.error error) ∧ error.position = position ∧
      forall before, outcome = .error before -> before.position ≠ position

end Grammar

/-- Whether a transform leaves failures where they are, and puts its own inside
the input. -/
def Transform.Confined (input : L.Input) (transform : Transform L) : Prop :=
  forall outcome token error, Token.Within input token ->
    transform outcome token = .ok (.error error) ->
      error.position ≤ Stream.length input ∨
        exists before, outcome = .error before ∧ before.position = error.position

/-- If the functions of a grammar are confined, no failure is put outside of
the input. -/
theorem Grammar.inside_of_putsFailureAt {grammar : Grammar L} {input : L.Input} {position : Nat}
    (confined : forall (id : NodeId) inner transform,
      grammar.nodes[id]? = some (.map inner transform) -> transform.Confined input)
    (puts : grammar.PutsFailureAt input position) : position ≤ Stream.length input := by
  rcases puts with ⟨id, inner, transform, outcome, token, error, found, within, result, rfl, fresh⟩
  rcases confined id inner transform found outcome token error within result with
    inside | ⟨before, isBefore, same⟩
  · exact inside
  · exact absurd same (fresh before isBefore)

namespace Transform

variable {source target : ValueType L.Kind}

/-- A function on values and payloads leaves failures where they are. -/
theorem ofTyped_confined (input : L.Input)
    {f : Except (ParseError L.Payload) (source.Carrier L) -> Token L ->
      Except (ParseError L.Payload) (target.Carrier L)}
    (keeps : forall before token, exists error, f (.error before) token = .error error ∧
      error.position = before.position)
    (fails : forall content token error, f (.ok content) token = .error error ->
      error.position = token.start) :
    (ofTyped source target f).Confined input := by
  intro outcome token error within result
  cases outcome with
  | error before =>
      rcases keeps before token with ⟨kept, isKept, same⟩
      rw [ofTyped, isKept] at result
      cases result
      exact Or.inr ⟨before, rfl, same.symm⟩
  | ok value =>
      rw [ofTyped] at result
      cases isContent : value.get? source with
      | none =>
          rw [isContent] at result
          cases result
      | some content =>
          simp only [isContent] at result
          cases made : f (.ok content) token with
          | ok made' =>
              rw [made] at result
              cases result
          | error failed =>
              rw [made] at result
              cases result
              rw [fails content token error made]
              exact Or.inl within.start

theorem map_confined (input : L.Input) (f : source.Carrier L -> Token L -> target.Carrier L) :
    (ofTyped source target fun result token => result.map (f · token)).Confined input := by
  apply ofTyped_confined
  · intro before token
    exact ⟨before, rfl, rfl⟩
  · intro content token error isError
    cases isError

/-- A rejected match fails where it started. -/
theorem mapChecked_confined (input : L.Input)
    (f : source.Carrier L -> Token L -> Except L.Payload (target.Carrier L)) :
    (ofTyped source target fun result token =>
      match result with
      | .error error => .error error
      | .ok content =>
        match f content token with
        | .ok content => .ok content
        | .error payload =>
          .error (((ParseError.bare token.start).withNode token.node).withPayload
            payload)).Confined input := by
  apply ofTyped_confined
  · intro before token
    exact ⟨before, rfl, rfl⟩
  · intro content token error isError
    dsimp only at isError
    split at isError
    · cases isError
    · cases isError
      rfl

theorem mapPayload_confined (input : L.Input) (f : L.Payload -> L.Payload) :
    (ofTyped source source fun result _ => result.mapError (·.mapPayload f)).Confined input := by
  apply ofTyped_confined
  · intro before token
    exact ⟨before.mapPayload f, rfl, rfl⟩
  · intro content token error isError
    cases isError

theorem andThen_confined {input : L.Input} {first second : Transform L}
    (firstConfined : first.Confined input) (secondConfined : second.Confined input) :
    (first.andThen second).Confined input := by
  intro outcome token error within result
  rw [andThen] at result
  cases made : first outcome token with
  | error fault =>
      rw [made] at result
      cases result
  | ok middle =>
      rw [made] at result
      rcases secondConfined middle token error within result with
        inside | ⟨between, rfl, same⟩
      · exact Or.inl inside
      · rw [<- same]
        exact firstConfined outcome token between within made

/-- Functions on outcomes that are made of functions on values and on payloads, which see
neither failures nor where these are. -/
inductive OfValues : Transform L -> Prop where
  | map {source target : ValueType L.Kind} (f : source.Carrier L -> Token L -> target.Carrier L) :
      OfValues (ofTyped source target fun result token => result.map (f · token))
  | mapChecked {source target : ValueType L.Kind}
      (f : source.Carrier L -> Token L -> Except L.Payload (target.Carrier L)) :
      OfValues (ofTyped source target fun result token =>
        match result with
        | .error error => .error error
        | .ok content =>
          match f content token with
          | .ok content => .ok content
          | .error payload =>
            .error (((ParseError.bare token.start).withNode token.node).withPayload payload))
  | mapPayload {source : ValueType L.Kind} (f : L.Payload -> L.Payload) :
      OfValues (ofTyped source source fun result _ => result.mapError (·.mapPayload f))
  | andThen {first second : Transform L} : OfValues first -> OfValues second ->
      OfValues (first.andThen second)

theorem OfValues.confined {transform : Transform L} (ofValues : transform.OfValues)
    (input : L.Input) : transform.Confined input := by
  induction ofValues with
  | map f => exact map_confined input f
  | mapChecked f => exact mapChecked_confined input f
  | mapPayload f => exact mapPayload_confined input f
  | andThen _ _ firstConfined secondConfined => exact andThen_confined firstConfined secondConfined

end Transform

namespace Event

/-- Whether an event is the end of a leaf whose count made the position wrap
around. -/
def Wraps (machine : Machine L) : Event L -> Prop
  | entered _ _ _ => False
  | finished _ id first _ _ => exists clause, machine.grammar.nodes[id]? = some clause ∧
      clause.Wraps machine.input first

/-- Whether an event of a run within bounds is as it should be. -/
def Within (bounds : Bounds L) (nullable : NodeId -> Prop) (context : Context L) :
    Event L -> Prop
  | entered _ _ first => context.Reaches bounds first
  | finished _ id first outcome after =>
    context.Reaches bounds first ∧ (bounds.ending (nullable id) first).Allows outcome after

theorem Within.trans {bounds : Bounds L} {nullable : NodeId -> Prop}
    {context middle : Context L} {event : Event L} (reaches : context.Reaches bounds middle)
    (within : event.Within bounds nullable middle) : event.Within bounds nullable context := by
  cases event with
  | entered depth id first => exact reaches.trans within
  | finished depth id first outcome after => exact ⟨reaches.trans within.1, within.2⟩

end Event

/-- A run that honours an ending honours one that allows it to be idle as well
where it matches and has not advanced. -/
theorem Reply.Honours.idle_of_match {bounds : Bounds L} {idle other : Prop} {first : Context L}
    {reply : Reply L (Outcome L)} (honours : reply.Honours (bounds.ending idle first))
    (weaker : forall value after, reply = .finished (.ok value) after ->
      first.Reaches bounds after -> first.Stays bounds after -> idle -> other) :
    reply.Honours (bounds.ending other first) := by
  cases reply with
  | finished outcome after =>
      cases outcome with
      | error error => exact honours
      | ok value =>
          refine ⟨honours.1, ?_⟩
          intro stays
          exact weaker value after rfl honours.1 stays (honours.2 stays)
  | halted error place => exact honours
  | faulted fault => trivial
  | exhausted => trivial

/-- A run that honours an ending honours one that allows it to be idle more often. -/
theorem Reply.Honours.idle_imp {bounds : Bounds L} {idle other : Prop} {first : Context L}
    {reply : Reply L (Outcome L)} (honours : reply.Honours (bounds.ending idle first))
    (weaker : idle -> other) : reply.Honours (bounds.ending other first) :=
  honours.idle_of_match fun _ _ _ _ _ => weaker

namespace Machine

/-- The bounds of a parse.  A failure is sound if it is inside the input or a
function of the author's put it where it is. -/
def bounds (machine : Machine L) (forward : Prop) : Bounds L where
  input := machine.input
  sound error := error.position ≤ Stream.length machine.input ∨
    machine.grammar.PutsFailureAt machine.input error.position
  forward := forward
  inside _ := Or.inl

/-- Whether it is known of all nodes that can match without advancing. -/
def Covers (machine : Machine L) (nullable : NodeId -> Prop) : Prop :=
  forall id clause, machine.grammar.nodes[id]? = some clause ->
    clause.NullableBy machine.input nullable -> nullable id

variable {machine : Machine L} {forward : Prop} {nullable : NodeId -> Prop}

theorem clause_inside (reads : machine.grammar.ReadsWithin machine.input) {id : NodeId}
    {clause : Clause L PatternProgram NodeId}
    (found : machine.grammar.nodes[id]? = some clause) :
    clause.Inside (machine.bounds forward) := by
  cases clause with
  | leaf atom => exact reads id atom found
  | map inner transform =>
      intro outcome token error within sound result
      by_cases kept : exists before, outcome = .error before ∧ before.position = error.position
      · rcases kept with ⟨before, isBefore, same⟩
        have soundBefore : before.position ≤ Stream.length machine.input ∨
            machine.grammar.PutsFailureAt machine.input before.position := sound before isBefore
        rw [same] at soundBefore
        exact soundBefore
      · refine Or.inr ⟨id, inner, transform, outcome, token, error, found, within, result, rfl, ?_⟩
        intro before isBefore same
        exact kept ⟨before, isBefore, same⟩
  | update inner next => trivial
  | sequence items gather => trivial
  | choice alts => trivial
  | optional inner element => trivial
  | attempt inner => trivial
  | lookahead inner look negative => trivial
  | repeated inner element min max => trivial
  | reference name expected target => trivial
  | leftRecursion inner => trivial

/-- A clause that makes the position wrap around is a leaf, hence its run
finishes and is an event. -/
theorem wraps_of_clause (steps : Nat) {depth : Nat} {id : NodeId} {context : Context L}
    {clause : Clause L PatternProgram NodeId}
    (free : ¬(0 < machine.maxDepth ∧ machine.maxDepth < depth))
    (found : machine.grammar.nodes[id]? = some clause)
    (wraps : clause.Wraps machine.input context) :
    exists event, event ∈ machine.trace (steps + 1) depth id context ∧ event.Wraps machine := by
  cases clause with
  | leaf atom =>
      have ends : machine.run (steps + 1) depth id context =
          .finished (atom.run machine.input id context).1
            (atom.run machine.input id context).2 := by
        rw [run, if_neg free, found]
        rfl
      exact ⟨_, mem_trace_succ.mpr (Or.inr (Or.inr ⟨_, _, ends, rfl⟩)), .leaf atom, found, wraps⟩
  | map inner transform => exact wraps.elim
  | update inner next => exact wraps.elim
  | sequence items gather => exact wraps.elim
  | choice alts => exact wraps.elim
  | optional inner element => exact wraps.elim
  | attempt inner => exact wraps.elim
  | lookahead inner look negative => exact wraps.elim
  | repeated inner element min max => exact wraps.elim
  | reference name expected target => exact wraps.elim
  | leftRecursion inner => exact wraps.elim

/-- What a node does keeps to the contract of its clause. -/
theorem dialogue_obeys (nullable : NodeId -> Prop)
    (reads : machine.grammar.ReadsWithin machine.input) {depth : Nat} {id : NodeId}
    {context : Context L} {clause : Clause L PatternProgram NodeId}
    (free : ¬(0 < machine.maxDepth ∧ machine.maxDepth < depth))
    (found : machine.grammar.nodes[id]? = some clause)
    (within : context.Within (machine.bounds forward))
    (steady : forward -> ¬clause.Wraps machine.input context) (rounds : Nat) :
    (machine.dialogue rounds depth id context).Obeys
      (clause.contract (machine.bounds forward) nullable id context)
      (forward -> rounds ≤ clause.budget (Stream.length machine.input))
      ((machine.bounds forward).ending (clause.NullableBy machine.input nullable) context) := by
  rw [dialogue, if_neg free, found]
  exact Clause.dialogue_obeys within (clause_inside reads found) steady rounds _

/-- A node keeps to its contract and calls its operands as its contract allows, if
the calls that it can make keep to theirs. -/
theorem step_obeys (reads : machine.grammar.ReadsWithin machine.input) {steps depth : Nat}
    {id : NodeId} {context : Context L} (within : context.Within (machine.bounds forward))
    (steady : forward -> forall event, event ∈ machine.trace (steps + 1) depth id context ->
      ¬event.Wraps machine)
    (calls : forall made, made ∈ machine.callsOf steps depth id context ->
      context.Reaches (machine.bounds forward) made.2 ->
        (machine.run steps (depth + 1) made.1 made.2).Honours
          ((machine.bounds forward).ending
            (made.2.position ≤ context.position -> nullable made.1) made.2)) :
    (machine.run (steps + 1) depth id context).Honours
        ((machine.bounds forward).ending
          (exists clause, machine.grammar.nodes[id]? = some clause ∧
            clause.NullableBy machine.input nullable) context) ∧
      forall made, made ∈ machine.callsOf steps depth id context ->
        exists clause, machine.grammar.nodes[id]? = some clause ∧
          (clause.contract (machine.bounds forward) nullable id context).asks made.1 made.2 := by
  rw [callsOf] at calls ⊢
  rw [run_succ]
  by_cases trips : 0 < machine.maxDepth ∧ machine.maxDepth < depth
  · rw [dialogue, if_pos trips]
    refine ⟨⟨.refl within, Or.inl within.position⟩, ?_⟩
    intro made member
    cases member
  · cases found : machine.grammar.nodes[id]? with
    | none =>
        rw [dialogue, if_neg trips, found]
        refine ⟨trivial, ?_⟩
        intro made member
        cases member
    | some clause =>
        have noWrap : forward -> ¬clause.Wraps machine.input context := by
          intro isForward wraps
          rcases wraps_of_clause steps trips found wraps with ⟨event, member, eventWraps⟩
          exact steady isForward event member eventWraps
        have obeys := dialogue_obeys nullable reads trips found within noWrap steps
        have honoured := Dialogue.obeys_calls (machine.run steps (depth + 1)) obeys
          (fun made member asked => calls made member asked.2.1)
          (fun asked failed => ⟨asked.2.1.trans failed.1, failed.2⟩)
        exact ⟨Reply.Honours.idle_imp honoured.2 fun idle => ⟨clause, rfl, idle⟩,
          fun made member => ⟨clause, rfl, honoured.1 made member⟩⟩

/-- If all nodes are known that can match without advancing, a node that does is
known. -/
theorem step_honours (reads : machine.grammar.ReadsWithin machine.input)
    (covers : machine.Covers nullable) {steps depth : Nat} {id : NodeId} {context : Context L}
    (within : context.Within (machine.bounds forward))
    (steady : forward -> forall event, event ∈ machine.trace (steps + 1) depth id context ->
      ¬event.Wraps machine)
    (calls : forall made, made ∈ machine.callsOf steps depth id context ->
      context.Reaches (machine.bounds forward) made.2 ->
        (machine.run steps (depth + 1) made.1 made.2).Honours
          ((machine.bounds forward).ending (nullable made.1) made.2)) :
    (machine.run (steps + 1) depth id context).Honours
        ((machine.bounds forward).ending (nullable id) context) ∧
      forall made, made ∈ machine.callsOf steps depth id context ->
        context.Reaches (machine.bounds forward) made.2 := by
  have node := step_obeys reads within steady fun made member reaches =>
    Reply.Honours.idle_imp (calls made member reaches) fun idle _ => idle
  constructor
  · apply Reply.Honours.idle_imp node.1
    rintro ⟨clause, found, idle⟩
    exact covers id clause found idle
  · intro made member
    rcases node.2 made member with ⟨clause, _, _, reaches, _⟩
    exact reaches

/-- Runs from contexts within bounds end within bounds, and so do the runs of
all nodes on the way. -/
theorem run_honours (machine : Machine L) (reads : machine.grammar.ReadsWithin machine.input)
    (covers : machine.Covers nullable) (steps depth : Nat) (id : NodeId) {context : Context L}
    (within : context.Within (machine.bounds forward))
    (steady : forward -> forall event, event ∈ machine.trace steps depth id context ->
      ¬event.Wraps machine) :
    (machine.run steps depth id context).Honours
        ((machine.bounds forward).ending (nullable id) context) ∧
      forall event, event ∈ machine.trace steps depth id context ->
        event.Within (machine.bounds forward) nullable context := by
  induction steps generalizing depth id context with
  | zero =>
      refine ⟨trivial, ?_⟩
      intro event member
      cases member
  | succ steps inductionHypothesis =>
      -- All calls start where the node can lead, so the hypothesis covers them.
      have calls : forall made, made ∈ machine.callsOf steps depth id context ->
          context.Reaches (machine.bounds forward) made.2 ->
            (machine.run steps (depth + 1) made.1 made.2).Honours
                ((machine.bounds forward).ending (nullable made.1) made.2) ∧
              forall event, event ∈ machine.trace steps (depth + 1) made.1 made.2 ->
                event.Within (machine.bounds forward) nullable made.2 := by
        intro made member reaches
        apply inductionHypothesis (depth + 1) made.1 reaches.within
        intro isForward event inner
        exact steady isForward event
          (mem_trace_succ.mpr (Or.inr (Or.inl ⟨made, member, inner⟩)))
      have node := step_honours reads covers within steady
        fun made member reaches => (calls made member reaches).1
      refine ⟨node.1, ?_⟩
      intro event member
      rcases mem_trace_succ.mp member with own | ⟨made, isCall, inner⟩ | ⟨outcome, after, ends, own⟩
      · rw [own]
        exact .refl within
      · have reaches := node.2 made isCall
        exact Event.Within.trans reaches ((calls made isCall reaches).2 event inner)
      · rw [own]
        have honoured := node.1
        rw [ends] at honoured
        exact ⟨.refl within, honoured⟩

/-- A leaf that finishes does what it does on its own. -/
theorem run_leaf {steps depth : Nat} {id : NodeId} {context after : Context L}
    {outcome : Outcome L} {atom : Leaf L PatternProgram}
    (found : machine.grammar.nodes[id]? = some (.leaf atom))
    (ends : machine.run steps depth id context = .finished outcome after) :
    atom.run machine.input id context = (outcome, after) := by
  cases steps with
  | zero => cases ends
  | succ steps =>
      rw [run, found] at ends
      by_cases trips : 0 < machine.maxDepth ∧ machine.maxDepth < depth
      · rw [if_pos trips] at ends
        cases ends
      · rw [if_neg trips] at ends
        cases ends
        rfl

/-- Positions are inside the input whether or not they go back. -/
theorem entered_within (reads : machine.grammar.ReadsWithin machine.input) {steps depth : Nat}
    {id : NodeId} {context : Context L} (within : context.Within (machine.bounds False))
    {place : Nat} {node : NodeId} {first : Context L}
    (enters : Event.entered place node first ∈ machine.trace steps depth id context) :
    first.Within (machine.bounds False) := by
  have covers : machine.Covers fun _ => True := fun _ _ _ _ => trivial
  have honours := machine.run_honours reads covers steps depth id within
    (by
      intro impossible
      exact impossible.elim)
  have reaches : context.Reaches (machine.bounds False) first := honours.2 _ enters
  exact reaches.within

/-- Bounds on contexts do not depend on whether positions go back. -/
theorem within_forward {context : Context L} (within : context.Within (machine.bounds forward))
    (other : Prop) : context.Within (machine.bounds other) where
  position := within.position
  seeds key seed planted :=
    have old := within.seeds key seed planted
    ⟨old.after, old.inside, old.advanced, old.sound⟩

end Machine

/-- Whether a reply is the end of a call, with an outcome and a context: the
limit on nesting ends a call with a failure. -/
inductive Reply.Returns : Reply L (Outcome L) -> Outcome L -> Context L -> Prop where
  | finished {outcome last} : Returns (.finished outcome last) outcome last
  | halted {error last} : Returns (.halted error last) (.error error) last

/-- Whether a call ends inside the input: its position, its failure unless a
function of the author's put it elsewhere, and all seeds. -/
structure Machine.ReturnsInside (machine : Machine L) (outcome : Outcome L)
    (last : Context L) : Prop where
  position : last.position ≤ Stream.length machine.input
  failure : forall error, outcome = .error error ->
    error.position ≤ Stream.length machine.input ∨
      machine.grammar.PutsFailureAt machine.input error.position
  seeds : forall id start seed, last.seeds.get? id start = some seed ->
    start ≤ seed.position ∧ seed.position ≤ Stream.length machine.input

theorem Reply.Honours.returns {bounds : Bounds L} {idle : Prop} {first : Context L}
    {reply : Reply L (Outcome L)} (honours : reply.Honours (bounds.ending idle first))
    {outcome : Outcome L} {last : Context L} (returns : reply.Returns outcome last) :
    first.Reaches bounds last ∧ forall error, outcome = .error error -> bounds.sound error := by
  cases returns with
  | finished =>
      cases outcome with
      | error error =>
          refine ⟨honours.1, ?_⟩
          rintro _ ⟨rfl⟩
          exact honours.2
      | ok value =>
          refine ⟨honours.1, ?_⟩
          intro error isError
          cases isError
  | halted =>
      refine ⟨honours.1, ?_⟩
      rintro _ ⟨rfl⟩
      exact honours.2

namespace EntryPoint

variable {type : ValueType L.Kind}

/-- Whether a node is called in some context during a parse. -/
def Calls (entry : EntryPoint L type) (input : L.Input) (state : L.State) (depth : Nat)
    (id : NodeId) (first : Context L) : Prop :=
  exists steps, Event.entered depth id first ∈
    (entry.machine input).trace steps 1 entry.root (Context.start state)

/-- Whether all calls of a parse end inside the input and none of them behind
the place where it was entered. -/
def NeverGoesBack (entry : EntryPoint L type) (input : L.Input) (state : L.State) : Prop :=
  forall depth id first, entry.Calls input state depth id first -> forall more outcome last,
    ((entry.machine input).run more depth id first).Returns outcome last ->
      (entry.machine input).ReturnsInside outcome last ∧ first.position ≤ last.position

/-- A call ends within bounds, and behind its start only if it goes back
itself. -/
theorem call_returns {entry : EntryPoint L type} {input : L.Input} {state : L.State}
    (reads : entry.grammar.ReadsWithin input) {depth : Nat} {id : NodeId} {first : Context L}
    (calls : entry.Calls input state depth id first) {more : Nat} {outcome : Outcome L}
    {last : Context L}
    (returns : ((entry.machine input).run more depth id first).Returns outcome last) :
    (entry.machine input).ReturnsInside outcome last ∧
      ((forall event, event ∈ (entry.machine input).trace more depth id first ->
        ¬event.Wraps (entry.machine input)) -> first.position ≤ last.position) := by
  let machine := entry.machine input
  rcases calls with ⟨steps, enters⟩
  have within := Machine.entered_within reads (Context.start_within _ state) enters
  have covers : machine.Covers fun _ => True := fun _ _ _ _ => trivial
  let steady : Prop := forall event, event ∈ machine.trace more depth id first ->
    ¬event.Wraps machine
  have honours := machine.run_honours reads covers more depth id
    (Machine.within_forward within steady) fun isSteady => isSteady
  rcases honours.1.returns returns with ⟨reaches, sound⟩
  refine ⟨⟨reaches.within.position, sound, ?_⟩, reaches.forward⟩
  intro node start seed found
  have seedWithin := reaches.within.seeds (node, start) seed found
  exact ⟨seedWithin.after, seedWithin.inside⟩

/-- The root of a parse ends inside the input. -/
theorem root_returns {entry : EntryPoint L type} {input : L.Input} {state : L.State}
    (reads : entry.grammar.ReadsWithin input) {steps : Nat} {outcome : Outcome L}
    {last : Context L}
    (returns : ((entry.machine input).run steps 1 entry.root (Context.start state)).Returns outcome
      last) : (entry.machine input).ReturnsInside outcome last := by
  cases steps with
  | zero => cases returns
  | succ steps =>
      have calls : entry.Calls input state 1 entry.root (Context.start state) :=
        ⟨steps + 1, Machine.mem_trace_succ.mpr (Or.inl rfl)⟩
      exact (call_returns reads calls returns).1

/-- If all functions of a grammar are on values and on payloads then every failure of a call is
inside the input. -/
theorem failures_inside {entry : EntryPoint L type} {input : L.Input} {state : L.State}
    (reads : entry.grammar.ReadsWithin input)
    (ofValues : forall (id : NodeId) inner transform,
      entry.grammar.nodes[id]? = some (.map inner transform) -> transform.OfValues)
    {depth : Nat} {id : NodeId} {first : Context L} (calls : entry.Calls input state depth id first)
    {more : Nat} {error : ParseError L.Payload} {last : Context L}
    (returns : ((entry.machine input).run more depth id first).Returns (.error error) last) :
    error.position ≤ Stream.length input := by
  rcases (call_returns reads calls returns).1.failure error rfl with inside | puts
  · exact inside
  · exact Grammar.inside_of_putsFailureAt
      (fun id inner transform found => (ofValues id inner transform found).confined input) puts

/-- What a parse consumed is where its root has ended. -/
theorem returns_of_conclude {root : NodeId} {reply : Reply L (Outcome L)}
    {result : ParseResult L type} (completed : conclude root reply = .completed result) :
    exists outcome last, reply.Returns outcome last ∧ result.consumed = last.position := by
  cases reply with
  | finished outcome last =>
      refine ⟨outcome, last, .finished, ?_⟩
      cases outcome with
      | error error =>
          cases completed
          rfl
      | ok value =>
          rw [conclude] at completed
          split at completed
          · cases completed
            rfl
          · cases completed
  | halted error last =>
      cases completed
      exact ⟨.error error, last, .halted, rfl⟩
  | faulted fault => cases completed
  | exhausted => cases completed

/-- All calls of a parse end inside the input, and so does the parse.  They end
behind the place where they were entered only if a leaf of the author's own
reports a count in their course that wraps around, and such a leaf does. -/
theorem positions_inside (entry : EntryPoint L type) (input : L.Input) (state : L.State)
    (reads : entry.grammar.ReadsWithin input) (words : entry.grammar.CountsWords) :
    (forall depth id first, entry.Calls input state depth id first ->
      forall more outcome last,
        ((entry.machine input).run more depth id first).Returns outcome last ->
          (entry.machine input).ReturnsInside outcome last ∧
          ((forall event, event ∈ (entry.machine input).trace more depth id first ->
            ¬event.Wraps (entry.machine input)) -> first.position ≤ last.position) ∧
          ((Event.finished depth id first outcome last).Wraps (entry.machine input) ->
            (entry.machine input).run more depth id first = .finished outcome last ->
              last.position < first.position)) ∧
    forall steps result, entry.parseWithin steps input state = .completed result ->
      result.consumed ≤ Stream.length input := by
  constructor
  · intro depth id first calls more outcome last returns
    have ends := call_returns reads calls returns
    refine ⟨ends.1, ends.2, ?_⟩
    rintro ⟨clause, found, wraps⟩ finishes
    cases clause with
    | leaf atom =>
        have back := atom.run_wraps id
          (by
            rintro name act rfl position state value count result
            exact words id name act found input position state value count result)
          wraps
        rw [Machine.run_leaf found finishes] at back
        exact back
    | _ => exact wraps.elim
  · intro steps result completed
    by_cases refuses : entry.Refuses input
    · rw [parseWithin_of_refuses refuses] at completed
      cases completed
      exact Nat.zero_le _
    · rw [parseWithin_of_accepts refuses] at completed
      rcases returns_of_conclude completed with ⟨outcome, last, returns, consumed⟩
      rw [consumed]
      exact (root_returns reads returns).position

instance : LawfulStream plainText.Input :=
  inferInstanceAs (LawfulStream String)

/-- A letter, and then a leaf that reports the greatest count there is. -/
def skipping : EntryPoint plainText .unit :=
  ⟨⟨[.sequence [1, 2] (.pick 1), .leaf (.exact "a"),
    .leaf (.custom "skip" fun _ _ _ => .ok (⟨.unit, ()⟩, 0xFFFFFFFFFFFFFFFF))], []⟩, 0,
    ParserConfig.unlimited⟩

/-- The leaf is entered after the letter and returns before it. -/
theorem skipping_goes_back : ¬skipping.NeverGoesBack "ab" () := by
  intro never
  have enters : skipping.Calls "ab" () 2 2 ⟨1, (), (0, 0), SeedTable.empty⟩ :=
    ⟨2, List.mem_of_getElem? (i := 3) rfl⟩
  have returns : ((skipping.machine "ab").run 1 2 2 ⟨1, (), (0, 0), SeedTable.empty⟩).Returns
      (.ok ⟨.unit, ()⟩) ⟨0, (), (0, 0), SeedTable.empty⟩ := .finished
  have ahead := (never 2 2 _ enters 1 _ _ returns).2
  exact absurd ahead (by decide)

theorem skipping_parses :
    skipping.parseWithin 2 "ab" () = .completed ⟨.ok (), 0, ()⟩ := by
  have accepts : ¬skipping.Refuses "ab" := fun refuses => absurd refuses.1 (Nat.lt_irrefl 0)
  have letter : (skipping.machine "ab").run 1 1 1 (Context.start ()) =
      .finished (.ok ⟨.text, "a"⟩) ⟨1, (), (0, 0), SeedTable.empty⟩ := rfl
  have skip : (skipping.machine "ab").run 1 1 2 ⟨1, (), (0, 0), SeedTable.empty⟩ =
      .finished (.ok ⟨.unit, ()⟩) ⟨0, (), (0, 0), SeedTable.empty⟩ := rfl
  have root : (skipping.machine "ab").run 2 1 0 (Context.start ()) =
      .finished (.ok ⟨.unit, ()⟩) ⟨0, (), (0, 0), SeedTable.empty⟩ := by
    have found : (skipping.machine "ab").grammar.nodes[0]? =
        some (.sequence [1, 2] (.pick 1)) := rfl
    rw [Machine.run_clause rfl found 1]
    simp only [Clause.run, runSequence, letter, skip, Reply.andThen_finished]
    rfl
  apply (parseWithin_of_accepts accepts 2 ()).trans
  exact congrArg (conclude 0) root

/-- The parse ends inside the input all the same, where the leaf left it. -/
theorem skipping_inside :
    exists result, skipping.parseWithin 2 "ab" () = .completed result ∧ result.consumed = 0 ∧
      result.consumed ≤ Stream.length (S := String) "ab" := by
  have reads : skipping.grammar.ReadsWithin "ab" := by
    intro id atom found
    match id with
    | 0 => cases found
    | 1 =>
        cases found
        exact Leaf.exact_readsWithin (L := plainText) "ab" "a"
    | 2 =>
        cases found
        trivial
    | _ + 3 => cases found
  have words : skipping.grammar.CountsWords := by
    intro id name act found input position state value count result
    match id with
    | 0 => cases found
    | 1 => cases found
    | 2 =>
        cases found
        cases result
        decide
    | _ + 3 => cases found
  refine ⟨⟨.ok (), 0, ()⟩, skipping_parses, rfl, ?_⟩
  exact (positions_inside skipping "ab" () reads words).2 2 _ skipping_parses

end EntryPoint
end SeedGrammar
