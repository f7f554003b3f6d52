import SeedGrammar.Proofs.Engine.Trace

namespace SeedGrammar

/-!
# The history of a seed

Seeds outlive every undoing, so the seeds at some moment of a parse depend on
everything that happened before.  Seen from one node and one position the
history is simple.  Only a left recursion that finds no seed there plants one,
and only its own growth replaces it.  After the growth has ended the seed
stays what it is for the rest of the parse.

The first part follows one key through a dialogue: every clause passes on the
seed that it was given or that the latest call left, except where it plants
one.  The second part follows it through runs and traces.  The third part says
what growth leaves behind: the seed is what the growth came to, unless that is
a failure that got farther than the seed.
-/

variable {L : Signature}

/-- The seed of a node at a position, both given by one key. -/
def Context.seedAt (context : Context L) (key : NodeId × Nat) : Option (Seed L) :=
  context.seeds.get? key.1 key.2

namespace Context

/-- The context with a seed planted or replaced. -/
def withSeed (context : Context L) (key : NodeId × Nat) (seed : Seed L) : Context L :=
  { context with seeds := context.seeds.set key.1 key.2 seed }

theorem seedAt_withSeed_self (context : Context L) (key : NodeId × Nat) (seed : Seed L) :
    (context.withSeed key seed).seedAt key = some seed :=
  SeedTable.get?_set_self context.seeds key.1 key.2 seed

theorem seedAt_withSeed_of_ne (context : Context L) {key other : NodeId × Nat} (seed : Seed L)
    (foreign : key ≠ other) : (context.withSeed other seed).seedAt key = context.seedAt key :=
  SeedTable.get?_set_of_ne context.seeds seed foreign

end Context

/-- Whether calls leave a seed alone that they find at a key. -/
def Caller.Keeps {α : Type} (key : NodeId × Nat) (seed : Seed L) (call : Caller L α) : Prop :=
  forall operand context outcome after, context.seedAt key = some seed ->
    call operand context = .finished outcome after -> after.seedAt key = some seed

theorem Leaf.run_seeds (input : L.Input) (self : NodeId) (atom : Leaf L PatternProgram)
    (context : Context L) : (atom.run input self context).2.seeds = context.seeds := by
  cases atom with
  | exact literal =>
      rw [run]
      split <;> rfl
  | charset set label read =>
      simp only [run]
      split
      · split <;> rfl
      · rfl
  | pattern source program text =>
      simp only [run]
      split
      · rfl
      · split <;> rfl
  | empty => rfl
  | eof =>
      simp only [run]
      split <;> rfl
  | fail message payload => rfl
  | custom name act =>
      simp only [run]
      split <;> rfl

namespace Dialogue

variable {α β γ : Type} {key : NodeId × Nat}

/-- Whether a dialogue that starts with some seed at a key, or with none,
passes on at each call and at its end the seed that was there before. -/
def Carries (key : NodeId × Nat) : Dialogue L α β -> Option (Seed L) -> Prop
  | answered reply, seed =>
    forall answer context, reply = .finished answer context -> context.seedAt key = seed
  | ask _ context next, seed =>
    context.seedAt key = seed ∧
      forall outcome after, (next outcome after).Carries key (after.seedAt key)

theorem carries_finished {answer : β} {context : Context L} {seed : Option (Seed L)}
    (same : context.seedAt key = seed) :
    (answered (.finished answer context) : Dialogue L α β).Carries key seed := by
  intro _ _ isReply
  cases isReply
  exact same

theorem carries_faulted (fault : Fault) (seed : Option (Seed L)) :
    (answered (.faulted fault) : Dialogue L α β).Carries key seed := by
  intro _ _ isReply
  cases isReply

theorem carries_halted (error : ParseError L.Payload) (place : Context L)
    (seed : Option (Seed L)) :
    (answered (.halted error place) : Dialogue L α β).Carries key seed := by
  intro _ _ isReply
  cases isReply

theorem carries_exhausted (seed : Option (Seed L)) :
    (answered .exhausted : Dialogue L α β).Carries key seed := by
  intro _ _ isReply
  cases isReply

theorem finishWith_carries (self : NodeId) (value : Option (Value L)) (context : Context L) :
    (answered (finishWith self value context) : Dialogue L α (Outcome L)).Carries key
      (context.seedAt key) := by
  cases value with
  | some value => exact carries_finished rfl
  | none => exact carries_faulted _ _

theorem finishGathered_carries (self : NodeId) (gather : Gather L.Kind) (values : Values L)
    (context : Context L) :
    (answered (finishGathered self gather values context) :
      Dialogue L α (Outcome L)).Carries key (context.seedAt key) := by
  cases values with
  | error error => exact carries_finished rfl
  | ok values => exact finishWith_carries self (gather.collect values) context

theorem carries_andThen {dialogue : Dialogue L α β} {rest : β -> Context L -> Dialogue L α γ}
    {seed : Option (Seed L)} (carries : dialogue.Carries key seed)
    (continued : forall answer context,
      (rest answer context).Carries key (context.seedAt key)) :
    (dialogue.andThen rest).Carries key seed := by
  induction dialogue generalizing seed with
  | answered reply =>
      cases reply with
      | finished answer context =>
          rw [<- carries answer context rfl]
          exact continued answer context
      | halted error place => exact carries_halted error place seed
      | faulted fault => exact carries_faulted fault seed
      | exhausted => exact carries_exhausted seed
  | ask operand context next inductionHypothesis =>
      exact ⟨carries.1, fun outcome after =>
        inductionHypothesis outcome after (carries.2 outcome after)⟩

theorem sequence_carries (items : List α) (context : Context L) :
    (sequence items context).Carries key (context.seedAt key) := by
  induction items generalizing context with
  | nil => exact carries_finished rfl
  | cons item rest inductionHypothesis =>
      refine ⟨rfl, ?_⟩
      intro outcome after
      cases outcome with
      | error error => exact carries_finished rfl
      | ok value =>
          apply carries_andThen (inductionHypothesis after)
          intro values last
          exact carries_finished rfl

theorem choice_carries (self : NodeId) (start : Snapshot L)
    (last : Option (ParseError L.Payload)) (alts : List α) (context : Context L) :
    (choice self start last alts context).Carries key (context.seedAt key) := by
  induction alts generalizing last context with
  | nil =>
      cases last with
      | some error => exact carries_finished rfl
      | none => exact carries_faulted _ _
  | cons alt rest inductionHypothesis =>
      rw [choice]
      refine ⟨rfl, ?_⟩
      intro outcome after
      cases outcome with
      | ok value => exact carries_finished rfl
      | error error =>
          by_cases stayed : after.position = start.position
          · simp only [if_pos stayed]
            exact inductionHypothesis (some error) (after.restore start)
          · simp only [if_neg stayed]
            exact carries_finished rfl

theorem repeated_carries (keepState : Bool) (inner : α) (min : Nat) (max : Option Nat)
    (rounds : Nat) (values : List (Value L)) (context : Context L) :
    (repeated keepState inner min max rounds values context).Carries key
      (context.seedAt key) := by
  induction rounds generalizing values context with
  | zero => exact carries_exhausted _
  | succ rounds inductionHypothesis =>
      rw [repeated]
      by_cases full : max.any (· ≤ values.length) = true
      · rw [if_pos full]
        exact carries_finished rfl
      · rw [if_neg full]
        refine ⟨rfl, ?_⟩
        intro outcome after
        cases outcome with
        | ok value =>
            by_cases idle : after.position = context.position ∧ min ≤ values.length + 1
            · simp only [if_pos idle]
              exact carries_finished rfl
            · simp only [if_neg idle]
              exact inductionHypothesis (value :: values) after
        | error error =>
            by_cases final : after.position ≠ context.position ∨ values.length < min
            · simp only [if_pos final]
              exact carries_finished rfl
            · simp only [if_neg final]
              exact carries_finished rfl

/-- Growth replaces no seed but its own. -/
theorem growth_carries {self : NodeId} {start : Snapshot L}
    (foreign : key ≠ (self, start.position)) (inner : α) (rounds : Nat) (context : Context L) :
    (growth self inner start rounds context).Carries key (context.seedAt key) := by
  induction rounds generalizing context with
  | zero => exact carries_exhausted _
  | succ rounds inductionHypothesis =>
      refine ⟨rfl, ?_⟩
      intro outcome after
      dsimp only
      cases after.seeds.get? self start.position with
      | none => exact carries_faulted _ _
      | some seed =>
          by_cases shorter : after.position ≤ seed.position
          · simp only [if_pos shorter]
            exact carries_finished rfl
          · simp only [if_neg shorter]
            cases outcome with
            | error error => exact carries_finished rfl
            | ok value =>
                rw [<- after.seedAt_withSeed_of_ne ⟨after.position, after.state, .ok value⟩
                  foreign]
                exact inductionHypothesis _

/-- If calls keep a seed that they find, and a dialogue carries it, then all its
calls find it and it is there at the end. -/
theorem keeps_of_carries {call : Caller L α} {seed : Seed L}
    (keeps : call.Keeps key seed)
    {dialogue : Dialogue L α β} (carries : dialogue.Carries key (some seed)) :
    (forall made, made ∈ dialogue.calls call -> made.2.seedAt key = some seed) ∧
      forall answer last, dialogue.run call = .finished answer last ->
        last.seedAt key = some seed := by
  induction dialogue with
  | answered reply =>
      constructor
      · intro made member
        cases member
      · exact carries
  | ask operand context next inductionHypothesis =>
      have continued : forall outcome after, call operand context = .finished outcome after ->
          (next outcome after).Carries key (some seed) := by
        intro outcome after reply
        rw [<- keeps operand context outcome after carries.1 reply]
        exact carries.2 outcome after
      constructor
      · intro made member
        rcases mem_calls_ask.mp member with first | ⟨outcome, after, reply, later⟩
        · rw [first]
          exact carries.1
        · exact (inductionHypothesis outcome after (continued outcome after reply)).1 made later
      · intro answer last ends
        rcases run_ask_finished ends with ⟨outcome, after, reply, rest⟩
        exact (inductionHypothesis outcome after (continued outcome after reply)).2
          answer last rest

/-- A seed that one call of a dialogue leaves behind is found by all calls
after it, and is there at the end. -/
theorem seed_after_call {call : Caller L α} {seed : Seed L} (keeps : call.Keeps key seed)
    {dialogue : Dialogue L α β} {before : Option (Seed L)}
    (carries : dialogue.Carries key before) :
    ((dialogue.calls call).Pairwise fun made later =>
      exists outcome after, call made.1 made.2 = .finished outcome after ∧
        (after.seedAt key = some seed -> later.2.seedAt key = some seed)) ∧
      forall answer last, dialogue.run call = .finished answer last ->
        forall made, made ∈ dialogue.calls call ->
          exists outcome after, call made.1 made.2 = .finished outcome after ∧
            (after.seedAt key = some seed -> last.seedAt key = some seed) := by
  induction dialogue generalizing before with
  | answered reply =>
      constructor
      · exact List.Pairwise.nil
      · intro answer last _ made member
        cases member
  | ask operand context next inductionHypothesis =>
      by_cases finishes : exists outcome after, call operand context = .finished outcome after
      · rcases finishes with ⟨outcome, after, reply⟩
        have rest := inductionHypothesis outcome after (carries.2 outcome after)
        have follow : after.seedAt key = some seed ->
            (next outcome after).Carries key (some seed) := by
          intro left
          rw [<- left]
          exact carries.2 outcome after
        rw [calls_ask_finished next reply, run_ask, reply, Reply.andThen_finished]
        constructor
        · refine List.Pairwise.cons ?_ rest.1
          intro later member
          refine ⟨outcome, after, reply, ?_⟩
          intro left
          exact (keeps_of_carries keeps (follow left)).1 later member
        · intro answer last ends made member
          rcases List.mem_cons.mp member with first | later
          · subst first
            refine ⟨outcome, after, reply, ?_⟩
            intro left
            exact (keeps_of_carries keeps (follow left)).2 answer last ends
          · exact rest.2 answer last ends made later
      · have stuck : forall outcome after, call operand context ≠ .finished outcome after :=
          fun outcome after reply => finishes ⟨outcome, after, reply⟩
        rw [calls_ask_stuck next stuck]
        constructor
        · exact List.pairwise_singleton _ _
        · intro answer last ends made member
          rcases run_ask_finished ends with ⟨outcome, after, reply, _⟩
          exact absurd reply (stuck outcome after)

/-- While a seed is there, growth finds one at each call. -/
theorem growth_finds_seed {call : Caller L α} {self : NodeId} {start : Snapshot L}
    (keeps : forall seed, call.Keeps (self, start.position) seed)
    (inner : α) (rounds : Nat) {context : Context L} {seed : Seed L}
    (planted : context.seedAt (self, start.position) = some seed) :
    forall made, made ∈ (growth self inner start rounds context).calls call ->
      exists found, made.2.seedAt (self, start.position) = some found := by
  induction rounds generalizing context seed with
  | zero =>
      intro made member
      cases member
  | succ rounds inductionHypothesis =>
      intro made member
      rcases mem_calls_ask.mp member with first | ⟨outcome, after, reply, later⟩
      · rw [first]
        exact ⟨seed, planted⟩
      · have left : after.seeds.get? self start.position = some seed :=
          keeps seed inner (context.restore start) outcome after planted reply
        simp only [left] at later
        by_cases shorter : after.position ≤ seed.position
        · rw [if_pos shorter] at later
          cases later
        · rw [if_neg shorter] at later
          cases outcome with
          | error error => cases later
          | ok value =>
              exact inductionHypothesis
                (after.seedAt_withSeed_self (self, start.position)
                  ⟨after.position, after.state, .ok value⟩) made later

end Dialogue

/-- A clause that is not a left recursion about to plant a seed at a key
carries the seed there. -/
theorem Clause.dialogue_carries {α : Type} {key : NodeId × Nat} (rounds : Nat) (input : L.Input)
    (writes : α -> Bool) (self : NodeId) (clause : Clause L PatternProgram α)
    (context : Context L)
    (plants : forall inner, clause = .leftRecursion inner -> key = (self, context.position) ->
      context.seedAt key ≠ none) :
    (clause.dialogue rounds input writes self context).Carries key (context.seedAt key) := by
  cases clause with
  | leaf atom =>
      apply Dialogue.carries_finished
      rw [Context.seedAt, atom.run_seeds input self context]
      rfl
  | map inner transform =>
      refine ⟨rfl, ?_⟩
      intro outcome after
      dsimp only
      split
      · exact Dialogue.carries_finished rfl
      · exact Dialogue.carries_faulted _ _
  | update inner next =>
      refine ⟨rfl, ?_⟩
      intro outcome after
      cases outcome with
      | error error => exact Dialogue.carries_finished rfl
      | ok value => exact Dialogue.carries_finished rfl
  | sequence items gather =>
      apply Dialogue.carries_andThen (Dialogue.sequence_carries items context)
      intro values after
      exact Dialogue.finishGathered_carries self gather values after
  | choice alts => exact Dialogue.choice_carries self context.snapshot none alts context
  | optional inner element =>
      refine ⟨rfl, ?_⟩
      intro outcome after
      cases outcome with
      | ok value => exact Dialogue.finishWith_carries self _ after
      | error error =>
          dsimp only
          split
          · exact Dialogue.carries_finished rfl
          · exact Dialogue.carries_finished rfl
  | attempt inner =>
      refine ⟨rfl, ?_⟩
      intro outcome after
      cases outcome with
      | ok value => exact Dialogue.carries_finished rfl
      | error error => exact Dialogue.carries_finished rfl
  | lookahead inner look negative =>
      refine ⟨rfl, ?_⟩
      intro outcome middle
      cases outcome with
      | error error => exact Dialogue.carries_finished rfl
      | ok value =>
          refine ⟨rfl, ?_⟩
          intro looked after
          dsimp only
          split
          · exact Dialogue.carries_finished rfl
          · exact Dialogue.carries_finished rfl
  | repeated inner element min max =>
      apply Dialogue.carries_andThen
        (Dialogue.repeated_carries (!writes inner) inner min max rounds [] context)
      intro values after
      exact Dialogue.finishGathered_carries self (.list element) values after
  | reference name expected target => exact Dialogue.carries_faulted _ _
  | leftRecursion inner =>
      rw [Clause.dialogue]
      cases found : context.seeds.get? self context.position with
      | some seed => exact Dialogue.carries_finished rfl
      | none =>
          have foreign : key ≠ (self, context.position) := by
            intro own
            apply plants inner rfl own
            rw [own]
            exact found
          rw [<- context.seedAt_withSeed_of_ne
            ⟨context.position, context.state,
              .error ((ParseError.bare context.position).withNode self)⟩ foreign]
          exact Dialogue.growth_carries foreign inner rounds _

/-! ## Runs and traces -/

namespace Event

/-- The context at the moment of an event. -/
def context : Event L -> Context L
  | entered _ _ context => context
  | finished _ _ _ _ after => after

/-- Whether the seed at a key is the given one at an event, and was when the
node of the event was entered. -/
def Finds (key : NodeId × Nat) (seed : Seed L) : Event L -> Prop
  | entered _ _ context => context.seedAt key = some seed
  | finished _ _ first _ after =>
    first.seedAt key = some seed ∧ after.seedAt key = some seed

/-- Whether an event is the end of a call that found no seed at the key of its
node and position, and leaves the given one. -/
def Leaves (key : NodeId × Nat) (seed : Seed L) : Event L -> Prop
  | entered _ _ _ => False
  | finished _ id first _ after =>
    key = (id, first.position) ∧ first.seedAt key = none ∧ after.seedAt key = some seed

/-- Whether an event is the end of a call that found no seed at a key, and
leaves the given one. -/
def Brings (key : NodeId × Nat) (seed : Seed L) : Event L -> Prop
  | entered _ _ _ => False
  | finished _ _ first _ after => first.seedAt key = none ∧ after.seedAt key = some seed

theorem Leaves.brings {key : NodeId × Nat} {seed : Seed L} {event : Event L}
    (leaves : event.Leaves key seed) : event.Brings key seed := by
  cases event with
  | entered depth id context => cases leaves
  | finished depth id first outcome after => exact leaves.2

theorem Finds.context {key : NodeId × Nat} {seed : Seed L} {event : Event L}
    (finds : event.Finds key seed) : event.context.seedAt key = some seed := by
  cases event with
  | entered depth id context => exact finds
  | finished depth id first outcome after => exact finds.2

theorem Finds.not_brings {key : NodeId × Nat} {found seed : Seed L} {event : Event L}
    (finds : event.Finds key found) : ¬event.Brings key seed := by
  cases event with
  | entered depth id context =>
      intro brings
      cases brings
  | finished depth id first outcome after =>
      intro brings
      have both := finds.1.symm.trans brings.1
      cases both

end Event

namespace Machine

variable {machine : Machine L} {key : NodeId × Nat} {seed : Seed L}

theorem dialogue_carries (rounds depth : Nat) {id : NodeId} {context : Context L}
    (plants : forall inner, machine.grammar.nodes[id]? = some (.leftRecursion inner) ->
      key = (id, context.position) -> context.seedAt key ≠ none) :
    (machine.dialogue rounds depth id context).Carries key (context.seedAt key) := by
  rw [dialogue]
  by_cases trips : 0 < machine.maxDepth ∧ machine.maxDepth < depth
  · rw [if_pos trips]
    exact Dialogue.carries_halted _ _ _
  · rw [if_neg trips]
    cases found : machine.grammar.nodes[id]? with
    | none => exact Dialogue.carries_faulted _ _
    | some clause =>
        apply Clause.dialogue_carries
        intro inner isRecursion
        rw [isRecursion] at found
        exact plants inner found

theorem dialogue_carries_seed (machine : Machine L) (rounds depth : Nat) (id : NodeId) {context : Context L}
    (planted : context.seedAt key = some seed) :
    (machine.dialogue rounds depth id context).Carries key (some seed) := by
  rw [<- planted]
  apply dialogue_carries
  intro _ _ _ none
  rw [planted] at none
  cases none

/-- A seed that is there when a node is entered is there when it is left. -/
theorem run_keeps_seed {steps depth : Nat} {id : NodeId} {context after : Context L}
    {outcome : Outcome L} (planted : context.seedAt key = some seed)
    (ends : machine.run steps depth id context = .finished outcome after) :
    after.seedAt key = some seed := by
  induction steps generalizing depth id context outcome after with
  | zero => cases ends
  | succ steps inductionHypothesis =>
      rw [run_succ] at ends
      have carries := machine.dialogue_carries_seed steps depth id planted
      have keeps : Caller.Keeps key seed (machine.run steps (depth + 1)) :=
        fun _ _ _ _ found reply => inductionHypothesis found reply
      exact (Dialogue.keeps_of_carries keeps carries).2 outcome after ends

theorem run_keeps (machine : Machine L) (steps depth : Nat) :
    Caller.Keeps key seed (machine.run steps depth) := by
  intro _ _ _ _ planted ends
  exact run_keeps_seed planted ends

/-- A seed that is there when a node is entered is there at all events until
the node is left. -/
theorem trace_finds_seed {steps depth : Nat} {id : NodeId} {context : Context L}
    (planted : context.seedAt key = some seed) :
    forall event, event ∈ machine.trace steps depth id context -> event.Finds key seed := by
  induction steps generalizing depth id context with
  | zero =>
      intro event member
      cases member
  | succ steps inductionHypothesis =>
      intro event member
      have carries := machine.dialogue_carries_seed steps depth id planted
      have calls := (Dialogue.keeps_of_carries (machine.run_keeps steps (depth + 1)) carries).1
      rcases mem_trace_succ.mp member with
        own | ⟨made, isCall, inner⟩ | ⟨outcome, after, ends, last⟩
      · rw [own]
        exact planted
      · exact inductionHypothesis (calls made isCall) event inner
      · rw [last]
        exact ⟨planted, run_keeps_seed planted ends⟩

/-- A node that plants a seed calls its operand only while the seed is there. -/
theorem calls_find_planted {inner : NodeId} {steps depth : Nat} {id : NodeId}
    {context : Context L}
    (isRecursion : machine.grammar.nodes[id]? = some (.leftRecursion inner))
    (absent : context.seedAt (id, context.position) = none)
    {made : NodeId × Context L} (isCall : made ∈ machine.callsOf steps depth id context) :
    exists found, made.2.seedAt (id, context.position) = some found := by
  rw [callsOf, dialogue] at isCall
  by_cases trips : 0 < machine.maxDepth ∧ machine.maxDepth < depth
  · rw [if_pos trips] at isCall
    cases isCall
  · have none : context.seeds.get? id context.position = none := absent
    rw [if_neg trips, isRecursion] at isCall
    simp only [Clause.dialogue, none] at isCall
    exact Dialogue.growth_finds_seed (fun _ => machine.run_keeps steps (depth + 1)) inner steps
      (context.seedAt_withSeed_self (id, context.position) _) made isCall

/-- No call below a node that plants a seed can find none. -/
theorem trace_finds_planted {inner : NodeId} {steps depth : Nat} {id : NodeId}
    {context : Context L}
    (isRecursion : machine.grammar.nodes[id]? = some (.leftRecursion inner))
    (absent : context.seedAt (id, context.position) = none)
    {made : NodeId × Context L} (isCall : made ∈ machine.callsOf steps depth id context) :
    exists found, forall event, event ∈ machine.trace steps (depth + 1) made.1 made.2 ->
      event.Finds (id, context.position) found := by
  rcases calls_find_planted isRecursion absent isCall with ⟨found, planted⟩
  exact ⟨found, trace_finds_seed planted⟩

/-- What a call brings at a key, having found nothing there, is there at all
later events and at the end. -/
theorem trace_keeps_seed {steps depth : Nat} {id : NodeId} {context : Context L} :
    ((machine.trace steps depth id context).Pairwise fun earlier later =>
      earlier.Brings key seed -> later.context.seedAt key = some seed) ∧
    forall event, event ∈ machine.trace steps depth id context -> event.Brings key seed ->
      forall outcome last, machine.run steps depth id context = .finished outcome last ->
        last.seedAt key = some seed := by
  induction steps generalizing depth id context with
  | zero =>
      constructor
      · exact List.Pairwise.nil
      · intro event member
        cases member
  | succ steps inductionHypothesis =>
      -- Either the node itself works on the seed, and no call below it can be
      -- one that found nothing, or it passes on what its calls leave.
      have passedOn :
          ((machine.callsOf steps depth id context).Pairwise fun made later =>
            forall event, event ∈ machine.trace steps (depth + 1) made.1 made.2 ->
              event.Brings key seed -> later.2.seedAt key = some seed) ∧
          forall made, made ∈ machine.callsOf steps depth id context ->
            forall event, event ∈ machine.trace steps (depth + 1) made.1 made.2 ->
              event.Brings key seed -> forall outcome last,
                machine.run (steps + 1) depth id context = .finished outcome last ->
                  last.seedAt key = some seed := by
        by_cases plants : exists inner,
            machine.grammar.nodes[id]? = some (.leftRecursion inner) ∧
              key = (id, context.position) ∧ context.seedAt key = none
        · rcases plants with ⟨inner, isRecursion, rfl, absent⟩
          have below : forall made, made ∈ machine.callsOf steps depth id context ->
              forall event, event ∈ machine.trace steps (depth + 1) made.1 made.2 ->
                ¬event.Brings (id, context.position) seed := by
            intro made isCall event member
            rcases trace_finds_planted isRecursion absent isCall with ⟨found, finds⟩
            exact (finds event member).not_brings
          constructor
          · apply List.pairwise_of_forall_mem_list
            intro made isCall later _ event member brings
            exact absurd brings (below made isCall event member)
          · intro made isCall event member brings
            exact absurd brings (below made isCall event member)
        · have carries : (machine.dialogue steps depth id context).Carries key
              (context.seedAt key) := by
            apply dialogue_carries
            intro inner isRecursion own absent
            exact plants ⟨inner, isRecursion, own, absent⟩
          have keeps : Caller.Keeps key seed (machine.run steps (depth + 1)) :=
            machine.run_keeps steps (depth + 1)
          have after := Dialogue.seed_after_call keeps carries
          constructor
          · apply after.1.imp
            rintro made later ⟨outcome, place, reply, passes⟩ event member brings
            exact passes (inductionHypothesis.2 event member brings outcome place reply)
          · intro made isCall event member brings outcome last ends
            rw [run_succ] at ends
            rcases after.2 outcome last ends made isCall with ⟨_, place, reply, passes⟩
            exact passes (inductionHypothesis.2 event member brings _ place reply)
      constructor
      · apply pairwise_trace_succ
        · intro event _ brings
          cases brings
        · intro made _
          exact inductionHypothesis.1
        · apply passedOn.1.imp
          intro made later found event member other otherMember brings
          exact (trace_finds_seed (found event member brings) other otherMember).context
        · intro made isCall event member outcome after ends brings
          exact passedOn.2 made isCall event member brings outcome after ends
      · intro event member brings outcome last ends
        rcases mem_trace_succ.mp member with
          own | ⟨made, isCall, inner⟩ | ⟨outcome', after, ends', own⟩
        · rw [own] at brings
          cases brings
        · exact passedOn.2 made isCall event inner brings outcome last ends
        · rw [own] at brings
          rw [ends] at ends'
          cases ends'
          exact brings.2

/-- The same of two events given by their places in the trace. -/
theorem seedAt_of_left_before {steps depth : Nat} {id : NodeId} {context : Context L}
    {earlier later : Event L} {i j : Nat} (ordered : i < j)
    (isEarlier : (machine.trace steps depth id context)[i]? = some earlier)
    (isLater : (machine.trace steps depth id context)[j]? = some later)
    (leaves : earlier.Leaves key seed) : later.context.seedAt key = some seed := by
  rcases List.getElem?_eq_some_iff.mp isEarlier with ⟨iBound, rfl⟩
  rcases List.getElem?_eq_some_iff.mp isLater with ⟨jBound, rfl⟩
  exact List.pairwise_iff_getElem.mp trace_keeps_seed.1 i j iBound jBound ordered leaves.brings

end Machine
end SeedGrammar
