import SeedGrammar.Proofs.Engine.Positions
import SeedGrammar.Proofs.Engine.Recall

namespace SeedGrammar

/-!
# Seeds only grow

All left recursions of a parse share one table of seeds, and nothing that is undone is
undone there.  The table can be followed by a relation between two moments: `GrowsInto` says
that every seed of the first one is still there in the second one, and that it is the same or
reaches farther.  It is a preorder, each clause respects it from one call to the next
(`Dialogue.OnlyGrows`), and therefore any two moments of a parse are related
(`Machine.trace_precedes`).  The relation includes that seeds are what growth makes of them,
because that a new seed reaches farther than its start is due to the seed before it.

A left recursion runs its operand once more only if the seed has advanced.  Seeds end inside
the input, so this happens at most as often as there are places between the start and the
end.  No other call runs the operand at the same position, since it would find the seed.
-/

variable {L : Signature}

/-- Whether a seed is another one or reaches farther. -/
def Seed.Outgrows (seed before : Seed L) : Prop :=
  seed = before ∨ before.position < seed.position

theorem Seed.Outgrows.trans {first second third : Seed L} (later : third.Outgrows second)
    (earlier : second.Outgrows first) : third.Outgrows first := by
  rcases later with rfl | later
  · exact earlier
  · rcases earlier with rfl | earlier
    · exact Or.inr later
    · exact Or.inr (Nat.lt_trans earlier later)

namespace Context

/-- Whether all seeds are as growth makes them. -/
def Grown (context : Context L) : Prop :=
  forall key seed, context.seedAt key = some seed -> seed.GrownFrom key.2

/-- Whether nothing happened to the seeds of a context but growth. -/
structure GrowsInto (first later : Context L) : Prop where
  grown : first.Grown -> later.Grown
  seeds : forall key seed, first.seedAt key = some seed ->
    exists grown, later.seedAt key = some grown ∧ grown.Outgrows seed

theorem start_grown (state : L.State) : (Context.start state).Grown := by
  intro key seed planted
  cases planted

namespace GrowsInto

variable {first middle last : Context L}

theorem trans (before : first.GrowsInto middle) (after : middle.GrowsInto last) :
    first.GrowsInto last where
  grown isGrown := after.grown (before.grown isGrown)
  seeds key seed planted := by
    rcases before.seeds key seed planted with ⟨grown, planted, outgrows⟩
    rcases after.seeds key grown planted with ⟨last, planted, outgrows'⟩
    exact ⟨last, planted, outgrows'.trans outgrows⟩

theorem of_same (same : forall key, last.seedAt key = first.seedAt key) :
    first.GrowsInto last where
  grown isGrown key seed planted := isGrown key seed (same key ▸ planted)
  seeds key seed planted := ⟨seed, (same key).trans planted, Or.inl rfl⟩

theorem refl : first.GrowsInto first :=
  of_same fun _ => rfl

theorem present (grows : first.GrowsInto last) {key : NodeId × Nat}
    (there : first.seedAt key ≠ none) : last.seedAt key ≠ none := by
  rcases Option.ne_none_iff_exists'.mp there with ⟨seed, planted⟩
  rcases grows.seeds key seed planted with ⟨grown, planted, _⟩
  rw [planted]
  exact Option.some_ne_none grown

/-- A seed may be replaced by one that outgrows it. -/
theorem replaced {key : NodeId × Nat} {seed : Seed L}
    (grown : first.Grown -> seed.GrownFrom key.2)
    (outgrows : forall before, first.seedAt key = some before -> seed.Outgrows before) :
    first.GrowsInto (first.withSeed key seed) where
  grown isGrown other found planted := by
    by_cases same : other = key
    · subst same
      rw [seedAt_withSeed_self] at planted
      cases planted
      exact grown isGrown
    · rw [seedAt_withSeed_of_ne _ _ same] at planted
      exact isGrown other found planted
  seeds other before planted := by
    by_cases same : other = key
    · subst same
      exact ⟨seed, seedAt_withSeed_self .., outgrows before planted⟩
    · exact ⟨before, (seedAt_withSeed_of_ne _ _ same).trans planted, Or.inl rfl⟩

end GrowsInto
end Context

/-- The first seed is a failure where it starts. -/
theorem Seed.planted_grownFrom (start : Snapshot L) (error : ParseError L.Payload) :
    Seed.GrownFrom start.position ⟨start.position, start.state, .error error⟩ where
  reached := Nat.le_refl _
  fails_iff := ⟨fun _ => rfl, fun _ => ⟨error, rfl⟩⟩

namespace Seed.GrownFrom

variable {start : Nat} {seed : Seed L}

/-- A match that got farther than a seed is the next one. -/
theorem next (grown : seed.GrownFrom start) {position : Nat} (farther : seed.position < position)
    (state : L.State) (value : Value L) : Seed.GrownFrom start ⟨position, state, .ok value⟩ where
  reached := Nat.le_of_lt (Nat.lt_of_le_of_lt grown.reached farther)
  fails_iff := by
    have advanced : start < position := Nat.lt_of_le_of_lt grown.reached farther
    constructor
    · rintro ⟨_, isError⟩
      cases isError
    · intro stayed
      exact absurd stayed (Nat.ne_of_gt advanced)

/-- A seed is a success exactly if it has advanced. -/
theorem succeeds_iff (grown : seed.GrownFrom start) :
    (exists value, seed.outcome = .ok value) ↔ start < seed.position := by
  have fails_iff := grown.fails_iff
  cases isOutcome : seed.outcome with
  | ok value =>
      have advanced : seed.position ≠ start := by
        intro stayed
        rcases isOutcome ▸ fails_iff.mpr stayed with ⟨_, isError⟩
        cases isError
      constructor
      · intro _
        exact Nat.lt_of_le_of_ne grown.reached (Ne.symm advanced)
      · intro _
        exact ⟨value, rfl⟩
  | error error =>
      have stayed : seed.position = start := fails_iff.mp ⟨error, isOutcome⟩
      constructor
      · rintro ⟨_, isValue⟩
        cases isValue
      · intro advanced
        exact absurd stayed (Nat.ne_of_gt advanced)

end Seed.GrownFrom

/-! ## From call to call -/

namespace Dialogue

variable {α β : Type}

/-- Whether a dialogue that starts in a context only lets seeds grow between one call and
the next, and before its end. -/
def OnlyGrows : Dialogue L α β -> Context L -> Prop
  | answered reply, first =>
    forall answer last, reply = .finished answer last -> first.GrowsInto last
  | ask _ context next, first =>
    first.GrowsInto context ∧ forall outcome after, (next outcome after).OnlyGrows after

theorem OnlyGrows.of_growsInto {dialogue : Dialogue L α β} {first middle : Context L}
    (grows : first.GrowsInto middle) (onlyGrows : dialogue.OnlyGrows middle) :
    dialogue.OnlyGrows first := by
  cases dialogue with
  | answered reply =>
      intro answer last ends
      exact grows.trans (onlyGrows answer last ends)
  | ask operand context next => exact ⟨grows.trans onlyGrows.1, onlyGrows.2⟩

/-- To pass on all seeds is to let none of them change. -/
theorem onlyGrows_of_carries {dialogue : Dialogue L α β} {first : Context L}
    (carries : forall key, dialogue.Carries key (first.seedAt key)) :
    dialogue.OnlyGrows first := by
  induction dialogue generalizing first with
  | answered reply =>
      intro answer last ends
      exact .of_same fun key => carries key answer last ends
  | ask operand context next inductionHypothesis =>
      refine ⟨.of_same fun key => (carries key).1, ?_⟩
      intro outcome after
      exact inductionHypothesis outcome after fun key => (carries key).2 outcome after

/-- Growth replaces its seed by one that reaches farther. -/
theorem growth_onlyGrows (self : NodeId) (inner : α) (start : Snapshot L) (rounds : Nat)
    (context : Context L) : (growth self inner start rounds context).OnlyGrows context := by
  induction rounds generalizing context with
  | zero =>
      intro answer last ends
      cases ends
  | succ rounds inductionHypothesis =>
      refine ⟨.of_same fun _ => rfl, ?_⟩
      intro outcome after
      dsimp only
      cases planted : after.seeds.get? self start.position with
      | none =>
          intro answer last ends
          cases ends
      | some seed =>
          dsimp only
          by_cases shorter : after.position ≤ seed.position
          · rw [if_pos shorter]
            intro answer last ends
            cases ends
            exact .of_same fun _ => rfl
          · rw [if_neg shorter]
            have farther : seed.position < after.position := Nat.lt_of_not_le shorter
            cases outcome with
            | error error =>
                intro answer last ends
                cases ends
                exact .refl
            | ok value =>
                refine .of_growsInto (.replaced ?_ ?_)
                  (inductionHypothesis (after.withSeed (self, start.position) _))
                · intro isGrown
                  exact (isGrown (self, start.position) seed planted).next farther _ _
                · intro before found
                  cases planted.symm.trans found
                  exact Or.inr farther

/-- If calls only let seeds grow, and a dialogue does so in between, then it does so all the
way. -/
theorem growsInto_of_onlyGrows {call : Caller L α}
    (grows : forall operand context outcome after, call operand context = .finished outcome after ->
      context.GrowsInto after)
    {dialogue : Dialogue L α β} {first : Context L} (onlyGrows : dialogue.OnlyGrows first) :
    (forall made, made ∈ dialogue.calls call -> first.GrowsInto made.2) ∧
    ((dialogue.calls call).Pairwise fun made later =>
      exists outcome after, call made.1 made.2 = .finished outcome after ∧
        after.GrowsInto later.2) ∧
    forall answer last, dialogue.run call = .finished answer last ->
      first.GrowsInto last ∧
        forall made, made ∈ dialogue.calls call ->
          exists outcome after, call made.1 made.2 = .finished outcome after ∧
            after.GrowsInto last := by
  induction dialogue generalizing first with
  | answered reply =>
      refine ⟨nofun, .nil, ?_⟩
      intro answer last ends
      exact ⟨onlyGrows answer last ends, nofun⟩
  | ask operand context next inductionHypothesis =>
      by_cases finishes : exists outcome after, call operand context = .finished outcome after
      · rcases finishes with ⟨outcome, after, reply⟩
        have throughCall := onlyGrows.1.trans (grows operand context outcome after reply)
        rcases inductionHypothesis outcome after (onlyGrows.2 outcome after) with
          ⟨isMade, between, atEnd⟩
        rw [calls_ask_finished next reply, run_ask, reply, Reply.andThen_finished]
        refine ⟨?_, .cons ?_ between, ?_⟩
        · intro made member
          rcases List.mem_cons.mp member with rfl | later
          · exact onlyGrows.1
          · exact throughCall.trans (isMade made later)
        · intro later member
          exact ⟨outcome, after, reply, isMade later member⟩
        · intro answer last ends
          rcases atEnd answer last ends with ⟨rest, fromCalls⟩
          refine ⟨throughCall.trans rest, ?_⟩
          intro made member
          rcases List.mem_cons.mp member with rfl | later
          · exact ⟨outcome, after, reply, rest⟩
          · exact fromCalls made later
      · have stuck : forall outcome after, call operand context ≠ .finished outcome after :=
          fun outcome after reply => finishes ⟨outcome, after, reply⟩
        rw [calls_ask_stuck next stuck]
        refine ⟨?_, List.pairwise_singleton _ _, ?_⟩
        · intro made member
          rw [List.mem_singleton.mp member]
          exact onlyGrows.1
        · intro answer last ends
          rcases run_ask_finished ends with ⟨outcome, after, reply, _⟩
          exact absurd reply (stuck outcome after)

/-- Growth runs its operand at most as often as its seed can advance, and once more. -/
theorem growth_calls_length_le {call : Caller L α} {self : NodeId} {start : Snapshot L} {limit : Nat}
    (keeps : forall seed, call.Keeps (self, start.position) seed) (inner : α) {rounds : Nat}
    {context : Context L} {seed : Seed L}
    (planted : context.seedAt (self, start.position) = some seed) (room : seed.position ≤ limit)
    (inside : forall made, made ∈ (growth self inner start rounds context).calls call ->
      forall outcome after, call made.1 made.2 = .finished outcome after -> after.position ≤ limit) :
    ((growth self inner start rounds context).calls call).length + seed.position ≤ limit + 1 := by
  induction rounds generalizing context seed with
  | zero => exact Nat.le_succ_of_le ((Nat.zero_add _).trans_le room)
  | succ rounds inductionHypothesis =>
      rw [growth] at inside ⊢
      by_cases finishes : exists outcome after,
          call inner (context.restore start) = .finished outcome after
      · rcases finishes with ⟨outcome, after, reply⟩
        have left : after.seeds.get? self start.position = some seed :=
          keeps seed inner (context.restore start) outcome after planted reply
        have here : after.position ≤ limit :=
          inside (inner, context.restore start) (mem_calls_ask.mpr (Or.inl rfl)) outcome after reply
        rw [calls_ask_finished _ reply] at inside ⊢
        simp only [left] at inside ⊢
        by_cases shorter : after.position ≤ seed.position
        · rw [if_pos shorter, List.length_cons, calls]
          exact Nat.add_comm limit 1 ▸ Nat.add_le_add_left room 1
        · rw [if_neg shorter] at inside ⊢
          cases outcome with
          | error error =>
              rw [List.length_cons, calls]
              exact Nat.add_comm limit 1 ▸ Nat.add_le_add_left room 1
          | ok value =>
              have rest := inductionHypothesis
                (after.seedAt_withSeed_self (self, start.position)
                  ⟨after.position, after.state, .ok value⟩) here
                (fun made later => inside made (List.mem_cons_of_mem _ later))
              have farther : seed.position < after.position := Nat.lt_of_not_le shorter
              rw [List.length_cons, Nat.add_assoc, Nat.add_comm 1]
              exact Nat.le_trans (Nat.add_le_add_left farther _) rest
      · rw [calls_ask_stuck _ fun outcome after reply => finishes ⟨outcome, after, reply⟩]
        exact Nat.add_comm limit 1 ▸ Nat.add_le_add_left room 1

end Dialogue

/-! ## From moment to moment -/

namespace Machine

variable {machine : Machine L}

/-- A left recursion plants its seed, and the others pass seeds on. -/
theorem dialogue_onlyGrows (machine : Machine L) (rounds depth : Nat) (id : NodeId)
    (context : Context L) : (machine.dialogue rounds depth id context).OnlyGrows context := by
  by_cases plants : exists inner, machine.grammar.nodes[id]? = some (.leftRecursion inner) ∧
      context.seedAt (id, context.position) = none
  · rcases plants with ⟨inner, isRecursion, absent⟩
    rw [dialogue]
    by_cases trips : 0 < machine.maxDepth ∧ machine.maxDepth < depth
    · rw [if_pos trips]
      intro answer last ends
      cases ends
    · have none : context.seeds.get? id context.position = none := absent
      rw [if_neg trips, isRecursion]
      simp only [Clause.dialogue, none]
      refine .of_growsInto (.replaced (fun _ => ?_) ?_)
        (Dialogue.growth_onlyGrows id inner context.snapshot rounds
          (context.withSeed (id, context.position) _))
      · exact Seed.planted_grownFrom context.snapshot _
      · intro before found
        cases absent.symm.trans found
  · apply Dialogue.onlyGrows_of_carries
    intro key
    apply dialogue_carries
    rintro inner isRecursion rfl absent
    exact plants ⟨inner, isRecursion, absent⟩

/-- Runs only let seeds grow. -/
theorem run_growsInto {steps depth : Nat} {id : NodeId} {context after : Context L}
    {outcome : Outcome L} (ends : machine.run steps depth id context = .finished outcome after) :
    context.GrowsInto after := by
  induction steps generalizing depth id context outcome after with
  | zero => cases ends
  | succ steps inductionHypothesis =>
      rw [run_succ] at ends
      have onlyGrows := machine.dialogue_onlyGrows steps depth id context
      exact ((Dialogue.growsInto_of_onlyGrows (fun _ _ _ _ => inductionHypothesis)
        onlyGrows).2.2 outcome after ends).1

/-- Seeds only grow from the start of a node to its calls, from the end of a call to later
ones, and from there to the end of the node. -/
theorem callsOf_growsInto {steps depth : Nat} {id : NodeId} {context : Context L} :
    (forall made, made ∈ machine.callsOf steps depth id context -> context.GrowsInto made.2) ∧
    ((machine.callsOf steps depth id context).Pairwise fun made later =>
      exists outcome after,
        machine.run steps (depth + 1) made.1 made.2 = .finished outcome after ∧
          after.GrowsInto later.2) ∧
    forall outcome last, machine.run (steps + 1) depth id context = .finished outcome last ->
      forall made, made ∈ machine.callsOf steps depth id context ->
        exists outcome after,
          machine.run steps (depth + 1) made.1 made.2 = .finished outcome after ∧
            after.GrowsInto last := by
  have calls : forall operand first outcome after,
      machine.run steps (depth + 1) operand first = .finished outcome after ->
        first.GrowsInto after := fun _ _ _ _ => run_growsInto
  rcases Dialogue.growsInto_of_onlyGrows calls (machine.dialogue_onlyGrows steps depth id context)
    with ⟨fromStart, between, toEnd⟩
  refine ⟨fromStart, between, ?_⟩
  intro outcome last ends
  rw [run_succ] at ends
  exact (toEnd outcome last ends).2

/-- Whether a moment may come after an event: seeds have only grown since, and if the event
was that a left recursion was entered, then there is a seed for it. -/
structure Precedes (machine : Machine L) (event : Event L) (later : Context L) : Prop where
  grows : event.context.GrowsInto later
  planted : forall depth id inner context, event = .entered depth id context ->
    machine.grammar.nodes[id]? = some (.leftRecursion inner) ->
      later.seedAt (id, context.position) ≠ none

theorem Precedes.trans {event : Event L} {middle later : Context L}
    (before : machine.Precedes event middle) (grows : middle.GrowsInto later) :
    machine.Precedes event later where
  grows := before.grows.trans grows
  planted depth id inner context isEvent isRecursion :=
    grows.present (before.planted depth id inner context isEvent isRecursion)

/-- While the operand of a left recursion is run, there is a seed for it. -/
theorem call_finds_seed {steps depth : Nat} {id inner : NodeId} {context : Context L}
    (isRecursion : machine.grammar.nodes[id]? = some (.leftRecursion inner))
    {made : NodeId × Context L} (isCall : made ∈ machine.callsOf steps depth id context) :
    made.2.seedAt (id, context.position) ≠ none := by
  cases planted : context.seedAt (id, context.position) with
  | some seed =>
      have carries := machine.dialogue_carries_seed steps depth id planted
      have finds := (Dialogue.keeps_of_carries (machine.run_keeps steps (depth + 1)) carries).1
      exact Option.ne_none_iff_exists'.mpr ⟨seed, finds made isCall⟩
  | none => exact Option.ne_none_iff_exists'.mpr (calls_find_planted isRecursion planted isCall)

/-- After a left recursion has come to an end, there is a seed for it. -/
theorem end_finds_seed {steps depth : Nat} {id inner : NodeId} {context after : Context L}
    {outcome : Outcome L}
    (isRecursion : machine.grammar.nodes[id]? = some (.leftRecursion inner))
    (ends : machine.run steps depth id context = .finished outcome after) :
    after.seedAt (id, context.position) ≠ none := by
  cases planted : context.seedAt (id, context.position) with
  | some seed => exact Option.ne_none_iff_exists'.mpr ⟨seed, run_keeps_seed planted ends⟩
  | none =>
      rcases run_recursion_leaves isRecursion planted ends with ⟨seed, leaves⟩
      exact Option.ne_none_iff_exists'.mpr ⟨seed, leaves.left⟩

/-- The moments of a run come after its start and after one another, and before its end. -/
theorem trace_precedes {steps depth : Nat} {id : NodeId} {context : Context L} :
    (forall event, event ∈ machine.trace steps depth id context ->
      context.GrowsInto event.context) ∧
    ((machine.trace steps depth id context).Pairwise fun earlier later =>
      machine.Precedes earlier later.context) ∧
    forall outcome after, machine.run steps depth id context = .finished outcome after ->
      forall event, event ∈ machine.trace steps depth id context ->
        machine.Precedes event after := by
  induction steps generalizing depth id context with
  | zero => exact ⟨nofun, .nil, nofun⟩
  | succ steps inductionHypothesis =>
      rcases @callsOf_growsInto L machine steps depth id context with ⟨fromStart, between, toEnd⟩
      have fromEntry : forall event,
          ((exists made, made ∈ machine.callsOf steps depth id context ∧
              event ∈ machine.trace steps (depth + 1) made.1 made.2) ∨
            exists outcome after,
              machine.run (steps + 1) depth id context = .finished outcome after ∧
                event = .finished depth id context outcome after) ->
          machine.Precedes (.entered depth id context) event.context := by
        rintro event (⟨made, isCall, below⟩ | ⟨outcome, after, ends, rfl⟩)
        · refine ⟨(fromStart made isCall).trans (inductionHypothesis.1 event below), ?_⟩
          rintro _ _ inner _ ⟨⟩ isRecursion
          exact (inductionHypothesis.1 event below).present (call_finds_seed isRecursion isCall)
        · refine ⟨run_growsInto ends, ?_⟩
          rintro _ _ inner _ ⟨⟩ isRecursion
          exact end_finds_seed isRecursion ends
      have beforeEnd : forall made, made ∈ machine.callsOf steps depth id context ->
          forall event, event ∈ machine.trace steps (depth + 1) made.1 made.2 ->
            forall outcome last, machine.run (steps + 1) depth id context = .finished outcome last ->
              machine.Precedes event last := by
        intro made isCall event below outcome last ends
        rcases toEnd outcome last ends made isCall with ⟨_, after, reply, grows⟩
        exact (inductionHypothesis.2.2 _ after reply event below).trans grows
      refine ⟨?_, pairwise_trace_succ fromEntry ?_ ?_ beforeEnd, ?_⟩
      · intro event member
        rcases mem_trace_succ.mp member with rfl | later
        · exact .refl
        · exact (fromEntry event later).grows
      · intro made _
        exact inductionHypothesis.2.1
      · apply between.imp
        rintro made later ⟨outcome, after, reply, grows⟩ event below other otherBelow
        exact (inductionHypothesis.2.2 outcome after reply event below).trans
          (grows.trans (inductionHypothesis.1 other otherBelow))
      · intro outcome after ends event member
        rcases mem_trace_succ.mp member with rfl | ⟨made, isCall, below⟩ | ⟨_, _, ends', rfl⟩
        · exact fromEntry (.finished depth id context outcome after)
            (Or.inr ⟨outcome, after, ends, rfl⟩)
        · exact beforeEnd made isCall event below outcome after ends
        · cases ends.symm.trans ends'
          exact ⟨.refl, nofun⟩

/-- Seeds are as growth makes them at all moments of a parse. -/
theorem trace_grown {steps : Nat} {root : NodeId} {state : L.State} {event : Event L}
    (member : event ∈ machine.trace steps 1 root (Context.start state)) : event.context.Grown :=
  (trace_precedes.1 event member).grown (Context.start_grown state)

/-- A left recursion that succeeds has advanced, if the seeds that it found are as growth
makes them. -/
theorem advances_of_recursion {steps depth : Nat} {id inner : NodeId} {context after : Context L}
    {value : Value L} (isRecursion : machine.grammar.nodes[id]? = some (.leftRecursion inner))
    (isGrown : context.Grown)
    (ends : machine.run steps depth id context = .finished (.ok value) after) :
    context.position < after.position := by
  cases planted : context.seedAt (id, context.position) with
  | some seed =>
      cases steps with
      | zero => cases ends
      | succ steps =>
          have there : context.seeds.get? id context.position = some seed := planted
          rw [run] at ends
          by_cases trips : 0 < machine.maxDepth ∧ machine.maxDepth < depth
          · rw [if_pos trips] at ends
            cases ends
          · rw [if_neg trips, isRecursion] at ends
            simp only [Clause.run, there, replay, Reply.finished.injEq] at ends
            rcases ends with ⟨isValue, rfl⟩
            exact (isGrown _ seed planted).succeeds_iff.mp ⟨value, isValue⟩
  | none =>
      rcases run_recursion_leaves isRecursion planted ends with ⟨seed, leaves⟩
      rcases leaves.answer with ⟨isValue, isEnd, _⟩ | ⟨⟨_, isError⟩, _⟩
      · rw [isEnd]
        exact leaves.grown.succeeds_iff.mp ⟨value, isValue.symm⟩
      · cases isError

/-! ## How often an operand is run -/

/-- The calls that a node makes when it is at a position, wherever in a run it is met
there. -/
def callsAt (machine : Machine L) (key : NodeId × Nat) :
    Nat -> Nat -> NodeId -> Context L -> List (NodeId × Context L)
  | 0, _, _, _ => []
  | steps + 1, depth, id, context =>
    (if (id, context.position) = key then machine.callsOf steps depth id context else []) ++
      (machine.callsOf steps depth id context).flatMap fun made =>
        machine.callsAt key steps (depth + 1) made.1 made.2

variable {key : NodeId × Nat} {inner : NodeId}

/-- A left recursion that finds its seed makes no call. -/
theorem callsOf_of_planted {steps depth : Nat} {id : NodeId} {context : Context L}
    (isRecursion : machine.grammar.nodes[id]? = some (.leftRecursion inner))
    (planted : context.seedAt (id, context.position) ≠ none) :
    machine.callsOf steps depth id context = [] := by
  rcases Option.ne_none_iff_exists'.mp planted with ⟨seed, planted⟩
  have there : context.seeds.get? id context.position = some seed := planted
  rw [callsOf, dialogue]
  by_cases trips : 0 < machine.maxDepth ∧ machine.maxDepth < depth
  · rw [if_pos trips, Dialogue.calls]
  · rw [if_neg trips, isRecursion]
    simp only [Clause.dialogue, there, Dialogue.calls]

theorem callsAt_of_planted (isRecursion : machine.grammar.nodes[key.1]? = some (.leftRecursion inner))
    {steps depth : Nat} {id : NodeId} {context : Context L}
    (planted : context.seedAt key ≠ none) : machine.callsAt key steps depth id context = [] := by
  induction steps generalizing depth id context with
  | zero => rfl
  | succ steps inductionHypothesis =>
      rw [callsAt, List.append_eq_nil_iff, List.flatMap_eq_nil_iff]
      constructor
      · by_cases own : (id, context.position) = key
        · subst own
          rw [if_pos rfl]
          exact callsOf_of_planted isRecursion planted
        · exact if_neg own
      · intro made isCall
        apply inductionHypothesis
        rcases Option.ne_none_iff_exists'.mp planted with ⟨seed, planted⟩
        have carries := machine.dialogue_carries_seed steps depth id planted
        exact Option.ne_none_iff_exists'.mpr
          ⟨seed, (Dialogue.keeps_of_carries (machine.run_keeps steps (depth + 1)) carries).1 made isCall⟩

/-- Calls at a position are made where the node is entered there. -/
theorem entered_of_callsAt {steps depth : Nat} {id : NodeId} {context : Context L}
    {made : NodeId × Context L} (isCall : made ∈ machine.callsAt key steps depth id context) :
    exists place first, Event.entered place key.1 first ∈ machine.trace steps depth id context ∧
      first.position = key.2 := by
  induction steps generalizing depth id context with
  | zero => cases isCall
  | succ steps inductionHypothesis =>
      rw [callsAt, List.mem_append, List.mem_flatMap] at isCall
      rcases isCall with isOwn | ⟨operand, isCalled, below⟩
      · by_cases own : (id, context.position) = key
        · subst own
          exact ⟨depth, context, mem_trace_succ.mpr (Or.inl rfl), rfl⟩
        · rw [if_neg own] at isOwn
          cases isOwn
      · rcases inductionHypothesis below with ⟨place, first, enters, isThere⟩
        exact ⟨place, first, mem_trace_succ.mpr (Or.inr (Or.inl ⟨operand, isCalled, enters⟩)), isThere⟩

/-- A run in whose course a left recursion makes calls at a position ends with a seed there. -/
theorem end_finds_seed_of_callsAt
    (isRecursion : machine.grammar.nodes[key.1]? = some (.leftRecursion inner))
    {steps depth : Nat} {id : NodeId} {context after : Context L} {outcome : Outcome L}
    (makesSome : machine.callsAt key steps depth id context ≠ [])
    (ends : machine.run steps depth id context = .finished outcome after) :
    after.seedAt key ≠ none := by
  rcases List.exists_mem_of_ne_nil _ makesSome with ⟨made, isCall⟩
  rcases entered_of_callsAt isCall with ⟨place, first, enters, isThere⟩
  have planted := (trace_precedes.2.2 outcome after ends _ enters).planted place key.1 inner first
    rfl isRecursion
  rw [isThere] at planted
  exact planted

/-- Positions and seeds are inside the input at all moments of a run. -/
theorem event_within (reads : machine.grammar.ReadsWithin machine.input) {steps depth : Nat}
    {id : NodeId} {context : Context L} (within : context.Within (machine.bounds False))
    {event : Event L} (member : event ∈ machine.trace steps depth id context) :
    event.context.Within (machine.bounds False) := by
  have covers : machine.Covers fun _ => True := fun _ _ _ _ => trivial
  have honours := (machine.run_honours reads covers steps depth id within False.elim).2 event member
  cases event with
  | entered place node first => exact Context.Reaches.within honours
  | finished place node first outcome after =>
      cases outcome with
      | ok value => exact honours.2.1.within
      | error error => exact honours.2.1.within

/-- Operands end inside the input. -/
theorem call_ends_within (reads : machine.grammar.ReadsWithin machine.input) {steps depth : Nat}
    {id : NodeId} {context : Context L} (within : context.Within (machine.bounds False))
    {made : NodeId × Context L} (isCall : made ∈ machine.callsOf steps depth id context)
    {outcome : Outcome L} {after : Context L}
    (reply : machine.run steps (depth + 1) made.1 made.2 = .finished outcome after) :
    after.Within (machine.bounds False) := by
  cases steps with
  | zero => cases reply
  | succ steps =>
      have atEnd := mem_trace_succ.mpr (Or.inr (Or.inr ⟨outcome, after, reply, rfl⟩))
      exact event_within reads within (mem_trace_succ.mpr (Or.inr (Or.inl ⟨made, isCall, atEnd⟩)))

/-- A left recursion that plants its seed makes at most as many calls as there are places
for the seed to end. -/
theorem callsOf_length_le (reads : machine.grammar.ReadsWithin machine.input) {steps depth : Nat}
    {id : NodeId} {context : Context L} (within : context.Within (machine.bounds False))
    (isRecursion : machine.grammar.nodes[id]? = some (.leftRecursion inner))
    (absent : context.seedAt (id, context.position) = none) :
    (machine.callsOf steps depth id context).length ≤
      Stream.length machine.input - context.position + 1 := by
  have inside : forall made, made ∈ machine.callsOf steps depth id context ->
      forall outcome after, machine.run steps (depth + 1) made.1 made.2 = .finished outcome after ->
        after.position ≤ Stream.length machine.input := by
    intro made isCall outcome after reply
    exact (call_ends_within reads within isCall reply).position
  have none : context.seeds.get? id context.position = none := absent
  rw [callsOf, dialogue] at inside ⊢
  by_cases trips : 0 < machine.maxDepth ∧ machine.maxDepth < depth
  · rw [if_pos trips, Dialogue.calls]
    exact Nat.zero_le _
  · rw [if_neg trips, isRecursion] at inside ⊢
    simp only [Clause.dialogue, none] at inside ⊢
    have room : context.position ≤ Stream.length machine.input := within.position
    rw [<- Nat.sub_add_comm room]
    exact Nat.le_sub_of_add_le (Dialogue.growth_calls_length_le
      (fun _ => machine.run_keeps steps (depth + 1)) inner
      (context.seedAt_withSeed_self (id, context.position) _) room inside)

end Machine

/-- Lists of which only one is not empty are together as long as this one. -/
theorem length_flatMap_le_of_once {α β : Type} {f : α -> List β} {items : List α} {bound : Nat}
    (each : forall item, item ∈ items -> (f item).length ≤ bound)
    (once : items.Pairwise fun item later => f item ≠ [] -> f later = []) :
    (items.flatMap f).length ≤ bound := by
  induction items with
  | nil => exact Nat.zero_le _
  | cons item rest inductionHypothesis =>
      rcases List.pairwise_cons.mp once with ⟨first, once⟩
      rw [List.flatMap_cons, List.length_append]
      by_cases isEmpty : f item = []
      · rw [isEmpty, List.length_nil, Nat.zero_add]
        exact inductionHypothesis (fun other member => each other (List.mem_cons_of_mem _ member)) once
      · have others : rest.flatMap f = [] :=
          List.flatMap_eq_nil_iff.mpr fun later member => first later member isEmpty
        rw [others, List.length_nil, Nat.add_zero]
        exact each item (List.mem_cons_self ..)

namespace Machine

variable {machine : Machine L} {key : NodeId × Nat} {inner : NodeId}

/-- A left recursion runs its operand at a position at most as often as there are places for
the seed to end, whatever happens in between. -/
theorem callsAt_length_le (reads : machine.grammar.ReadsWithin machine.input)
    (isRecursion : machine.grammar.nodes[key.1]? = some (.leftRecursion inner))
    {steps depth : Nat} {id : NodeId} {context : Context L}
    (within : context.Within (machine.bounds False)) :
    (machine.callsAt key steps depth id context).length ≤
      Stream.length machine.input - key.2 + 1 := by
  induction steps generalizing depth id context with
  | zero => exact Nat.zero_le _
  | succ steps inductionHypothesis =>
      by_cases planted : context.seedAt key = none
      · by_cases own : (id, context.position) = key
        · -- The node makes all the calls itself, since the seed is there during each of them.
          subst own
          have below : ((machine.callsOf steps depth id context).flatMap fun made =>
              machine.callsAt (id, context.position) steps (depth + 1) made.1 made.2) = [] :=
            List.flatMap_eq_nil_iff.mpr fun made isCall =>
              callsAt_of_planted isRecursion (call_finds_seed isRecursion isCall)
          rw [callsAt, if_pos rfl, below, List.append_nil]
          exact callsOf_length_le reads within isRecursion planted
        · -- The first call in whose course it makes some leaves a seed to the others.
          rw [callsAt, if_neg own, List.nil_append]
          apply length_flatMap_le_of_once
          · intro made isCall
            cases steps with
            | zero => exact Nat.zero_le _
            | succ steps =>
                apply inductionHypothesis
                have atStart : Event.entered (depth + 1) made.1 made.2 ∈
                    machine.trace (steps + 1) (depth + 1) made.1 made.2 :=
                  mem_trace_succ.mpr (Or.inl rfl)
                exact event_within reads within
                  (mem_trace_succ.mpr (Or.inr (Or.inl ⟨made, isCall, atStart⟩)))
          · apply callsOf_growsInto.2.1.imp
            rintro made later ⟨outcome, after, reply, grows⟩ makesSome
            exact callsAt_of_planted isRecursion
              (grows.present (end_finds_seed_of_callsAt isRecursion makesSome reply))
      · rw [callsAt_of_planted isRecursion planted]
        exact Nat.zero_le _

/-- What has finished was entered before. -/
theorem entered_of_finished {steps depth : Nat} {id node : NodeId} {context first after : Context L}
    {place : Nat} {outcome : Outcome L}
    (member : Event.finished place node first outcome after ∈ machine.trace steps depth id context) :
    Event.entered place node first ∈ machine.trace steps depth id context := by
  induction steps generalizing depth id context with
  | zero => cases member
  | succ steps inductionHypothesis =>
      rcases mem_trace_succ.mp member with isEntry | ⟨made, isCall, below⟩ | ⟨_, _, _, isOwn⟩
      · cases isEntry
      · exact mem_trace_succ.mpr (Or.inr (Or.inl ⟨made, isCall, inductionHypothesis below⟩))
      · cases isOwn
        exact mem_trace_succ.mpr (Or.inl rfl)

end Machine

namespace EntryPoint

variable {type : ValueType L.Kind}

/-- At every moment of a parse, a seed ends inside the input and is a success exactly if it
has advanced.  From one moment to a later one no seed disappears, and one that changes
reaches farther; from when a left recursion was entered on, there is a seed for it.  So a left
recursion never succeeds without advancing, and it runs its operand at a position at most
once for each place where the seed can end. -/
theorem seeds_grow (entry : EntryPoint L type) (input : L.Input) (state : L.State)
    (reads : entry.grammar.ReadsWithin input) (steps : Nat) :
    (forall event, event ∈ (entry.machine input).trace steps 1 entry.root (Context.start state) ->
      forall id start seed, event.context.seeds.get? id start = some seed ->
        start ≤ seed.position ∧ seed.position ≤ Stream.length input ∧
        ((exists value, seed.outcome = .ok value) ↔ start < seed.position)) ∧
    (((entry.machine input).trace steps 1 entry.root (Context.start state)).Pairwise
      fun earlier later => (entry.machine input).Precedes earlier later.context) ∧
    (forall place id inner first value after,
      Event.finished place id first (.ok value) after ∈
        (entry.machine input).trace steps 1 entry.root (Context.start state) ->
      entry.grammar.nodes[id]? = some (.leftRecursion inner) -> first.position < after.position) ∧
    forall id inner start, entry.grammar.nodes[id]? = some (.leftRecursion inner) ->
      ((entry.machine input).callsAt (id, start) steps 1 entry.root
        (Context.start state)).length ≤ Stream.length input - start + 1 := by
  have within := Context.start_within ((entry.machine input).bounds False) state
  refine ⟨?_, Machine.trace_precedes.2.1, ?_, ?_⟩
  · intro event member id start seed planted
    have inside := (Machine.event_within reads within member).seeds (id, start) seed planted
    have grown := Machine.trace_grown member (id, start) seed planted
    exact ⟨grown.reached, inside.inside, grown.succeeds_iff⟩
  · intro place id inner first value after member isRecursion
    rcases Machine.run_of_finished_mem member with ⟨enough, ends⟩
    exact Machine.advances_of_recursion isRecursion
      (Machine.trace_grown (Machine.entered_of_finished member)) ends
  · intro id inner start isRecursion
    exact Machine.callsAt_length_le reads isRecursion within

/-- The parse in which a left recursion is met twice. -/
def relapsing : EntryPoint plainText .text :=
  ⟨Machine.relapsing.grammar, 0, ParserConfig.unlimited⟩

/-- The operand is run for the first seed and for the letter, although the node is met more
often at the start. -/
theorem relapsing_seeds_grow :
    ((relapsing.machine "ab").callsAt (2, 0) 8 1 0 (Context.start ())).length = 2 ∧
      ((relapsing.machine "ab").callsAt (2, 0) 8 1 0 (Context.start ())).length ≤
        Stream.length (S := String) "ab" - 0 + 1 := by
  refine ⟨rfl, (relapsing.seeds_grow "ab" () ?_ 8).2.2.2 2 3 0 rfl⟩
  intro id atom found
  have member := List.mem_of_getElem? found
  simp [relapsing, Machine.relapsing] at member
  rcases member with rfl | rfl | rfl
  · exact Leaf.exact_readsWithin (L := plainText) "ab" "b"
  · exact Leaf.exact_readsWithin (L := plainText) "ab" "c"
  · exact Leaf.exact_readsWithin (L := plainText) "ab" "a"

end EntryPoint
end SeedGrammar
