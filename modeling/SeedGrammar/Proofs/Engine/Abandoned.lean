import SeedGrammar.Proofs.Engine.Recall
import SeedGrammar.Proofs.Engine.Steps
import SeedGrammar.Proofs.PlainText

namespace SeedGrammar

/-!
# What an abandoned alternative leaves behind

An attempt that fails restores position and state, but not the seeds.  The
alternative after it therefore runs from where the attempt was entered, with
the seeds that the attempt has left.  A seed keeps the state in which a match
ended, so a left recursion that was run in a changed state brings that change
back when it is met again: `leaking` is a machine where this happens.

The seeds left behind are all that tells such a run from one of the second
alternative alone, and they tell only where the latter meets a left recursion
that has no seed of its own but one of these.  If each such call would come to
what the seed says, and would leave no other seeds than were left, then the two
runs come to the same.  A call does so if the abandoned alternative has made it
too, in the same state and with the same seeds, unless it failed after it got
farther than its seed.
-/

variable {L : Signature}

/-! ## Seeds below those of a run -/

/-- Whether a context is another one, with more seeds wherever that has none. -/
structure Overlays (left : NodeId × Nat -> Option (Seed L)) (first second : Context L) : Prop where
  position : first.position = second.position
  state : first.state = second.state
  seeds : forall key, second.seedAt key = (first.seedAt key).or (left key)

namespace Overlays

variable {left : NodeId × Nat -> Option (Seed L)} {first second : Context L}

theorem seedAt_of_found (overlays : Overlays left first second) {key : NodeId × Nat} {seed : Seed L}
    (found : first.seedAt key = some seed) : second.seedAt key = some seed := by
  rw [overlays.seeds key, found, Option.some_or]

theorem seedAt_of_absent (overlays : Overlays left first second) {key : NodeId × Nat}
    (absent : first.seedAt key = none) : second.seedAt key = left key := by
  rw [overlays.seeds key, absent, Option.none_or]

/-- A seed that is planted on both sides is the same on both sides. -/
theorem withSeed (overlays : Overlays left first second) (key : NodeId × Nat) (seed : Seed L) :
    Overlays left (first.withSeed key seed) (second.withSeed key seed) where
  position := overlays.position
  state := overlays.state
  seeds other := by
    by_cases own : other = key
    · rw [own, Context.seedAt_withSeed_self, Context.seedAt_withSeed_self, Option.some_or]
    · rw [Context.seedAt_withSeed_of_ne _ _ own, Context.seedAt_withSeed_of_ne _ _ own]
      exact overlays.seeds other

end Overlays

namespace Agreement

variable {α : Type} {left : NodeId × Nat -> Option (Seed L)}

/-- The comparison with a run that has more seeds to begin with. -/
def overlaying (left : NodeId × Nat -> Option (Seed L)) : Agreement L where
  nodes := Eq
  contexts := Overlays left
  position overlays := overlays.position
  state overlays := overlays.state
  moved overlays _ _ := ⟨rfl, rfl, overlays.seeds⟩
  ranged overlays _ := ⟨overlays.position, overlays.state, overlays.seeds⟩

/-- A clause does the same with more seeds if its operands do, unless it is a
left recursion that finds one of these. -/
theorem clause_overlays {call other : Caller L NodeId}
    (callers : (overlaying left).Callers Eq call other) (rounds : Nat) (input : L.Input)
    (writes : NodeId -> Bool) (self : NodeId) {clause : Clause L PatternProgram NodeId}
    {first second : Context L} (overlays : Overlays left first second)
    (own : forall inner, clause = .leftRecursion inner ->
      first.seedAt (self, first.position) = none -> left (self, first.position) = none) :
    (clause.run call rounds input writes self first).Follows (overlaying left)
      (clause.run other rounds input writes self second) := by
  by_cases isRecursion : exists inner, clause = .leftRecursion inner
  · rcases isRecursion with ⟨inner, rfl⟩
    cases found : first.seedAt (self, first.position) with
    | some seed =>
        have found' := overlays.seedAt_of_found found
        rw [overlays.position] at found'
        have there : first.seeds.get? self first.position = some seed := found
        have there' : second.seeds.get? self second.position = some seed := found'
        simp only [Clause.run, there, there']
        exact replay_follows ⟨rfl, rfl, AnswersAlike.refl (fun _ => rfl) seed.outcome⟩ overlays
    | none =>
        have bare := own inner rfl found
        have found' : second.seedAt (self, second.position) = none := by
          rw [<- overlays.position, overlays.seedAt_of_absent found, bare]
        have there : first.seeds.get? self first.position = none := found
        have there' : second.seeds.get? self second.position = none := found'
        simp only [Clause.run, there, there', Context.snapshot]
        rw [<- overlays.position, <- overlays.state]
        apply runGrowth_follows callers rfl rfl
        · intro after after' past
          have same : after'.seedAt (self, first.position) =
              after.seedAt (self, first.position) := by
            rw [past.seeds, bare, Option.or_none]
          change Option.Rel _ (after.seedAt (self, first.position))
            (after'.seedAt (self, first.position))
          rw [same]
          cases after.seedAt (self, first.position) with
          | none => exact .none
          | some seed => exact .some ⟨rfl, rfl, AnswersAlike.refl (fun _ => rfl) seed.outcome⟩
        · intro after after' past seed seed' alike
          rw [alike.eq]
          exact past.withSeed (self, first.position) seed'
        · exact Nat.le_refl rounds
        · exact ⟨rfl, rfl, (overlays.withSeed (self, first.position) _).seeds⟩
  · have noLoop : forall inner, clause ≠ .leftRecursion inner :=
      fun inner same => isRecursion ⟨inner, same⟩
    exact clause_follows callers rfl (Nat.le_refl rounds) input (by
      rintro operand _ rfl
      rfl) (Clause.Corresponds.same fun _ _ => rfl) (bears_self rfl noLoop self) overlays

end Agreement

/-! ## The calls of a run -/

section Made

variable {α : Type}

open Classical in
/-- The caller that replies to some calls only. -/
noncomputable def Caller.only (call : Caller L α) (made : List (α × Context L)) : Caller L α :=
  fun operand context => if (operand, context) ∈ made then call operand context else .exhausted

/-- A clause does not see the replies to calls that it does not make. -/
theorem Clause.run_only (call : Caller L α) (rounds : Nat) (input : L.Input) (writes : α -> Bool)
    (self : NodeId) (clause : Clause L PatternProgram α) (context : Context L) :
    clause.run (call.only ((clause.dialogue rounds input writes self context).calls call)) rounds
      input writes self context = clause.run call rounds input writes self context := by
  rw [Clause.run_eq_dialogue, Clause.run_eq_dialogue]
  apply Dialogue.run_congr
  intro made isMade
  exact if_pos isMade

/-- A caller may be compared on some calls only. -/
theorem Agreement.callers_only {agreement : Agreement L} {call other : Caller L α}
    {made : List (α × Context L)}
    (follows : forall operand first second, (operand, first) ∈ made ->
      agreement.contexts first second ->
      (call operand first).Follows agreement (other operand second)) :
    agreement.Callers Eq (call.only made) other := by
  rintro operand _ rfl first second same
  by_cases isMade : (operand, first) ∈ made
  · rw [Caller.only, if_pos isMade]
    exact follows operand first second isMade same
  · rw [Caller.only, if_neg isMade]
    exact .exhausted

end Made

/-! ## Calls that seeds answer -/

namespace Machine

variable {machine : Machine L} {left : NodeId × Nat -> Option (Seed L)}

/-- Whether a node is a left recursion that finds no seed but would find one
among others. -/
def recallsFrom (machine : Machine L) (left : NodeId × Nat -> Option (Seed L)) (id : NodeId)
    (context : Context L) : Bool :=
  match machine.grammar.nodes[id]? with
  | some (.leftRecursion _) =>
    (context.seedAt (id, context.position)).isNone && (left (id, context.position)).isSome
  | _ => false

/-- The calls in a run of a node that seeds of others would answer: how deep
they are nested, the nodes and the contexts.  What happens below such a call
does not count, for it would not happen. -/
def preempted (machine : Machine L) (left : NodeId × Nat -> Option (Seed L)) :
    Nat -> Nat -> NodeId -> Context L -> List (Nat × NodeId × Context L)
  | 0, _, _, _ => []
  | steps + 1, depth, id, context =>
    if machine.recallsFrom left id context then [(depth, id, context)]
    else
      (machine.callsOf steps depth id context).flatMap fun made =>
        machine.preempted left steps (depth + 1) made.1 made.2

/-- Whether a call comes to what a seed of others says: to its outcome, position
and state, and to no seeds but theirs. -/
def Foretold (machine : Machine L) (left : NodeId × Nat -> Option (Seed L)) (depth : Nat)
    (id : NodeId) (context : Context L) : Prop :=
  exists seed steps after, left (id, context.position) = some seed ∧
    machine.run steps depth id context = .finished seed.outcome after ∧
    after.snapshot = ⟨seed.position, seed.state⟩ ∧
    forall key other, context.seedAt key = none -> after.seedAt key = some other ->
      left key = some other

theorem recallsFrom_eq_true {id : NodeId} {context : Context L}
    (recalls : machine.recallsFrom left id context = true) :
    (exists inner, machine.grammar.nodes[id]? = some (.leftRecursion inner)) ∧
      context.seedAt (id, context.position) = none := by
  rw [recallsFrom] at recalls
  split at recalls
  · rename_i inner isRecursion
    rw [Bool.and_eq_true, Option.isNone_iff_eq_none] at recalls
    exact ⟨⟨inner, isRecursion⟩, recalls.1⟩
  · cases recalls

theorem absent_of_not_recallsFrom {id inner : NodeId} {context : Context L}
    (isRecursion : machine.grammar.nodes[id]? = some (.leftRecursion inner))
    (recalls : machine.recallsFrom left id context = false)
    (absent : context.seedAt (id, context.position) = none) :
    left (id, context.position) = none := by
  rw [recallsFrom, isRecursion, absent] at recalls
  exact Option.not_isSome_iff_eq_none.mp (Bool.eq_false_iff.mp recalls)

theorem preempted_nothing (machine : Machine L) (steps depth : Nat) (id : NodeId)
    (context : Context L) : machine.preempted (fun _ => none) steps depth id context = [] := by
  induction steps generalizing depth id context with
  | zero => rfl
  | succ steps inductionHypothesis =>
      have recalls : ¬machine.recallsFrom (fun _ => none) id context = true := by
        rw [recallsFrom]
        split <;> simp
      rw [preempted, if_neg recalls]
      apply List.flatMap_eq_nil_iff.mpr
      intro made _
      exact inductionHypothesis (depth + 1) made.1 made.2

/-- A call that comes to what a seed says is as well answered by the seed. -/
theorem replay_overlays {steps depth : Nat} {id : NodeId} {first second : Context L}
    (overlays : Overlays left first second)
    (absent : first.seedAt (id, first.position) = none)
    (foretold : machine.Foretold left depth id first) :
    exists seed, second.seedAt (id, second.position) = some seed ∧
      (machine.run steps depth id first).Follows (Agreement.overlaying left)
        (replay seed second) := by
  rcases foretold with ⟨seed, enough, after, isLeft, ends, stands, others⟩
  refine ⟨seed, ?_, ?_⟩
  · rw [<- overlays.position, overlays.seedAt_of_absent absent, isLeft]
  · by_cases spent : machine.run steps depth id first = .exhausted
    · rw [spent]
      exact .exhausted
    · have same : machine.run steps depth id first = .finished seed.outcome after := by
        rw [<- run_more (Nat.le_max_left steps enough) spent]
        exact run_more_finished (Nat.le_max_right steps enough) ends
      rw [same]
      refine .finished (AnswersAlike.refl (fun _ => rfl) seed.outcome) ⟨?_, ?_, ?_⟩
      · exact congrArg Snapshot.position stands
      · exact congrArg Snapshot.state stands
      · intro key
        change second.seedAt key = _
        cases found : first.seedAt key with
        | some kept =>
            rw [overlays.seedAt_of_found found, run_keeps_seed found ends, Option.some_or]
        | none =>
            rw [overlays.seedAt_of_absent found]
            cases found' : after.seedAt key with
            | none => rw [Option.none_or]
            | some other => rw [others key other found found', Option.some_or]

/-- If each call that seeds of others would answer comes to what these say, a run
does the same with them.  The induction is on the steps.  Only the calls that
the run makes are compared, so the others may be left out. -/
theorem run_overlays (steps : Nat) {depth : Nat} {id : NodeId} {first second : Context L}
    (overlays : Overlays left first second)
    (foretold : forall call, call ∈ machine.preempted left steps depth id first ->
      machine.Foretold left call.1 call.2.1 call.2.2) :
    (machine.run steps depth id first).Follows (Agreement.overlaying left)
      (machine.run steps depth id second) := by
  induction steps generalizing depth id first second with
  | zero => exact .exhausted
  | succ steps inductionHypothesis =>
      rw [preempted] at foretold
      by_cases trips : 0 < machine.maxDepth ∧ machine.maxDepth < depth
      · rw [run, run, if_pos trips, if_pos trips, overlays.position]
        exact .halted (ParseError.Alike.refl (fun _ => rfl) _) overlays
      · cases recalls : machine.recallsFrom left id first with
        | true =>
            rw [if_pos recalls] at foretold
            rcases recallsFrom_eq_true recalls with ⟨⟨inner, isRecursion⟩, absent⟩
            rcases replay_overlays overlays absent (foretold _ (List.mem_singleton.mpr rfl)) with
              ⟨seed, found, follows⟩
            have there : second.seeds.get? id second.position = some seed := found
            have answers : machine.run (steps + 1) depth id second = replay seed second := by
              rw [run, if_neg trips, isRecursion]
              simp only [Clause.run, there]
            rw [answers]
            exact follows
        | false =>
            rw [if_neg (Bool.eq_false_iff.mp recalls)] at foretold
            rw [run, run, if_neg trips, if_neg trips]
            cases found : machine.grammar.nodes[id]? with
            | none => exact .faulted (.nodeOutOfRange rfl)
            | some clause =>
                have calls : machine.callsOf steps depth id first =
                    (clause.dialogue steps machine.input machine.grammar.writesState id
                      first).calls (machine.run steps (depth + 1)) := by
                  rw [callsOf, dialogue, if_neg trips, found]
                rw [calls] at foretold
                dsimp only
                rw [<- Clause.run_only]
                apply Agreement.clause_overlays _ steps _ _ id overlays
                · rintro inner rfl absent
                  exact absent_of_not_recallsFrom found recalls absent
                · apply Agreement.callers_only
                  intro operand before after isMade past
                  apply inductionHypothesis past
                  intro call member
                  exact foretold call (List.mem_flatMap.mpr ⟨_, isMade, member⟩)

/-! ## Calls that were made before -/

/-- Whether a call repeats one that is among some events: it starts at the same
position in the same state with the same seeds, and the earlier call has not
failed after it advanced. -/
def Repeats (events : List (Event L)) (id : NodeId) (context : Context L) : Prop :=
  exists place started outcome after, Event.finished place id started outcome after ∈ events ∧
    started.snapshot = context.snapshot ∧
    (forall key, started.seedAt key = context.seedAt key) ∧
    ¬(outcome.Fails ∧ started.position < after.position)

theorem recallsFrom_of_mem_preempted {steps depth : Nat} {id : NodeId} {context : Context L}
    {call : Nat × NodeId × Context L}
    (member : call ∈ machine.preempted left steps depth id context) :
    machine.recallsFrom left call.2.1 call.2.2 = true := by
  induction steps generalizing depth id context with
  | zero => cases member
  | succ steps inductionHypothesis =>
      rw [preempted] at member
      by_cases recalls : machine.recallsFrom left id context = true
      · rw [if_pos recalls] at member
        rw [List.mem_singleton.mp member]
        exact recalls
      · rw [if_neg recalls] at member
        rcases List.mem_flatMap.mp member with ⟨made, _, inner⟩
        exact inductionHypothesis inner

/-- A left recursion that a run has made before, in the same state and with the
same seeds, comes to what the run has left. -/
theorem foretold_of_repeats (unlimited : machine.maxDepth = 0) {steps depth depth' : Nat}
    {root id inner : NodeId} {context first last : Context L} {outcome : Outcome L}
    (ends : machine.run steps depth root context = .finished outcome last)
    (isRecursion : machine.grammar.nodes[id]? = some (.leftRecursion inner))
    (absent : first.seedAt (id, first.position) = none)
    (repeats : Repeats (machine.trace steps depth root context) id first) :
    machine.Foretold last.seedAt depth' id first := by
  rcases repeats with ⟨place, started, early, after, member, sameStart, sameSeeds, within⟩
  have samePosition : started.position = first.position := congrArg Snapshot.position sameStart
  have sameState : started.state = first.state := congrArg Snapshot.state sameStart
  rcases run_of_finished_mem member with ⟨enough, finishes⟩
  have absent' : started.seedAt (id, started.position) = none := by
    rw [sameSeeds, samePosition, absent]
  -- The earlier call has left its outcome as a seed, for it has not failed farther on.
  rcases run_recursion_leaves isRecursion absent' finishes with ⟨seed, leaves⟩
  have answer : early = seed.outcome ∧ after.snapshot = ⟨seed.position, seed.state⟩ := by
    rcases leaves.answer with ⟨same, position, state⟩ | ⟨fails, farther⟩
    · refine ⟨same, ?_⟩
      rw [Context.snapshot, position, state]
    · exact absurd ⟨fails, Nat.lt_of_le_of_lt leaves.grown.reached farther⟩ within
  have stays : forall key other, started.seedAt key = none -> after.seedAt key = some other ->
      last.seedAt key = some other := by
    intro key other none found
    exact trace_keeps_seed.2 _ member ⟨none, found⟩ outcome last ends
  -- The call does the same as the earlier one.
  have overlays : Overlays (fun _ => none) started first := by
    refine ⟨samePosition, sameState, ?_⟩
    intro key
    rw [sameSeeds, Option.or_none]
  have follows : (machine.run enough place id started).Follows (Agreement.overlaying fun _ => none)
      (machine.run enough place id first) := by
    apply run_overlays enough overlays
    intro call isCall
    rw [preempted_nothing] at isCall
    cases isCall
  rw [finishes, run_depth unlimited enough place depth' id first] at follows
  generalize isReply : machine.run enough depth' id first = reply at follows
  cases follows with
  | @finished _ outcome' _ after' alike past =>
      refine ⟨seed, enough, after', ?_, ?_, ?_, ?_⟩
      · rw [<- samePosition]
        exact stays _ seed absent' leaves.left
      · rw [isReply, <- alike.eq, answer.1]
      · rw [<- answer.2, Context.snapshot, Context.snapshot, past.position, past.state]
      · intro key other none found
        rw [past.seeds, Option.or_none] at found
        exact stays key other (by rw [sameSeeds, none]) found

/-! ## The second alternative -/

/-- A choice between an attempt and one more node. -/
structure Tries (machine : Machine L) (whole tried first second : NodeId) : Prop where
  choice : machine.grammar.nodes[whole]? = some (.choice [tried, second])
  attempt : machine.grammar.nodes[tried]? = some (.attempt first)

end Machine

/-- A run that goes back to a snapshot if it fails without having advanced. -/
def Reply.backtracked (start : Snapshot L) (reply : Reply L (Outcome L)) :
    Reply L (Outcome L) :=
  reply.andThen fun outcome after =>
    match outcome with
    | .ok value => .finished (.ok value) after
    | .error error =>
      if after.position = start.position then .finished (.error error) (after.restore start)
      else .finished (.error error) after

theorem Agreement.backtracked_follows {agreement : Agreement L} {reply other : Reply L (Outcome L)}
    (follows : reply.Follows agreement other) (start : Snapshot L) :
    (reply.backtracked start).Follows agreement (other.backtracked start) := by
  apply follows.andThen
  intro outcome outcome' after after' alike past
  cases alike with
  | ok value => exact .finished (.ok value) past
  | error alike =>
      simp only [agreement.position past]
      by_cases stayed : after'.position = start.position
      · rw [if_pos stayed, if_pos stayed]
        exact .finished (.error alike) (restored past start)
      · rw [if_neg stayed, if_neg stayed]
        exact .finished (.error alike) past

namespace Machine

variable {machine : Machine L} {whole tried first second : NodeId} {steps depth : Nat}
  {context abandoned : Context L} {error : ParseError L.Payload}

theorem not_tripped_of_finished {id : NodeId} {outcome : Outcome L} {after : Context L}
    (ends : machine.run steps depth id context = .finished outcome after) :
    ¬(0 < machine.maxDepth ∧ machine.maxDepth < depth) := by
  intro trips
  cases steps with
  | zero => cases ends
  | succ steps =>
      rw [run, if_pos trips] at ends
      cases ends

/-- Once an attempt has failed, its choice runs the second alternative from the
same position in the same state, with the seeds that the attempt has left. -/
theorem run_choice_abandoned (tries : machine.Tries whole tried first second)
    (fails : machine.run steps (depth + 2) first context = .finished (.error error) abandoned)
    {more : Nat} (enough : steps ≤ more) :
    machine.run (more + 2) depth whole context =
      (machine.run (more + 1) (depth + 1) second
        (abandoned.restore context.snapshot)).backtracked context.snapshot := by
  have free := not_tripped_of_finished fails
  have freeTried : ¬(0 < machine.maxDepth ∧ machine.maxDepth < depth + 1) := by omega
  have freeWhole : ¬(0 < machine.maxDepth ∧ machine.maxDepth < depth) := by omega
  have attempted : machine.run (more + 1) (depth + 1) tried context =
      .finished (.error error) (abandoned.restore context.snapshot) := by
    rw [run, if_neg freeTried, tries.attempt]
    simp only [Clause.run, run_more_finished enough fails, Reply.andThen_finished]
  rw [run, if_neg freeWhole, tries.choice]
  simp only [Clause.run, runChoice, attempted, Reply.andThen_finished, Reply.backtracked]
  exact if_pos rfl

/-- What an attempt has left lies over what was there before. -/
theorem overlays_of_abandoned {outcome : Outcome L}
    (ends : machine.run steps depth first context = .finished outcome abandoned) :
    Overlays abandoned.seedAt context (abandoned.restore context.snapshot) := by
  refine ⟨rfl, rfl, ?_⟩
  intro key
  change abandoned.seedAt key = _
  cases found : context.seedAt key with
  | none => rw [Option.none_or]
  | some seed => rw [run_keeps_seed found ends, Option.some_or]

/-- A choice whose first alternative is abandoned runs the second one with the
seeds that were left.  It comes to what the second one alone comes to if each
call of the latter that a seed left behind would answer comes to what the seed
says, or repeats a call of the first alternative. -/
theorem run_after_abandoned (tries : machine.Tries whole tried first second)
    (fails : machine.run steps (depth + 2) first context = .finished (.error error) abandoned) :
    (forall more, steps ≤ more -> machine.run (more + 2) depth whole context =
      (machine.run (more + 1) (depth + 1) second
        (abandoned.restore context.snapshot)).backtracked context.snapshot) ∧
    forall enough outcome alone,
      (machine.run enough (depth + 1) second context).backtracked context.snapshot =
        .finished outcome alone ->
      (forall call, call ∈ machine.preempted abandoned.seedAt enough (depth + 1) second context ->
        machine.Foretold abandoned.seedAt call.1 call.2.1 call.2.2 ∨
          machine.maxDepth = 0 ∧
            Repeats (machine.trace steps (depth + 2) first context) call.2.1 call.2.2) ->
      exists last, last.snapshot = alone.snapshot ∧ forall more, max steps enough ≤ more ->
        machine.run (more + 2) depth whole context = .finished outcome last := by
  refine ⟨fun more => run_choice_abandoned tries fails, ?_⟩
  intro enough outcome alone ends answered
  have foretold : forall call,
      call ∈ machine.preempted abandoned.seedAt enough (depth + 1) second context ->
        machine.Foretold abandoned.seedAt call.1 call.2.1 call.2.2 := by
    intro call isCall
    rcases answered call isCall with isForetold | ⟨unlimited, repeats⟩
    · exact isForetold
    · rcases recallsFrom_eq_true (recallsFrom_of_mem_preempted isCall) with
        ⟨⟨inner, isRecursion⟩, absent⟩
      exact foretold_of_repeats unlimited fails isRecursion absent repeats
  have follows := Agreement.backtracked_follows
    (run_overlays enough (overlays_of_abandoned fails) foretold) context.snapshot
  rw [ends] at follows
  generalize isReply : (machine.run enough (depth + 1) second
    (abandoned.restore context.snapshot)).backtracked context.snapshot = reply at follows
  cases follows with
  | @finished _ outcome' _ last alike past =>
      refine ⟨last, ?_, ?_⟩
      · rw [Context.snapshot, Context.snapshot, past.position, past.state]
      · intro more isEnough
        have finishes : machine.run enough (depth + 1) second
            (abandoned.restore context.snapshot) ≠ .exhausted := by
          intro spent
          rw [spent] at isReply
          cases isReply
        rw [run_choice_abandoned tries fails (by omega), run_more (by omega) finishes, isReply,
          alike.eq]

/-- An attempt that runs a left recursion, changes the state and fails, followed
by the left recursion alone. -/
def repeating : Machine countedText :=
  ⟨⟨[.choice [1, 5], .attempt 2, .sequence [5, 3, 7] (.pick 0),
    .update 4 fun count _ => Nat.succ count, .leaf .empty, .leftRecursion 6, .leaf (.exact "a"),
    .leaf (.exact "x")], []⟩, "ab", 0⟩

/-- The call in the attempt was made in the same state, so nothing comes back. -/
theorem repeating_undone : exists last, last.snapshot = ⟨1, Nat.zero⟩ ∧ forall more, 8 ≤ more ->
    repeating.run (more + 2) 1 0 (Context.start Nat.zero) = .finished (.ok ⟨.text, "a"⟩) last := by
  have tries : repeating.Tries 0 1 2 5 := ⟨rfl, rfl⟩
  have fails : repeating.run 8 (1 + 2) 2 (Context.start Nat.zero) =
      .finished (.error ((ParseError.bare 1).withNode 7))
        ⟨1, Nat.succ 0, (1, 1), ⟨[((5, 0), ⟨1, Nat.zero, .ok ⟨.text, "a"⟩⟩)]⟩⟩ := rfl
  have alone : (repeating.run 8 (1 + 1) 5 (Context.start Nat.zero)).backtracked ⟨0, Nat.zero⟩ =
      .finished (.ok ⟨.text, "a"⟩)
        ⟨1, Nat.zero, (0, 0), ⟨[((5, 0), ⟨1, Nat.zero, .ok ⟨.text, "a"⟩⟩)]⟩⟩ := rfl
  rcases (run_after_abandoned tries fails).2 8 _ _ alone (by
      intro call isCall
      rw [List.mem_singleton.mp isCall]
      refine Or.inr ⟨rfl, 4, Context.start Nat.zero, _, _, List.mem_of_getElem? (i := 6) rfl, rfl,
        fun _ => rfl, ?_⟩
      rintro ⟨⟨_, isError⟩, _⟩
      cases isError) with ⟨last, stands, answers⟩
  exact ⟨last, stands, answers⟩

/-! ## Changes that come back -/

/-- Whether a choice whose first alternative is abandoned always comes to what
the second one alone comes to. -/
def UndoesAbandoned (machine : Machine L) : Prop :=
  forall (whole tried first second : NodeId) (steps depth : Nat)
    (context abandoned last alone : Context L) (error : ParseError L.Payload)
    (outcome outcome' : Outcome L),
    machine.Tries whole tried first second ->
    machine.run steps (depth + 2) first context = .finished (.error error) abandoned ->
    machine.run steps depth whole context = .finished outcome last ->
    machine.run steps (depth + 1) second context = .finished outcome' alone ->
    SameAnswer outcome' alone outcome last

/-- An attempt that changes the state before it runs a left recursion and fails,
followed by the left recursion alone. -/
def leaking : Machine countedText :=
  ⟨⟨[.choice [1, 5], .attempt 2, .sequence [3, 5, 7] (.pick 1),
    .update 4 fun count _ => Nat.succ count, .leaf .empty, .leftRecursion 6, .leaf (.exact "a"),
    .leaf (.exact "x")], []⟩, "ab", 0⟩

/-- An attempt that fails at once, followed by a node that changes the state and
fails where it started. -/
def resetting : Machine countedText :=
  ⟨⟨[.choice [1, 3], .attempt 2, .leaf (.exact "x"), .sequence [4, 2] (.pick 1),
    .update 5 fun count _ => Nat.succ count, .leaf .empty], []⟩, "ab", 0⟩

/-- The seed brings the change of the attempt back.  And a choice undoes what its
last alternative did if that failed where it started. -/
theorem abandoned_comes_back : ¬leaking.UndoesAbandoned ∧ ¬resetting.UndoesAbandoned := by
  constructor
  · intro undoes
    have same := undoes 0 1 2 5 8 1 (Context.start Nat.zero) _ _ _ _ _ _ ⟨rfl, rfl⟩ rfl rfl rfl
    exact absurd same.2.2 Nat.one_ne_zero
  · intro undoes
    have same := undoes 0 1 2 3 8 1 (Context.start Nat.zero) _ _ _ _ _ _ ⟨rfl, rfl⟩ rfl rfl rfl
    exact absurd same.2.2 Nat.zero_ne_one

end Machine
end SeedGrammar
