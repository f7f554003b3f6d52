import SeedGrammar.Proofs.Engine.KeptState
import SeedGrammar.Proofs.Engine.MaximalRuns
import SeedGrammar.Proofs.Engine.Verdicts
import SeedGrammar.Proofs.Grammar.DeadAlternatives

namespace SeedGrammar

/-!
# Alternatives that are reported as dead

An alternative after one that always succeeds is not run.  A literal that was tried before is
run only at the place where it has failed, whatever happened since, so it fails again and
changes nothing.  A choice therefore does without such alternatives.

Two things remain of them.  If all alternatives fail, the failure of the last counts, and the
last may be one of them.  And below a dead alternative the state may be replaced, which is why
a repetition saves it; without the alternative it does not.  This is noticed only where a left
recursion recalls another state.
-/

variable {L : Signature}

/-! ## The choice -/

/-- What alternatives that have failed at a position have shown: none of them always
succeeds, their literals do not stand there, and a leaf that is called finishes. -/
structure Grammar.Earlier.FailedAt (earlier : Grammar.Earlier L) (input : L.Input) (position : Nat)
    (call : Caller L NodeId) (last : Option (ParseError L.Payload)) : Prop where
  fails : earlier.succeeds = false
  refuted : forall literal, literal ∈ earlier.literals ->
    Stream.matchesAt input position literal = false
  seen : forall literal, literal ∈ earlier.literals -> last ≠ none ∧
    exists alt context outcome after, call alt context = .finished outcome after

/-- Whether leaves do what they do on their own, if calls finish at all. -/
def Caller.RunsLeaves (call : Caller L NodeId) (grammar : Grammar L) (input : L.Input) : Prop :=
  (exists alt context outcome after, call alt context = .finished outcome after) ->
    forall (alt : NodeId) atom context, grammar.nodes[alt]? = some (.leaf atom) ->
      call alt context =
        .finished (atom.run input alt context).1 (atom.run input alt context).2

section Choice

variable {grammar : Grammar L} {input : L.Input} {call other : Caller L NodeId}

theorem Grammar.Earlier.FailedAt.start (input : L.Input) (position : Nat) (call : Caller L NodeId) :
    Grammar.Earlier.FailedAt ⟨false, []⟩ input position call none :=
  ⟨rfl, fun _ member => absurd member List.not_mem_nil, fun _ member => absurd member List.not_mem_nil⟩

/-- An alternative that has failed has shown that it does not always succeed, and that its
literal, if it is one, does not stand where it was tried. -/
theorem Grammar.Earlier.FailedAt.add {earlier : Grammar.Earlier L} {last : Option (ParseError L.Payload)}
    {context after : Context L} {alt : NodeId} {error : ParseError L.Payload}
    (failed : earlier.FailedAt input context.position call last)
    (leaves : call.RunsLeaves grammar input)
    (fails : call alt context = .finished (.error error) after) :
    (earlier.add grammar alt).FailedAt input context.position call (some error) := by
  have finishes : exists alt context outcome after, call alt context = .finished outcome after :=
    ⟨alt, context, _, after, fails⟩
  have old : earlier.FailedAt input context.position call (some error) :=
    ⟨failed.fails, failed.refuted, fun _ _ => ⟨Option.some_ne_none error, finishes⟩⟩
  rw [Grammar.Earlier.add]
  split
  · rename_i found
    rw [leaves finishes alt _ context found] at fails
    cases fails
  · rename_i literal found
    rw [leaves finishes alt _ context found, Leaf.run] at fails
    by_cases stands : Stream.matchesAt input context.position literal = true
    · simp only [if_pos stands, Leaf.matched] at fails
      cases fails
    · refine ⟨old.fails, ?_, fun _ _ => ⟨Option.some_ne_none error, finishes⟩⟩
      intro tried member
      rcases List.mem_cons.mp member with rfl | older
      · exact Bool.eq_false_iff.mpr stands
      · exact old.refuted tried older
  · exact old

namespace Dialogue

/-- Whether a dialogue makes at least the calls of another, and both come to the same apart
from what failures say. -/
structure Includes (call other : Caller L NodeId) (dialogue fewer : Dialogue L NodeId (Outcome L)) :
    Prop where
  calls : forall made, made ∈ fewer.calls other -> made ∈ dialogue.calls call
  verdict : (dialogue.run call).SameVerdict (fewer.run other)

theorem Includes.answered {reply reply' : Reply L (Outcome L)} (same : reply.SameVerdict reply') :
    Includes call other (.answered reply) (.answered reply') :=
  ⟨fun _ member => absurd member List.not_mem_nil, same⟩

theorem Includes.ask {operand : NodeId} {context : Context L}
    {next next' : Outcome L -> Context L -> Dialogue L NodeId (Outcome L)}
    (first : (call operand context).SameVerdict (other operand context))
    (matched : forall value after, call operand context = .finished (.ok value) after ->
      Includes call other (next (.ok value) after) (next' (.ok value) after))
    (failed : forall error error' after, call operand context = .finished (.error error) after ->
      Includes call other (next (.error error) after) (next' (.error error') after)) :
    Includes call other (.ask operand context next) (.ask operand context next') := by
  constructor
  · rw [Dialogue.calls, Dialogue.calls]
    generalize call operand context = reply at first matched failed ⊢
    generalize other operand context = reply' at first ⊢
    intro made member
    cases first with
    | matched =>
        rcases List.mem_cons.mp member with rfl | later
        · exact List.mem_cons_self
        · exact List.mem_cons_of_mem _ ((matched _ _ rfl).calls made later)
    | failed =>
        rcases List.mem_cons.mp member with rfl | later
        · exact List.mem_cons_self
        · exact List.mem_cons_of_mem _ ((failed _ _ _ rfl).calls made later)
    | halted => exact member
    | faulted => exact member
    | exhausted => exact member
  · rw [run_ask, run_ask]
    generalize call operand context = reply at first matched failed ⊢
    generalize other operand context = reply' at first ⊢
    cases first with
    | matched => exact (matched _ _ rfl).verdict
    | failed => exact (failed _ _ _ rfl).verdict
    | halted => exact .halted
    | faulted => exact .faulted
    | exhausted => exact .exhausted

/-- A choice goes on as if an alternative had not been there that has failed without a
trace. -/
theorem choice_refused {self : NodeId} {start : Snapshot L} {last : Option (ParseError L.Payload)}
    {alt : NodeId} {error : ParseError L.Payload} {context : Context L}
    (here : context.snapshot = start)
    (fails : call alt context = .finished (.error error) context) (rest : List NodeId) :
    (choice self start last (alt :: rest) context).calls call =
        (alt, context) :: (choice self start (some error) rest context).calls call ∧
      (choice self start last (alt :: rest) context).run call =
        (choice self start (some error) rest context).run call := by
  have back : context.restore start = context := by
    rw [← here]
    rfl
  have stays : context.position = start.position := by
    rw [← here]
    rfl
  rw [choice, calls_ask_finished _ fails, run_ask, fails, Reply.andThen_finished]
  simp only [if_pos stays, back, and_self]

/-- A choice makes fewer calls without its dead alternatives, and comes to the same apart from
what failures say. -/
theorem choice_pruned (leaves : call.RunsLeaves grammar input) {self : NodeId}
    {start : Snapshot L} {earlier : Grammar.Earlier L} {alts kept : List NodeId}
    (prunes : grammar.Prunes earlier alts kept) {last last' : Option (ParseError L.Payload)}
    (both : last = none ↔ last' = none) {context : Context L} (here : context.snapshot = start)
    (failed : earlier.FailedAt input context.position call last)
    (calls : forall made, made ∈ (choice self start last alts context).calls call ->
      (call made.1 made.2).SameVerdict (other made.1 made.2)) :
    Includes call other (choice self start last alts context)
      (choice self start last' kept context) := by
  induction prunes generalizing last last' context with
  | nil =>
      cases last with
      | none =>
          rw [both.mp rfl]
          exact .answered .faulted
      | some error =>
          cases last' with
          | none => cases both.mpr rfl
          | some error' => exact .answered .failed
  | @keep earlier alt rest kept prunes inductionHypothesis =>
      rw [choice] at calls
      rw [choice, choice]
      refine .ask (calls (alt, context) (mem_calls_ask.mpr (Or.inl rfl))) ?_ ?_
      · intro value after _
        exact .answered .matched
      · intro error error' after fails
        rw [calls_ask_finished _ fails] at calls
        dsimp only at calls ⊢
        by_cases stayed : after.position = start.position
        · rw [if_pos stayed] at calls
          rw [if_pos stayed, if_pos stayed]
          have bothFailed : some error = none ↔ some error' = none :=
            iff_of_false (Option.some_ne_none error) (Option.some_ne_none error')
          have samePosition : context.position = (after.restore start).position := by
            rw [← here]
            rfl
          exact inductionHypothesis bothFailed rfl (samePosition ▸ failed.add leaves fails)
            fun made member => calls made (List.mem_cons_of_mem _ member)
        · rw [if_neg stayed, if_neg stayed]
          exact .answered .failed
  | @drop earlier alt rest kept dead prunes inductionHypothesis =>
      rcases dead with succeeds | ⟨literal, found, repeats⟩
      · rw [failed.fails] at succeeds
        cases succeeds
      · rcases failed.seen literal repeats with ⟨someLast, finishes⟩
        have fails : call alt context = .finished (.error (Leaf.failure context alt)) context := by
          rw [leaves finishes alt _ context found, Leaf.run]
          simp only [failed.refuted literal repeats]
          rfl
        have bothFailed : some (Leaf.failure context alt) = none ↔ last' = none :=
          iff_of_false (Option.some_ne_none _) (mt both.mpr someLast)
        rcases choice_refused here fails rest with ⟨sameCalls, sameReply⟩
        rw [sameCalls] at calls
        have others := inductionHypothesis bothFailed here (failed.add leaves fails)
          fun made member => calls made (List.mem_cons_of_mem _ member)
        constructor
        · intro made member
          rw [sameCalls]
          exact List.mem_cons_of_mem _ (others.calls made member)
        · rw [sameReply]
          exact others.verdict

end Dialogue

end Choice

/-! ## The other nodes -/

namespace Grammar

variable {grammar other : Grammar L} {choice id : NodeId} {alts kept : List NodeId}

/-- Whether every repetition saves the state in one grammar if it does in another. -/
def SavesAlike (grammar other : Grammar L) : Prop :=
  forall (id inner : NodeId) element min max,
    grammar.nodes[id]? = some (.repeated inner element min max) ->
      other.writesState inner = grammar.writesState inner

theorem withAlternatives_nodes_self (found : grammar.nodes[choice]? = some (.choice alts)) :
    (grammar.withAlternatives choice kept).nodes[choice]? = some (.choice kept) := by
  rw [withAlternatives, List.getElem?_set_self (List.getElem?_eq_some_iff.mp found).1]

theorem withAlternatives_nodes_of_ne (ne : id ≠ choice) :
    (grammar.withAlternatives choice kept).nodes[id]? = grammar.nodes[id]? := by
  rw [withAlternatives, List.getElem?_set_ne ne.symm]

end Grammar

namespace Machine

variable {machine other : Machine L} {steps depth : Nat} {id : NodeId} {context : Context L}

/-- A leaf that is called does what it does on its own, unless nothing can be called. -/
theorem runsLeaves (machine : Machine L) (steps depth : Nat) :
    (machine.run steps depth).RunsLeaves machine.grammar machine.input := by
  rintro ⟨alt, first, outcome, after, ends⟩ id atom context found
  cases steps with
  | zero => cases ends
  | succ steps =>
      rw [run] at ends ⊢
      by_cases trips : 0 < machine.maxDepth ∧ machine.maxDepth < depth
      · rw [if_pos trips] at ends
        cases ends
      · rw [if_neg trips, found]
        rfl

/-- The dialogue of a node that exists, below the limit. -/
theorem dialogue_of_found {clause : Clause L PatternProgram NodeId}
    (free : ¬(0 < machine.maxDepth ∧ machine.maxDepth < depth))
    (found : machine.grammar.nodes[id]? = some clause) :
    machine.dialogue steps depth id context =
      clause.dialogue steps machine.input machine.grammar.writesState id context := by
  rw [dialogue, if_neg free, found]

/-- What the run of a node comes to in another machine: the same, apart from what failures
say, and without recalling another state if the first does not. -/
structure FollowedBy (machine other : Machine L) (steps depth : Nat) (id : NodeId)
    (context : Context L) : Prop where
  verdict : (machine.run steps depth id context).SameVerdict (other.run steps depth id context)
  recalls : other.RecallsState steps depth id context ->
    machine.RecallsState steps depth id context

/-- A call that fails leaves the state as it was if one of two grammars says that nothing
replaces it, unless a left recursion recalls another state. -/
theorem FollowedBy.leaves_state (follows : machine.FollowedBy other steps depth id context)
    (steady : ¬machine.RecallsState steps depth id context)
    (differ : other.grammar.writesState id ≠ machine.grammar.writesState id)
    {error : ParseError L.Payload} {after : Context L}
    (fails : other.run steps depth id context = .finished (.error error) after) :
    after.state = context.state := by
  cases quiet : other.grammar.writesState id with
  | false =>
      have holds := run_holds (Grammar.keepsState_of_writesState quiet)
        fun recalls => steady (follows.recalls recalls)
      rw [fails] at holds
      exact holds.state
  | true =>
      have quiet : machine.grammar.writesState id = false := by
        cases writes : machine.grammar.writesState id with
        | false => rfl
        | true => exact absurd (quiet.trans writes.symm) differ
      have holds := run_holds (Grammar.keepsState_of_writesState quiet) steady
      have verdict := follows.verdict
      rw [fails] at verdict
      generalize machine.run steps depth id context = reply at holds verdict
      cases verdict with
      | failed => exact holds.state

/-- What a node comes to, and whether a state is recalled on the way, from the same of its
calls. -/
theorem followedBy_succ (free : ¬(0 < machine.maxDepth ∧ machine.maxDepth < depth))
    (calls : forall made, made ∈ machine.callsOf steps depth id context ->
      machine.FollowedBy other steps (depth + 1) made.1 made.2)
    (own : forall clause, other.grammar.nodes[id]? = some clause ->
      clause.RecallsState id context -> machine.grammar.nodes[id]? = some clause)
    (includes : Dialogue.Includes (machine.run steps (depth + 1)) (other.run steps (depth + 1))
      (machine.dialogue steps depth id context) (other.dialogue steps depth id context)) :
    machine.FollowedBy other (steps + 1) depth id context where
  verdict := by
    rw [run_succ, run_succ]
    exact includes.verdict
  recalls recalls := by
    apply recallsState_succ.mpr
    rcases recallsState_succ.mp recalls with ⟨made, isCall, recalls⟩ | ⟨clause, _, found, recalls⟩
    · have isCall := includes.calls made isCall
      exact Or.inl ⟨made, isCall, (calls made isCall).recalls recalls⟩
    · exact Or.inr ⟨clause, free, own clause found recalls, recalls⟩

/-- A node that two grammars have in common comes to the same if its calls do. -/
theorem followedBy_of_clause {clause : Clause L PatternProgram NodeId}
    (sameInput : other.input = machine.input) (sameLimit : other.maxDepth = machine.maxDepth)
    (free : ¬(0 < machine.maxDepth ∧ machine.maxDepth < depth))
    (found : machine.grammar.nodes[id]? = some clause)
    (foundOther : other.grammar.nodes[id]? = some clause) (keeps : clause.KeepsFailures)
    (steady : forall made, made ∈ machine.callsOf steps depth id context ->
      machine.grammar.SavesAlike other.grammar ∨
        ¬machine.RecallsState steps (depth + 1) made.1 made.2)
    (calls : forall made, made ∈ machine.callsOf steps depth id context ->
      machine.FollowedBy other steps (depth + 1) made.1 made.2) :
    machine.FollowedBy other (steps + 1) depth id context := by
  apply followedBy_succ free calls (fun _ isClause _ => found.trans (foundOther.symm.trans isClause))
  have freeOther : ¬(0 < other.maxDepth ∧ other.maxDepth < depth) := by rwa [sameLimit]
  rw [callsOf] at steady calls
  rw [dialogue_of_found freeOther foundOther, sameInput]
  rw [dialogue_of_found free found] at steady calls ⊢
  have alike := (Clause.dialogue_sameVerdict keeps steps machine.input machine.grammar.writesState
    id context).run fun made member => (calls made member).verdict
  have kept : forall inner element min max, clause = .repeated inner element min max ->
      other.grammar.writesState inner = machine.grammar.writesState inner ∨
        forall made, made ∈ (clause.dialogue steps machine.input machine.grammar.writesState id
            context).calls (other.run steps (depth + 1)) ->
          forall error after,
            other.run steps (depth + 1) made.1 made.2 = .finished (.error error) after ->
              after.state = made.2.state := by
    rintro inner element min max rfl
    by_cases same : other.grammar.writesState inner = machine.grammar.writesState inner
    · exact Or.inl same
    · refine Or.inr ?_
      intro made member error after fails
      have isInner : made.1 = inner := by
        rw [Clause.dialogue, Dialogue.calls_andThen_answered] at member
        exact Dialogue.repeated_calls member
      rw [alike.1] at member
      rcases steady made member with agree | steady
      · exact absurd (agree id inner element min max found) same
      · exact (calls made member).leaves_state steady (isInner ▸ same) fails
  rcases Clause.dialogue_resaving kept with ⟨sameCalls, sameReply⟩
  constructor
  · rw [sameCalls, alike.1]
    exact fun _ member => member
  · rw [sameReply]
    exact alike.2

/-- The choice comes to the same without dead alternatives if its calls do. -/
theorem followedBy_of_choice {alts kept : List NodeId}
    (sameLimit : other.maxDepth = machine.maxDepth)
    (free : ¬(0 < machine.maxDepth ∧ machine.maxDepth < depth))
    (found : machine.grammar.nodes[id]? = some (.choice alts))
    (foundOther : other.grammar.nodes[id]? = some (.choice kept))
    (prunes : machine.grammar.Prunes ⟨false, []⟩ alts kept)
    (calls : forall made, made ∈ machine.callsOf steps depth id context ->
      machine.FollowedBy other steps (depth + 1) made.1 made.2) :
    machine.FollowedBy other (steps + 1) depth id context := by
  apply followedBy_succ free calls
  · intro clause isClause recalls
    cases foundOther.symm.trans isClause
    exact recalls.elim
  · have freeOther : ¬(0 < other.maxDepth ∧ other.maxDepth < depth) := by rwa [sameLimit]
    rw [callsOf] at calls
    rw [dialogue_of_found freeOther foundOther]
    rw [dialogue_of_found free found] at calls ⊢
    exact Dialogue.choice_pruned (machine.runsLeaves steps (depth + 1)) prunes Iff.rfl rfl
      (.start _ _ _) fun made member => (calls made member).verdict

/-- Without dead alternatives of one choice, every node comes to the same, apart from what
failures say. -/
theorem followedBy_of_prunes {choice : NodeId} {alts kept : List NodeId}
    (isChoice : machine.grammar.nodes[choice]? = some (.choice alts))
    (prunes : machine.grammar.Prunes ⟨false, []⟩ alts kept)
    (keeps : forall (id : NodeId) clause, machine.grammar.nodes[id]? = some clause ->
      clause.KeepsFailures)
    (isOther : other = { machine with grammar := machine.grammar.withAlternatives choice kept })
    (steady : machine.grammar.SavesAlike other.grammar ∨
      ¬machine.RecallsState steps depth id context) :
    machine.FollowedBy other steps depth id context := by
  have sameInput : other.input = machine.input := by rw [isOther]
  have sameLimit : other.maxDepth = machine.maxDepth := by rw [isOther]
  induction steps generalizing depth id context with
  | zero =>
      refine ⟨.exhausted, ?_⟩
      rintro ⟨event, member, _⟩
      cases member
  | succ steps inductionHypothesis =>
      have within : forall made, made ∈ machine.callsOf steps depth id context ->
          machine.grammar.SavesAlike other.grammar ∨
            ¬machine.RecallsState steps (depth + 1) made.1 made.2 :=
        fun made isCall => steady.imp_right fun steady recalls =>
          steady (recallsState_of_call isCall recalls)
      have calls : forall made, made ∈ machine.callsOf steps depth id context ->
          machine.FollowedBy other steps (depth + 1) made.1 made.2 :=
        fun made isCall => inductionHypothesis (within made isCall)
      by_cases trips : 0 < machine.maxDepth ∧ machine.maxDepth < depth
      · constructor
        · rw [run, run, sameLimit, if_pos trips, if_pos trips]
          exact .halted
        · intro recalls
          rcases recallsState_succ.mp recalls with ⟨made, isCall, _⟩ | ⟨_, free, _⟩
          · rw [callsOf, dialogue, sameLimit, if_pos trips] at isCall
            cases isCall
          · rw [sameLimit] at free
            exact absurd trips free
      · by_cases isId : id = choice
        · subst isId
          refine followedBy_of_choice sameLimit trips isChoice ?_ prunes calls
          rw [isOther]
          exact Grammar.withAlternatives_nodes_self isChoice
        · have same : other.grammar.nodes[id]? = machine.grammar.nodes[id]? := by
            rw [isOther]
            exact Grammar.withAlternatives_nodes_of_ne isId
          cases found : machine.grammar.nodes[id]? with
          | none =>
              rw [found] at same
              apply followedBy_succ trips calls
              · intro clause isClause
                rw [same] at isClause
                cases isClause
              · rw [dialogue, dialogue, sameLimit, if_neg trips, if_neg trips, same, found]
                exact .answered .faulted
          | some clause =>
              exact followedBy_of_clause sameInput sameLimit trips found (same.trans found)
                (keeps id clause found) within calls

end Machine

/-! ## Reported alternatives -/

namespace Grammar

/-- A choice does without all the alternatives that are reported as dead, and so does every
other node: in any context it comes to the same within the same number of steps, apart from
what failures say.  This holds if functions keep failures, and if every repetition saves the
state as it did before or no left recursion recalls another one. -/
theorem run_unflagged {grammar : Grammar L} {name : String} {known later : Nullability}
    {warnings : List GrammarWarning}
    (isReport : grammar.warnings name known = .ok (warnings, later)) {choice : NodeId}
    {alts : List NodeId} (isChoice : grammar.nodes[choice]? = some (.choice alts))
    (keeps : forall (id : NodeId) clause, grammar.nodes[id]? = some clause -> clause.KeepsFailures)
    (input : L.Input) (limit : Nat) {steps depth : Nat} {id : NodeId} {context : Context L}
    (steady : grammar.SavesAlike
        (grammar.withAlternatives choice (unflagged warnings choice 0 alts)) ∨
      ¬(⟨grammar, input, limit⟩ : Machine L).RecallsState steps depth id context) :
    ((⟨grammar, input, limit⟩ : Machine L).run steps depth id context).SameVerdict
      ((⟨grammar.withAlternatives choice (unflagged warnings choice 0 alts), input, limit⟩ :
        Machine L).run steps depth id context) := by
  have prunes : grammar.Prunes ⟨false, []⟩ alts (unflagged warnings choice 0 alts) := by
    apply unflagged_prunes
    intro index alt flagged found
    rw [Nat.zero_add] at flagged
    rcases List.any_eq_true.mp flagged with ⟨warning, reported, flags⟩
    rw [Grammar.warnings] at isReport
    split at isReport
    · rename_i root _
      cases isReport
      exact isDead_of_flags isChoice reported flags found
    · cases isReport
  exact (Machine.followedBy_of_prunes isChoice prunes keeps rfl steady).verdict

/-- The text of a letter, or of two in a row, with one of the letters repeated. -/
def letterParser : Construction (Parser plainText .text) := do
  let pair ← (← Parser.exact "b").thenRight (← Parser.exact "c")
  let word ← (← (← Parser.exact "a").orElse (← pair.attempt)).orElse (← Parser.exact "a")
  word.slice

/-- The rule with the letter that is repeated. -/
def letterRules : GrammarBuilder plainText := ⟨[⟨"letter", .text, (letterParser 0).1⟩]⟩

/-- The nodes of the rule with the letter that is repeated. -/
def letterGrammar : Grammar plainText :=
  ⟨[.leaf (.exact "a"), .leaf (.exact "b"), .leaf (.exact "c"), .sequence [1, 2] (.pick 1),
    .attempt 3, .leaf (.exact "a"), .choice [0, 4, 5],
    .map 6 (.ofTyped .text .text fun result token => result.map fun _ => token.span)],
    [⟨"letter", .text, 7⟩]⟩

theorem letters_reported : exists known warnings later,
    letterRules.build PatternCache.empty = (.ok ⟨letterGrammar, known⟩, PatternCache.empty) ∧
      letterGrammar.warnings "letter" known = .ok (warnings, later) ∧
      unflagged warnings 6 0 [0, 4, 5] = [0, 4] :=
  ⟨_, _, _, rfl, rfl, by decide +kernel⟩

/-- Without the letter that is repeated, the pair is read as before. -/
theorem letters_unflagged : exists known warnings later,
    letterGrammar.warnings "letter" known = .ok (warnings, later) ∧
      letterGrammar.nodes[6]? = some (.choice [0, 4, 5]) ∧
      unflagged warnings 6 0 [0, 4, 5] = [0, 4] ∧
      (forall (id : NodeId) clause, letterGrammar.nodes[id]? = some clause ->
        clause.KeepsFailures) ∧
      letterGrammar.SavesAlike
        (letterGrammar.withAlternatives 6 (unflagged warnings 6 0 [0, 4, 5])) ∧
      ((⟨letterGrammar, "bc", 0⟩ : Machine plainText).run 5 1 7 (Context.start ())).SameVerdict
        ((⟨letterGrammar.withAlternatives 6 (unflagged warnings 6 0 [0, 4, 5]), "bc", 0⟩ :
          Machine plainText).run 5 1 7 (Context.start ())) := by
  have keeps : forall (id : NodeId) clause, letterGrammar.nodes[id]? = some clause ->
      clause.KeepsFailures := by
    have all : forall clause, clause ∈ letterGrammar.nodes -> clause.KeepsFailures := by
      simp only [letterGrammar, List.forall_mem_cons, Clause.KeepsFailures, true_and]
      exact ⟨Transform.ofTyped_keepsFailures fun before _ => ⟨before, rfl⟩,
        fun _ member => absurd member List.not_mem_nil⟩
    exact fun id clause found => all clause (List.mem_of_getElem? found)
  have saves : forall other, letterGrammar.SavesAlike other := by
    intro other id inner element min max found
    have isNode := List.mem_of_getElem? found
    simp [letterGrammar] at isNode
  rcases letters_reported with ⟨known, warnings, later, _, isReport, dead⟩
  refine ⟨known, warnings, later, isReport, rfl, dead, keeps, saves _, ?_⟩
  exact run_unflagged isReport rfl keeps "bc" 0 (Or.inl (saves _))

/-- If neither the letters nor the pair are there, it is the last failure that counts.  With
the letter that is repeated this is a failure at the start, without it one after the first
letter of the pair. -/
theorem letters_fail_elsewhere : exists known warnings later,
    letterRules.build PatternCache.empty = (.ok ⟨letterGrammar, known⟩, PatternCache.empty) ∧
      letterGrammar.warnings "letter" known = .ok (warnings, later) ∧
      exists error other last after,
        (⟨letterGrammar, "bd", 0⟩ : Machine plainText).run 5 1 6 (Context.start ()) =
          .finished (.error error) last ∧
        (⟨letterGrammar.withAlternatives 6 (unflagged warnings 6 0 [0, 4, 5]), "bd", 0⟩ :
          Machine plainText).run 5 1 6 (Context.start ()) = .finished (.error other) after ∧
        error.position ≠ other.position := by
  rcases letters_reported with ⟨known, warnings, later, isBuilt, isReport, dead⟩
  refine ⟨known, warnings, later, isBuilt, isReport, (ParseError.bare 0).withNode 5,
    (ParseError.bare 1).withNode 2, Context.start (), Context.start (), rfl, ?_, Nat.zero_ne_one⟩
  rw [dead]
  rfl

/-- A rule that starts with rows of itself after a letter, and whose last alternative, which
counts, follows one that always succeeds.  Another rule looks for the letter after it has
counted, before it comes to the first. -/
def rowsGrammar : Grammar countedText :=
  ⟨[.leaf (.exact "a"), .leftRecursion 0, .reference "rows" .unit (some 10),
    .sequence [1, 10] (.pick 1), .repeated 3 .unit 0 none, .leaf .empty, .sequence [4, 5] (.pick 1),
    .leaf .empty, .leaf .empty, .update 8 fun count _ => Nat.succ count, .choice [6, 7, 9],
    .sequence [9, 1] (.pick 1), .leaf .empty, .sequence [11, 12] (.pick 1), .attempt 13,
    .choice [14, 10]], [⟨"rows", .unit, 10⟩, ⟨"start", .unit, 15⟩]⟩

/-- If a left recursion recalls another state, more can differ.  The rows save the state as
long as the alternative that counts is there; without it they end with the state of the seed. -/
theorem rows_recall : exists warnings later,
    rowsGrammar.warnings "start" (Nullability.unknown 16) = .ok (warnings, later) ∧
      exists last after,
        (rowsGrammar.machine "b").run 12 1 15 (Context.start Nat.zero) =
          .finished (.ok ⟨.unit, ()⟩) last ∧
        ((rowsGrammar.withAlternatives 10 (unflagged warnings 10 0 [6, 7, 9])).machine "b").run 12 1
            15 (Context.start Nat.zero) = .finished (.ok ⟨.unit, ()⟩) after ∧
        last.state = Nat.zero ∧ after.state = Nat.succ Nat.zero := by
  have reported : exists warnings later,
      rowsGrammar.warnings "start" (Nullability.unknown 16) = .ok (warnings, later) ∧
        unflagged warnings 10 0 [6, 7, 9] = [6, 7] :=
    ⟨_, _, rfl, by decide +kernel⟩
  rcases reported with ⟨warnings, later, isReport, dead⟩
  refine ⟨warnings, later, isReport, ?_⟩
  rw [dead]
  exact ⟨_, _, rfl, rfl, rfl, rfl⟩

end Grammar
end SeedGrammar
