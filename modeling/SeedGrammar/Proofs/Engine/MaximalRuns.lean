import SeedGrammar.Proofs.Engine.KeptState
import SeedGrammar.Proofs.Grammar.Nullability

namespace SeedGrammar

/-!
# Repetitions are maximal runs

A repetition runs its operand from where the run before has ended, and has five ways to
end.  It may have as many matches as it may have; a match that is not required may stay
where it is, since the next one would too; a run may fail where it started.  These are
successes, provided that there are enough matches.  A run that fails after it advanced, or
before there are enough matches, is a failure of the repetition.

Which of these it is depends on the runs that are made and on how many there were before
them.  So a success is described by its iterations and by the reason to stop after them,
`Caller.Iterations` and `Caller.Stops`, and a failure by the place of a run among the calls of
the repetition, `Caller.FailsForGood`.
-/

variable {L : Signature}

namespace Caller

variable {α : Type}

/-- Matches of an operand one after the other, each from the context in which the one
before has ended, when there were so many before.  Only the last may have stayed where it
was without being required. -/
inductive Iterations (call : Caller L α) (inner : α) (min : Nat) :
    Nat -> List (Value L) -> Context L -> Context L -> Prop where
  | none {count context} : Iterations call inner min count [] context context
  | more {count value values first middle last} :
      call inner first = .finished (.ok value) middle ->
      values = [] ∨ middle.position ≠ first.position ∨ count + 1 < min ->
      Iterations call inner min (count + 1) values middle last ->
      Iterations call inner min count (value :: values) first last

/-- Why a repetition stops after its matches, and in which context it ends: there may be no
more of them, the last one stayed where it was, or a further run has failed where it
started. -/
inductive Stops (call : Caller L α) (inner : α) (min : Nat) (max : Option Nat) (keepState : Bool)
    (count : Nat) (first : Context L) (values : List (Value L)) (last : Context L) :
    Context L -> Prop where
  | full : max = some (count + values.length) ->
      Stops call inner min max keepState count first values last last
  | idle {early value middle} : values = early ++ [value] ->
      call.Iterations inner min count early first middle ->
      call inner middle = .finished (.ok value) last -> last.position = middle.position ->
      Stops call inner min max keepState count first values last last
  | failed {error failed} : call inner last = .finished (.error error) failed ->
      failed.position = last.position ->
      Stops call inner min max keepState count first values last
        { failed with
          position := last.position
          state := if keepState then failed.state else last.state }

/-- Whether a repetition that had so many matches before goes from one context to another
with further values, and rightly stops there. -/
structure RunsThrough (call : Caller L α) (inner : α) (min : Nat) (max : Option Nat)
    (keepState : Bool) (count : Nat) (first : Context L) (values : List (Value L))
    (last after : Context L) : Prop where
  iterations : call.Iterations inner min count values first last
  enough : min ≤ count + values.length
  atMost : forall most, max = some most -> count + values.length ≤ most
  stops : call.Stops inner min max keepState count first values last after

/-- Whether among some calls the one at a place fails in a way that a repetition cannot
stop at: it has moved on, or there are fewer matches before it than are required. -/
def FailsForGood (call : Caller L α) (calls : List (α × Context L)) (min place : Nat)
    (error : ParseError L.Payload) (failed : Context L) : Prop :=
  exists made, calls[place]? = some made ∧ call made.1 made.2 = .finished (.error error) failed ∧
    (failed.position ≠ made.2.position ∨ place < min)

variable {call : Caller L α} {inner : α} {min count : Nat} {max : Option Nat} {keepState : Bool}
  {value : Value L} {values : List (Value L)} {first middle last after : Context L}

/-- An iteration that goes on comes before the others. -/
theorem RunsThrough.more (isMatch : call inner first = .finished (.ok value) middle)
    (goesOn : middle.position ≠ first.position ∨ count + 1 < min)
    (through : call.RunsThrough inner min max keepState (count + 1) middle values last after) :
    call.RunsThrough inner min max keepState count first (value :: values) last after := by
  have counted : count + (value :: values).length = count + 1 + values.length := by
    rw [List.length_cons, Nat.add_comm values.length 1, Nat.add_assoc]
  refine ⟨.more isMatch (Or.inr goesOn) through.iterations, counted ▸ through.enough,
    counted ▸ through.atMost, ?_⟩
  cases through.stops with
  | full isMax => exact .full (counted ▸ isMax)
  | @idle early other start isLast iterations isIdle stays =>
      exact .idle (congrArg (value :: ·) isLast) (.more isMatch (Or.inr goesOn) iterations) isIdle
        stays
  | failed isFailure stays => exact .failed isFailure stays

/-- No call fails for good if there are none. -/
theorem not_failsForGood_nil {place : Nat} {error : ParseError L.Payload} {failed : Context L} :
    ¬call.FailsForGood [] min place error failed := by
  rintro ⟨made, isCall, _⟩
  cases isCall

/-- A call that matched has not failed, so it is one of the others, with one match less to
come. -/
theorem exists_failsForGood_of_matched {calls : List (α × Context L)}
    (isMatch : call inner first = .finished (.ok value) middle) (error : ParseError L.Payload)
    (failed : Context L) :
    (exists place, call.FailsForGood ((inner, first) :: calls) min place error failed) ↔
      exists place, call.FailsForGood calls (min - 1) place error failed := by
  constructor
  · rintro ⟨_ | place, made, isCall, isFailure, final⟩
    · cases isCall
      cases isMatch.symm.trans isFailure
    · exact ⟨place, made, isCall, isFailure, final.imp_right Nat.lt_sub_of_add_lt⟩
  · rintro ⟨place, made, isCall, isFailure, final⟩
    exact ⟨place + 1, made, isCall, isFailure, final.imp_right Nat.add_lt_of_lt_sub⟩

/-- A single call that failed is the one that fails for good, if any is. -/
theorem exists_failsForGood_of_failed {other : ParseError L.Payload}
    (isFailure : call inner first = .finished (.error other) middle) (error : ParseError L.Payload)
    (failed : Context L) :
    (exists place, call.FailsForGood [(inner, first)] min place error failed) ↔
      (other = error ∧ middle = failed) ∧ (middle.position ≠ first.position ∨ 0 < min) := by
  constructor
  · rintro ⟨_ | place, made, isCall, fails, final⟩
    · cases isCall
      cases isFailure.symm.trans fails
      exact ⟨⟨rfl, rfl⟩, final⟩
    · cases isCall
  · rintro ⟨⟨rfl, rfl⟩, final⟩
    exact ⟨0, _, rfl, isFailure, final⟩

end Caller

section Loop

variable {α : Type} {call : Caller L α} {inner : α} {min : Nat} {max : Option Nat}
  {keepState : Bool}

/-- A repetition that succeeds has run through its values. -/
theorem runRepeated_runsThrough (ordered : forall most, max = some most -> min ≤ most)
    {rounds : Nat} {before all : List (Value L)} {first after : Context L}
    (atMost : forall most, max = some most -> before.length ≤ most)
    (ends : runRepeated call keepState inner min max rounds before first =
      .finished (.ok all) after) :
    exists values last, all = before.reverse ++ values ∧
      call.RunsThrough inner min max keepState before.length first values last after := by
  induction rounds generalizing before first with
  | zero => cases ends
  | succ rounds inductionHypothesis =>
      rw [runRepeated] at ends
      by_cases full : max.any (· ≤ before.length) = true
      · rw [if_pos full] at ends
        cases ends
        have isMax : max = some before.length := by
          cases max with
          | none => cases full
          | some most =>
              exact congrArg some (Nat.le_antisymm (of_decide_eq_true full) (atMost most rfl))
        exact ⟨[], _, (List.append_nil _).symm, .none, ordered _ isMax, atMost, .full isMax⟩
      · rw [if_neg full] at ends
        have room : forall most, max = some most -> before.length + 1 ≤ most := by
          intro most isMax
          rw [isMax, Option.any_some, decide_eq_true_eq] at full
          omega
        rcases Reply.andThen_eq_finished ends with ⟨outcome, middle, isRun, ends⟩
        cases outcome with
        | ok value =>
            dsimp only at ends
            by_cases stops : middle.position = first.position ∧ min ≤ before.length + 1
            · rw [if_pos stops] at ends
              cases ends
              refine ⟨[value], after, List.reverse_cons, ?_, stops.2, room, ?_⟩
              · exact .more isRun (Or.inl rfl) .none
              · exact .idle (List.nil_append _).symm .none isRun stops.1
            · rw [if_neg stops] at ends
              have goesOn : middle.position ≠ first.position ∨ before.length + 1 < min := by
                omega
              rcases @inductionHypothesis (value :: before) middle room ends with
                ⟨values, last, isAll, through⟩
              refine ⟨value :: values, last, ?_, through.more isRun goesOn⟩
              rw [isAll, List.reverse_cons, List.append_assoc]
              rfl
        | error error =>
            dsimp only at ends
            by_cases final : middle.position ≠ first.position ∨ before.length < min
            · rw [if_pos final] at ends
              cases ends
            · rw [if_neg final] at ends
              cases ends
              rcases not_or.mp final with ⟨stays, few⟩
              exact ⟨[], first, (List.append_nil _).symm, .none, Nat.le_of_not_lt few, atMost,
                .failed isRun (not_not.mp stays)⟩

end Loop

namespace Dialogue

variable {α : Type} {call : Caller L α} {inner : α} {min : Nat} {max : Option Nat}
  {keepState : Bool}

/-- A repetition fails exactly if one of its calls fails for good, and as this call does. -/
theorem repeated_fails_iff {rounds : Nat} {before : List (Value L)} {first after : Context L}
    {answer : Values L}
    (ends : (repeated keepState inner min max rounds before first).run call =
      .finished answer after) (error : ParseError L.Payload) (failed : Context L) :
    (answer = .error error ∧ after = failed) ↔
      exists place, call.FailsForGood
        ((repeated keepState inner min max rounds before first).calls call) (min - before.length)
        place error failed := by
  induction rounds generalizing before first with
  | zero => cases ends
  | succ rounds inductionHypothesis =>
      have succeeded : forall {values : List (Value L)} {place},
          ¬((Except.ok values : Values L) = .error error ∧ place = failed) := by
        rintro values place ⟨⟨⟩, _⟩
      have noCall : forall {least}, ¬exists place, call.FailsForGood [] least place error failed :=
        fun fails => fails.elim fun _ => Caller.not_failsForGood_nil
      rw [repeated] at ends ⊢
      by_cases full : max.any (· ≤ before.length) = true
      · rw [if_pos full] at ends ⊢
        cases ends
        exact iff_of_false succeeded noCall
      · rw [if_neg full] at ends ⊢
        rcases run_ask_finished ends with ⟨outcome, middle, isRun, ends⟩
        rw [calls_ask_finished _ isRun]
        cases outcome with
        | ok value =>
            rw [Caller.exists_failsForGood_of_matched isRun]
            dsimp only at ends ⊢
            by_cases stops : middle.position = first.position ∧ min ≤ before.length + 1
            · rw [if_pos stops] at ends ⊢
              cases ends
              exact iff_of_false succeeded noCall
            · rw [if_neg stops] at ends ⊢
              exact inductionHypothesis ends
        | error other =>
            dsimp only at ends ⊢
            by_cases final : middle.position ≠ first.position ∨ before.length < min
            · rw [if_pos final] at ends ⊢
              cases ends
              rw [Except.error.injEq]
              exact (and_iff_left (final.imp_right Nat.sub_pos_of_lt)).symm.trans
                (Caller.exists_failsForGood_of_failed isRun error failed).symm
            · rw [if_neg final] at ends ⊢
              cases ends
              refine iff_of_false succeeded fun fails => final ?_
              exact ((Caller.exists_failsForGood_of_failed isRun error failed).mp fails).2.imp_right
                Nat.lt_of_sub_pos

end Dialogue

/-- Values that can be collected at a type are of that type. -/
theorem Value.eq_map_of_getAll? {type : ValueType L.Kind} {values : List (Value L)}
    {contents : List (type.Carrier L)} (collected : Value.getAll? type values = some contents) :
    values = contents.map (Value.mk type) := by
  induction values generalizing contents with
  | nil =>
      cases collected
      rfl
  | cons value values inductionHypothesis =>
      rw [getAll?] at collected
      split at collected
      · rename_i content others isContent areOthers
        cases collected
        rw [List.map_cons, <- inductionHypothesis areOthers]
        rw [get?] at isContent
        split at isContent
        · rename_i same
          subst same
          cases isContent
          rfl
        · cases isContent
      · cases collected

/-- Gathering values fails if and only if one of them did. -/
theorem finishGathered_finished {self : NodeId} {gather : Gather L.Kind} {values : Values L}
    {last after : Context L} {outcome : Outcome L}
    (gathered : finishGathered self gather values last = .finished outcome after) :
    last = after ∧ forall error, outcome = .error error ↔ values = .error error := by
  cases values with
  | error error =>
      cases gathered
      refine ⟨rfl, fun other => ?_⟩
      rw [Except.error.injEq, Except.error.injEq]
  | ok values =>
      rw [finishGathered] at gathered
      cases collected : gather.collect values with
      | none =>
          rw [collected] at gathered
          cases gathered
      | some value =>
          rw [collected] at gathered
          cases gathered
          exact ⟨rfl, fun error => ⟨nofun, nofun⟩⟩

namespace Machine

variable {machine : Machine L} {steps depth : Nat} {id : NodeId} {context after : Context L}

/-- A node that finishes has not tripped the limit, and its clause has finished. -/
theorem clause_of_finished {clause : Clause L PatternProgram NodeId} {outcome : Outcome L}
    (found : machine.grammar.nodes[id]? = some clause)
    (ends : machine.run (steps + 1) depth id context = .finished outcome after) :
    machine.dialogue steps depth id context =
        clause.dialogue steps machine.input machine.grammar.writesState id context ∧
      clause.run (machine.run steps (depth + 1)) steps machine.input machine.grammar.writesState id
        context = .finished outcome after := by
  rw [run] at ends
  rw [dialogue]
  by_cases deep : 0 < machine.maxDepth ∧ machine.maxDepth < depth
  · rw [if_pos deep] at ends
    cases ends
  · rw [if_neg deep] at ends ⊢
    rw [found] at ends ⊢
    exact ⟨rfl, ends⟩

end Machine

namespace GrammarBuilder

/-- A repetition of a built grammar that succeeds has run through its values, at least and
at most as many as its bounds say, up to where it rightly stops.  It fails exactly if one of
its runs fails that has moved on or that has too few matches before it, and then as this run
does. -/
theorem build_repeats_maximally {builder : GrammarBuilder L} {cache later : PatternCache}
    {built : BuiltGrammar L} (accepted : builder.build cache = (.ok built, later))
    {machine : Machine L} (isGrammar : machine.grammar = built.grammar) {id inner : NodeId}
    {element : ValueType L.Kind} {min : Nat} {max : Option Nat}
    (found : built.grammar.nodes[id]? = some (.repeated inner element min max))
    {steps depth : Nat} {context after : Context L} {outcome : Outcome L}
    (ends : machine.run (steps + 1) depth id context = .finished outcome after) :
    (forall value, outcome = .ok value ->
      exists (contents : List (element.Carrier L)) (last : Context L),
        value = ⟨.list element, contents⟩ ∧
        (machine.run steps (depth + 1)).RunsThrough inner min max
          (!machine.grammar.writesState inner) 0 context (contents.map (Value.mk element)) last
          after) ∧
    (forall made, made ∈ machine.callsOf steps depth id context -> made.1 = inner) ∧
    forall error failed, (outcome = .error error ∧ after = failed) ↔
      exists place, (machine.run steps (depth + 1)).FailsForGood
        (machine.callsOf steps depth id context) min place error failed := by
  rw [<- isGrammar] at found
  have ordered : forall most, max = some most -> min ≤ most := by
    intro most isMax
    rw [isGrammar] at found
    exact ((build_advances accepted).2 id _ found).2 most isMax
  rcases Machine.clause_of_finished found ends with ⟨isDialogue, ends⟩
  have areCalls : machine.callsOf steps depth id context =
      (Dialogue.repeated (!machine.grammar.writesState inner) inner min max steps [] context).calls
        (machine.run steps (depth + 1)) := by
    rw [Machine.callsOf, isDialogue, Clause.dialogue, Dialogue.calls_andThen_answered]
  rw [Clause.run] at ends
  rcases Reply.andThen_eq_finished ends with ⟨values, last, isLoop, gathered⟩
  refine ⟨?_, ?_, ?_⟩
  · rintro value rfl
    cases values with
    | error error => cases gathered
    | ok values =>
        rw [finishGathered, Gather.collect] at gathered
        cases collected : Value.getAll? element values with
        | none =>
            rw [collected] at gathered
            cases gathered
        | some contents =>
            rw [collected] at gathered
            cases gathered
            rcases runRepeated_runsThrough ordered (fun _ _ => Nat.zero_le _) isLoop with
              ⟨matched, last, isAll, through⟩
            rw [Value.eq_map_of_getAll? collected] at isAll
            cases isAll
            exact ⟨contents, last, rfl, through⟩
  · intro made member
    rw [areCalls] at member
    exact Dialogue.repeated_calls member
  · intro error failed
    have fails := Dialogue.repeated_fails_iff ((Dialogue.run_repeated ..).trans isLoop) error failed
    rw [areCalls]
    rcases finishGathered_finished gathered with ⟨rfl, failsAlike⟩
    rw [failsAlike error]
    exact fails

/-- One or more letters in a row. -/
def rowParser : Construction (Parser plainText (.list .text)) := do
  (← Parser.exact "a").atLeastOne

/-- The rule of letters in a row. -/
def rowRules : GrammarBuilder plainText := ⟨[⟨"row", .list .text, (rowParser 0).1⟩]⟩

/-- The nodes of the rule of letters in a row. -/
def rowGrammar : Grammar plainText :=
  ⟨[.leaf (.exact "a"), .repeated 0 .text 1 none], [⟨"row", .list .text, 1⟩]⟩

/-- The letters in a row are all that there are. -/
theorem row_runsThrough : exists last after,
    (rowGrammar.machine "aab").run 8 1 1 (Context.start ()) =
        .finished (.ok ⟨.list .text, ["a", "a"]⟩) after ∧
      ((rowGrammar.machine "aab").run 7 2).RunsThrough 0 1 none true 0 (Context.start ())
        [⟨.text, "a"⟩, ⟨.text, "a"⟩] last after := by
  have ends : (rowGrammar.machine "aab").run 8 1 1 (Context.start ()) =
      .finished (.ok ⟨.list .text, ["a", "a"]⟩) ⟨2, (), (0, 0), ⟨[]⟩⟩ := rfl
  have accepted : exists known,
      rowRules.build PatternCache.empty = (.ok ⟨rowGrammar, known⟩, PatternCache.empty) := ⟨_, rfl⟩
  rcases accepted with ⟨known, accepted⟩
  rcases (build_repeats_maximally accepted rfl rfl ends).1 _ rfl with
    ⟨contents, last, isValue, through⟩
  cases isValue
  exact ⟨last, _, ends, through⟩

end GrammarBuilder

end SeedGrammar
