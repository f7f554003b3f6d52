import SeedGrammar.Parser
import SeedGrammar.Proofs.Engine.Dialogue

namespace SeedGrammar

/-!
# Runs that differ in their failures

What a failure says is not looked at by any clause: it is passed on, or it is forgotten and
the run goes on from the position and the state where it came about.  The exception are
functions that see outcomes.  A function that keeps failures may say something else about
them, but a failure it remains.

So if the runs of operands come to the same apart from what their failures say, the runs of
clauses do as well, and they make the same calls on the way
(`Clause.dialogue_sameVerdict`).
-/

variable {L : Signature}

/-- Whether two replies are the same apart from what failures say. -/
inductive Reply.SameVerdict {β : Type} :
    Reply L (Except (ParseError L.Payload) β) -> Reply L (Except (ParseError L.Payload) β) ->
      Prop where
  | matched {value after} : SameVerdict (.finished (.ok value) after) (.finished (.ok value) after)
  | failed {error other after} :
      SameVerdict (.finished (.error error) after) (.finished (.error other) after)
  | halted {error other place} : SameVerdict (.halted error place) (.halted other place)
  | faulted {fault} : SameVerdict (.faulted fault) (.faulted fault)
  | exhausted : SameVerdict .exhausted .exhausted

namespace Reply

variable {β : Type}

@[simp] theorem sameVerdict_refl (reply : Reply L (Except (ParseError L.Payload) β)) :
    reply.SameVerdict reply := by
  cases reply with
  | finished answer after =>
      cases answer with
      | ok value => exact .matched
      | error error => exact .failed
  | halted error place => exact .halted
  | faulted fault => exact .faulted
  | exhausted => exact .exhausted

end Reply

/-- Whether a transform makes failures of failures. -/
def Transform.KeepsFailures (transform : Transform L) : Prop :=
  forall error token, exists other, transform (.error error) token = .ok (.error other)

/-- Whether the function of a clause, if it has one, makes failures of failures. -/
def Clause.KeepsFailures {ρ α : Type} : Clause L ρ α -> Prop
  | .map _ transform => transform.KeepsFailures
  | _ => True

namespace Transform

variable {source target : ValueType L.Kind}

/-- Functions that only look at values, or change what failures say, keep failures. -/
theorem ofTyped_keepsFailures
    {f : Except (ParseError L.Payload) (source.Carrier L) -> Token L ->
      Except (ParseError L.Payload) (target.Carrier L)}
    (keeps : forall before token, exists error, f (.error before) token = .error error) :
    (ofTyped source target f).KeepsFailures := by
  intro before token
  rcases keeps before token with ⟨error, isError⟩
  refine ⟨error, ?_⟩
  rw [ofTyped, isError]
  rfl

end Transform

namespace Dialogue

variable {α β γ : Type}

/-- Whether two dialogues go on alike after each outcome, and also after two failures that
are not the same. -/
def SameVerdict : Dialogue L α (Except (ParseError L.Payload) β) ->
    Dialogue L α (Except (ParseError L.Payload) β) -> Prop
  | answered reply, answered other => reply.SameVerdict other
  | ask operand context next, ask operand' context' next' =>
    operand = operand' ∧ context = context' ∧
      (forall value after, (next (.ok value) after).SameVerdict (next' (.ok value) after)) ∧
      forall error error' after,
        (next (.error error) after).SameVerdict (next' (.error error') after)
  | answered _, ask _ _ _ => False
  | ask _ _ _, answered _ => False

/-- Dialogues that go on alike make the same calls and come to the same, apart from what
failures say, if this holds of the calls. -/
theorem SameVerdict.run {call other : Caller L α}
    {dialogue dialogue' : Dialogue L α (Except (ParseError L.Payload) β)}
    (alike : dialogue.SameVerdict dialogue')
    (calls : forall made, made ∈ dialogue.calls call ->
      (call made.1 made.2).SameVerdict (other made.1 made.2)) :
    dialogue'.calls other = dialogue.calls call ∧
      (dialogue.run call).SameVerdict (dialogue'.run other) := by
  induction dialogue generalizing dialogue' with
  | answered reply =>
      cases dialogue' with
      | answered reply' => exact ⟨rfl, alike⟩
      | ask operand' context' next' => exact alike.elim
  | ask operand context next inductionHypothesis =>
      cases dialogue' with
      | answered reply' => exact alike.elim
      | ask operand' context' next' =>
          rcases alike with ⟨rfl, rfl, matched, failed⟩
          have first := calls (operand, context) (mem_calls_ask.mpr (Or.inl rfl))
          dsimp only at first
          have later : forall outcome after, call operand context = .finished outcome after ->
              forall made, made ∈ (next outcome after).calls call ->
                (call made.1 made.2).SameVerdict (other made.1 made.2) := by
            intro outcome after reply made member
            exact calls made (mem_calls_ask.mpr (Or.inr ⟨outcome, after, reply, member⟩))
          rw [Dialogue.calls, Dialogue.calls, run_ask, run_ask]
          generalize call operand context = reply at first later ⊢
          generalize other operand context = reply' at first ⊢
          cases first with
          | matched =>
              rcases inductionHypothesis _ _ (matched _ _) (later _ _ rfl) with ⟨same, alike⟩
              exact ⟨congrArg _ same, alike⟩
          | failed =>
              rcases inductionHypothesis _ _ (failed _ _ _) (later _ _ rfl) with ⟨same, alike⟩
              exact ⟨congrArg _ same, alike⟩
          | halted => exact ⟨rfl, .halted⟩
          | faulted => exact ⟨rfl, .faulted⟩
          | exhausted => exact ⟨rfl, .exhausted⟩

theorem SameVerdict.andThen {dialogue dialogue' : Dialogue L α (Except (ParseError L.Payload) β)}
    {rest rest' : Except (ParseError L.Payload) β -> Context L ->
      Dialogue L α (Except (ParseError L.Payload) γ)}
    (alike : dialogue.SameVerdict dialogue')
    (matched : forall value after, (rest (.ok value) after).SameVerdict (rest' (.ok value) after))
    (failed : forall error error' after,
      (rest (.error error) after).SameVerdict (rest' (.error error') after)) :
    (dialogue.andThen rest).SameVerdict (dialogue'.andThen rest') := by
  induction dialogue generalizing dialogue' with
  | answered reply =>
      cases dialogue' with
      | answered reply' =>
          cases (alike : reply.SameVerdict reply') with
          | matched => exact matched _ _
          | failed => exact failed _ _ _
          | halted => exact Reply.SameVerdict.halted
          | faulted => exact Reply.SameVerdict.faulted
          | exhausted => exact Reply.SameVerdict.exhausted
      | ask operand' context' next' => exact alike.elim
  | ask operand context next inductionHypothesis =>
      cases dialogue' with
      | answered reply' => exact alike.elim
      | ask operand' context' next' =>
          rcases alike with ⟨rfl, rfl, matched', failed'⟩
          refine ⟨rfl, rfl, ?_, ?_⟩
          · intro value after
            exact inductionHypothesis _ _ (matched' value after)
          · intro error error' after
            exact inductionHypothesis _ _ (failed' error error' after)

/-! ## Loops -/

theorem sequence_sameVerdict (items : List α) (context : Context L) :
    (sequence items context).SameVerdict (sequence items context) := by
  induction items generalizing context with
  | nil => exact Reply.SameVerdict.matched
  | cons item rest inductionHypothesis =>
      refine ⟨rfl, rfl, ?_, ?_⟩
      · intro value after
        refine (inductionHypothesis after).andThen ?_ ?_
        · intro values last
          exact Reply.SameVerdict.matched
        · intro error error' last
          exact Reply.SameVerdict.failed
      · intro error error' after
        exact Reply.SameVerdict.failed

/-- It does not matter which failure was the last, as long as there was one. -/
theorem choice_sameVerdict (self : NodeId) (start : Snapshot L)
    {last last' : Option (ParseError L.Payload)} (both : last = none ↔ last' = none) (alts : List α)
    (context : Context L) :
    (choice self start last alts context).SameVerdict (choice self start last' alts context) := by
  induction alts generalizing last last' context with
  | nil =>
      cases last with
      | none =>
          rw [both.mp rfl]
          exact Reply.SameVerdict.faulted
      | some error =>
          cases last' with
          | none => cases both.mpr rfl
          | some error' => exact Reply.SameVerdict.failed
  | cons alt rest inductionHypothesis =>
      rw [choice, choice]
      refine ⟨rfl, rfl, ?_, ?_⟩
      · intro value after
        exact Reply.SameVerdict.matched
      · intro error error' after
        dsimp only
        by_cases stayed : after.position = start.position
        · rw [if_pos stayed, if_pos stayed]
          exact inductionHypothesis
            (iff_of_false (Option.some_ne_none error) (Option.some_ne_none error')) _
        · rw [if_neg stayed, if_neg stayed]
          exact Reply.SameVerdict.failed

theorem repeated_sameVerdict (keepState : Bool) (inner : α) (min : Nat) (max : Option Nat)
    (rounds : Nat) (values : List (Value L)) (context : Context L) :
    (repeated keepState inner min max rounds values context).SameVerdict
      (repeated keepState inner min max rounds values context) := by
  induction rounds generalizing values context with
  | zero => exact Reply.SameVerdict.exhausted
  | succ rounds inductionHypothesis =>
      rw [repeated]
      by_cases full : max.any (· ≤ values.length) = true
      · rw [if_pos full]
        exact Reply.SameVerdict.matched
      · rw [if_neg full]
        refine ⟨rfl, rfl, ?_, ?_⟩
        · intro value after
          dsimp only
          by_cases idle : after.position = context.position ∧ min ≤ values.length + 1
          · rw [if_pos idle]
            exact Reply.SameVerdict.matched
          · rw [if_neg idle]
            exact inductionHypothesis _ after
        · intro error error' after
          dsimp only
          by_cases final : after.position ≠ context.position ∨ values.length < min
          · rw [if_pos final, if_pos final]
            exact Reply.SameVerdict.failed
          · rw [if_neg final, if_neg final]
            exact Reply.SameVerdict.matched

theorem growth_sameVerdict (self : NodeId) (inner : α) (start : Snapshot L) (rounds : Nat)
    (context : Context L) :
    (growth self inner start rounds context).SameVerdict
      (growth self inner start rounds context) := by
  induction rounds generalizing context with
  | zero => exact Reply.SameVerdict.exhausted
  | succ rounds inductionHypothesis =>
      refine ⟨rfl, rfl, ?_, ?_⟩
      · intro value after
        dsimp only
        cases after.seeds.get? self start.position with
        | none => exact Reply.SameVerdict.faulted
        | some seed =>
            dsimp only
            by_cases shorter : after.position ≤ seed.position
            · rw [if_pos shorter]
              exact Reply.sameVerdict_refl _
            · rw [if_neg shorter]
              exact inductionHypothesis _
      · intro error error' after
        dsimp only
        cases after.seeds.get? self start.position with
        | none => exact Reply.SameVerdict.faulted
        | some seed =>
            dsimp only
            by_cases shorter : after.position ≤ seed.position
            · rw [if_pos shorter, if_pos shorter]
              exact Reply.sameVerdict_refl _
            · rw [if_neg shorter, if_neg shorter]
              exact Reply.SameVerdict.failed

end Dialogue

/-- A clause whose function keeps failures goes on alike after different failures. -/
theorem Clause.dialogue_sameVerdict {α : Type} {clause : Clause L PatternProgram α}
    (keeps : clause.KeepsFailures) (rounds : Nat) (input : L.Input) (writes : α -> Bool)
    (self : NodeId) (context : Context L) :
    (clause.dialogue rounds input writes self context).SameVerdict
      (clause.dialogue rounds input writes self context) := by
  cases clause with
  | leaf atom => exact Reply.sameVerdict_refl _
  | map inner transform =>
      refine ⟨rfl, rfl, ?_, ?_⟩
      · intro value after
        exact Reply.sameVerdict_refl _
      · intro error error' after
        let token := Context.token { after with range := (context.position, after.position) } input
          self
        rcases keeps error token with ⟨failure, isFailure⟩
        rcases keeps error' token with ⟨failure', isFailure'⟩
        dsimp only [token] at isFailure isFailure'
        simp only [isFailure, isFailure']
        exact Reply.SameVerdict.failed
  | update inner next =>
      refine ⟨rfl, rfl, ?_, ?_⟩
      · intro value after
        exact Reply.SameVerdict.matched
      · intro error error' after
        exact Reply.SameVerdict.failed
  | sequence items gather =>
      refine (Dialogue.sequence_sameVerdict items context).andThen ?_ ?_
      · intro values after
        exact Reply.sameVerdict_refl _
      · intro error error' after
        exact Reply.SameVerdict.failed
  | choice alts => exact Dialogue.choice_sameVerdict self _ Iff.rfl alts context
  | optional inner element =>
      refine ⟨rfl, rfl, ?_, ?_⟩
      · intro value after
        exact Reply.sameVerdict_refl _
      · intro error error' after
        dsimp only
        by_cases stayed : after.position = context.position
        · rw [if_pos stayed, if_pos stayed]
          exact Reply.SameVerdict.matched
        · rw [if_neg stayed, if_neg stayed]
          exact Reply.SameVerdict.failed
  | attempt inner =>
      refine ⟨rfl, rfl, ?_, ?_⟩
      · intro value after
        exact Reply.SameVerdict.matched
      · intro error error' after
        exact Reply.SameVerdict.failed
  | lookahead inner look negative =>
      refine ⟨rfl, rfl, ?_, ?_⟩
      · intro value middle
        refine ⟨rfl, rfl, ?_, ?_⟩
        · intro looked after
          exact Reply.sameVerdict_refl _
        · intro error error' after
          exact Reply.sameVerdict_refl _
      · intro error error' middle
        exact Reply.SameVerdict.failed
  | repeated inner element min max =>
      refine (Dialogue.repeated_sameVerdict _ inner min max rounds [] context).andThen ?_ ?_
      · intro values after
        exact Reply.sameVerdict_refl _
      · intro error error' after
        exact Reply.SameVerdict.failed
  | reference name expected target => exact Reply.SameVerdict.faulted
  | leftRecursion inner =>
      rw [dialogue]
      cases context.seeds.get? self context.position with
      | some seed => exact Reply.sameVerdict_refl _
      | none => exact Dialogue.growth_sameVerdict self inner _ rounds _

end SeedGrammar
