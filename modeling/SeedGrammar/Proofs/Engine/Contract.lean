import SeedGrammar.Proofs.Engine.Dialogue

namespace SeedGrammar

/-!
# Contracts of dialogues

A contract says in which contexts a dialogue may call an operand, and what it
may rely on when such a call finishes.  A dialogue obeys a contract if its
calls are allowed as long as the earlier ones ended as they should, and if
then its own end is as it should be.  None of this mentions how operands are
run, so what one clause does is proved once, and holds in every parse.

Two facts connect a contract with runs.  Where the calls that are made end as
they should, all of them are allowed and the dialogue ends as it should
(`obeys_calls`).  Where calls come to a reply once they get enough steps, the
dialogue does too, provided that the rounds of its own loops are enough
(`obeys_settles`).

The loops of the engine have one rule each, with an invariant of the loop.
-/

variable {L : Signature}

/-- How a run may end: which contexts it may leave with a value, and which
with a failure. -/
structure Ending (L : Signature) where
  matched : Context L -> Prop
  failed : ParseError L.Payload -> Context L -> Prop

namespace Ending

variable {β γ : Type}

/-- Whether a run may end with an answer in a context. -/
def Allows (ending : Ending L) : Except (ParseError L.Payload) β -> Context L -> Prop
  | .ok _, after => ending.matched after
  | .error error, after => ending.failed error after

theorem allows_map {ending : Ending L} {answer : Except (ParseError L.Payload) β}
    {after : Context L} (f : β -> γ) (allowed : ending.Allows answer after) :
    ending.Allows (answer.map f) after := by
  cases answer with
  | error error => exact allowed
  | ok value => exact allowed

end Ending

/-- Whether a reply is as an ending says.  A halted run has failed for good. -/
def Reply.Honours {β : Type} (ending : Ending L) :
    Reply L (Except (ParseError L.Payload) β) -> Prop
  | .finished answer after => ending.Allows answer after
  | .halted error place => ending.failed error place
  | .faulted _ => True
  | .exhausted => True

/-- Which calls of operands are allowed, and how an allowed call ends. -/
structure Contract (L : Signature) (α : Type) where
  asks : α -> Context L -> Prop
  ends : α -> Context L -> Ending L

namespace Dialogue

variable {α β γ : Type} {contract : Contract L α} {spent : Prop} {ending : Ending L}

/-- Whether a dialogue keeps to a contract.  `spent` is what follows if it uses
up the rounds of its own loops. -/
def Obeys (contract : Contract L α) (spent : Prop) (ending : Ending L) :
    Dialogue L α (Except (ParseError L.Payload) β) -> Prop
  | answered (.finished answer after) => ending.Allows answer after
  | answered (.halted _ _) => False
  | answered (.faulted _) => True
  | answered .exhausted => spent
  | ask operand context next =>
    contract.asks operand context ∧
      forall outcome after, (contract.ends operand context).Allows outcome after ->
        (next outcome after).Obeys contract spent ending

theorem obeys_ask {operand : α} {context : Context L}
    {next : Outcome L -> Context L -> Dialogue L α (Except (ParseError L.Payload) β)}
    (asked : contract.asks operand context)
    (fails : forall error after, (contract.ends operand context).failed error after ->
      (next (.error error) after).Obeys contract spent ending)
    (succeeds : forall value after, (contract.ends operand context).matched after ->
      (next (.ok value) after).Obeys contract spent ending) :
    (ask operand context next).Obeys contract spent ending := by
  refine ⟨asked, ?_⟩
  intro outcome after allowed
  cases outcome with
  | error error => exact fails error after allowed
  | ok value => exact succeeds value after allowed

theorem obeys_andThen {middle : Ending L}
    {dialogue : Dialogue L α (Except (ParseError L.Payload) β)}
    {rest : Except (ParseError L.Payload) β -> Context L ->
      Dialogue L α (Except (ParseError L.Payload) γ)}
    (obeys : dialogue.Obeys contract spent middle)
    (continued : forall answer after, middle.Allows answer after ->
      (rest answer after).Obeys contract spent ending) :
    (dialogue.andThen rest).Obeys contract spent ending := by
  induction dialogue with
  | answered reply =>
      cases reply with
      | finished answer after => exact continued answer after obeys
      | halted error place => exact obeys
      | faulted fault => exact obeys
      | exhausted => exact obeys
  | ask operand context next inductionHypothesis =>
      refine ⟨obeys.1, ?_⟩
      intro outcome after allowed
      exact inductionHypothesis outcome after (obeys.2 outcome after allowed)

/-! ## Rules of the loops -/

theorem obeys_finishWith (self : NodeId) (value : Option (Value L)) {after : Context L}
    (matched : ending.matched after) :
    (answered (finishWith self value after) :
      Dialogue L α (Outcome L)).Obeys contract spent ending := by
  cases value with
  | some value => exact matched
  | none => trivial

theorem obeys_finishGathered (self : NodeId) (gather : Gather L.Kind) {values : Values L}
    {after : Context L} (allowed : ending.Allows values after) :
    (answered (finishGathered self gather values after) :
      Dialogue L α (Outcome L)).Obeys contract spent ending := by
  cases values with
  | error error => exact allowed
  | ok values => exact obeys_finishWith self (gather.collect values) allowed

/-- The invariant of a sequence is about the items that are left. -/
theorem obeys_sequence (invariant : List α -> Context L -> Prop)
    (asks : forall {item rest context}, invariant (item :: rest) context ->
      contract.asks item context)
    (fails : forall {item rest context error after}, invariant (item :: rest) context ->
      (contract.ends item context).failed error after -> ending.failed error after)
    (moves : forall {item rest context after}, invariant (item :: rest) context ->
      (contract.ends item context).matched after -> invariant rest after)
    (matched : forall {context}, invariant [] context -> ending.matched context)
    {items : List α} {context : Context L} (start : invariant items context) :
    (sequence items context).Obeys contract spent ending := by
  induction items generalizing context with
  | nil => exact matched start
  | cons item rest inductionHypothesis =>
      apply obeys_ask (asks start)
      · intro error after failed
        exact fails start failed
      · intro value after itemMatched
        apply obeys_andThen (inductionHypothesis (moves start itemMatched))
        intro values last allowed
        exact Ending.allows_map (value :: ·) allowed

/-- The invariant of a choice is about the alternatives that are left and the
failure of the latest one. -/
theorem obeys_choice {self : NodeId} {start : Snapshot L}
    (invariant : Option (ParseError L.Payload) -> List α -> Context L -> Prop)
    (asks : forall {last alt rest context}, invariant last (alt :: rest) context ->
      contract.asks alt context)
    (matched : forall {last alt rest context after}, invariant last (alt :: rest) context ->
      (contract.ends alt context).matched after -> ending.matched after)
    (stays : forall {last alt rest context error after}, invariant last (alt :: rest) context ->
      (contract.ends alt context).failed error after -> after.position = start.position ->
      invariant (some error) rest (after.restore start))
    (advances : forall {last alt rest context error after},
      invariant last (alt :: rest) context ->
      (contract.ends alt context).failed error after -> ending.failed error after)
    (fails : forall {error context}, invariant (some error) [] context ->
      ending.failed error context)
    {last : Option (ParseError L.Payload)} {alts : List α} {context : Context L}
    (starts : invariant last alts context) :
    (choice self start last alts context).Obeys contract spent ending := by
  induction alts generalizing last context with
  | nil =>
      cases last with
      | some error => exact fails starts
      | none => trivial
  | cons alt rest inductionHypothesis =>
      rw [choice]
      apply obeys_ask (asks starts)
      · intro error after failed
        by_cases stayed : after.position = start.position
        · simp only [if_pos stayed]
          exact inductionHypothesis (stays starts failed stayed)
        · simp only [if_neg stayed]
          exact advances starts failed
      · intro value after altMatched
        exact matched starts altMatched

/-- The invariant of a repetition is about the number of matches so far and
the number of rounds that are still needed at most. -/
theorem obeys_repeated {keepState : Bool} {inner : α} {min : Nat} {max : Option Nat}
    (invariant : Nat -> Nat -> Context L -> Prop)
    (full : forall {needed count context}, invariant needed count context ->
      max.any (· ≤ count) = true -> ending.matched context)
    (asks : forall {needed count context}, invariant needed count context ->
      contract.asks inner context)
    (idles : forall {needed count context after}, invariant needed count context ->
      (contract.ends inner context).matched after -> after.position = context.position ->
      ending.matched after)
    (goesOn : forall {needed count context after}, invariant needed count context ->
      (contract.ends inner context).matched after ->
      after.position ≠ context.position ∨ count + 1 < min ->
      exists fewer, invariant fewer (count + 1) after ∧ (fewer < needed ∨ spent))
    (fails : forall {needed count context error after}, invariant needed count context ->
      (contract.ends inner context).failed error after -> ending.failed error after)
    (stops : forall {needed count context error after state}, invariant needed count context ->
      (contract.ends inner context).failed error after -> min ≤ count ->
      state = after.state ∨ state = context.state ->
      ending.matched { after with position := context.position, state := state })
    {rounds needed : Nat} (enough : rounds ≤ needed -> spent) {values : List (Value L)}
    {context : Context L} (start : invariant needed values.length context) :
    (repeated keepState inner min max rounds values context).Obeys contract spent ending := by
  induction rounds generalizing needed values context with
  | zero => exact enough (Nat.zero_le needed)
  | succ rounds inductionHypothesis =>
      rw [repeated]
      by_cases isFull : max.any (· ≤ values.length) = true
      · rw [if_pos isFull]
        exact full start isFull
      · rw [if_neg isFull]
        apply obeys_ask (asks start)
        · intro error after failed
          by_cases final : after.position ≠ context.position ∨ values.length < min
          · simp only [if_pos final]
            exact fails start failed
          · simp only [if_neg final]
            refine stops start failed (by omega) ?_
            cases keepState with
            | true => exact Or.inl rfl
            | false => exact Or.inr rfl
        · intro value after matched
          by_cases idle : after.position = context.position ∧ min ≤ values.length + 1
          · simp only [if_pos idle]
            exact idles start matched idle.1
          · simp only [if_neg idle]
            rcases goesOn start matched (by omega) with ⟨fewer, next, decreases⟩
            apply inductionHypothesis _ next
            intro tooFew
            rcases decreases with decreases | spent
            · exact enough (by omega)
            · exact spent

/-- The invariant of growth is about the seed.  Each round needs one more only
if the match ends farther than the seed. -/
theorem obeys_growth {self : NodeId} {inner : α} {start : Snapshot L} (limit : Nat)
    (invariant : Seed L -> Context L -> Prop)
    (asks : forall {seed context}, invariant seed context ->
      contract.asks inner (context.restore start))
    (kept : forall {seed context} {outcome : Outcome L} {after}, invariant seed context ->
      (contract.ends inner (context.restore start)).Allows outcome after ->
      after.seeds.get? self start.position = some seed)
    (replays : forall {seed context} {outcome : Outcome L} {after}, invariant seed context ->
      (contract.ends inner (context.restore start)).Allows outcome after ->
      ending.Allows seed.outcome
        { after with position := seed.position, state := seed.state })
    (fails : forall {seed context error after}, invariant seed context ->
      (contract.ends inner (context.restore start)).failed error after ->
      ending.failed error after)
    (grows : forall {seed context after} value, invariant seed context ->
      (contract.ends inner (context.restore start)).matched after ->
      seed.position < after.position ->
      (after.position ≤ limit ∨ spent) ∧
        invariant ⟨after.position, after.state, .ok value⟩
          { after with
            seeds := after.seeds.set self start.position
              ⟨after.position, after.state, .ok value⟩ })
    {rounds : Nat} {seed : Seed L} (enough : rounds ≤ limit - seed.position -> spent)
    {context : Context L} (starts : invariant seed context) :
    (growth self inner start rounds context).Obeys contract spent ending := by
  induction rounds generalizing seed context with
  | zero => exact enough (Nat.zero_le _)
  | succ rounds inductionHypothesis =>
      refine ⟨asks starts, ?_⟩
      intro outcome after allowed
      have stillThere := kept starts allowed
      simp only [stillThere]
      by_cases shorter : after.position ≤ seed.position
      · simp only [if_pos shorter]
        exact replays starts allowed
      · simp only [if_neg shorter]
        cases outcome with
        | error error => exact fails starts allowed
        | ok value =>
            rcases grows value starts allowed (by omega) with ⟨inside | isSpent, grown⟩
            · apply inductionHypothesis _ grown
              intro tooFew
              apply enough
              have progress : limit - after.position < limit - seed.position := by omega
              exact Nat.succ_le_of_lt (Nat.lt_of_le_of_lt tooFew progress)
            · exact inductionHypothesis (fun _ => isSpent) grown

/-! ## From contracts to runs -/

/-- If the calls that a dialogue makes end as its contract says once they are
allowed, then all of them are allowed and the dialogue ends as it should. -/
theorem obeys_calls (call : Caller L α)
    {dialogue : Dialogue L α (Except (ParseError L.Payload) β)}
    (obeys : dialogue.Obeys contract spent ending)
    (honours : forall made, made ∈ dialogue.calls call -> contract.asks made.1 made.2 ->
      (call made.1 made.2).Honours (contract.ends made.1 made.2))
    (halts : forall {operand context error place}, contract.asks operand context ->
      (contract.ends operand context).failed error place -> ending.failed error place) :
    (forall made, made ∈ dialogue.calls call -> contract.asks made.1 made.2) ∧
      (dialogue.run call).Honours ending := by
  induction dialogue with
  | answered reply =>
      constructor
      · intro made member
        cases member
      · cases reply with
        | finished answer after => exact obeys
        | halted error place => exact obeys.elim
        | faulted fault => trivial
        | exhausted => trivial
  | ask operand context next inductionHypothesis =>
      have first := honours (operand, context) (mem_calls_ask.mpr (Or.inl rfl)) obeys.1
      have rest : forall outcome after, call operand context = .finished outcome after ->
          (forall made, made ∈ (next outcome after).calls call ->
            contract.asks made.1 made.2) ∧
          ((next outcome after).run call).Honours ending := by
        intro outcome after reply
        rw [reply] at first
        apply inductionHypothesis outcome after (obeys.2 outcome after first)
        intro made member
        exact honours made (mem_calls_ask.mpr (Or.inr ⟨outcome, after, reply, member⟩))
      constructor
      · intro made member
        rcases mem_calls_ask.mp member with isFirst | ⟨outcome, after, reply, later⟩
        · rw [isFirst]
          exact obeys.1
        · exact (rest outcome after reply).1 made later
      · rw [run_ask]
        cases reply : call operand context with
        | finished outcome after => exact (rest outcome after reply).2
        | halted error place =>
            rw [reply] at first
            exact halts obeys.1 first
        | faulted fault => trivial
        | exhausted => trivial

/-- If every allowed call comes to a reply once it gets enough steps, so does a
dialogue that has enough rounds. -/
theorem obeys_settles (call : Nat -> Caller L α)
    {dialogue : Dialogue L α (Except (ParseError L.Payload) β)}
    (obeys : dialogue.Obeys contract spent ending) (live : ¬spent)
    (settles : forall {operand context}, contract.asks operand context ->
      exists steps reply, reply ≠ .exhausted ∧
        reply.Honours (contract.ends operand context) ∧
        forall more, steps ≤ more -> call more operand context = reply) :
    exists steps, forall more, steps ≤ more -> dialogue.run (call more) ≠ .exhausted := by
  induction dialogue with
  | answered reply =>
      refine ⟨0, ?_⟩
      intro more _ isSpent
      rw [run_answered] at isSpent
      subst isSpent
      exact live obeys
  | ask operand context next inductionHypothesis =>
      rcases settles obeys.1 with ⟨steps, reply, ends, honours, settled⟩
      cases reply with
      | finished outcome after =>
          rcases inductionHypothesis outcome after (obeys.2 outcome after honours) with
            ⟨later, rest⟩
          refine ⟨max steps later, ?_⟩
          intro more enough
          rw [run_ask, settled more (by omega)]
          exact rest more (by omega)
      | halted error place =>
          refine ⟨steps, ?_⟩
          intro more enough spent
          rw [run_ask, settled more enough] at spent
          cases spent
      | faulted fault =>
          refine ⟨steps, ?_⟩
          intro more enough spent
          rw [run_ask, settled more enough] at spent
          cases spent
      | exhausted => exact absurd rfl ends

end Dialogue
end SeedGrammar
