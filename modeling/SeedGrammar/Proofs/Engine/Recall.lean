import SeedGrammar.Proofs.Engine.SeedHistory
import SeedGrammar.Proofs.PlainText

namespace SeedGrammar

/-!
# Meeting a left recursion again

A left recursion that is met a second time at a position answers with the seed
that it has left there, whatever has happened since.  Growth ends in one of
two ways.  If a match does not get farther than the seed, the seed is the
answer, so the second answer is the first one.  If a match fails after it got
farther than the seed, the failure is the answer, but the seed stays the match
before it.  The second call then ends before the first one did, and it may
succeed where the first one failed.

The failure is told from other failures by its end: a seed that is a failure
ends where it starts.
-/

variable {L : Signature}

/-- Whether two outcomes are the same verdict: the same value, or failures. -/
def Outcome.SameVerdict : Outcome L -> Outcome L -> Prop
  | .ok value, .ok other => value = other
  | .error _, .error _ => True
  | _, _ => False

/-- Whether an outcome is a failure. -/
def Outcome.Fails (outcome : Outcome L) : Prop :=
  exists error, outcome = .error error

theorem Outcome.sameVerdict_refl (outcome : Outcome L) : outcome.SameVerdict outcome := by
  cases outcome with
  | ok value => rfl
  | error error => trivial

/-- A seed as growth from a position has it: a failure at that position before
there is a match, and a value of a match that advanced from then on. -/
structure Seed.GrownFrom (start : Nat) (seed : Seed L) : Prop where
  reached : start ≤ seed.position
  fails_iff : seed.outcome.Fails ↔ seed.position = start

/-- What growth has left when it comes to an outcome: the outcome is the seed,
or it is a failure that got farther. -/
structure LeftByGrowth (key : NodeId × Nat) (outcome : Outcome L) (after : Context L)
    (seed : Seed L) : Prop where
  left : after.seedAt key = some seed
  grown : seed.GrownFrom key.2
  answer : (outcome = seed.outcome ∧ after.position = seed.position ∧ after.state = seed.state) ∨
    (outcome.Fails ∧ seed.position < after.position)

theorem runGrowth_leaves {α : Type} {call : Caller L α} {self : NodeId} (start : Snapshot L)
    (keeps : forall seed, call.Keeps (self, start.position) seed) (inner : α) {rounds : Nat}
    {context after : Context L} {outcome : Outcome L} {seed : Seed L}
    (planted : context.seedAt (self, start.position) = some seed)
    (grown : seed.GrownFrom start.position)
    (ends : runGrowth call self inner start rounds context = .finished outcome after) :
    exists last, LeftByGrowth (self, start.position) outcome after last := by
  induction rounds generalizing context seed with
  | zero => cases ends
  | succ rounds inductionHypothesis =>
      rw [runGrowth] at ends
      rcases Reply.andThen_eq_finished ends with ⟨result, middle, reply, ends⟩
      have kept : middle.seeds.get? self start.position = some seed :=
        keeps seed inner (context.restore start) result middle planted reply
      simp only [kept] at ends
      by_cases shorter : middle.position ≤ seed.position
      · rw [if_pos shorter, replay] at ends
        cases ends
        exact ⟨seed, kept, grown, Or.inl ⟨rfl, rfl, rfl⟩⟩
      · rw [if_neg shorter] at ends
        have farther : seed.position < middle.position := Nat.lt_of_not_le shorter
        cases result with
        | error error =>
            cases ends
            exact ⟨seed, kept, grown, Or.inr ⟨⟨error, rfl⟩, farther⟩⟩
        | ok value =>
            have replanted := middle.seedAt_withSeed_self (self, start.position)
              ⟨middle.position, middle.state, .ok value⟩
            have advanced : start.position < middle.position :=
              Nat.lt_of_le_of_lt grown.reached farther
            refine inductionHypothesis replanted ⟨Nat.le_of_lt advanced, ?_⟩ ends
            constructor
            · rintro ⟨error, isError⟩
              cases isError
            · intro stayed
              exact absurd stayed (Nat.ne_of_gt advanced)

namespace Machine

variable {machine : Machine L}

/-- What a left recursion that found no seed leaves behind. -/
theorem run_recursion_leaves {steps depth : Nat} {id inner : NodeId} {context after : Context L}
    {outcome : Outcome L}
    (isRecursion : machine.grammar.nodes[id]? = some (.leftRecursion inner))
    (absent : context.seedAt (id, context.position) = none)
    (ends : machine.run steps depth id context = .finished outcome after) :
    exists seed, LeftByGrowth (id, context.position) outcome after seed := by
  cases steps with
  | zero => cases ends
  | succ steps =>
      have none : context.seeds.get? id context.position = none := absent
      rw [run] at ends
      by_cases trips : 0 < machine.maxDepth ∧ machine.maxDepth < depth
      · rw [if_pos trips] at ends
        cases ends
      · rw [if_neg trips, isRecursion] at ends
        simp only [Clause.run, none] at ends
        refine runGrowth_leaves context.snapshot (fun _ => machine.run_keeps steps (depth + 1)) inner
          (context.seedAt_withSeed_self (id, context.position) _) ?_ ends
        refine ⟨Nat.le_refl _, ?_⟩
        constructor
        · intro _
          rfl
        · intro _
          exact ⟨_, rfl⟩

/-- A left recursion that finds a seed answers with it. -/
theorem run_recursion_recalls (unlimited : machine.maxDepth = 0) (steps depth : Nat)
    {id inner : NodeId} {context : Context L} {seed : Seed L}
    (isRecursion : machine.grammar.nodes[id]? = some (.leftRecursion inner))
    (found : context.seedAt (id, context.position) = some seed) :
    machine.run (steps + 1) depth id context = replay seed context := by
  have free : ¬(0 < machine.maxDepth ∧ machine.maxDepth < depth) := by omega
  have there : context.seeds.get? id context.position = some seed := found
  rw [run, if_neg free, isRecursion]
  simp only [Clause.run, there]

/-- The end of a call in a trace is what some run of the node comes to. -/
theorem run_of_finished_mem {steps depth : Nat} {id : NodeId} {context : Context L}
    {place : Nat} {node : NodeId} {first after : Context L} {outcome : Outcome L}
    (member : Event.finished place node first outcome after ∈ machine.trace steps depth id context) :
    exists enough, machine.run enough place node first = .finished outcome after := by
  induction steps generalizing depth id context with
  | zero => cases member
  | succ steps inductionHypothesis =>
      rcases mem_trace_succ.mp member with own | ⟨made, _, inner⟩ | ⟨_, _, ends, own⟩
      · cases own
      · exact inductionHypothesis inner
      · cases own
        exact ⟨steps + 1, ends⟩

/-- Two calls of a left recursion at one position in some events: the earlier
one has found no seed and has come to an outcome when the later one is
entered. -/
structure MeetsAgain (machine : Machine L) (events : List (Event L)) (node : NodeId)
    (first : Context L) (outcome : Outcome L) (after later : Context L) : Prop where
  recursion : exists inner, machine.grammar.nodes[node]? = some (.leftRecursion inner)
  order : exists place depth i j : Nat, i < j ∧
    events[i]? = some (Event.finished place node first outcome after) ∧
    events[j]? = some (Event.entered depth node later)
  grew : first.seeds.get? node first.position = none
  position : later.position = first.position

/-- Whether a second answer is the first one: the same verdict, with the same
position and state at the end. -/
def SameAnswer (outcome : Outcome L) (after : Context L) (second : Outcome L)
    (last : Context L) : Prop :=
  outcome.SameVerdict second ∧ last.position = after.position ∧ last.state = after.state

/-- A left recursion that is met again at a position always answers, and it
answers as it did the first time unless that was a failure that advanced. -/
theorem sameAnswer_iff_of_meetsAgain (unlimited : machine.maxDepth = 0) {steps depth : Nat}
    {root node : NodeId} {context first after later : Context L} {outcome : Outcome L}
    (meets : machine.MeetsAgain (machine.trace steps depth root context) node first outcome
      after later) :
    exists second last,
      (forall more place, machine.run (more + 1) place node later = .finished second last) ∧
      (SameAnswer outcome after second last ↔
        ¬(outcome.Fails ∧ first.position < after.position)) := by
  rcases meets.recursion with ⟨inner, isRecursion⟩
  rcases meets.order with ⟨place, depth', i, j, ordered, isEarlier, isLater⟩
  rcases run_of_finished_mem (List.mem_of_getElem? isEarlier) with ⟨enough, ends⟩
  rcases run_recursion_leaves isRecursion meets.grew ends with ⟨seed, leaves⟩
  have found : later.seedAt (node, later.position) = some seed := by
    rw [meets.position]
    exact seedAt_of_left_before ordered isEarlier isLater ⟨rfl, meets.grew, leaves.left⟩
  refine ⟨seed.outcome, { later with position := seed.position, state := seed.state }, ?_, ?_⟩
  · intro more place
    exact run_recursion_recalls unlimited more place isRecursion found
  · rcases leaves.answer with ⟨sameOutcome, samePosition, sameState⟩ | ⟨fails, farther⟩
    · constructor
      · rintro - ⟨fails, advanced⟩
        rw [sameOutcome] at fails
        have stayed := leaves.grown.fails_iff.mp fails
        rw [samePosition, stayed] at advanced
        exact absurd advanced (Nat.lt_irrefl _)
      · intro _
        refine ⟨?_, samePosition.symm, sameState.symm⟩
        rw [sameOutcome]
        exact Outcome.sameVerdict_refl seed.outcome
    · constructor
      · rintro ⟨_, samePosition, _⟩
        exact absurd samePosition (Nat.ne_of_lt farther)
      · intro never
        exact absurd ⟨fails, Nat.lt_of_le_of_lt leaves.grown.reached farther⟩ never

/-- A left recursion whose second match fails after it got farther than the
first one, below an attempt and then again where the attempt gave up. -/
def relapsing : Machine plainText :=
  ⟨⟨[.choice [1, 2], .attempt 2, .leftRecursion 3, .choice [4, 7],
    .sequence [2, 5, 6] (.pick 0), .leaf (.exact "b"), .leaf (.exact "c"), .leaf (.exact "a")],
    []⟩, "ab", 0⟩

/-- The seeds after the first call: the match of one character stays. -/
def relapsingSeeds : SeedTable plainText :=
  ⟨[((2, 0), ⟨1, (), .ok ⟨.text, "a"⟩⟩)]⟩

theorem relapsing_meets :
    relapsing.MeetsAgain (relapsing.trace 8 1 0 (Context.start ())) 2 (Context.start ())
      (.error ⟨2, some 6, none, none⟩) ⟨2, (), (0, 0), relapsingSeeds⟩
      ⟨0, (), (0, 0), relapsingSeeds⟩ where
  recursion := ⟨3, rfl⟩
  order := ⟨3, 2, 21, 23, by decide, rfl, rfl⟩
  grew := rfl
  position := rfl

/-- Whether a left recursion that is met again in the same state at a position
always answers as it did the first time. -/
def RepeatsAnswers (machine : Machine L) : Prop :=
  forall (steps depth : Nat) (root node : NodeId) (context first after later last : Context L)
    (outcome second : Outcome L) (more place : Nat),
    machine.MeetsAgain (machine.trace steps depth root context) node first outcome after later ->
    later.state = first.state ->
    machine.run more place node later = .finished second last ->
    SameAnswer outcome after second last

/-- The first call fails at the end of the input, the second one matches. -/
theorem relapsing_answers_differ : ¬relapsing.RepeatsAnswers := by
  intro repeats
  have second : relapsing.run 8 2 2 ⟨0, (), (0, 0), relapsingSeeds⟩ =
      .finished (.ok ⟨.text, "a"⟩) ⟨1, (), (0, 0), relapsingSeeds⟩ := rfl
  have same := repeats 8 1 0 2 _ _ _ _ _ _ _ 8 2 relapsing_meets rfl second
  exact same.1

/-- The first failure has advanced, so the second call answers otherwise. -/
theorem relapsing_recalls :
    exists second last,
      (forall more place, relapsing.run (more + 1) place 2 ⟨0, (), (0, 0), relapsingSeeds⟩ =
        .finished second last) ∧
      ¬SameAnswer (.error ⟨2, some 6, none, none⟩) ⟨2, (), (0, 0), relapsingSeeds⟩
        second last := by
  rcases sameAnswer_iff_of_meetsAgain rfl relapsing_meets with ⟨second, last, answers, same⟩
  refine ⟨second, last, answers, fun agrees => same.mp agrees ?_⟩
  exact ⟨⟨_, rfl⟩, Nat.zero_lt_two⟩

end Machine
end SeedGrammar
