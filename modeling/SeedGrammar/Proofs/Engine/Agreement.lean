import SeedGrammar.Engine.Step
import SeedGrammar.Proofs.Correspondence

namespace SeedGrammar

/-!
# Runs that agree

Runs are compared in several ways: with more steps, in contexts that differ
in a part that does not matter, or in another presentation of the grammar.
Each way says which numbers of nodes and which contexts count as the same.
One run then follows another from below if it uses up its steps, or comes to
the same reply up to what the comparison disregards.

The main fact is `Agreement.clause_follows`: corresponding clauses follow
each other if their operands do.  All comparisons of whole runs are inductions on
the number of steps with this fact as the step.
-/

section Alike

variable {ε β : Type}

/-- The same failure, up to the numbers of nodes. -/
structure ParseError.Alike (nodes : NodeId -> NodeId -> Prop) (error other : ParseError ε) :
    Prop where
  position : error.position = other.position
  node : Option.Rel nodes error.node other.node
  message : error.message = other.message
  payload : error.payload = other.payload

/-- The same fault, up to the numbers of nodes. -/
inductive Fault.Alike (nodes : NodeId -> NodeId -> Prop) : Fault -> Fault -> Prop where
  | nodeOutOfRange {id id'} : nodes id id' -> Alike nodes (.nodeOutOfRange id) (.nodeOutOfRange id')
  | unresolvedReference {id id'} : nodes id id' ->
      Alike nodes (.unresolvedReference id) (.unresolvedReference id')
  | emptyChoice {id id'} : nodes id id' -> Alike nodes (.emptyChoice id) (.emptyChoice id')
  | missingSeed {id id'} : nodes id id' -> Alike nodes (.missingSeed id) (.missingSeed id')
  | wrongType {id id'} : nodes id id' -> Alike nodes (.wrongType id) (.wrongType id')

/-- The same value, or failures that are alike. -/
inductive AnswersAlike (nodes : NodeId -> NodeId -> Prop) :
    Except (ParseError ε) β -> Except (ParseError ε) β -> Prop where
  | ok (value : β) : AnswersAlike nodes (.ok value) (.ok value)
  | error {error error'} : error.Alike nodes error' ->
      AnswersAlike nodes (.error error) (.error error')

namespace ParseError.Alike

variable {nodes : NodeId -> NodeId -> Prop}

theorem eq {error other : ParseError ε} (alike : error.Alike Eq other) : error = other := by
  rcases error with ⟨position, node, message, payload⟩
  rcases other with ⟨position', node', message', payload'⟩
  rcases alike with ⟨rfl, sameNode, rfl, rfl⟩
  cases sameNode with
  | some same => rw [same]
  | none => rfl

theorem refl (same : forall id, nodes id id) (error : ParseError ε) : error.Alike nodes error := by
  refine ⟨rfl, ?_, rfl, rfl⟩
  cases error.node with
  | none => exact .none
  | some id => exact .some (same id)

/-- A failure of a node, whatever else it carries. -/
theorem withNode {id id' : NodeId} (same : nodes id id') (error : ParseError ε) :
    (error.withNode id).Alike nodes (error.withNode id') :=
  ⟨rfl, .some same, rfl, rfl⟩

end ParseError.Alike

theorem Fault.Alike.refl {nodes : NodeId -> NodeId -> Prop} (same : forall id, nodes id id)
    (fault : Fault) : fault.Alike nodes fault := by
  cases fault with
  | nodeOutOfRange id => exact .nodeOutOfRange (same id)
  | unresolvedReference id => exact .unresolvedReference (same id)
  | emptyChoice id => exact .emptyChoice (same id)
  | missingSeed id => exact .missingSeed (same id)
  | wrongType id => exact .wrongType (same id)

theorem Fault.Alike.eq {fault other : Fault} (alike : fault.Alike Eq other) : fault = other := by
  cases alike with
  | nodeOutOfRange same => rw [same]
  | unresolvedReference same => rw [same]
  | emptyChoice same => rw [same]
  | missingSeed same => rw [same]
  | wrongType same => rw [same]

namespace AnswersAlike

variable {nodes : NodeId -> NodeId -> Prop}

theorem eq {answer other : Except (ParseError ε) β} (alike : AnswersAlike Eq answer other) :
    answer = other := by
  cases alike with
  | ok value => rfl
  | error alike => rw [alike.eq]

theorem refl (same : forall id, nodes id id) (answer : Except (ParseError ε) β) :
    AnswersAlike nodes answer answer := by
  cases answer with
  | ok value => exact .ok value
  | error error => exact .error (ParseError.Alike.refl same error)

theorem isOk {answer other : Except (ParseError ε) β} (alike : AnswersAlike nodes answer other) :
    answer.isOk = other.isOk := by
  cases alike <;> rfl

theorem map {γ : Type} (f : β -> γ) {answer other : Except (ParseError ε) β}
    (alike : AnswersAlike nodes answer other) :
    AnswersAlike nodes (answer.map f) (other.map f) := by
  cases alike with
  | ok value => exact .ok (f value)
  | error alike => exact .error alike

end AnswersAlike
end Alike

section Results

variable {L : Signature}

/-- Outcomes or faults of a function that are alike. -/
inductive ResultsAlike (nodes : NodeId -> NodeId -> Prop) :
    Except Fault (Outcome L) -> Except Fault (Outcome L) -> Prop where
  | ok {outcome outcome'} : AnswersAlike nodes outcome outcome' ->
      ResultsAlike nodes (.ok outcome) (.ok outcome')
  | error {fault fault'} : fault.Alike nodes fault' ->
      ResultsAlike nodes (.error fault) (.error fault')

/-- Seeds that are replayed alike. -/
structure SeedsAlike (nodes : NodeId -> NodeId -> Prop) (seed other : Seed L) : Prop where
  position : seed.position = other.position
  state : seed.state = other.state
  outcome : AnswersAlike nodes seed.outcome other.outcome

theorem SeedsAlike.eq {seed other : Seed L} (alike : SeedsAlike Eq seed other) : seed = other := by
  rcases seed with ⟨position, state, outcome⟩
  rcases other with ⟨position', state', outcome'⟩
  rcases alike with ⟨rfl, rfl, outcomes⟩
  have sameOutcome : outcome = outcome' := outcomes.eq
  subst sameOutcome
  rfl

end Results

/-- A comparison of runs: which numbers of nodes and which contexts count as
the same.  Contexts have to be at the same position in the same state, and
have to stay the same when both are moved alike. -/
structure Agreement (L : Signature) where
  nodes : NodeId -> NodeId -> Prop
  contexts : Context L -> Context L -> Prop
  position : forall {first second}, contexts first second -> first.position = second.position
  state : forall {first second}, contexts first second -> first.state = second.state
  moved : forall {first second}, contexts first second -> forall position state,
    contexts { first with position := position, state := state }
      { second with position := position, state := state }
  ranged : forall {first second}, contexts first second -> forall range,
    contexts { first with range := range } { second with range := range }

/-- The reply of one run follows that of another: it is exhausted, or the
replies are the same up to what a comparison disregards. -/
inductive Reply.Follows {L : Signature} {β : Type} (agreement : Agreement L) :
    Reply L (Except (ParseError L.Payload) β) -> Reply L (Except (ParseError L.Payload) β) ->
      Prop where
  | finished {answer answer' context context'} : AnswersAlike agreement.nodes answer answer' ->
      agreement.contexts context context' ->
      Follows agreement (.finished answer context) (.finished answer' context')
  | halted {error error' context context'} : error.Alike agreement.nodes error' ->
      agreement.contexts context context' ->
      Follows agreement (.halted error context) (.halted error' context')
  | faulted {fault fault'} : fault.Alike agreement.nodes fault' ->
      Follows agreement (.faulted fault) (.faulted fault')
  | exhausted {reply} : Follows agreement .exhausted reply

namespace Reply.Follows

variable {L : Signature} {β γ : Type} {agreement : Agreement L}

/-- Runs that follow each other are continued by runs that follow each
other. -/
theorem andThen {reply other : Reply L (Except (ParseError L.Payload) β)}
    {next next' : Except (ParseError L.Payload) β -> Context L ->
      Reply L (Except (ParseError L.Payload) γ)}
    (follows : reply.Follows agreement other)
    (continued : forall answer answer' context context',
      AnswersAlike agreement.nodes answer answer' -> agreement.contexts context context' ->
      (next answer context).Follows agreement (next' answer' context')) :
    (reply.andThen next).Follows agreement (other.andThen next') := by
  cases follows with
  | finished alike same => exact continued _ _ _ _ alike same
  | halted alike same => exact .halted alike same
  | faulted alike => exact .faulted alike
  | exhausted => exact .exhausted

end Reply.Follows

namespace Agreement

variable {L : Signature} (agreement : Agreement L)

/-- Whether the functions of a clause do not see the difference between two
numbers of the clause, and whether the seeds kept under them are the same. -/
def Bears {ρ α : Type} (self self' : NodeId) : Clause L ρ α -> Prop
  | .map _ transform => forall outcome outcome' input range state,
      AnswersAlike agreement.nodes outcome outcome' ->
      ResultsAlike agreement.nodes (transform outcome ⟨input, range, state, self⟩)
        (transform outcome' ⟨input, range, state, self'⟩)
  | .update _ next => forall input range state,
      next state ⟨input, range, state, self⟩ = next state ⟨input, range, state, self'⟩
  | .leftRecursion _ =>
      (forall first second, agreement.contexts first second -> forall start,
        Option.Rel (SeedsAlike agreement.nodes) (first.seeds.get? self start)
          (second.seeds.get? self' start)) ∧
      (forall first second, agreement.contexts first second -> forall start seed seed',
        SeedsAlike agreement.nodes seed seed' ->
        agreement.contexts { first with seeds := first.seeds.set self start seed }
          { second with seeds := second.seeds.set self' start seed' })
  | _ => True

variable {agreement} {α β : Type} {operands : α -> β -> Prop} {call : Caller L α}
  {other : Caller L β} {self self' : NodeId}

/-- Callers that follow each other on related operands. -/
def Callers (agreement : Agreement L) (operands : α -> β -> Prop) (call : Caller L α)
    (other : Caller L β) : Prop :=
  forall operand operand', operands operand operand' -> forall first second,
    agreement.contexts first second ->
    (call operand first).Follows agreement (other operand' second)

/-- Going back to the same snapshot. -/
theorem restored {first second : Context L} (same : agreement.contexts first second)
    (snapshot : Snapshot L) :
    agreement.contexts (first.restore snapshot) (second.restore snapshot) :=
  agreement.moved same snapshot.position snapshot.state

theorem snapshot_eq {first second : Context L} (same : agreement.contexts first second) :
    first.snapshot = second.snapshot := by
  rw [Context.snapshot, Context.snapshot, agreement.position same, agreement.state same]

theorem replay_follows {seed seed' : Seed L} (seeds : SeedsAlike agreement.nodes seed seed')
    {first second : Context L} (same : agreement.contexts first second) :
    (replay seed first).Follows agreement (replay seed' second) := by
  unfold replay
  rw [seeds.position, seeds.state]
  exact .finished seeds.outcome (agreement.moved same _ _)

theorem finishWith_follows (nodes : agreement.nodes self self') (value : Option (Value L))
    {first second : Context L} (same : agreement.contexts first second) :
    (finishWith self value first).Follows agreement (finishWith self' value second) := by
  cases value with
  | some value => exact .finished (.ok value) same
  | none => exact .faulted (.wrongType nodes)

theorem finishGathered_follows (nodes : agreement.nodes self self') (gather : Gather L.Kind)
    {values values' : Values L} (alike : AnswersAlike agreement.nodes values values')
    {first second : Context L} (same : agreement.contexts first second) :
    (finishGathered self gather values first).Follows agreement
      (finishGathered self' gather values' second) := by
  cases alike with
  | ok values => exact finishWith_follows nodes (gather.collect values) same
  | error alike => exact .finished (.error alike) same

theorem runSequence_follows (callers : agreement.Callers operands call other)
    {items : List α} {items' : List β} (related : List.Forall₂ operands items items')
    {first second : Context L} (same : agreement.contexts first second) :
    (runSequence call items first).Follows agreement (runSequence other items' second) := by
  induction related generalizing first second with
  | nil => exact .finished (.ok []) same
  | cons item rest inductionHypothesis =>
      apply (callers _ _ item first second same).andThen
      intro outcome outcome' context context' alike same
      cases alike with
      | error alike => exact .finished (.error alike) same
      | ok value =>
          apply (inductionHypothesis same).andThen
          intro values values' last last' alike same
          exact .finished (alike.map _) same

theorem runChoice_follows (callers : agreement.Callers operands call other)
    (nodes : agreement.nodes self self') (start : Snapshot L)
    {last last' : Option (ParseError L.Payload)}
    (lastAlike : Option.Rel (ParseError.Alike agreement.nodes) last last')
    {alts : List α} {alts' : List β} (related : List.Forall₂ operands alts alts')
    {first second : Context L} (same : agreement.contexts first second) :
    (runChoice call self start last alts first).Follows agreement
      (runChoice other self' start last' alts' second) := by
  induction related generalizing last last' first second with
  | nil =>
      cases lastAlike with
      | some alike => exact .finished (.error alike) same
      | none => exact .faulted (.emptyChoice nodes)
  | cons alt rest inductionHypothesis =>
      rw [runChoice, runChoice]
      apply (callers _ _ alt first second same).andThen
      intro outcome outcome' context context' alike same
      cases alike with
      | ok value => exact .finished (.ok value) same
      | error alike =>
          simp only [agreement.position same]
          by_cases stayed : context'.position = start.position
          · rw [if_pos stayed, if_pos stayed]
            exact inductionHypothesis (.some alike) (restored same start)
          · rw [if_neg stayed, if_neg stayed]
            exact .finished (.error alike) same

theorem runRepeated_follows (callers : agreement.Callers operands call other)
    {keepState : Bool} {inner : α} {inner' : β} (related : operands inner inner') (min : Nat)
    (max : Option Nat) {rounds more : Nat} (enough : rounds ≤ more) (values : List (Value L))
    {first second : Context L} (same : agreement.contexts first second) :
    (runRepeated call keepState inner min max rounds values first).Follows agreement
      (runRepeated other keepState inner' min max more values second) := by
  induction rounds generalizing more values first second with
  | zero => exact .exhausted
  | succ rounds inductionHypothesis =>
      rcases Nat.exists_eq_add_one_of_ne_zero (Nat.ne_zero_of_lt enough) with ⟨more, rfl⟩
      rw [runRepeated, runRepeated]
      by_cases full : max.any (· ≤ values.length) = true
      · rw [if_pos full, if_pos full]
        exact .finished (.ok _) same
      · rw [if_neg full, if_neg full]
        apply (callers _ _ related first second same).andThen
        intro outcome outcome' after after' alike past
        have stays := agreement.position past
        have started := agreement.position same
        cases alike with
        | ok value =>
            simp only [stays, started]
            by_cases idle : after'.position = second.position ∧ min ≤ values.length + 1
            · rw [if_pos idle, if_pos idle]
              exact .finished (.ok _) past
            · rw [if_neg idle, if_neg idle]
              exact inductionHypothesis (Nat.le_of_succ_le_succ enough) (value :: values) past
        | error alike =>
            simp only [stays, started]
            by_cases final : after'.position ≠ second.position ∨ values.length < min
            · rw [if_pos final, if_pos final]
              exact .finished (.error alike) past
            · rw [if_neg final, if_neg final]
              simp only [agreement.state past, agreement.state same]
              exact .finished (.ok _) (agreement.moved past _ _)

theorem runGrowth_follows (callers : agreement.Callers operands call other)
    (nodes : agreement.nodes self self') {inner : α} {inner' : β}
    (related : operands inner inner') (start : Snapshot L)
    (finds : forall first second, agreement.contexts first second ->
      Option.Rel (SeedsAlike agreement.nodes) (first.seeds.get? self start.position)
        (second.seeds.get? self' start.position))
    (plants : forall first second, agreement.contexts first second -> forall seed seed',
      SeedsAlike agreement.nodes seed seed' ->
      agreement.contexts { first with seeds := first.seeds.set self start.position seed }
        { second with seeds := second.seeds.set self' start.position seed' })
    {rounds more : Nat} (enough : rounds ≤ more)
    {first second : Context L} (same : agreement.contexts first second) :
    (runGrowth call self inner start rounds first).Follows agreement
      (runGrowth other self' inner' start more second) := by
  induction rounds generalizing more first second with
  | zero => exact .exhausted
  | succ rounds inductionHypothesis =>
      rcases Nat.exists_eq_add_one_of_ne_zero (Nat.ne_zero_of_lt enough) with ⟨more, rfl⟩
      rw [runGrowth, runGrowth]
      apply (callers _ _ related _ _ (restored same start)).andThen
      intro outcome outcome' after after' alike past
      have kept := finds after after' past
      cases before : after.seeds.get? self start.position with
      | none =>
          rw [before] at kept
          cases before' : after'.seeds.get? self' start.position with
          | none => exact .faulted (.missingSeed nodes)
          | some seed' =>
              rw [before'] at kept
              cases kept
      | some seed =>
          rw [before] at kept
          cases before' : after'.seeds.get? self' start.position with
          | none =>
              rw [before'] at kept
              cases kept
          | some seed' =>
              rw [before'] at kept
              cases kept with
              | some seeds =>
                  have positions : after.position ≤ seed.position ↔
                      after'.position ≤ seed'.position := by
                    rw [agreement.position past, seeds.position]
                  by_cases shorter : after'.position ≤ seed'.position
                  · simp only [if_pos shorter, if_pos (positions.mpr shorter)]
                    exact replay_follows seeds past
                  · simp only [if_neg shorter, if_neg (mt positions.mp shorter)]
                    cases alike with
                    | error alike => exact .finished (.error alike) past
                    | ok value =>
                        apply inductionHypothesis (Nat.le_of_succ_le_succ enough)
                        exact plants after after' past
                          ⟨after.position, after.state, .ok value⟩
                          ⟨after'.position, after'.state, .ok value⟩
                          ⟨agreement.position past, agreement.state past, .ok value⟩

theorem advanced {first second : Context L} (same : agreement.contexts first second)
    (position : Nat) :
    agreement.contexts { first with position := position }
      { second with position := position } := by
  have moved := agreement.moved same position second.state
  rwa [<- agreement.state same] at moved ⊢

private theorem failed_alike (nodes : agreement.nodes self self') {first second : Context L}
    (same : agreement.contexts first second)
    (change : ParseError L.Payload -> ParseError L.Payload)
    (kept : forall error other : ParseError L.Payload, error.Alike agreement.nodes other ->
      (change error).Alike agreement.nodes (change other)) :
    AnswersAlike agreement.nodes (Leaf.failed first (change (Leaf.failure first self))).1
        (Leaf.failed second (change (Leaf.failure second self'))).1 ∧
      agreement.contexts (Leaf.failed first (change (Leaf.failure first self))).2
        (Leaf.failed second (change (Leaf.failure second self'))).2 := by
  refine ⟨.error (kept _ _ ?_), same⟩
  rw [Leaf.failure, Leaf.failure, agreement.position same]
  exact ParseError.Alike.withNode nodes _

private theorem matched_alike {first second : Context L}
    (same : agreement.contexts first second) (value : Value L) (position : Nat) :
    AnswersAlike agreement.nodes (Leaf.matched first value position).1
        (Leaf.matched second value position).1 ∧
      agreement.contexts (Leaf.matched first value position).2
        (Leaf.matched second value position).2 :=
  ⟨.ok value, advanced same position⟩

/-- A leaf sees position and state of a context, and its failures carry its
number. -/
theorem leaf_alike (nodes : agreement.nodes self self') (input : L.Input)
    (atom : Leaf L PatternProgram) {first second : Context L}
    (same : agreement.contexts first second) :
    AnswersAlike agreement.nodes (atom.run input self first).1
        (atom.run input self' second).1 ∧
      agreement.contexts (atom.run input self first).2 (atom.run input self' second).2 := by
  have plain := failed_alike nodes same id fun _ _ alike => alike
  have messages := fun message => failed_alike nodes same (·.withMessage message)
    fun _ _ alike => ⟨alike.position, alike.node, rfl, alike.payload⟩
  have payloads := fun payload => failed_alike nodes same (·.withPayload payload)
    fun _ _ alike => ⟨alike.position, alike.node, alike.message, rfl⟩
  have positions := agreement.position same
  cases atom with
  | exact literal =>
      simp only [Leaf.run, positions]
      split
      · exact matched_alike same _ _
      · exact plain
  | charset set label read =>
      simp only [Leaf.run, positions]
      split
      · split
        · exact matched_alike same _ _
        · exact plain
      · exact messages "EOF"
  | pattern source program text =>
      simp only [Leaf.run, positions]
      split
      · exact plain
      · split
        · exact matched_alike same _ _
        · exact plain
  | empty =>
      simp only [Leaf.run, positions]
      exact matched_alike same _ _
  | eof =>
      simp only [Leaf.run, positions]
      split
      · exact matched_alike same _ _
      · exact messages _
  | fail message payload =>
      exact failed_alike nodes same
        (fun error => { error with message := some message, payload := payload })
        fun _ _ alike => ⟨alike.position, alike.node, rfl, rfl⟩
  | custom name act =>
      simp only [Leaf.run, positions, agreement.state same]
      split
      · exact matched_alike same _ _
      · exact plain
      · exact messages _
      · exact payloads _

/-- Corresponding clauses follow each other if their operands do and their
functions do not see the difference. -/
theorem clause_follows (callers : agreement.Callers operands call other)
    (nodes : agreement.nodes self self') {rounds more : Nat} (enough : rounds ≤ more)
    (input : L.Input) {writes : α -> Bool} {writes' : β -> Bool}
    (sameWrites : forall operand operand', operands operand operand' ->
      writes operand = writes' operand')
    {clause : Clause L PatternProgram α} {clause' : Clause L PatternProgram β}
    (corresponds : clause.Corresponds Eq operands clause') (bears : agreement.Bears self self' clause)
    {first second : Context L} (same : agreement.contexts first second) :
    (clause.run call rounds input writes self first).Follows agreement
      (clause'.run other more input writes' self' second) := by
  have positions := agreement.position same
  have snapshots := snapshot_eq same
  cases corresponds with
  | @leaf atom atom' leaves =>
      subst leaves
      have alike := leaf_alike nodes input atom same
      exact .finished alike.1 alike.2
  | @map inner inner' transform related =>
      apply (callers _ _ related first second same).andThen
      intro outcome outcome' after after' alike past
      have ranged := agreement.ranged past (second.position, after'.position)
      have results := bears outcome outcome' input (second.position, after'.position)
        after'.state alike
      simp only [Context.token, positions, agreement.position past, agreement.state past]
      generalize transform outcome _ = result at results ⊢
      generalize transform outcome' _ = result' at results ⊢
      cases results with
      | ok alike => exact .finished alike (agreement.moved ranged after'.position after'.state)
      | error alike => exact .faulted alike
  | @update inner inner' next related =>
      apply (callers _ _ related first second same).andThen
      intro outcome outcome' after after' alike past
      cases alike with
      | error alike => exact .finished (.error alike) past
      | ok value =>
          have ranged := agreement.ranged past (second.position, after'.position)
          have unseen := bears input (second.position, after'.position) after'.state
          simp only [Context.token, positions, agreement.position past, agreement.state past]
          rw [unseen]
          exact .finished (.ok value) (agreement.moved ranged after'.position _)
  | @sequence items items' gather related =>
      apply (runSequence_follows callers related same).andThen
      intro values values' after after' alike past
      exact finishGathered_follows nodes gather alike past
  | @choice alts alts' related =>
      simp only [Clause.run, snapshots]
      exact runChoice_follows callers nodes second.snapshot .none related same
  | @optional inner inner' element related =>
      apply (callers _ _ related first second same).andThen
      intro outcome outcome' after after' alike past
      cases alike with
      | ok value => exact finishWith_follows nodes _ past
      | error alike =>
          simp only [positions, agreement.position past, snapshots]
          by_cases stayed : after'.position = second.position
          · rw [if_pos stayed, if_pos stayed]
            exact .finished (.ok _) (restored past second.snapshot)
          · rw [if_neg stayed, if_neg stayed]
            exact .finished (.error alike) past
  | @attempt inner inner' related =>
      apply (callers _ _ related first second same).andThen
      intro outcome outcome' after after' alike past
      cases alike with
      | ok value => exact .finished (.ok value) past
      | error alike =>
          simp only [snapshots]
          exact .finished (.error alike) (restored past second.snapshot)
  | @lookahead inner inner' look look' negative related seen =>
      apply (callers _ _ related first second same).andThen
      intro outcome outcome' middle middle' alike between
      cases alike with
      | error alike => exact .finished (.error alike) between
      | ok value =>
          apply (callers _ _ seen middle middle' between).andThen
          intro looked looked' after after' alike past
          simp only [alike.isOk, snapshot_eq between, agreement.position between]
          have undone := restored past middle'.snapshot
          by_cases matched : looked'.isOk = negative
          · rw [if_pos matched, if_pos matched]
            have failures := ParseError.Alike.withNode nodes
              (ParseError.bare middle'.position : ParseError L.Payload)
            exact .finished (.error ⟨rfl, failures.node, rfl, rfl⟩) undone
          · rw [if_neg matched, if_neg matched]
            exact .finished (.ok value) undone
  | @repeated inner inner' element min max related =>
      simp only [Clause.run, sameWrites _ _ related]
      apply (runRepeated_follows callers related min max enough [] same).andThen
      intro values values' after after' alike past
      exact finishGathered_follows nodes (.list element) alike past
  | reference => exact .faulted (.unresolvedReference nodes)
  | @leftRecursion inner inner' related =>
      have kept := bears.1 first second same second.position
      simp only [Clause.run, positions, snapshots]
      cases before : first.seeds.get? self second.position with
      | none =>
          rw [before] at kept
          cases before' : second.seeds.get? self' second.position with
          | some seed' =>
              rw [before'] at kept
              cases kept
          | none =>
              have planted := bears.2 first second same second.position
                ⟨second.position, first.state,
                  .error ((ParseError.bare second.position).withNode self)⟩
                ⟨second.position, second.state,
                  .error ((ParseError.bare second.position).withNode self')⟩
                ⟨rfl, agreement.state same, .error (ParseError.Alike.withNode nodes _)⟩
              exact runGrowth_follows callers nodes related second.snapshot
                (fun _ _ past => bears.1 _ _ past second.position)
                (fun _ _ past => bears.2 _ _ past second.position) enough
                (advanced planted second.position)
      | some seed =>
          rw [before] at kept
          cases before' : second.seeds.get? self' second.position with
          | none =>
              rw [before'] at kept
              cases kept
          | some seed' =>
              rw [before'] at kept
              cases kept with
              | some seeds => exact replay_follows seeds same

end Agreement
end SeedGrammar
