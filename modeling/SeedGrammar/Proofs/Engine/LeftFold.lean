import SeedGrammar.Proofs.Engine.LoopFree

namespace SeedGrammar

/-!
# Left recursion is a left fold

A rule that is itself and a tail, combined by a function, or else a base, does
what a loop would do: it runs the base once and then the tail for as long as that
gets farther, and combines the values from the left.

The engine does not loop in this way.  In every round it runs both alternatives
from the start again, where the first one begins with a call of the rule that is
answered by the seed.  The seed is therefore the state of the fold: its value is
what has been combined so far, and its position is where the next tail runs.  The
base only runs again if a tail fails right where the rule started, and what it
comes to then cannot get farther than the seed.
-/

variable {L : Signature}

/-- The nodes of a rule that folds: the left recursion at its root, the choice,
its first alternative, the sequence that this applies a function to, and the tail
and the base. -/
structure FoldNodes where
  root : NodeId
  either : NodeId
  grown : NodeId
  step : NodeId
  tail : NodeId
  base : NodeId

/-- A function that combines what has been found so far with one more part, and
may see the match. -/
abbrev FoldFunction (L : Signature) (source part : ValueType L.Kind) :=
  (ValueType.pair source part).Carrier L -> Token L -> source.Carrier L

/-- The transform of a function that combines values. -/
def FoldFunction.transform {source part : ValueType L.Kind} (f : FoldFunction L source part) :
    Transform L :=
  Transform.ofTyped (.pair source part) source fun result token => result.map (f · token)

theorem FoldFunction.transform_ok {source part : ValueType L.Kind} (f : FoldFunction L source part)
    (acc : source.Carrier L) (content : part.Carrier L) (token : Token L) :
    f.transform (.ok ⟨.pair source part, (acc, content)⟩) token =
      .ok (.ok ⟨source, f (acc, content) token⟩) := by
  have isPair := @Value.get?_mk L (.pair source part) (acc, content)
  simp only [transform, Transform.ofTyped, isPair]
  rfl

theorem FoldFunction.transform_error {source part : ValueType L.Kind}
    (f : FoldFunction L source part) (error : ParseError L.Payload) (token : Token L) :
    f.transform (.error error) token = .ok (.error error) := rfl

/-- Where the nodes of a rule that folds are in a grammar. -/
structure Grammar.HasFold (grammar : Grammar L) (nodes : FoldNodes) {source part : ValueType L.Kind}
    (f : FoldFunction L source part) : Prop where
  root : grammar.nodes[nodes.root]? = some (.leftRecursion nodes.either)
  either : grammar.nodes[nodes.either]? = some (.choice [nodes.grown, nodes.base])
  grown : grammar.nodes[nodes.grown]? = some (.map nodes.step f.transform)
  step : grammar.nodes[nodes.step]? =
    some (.sequence [nodes.root, nodes.tail] (.pair source part))

namespace Machine

variable {machine : Machine L} {nodes : FoldNodes} {source part : ValueType L.Kind}
  {f : FoldFunction L source part}

/-- The sequence begins with a call of the rule, which the seed answers. -/
theorem run_step (unlimited : machine.maxDepth = 0) (isFold : machine.grammar.HasFold nodes f)
    {context : Context L} {seed : Seed L}
    (found : context.seeds.get? nodes.root context.position = some seed) (steps : Nat) :
    machine.run (steps + 2) 1 nodes.step context =
      match seed.outcome with
      | .error error =>
        .finished (.error error) { context with position := seed.position, state := seed.state }
      | .ok value =>
        (machine.run (steps + 1) 1 nodes.tail
            { context with position := seed.position, state := seed.state }).andThen
          fun outcome after =>
            match outcome with
            | .error error => .finished (.error error) after
            | .ok next =>
              finishWith nodes.step (Gather.collect (.pair source part) [value, next]) after := by
  have replayed : machine.run (steps + 1) 1 nodes.root context =
      .finished seed.outcome { context with position := seed.position, state := seed.state } := by
    rw [run_clause unlimited isFold.root]
    simp only [Clause.run, found, replay]
  rw [run_clause unlimited isFold.step]
  simp only [Clause.run, runSequence, replayed, Reply.andThen_finished]
  cases seed.outcome with
  | error error => rfl
  | ok value =>
      simp only [Reply.andThen_assoc]
      congr 1
      funext outcome after
      cases outcome with
      | error error => rfl
      | ok next => rfl

/-- A round with a seed that fails where it starts: the first alternative fails
with the seed, and the base runs. -/
theorem run_either_of_failure (unlimited : machine.maxDepth = 0)
    (isFold : machine.grammar.HasFold nodes f) {error : ParseError L.Payload} {context : Context L}
    (found : context.seeds.get? nodes.root context.position =
      some ⟨context.position, context.state, .error error⟩) (steps : Nat) :
    machine.run (steps + 4) 1 nodes.either context =
      runChoice (machine.run (steps + 3) 1) nodes.either context.snapshot (some error)
        [nodes.base] { context with range := (context.position, context.position) } := by
  have mapped : machine.run (steps + 3) 1 nodes.grown context =
      .finished (.error error)
        { context with range := (context.position, context.position) } := by
    rw [run_clause unlimited isFold.grown]
    simp only [Clause.run, run_step unlimited isFold found, Reply.andThen_finished]
    rfl
  rw [run_clause unlimited isFold.either]
  simp only [Clause.run, runChoice, mapped, Reply.andThen_finished, Context.snapshot, if_true]
  rfl

section Growing

variable {acc : source.Carrier L} {context after : Context L} {first here : Snapshot L}
  {steps : Nat}

/-- The sequence in a round after a value: the tail runs where the seed ended. -/
theorem run_step_of_value (unlimited : machine.maxDepth = 0)
    (isFold : machine.grammar.HasFold nodes f)
    (found : context.seeds.get? nodes.root first.position =
      some ⟨here.position, here.state, .ok ⟨source, acc⟩⟩) (steps : Nat) :
    machine.run (steps + 2) 1 nodes.step (context.restore first) =
      (machine.run (steps + 1) 1 nodes.tail (context.restore here)).andThen
        fun outcome after =>
          match outcome with
          | .error error => .finished (.error error) after
          | .ok next =>
            finishWith nodes.step (Gather.collect (.pair source part) [⟨source, acc⟩, next])
              after := by
  have seeded : (context.restore first).seeds.get? nodes.root (context.restore first).position =
      some ⟨here.position, here.state, .ok ⟨source, acc⟩⟩ := found
  exact run_step unlimited isFold seeded steps

/-- A round after a value with a tail that matches. -/
theorem run_either_of_match (unlimited : machine.maxDepth = 0)
    (isFold : machine.grammar.HasFold nodes f)
    (found : context.seeds.get? nodes.root first.position =
      some ⟨here.position, here.state, .ok ⟨source, acc⟩⟩) {content : part.Carrier L}
    (tailRun : machine.run (steps + 1) 1 nodes.tail (context.restore here) =
      .finished (.ok ⟨part, content⟩) after) :
    machine.run (steps + 4) 1 nodes.either (context.restore first) =
      .finished
        (.ok ⟨source, f (acc, content)
          ⟨machine.input, (first.position, after.position), after.state, nodes.grown⟩⟩)
        { after with range := (first.position, after.position) } := by
  have stepped : machine.run (steps + 2) 1 nodes.step (context.restore first) =
      .finished (.ok ⟨.pair source part, (acc, content)⟩) after := by
    rw [run_step_of_value unlimited isFold found, tailRun, Reply.andThen_finished]
    simp only [Gather.collect, Value.get?_mk, finishWith]
  have mapped : machine.run (steps + 3) 1 nodes.grown (context.restore first) =
      .finished
        (.ok ⟨source, f (acc, content)
          ⟨machine.input, (first.position, after.position), after.state, nodes.grown⟩⟩)
        { after with range := (first.position, after.position) } := by
    rw [run_clause unlimited isFold.grown]
    simp only [Clause.run, stepped, Reply.andThen_finished, FoldFunction.transform_ok]
    rfl
  rw [run_clause unlimited isFold.either]
  simp only [Clause.run, runChoice, mapped, Reply.andThen_finished]

/-- A round after a value with a tail that fails.  If it fails where the rule
started, the base runs again. -/
theorem run_either_of_mismatch (unlimited : machine.maxDepth = 0)
    (isFold : machine.grammar.HasFold nodes f)
    (found : context.seeds.get? nodes.root first.position =
      some ⟨here.position, here.state, .ok ⟨source, acc⟩⟩) {error : ParseError L.Payload}
    (tailRun : machine.run (steps + 1) 1 nodes.tail (context.restore here) =
      .finished (.error error) after) :
    machine.run (steps + 4) 1 nodes.either (context.restore first) =
      if after.position = first.position then
        runChoice (machine.run (steps + 3) 1) nodes.either first (some error) [nodes.base]
          ({ after with range := (first.position, after.position) }.restore first)
      else
        .finished (.error error) { after with range := (first.position, after.position) } := by
  have stepped : machine.run (steps + 2) 1 nodes.step (context.restore first) =
      .finished (.error error) after := by
    rw [run_step_of_value unlimited isFold found, tailRun, Reply.andThen_finished]
  have mapped : machine.run (steps + 3) 1 nodes.grown (context.restore first) =
      .finished (.error error) { after with range := (first.position, after.position) } := by
    rw [run_clause unlimited isFold.grown]
    simp only [Clause.run, stepped, Reply.andThen_finished, FoldFunction.transform_error]
    rfl
  rw [run_clause unlimited isFold.either]
  simp only [Clause.run, runChoice, mapped, Reply.andThen_finished]
  rfl

theorem run_either_of_exhausted (unlimited : machine.maxDepth = 0)
    (isFold : machine.grammar.HasFold nodes f)
    (found : context.seeds.get? nodes.root first.position =
      some ⟨here.position, here.state, .ok ⟨source, acc⟩⟩)
    (tailRun : machine.run (steps + 1) 1 nodes.tail (context.restore here) = .exhausted) :
    machine.run (steps + 4) 1 nodes.either (context.restore first) = .exhausted := by
  have stepped : machine.run (steps + 2) 1 nodes.step (context.restore first) = .exhausted := by
    rw [run_step_of_value unlimited isFold found, tailRun, Reply.andThen_exhausted]
  have mapped : machine.run (steps + 3) 1 nodes.grown (context.restore first) = .exhausted := by
    rw [run_clause unlimited isFold.grown]
    simp only [Clause.run, stepped, Reply.andThen_exhausted]
  rw [run_clause unlimited isFold.either]
  simp only [Clause.run, runChoice, mapped, Reply.andThen_exhausted]

end Growing

/-! ## The iteration -/

/-- Running the tail again and again, from a value and a place: the tail that
gets no farther ends the iteration there, and one that fails farther on makes it
fail. -/
inductive FoldsFrom (machine : Machine L) (nodes : FoldNodes) {source part : ValueType L.Kind}
    (f : FoldFunction L source part) (start : Nat) :
    source.Carrier L -> Snapshot L -> Outcome L -> Snapshot L -> Prop where
  | done {acc : source.Carrier L} {here stop : Snapshot L} {outcome : Outcome L} :
      machine.Comes nodes.tail here outcome stop -> stop.position ≤ here.position ->
      FoldsFrom machine nodes f start acc here (.ok ⟨source, acc⟩) here
  | fails {acc : source.Carrier L} {here stop : Snapshot L} {error : ParseError L.Payload} :
      machine.Comes nodes.tail here (.error error) stop -> here.position < stop.position ->
      FoldsFrom machine nodes f start acc here (.error error) stop
  | more {acc : source.Carrier L} {content : part.Carrier L} {here stop last : Snapshot L}
      {outcome : Outcome L} :
      machine.Comes nodes.tail here (.ok ⟨part, content⟩) stop -> here.position < stop.position ->
      FoldsFrom machine nodes f start
        (f (acc, content) ⟨machine.input, (start, stop.position), stop.state, nodes.grown⟩)
        stop outcome last ->
      FoldsFrom machine nodes f start acc here outcome last

/-- Running the base once and then the tail again and again.  A base that gets
nowhere makes the rule fail where it started. -/
inductive FoldsLeft (machine : Machine L) (nodes : FoldNodes) {source part : ValueType L.Kind}
    (f : FoldFunction L source part) (first : Snapshot L) : Outcome L -> Snapshot L -> Prop where
  | fails {stop : Snapshot L} {error : ParseError L.Payload} :
      machine.Comes nodes.base first (.error error) stop -> first.position < stop.position ->
      FoldsLeft machine nodes f first (.error error) stop
  | idle {stop : Snapshot L} {outcome : Outcome L} :
      machine.Comes nodes.base first outcome stop -> stop.position ≤ first.position ->
      FoldsLeft machine nodes f first
        (.error ((ParseError.bare first.position).withNode nodes.root)) first
  | grows {acc : source.Carrier L} {here last : Snapshot L} {outcome : Outcome L} :
      machine.Comes nodes.base first (.ok ⟨source, acc⟩) here ->
      first.position < here.position ->
      FoldsFrom machine nodes f first.position acc here outcome last ->
      FoldsLeft machine nodes f first outcome last

/-! ## One round of growth -/

section Rounds

variable {acc : source.Carrier L} {context after : Context L} {first here : Snapshot L}
  {steps rounds : Nat}

/-- Growth ends where the operand gets no farther than the seed. -/
theorem runGrowth_of_shorter {self inner : NodeId} {call : Caller L NodeId} {seed : Seed L}
    {outcome : Outcome L} (round : call inner (context.restore first) = .finished outcome after)
    (found : after.seeds.get? self first.position = some seed)
    (shorter : after.position ≤ seed.position) :
    runGrowth call self inner first (rounds + 1) context = replay seed after := by
  rw [runGrowth, round]
  simp only [Reply.andThen_finished, found, if_pos shorter]

/-- The base alone, after the other alternative has failed. -/
theorem runChoice_base {call : Caller L NodeId} {base : NodeId} (self : NodeId)
    (first : Snapshot L) (error : ParseError L.Payload) {outcome : Outcome L}
    (baseRun : call base context = .finished outcome after) :
    exists last, runChoice call self first (some error) [base] context = .finished outcome last ∧
      last.position = after.position ∧ last.seeds = after.seeds ∧
      (after.position ≠ first.position -> last = after) := by
  rw [runChoice, baseRun, Reply.andThen_finished]
  cases outcome with
  | ok value => exact ⟨after, rfl, rfl, rfl, fun _ => rfl⟩
  | error error =>
      by_cases stayed : after.position = first.position
      · simp only [if_pos stayed]
        exact ⟨after.restore first, rfl, stayed.symm, rfl, fun moved => absurd stayed moved⟩
      · simp only [if_neg stayed]
        exact ⟨after, rfl, rfl, rfl, fun _ => rfl⟩

/-- A tail that gets no farther ends the growth with the seed. -/
theorem runGrowth_done (unlimited : machine.maxDepth = 0)
    (isFold : machine.grammar.HasFold nodes f)
    (found : context.seeds.get? nodes.root first.position =
      some ⟨here.position, here.state, .ok ⟨source, acc⟩⟩)
    {tailOutcome : Outcome L}
    (tailRun : machine.run (steps + 1) 1 nodes.tail (context.restore here) =
      .finished tailOutcome after)
    (isPart : forall value, tailOutcome = .ok value -> value.type = part)
    (kept : after.seeds = context.seeds) (shorter : after.position ≤ here.position)
    (again : tailOutcome.isOk = false -> after.position = first.position ->
      exists outcome last, machine.run (steps + 3) 1 nodes.base
          ({ after with range := (first.position, after.position) }.restore first) =
            .finished outcome last ∧
        last.position ≤ here.position ∧ last.seeds = after.seeds) :
    exists last, runGrowth (machine.run (steps + 4) 1) nodes.root nodes.either first (rounds + 1)
        context = .finished (.ok ⟨source, acc⟩) last ∧ last.snapshot = here := by
  have ending : forall outcome last,
      machine.run (steps + 4) 1 nodes.either (context.restore first) = .finished outcome last ->
      last.seeds = context.seeds -> last.position ≤ here.position ->
      exists last, runGrowth (machine.run (steps + 4) 1) nodes.root nodes.either first
        (rounds + 1) context = .finished (.ok ⟨source, acc⟩) last ∧ last.snapshot = here := by
    intro outcome last round seeds isShorter
    rw [<- seeds] at found
    exact ⟨_, runGrowth_of_shorter round found isShorter, rfl⟩
  cases tailOutcome with
  | ok value =>
      rcases Value.get?_of_type (isPart value rfl) with ⟨content, _, rfl⟩
      have round := run_either_of_match unlimited isFold found tailRun
      exact ending _ _ round kept shorter
  | error error =>
      have round := run_either_of_mismatch unlimited isFold found tailRun
      by_cases back : after.position = first.position
      · rcases again rfl back with ⟨outcome, last, baseRun, isShorter, seeds⟩
        rcases runChoice_base nodes.either first error baseRun with
          ⟨last', chosen, samePosition, sameSeeds, _⟩
        rw [if_pos back] at round
        apply ending outcome last' (round.trans chosen)
        · rw [sameSeeds, seeds, kept]
        · rw [samePosition]
          exact isShorter
      · rw [if_neg back] at round
        exact ending _ _ round kept shorter

/-- A tail that fails farther on makes the growth fail. -/
theorem runGrowth_fails (unlimited : machine.maxDepth = 0)
    (isFold : machine.grammar.HasFold nodes f)
    (found : context.seeds.get? nodes.root first.position =
      some ⟨here.position, here.state, .ok ⟨source, acc⟩⟩) (ahead : first.position < here.position)
    {error : ParseError L.Payload}
    (tailRun : machine.run (steps + 1) 1 nodes.tail (context.restore here) =
      .finished (.error error) after)
    (kept : after.seeds = context.seeds) (farther : here.position < after.position) :
    exists last, runGrowth (machine.run (steps + 4) 1) nodes.root nodes.either first (rounds + 1)
        context = .finished (.error error) last ∧ last.snapshot = after.snapshot := by
  have moved : ¬after.position = first.position := by omega
  have round := run_either_of_mismatch unlimited isFold found tailRun
  rw [if_neg moved] at round
  rw [<- kept] at found
  refine ⟨{ after with range := (first.position, after.position) }, ?_, rfl⟩
  rw [runGrowth, round]
  simp only [Reply.andThen_finished, found, if_neg (Nat.not_le_of_lt farther)]

/-- A tail that gets farther makes the growth go on with the combined value. -/
theorem runGrowth_more (unlimited : machine.maxDepth = 0)
    (isFold : machine.grammar.HasFold nodes f)
    (found : context.seeds.get? nodes.root first.position =
      some ⟨here.position, here.state, .ok ⟨source, acc⟩⟩) {content : part.Carrier L}
    (tailRun : machine.run (steps + 1) 1 nodes.tail (context.restore here) =
      .finished (.ok ⟨part, content⟩) after)
    (kept : after.seeds = context.seeds) (farther : here.position < after.position) :
    exists next : Context L,
      runGrowth (machine.run (steps + 4) 1) nodes.root nodes.either first (rounds + 1) context =
          runGrowth (machine.run (steps + 4) 1) nodes.root nodes.either first rounds next ∧
        next.seeds.get? nodes.root first.position =
          some ⟨after.snapshot.position, after.snapshot.state,
            .ok ⟨source, f (acc, content)
              ⟨machine.input, (first.position, after.position), after.state, nodes.grown⟩⟩⟩ := by
  have round := run_either_of_match unlimited isFold found tailRun
  rw [<- kept] at found
  refine ⟨({ after with range := (first.position, after.position) } : Context L).withSeed
    (nodes.root, first.position) _, ?_, Context.seedAt_withSeed_self _ _ _⟩
  rw [runGrowth, round]
  simp only [Reply.andThen_finished, found, if_neg (Nat.not_le_of_lt farther)]
  rfl

end Rounds

/-! ## All rounds -/

section Folding

variable {types : NodeId -> ValueType L.Kind -> Prop}

/-- What is known about a machine with a rule that folds: the parts are typed,
and no left recursion can be reached from them. -/
structure Folding (machine : Machine L) (nodes : FoldNodes) {source part : ValueType L.Kind}
    (f : FoldFunction L source part) (types : NodeId -> ValueType L.Kind -> Prop) : Prop where
  unlimited : machine.maxDepth = 0
  isFold : machine.grammar.HasFold nodes f
  typing : machine.grammar.Typing types
  tailTyped : types nodes.tail part
  baseTyped : types nodes.base source
  tailFree : machine.grammar.LoopFree nodes.tail
  baseFree : machine.grammar.LoopFree nodes.base

variable {first here based : Snapshot L} {baseOutcome : Outcome L} {acc : source.Carrier L}
  {context : Context L}

/-- Growth that has started folds, if it ends at all. -/
theorem foldsFrom_of_runGrowth (folding : Folding machine nodes f types)
    (comes : machine.Comes nodes.base first baseOutcome based)
    (behind : based.position ≤ here.position) (ahead : first.position < here.position)
    (found : context.seeds.get? nodes.root first.position =
      some ⟨here.position, here.state, .ok ⟨source, acc⟩⟩) {steps rounds : Nat}
    (ends : runGrowth (machine.run (steps + 4) 1) nodes.root nodes.either first rounds context ≠
      .exhausted) :
    exists outcome last,
      runGrowth (machine.run (steps + 4) 1) nodes.root nodes.either first rounds context =
        .finished outcome last ∧
      FoldsFrom machine nodes f first.position acc here outcome last.snapshot := by
  have ⟨unlimited, isFold, typing, tailTyped, baseTyped, tailFree, baseFree⟩ := folding
  induction rounds generalizing context here acc with
  | zero => exact absurd rfl ends
  | succ rounds inductionHypothesis =>
      have roundEnds : machine.run (steps + 4) 1 nodes.either (context.restore first) ≠
          .exhausted := by
        intro spent
        apply ends
        rw [runGrowth, spent, Reply.andThen_exhausted]
      have tailEnds : machine.run (steps + 1) 1 nodes.tail (context.restore here) ≠
          .exhausted :=
        fun spent => roundEnds (run_either_of_exhausted unlimited isFold found spent)
      rcases finishes_of_ends unlimited tailFree typing tailTyped tailEnds with
        ⟨tailOutcome, after, tailRun⟩
      rcases comes_of_run unlimited tailFree tailRun with ⟨tailComes, kept⟩
      have isPart := tailComes.type_eq typing tailTyped
      by_cases shorter : after.position ≤ here.position
      · have again : tailOutcome.isOk = false -> after.position = first.position ->
            exists outcome last, machine.run (steps + 3) 1 nodes.base
                ({ after with range := (first.position, after.position) }.restore first) =
                  .finished outcome last ∧
              last.position ≤ here.position ∧ last.seeds = after.seeds := by
          intro failed back
          cases tailOutcome with
          | ok value => cases failed
          | error error =>
              have round := run_either_of_mismatch unlimited isFold found tailRun
              rw [if_pos back] at round
              have baseEnds : machine.run (steps + 3) 1 nodes.base
                  ({ after with range := (first.position, after.position) }.restore first) ≠
                    .exhausted := by
                intro spent
                apply roundEnds
                rw [round, runChoice, spent, Reply.andThen_exhausted]
              rcases finishes_of_ends unlimited baseFree typing baseTyped baseEnds with
                ⟨outcome, last, baseRun⟩
              rcases comes_of_run unlimited baseFree baseRun with ⟨baseComes, seeds⟩
              have same := comes.unique baseComes
              refine ⟨outcome, last, baseRun, ?_, seeds⟩
              rw [same.2] at behind
              exact behind
        rcases runGrowth_done unlimited isFold found tailRun isPart kept shorter again with
          ⟨last, ending, isLast⟩
        refine ⟨_, last, ending, ?_⟩
        rw [isLast]
        exact .done tailComes shorter
      · have farther : here.position < after.position := Nat.lt_of_not_le shorter
        cases tailOutcome with
        | error error =>
            rcases runGrowth_fails unlimited isFold found ahead tailRun kept farther with
              ⟨last, ending, isLast⟩
            refine ⟨_, last, ending, ?_⟩
            rw [isLast]
            exact .fails tailComes farther
        | ok value =>
            rcases Value.get?_of_type (isPart value rfl) with ⟨content, _, rfl⟩
            rcases runGrowth_more unlimited isFold found tailRun kept farther with
              ⟨next, goesOn, planted⟩
            rw [goesOn] at ends ⊢
            rcases inductionHypothesis (Nat.le_trans behind (Nat.le_of_lt farther))
                (Nat.lt_trans ahead farther) planted ends with ⟨outcome, last, ending, folds⟩
            exact ⟨outcome, last, ending, .more tailComes farther folds⟩

/-- What the iteration comes to is what growth comes to with enough steps. -/
theorem runGrowth_of_foldsFrom (folding : Folding machine nodes f types)
    (comes : machine.Comes nodes.base first baseOutcome based)
    (behind : based.position ≤ here.position) (ahead : first.position < here.position)
    {outcome : Outcome L} {last : Snapshot L}
    (folds : FoldsFrom machine nodes f first.position acc here outcome last) :
    exists enough, forall steps rounds, enough ≤ steps -> enough ≤ rounds ->
      forall context : Context L, context.seeds.get? nodes.root first.position =
          some ⟨here.position, here.state, .ok ⟨source, acc⟩⟩ ->
        exists after,
          runGrowth (machine.run (steps + 4) 1) nodes.root nodes.either first rounds context =
            .finished outcome after ∧ after.snapshot = last := by
  have ⟨unlimited, isFold, typing, tailTyped, baseTyped, tailFree, baseFree⟩ := folding
  induction folds with
  | @done acc here stop tailOutcome tailComes shorter =>
      rcases run_of_comes unlimited tailFree tailComes with ⟨tailEnough, tailRuns⟩
      rcases run_of_comes unlimited baseFree comes with ⟨baseEnough, baseRuns⟩
      refine ⟨tailEnough + baseEnough + 1, ?_⟩
      intro steps rounds enough enoughRounds context found
      rcases Nat.exists_eq_add_one_of_ne_zero (Nat.ne_zero_of_lt enoughRounds) with ⟨rounds, rfl⟩
      rcases tailRuns (steps + 1) (by omega) (context.restore here) rfl with
        ⟨after, tailRun, isStop, kept⟩
      have isPart := tailComes.type_eq typing tailTyped
      have isShorter : after.position ≤ here.position := by
        rw [<- isStop] at shorter
        exact shorter
      apply runGrowth_done unlimited isFold found tailRun isPart kept isShorter
      intro _ _
      rcases baseRuns (steps + 3) (by omega)
          ({ after with range := (first.position, after.position) }.restore first) rfl with
        ⟨baseAfter, baseRun, isBased, seeds⟩
      refine ⟨baseOutcome, baseAfter, baseRun, ?_, seeds⟩
      rw [<- isBased] at behind
      exact behind
  | @fails acc here stop error tailComes farther =>
      rcases run_of_comes unlimited tailFree tailComes with ⟨enough, tailRuns⟩
      refine ⟨enough + 1, ?_⟩
      intro steps rounds isEnough enoughRounds context found
      rcases Nat.exists_eq_add_one_of_ne_zero (Nat.ne_zero_of_lt enoughRounds) with ⟨rounds, rfl⟩
      rcases tailRuns (steps + 1) (by omega) (context.restore here) rfl with
        ⟨after, tailRun, isStop, kept⟩
      rw [<- isStop] at farther ⊢
      exact runGrowth_fails unlimited isFold found ahead tailRun kept farther
  | @more acc content here stop last outcome tailComes farther _ inductionHypothesis =>
      rcases run_of_comes unlimited tailFree tailComes with ⟨tailEnough, tailRuns⟩
      rcases inductionHypothesis (Nat.le_trans behind (Nat.le_of_lt farther))
          (Nat.lt_trans ahead farther) with ⟨enough, grows⟩
      refine ⟨tailEnough + enough + 1, ?_⟩
      intro steps rounds isEnough enoughRounds context found
      rcases Nat.exists_eq_add_one_of_ne_zero (Nat.ne_zero_of_lt enoughRounds) with ⟨rounds, rfl⟩
      rcases tailRuns (steps + 1) (by omega) (context.restore here) rfl with
        ⟨after, tailRun, rfl, kept⟩
      rcases runGrowth_more unlimited isFold found tailRun kept farther with
        ⟨next, goesOn, planted⟩
      rw [goesOn]
      exact grows steps rounds (by omega) (by omega) next planted

/-! ## The whole rule -/

/-- The context in which growth starts: a seed is there that fails. -/
def planted (nodes : FoldNodes) (context : Context L) : Context L :=
  context.withSeed (nodes.root, context.position)
    ⟨context.position, context.state,
      .error ((ParseError.bare context.position).withNode nodes.root)⟩

theorem planted_seed (nodes : FoldNodes) (context : Context L) :
    (planted nodes context).seeds.get? nodes.root context.position =
      some ⟨context.position, context.state,
        .error ((ParseError.bare context.position).withNode nodes.root)⟩ :=
  context.seedAt_withSeed_self (nodes.root, context.position) _

/-- The context in which the base runs first. -/
def atBase (nodes : FoldNodes) (context : Context L) : Context L :=
  { planted nodes context with range := (context.position, context.position) }

theorem run_root (unlimited : machine.maxDepth = 0) (isFold : machine.grammar.HasFold nodes f)
    (absent : context.seeds.get? nodes.root context.position = none) (steps depth : Nat) :
    machine.run (steps + 6) depth nodes.root context =
      runGrowth (machine.run (steps + 5) 1) nodes.root nodes.either context.snapshot (steps + 5)
        (planted nodes context) := by
  rw [run_clause unlimited isFold.root]
  simp only [Clause.run, absent]
  rfl

theorem run_either_first (unlimited : machine.maxDepth = 0)
    (isFold : machine.grammar.HasFold nodes f) (context : Context L) (steps : Nat) :
    machine.run (steps + 5) 1 nodes.either ((planted nodes context).restore context.snapshot) =
      runChoice (machine.run (steps + 4) 1) nodes.either context.snapshot
        (some ((ParseError.bare context.position).withNode nodes.root)) [nodes.base]
        (atBase nodes context) := by
  have found : (planted nodes context).seeds.get? nodes.root (planted nodes context).position =
      some ⟨(planted nodes context).position, (planted nodes context).state,
        .error ((ParseError.bare context.position).withNode nodes.root)⟩ :=
    planted_seed nodes context
  exact run_either_of_failure unlimited isFold found (steps + 1)

section Start

variable {steps depth : Nat} {after : Context L}

/-- A base that gets nowhere makes the rule fail where it started. -/
theorem run_root_idle (unlimited : machine.maxDepth = 0)
    (isFold : machine.grammar.HasFold nodes f)
    (absent : context.seeds.get? nodes.root context.position = none)
    (baseRun : machine.run (steps + 4) 1 nodes.base (atBase nodes context) =
      .finished baseOutcome after)
    (kept : after.seeds = (planted nodes context).seeds)
    (shorter : after.position ≤ context.position) :
    exists last, machine.run (steps + 6) depth nodes.root context =
        .finished (.error ((ParseError.bare context.position).withNode nodes.root)) last ∧
      last.snapshot = context.snapshot := by
  rcases runChoice_base nodes.either context.snapshot
      ((ParseError.bare context.position).withNode nodes.root) baseRun with
    ⟨last, chosen, samePosition, sameSeeds, _⟩
  have round := (run_either_first unlimited isFold context steps).trans chosen
  have found : last.seeds.get? nodes.root context.snapshot.position =
      some ⟨context.position, context.state,
        .error ((ParseError.bare context.position).withNode nodes.root)⟩ := by
    rw [sameSeeds, kept]
    exact planted_seed nodes context
  have isShorter : last.position ≤ context.position := by
    rw [samePosition]
    exact shorter
  rw [run_root unlimited isFold absent]
  exact ⟨_, runGrowth_of_shorter round found isShorter, rfl⟩

/-- A base that gets farther makes the rule fail if it fails, and grow if it
does not. -/
theorem run_root_farther (unlimited : machine.maxDepth = 0)
    (isFold : machine.grammar.HasFold nodes f)
    (absent : context.seeds.get? nodes.root context.position = none)
    (baseRun : machine.run (steps + 4) 1 nodes.base (atBase nodes context) =
      .finished baseOutcome after)
    (kept : after.seeds = (planted nodes context).seeds)
    (farther : context.position < after.position) :
    match baseOutcome with
    | .error error => machine.run (steps + 6) depth nodes.root context =
        .finished (.error error) after
    | .ok value => exists next : Context L,
        machine.run (steps + 6) depth nodes.root context =
          runGrowth (machine.run (steps + 1 + 4) 1) nodes.root nodes.either context.snapshot
            (steps + 4) next ∧
        next.seeds.get? nodes.root context.snapshot.position =
          some ⟨after.snapshot.position, after.snapshot.state, .ok value⟩ := by
  rcases runChoice_base nodes.either context.snapshot
      ((ParseError.bare context.position).withNode nodes.root) baseRun with
    ⟨last, chosen, _, _, moved⟩
  have same : last = after := moved (Nat.ne_of_gt farther)
  subst same
  have round := (run_either_first unlimited isFold context steps).trans chosen
  have found : last.seeds.get? nodes.root context.snapshot.position =
      some ⟨context.position, context.state,
        .error ((ParseError.bare context.position).withNode nodes.root)⟩ := by
    rw [kept]
    exact planted_seed nodes context
  have grows : machine.run (steps + 6) depth nodes.root context = _ :=
    run_root unlimited isFold absent steps depth
  rw [runGrowth, round] at grows
  simp only [Reply.andThen_finished, found, if_neg (Nat.not_le_of_lt farther)] at grows
  cases baseOutcome with
  | error error => exact grows
  | ok value =>
      exact ⟨_, grows, last.seedAt_withSeed_self (nodes.root, context.position) _⟩

end Start

/-- A rule that folds comes to what the iteration comes to, unless its steps are
used up. -/
theorem foldsLeft_of_run (folding : Folding machine nodes f types)
    (absent : context.seeds.get? nodes.root context.position = none) {steps depth : Nat}
    (ends : machine.run steps depth nodes.root context ≠ .exhausted) :
    exists outcome last, machine.run steps depth nodes.root context = .finished outcome last ∧
      FoldsLeft machine nodes f context.snapshot outcome last.snapshot := by
  have ⟨unlimited, isFold, typing, tailTyped, baseTyped, tailFree, baseFree⟩ := folding
  have same := run_more (Nat.le_add_right steps 6) ends
  rw [<- same] at ends ⊢
  have baseEnds : machine.run (steps + 4) 1 nodes.base (atBase nodes context) ≠ .exhausted := by
    intro spent
    apply ends
    rw [run_root unlimited isFold absent, runGrowth, run_either_first unlimited isFold, runChoice,
      spent]
    rfl
  rcases finishes_of_ends unlimited baseFree typing baseTyped baseEnds with
    ⟨baseOutcome, after, baseRun⟩
  rcases comes_of_run unlimited baseFree baseRun with ⟨baseComes, kept⟩
  by_cases shorter : after.position ≤ context.position
  · rcases run_root_idle unlimited isFold absent baseRun kept shorter with ⟨last, ending, isLast⟩
    refine ⟨_, last, ending, ?_⟩
    rw [isLast]
    exact .idle baseComes shorter
  · have farther : context.position < after.position := Nat.lt_of_not_le shorter
    have reply := @run_root_farther L machine nodes source part f baseOutcome context steps depth
      after unlimited isFold absent baseRun kept farther
    cases baseOutcome with
    | error error => exact ⟨_, after, reply, .fails baseComes farther⟩
    | ok value =>
        have isSource := baseComes.type_eq typing baseTyped value rfl
        rcases Value.get?_of_type isSource with ⟨acc, _, rfl⟩
        rcases reply with ⟨next, goesOn, found⟩
        rw [goesOn] at ends ⊢
        rcases foldsFrom_of_runGrowth folding baseComes (Nat.le_refl _) farther found ends with
          ⟨outcome, last, ending, folds⟩
        exact ⟨outcome, last, ending, .grows baseComes farther folds⟩

/-- What the iteration comes to is what the rule comes to with enough steps. -/
theorem run_of_foldsLeft (folding : Folding machine nodes f types)
    (absent : context.seeds.get? nodes.root context.position = none) {outcome : Outcome L}
    {last : Snapshot L} (folds : FoldsLeft machine nodes f context.snapshot outcome last)
    (depth : Nat) :
    exists enough, forall steps, enough ≤ steps -> exists after,
      machine.run steps depth nodes.root context = .finished outcome after ∧
        after.snapshot = last := by
  have ⟨unlimited, isFold, typing, tailTyped, baseTyped, tailFree, baseFree⟩ := folding
  -- More steps than it takes change nothing, so one number of steps will do.
  have suffices_one : forall enough after,
      machine.run enough depth nodes.root context = .finished outcome after ->
      after.snapshot = last ->
      exists enough, forall steps, enough ≤ steps -> exists after,
        machine.run steps depth nodes.root context = .finished outcome after ∧
          after.snapshot = last := by
    intro enough after finishes isLast
    refine ⟨enough, ?_⟩
    intro steps isEnough
    exact ⟨after, run_more_finished isEnough finishes, isLast⟩
  cases folds with
  | @fails stop error baseComes farther =>
      rcases run_of_comes unlimited baseFree baseComes with ⟨enough, baseRuns⟩
      rcases baseRuns (enough + 4) (by omega) (atBase nodes context) rfl with
        ⟨after, baseRun, isStop, kept⟩
      rw [<- isStop] at farther
      have reply := @run_root_farther L machine nodes source part f _ context enough depth
        after unlimited isFold absent baseRun kept farther
      exact suffices_one _ after reply isStop
  | @idle stop baseOutcome baseComes shorter =>
      rcases run_of_comes unlimited baseFree baseComes with ⟨enough, baseRuns⟩
      rcases baseRuns (enough + 4) (by omega) (atBase nodes context) rfl with
        ⟨after, baseRun, isStop, kept⟩
      rw [<- isStop] at shorter
      rcases @run_root_idle L machine nodes source part f baseOutcome context enough depth after
        unlimited isFold absent baseRun kept shorter with ⟨final, finishes, isLast⟩
      exact suffices_one _ final finishes isLast
  | @grows acc here _ _ baseComes farther folds =>
      rcases run_of_comes unlimited baseFree baseComes with ⟨baseEnough, baseRuns⟩
      rcases runGrowth_of_foldsFrom folding baseComes (Nat.le_refl _) farther folds with
        ⟨enough, grows⟩
      rcases baseRuns (baseEnough + enough + 4) (by omega) (atBase nodes context) rfl with
        ⟨after, baseRun, isHere, kept⟩
      rw [<- isHere] at farther grows
      have reply := @run_root_farther L machine nodes source part f _ context
        (baseEnough + enough) depth after unlimited isFold absent baseRun kept farther
      rcases reply with ⟨next, goesOn, found⟩
      rcases grows (baseEnough + enough + 1) (baseEnough + enough + 4) (by omega) (by omega) next
        found with ⟨final, finishes, isLast⟩
      exact suffices_one _ final (goesOn.trans finishes) isLast

end Folding
end Machine

end SeedGrammar
