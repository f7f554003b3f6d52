import SeedGrammar.Proofs.Grammar.FirstLeaves
import SeedGrammar.Proofs.Grammar.LintReports
import SeedGrammar.Proofs.Grammar.WellFormed

namespace SeedGrammar

/-!
# First sets are the leaves that left edges lead to

The search for a first set and the search for left recursion are written apart, and
they agree on where to go.  From an operator both go on to the ends of its left
edges, but for a left recursion, where only the former goes on.  So the first set of
an operator holds the leaves that can be reached by left edges and by the steps into
left recursions, each once and no others, `GrammarBuilder.resolved_firstSet_exact`.

How the search goes on can be said without a bound on its depth: as rules, by which
it does nothing at a node where it has been.  Read this way it is a relation,
`Grammar.Collects`, with no rule for a number of no node.  That the search is in the
relation means that it ends, and meets nodes only.

Which edges there are depends on the answers about nullability.  The search asks for
those that it needs, and they stay.  So the edges may be taken as they are
described at any later time, and a search that is repeated then asks nothing new.
-/

variable {L : Signature}

/-- What a search for leaves is about: a node, items of a sequence up to the first that
is not nullable, or operands that are all searched. -/
inductive SearchTask where
  | node (id : NodeId)
  | items (ids : List NodeId)
  | operands (ids : List NodeId)

/-- The nodes that a task may come to directly. -/
def SearchTask.nodes : SearchTask -> List NodeId
  | node id => [id]
  | items ids => ids
  | operands ids => ids

/-- How a search goes on from a clause that is no leaf. -/
def Clause.searchTask : Clause L PatternProgram NodeId -> SearchTask
  | sequence items _ => .items items
  | clause => .operands clause.leading

/-- An operand that is followed to the left is one that the search for leaves goes on
to. -/
theorem Clause.Followed.leads {ρ α : Type} {passed : α -> Prop} {operand : α}
    {clause : Clause L ρ α} (followed : clause.Followed passed operand) :
    clause.Leads passed operand := by
  have isLeft := followed.isLeft
  constructor
  · cases clause with
    | sequence items gather =>
        rcases isLeft with ⟨before, after, rfl, _⟩
        exact List.mem_append_right before List.mem_cons_self
    | choice alts => exact isLeft
    | lookahead inner look negative =>
        exact List.mem_singleton.mpr (followed.noLook inner look negative rfl)
    | leaf atom => exact isLeft.elim
    | reference name expected target => exact isLeft.elim
    | leftRecursion inner => exact isLeft.elim
    | _ => exact List.mem_singleton.mpr isLeft
  · rintro items gather rfl
    exact isLeft

/-- From an operator a search comes to operands only. -/
theorem Clause.searchTask_children {clause : Clause L PatternProgram NodeId}
    (isOperator : clause.isReference = false) {id : NodeId} (member : id ∈ clause.searchTask.nodes) :
    id ∈ clause.children := by
  cases clause with
  | reference name expected target => cases isOperator
  | lookahead inner look negative =>
      rw [List.mem_singleton.mp member]
      exact List.mem_cons_self
  | _ => exact member

namespace Grammar

/-- How a search for leaves goes on from one state to another.  A leaf is noted when
the search comes to it for the first time. -/
inductive Collects (grammar : Grammar L) : SearchTask -> FirstSearch -> FirstSearch -> Prop where
  | again {id state} : id ∈ state.visited -> Collects grammar (.node id) state state
  | leaf {id atom state} : id ∉ state.visited -> grammar.nodes[id]? = some (.leaf atom) ->
      Collects grammar (.node id) state
        { state with visited := id :: state.visited, leaves := id :: state.leaves }
  | enter {id clause state after} : id ∉ state.visited -> grammar.nodes[id]? = some clause ->
      (forall atom, clause ≠ .leaf atom) ->
      Collects grammar clause.searchTask { state with visited := id :: state.visited } after ->
      Collects grammar (.node id) state after
  | noItem {state} : Collects grammar (.items []) state state
  | passed {id rest known state middle after} : Collects grammar (.node id) state middle ->
      grammar.isNullable id middle.known = (true, known) ->
      Collects grammar (.items rest) { middle with known := known } after ->
      Collects grammar (.items (id :: rest)) state after
  | stopped {id rest known state middle} : Collects grammar (.node id) state middle ->
      grammar.isNullable id middle.known = (false, known) ->
      Collects grammar (.items (id :: rest)) state { middle with known := known }
  | noOperand {state} : Collects grammar (.operands []) state state
  | operand {id rest state middle after} : Collects grammar (.node id) state middle ->
      Collects grammar (.operands rest) middle after ->
      Collects grammar (.operands (id :: rest)) state after

/-- Whether there is a left edge from a node to an operand, or the step from a left
recursion to its inner node. -/
def FirstStep (grammar : Grammar L) (answers : Nullability) (id operand : NodeId) : Prop :=
  operand ∈ (grammar.leftEdges id answers).1 ∨ grammar.nodes[id]? = some (.leftRecursion operand)

/-- Whether the search for the first set of a node ends, and what it finds are, each
once, the leaves that can be reached from the node by left edges and by steps into left
recursions.  Which these are may be asked at any time after the search, and a repeated
search finds the same and leaves what is known as it is. -/
structure FirstSetExact (grammar : Grammar L) (id : NodeId) (known : Nullability) : Prop where
  ends : exists after, grammar.Collects (.node id) ⟨[], [], known⟩ after ∧
    grammar.firstSet id known = (after.leaves.reverse, after.known)
  nodup : (grammar.firstSet id known).1.Nodup
  exactly : forall answers, grammar.Asked (grammar.firstSet id known).2 answers ->
    forall leaf, leaf ∈ (grammar.firstSet id known).1 ↔
      (exists atom, grammar.nodes[leaf]? = some (.leaf atom)) ∧
        Relation.ReflTransGen (grammar.FirstStep answers) id leaf
  again : forall answers, grammar.Asked (grammar.firstSet id known).2 answers ->
    grammar.firstSet id answers = ((grammar.firstSet id known).1, answers)

variable {grammar : Grammar L} {known answers : Nullability} {task : SearchTask}
  {before after : FirstSearch} {id : NodeId}

/-! ## The search follows the rules -/

/-- Whether a search follows the rules as long as there is depth enough. -/
def CollectsFrom (grammar : Grammar L) (search : NodeId -> FirstSearch -> FirstSearch)
    (fuel : Nat) : Prop :=
  forall id state, id < grammar.nodeCount -> grammar.Visited state.visited ->
    grammar.nodeCount < state.visited.length + fuel ->
    grammar.Collects (.node id) state (search id state)

section Operands

variable {search : NodeId -> FirstSearch -> FirstSearch} {fuel : Nat} {state : FirstSearch}

theorem foldl_collects (one : grammar.GathersFrom search fuel)
    (follows : grammar.CollectsFrom search fuel) {operands : List NodeId}
    (inRange : forall operand, operand ∈ operands -> operand < grammar.nodeCount)
    (isVisited : grammar.Visited state.visited)
    (enough : grammar.nodeCount < state.visited.length + fuel) :
    grammar.Collects (.operands operands) state
      (operands.foldl (fun state operand => search operand state) state) := by
  induction operands generalizing state with
  | nil => exact .noOperand
  | cons operand rest inductionHypothesis =>
      have isNode := inRange operand List.mem_cons_self
      have early := one operand state isNode isVisited enough
      exact .operand (follows operand state isNode isVisited enough)
        (inductionHypothesis (fun other member => inRange other (List.mem_cons_of_mem operand member))
          early.explores.visited (early.enough isVisited enough))

theorem searchItems_collects (one : grammar.GathersFrom search fuel)
    (follows : grammar.CollectsFrom search fuel) {items : List NodeId}
    (inRange : forall item, item ∈ items -> item < grammar.nodeCount)
    (isVisited : grammar.Visited state.visited)
    (enough : grammar.nodeCount < state.visited.length + fuel) :
    grammar.Collects (.items items) state (grammar.searchItems search items state) := by
  induction items generalizing state with
  | nil => exact .noItem
  | cons item rest inductionHypothesis =>
      have isNode := inRange item List.mem_cons_self
      have early := one item state isNode isVisited enough
      have first := follows item state isNode isVisited enough
      rw [searchItems]
      cases answer : grammar.isNullable item (search item state).known with
      | mk isNullable next =>
          cases isNullable with
          | true =>
              exact .passed first answer (inductionHypothesis
                (fun other member => inRange other (List.mem_cons_of_mem item member))
                early.explores.visited (early.enough isVisited enough))
          | false => exact .stopped first answer

/-- What a clause leads to is searched by the rules, unless it is a leaf. -/
theorem searchClause_collects (one : grammar.GathersFrom search fuel)
    (follows : grammar.CollectsFrom search fuel) (id : NodeId)
    {clause : Clause L PatternProgram NodeId}
    (inRange : forall operand, operand ∈ clause.leading -> operand < grammar.nodeCount)
    (noLeaf : forall atom, clause ≠ .leaf atom) (isVisited : grammar.Visited state.visited)
    (enough : grammar.nodeCount < state.visited.length + fuel) :
    grammar.Collects clause.searchTask state (grammar.searchClause search id state clause) := by
  cases clause with
  | leaf atom => exact absurd rfl (noLeaf atom)
  | sequence items gather => exact searchItems_collects one follows inRange isVisited enough
  | _ => exact foldl_collects one follows inRange isVisited enough

end Operands

/-- The bound on the depth is not used up, since each step down visits a node. -/
theorem searchFirst_collects (inRange : grammar.LeadsInRange) (fuel : Nat) :
    grammar.CollectsFrom (grammar.searchFirst fuel) fuel := by
  induction fuel with
  | zero =>
      intro id state _ isVisited enough
      exact absurd enough (Nat.not_lt_of_le (length_le_of_nodup isVisited.nodup isVisited.inRange))
  | succ fuel inductionHypothesis =>
      intro id state isNode isVisited enough
      rw [searchFirst_succ]
      by_cases again : id ∈ state.visited
      · rw [if_pos again]
        exact .again again
      · rw [if_neg again]
        have entered := isVisited.cons again isNode
        have left : grammar.nodeCount < (id :: state.visited).length + fuel := by
          rw [List.length_cons]
          omega
        cases found : grammar.nodes[id]? with
        | none => exact absurd (List.getElem?_eq_none_iff.mp found) (Nat.not_le_of_lt isNode)
        | some clause =>
            dsimp only
            by_cases isLeaf : exists atom, clause = .leaf atom
            · rcases isLeaf with ⟨atom, rfl⟩
              exact .leaf again found
            · have noLeaf : forall atom, clause ≠ .leaf atom :=
                fun atom isAtom => isLeaf ⟨atom, isAtom⟩
              let inside : FirstSearch := { state with visited := id :: state.visited }
              have isInside : grammar.Visited inside.visited := entered
              exact .enter again found noLeaf
                (searchClause_collects (searchFirst_gathers inRange fuel) inductionHypothesis id
                  (fun operand member => inRange ⟨clause, found, member⟩) noLeaf isInside left)

theorem firstSet_collects (inRange : grammar.LeadsInRange) (isNode : id < grammar.nodeCount)
    (known : Nullability) : exists after, grammar.Collects (.node id) ⟨[], [], known⟩ after ∧
      grammar.firstSet id known = (after.leaves.reverse, after.known) := by
  refine ⟨_, searchFirst_collects inRange (grammar.nodeCount + 1) id ⟨[], [], known⟩ isNode
    (.none grammar) ?_, rfl⟩
  exact Nat.lt_of_lt_of_le (Nat.lt_succ_self _) (Nat.le_add_left _ _)

/-! ## What a search leaves behind -/

/-- A search can go on in one way. -/
theorem Collects.unique {after' : FirstSearch} (collects : grammar.Collects task before after)
    (collects' : grammar.Collects task before after') : after = after' := by
  induction collects generalizing after' with
  | again visited =>
      cases collects' with
      | again _ => rfl
      | leaf fresh _ | enter fresh _ _ _ => exact absurd visited fresh
  | leaf fresh isLeaf =>
      cases collects' with
      | again visited => exact absurd visited fresh
      | leaf _ _ => rfl
      | enter _ found noLeaf _ =>
          rw [isLeaf] at found
          exact absurd (Option.some.inj found).symm (noLeaf _)
  | enter fresh found noLeaf _ inductionHypothesis =>
      cases collects' with
      | again visited => exact absurd visited fresh
      | leaf _ isLeaf =>
          rw [isLeaf] at found
          exact absurd (Option.some.inj found).symm (noLeaf _)
      | enter _ found' _ below =>
          rw [found] at found'
          cases found'
          exact inductionHypothesis below
  | noItem =>
      cases collects'
      rfl
  | passed _ yes _ early late =>
      cases collects' with
      | passed first' yes' rest' =>
          cases early first'
          rw [yes] at yes'
          cases yes'
          exact late rest'
      | stopped first' no =>
          cases early first'
          rw [yes] at no
          cases no
  | stopped _ no early =>
      cases collects' with
      | passed first' yes _ =>
          cases early first'
          rw [no] at yes
          cases yes
      | stopped first' no' =>
          cases early first'
          rw [no] at no'
          cases no'
          rfl
  | noOperand =>
      cases collects'
      rfl
  | operand _ _ early late =>
      cases collects' with
      | operand first' rest' =>
          cases early first'
          exact late rest'

theorem Collects.asked (collects : grammar.Collects task before after) :
    grammar.Asked before.known after.known := by
  induction collects with
  | again _ => exact .refl
  | leaf _ _ => exact .refl
  | enter _ _ _ _ inductionHypothesis => exact inductionHypothesis
  | noItem => exact .refl
  | passed _ yes _ early late => exact (early.trans (Asked.of_answer yes)).trans late
  | stopped _ no early => exact early.trans (Asked.of_answer no)
  | noOperand => exact .refl
  | operand _ _ early late => exact early.trans late

/-- Whether the leaves that have been noted are leaves, different, and visited. -/
structure Tidy (grammar : Grammar L) (state : FirstSearch) : Prop where
  nodup : state.leaves.Nodup
  visited : state.leaves ⊆ state.visited
  areLeaves : forall id, id ∈ state.leaves -> exists atom, grammar.nodes[id]? = some (.leaf atom)

theorem Collects.tidy (collects : grammar.Collects task before after)
    (tidy : grammar.Tidy before) : grammar.Tidy after := by
  induction collects with
  | again _ => exact tidy
  | @leaf id atom state fresh isLeaf =>
      constructor
      · exact List.nodup_cons.mpr ⟨fun noted => fresh (tidy.visited noted), tidy.nodup⟩
      · exact List.cons_subset_cons id tidy.visited
      · intro other member
        rcases List.mem_cons.mp member with rfl | older
        · exact ⟨atom, isLeaf⟩
        · exact tidy.areLeaves other older
  | enter _ _ _ _ inductionHypothesis =>
      exact inductionHypothesis
        ⟨tidy.nodup, List.Subset.trans tidy.visited (List.subset_cons_self ..), tidy.areLeaves⟩
  | noItem => exact tidy
  | passed _ _ _ early late =>
      have middle := early tidy
      exact late ⟨middle.nodup, middle.visited, middle.areLeaves⟩
  | stopped _ _ early =>
      have middle := early tidy
      exact ⟨middle.nodup, middle.visited, middle.areLeaves⟩
  | noOperand => exact tidy
  | operand _ _ early late => exact late (early tidy)

/-! ## Answers that stay -/

/-- A search that is repeated with answers that have been given later goes the same
way, and asks nothing new. -/
theorem Collects.repeated (collects : grammar.Collects task before after)
    (rests : grammar.Rests before.known) (asked : grammar.Asked after.known answers) :
    grammar.Collects task { before with known := answers } { after with known := answers } := by
  induction collects with
  | again visited => exact .again visited
  | leaf fresh isLeaf => exact .leaf fresh isLeaf
  | enter fresh found noLeaf _ inductionHypothesis =>
      exact .enter fresh found noLeaf (inductionHypothesis rests asked)
  | noItem => exact .noItem
  | passed first yes rest' early late =>
      have restsMiddle := first.asked.rests rests
      have asksNext := Asked.of_answer yes
      have askedNext := rest'.asked.trans asked
      exact .passed (early rests (asksNext.trans askedNext)) (restsMiddle.repeats yes askedNext)
        (late (asksNext.rests restsMiddle) asked)
  | @stopped id rest known state middle first no early =>
      have again := early rests ((Asked.of_answer no).trans asked)
      have noAgain := (first.asked.rests rests).repeats no asked
      have stops : grammar.Collects (.items (id :: rest)) _ _ := .stopped again noAgain
      exact stops
  | noOperand => exact .noOperand
  | operand first rest' early late =>
      exact .operand (early rests (rest'.asked.trans asked)) (late (first.asked.rests rests) asked)

/-! ## Only what can be reached is found -/

/-- Whether operands of nodes are operators. -/
def OperandsResolved (grammar : Grammar L) : Prop :=
  forall {id child}, grammar.Edge Clause.children id child -> grammar.HasOperator child

/-- The nodes from which a task goes on, by the answers that are given. -/
def starts (grammar : Grammar L) (answers : Nullability) : SearchTask -> List NodeId
  | .node id => [id]
  | .items ids => (grammar.leadingItems ids answers).1
  | .operands ids => ids

theorem mem_leadingItems_self (id : NodeId) (rest : List NodeId) (answers : Nullability) :
    id ∈ (grammar.leadingItems (id :: rest) answers).1 := by
  rw [leadingItems]
  split <;> exact List.mem_cons_self

/-- From an operator the search goes on by left edges and by steps into left
recursions. -/
theorem firstStep_of_start {clause : Clause L PatternProgram NodeId}
    (found : grammar.nodes[id]? = some clause) (isOperator : clause.isReference = false)
    {operand : NodeId} (start : operand ∈ grammar.starts answers clause.searchTask) :
    grammar.FirstStep answers id operand := by
  rw [FirstStep, leftEdges, found]
  cases clause with
  | leaf atom => cases start
  | reference name expected target => cases isOperator
  | leftRecursion inner => exact Or.inr (by rw [List.mem_singleton.mp start])
  | _ => exact Or.inl start

/-- What is visited can be reached from where the task goes on.  The induction is on
the search; of the items of a sequence those in front have been answered with yes. -/
theorem Collects.reaches (resolved : grammar.OperandsResolved)
    (collects : grammar.Collects task before after) (rests : grammar.Rests before.known)
    (asked : grammar.Asked after.known answers)
    (operators : forall id, id ∈ task.nodes -> grammar.HasOperator id) {node : NodeId}
    (visited : node ∈ after.visited) (fresh : node ∉ before.visited) :
    exists start, start ∈ grammar.starts answers task ∧
      Relation.ReflTransGen (grammar.FirstStep answers) start node := by
  induction collects with
  | again _ => exact absurd visited fresh
  | @leaf id atom state _ _ =>
      rcases List.mem_cons.mp visited with rfl | older
      · exact ⟨node, List.mem_cons_self, .refl⟩
      · exact absurd older fresh
  | @enter id clause state after _ found _ _ inductionHypothesis =>
      rcases operators id List.mem_cons_self with ⟨clause', found', isOperator⟩
      rw [found] at found'
      cases found'
      by_cases own : node = id
      · exact ⟨id, List.mem_cons_self, own ▸ .refl⟩
      · have inside : forall child, child ∈ clause.searchTask.nodes -> grammar.HasOperator child :=
          fun child member =>
            resolved ⟨clause, found, Clause.searchTask_children isOperator member⟩
        have freshInside : node ∉ id :: state.visited := List.not_mem_cons_of_ne_of_not_mem own fresh
        rcases inductionHypothesis rests asked inside visited freshInside with ⟨start, isStart, path⟩
        exact ⟨id, List.mem_cons_self, .head (firstStep_of_start found isOperator isStart) path⟩
  | noItem => exact absurd visited fresh
  | @passed id rest known state middle after first yes rest' early late =>
      rcases List.forall_mem_cons.mp operators with ⟨isFirst, areRest⟩
      have restsMiddle := first.asked.rests rests
      have asksNext := Asked.of_answer yes
      have askedNext : grammar.Asked known answers := rest'.asked.trans asked
      by_cases isEarly : node ∈ middle.visited
      · rcases early rests (asksNext.trans askedNext) (List.forall_mem_singleton.mpr isFirst)
            isEarly fresh with ⟨start, isStart, path⟩
        rw [List.mem_singleton.mp isStart] at path
        exact ⟨id, mem_leadingItems_self id rest answers, path⟩
      · rcases late (asksNext.rests restsMiddle) asked areRest visited isEarly with
          ⟨start, isStart, path⟩
        refine ⟨start, ?_, path⟩
        -- The answer to the first item stays yes, so the next items lead on as well.
        rw [starts, leadingItems, restsMiddle.repeats yes askedNext]
        exact List.mem_cons_of_mem id isStart
  | @stopped id rest known state middle _ no early =>
      rcases List.forall_mem_cons.mp operators with ⟨isFirst, _⟩
      rcases early rests ((Asked.of_answer no).trans asked) (List.forall_mem_singleton.mpr isFirst)
          visited fresh with ⟨start, isStart, path⟩
      rw [List.mem_singleton.mp isStart] at path
      exact ⟨id, mem_leadingItems_self id rest answers, path⟩
  | noOperand => exact absurd visited fresh
  | @operand id rest state middle after first rest' early late =>
      rcases List.forall_mem_cons.mp operators with ⟨isFirst, areRest⟩
      by_cases isEarly : node ∈ middle.visited
      · rcases early rests (rest'.asked.trans asked) (List.forall_mem_singleton.mpr isFirst)
            isEarly fresh with ⟨start, isStart, path⟩
        rw [List.mem_singleton.mp isStart] at path
        exact ⟨id, List.mem_cons_self, path⟩
      · rcases late (first.asked.rests rests) asked areRest visited isEarly with
          ⟨start, isStart, path⟩
        exact ⟨start, List.mem_cons_of_mem id isStart, path⟩

/-! ## Everything that can be reached is found -/

/-- The search goes on along each left edge, whatever is asked afterwards. -/
theorem FirstStep.edge {operand : NodeId} (step : grammar.FirstStep answers id operand)
    (rests : grammar.Rests answers) (longer : known.Extends answers) :
    grammar.FirstEdge known id operand := by
  rcases step with isLeft | isLoop
  · have edge := leftEdges_answered rests .refl isLeft
    have asked := (grammar.leftEdges_asked id answers).extends
    rcases edge.followed (longer.trans asked) with ⟨clause, found, followed⟩
    exact ⟨clause, found, followed.leads⟩
  · refine ⟨_, isLoop, List.mem_cons_self, ?_⟩
    rintro items gather ⟨⟩

/-- The first set of an operator is exact, if the operands of all operators are
operators. -/
theorem firstSet_exact (resolved : grammar.OperandsResolved) (inRange : grammar.LeadsInRange)
    (rests : grammar.Rests known) (isOperator : grammar.HasOperator id) :
    grammar.FirstSetExact id known := by
  rcases isOperator with ⟨clause, found, noReference⟩
  have isNode : id < grammar.nodeCount := (List.getElem?_eq_some_iff.mp found).1
  rcases firstSet_collects inRange isNode known with ⟨after, collects, isFirstSet⟩
  have empty : grammar.Tidy ⟨[], [], known⟩ := ⟨List.nodup_nil, List.Subset.refl _, nofun⟩
  have tidy := collects.tidy empty
  refine ⟨⟨after, collects, isFirstSet⟩, ?_, ?_, ?_⟩
  · rw [isFirstSet]
    exact List.pairwise_reverse.mpr (tidy.nodup.imp Ne.symm)
  · intro answers asked leaf
    constructor
    · intro member
      rw [isFirstSet] at asked member
      have noted := List.mem_reverse.mp member
      refine ⟨tidy.areLeaves leaf noted, ?_⟩
      have own : grammar.HasOperator id := ⟨clause, found, noReference⟩
      rcases collects.reaches resolved rests asked (List.forall_mem_singleton.mpr own)
          (tidy.visited noted) List.not_mem_nil with ⟨start, isStart, path⟩
      rwa [List.mem_singleton.mp isStart] at path
    · rintro ⟨⟨atom, isLeaf⟩, path⟩
      rcases grammar.firstSet_explores inRange isNode known with ⟨region, begins, closed, holds⟩
      have restsAnswers : grammar.Rests answers := by
        have askedFirst := collects.asked
        rw [isFirstSet] at asked
        exact Asked.rests (askedFirst.trans asked) rests
      have inRegion : leaf ∈ region := by
        clear isLeaf
        induction path with
        | refl => exact begins
        | tail _ step inductionHypothesis =>
            exact closed _ _ inductionHypothesis (step.edge restsAnswers asked.extends)
      exact holds leaf atom inRegion isLeaf
  · intro answers asked
    rw [isFirstSet] at asked ⊢
    rcases firstSet_collects inRange isNode answers with ⟨after', collects', isFirstSet'⟩
    cases (collects.repeated rests asked).unique collects'
    exact isFirstSet'

/-- Redirecting leaves no operand that is a reference. -/
theorem redirect_operandsResolved {rules : List (Rule L)}
    {nodes bound : List (Clause L PatternProgram NodeId)} {ends : List NodeId}
    (areBound : List.Forall₂ (fun clause clause' => bind rules clause = .ok clause') nodes bound)
    (fits : forall (id : NodeId) clause, nodes[id]? = some clause -> clause.FitsAt id)
    (areTargets : targets bound = .ok ends)
    (rootsInRange : forall rule, rule ∈ rules -> rule.root < bound.length) :
    (redirect ends ⟨bound, rules⟩).OperandsResolved := by
  intro id child edge
  rcases redirect_edge areBound fits edge with ⟨lowered, below, inRange, rfl⟩
  have loweredInRange := Nat.lt_trans below inRange
  rcases targets_ok areTargets loweredInRange with ⟨length, last, _, isTarget, chain⟩
  have lastInRange := (chain.end_root areBound rootsInRange loweredInRange).1
  have isLast : GrammarBuilder.Assembly.target ends lowered = last := by
    rw [GrammarBuilder.Assembly.target, isTarget, Option.getD_some]
  rw [isLast]
  have found : bound[last]? = some bound[last] := List.getElem?_eq_getElem lastInRange
  refine ⟨bound[last].redirect (GrammarBuilder.Assembly.target ends), ?_, ?_⟩
  · exact List.getElem?_map.trans (congrArg _ found)
  · cases isClause : bound[last] with
    | reference name expected target =>
        rw [isClause] at found
        exact absurd found (chain.ends name expected target)
    | _ => rfl

end Grammar

namespace GrammarBuilder

theorem ResolvesTo.operandsResolved {builder : GrammarBuilder L} {cache : PatternCache}
    {grammar : Grammar L} (resolves : builder.ResolvesTo cache grammar) :
    grammar.OperandsResolved := by
  rcases resolves with ⟨rules, state, bound, ends, yields, isBound, areTargets, rfl⟩
  rcases numbered_of_yields yields with ⟨numbered, rootsBelow⟩
  have areBound := Grammar.bindAll_ok isBound
  apply Grammar.redirect_operandsResolved areBound numbered.nodes areTargets
  intro rule member
  rw [<- areBound.length_eq]
  exact rootsBelow rule member

/-- The first set of an operator of a resolved grammar is exact, whatever has been asked
about the grammar before. -/
theorem resolved_firstSet_exact {builder : GrammarBuilder L} {cache : PatternCache}
    {grammar : Grammar L} (resolves : builder.ResolvesTo cache grammar) {known : Nullability}
    (asked : grammar.Asked (Nullability.unknown grammar.nodeCount) known) {id : NodeId}
    {clause : Clause L PatternProgram NodeId} (found : grammar.nodes[id]? = some clause)
    (isOperator : clause.isReference = false) : grammar.FirstSetExact id known :=
  Grammar.firstSet_exact resolves.operandsResolved resolves.leadsInRange
    (asked.rests grammar.rests_unknown) ⟨clause, found, isOperator⟩

/-- A sum can start with a digit only, although its root leads back to itself. -/
theorem sums_firstSet_exact : exists known,
    sums.build PatternCache.empty = (.ok ⟨sumGrammar, known⟩, PatternCache.empty) ∧
      sumGrammar.FirstSetExact 7 known ∧ (sumGrammar.firstSet 7 known).1 = [2] := by
  rcases sums_accepted with ⟨known, accepted⟩
  have exactly : sumGrammar.FirstSetExact 7 known :=
    resolved_firstSet_exact (build_resolvesTo accepted) (build_denies accepted).1 rfl rfl
  refine ⟨known, accepted, exactly, ?_⟩
  cases accepted
  rfl

end GrammarBuilder
end SeedGrammar
