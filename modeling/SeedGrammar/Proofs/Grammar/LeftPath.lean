import SeedGrammar.Proofs.Engine.Progress
import SeedGrammar.Proofs.Grammar.QueryHistory
import SeedGrammar.Proofs.Grammar.Reach

namespace SeedGrammar

/-!
# The search for left recursion misses nothing

From a node the search follows the operands that run first, and passes over the
items of a sequence that are not answered with no.  A search that comes back
without a path has left behind visited nodes that are closed under such edges and
do not include the target.  So a rule to which they lead back is reported,
`Grammar.analyze_reports`, whatever is known about nullability.

A left edge leads from a node to an operand that can run where the node itself
starts.  The edges that the search follows include all of these as long as no node
looks ahead, for too many nodes may be taken to be nullable, never too few.  The
search does not follow the condition of a lookahead, which can run where the node
starts as well.  Apart from that, if no rule is reported, no rule that can be
reached leads back to itself, `Grammar.analyze_clean`.
-/

variable {L : Signature}

/-- Whether the search follows an operand of a clause, given which items of a
sequence it passes over: the operand runs first, and is not just a condition on
what follows. -/
structure Clause.Followed {ρ α : Type} (passed : α -> Prop) (operand : α)
    (clause : Clause L ρ α) : Prop where
  isLeft : clause.LeftOperand passed operand
  noLook : forall inner look negative, clause = .lookahead inner look negative -> operand = inner

theorem Clause.Followed.imp {ρ α : Type} {passed other : α -> Prop} {operand : α}
    {clause : Clause L ρ α} (followed : clause.Followed passed operand)
    (weaker : forall item, passed item -> other item) : clause.Followed other operand :=
  ⟨followed.isLeft.imp weaker, followed.noLook⟩

namespace Grammar

/-- Whether an operand of a node can run where the node starts. -/
def LeftEdge (grammar : Grammar L) (id operand : NodeId) : Prop :=
  exists clause, grammar.nodes[id]? = some clause ∧
    clause.LeftOperand grammar.Nullable operand

/-- Whether the search follows an operand of a node if nothing else is answered with
no than what is known. -/
def FollowedEdge (grammar : Grammar L) (known : Nullability) (id operand : NodeId) : Prop :=
  exists clause, grammar.nodes[id]? = some clause ∧
    clause.Followed (fun item => ¬Denied known item) operand

/-- Whether no node looks ahead. -/
def NoLookahead (grammar : Grammar L) : Prop :=
  forall (id inner look : NodeId) negative,
    grammar.nodes[id]? ≠ some (.lookahead inner look negative)

/-- Whether all operands are nodes. -/
def InRange (grammar : Grammar L) : Prop :=
  forall {id operand}, grammar.Edge Clause.children id operand -> operand < grammar.nodeCount

variable {grammar : Grammar L}

/-! ## Edges -/

/-- What is answered with no later can only make the search follow less. -/
theorem FollowedEdge.earlier {known later : Nullability} {id operand : NodeId}
    (edge : grammar.FollowedEdge later id operand) (longer : known.Extends later) :
    grammar.FollowedEdge known id operand := by
  rcases edge with ⟨clause, found, followed⟩
  exact ⟨clause, found, followed.imp fun item spared denied => spared (denied.extends longer)⟩

/-- A left edge is followed if right answers are kept and nothing looks ahead. -/
theorem LeftEdge.followed (plain : grammar.NoLookahead) {known : Nullability}
    (knows : grammar.Knows known) {id operand : NodeId} (edge : grammar.LeftEdge id operand) :
    grammar.FollowedEdge known id operand := by
  have spared : forall item, grammar.Nullable item -> ¬Denied known item := by
    intro item nullable denied
    exact (grammar.isNullable_refutes item known knows).2
      (grammar.isNullableWithin_of_denied _ denied) nullable
  rcases edge with ⟨clause, found, isLeft⟩
  refine ⟨clause, found, isLeft.imp spared, ?_⟩
  rintro inner look negative rfl
  exact absurd found (plain id inner look negative)

/-- An item is among the leading ones if no item before it is answered with no. -/
theorem leadingItems_follows (items : List NodeId) (known : Nullability) :
    (forall before item after, items = before ++ item :: after ->
      (forall other, other ∈ before -> ¬Denied (grammar.leadingItems items known).2 other) ->
        item ∈ (grammar.leadingItems items known).1) ∧
    (grammar.leadingItems items known).1 ⊆ items := by
  induction items generalizing known with
  | nil =>
      refine ⟨?_, List.Subset.refl _⟩
      intro before item after split
      exact absurd split.symm (List.append_ne_nil_of_right_ne_nil _ (List.cons_ne_nil _ _))
  | cons id rest inductionHypothesis =>
      rw [leadingItems]
      have denies := @isNullableWithin_denies _ known id grammar grammar.nodeCount
      rw [<- isNullable] at denies
      cases answer : grammar.isNullable id known with
      | mk isNullable next =>
          rw [answer] at denies
          cases isNullable with
          | true =>
              have later := inductionHypothesis next
              refine ⟨?_, List.cons_subset_cons id later.2⟩
              intro before item after split spared
              cases before with
              | nil =>
                  cases split
                  exact List.mem_cons_self
              | cons first before =>
                  cases split
                  apply List.mem_cons_of_mem
                  apply later.1 before item after rfl
                  intro other member
                  exact spared other (List.mem_cons_of_mem _ member)
          | false =>
              constructor
              · intro before item after split spared
                cases before with
                | nil =>
                    cases split
                    exact List.mem_cons_self
                | cons first before =>
                    cases split
                    exact absurd (denies rfl) (spared id List.mem_cons_self)
              · intro item member
                rw [List.mem_singleton.mp member]
                exact List.mem_cons_self

/-- The ends of edges are those that the search follows, and are operands. -/
theorem leftEdges_follows (id : NodeId) (known : Nullability) :
    (forall operand, grammar.FollowedEdge (grammar.leftEdges id known).2 id operand ->
      operand ∈ (grammar.leftEdges id known).1) ∧
    forall operand, operand ∈ (grammar.leftEdges id known).1 ->
      grammar.Edge Clause.children id operand := by
  rw [leftEdges]
  cases found : grammar.nodes[id]? with
  | none =>
      refine ⟨?_, fun operand member => by cases member⟩
      rintro operand ⟨clause, found', _⟩
      rw [found] at found'
      cases found'
  | some clause =>
      have followed : forall {later operand}, grammar.FollowedEdge later id operand ->
          clause.Followed (fun item => ¬Denied later item) operand := by
        rintro later operand ⟨clause', found', isFollowed⟩
        rw [found] at found'
        cases found'
        exact isFollowed
      have child : forall operand, operand ∈ clause.children ->
          grammar.Edge Clause.children id operand :=
        fun operand member => ⟨clause, found, member⟩
      cases clause with
      | leaf atom => exact ⟨fun operand edge => (followed edge).isLeft.elim, child⟩
      | map inner transform =>
          exact ⟨fun operand edge => List.mem_singleton.mpr (followed edge).isLeft, child⟩
      | update inner next =>
          exact ⟨fun operand edge => List.mem_singleton.mpr (followed edge).isLeft, child⟩
      | sequence items gather =>
          have leading := grammar.leadingItems_follows items known
          refine ⟨?_, fun operand member => child operand (leading.2 member)⟩
          intro operand edge
          rcases (followed edge).isLeft with ⟨before, after, split, spared⟩
          exact leading.1 before operand after split spared
      | choice alts => exact ⟨fun operand edge => (followed edge).isLeft, child⟩
      | optional inner element =>
          exact ⟨fun operand edge => List.mem_singleton.mpr (followed edge).isLeft, child⟩
      | attempt inner =>
          exact ⟨fun operand edge => List.mem_singleton.mpr (followed edge).isLeft, child⟩
      | lookahead inner look negative =>
          refine ⟨fun operand edge =>
            List.mem_singleton.mpr ((followed edge).noLook inner look negative rfl), ?_⟩
          intro operand member
          rw [List.mem_singleton.mp member]
          exact child inner List.mem_cons_self
      | repeated inner element min max =>
          exact ⟨fun operand edge => List.mem_singleton.mpr (followed edge).isLeft, child⟩
      | reference name expected target =>
          exact ⟨fun operand edge => (followed edge).isLeft.elim, fun operand member => by cases member⟩
      | leftRecursion inner =>
          exact ⟨fun operand edge => (followed edge).isLeft.elim, fun operand member => by cases member⟩

/-! ## The search -/

/-- What a search for a target that has found no path leaves behind, given the
nodes that it starts from.  The edges that it has followed are those that are
followed with what is known in the end. -/
structure Misses (grammar : Grammar L) (target : NodeId) (starts : NodeId -> Prop)
    (before after : PathSearch) : Prop where
  longer : before.known.Extends after.known
  explores : grammar.Explores (grammar.FollowedEdge after.known) starts before.visited
    after.visited
  avoids : target ∉ before.visited -> target ∉ after.visited

namespace Misses

variable {target first : NodeId} {starts starts' : NodeId -> Prop}
  {before middle after : PathSearch}

/-- A search from the edges of a new node, and one from some other nodes. -/
theorem andThen
    (early : grammar.Misses target (grammar.FollowedEdge middle.known first)
      ⟨first :: before.visited, before.known⟩ middle)
    (late : grammar.Misses target starts middle after) (isOther : first ≠ target) :
    grammar.Misses target (fun id => id = first ∨ starts id) before after where
  longer := early.longer.trans late.longer
  explores := by
    have stillEdge : forall id operand, grammar.FollowedEdge after.known id operand ->
        grammar.FollowedEdge middle.known id operand :=
      fun _ _ edge => edge.earlier late.longer
    exact (early.explores.mono stillEdge (stillEdge first)).enter.andThen late.explores
  avoids absent := by
    apply late.avoids
    apply early.avoids
    intro inside
    rcases List.mem_cons.mp inside with own | older
    · exact isOther own.symm
    · exact absent older

theorem of_starts (misses : grammar.Misses target starts before after)
    (same : forall id, starts' id -> starts id) : grammar.Misses target starts' before after :=
  ⟨misses.longer, misses.explores.mono (fun _ _ edge => edge) same, misses.avoids⟩

end Misses

/-- Trying edges one after the other, each of which misses the target. -/
theorem tryEdges_misses {target : NodeId} {fuel : Nat}
    {search : NodeId -> PathSearch -> Option (List NodeId) × PathSearch}
    (one : forall id (state after : PathSearch), grammar.Visited state.visited ->
      grammar.nodeCount < state.visited.length + fuel -> search id state = (none, after) ->
      grammar.Misses target (grammar.FollowedEdge after.known id) state after)
    {ids : List NodeId} (inRange : forall id, id ∈ ids -> id < grammar.nodeCount)
    (state : PathSearch) {after : PathSearch} (isVisited : grammar.Visited state.visited)
    (enough : grammar.nodeCount ≤ state.visited.length + fuel)
    (noPath : tryEdges target search ids state = (none, after)) :
    grammar.Misses target (fun id => id ∈ ids) state after := by
  induction ids generalizing state with
  | nil =>
      cases noPath
      refine ⟨.refl _, .none isVisited ?_, id⟩
      intro id member
      cases member
  | cons first rest inductionHypothesis =>
      have restInRange : forall id, id ∈ rest -> id < grammar.nodeCount :=
        fun id member => inRange id (List.mem_cons_of_mem first member)
      have starts : forall id, id ∈ first :: rest -> id = first ∨ id ∈ rest :=
        fun id member => List.mem_cons.mp member
      rw [tryEdges] at noPath
      by_cases isTarget : first = target
      · rw [if_pos isTarget] at noPath
        cases noPath
      · rw [if_neg isTarget] at noPath
        by_cases again : first ∈ state.visited
        · rw [if_pos again] at noPath
          have later := inductionHypothesis restInRange state isVisited enough noPath
          have known : grammar.Explores (grammar.FollowedEdge after.known) (· = first)
              state.visited state.visited := .none isVisited fun id own => own ▸ again
          exact ⟨later.longer, (known.andThen later.explores).mono (fun _ _ edge => edge) starts,
            later.avoids⟩
        · rw [if_neg again] at noPath
          have fresh := isVisited.cons again (inRange first List.mem_cons_self)
          have left : grammar.nodeCount < (first :: state.visited).length + fuel := by
            rw [List.length_cons]
            omega
          cases found : search first ⟨first :: state.visited, state.known⟩ with
          | mk path middle =>
              rw [found] at noPath
              cases path with
              | some path => cases noPath
              | none =>
                  have early := one first ⟨first :: state.visited, state.known⟩ middle fresh left
                    found
                  have grows :=
                    (List.subperm_of_subset fresh.nodup early.explores.keeps).length_le
                  rw [List.length_cons] at grows
                  have late := inductionHypothesis restInRange middle early.explores.visited
                    (by omega) noPath
                  exact (early.andThen late isTarget).of_starts starts

theorem searchPath_misses (inRange : grammar.InRange) {target : NodeId} {fuel : Nat} (id : NodeId)
    (state after : PathSearch) (isVisited : grammar.Visited state.visited)
    (enough : grammar.nodeCount < state.visited.length + fuel)
    (noPath : grammar.searchPath target fuel id state = (none, after)) :
    grammar.Misses target (grammar.FollowedEdge after.known id) state after := by
  induction fuel generalizing id state after with
  | zero =>
      have short := length_le_of_nodup isVisited.nodup isVisited.inRange
      exact absurd enough (Nat.not_lt_of_le short)
  | succ fuel inductionHypothesis =>
      rw [searchPath] at noPath
      have edges := grammar.leftEdges_follows id state.known
      have longer := (grammar.leftEdges_asked id state.known).extends
      cases isEdges : grammar.leftEdges id state.known with
      | mk ends known =>
          rw [isEdges] at noPath edges longer
          dsimp only at noPath edges longer
          split at noPath
          · cases noPath
          · rename_i state' noPath'
            cases noPath
            have tried := tryEdges_misses inductionHypothesis
              (fun operand member => inRange (edges.2 operand member)) ⟨state.visited, known⟩
              isVisited (Nat.le_of_lt_succ enough) noPath'
            refine ⟨longer.trans tried.longer, ?_, tried.avoids⟩
            exact tried.explores.mono (fun _ _ edge => edge)
              fun operand edge => edges.1 operand (edge.earlier tried.longer)

/-- If the search finds no path from a node back to itself, there is none. -/
theorem leftCycle_none (inRange : grammar.InRange) {id : NodeId} {known later : Nullability}
    (none : grammar.leftCycle id known = (none, later)) :
    ¬Relation.TransGen (grammar.FollowedEdge later) id id := by
  rw [leftCycle] at none
  cases search : grammar.searchPath id (grammar.nodeCount + 1) id ⟨[], known⟩ with
  | mk path after =>
      rw [search] at none
      cases none
      have misses := searchPath_misses inRange id ⟨[], known⟩ after (.none grammar)
        (by
          rw [List.length_nil]
          omega)
        search
      intro cycle
      rcases Relation.TransGen.head'_iff.mp cycle with ⟨operand, edge, path⟩
      exact misses.avoids List.not_mem_nil (misses.explores.mem_of_path edge path)

/-! ## The warnings -/

/-- A rule that leads back to itself is reported. -/
theorem leftRecursionWarnings_reports (inRange : grammar.InRange) {rules : List (Rule L)}
    {rule : Rule L} (member : rule ∈ rules) {known : Nullability}
    (cycle : Relation.TransGen
      (grammar.FollowedEdge (grammar.leftRecursionWarnings rules known).2) rule.root rule.root) :
    exists warning, warning ∈ (grammar.leftRecursionWarnings rules known).1 ∧
      warning.kind = .unguardedLeftRecursion ∧ warning.node = rule.root := by
  induction rules generalizing known with
  | nil => cases member
  | cons first rest inductionHypothesis =>
      rw [leftRecursionWarnings] at cycle ⊢
      cases found : grammar.leftCycle first.root known with
      | mk path next =>
          rw [found] at cycle
          have longer := (grammar.leftRecursionWarnings_asked rest next).extends
          cases path with
          | some path =>
              rcases List.mem_cons.mp member with own | inRest
              · rw [own]
                exact ⟨_, List.mem_cons_self, rfl, rfl⟩
              · rcases inductionHypothesis inRest cycle with ⟨warning, isWarning, reports⟩
                exact ⟨warning, List.mem_cons_of_mem _ isWarning, reports⟩
          | none =>
              rcases List.mem_cons.mp member with own | inRest
              · rw [own] at cycle
                have earlier : Relation.TransGen (grammar.FollowedEdge next) first.root first.root :=
                  Relation.TransGen.mono (fun _ _ edge => edge.earlier longer) _ _ cycle
                exact absurd earlier (leftCycle_none inRange found)
              · exact inductionHypothesis inRest cycle

/-- Of the rules with one root, if it can be reached, one is checked. -/
theorem exists_reachedRule {reached seen : List NodeId} {rules : List (Rule L)} {rule : Rule L}
    (member : rule ∈ rules) (isReached : rule.root ∈ reached) (fresh : rule.root ∉ seen) :
    exists checked, checked ∈ reachedRules reached seen rules ∧ checked.root = rule.root := by
  induction rules generalizing seen with
  | nil => cases member
  | cons first rest inductionHypothesis =>
      rw [reachedRules]
      by_cases same : first.root = rule.root
      · rw [if_pos ⟨same ▸ isReached, same ▸ fresh⟩]
        exact ⟨first, List.mem_cons_self, same⟩
      · have inRest : rule ∈ rest := by
          rcases List.mem_cons.mp member with own | later
          · exact absurd (congrArg Rule.root own).symm same
          · exact later
        by_cases taken : first.root ∈ reached ∧ first.root ∉ seen
        · rw [if_pos taken]
          have stillFresh : rule.root ∉ first.root :: seen := by
            intro inside
            rcases List.mem_cons.mp inside with own | older
            · exact same own.symm
            · exact fresh older
          rcases inductionHypothesis inRest stillFresh with ⟨checked, isChecked, sameRoot⟩
          exact ⟨checked, List.mem_cons_of_mem first isChecked, sameRoot⟩
        · rw [if_neg taken]
          exact inductionHypothesis inRest fresh

/-- If a rule that can be reached from a node leads back to itself, it is reported
when the grammar is seen from that node. -/
theorem analyze_reports (inRange : grammar.InRange) {root : NodeId}
    (isNode : root < grammar.nodeCount) {known : Nullability} {rule : Rule L}
    (member : rule ∈ grammar.rules) (path : grammar.Path Clause.children root rule.root)
    (ruleNode : rule.root < grammar.nodeCount)
    (cycle : Relation.TransGen (grammar.FollowedEdge (grammar.analyze root known).2) rule.root
      rule.root) :
    exists warning, warning ∈ (grammar.analyze root known).1 ∧
      warning.kind = .unguardedLeftRecursion ∧ warning.node = rule.root := by
  have isReached : rule.root ∈ grammar.reachable root := (mem_visit_iff isNode).mpr ⟨path, ruleNode⟩
  rcases exists_reachedRule member isReached List.not_mem_nil with ⟨checked, isChecked, sameRoot⟩
  rw [<- sameRoot] at cycle ⊢
  rcases leftRecursionWarnings_reports inRange isChecked cycle with ⟨warning, isWarning, reports⟩
  exact ⟨warning, List.mem_append_left _ (List.mem_append_left _ isWarning), reports⟩

/-- If a grammar seen from a node has no rule that is reported for left
recursion, no rule that the node leads to leads back to itself. -/
theorem analyze_clean (plain : grammar.NoLookahead) (inRange : grammar.InRange)
    {root : NodeId} (isNode : root < grammar.nodeCount) {known : Nullability}
    (knows : grammar.Knows known)
    (clean : forall warning, warning ∈ (grammar.analyze root known).1 ->
      warning.kind ≠ .unguardedLeftRecursion)
    {rule : Rule L} (member : rule ∈ grammar.rules)
    (path : grammar.Path Clause.children root rule.root)
    (ruleNode : rule.root < grammar.nodeCount) :
    ¬Relation.TransGen grammar.LeftEdge rule.root rule.root := by
  intro cycle
  have asked : grammar.Asked known (grammar.analyze root known).2 :=
    grammar.leftRecursionWarnings_asked _ known
  have followed := Relation.TransGen.mono
    (fun _ _ edge => LeftEdge.followed plain (asked.knows knows) edge) _ _ cycle
  rcases analyze_reports inRange isNode member path ruleNode followed with
    ⟨warning, isWarning, isReport, _⟩
  exact clean warning isWarning isReport

end Grammar
end SeedGrammar
