import Mathlib.Data.List.Chain
import SeedGrammar.Proofs.Grammar.DeadAlternatives
import SeedGrammar.Proofs.Grammar.LeftPath
import SeedGrammar.Proofs.Grammar.Numbering
import SeedGrammar.Proofs.Grammar.Settled

namespace SeedGrammar

/-!
# What the lints report

The lints answer two questions about the graph of a grammar.  A rule is reported for
left recursion if its root can be reached and left edges lead from it back to itself,
and a rule is reported as unused if its root cannot be reached.  The reports are
exact: there is one for each root of the former kind, under its first name, with a
path as evidence, and one for each rule of the latter kind,
`GrammarBuilder.build_reports_exactly`.

Which edges there are depends on what is answered about nullability.  The search asks
as it goes along, but an answer once given stays, so the edges that it has followed
are those that the answers given afterwards describe as well.

A path that is reported comes from a search that never enters a node twice.  What it
adds in front of a path that it has found is therefore not on the path yet.  That no
path is missed is a matter of the nodes that a search without success leaves behind.
-/

variable {L : Signature}

namespace Grammar

/-- Whether the search for left recursion goes on from a node to an operand, by the
answers that are given about nullability.  From a left recursion it does not go on. -/
def AnsweredEdge (grammar : Grammar L) (answers : Nullability) (id operand : NodeId) : Prop :=
  exists clause, grammar.nodes[id]? = some clause ∧
    clause.Followed (fun item => (grammar.isNullable item answers).1 = true) operand

/-- Whether a path takes one left edge per step, and comes to a target at its end and
not before, through nodes that are new and different. -/
structure Arrives (grammar : Grammar L) (answers : Nullability) (target : NodeId)
    (visited path : List NodeId) : Prop where
  steps : path.IsChain (grammar.AnsweredEdge answers)
  route : exists middle, path = middle ++ [target] ∧ (target :: middle).Nodup ∧
    forall id, id ∈ middle -> id ∉ visited

/-- Whether a path leads from a node back to it, takes one left edge per step, and
passes no other node twice and no left recursion at all. -/
structure LeftLoop (grammar : Grammar L) (answers : Nullability) (root : NodeId)
    (path : List NodeId) : Prop where
  steps : path.IsChain (grammar.AnsweredEdge answers)
  closed : exists middle, path = root :: (middle ++ [root]) ∧ (root :: middle).Nodup
  unguarded : forall id, id ∈ path -> forall inner,
    grammar.nodes[id]? ≠ some (.leftRecursion inner)

variable {grammar : Grammar L} {known later answers : Nullability}

/-! ## Edges that have been answered -/

/-- The search follows an edge as long as its items have not been answered with no. -/
theorem AnsweredEdge.followed {id operand : NodeId}
    (edge : grammar.AnsweredEdge answers id operand) (longer : known.Extends answers) :
    grammar.FollowedEdge known id operand := by
  rcases edge with ⟨clause, found, followed⟩
  refine FollowedEdge.earlier ⟨clause, found, followed.imp ?_⟩ longer
  intro item yes denied
  rw [isNullable, grammar.isNullableWithin_of_denied _ denied] at yes
  cases yes

/-- The items in front of a leading one are answered with yes from then on. -/
theorem leadingItems_answered {items : List NodeId} (rests : grammar.Rests known)
    (asked : grammar.Asked (grammar.leadingItems items known).2 answers) {item : NodeId}
    (member : item ∈ (grammar.leadingItems items known).1) :
    exists before after, items = before ++ item :: after ∧
      forall other, other ∈ before -> (grammar.isNullable other answers).1 = true := by
  induction items generalizing known with
  | nil => cases member
  | cons id rest inductionHypothesis =>
      rw [leadingItems] at asked member
      cases answer : grammar.isNullable id known with
      | mk isNullable next =>
          rw [answer] at asked member
          cases isNullable with
          | false =>
              rw [List.mem_singleton.mp member]
              exact ⟨[], rest, rfl, fun other inside => absurd inside List.not_mem_nil⟩
          | true =>
              rcases List.mem_cons.mp member with own | inRest
              · rw [own]
                exact ⟨[], rest, rfl, fun other inside => absurd inside List.not_mem_nil⟩
              · have askedFirst : grammar.Asked (grammar.isNullable id known).2 answers := by
                  rw [answer]
                  exact (grammar.leadingItems_asked rest next).trans asked
                have yes := rests.again askedFirst
                rw [answer] at yes
                have restsNext := rests.ask id
                rw [answer] at restsNext
                rcases inductionHypothesis restsNext asked inRest with ⟨before, after, split, passed⟩
                refine ⟨id :: before, after, congrArg (id :: ·) split, ?_⟩
                intro other inside
                rcases List.mem_cons.mp inside with isFirst | later
                · rw [isFirst]
                  exact yes
                · exact passed other later

/-- The edges that are followed are those that the answers afterwards describe. -/
theorem leftEdges_answered {id operand : NodeId} (rests : grammar.Rests known)
    (asked : grammar.Asked (grammar.leftEdges id known).2 answers)
    (member : operand ∈ (grammar.leftEdges id known).1) :
    grammar.AnsweredEdge answers id operand := by
  rw [leftEdges] at asked member
  cases found : grammar.nodes[id]? with
  | none =>
      rw [found] at member
      cases member
  | some clause =>
      rw [found] at asked member
      refine ⟨clause, found, ?_⟩
      cases clause with
      | sequence items gather =>
          refine ⟨leadingItems_answered rests asked member, ?_⟩
          rintro inner look negative ⟨⟩
      | choice alts =>
          refine ⟨member, ?_⟩
          rintro inner look negative ⟨⟩
      | lookahead inner look negative =>
          have isInner := List.mem_singleton.mp member
          refine ⟨Or.inl isInner, ?_⟩
          rintro inner' look' negative' ⟨⟩
          exact isInner
      | leaf atom => cases member
      | reference name expected target => cases member
      | leftRecursion inner => cases member
      | _ =>
          refine ⟨List.mem_singleton.mp member, ?_⟩
          rintro inner' look' negative' ⟨⟩

/-- The edges that are followed are exactly those. -/
theorem mem_leftEdges_iff {id operand : NodeId} (rests : grammar.Rests known)
    (asked : grammar.Asked (grammar.leftEdges id known).2 answers) :
    operand ∈ (grammar.leftEdges id known).1 ↔ grammar.AnsweredEdge answers id operand :=
  ⟨leftEdges_answered rests asked, fun edge =>
    (grammar.leftEdges_follows id known).1 operand (edge.followed asked.extends)⟩

theorem AnsweredEdge.not_leftRecursion {id operand : NodeId}
    (edge : grammar.AnsweredEdge answers id operand) (inner : NodeId) :
    grammar.nodes[id]? ≠ some (.leftRecursion inner) := by
  rintro isLoop
  rcases edge with ⟨clause, found, followed⟩
  rw [isLoop] at found
  cases found
  exact followed.isLeft

/-! ## Paths that are found -/

section Search

variable {target : NodeId} {path : List NodeId}

theorem Arrives.of_visited {visited fewer : List NodeId}
    (arrives : grammar.Arrives answers target visited path) (subset : fewer ⊆ visited) :
    grammar.Arrives answers target fewer path where
  steps := arrives.steps
  route := by
    rcases arrives.route with ⟨middle, split, different, fresh⟩
    exact ⟨middle, split, different, fun id member old => fresh id member (subset old)⟩

/-- A new node in front of a path that does not pass through it. -/
theorem Arrives.cons {visited : List NodeId} {id : NodeId}
    (arrives : grammar.Arrives answers target (id :: visited) path)
    (steps : (id :: path).IsChain (grammar.AnsweredEdge answers)) (isOther : id ≠ target)
    (fresh : id ∉ visited) : grammar.Arrives answers target visited (id :: path) where
  steps := steps
  route := by
    rcases arrives.route with ⟨middle, rfl, different, areFresh⟩
    rcases List.nodup_cons.mp different with ⟨noTarget, nodup⟩
    refine ⟨id :: middle, rfl, ?_, ?_⟩
    · have noId : id ∉ middle := fun member => areFresh id member List.mem_cons_self
      apply List.nodup_cons.mpr
      refine ⟨?_, List.nodup_cons.mpr ⟨noId, nodup⟩⟩
      intro member
      rcases List.mem_cons.mp member with own | inside
      · exact isOther own.symm
      · exact noTarget inside
    · intro other member old
      rcases List.mem_cons.mp member with own | inside
      · rw [own] at old
        exact fresh old
      · exact areFresh other inside (List.mem_cons_of_mem id old)

theorem tryEdges_keeps (target : NodeId)
    {search : NodeId -> PathSearch -> Option (List NodeId) × PathSearch}
    (keeps : forall id state, state.visited ⊆ (search id state).2.visited) (ids : List NodeId)
    (state : PathSearch) : state.visited ⊆ (tryEdges target search ids state).2.visited := by
  induction ids generalizing state with
  | nil => exact List.Subset.refl _
  | cons next rest inductionHypothesis =>
      rw [tryEdges]
      split
      · exact List.Subset.refl _
      · split
        · exact inductionHypothesis state
        · have first := keeps next { state with visited := next :: state.visited }
          have entered := List.Subset.trans (List.subset_cons_self next state.visited) first
          split
          · rename_i found
            rw [found] at entered
            exact entered
          · rename_i found
            rw [found] at entered
            exact List.Subset.trans entered (inductionHypothesis _)

theorem searchPath_keeps (target : NodeId) (fuel : Nat) (id : NodeId) (state : PathSearch) :
    state.visited ⊆ (grammar.searchPath target fuel id state).2.visited := by
  induction fuel generalizing id state with
  | zero => exact List.Subset.refl _
  | succ fuel inductionHypothesis =>
      rw [searchPath]
      cases grammar.leftEdges id state.known with
      | mk ends known =>
          have tried := tryEdges_keeps target inductionHypothesis ends
            { state with known := known }
          dsimp only
          split
          · rename_i result
            rw [result] at tried
            exact tried
          · rename_i result
            rw [result] at tried
            exact tried

/-- Whether the paths that a search from a node finds lead to the target. -/
def FindsPaths (grammar : Grammar L) (answers : Nullability) (target : NodeId)
    (search : NodeId -> PathSearch -> Option (List NodeId) × PathSearch) : Prop :=
  forall id (state after : PathSearch) path, grammar.Rests state.known ->
    search id state = (some path, after) -> grammar.Asked after.known answers ->
      exists rest, path = id :: rest ∧ path.IsChain (grammar.AnsweredEdge answers) ∧
        grammar.Arrives answers target state.visited rest

/-- A path found by trying edges starts with the end of one of them. -/
theorem tryEdges_arrives {fuel : Nat}
    (finds : grammar.FindsPaths answers target (grammar.searchPath target fuel))
    {ids : List NodeId} {state after : PathSearch} (rests : grammar.Rests state.known)
    (found : tryEdges target (grammar.searchPath target fuel) ids state = (some path, after))
    (asked : grammar.Asked after.known answers) :
    (exists first, first ∈ ids ∧ path.head? = some first) ∧
      grammar.Arrives answers target state.visited path := by
  induction ids generalizing state with
  | nil => cases found
  | cons next ids inductionHypothesis =>
      rw [tryEdges] at found
      by_cases isTarget : next = target
      · rw [if_pos isTarget] at found
        cases found
        refine ⟨⟨next, List.mem_cons_self, rfl⟩, .singleton next, [], ?_, ?_, ?_⟩
        · rw [isTarget]
          rfl
        · exact List.nodup_cons.mpr ⟨List.not_mem_nil, List.nodup_nil⟩
        · intro id member
          cases member
      · rw [if_neg isTarget] at found
        have later : forall {middle : PathSearch}, state.visited ⊆ middle.visited ->
            grammar.Rests middle.known ->
            tryEdges target (grammar.searchPath target fuel) ids middle = (some path, after) ->
            (exists first, first ∈ next :: ids ∧ path.head? = some first) ∧
              grammar.Arrives answers target state.visited path := by
          intro middle subset restsMiddle foundLater
          rcases inductionHypothesis restsMiddle foundLater with ⟨⟨first, member, isHead⟩, arrives⟩
          exact ⟨⟨first, List.mem_cons_of_mem next member, isHead⟩, arrives.of_visited subset⟩
        by_cases again : next ∈ state.visited
        · rw [if_pos again] at found
          exact later (List.Subset.refl _) rests found
        · rw [if_neg again] at found
          let entered : PathSearch := { state with visited := next :: state.visited }
          cases searched : grammar.searchPath target fuel next entered with
          | mk result middle =>
              rw [searched] at found
              cases result with
              | some first =>
                  cases found
                  rcases finds next entered after path rests searched asked with
                    ⟨rest, rfl, steps, arrives⟩
                  exact ⟨⟨next, List.mem_cons_self, rfl⟩, arrives.cons steps isTarget again⟩
              | none =>
                  have keeps := grammar.searchPath_keeps target fuel next entered
                  have askedFirst := grammar.searchPath_asked target fuel next entered
                  rw [searched] at keeps askedFirst
                  exact later (List.Subset.trans (List.subset_cons_self _ _) keeps)
                    (askedFirst.rests rests) found

theorem searchPath_findsPaths (fuel : Nat) :
    grammar.FindsPaths answers target (grammar.searchPath target fuel) := by
  induction fuel with
  | zero =>
      intro id state after path _ found
      cases found
  | succ fuel inductionHypothesis =>
      intro id state after path rests found asked
      rw [searchPath] at found
      have edges := @mem_leftEdges_iff L grammar state.known answers id
      have askedEdges := grammar.leftEdges_asked id state.known
      cases isEdges : grammar.leftEdges id state.known with
      | mk ends known =>
          rw [isEdges] at found edges askedEdges
          dsimp only at found edges askedEdges
          split at found
          · rename_i rest after' tried
            cases found
            have restsKnown := askedEdges.rests rests
            have askedTried := tryEdges_asked target (grammar.searchPath_asked target fuel) ends
              { state with known := known }
            rw [tried] at askedTried
            rcases tryEdges_arrives inductionHypothesis restsKnown tried asked with
              ⟨⟨first, member, isHead⟩, arrives⟩
            refine ⟨rest, rfl, arrives.steps.cons ?_, arrives⟩
            intro operand isFirst
            rw [isHead] at isFirst
            cases isFirst
            exact (edges rests (askedTried.trans asked)).mp member
          · cases found

/-- Each node of a path but the last has an edge. -/
theorem exists_step {edge : NodeId -> NodeId -> Prop} {front : List NodeId} {last id : NodeId}
    (steps : (front ++ [last]).IsChain edge) (member : id ∈ front) :
    exists next, edge id next := by
  rcases List.append_of_mem member with ⟨before, after, rfl⟩
  cases isRest : after ++ [last] with
  | nil => exact absurd isRest (List.append_ne_nil_of_right_ne_nil _ (List.cons_ne_nil _ _))
  | cons next rest =>
      have isFront : (before ++ id :: after) ++ [last] = before ++ id :: next :: rest := by
        rw [List.append_assoc, List.cons_append, isRest]
      exact ⟨next, List.isChain_iff_forall_rel_of_append_cons_cons.mp steps isFront⟩

/-- A path from a node back to it that is found is as it should be. -/
theorem leftCycle_some {id : NodeId} (rests : grammar.Rests known)
    (found : grammar.leftCycle id known = (some path, later))
    (asked : grammar.Asked later answers) : grammar.LeftLoop answers id path := by
  rw [leftCycle] at found
  cases search : grammar.searchPath id (grammar.nodeCount + 1) id ⟨[], known⟩ with
  | mk result after =>
      rw [search] at found
      cases found
      rcases searchPath_findsPaths _ id ⟨[], known⟩ after path rests search asked with
        ⟨rest, rfl, steps, arrives⟩
      rcases arrives.route with ⟨middle, rfl, different, _⟩
      refine ⟨steps, ⟨middle, rfl, different⟩, ?_⟩
      intro other member inner
      -- The last node is the first one again, so all of them have an edge.
      have inFront : other ∈ id :: middle := by
        rw [<- List.cons_append] at member
        rcases List.mem_append.mp member with early | last
        · exact early
        · rw [List.mem_singleton.mp last]
          exact List.mem_cons_self
      have chain : ((id :: middle) ++ [id]).IsChain (grammar.AnsweredEdge answers) := steps
      rcases exists_step chain inFront with ⟨next, edge⟩
      exact edge.not_leftRecursion inner

/-- A path from a node back to it is a cycle. -/
theorem LeftLoop.cycle {root : NodeId} (loop : grammar.LeftLoop answers root path) :
    Relation.TransGen (grammar.AnsweredEdge answers) root root := by
  rcases loop.closed with ⟨middle, rfl, _⟩
  have steps := loop.steps
  cases isRest : middle ++ [root] with
  | nil => exact absurd isRest (List.append_ne_nil_of_right_ne_nil _ (List.cons_ne_nil _ _))
  | cons next rest =>
      rw [isRest, List.isChain_cons_cons] at steps
      have isLast : (next :: rest).getLast (List.cons_ne_nil _ _) = root := by
        simp only [<- isRest, List.getLast_append_singleton]
      exact .head' steps.1 (List.relationReflTransGen_of_exists_isChain_cons rest steps.2 isLast)

/-- If no path is found, edges do not lead from the node back to it. -/
theorem not_cycle_of_leftCycle (inRange : grammar.InRange) {id : NodeId}
    (none : grammar.leftCycle id known = (none, later)) (asked : grammar.Asked later answers) :
    ¬Relation.TransGen (grammar.AnsweredEdge answers) id id := by
  intro cycle
  apply leftCycle_none inRange none
  exact Relation.TransGen.mono (fun _ _ edge => edge.followed asked.extends) _ _ cycle

end Search

/-! ## The reports -/

/-- The warning about a rule whose root leads back to itself. -/
def recursionWarning (rule : Rule L) (path : List NodeId) : GrammarWarning :=
  (GrammarWarning.about .unguardedLeftRecursion rule.root
    ("Rule " ++ rule.name ++ " refers to itself in leftmost position without left_recur")).withRelated
      path

/-- The warning about a rule that is not used. -/
def unusedWarning (rule : Rule L) : GrammarWarning :=
  GrammarWarning.about .unusedRule rule.root
    ("Rule " ++ rule.name ++ " is never reachable from the root rule")

/-- The warnings about left recursion of a node. -/
def recursionsOf (warnings : List GrammarWarning) (id : NodeId) : List GrammarWarning :=
  warnings.filter fun warning => warning.kind = .unguardedLeftRecursion ∧ warning.node = id

/-- The warnings about rules that are not used. -/
def unusedOf (warnings : List GrammarWarning) : List GrammarWarning :=
  warnings.filter fun warning => warning.kind = .unusedRule

/-- Whether what is reported about a rule is that its root leads back to itself, with a
path that shows it, or nothing because it does not. -/
inductive Judges (grammar : Grammar L) (answers : Nullability) (rule : Rule L) :
    List GrammarWarning -> Prop where
  | recursive {path : List NodeId} : grammar.LeftLoop answers rule.root path ->
      Judges grammar answers rule [recursionWarning rule path]
  | quiet : ¬Relation.TransGen (grammar.AnsweredEdge answers) rule.root rule.root ->
      Judges grammar answers rule []

theorem recursionsOf_append (first second : List GrammarWarning) (id : NodeId) :
    recursionsOf (first ++ second) id = recursionsOf first id ++ recursionsOf second id :=
  List.filter_append ..

theorem unusedOf_append (first second : List GrammarWarning) :
    unusedOf (first ++ second) = unusedOf first ++ unusedOf second :=
  List.filter_append ..

/-- Only the roots of rules are reported. -/
theorem recursionsOf_other {rules : List (Rule L)} {id : NodeId}
    (other : forall rule, rule ∈ rules -> rule.root ≠ id) :
    recursionsOf (grammar.leftRecursionWarnings rules known).1 id = [] := by
  induction rules generalizing known with
  | nil => rfl
  | cons first rest inductionHypothesis =>
      have restOther : forall rule, rule ∈ rest -> rule.root ≠ id :=
        fun rule member => other rule (List.mem_cons_of_mem first member)
      rw [leftRecursionWarnings]
      cases grammar.leftCycle first.root known with
      | mk path next =>
          cases path with
          | none => exact inductionHypothesis restOther
          | some path =>
              rw [recursionsOf, List.filter_cons_of_neg]
              · exact inductionHypothesis restOther
              · intro isReport
                exact other first List.mem_cons_self (of_decide_eq_true isReport).2

/-- Rules with different roots are reported once each, if they lead back to
themselves. -/
theorem leftRecursionWarnings_judges (inRange : grammar.InRange) {rules : List (Rule L)}
    (different : (rules.map (·.root)).Nodup) (rests : grammar.Rests known)
    (asked : grammar.Asked (grammar.leftRecursionWarnings rules known).2 answers)
    {rule : Rule L} (member : rule ∈ rules) :
    grammar.Judges answers rule
      (recursionsOf (grammar.leftRecursionWarnings rules known).1 rule.root) := by
  induction rules generalizing known with
  | nil => cases member
  | cons first rest inductionHypothesis =>
      rw [List.map_cons, List.nodup_cons] at different
      have noOther : forall other, other ∈ rest -> other.root ≠ first.root :=
        fun other inRest same => different.1 (List.mem_map.mpr ⟨other, inRest, same⟩)
      have askedFirst : grammar.Asked known (grammar.leftCycle first.root known).2 :=
        grammar.searchPath_asked first.root (grammar.nodeCount + 1) first.root ⟨[], known⟩
      rw [leftRecursionWarnings] at asked ⊢
      cases found : grammar.leftCycle first.root known with
      | mk result next =>
          rw [found] at asked askedFirst
          have askedRest := grammar.leftRecursionWarnings_asked rest next
          cases result with
          | none =>
              rcases List.mem_cons.mp member with own | inRest
              · subst own
                rw [show recursionsOf _ rule.root = [] from recursionsOf_other noOther]
                exact .quiet (not_cycle_of_leftCycle inRange found (askedRest.trans asked))
              · exact inductionHypothesis different.2 (askedFirst.rests rests) asked inRest
          | some path =>
              rcases List.mem_cons.mp member with own | inRest
              · subst own
                have rest : recursionsOf (grammar.leftRecursionWarnings rest next).1 rule.root = [] :=
                  recursionsOf_other noOther
                rw [recursionsOf, List.filter_cons_of_pos (by simp [GrammarWarning.withRelated,
                  GrammarWarning.about])]
                rw [recursionsOf] at rest
                rw [rest]
                exact .recursive (leftCycle_some rests found (askedRest.trans asked))
              · rw [recursionsOf, List.filter_cons_of_neg]
                · exact inductionHypothesis different.2 (askedFirst.rests rests) asked inRest
                · intro isReport
                  exact noOther rule inRest (of_decide_eq_true isReport).2.symm

/-- The rules that are checked are rules with roots that can be reached, and no root is
checked twice. -/
theorem reachedRules_checks (reached seen : List NodeId) (rules : List (Rule L)) :
    (forall rule, rule ∈ reachedRules reached seen rules ->
      rule ∈ rules ∧ rule.root ∈ reached ∧ rule.root ∉ seen) ∧
    ((reachedRules reached seen rules).map (·.root)).Nodup := by
  induction rules generalizing seen with
  | nil => exact ⟨fun rule member => absurd member List.not_mem_nil, List.nodup_nil⟩
  | cons first rest inductionHypothesis =>
      rw [reachedRules]
      by_cases taken : first.root ∈ reached ∧ first.root ∉ seen
      · rw [if_pos taken]
        have later := inductionHypothesis (first.root :: seen)
        constructor
        · intro rule member
          rcases List.mem_cons.mp member with own | inRest
          · rw [own]
            exact ⟨List.mem_cons_self, taken⟩
          · have checks := later.1 rule inRest
            exact ⟨List.mem_cons_of_mem first checks.1, checks.2.1,
              fun old => checks.2.2 (List.mem_cons_of_mem _ old)⟩
        · rw [List.map_cons]
          refine List.nodup_cons.mpr ⟨?_, later.2⟩
          intro again
          rcases List.mem_map.mp again with ⟨rule, inRest, same⟩
          exact (later.1 rule inRest).2.2 (same ▸ List.mem_cons_self)
      · rw [if_neg taken]
        have later := inductionHypothesis seen
        refine ⟨fun rule member => ?_, later.2⟩
        have checks := later.1 rule member
        exact ⟨List.mem_cons_of_mem first checks.1, checks.2⟩

/-- Of the rules with a root that can be reached the first is checked. -/
theorem mem_reachedRules_of_find? {reached seen : List NodeId} {rules : List (Rule L)}
    {rule : Rule L} {id : NodeId} (first : rules.find? (·.root == id) = some rule)
    (isReached : id ∈ reached) (fresh : id ∉ seen) : rule ∈ reachedRules reached seen rules := by
  induction rules generalizing seen with
  | nil => cases first
  | cons head rest inductionHypothesis =>
      rw [reachedRules]
      by_cases same : head.root = id
      · have isFirst : (head.root == id) = true := beq_iff_eq.mpr same
        rw [List.find?_cons, isFirst] at first
        cases first
        rw [if_pos ⟨same ▸ isReached, same ▸ fresh⟩]
        exact List.mem_cons_self
      · rw [List.find?_cons_of_neg (by simpa using same)] at first
        by_cases taken : head.root ∈ reached ∧ head.root ∉ seen
        · rw [if_pos taken]
          apply List.mem_cons_of_mem
          apply inductionHypothesis first
          intro inside
          rcases List.mem_cons.mp inside with own | older
          · exact same own.symm
          · exact fresh older
        · rw [if_neg taken]
          exact inductionHypothesis first fresh

theorem kind_of_mem_deadAlternativeWarnings {reached : List NodeId} {warning : GrammarWarning}
    (reported : warning ∈ grammar.deadAlternativeWarnings reached) :
    warning.kind = .unreachableAlternative := by
  have ofChoice : forall (choice : NodeId) earlier index alts,
      warning ∈ grammar.deadAlternatives choice earlier index alts ->
        warning.kind = .unreachableAlternative := by
    intro choice earlier index alts
    induction alts generalizing earlier index with
    | nil =>
        intro member
        cases member
    | cons alt rest inductionHypothesis =>
        intro member
        rw [deadAlternatives] at member
        split at member
        · rcases List.mem_cons.mp member with rfl | later
          · rfl
          · exact inductionHypothesis _ _ later
        · exact inductionHypothesis _ _ member
  rcases List.mem_flatMap.mp reported with ⟨id, _, ofId⟩
  split at ofId
  · split at ofId
    · exact ofChoice _ _ _ _ ofId
    · cases ofId
  · cases ofId

/-- Whether a node is the root of a rule that is to be reported for left recursion, as
seen from some node: it can be reached, and left edges lead from it back to it. -/
structure Recurs (grammar : Grammar L) (answers : Nullability) (root id : NodeId) : Prop where
  isRoot : exists rule, rule ∈ grammar.rules ∧ rule.root = id
  reached : grammar.Path Clause.children root id
  cycle : Relation.TransGen (grammar.AnsweredEdge answers) id id

open Classical in
/-- Whether some warnings report what the graph of a grammar shows as seen from a node:
each root that leads back to itself once, under the name of the first of its rules,
and each rule whose root cannot be reached, in the order of the rules. -/
structure ReportsExactly (grammar : Grammar L) (answers : Nullability) (root : NodeId)
    (warnings : List GrammarWarning) : Prop where
  recursive : forall id, grammar.Recurs answers root id -> exists rule path,
    grammar.rules.find? (·.root == id) = some rule ∧ grammar.LeftLoop answers id path ∧
      recursionsOf warnings id = [recursionWarning rule path]
  quiet : forall id, ¬grammar.Recurs answers root id -> recursionsOf warnings id = []
  unused : unusedOf warnings =
    (grammar.rules.filter fun rule => ¬grammar.Path Clause.children root rule.root).map
      unusedWarning

/-- The parts of the report about left recursion and about rules that are not used. -/
theorem analyze_parts (grammar : Grammar L) (root : NodeId) (known : Nullability) :
    (forall id, recursionsOf (grammar.analyze root known).1 id =
      recursionsOf (grammar.leftRecursionWarnings
        (reachedRules (grammar.reachable root) [] grammar.rules) known).1 id) ∧
    unusedOf (grammar.analyze root known).1 =
      (grammar.rules.filter (·.root ∉ grammar.reachable root)).map unusedWarning := by
  have noDead : forall (wanted : GrammarWarning -> Bool), (forall warning, wanted warning = true ->
      warning.kind ≠ .unreachableAlternative) ->
        (grammar.deadAlternativeWarnings (grammar.reachable root)).filter wanted = [] := by
    intro wanted isOther
    apply List.filter_eq_nil_iff.mpr
    intro warning member isWanted
    exact isOther warning isWanted (kind_of_mem_deadAlternativeWarnings member)
  have isReport : (grammar.analyze root known).1 =
      (grammar.leftRecursionWarnings (reachedRules (grammar.reachable root) [] grammar.rules)
          known).1 ++ grammar.deadAlternativeWarnings (grammar.reachable root) ++
        grammar.unusedRuleWarnings (grammar.reachable root) := rfl
  constructor
  · intro id
    have noUnused : recursionsOf (grammar.unusedRuleWarnings (grammar.reachable root)) id = [] := by
      apply List.filter_eq_nil_iff.mpr
      intro warning member isWanted
      rcases List.mem_map.mp member with ⟨rule, _, rfl⟩
      cases (of_decide_eq_true isWanted).1
    have noChoice : recursionsOf (grammar.deadAlternativeWarnings (grammar.reachable root)) id = [] := by
      apply noDead
      intro warning isWanted isDead
      rw [(of_decide_eq_true isWanted).1] at isDead
      cases isDead
    rw [isReport, recursionsOf_append, recursionsOf_append, noChoice, noUnused, List.append_nil,
      List.append_nil]
  · have noRecursion : unusedOf (grammar.leftRecursionWarnings
        (reachedRules (grammar.reachable root) [] grammar.rules) known).1 = [] := by
      apply List.filter_eq_nil_iff.mpr
      intro warning member isWanted
      rw [kind_of_mem_leftRecursionWarnings member] at isWanted
      cases isWanted
    have noChoice : unusedOf (grammar.deadAlternativeWarnings (grammar.reachable root)) = [] := by
      apply noDead
      intro warning isWanted isDead
      rw [of_decide_eq_true isWanted] at isDead
      cases isDead
    have allUnused : unusedOf (grammar.unusedRuleWarnings (grammar.reachable root)) =
        grammar.unusedRuleWarnings (grammar.reachable root) := by
      apply List.filter_eq_self.mpr
      intro warning member
      rcases List.mem_map.mp member with ⟨rule, _, rfl⟩
      rfl
    rw [isReport, unusedOf_append, unusedOf_append, noRecursion, noChoice, allUnused]
    rfl

/-- What a grammar reports as seen from a node, with the answers given afterwards, is
what its graph shows. -/
theorem analyze_reportsExactly (inRange : grammar.InRange)
    (roots : forall rule, rule ∈ grammar.rules -> rule.root < grammar.nodeCount) {root : NodeId}
    (isNode : root < grammar.nodeCount) (rests : grammar.Rests known)
    (asked : grammar.Asked (grammar.analyze root known).2 answers) :
    grammar.ReportsExactly answers root (grammar.analyze root known).1 := by
  have parts := grammar.analyze_parts root known
  have checks := reachedRules_checks (grammar.reachable root) [] grammar.rules
  have judges (rule : Rule L)
      (member : rule ∈ reachedRules (grammar.reachable root) [] grammar.rules) :=
    leftRecursionWarnings_judges inRange checks.2 rests asked member
  constructor
  · intro id recurs
    rcases recurs.isRoot with ⟨any, anyMember, isRoot⟩
    have isReached : id ∈ grammar.reachable root :=
      (mem_visit_iff isNode).mpr ⟨recurs.reached, isRoot ▸ roots any anyMember⟩
    have some : (grammar.rules.find? (·.root == id)).isSome :=
      List.find?_isSome.mpr ⟨any, anyMember, beq_iff_eq.mpr isRoot⟩
    rcases Option.isSome_iff_exists.mp some with ⟨rule, first⟩
    have isFirst : (rule.root == id) = true :=
      List.find?_some (p := fun rule : Rule L => rule.root == id) first
    have sameRoot : rule.root = id := beq_iff_eq.mp isFirst
    have verdict := judges rule (mem_reachedRules_of_find? first isReached List.not_mem_nil)
    rw [sameRoot, <- parts.1] at verdict
    generalize recursionsOf (grammar.analyze root known).1 id = reports at verdict ⊢
    cases verdict with
    | @recursive path loop => exact ⟨rule, path, first, sameRoot ▸ loop, rfl⟩
    | quiet noCycle => exact absurd (sameRoot ▸ recurs.cycle) noCycle
  · intro id silent
    rw [parts.1]
    by_cases isChecked : exists rule,
        rule ∈ reachedRules (grammar.reachable root) [] grammar.rules ∧ rule.root = id
    · rcases isChecked with ⟨rule, member, rfl⟩
      have verdict := judges rule member
      generalize recursionsOf _ rule.root = reports at verdict ⊢
      cases verdict with
      | recursive loop =>
          have check := checks.1 rule member
          have path := ((mem_visit_iff isNode).mp check.2.1).1
          exact absurd ⟨⟨rule, check.1, rfl⟩, path, loop.cycle⟩ silent
      | quiet _ => rfl
    · exact recursionsOf_other fun rule member same => isChecked ⟨rule, member, same⟩
  · rw [parts.2]
    congr 1
    apply List.filter_congr
    intro rule member
    apply decide_eq_decide.mpr
    apply not_congr
    exact (mem_visit_iff isNode).trans (and_iff_left (roots rule member))

end Grammar

namespace GrammarBuilder

/-- The warnings about a built grammar as seen from any of its rules report exactly what
its graph shows, whatever has been asked before and is asked afterwards. -/
theorem build_reports_exactly {builder : GrammarBuilder L} {cache after : PatternCache}
    {built : BuiltGrammar L} (accepted : builder.build cache = (.ok built, after))
    {known : Nullability} (asked : built.grammar.Asked built.known known) {name : String}
    {root : NodeId} (isRoot : built.grammar.ruleId? name = some root) :
    exists warnings later, built.grammar.warnings name known = .ok (warnings, later) ∧
      forall answers, built.grammar.Asked later answers ->
        built.grammar.ReportsExactly answers root warnings := by
  have ordered := build_ordered accepted
  rcases Option.map_eq_some_iff.mp isRoot with ⟨rule, isRule, rfl⟩
  have isNode := ordered.roots rule (List.mem_of_find?_eq_some isRule)
  have sinceBuilt : built.grammar.Asked (Nullability.unknown built.grammar.nodeCount) known :=
    (build_denies accepted).1.trans asked
  have rests := sinceBuilt.rests built.grammar.rests_unknown
  refine ⟨(built.grammar.analyze rule.root known).1, (built.grammar.analyze rule.root known).2, ?_, ?_⟩
  · rw [Grammar.warnings, isRoot]
  · intro answers later
    exact Grammar.analyze_reportsExactly ordered.inRange ordered.roots isNode rests later

/-- Lists that start with themselves under another name, sums that are allowed to, and a
word that neither of them uses. -/
def enumerationParsers : Construction (List (Definition plainText)) := do
  let enumeration ← Parser.reference "list" .text
  let row ← Parser.reference "row" .text
  let comma ← Parser.exact ","
  let sum ← Parser.reference "sum" .text
  let list ← (← row.thenLeft comma).orElse sum
  let digit ← Parser.exact "1"
  let plus ← Parser.exact "+"
  let sums ← (← (← sum.thenLeft plus).orElse digit).leftRecursive
  let word ← Parser.exact "w"
  return [⟨"row", .text, enumeration⟩, ⟨"list", .text, list⟩, ⟨"sum", .text, sums⟩,
    ⟨"word", .text, word⟩]

/-- The rules for lists, for sums, and for the word. -/
def enumerations : GrammarBuilder plainText := ⟨(enumerationParsers 0).1⟩

/-- The root of lists is reported once although it has two names, sums are not reported
although they start with themselves, and the word is reported as not used. -/
theorem enumerations_reported : exists built after warnings later,
    enumerations.build PatternCache.empty = (.ok built, after) ∧
      built.grammar.ruleId? "list" = some 5 ∧
      built.grammar.warnings "list" built.known = .ok (warnings, later) ∧
      (forall answers, built.grammar.Asked later answers ->
        built.grammar.ReportsExactly answers 5 warnings) ∧
      warnings = [Grammar.recursionWarning (L := plainText) ⟨"row", .text, 5⟩ [5, 3, 5],
        Grammar.unusedWarning (L := plainText) ⟨"word", .text, 11⟩] := by
  have evaluated : (enumerations.build PatternCache.empty).1.toOption.any (fun built =>
      decide (built.grammar.ruleId? "list" = some 5 ∧
        (built.grammar.analyze 5 built.known).1 =
          [Grammar.recursionWarning (L := plainText) ⟨"row", .text, 5⟩ [5, 3, 5],
            Grammar.unusedWarning (L := plainText) ⟨"word", .text, 11⟩])) = true := by
    decide +kernel
  cases accepted : enumerations.build PatternCache.empty with
  | mk outcome after =>
      rw [accepted] at evaluated
      cases outcome with
      | error error => cases evaluated
      | ok built =>
          rcases of_decide_eq_true evaluated with ⟨isRoot, isReport⟩
          rcases build_reports_exactly accepted .refl isRoot with
            ⟨warnings, later, isWarnings, exactly⟩
          refine ⟨built, after, warnings, later, rfl, isRoot, isWarnings, exactly, ?_⟩
          rw [Grammar.warnings, isRoot] at isWarnings
          have same := Except.ok.inj isWarnings
          rw [<- isReport, same]

end GrammarBuilder
end SeedGrammar
