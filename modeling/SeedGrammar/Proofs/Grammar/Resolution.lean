import SeedGrammar.Proofs.Grammar.Lowering
import SeedGrammar.Proofs.Grammar.Reach

namespace SeedGrammar

/-!
# What building a grammar establishes

A built grammar is related to the expressions of its rules by a function that
gives each expression its node.  The node of an expression that is not a
reference is the same operator, on the nodes of the operands.  A reference has
the node of the rule that it names, since nodes are replaced by the ends of
their chains of references.  Chains end because those that do not are refused.

That is all that later proofs need to know about building.
-/

variable {L : Signature}

/-! ## Binding and chains -/

namespace Grammar

theorem bindAll_ok {rules : List (Rule L)} {nodes bound : List (Clause L PatternProgram NodeId)}
    (isBound : bindAll rules nodes = .ok bound) :
    List.Forall₂ (fun clause clause' => bind rules clause = .ok clause') nodes bound := by
  induction nodes generalizing bound with
  | nil =>
      cases isBound
      exact .nil
  | cons clause rest inductionHypothesis =>
      rw [bindAll] at isBound
      cases first : bind rules clause with
      | error error =>
          rw [first] at isBound
          cases isBound
      | ok clause' =>
          rw [first] at isBound
          cases others : bindAll rules rest with
          | error error =>
              rw [others] at isBound
              cases isBound
          | ok rest' =>
              rw [others] at isBound
              cases isBound
              exact .cons first (inductionHypothesis others)

/-- A clause that is bound corresponds to itself, and if it is a reference it
has got the root of the rule of its name for a target. -/
theorem bind_ok {rules : List (Rule L)} {clause bound : Clause L PatternProgram NodeId}
    (isBound : bind rules clause = .ok bound) :
    (clause.isReference = false ∧ bound = clause) ∨
      exists name expected target rule, clause = .reference name expected target ∧
        rules.find? (·.name == name) = some rule ∧ rule.type = expected ∧
        bound = .reference name expected (some rule.root) := by
  cases clause with
  | reference name expected target =>
      rw [bind] at isBound
      cases found : rules.find? (·.name == name) with
      | none =>
          rw [found] at isBound
          cases isBound
      | some rule =>
          rw [found] at isBound
          by_cases sameType : rule.type = expected
          · simp only [if_pos sameType] at isBound
            cases isBound
            exact Or.inr ⟨name, expected, target, rule, rfl, found, sameType, rfl⟩
          · simp only [if_neg sameType] at isBound
            cases isBound
  | leaf atom => exact Or.inl ⟨rfl, (Except.ok.inj isBound).symm⟩
  | map inner transform => exact Or.inl ⟨rfl, (Except.ok.inj isBound).symm⟩
  | update inner next => exact Or.inl ⟨rfl, (Except.ok.inj isBound).symm⟩
  | sequence items gather => exact Or.inl ⟨rfl, (Except.ok.inj isBound).symm⟩
  | choice alts => exact Or.inl ⟨rfl, (Except.ok.inj isBound).symm⟩
  | optional inner element => exact Or.inl ⟨rfl, (Except.ok.inj isBound).symm⟩
  | attempt inner => exact Or.inl ⟨rfl, (Except.ok.inj isBound).symm⟩
  | lookahead inner look negative => exact Or.inl ⟨rfl, (Except.ok.inj isBound).symm⟩
  | repeated inner element min max => exact Or.inl ⟨rfl, (Except.ok.inj isBound).symm⟩
  | leftRecursion inner => exact Or.inl ⟨rfl, (Except.ok.inj isBound).symm⟩

/-- Whether a number is not that of a reference. -/
def EndsChain (nodes : List (Clause L PatternProgram NodeId)) (id : NodeId) : Prop :=
  forall name expected target, nodes[id]? ≠ some (.reference name expected target)

/-- A chain of so many references from one node to another that is none. -/
inductive Chain (nodes : List (Clause L PatternProgram NodeId)) :
    Nat -> NodeId -> NodeId -> Prop where
  | stop {id : NodeId} : EndsChain nodes id -> Chain nodes 0 id id
  | step {length : Nat} {id target last : NodeId} {name : String}
      {expected : ValueType L.Kind} :
      nodes[id]? = some (.reference name expected (some target)) ->
      Chain nodes length target last -> Chain nodes (length + 1) id last

theorem Chain.ends {nodes : List (Clause L PatternProgram NodeId)} {length : Nat}
    {id last : NodeId} (chain : Chain nodes length id last) : EndsChain nodes last := by
  induction chain with
  | stop ends => exact ends
  | step _ _ inductionHypothesis => exact inductionHypothesis

theorem Chain.unique {nodes : List (Clause L PatternProgram NodeId)} {length length' : Nat}
    {id last last' : NodeId} (chain : Chain nodes length id last)
    (chain' : Chain nodes length' id last') : length = length' ∧ last = last' := by
  induction chain generalizing length' with
  | stop ends =>
      cases chain' with
      | stop _ => exact ⟨rfl, rfl⟩
      | step found _ => exact absurd found (ends _ _ _)
  | step found _ inductionHypothesis =>
      cases chain' with
      | stop ends => exact absurd found (ends _ _ _)
      | step found' rest =>
          rw [found] at found'
          cases found'
          rcases inductionHypothesis rest with ⟨rfl, rfl⟩
          exact ⟨rfl, rfl⟩

/-- The nodes on a chain are different, since the chains that start at them differ in
length. -/
theorem Chain.length_le {nodes : List (Clause L PatternProgram NodeId)} {length : Nat}
    {id last : NodeId} (chain : Chain nodes length id last) : length ≤ nodes.length := by
  suffices passed : exists ids : List NodeId, ids.length = length ∧ ids.Nodup ∧
      forall place, place ∈ ids -> place < nodes.length ∧
        exists left, left ≤ length ∧ Chain nodes left place last by
    rcases passed with ⟨ids, rfl, different, onChain⟩
    exact length_le_of_nodup different fun place member => (onChain place member).1
  induction chain with
  | stop _ => exact ⟨[], rfl, List.nodup_nil, nofun⟩
  | @step length id target last name expected found rest inductionHypothesis =>
      rcases inductionHypothesis with ⟨ids, isLength, different, onChain⟩
      refine ⟨id :: ids, congrArg Nat.succ isLength, List.nodup_cons.mpr ⟨?_, different⟩, ?_⟩
      · intro again
        rcases (onChain id again).2 with ⟨left, short, chain⟩
        have same := (chain.unique (.step found rest)).1
        omega
      · intro place member
        rcases List.mem_cons.mp member with rfl | later
        · exact ⟨(List.getElem?_eq_some_iff.mp found).1, length + 1, Nat.le_refl _,
            .step found rest⟩
        · rcases onChain place later with ⟨inRange, left, short, chain⟩
          exact ⟨inRange, left, Nat.le_succ_of_le short, chain⟩

/-- Whether one node is the end of the chain that starts at another. -/
def Ends (nodes : List (Clause L PatternProgram NodeId)) (id last : NodeId) : Prop :=
  exists length, Chain nodes length id last

/-- Whether the ends that are known are right. -/
def KnowsEnds (nodes : List (Clause L PatternProgram NodeId)) (known : List (Option NodeId)) :
    Prop :=
  forall id last : NodeId, (known[id]?).join = some last -> Ends nodes id last

section Walk

variable {nodes : List (Clause L PatternProgram NodeId)} {known : List (Option NodeId)}

theorem exists_reference_of_not_endsChain {id : NodeId} (goesOn : ¬EndsChain nodes id) :
    exists name expected target, nodes[id]? = some (.reference name expected target) := by
  by_contra none
  apply goesOn
  intro name expected target found
  exact none ⟨name, expected, target, found⟩

theorem chainEnd_of_endsChain {id : NodeId} (unknown : (known[id]?).join = none)
    (ends : EndsChain nodes id) (fuel : Nat) (passed : List NodeId) :
    chainEnd nodes known (fuel + 1) passed id = .ok (id, passed) := by
  rw [chainEnd, unknown]
  dsimp only
  split
  · rename_i name expected target found
    exact absurd found (ends name expected target)
  · rfl

/-- Following references comes to the end of a chain, which is the end for all
references that were passed as well.  These are different nodes, so the bound
on references to come cannot be used up. -/
theorem chainEnd_ok (knows : KnowsEnds nodes known) {fuel : Nat} {passed further : List NodeId}
    {id last : NodeId} (different : passed.Nodup)
    (inRange : forall place, place ∈ passed -> place < nodes.length)
    (enough : nodes.length < passed.length + fuel)
    (isEnd : chainEnd nodes known fuel passed id = .ok (last, further)) :
    Ends nodes id last ∧ passed ⊆ further ∧
      (forall place, place ∈ further -> place ∈ passed ∨ Ends nodes place last) ∧
      ((known[id]?).join = none -> id ∈ last :: further) := by
  induction fuel generalizing passed id with
  | zero => exact absurd enough (Nat.not_lt_of_le (length_le_of_nodup different inRange))
  | succ fuel inductionHypothesis =>
      cases isKnown : (known[id]?).join with
      | some done =>
          rw [chainEnd, isKnown] at isEnd
          cases isEnd
          exact ⟨knows id last isKnown, List.Subset.refl _, fun _ => Or.inl, nofun⟩
      | none =>
          by_cases ends : EndsChain nodes id
          · rw [chainEnd_of_endsChain isKnown ends] at isEnd
            cases isEnd
            exact ⟨⟨0, .stop ends⟩, List.Subset.refl _, fun _ => Or.inl,
              fun _ => List.mem_cons_self ..⟩
          · rcases exists_reference_of_not_endsChain ends with ⟨name, expected, target, found⟩
            simp only [chainEnd, isKnown, found] at isEnd
            by_cases again : id ∈ passed
            · rw [if_pos again] at isEnd
              cases isEnd
            · rw [if_neg again] at isEnd
              cases target with
              | none => cases isEnd
              | some target =>
                  have fresh : (id :: passed).Nodup := List.nodup_cons.mpr ⟨again, different⟩
                  have bounded : forall place, place ∈ id :: passed -> place < nodes.length := by
                    intro place member
                    rcases List.mem_cons.mp member with rfl | older
                    · exact (List.getElem?_eq_some_iff.mp found).1
                    · exact inRange place older
                  have left : nodes.length < (id :: passed).length + fuel := by
                    rw [List.length_cons]
                    omega
                  rcases inductionHypothesis fresh bounded left isEnd with
                    ⟨⟨length, chain⟩, isPassed, areEnds, _⟩
                  have own : Ends nodes id last := ⟨length + 1, .step found chain⟩
                  refine ⟨own, List.Subset.trans (List.subset_cons_self ..) isPassed, ?_, ?_⟩
                  · intro place member
                    rcases areEnds place member with isPassed | ends
                    · rcases List.mem_cons.mp isPassed with rfl | older
                      · exact Or.inr own
                      · exact Or.inl older
                    · exact Or.inr ends
                  · intro _
                    exact List.mem_cons_of_mem _ (isPassed (List.mem_cons_self ..))

theorem length_noteEnd (last : NodeId) (ids : List NodeId) (known : List (Option NodeId)) :
    (noteEnd last ids known).length = known.length := by
  induction ids generalizing known with
  | nil => rfl
  | cons id rest inductionHypothesis =>
      rw [noteEnd, inductionHypothesis, List.length_set]

/-- What is known after an end was noted for some nodes: this end of these nodes,
and of the others what was known before. -/
theorem noteEnd_known {last : NodeId} {ids : List NodeId} {id : NodeId}
    (inRange : id < known.length) :
    ((noteEnd last ids known)[id]?).join = if id ∈ ids then some last else (known[id]?).join := by
  induction ids generalizing known with
  | nil => rfl
  | cons other rest inductionHypothesis =>
      rw [noteEnd, inductionHypothesis (by rwa [List.length_set]), List.getElem?_set]
      by_cases later : id ∈ rest
      · rw [if_pos later, if_pos (List.mem_cons_of_mem _ later)]
      · rw [if_neg later]
        by_cases same : other = id
        · subst same
          rw [if_pos rfl, if_pos inRange, if_pos (List.mem_cons_self ..)]
          rfl
        · rw [if_neg same, if_neg]
          rintro (_ | later')
          · exact same rfl
          · exact later ‹_›

/-- What is noted for the references of a chain is right. -/
theorem noteEnd_knowsEnds (knows : KnowsEnds nodes known) {last : NodeId} {ids : List NodeId}
    (areEnds : forall id, id ∈ ids -> Ends nodes id last) :
    KnowsEnds nodes (noteEnd last ids known) := by
  intro id other isKnown
  have inRange : id < known.length := by
    rw [<- length_noteEnd last ids known]
    by_contra beyond
    rw [List.getElem?_eq_none (Nat.le_of_not_lt beyond)] at isKnown
    cases isKnown
  rw [noteEnd_known inRange] at isKnown
  by_cases noted : id ∈ ids
  · rw [if_pos noted] at isKnown
    cases isKnown
    exact areEnds id noted
  · rw [if_neg noted] at isKnown
    exact knows id other isKnown

theorem noteEnd_keeps {last : NodeId} {ids : List NodeId} {id : NodeId} (inRange : id < known.length)
    (there : id ∈ ids ∨ (known[id]?).join ≠ none) : ((noteEnd last ids known)[id]?).join ≠ none := by
  rw [noteEnd_known inRange]
  by_cases noted : id ∈ ids
  · rw [if_pos noted]
    exact Option.some_ne_none last
  · rw [if_neg noted]
    exact there.resolve_left noted

/-- Each start has an end that is known afterwards, and what was known still is. -/
theorem chainEnds_ok {starts : List NodeId} {ends : List (Option NodeId)}
    (knows : KnowsEnds nodes known) (areEnds : chainEnds nodes starts known = .ok ends)
    (inRange : forall start, start ∈ starts -> start < known.length) :
    KnowsEnds nodes ends ∧ ends.length = known.length ∧
      (forall id : NodeId, (known[id]?).join ≠ none -> (ends[id]?).join ≠ none) ∧
      forall start, start ∈ starts -> (ends[start]?).join ≠ none := by
  induction starts generalizing known with
  | nil =>
      cases areEnds
      exact ⟨knows, rfl, fun _ => id, nofun⟩
  | cons start rest inductionHypothesis =>
      have later : forall other, other ∈ rest -> other < known.length :=
        fun other member => inRange other (List.mem_cons_of_mem _ member)
      rw [chainEnds] at areEnds
      cases isKnown : (known[start]?).join with
      | some done =>
          simp only [isKnown] at areEnds
          rcases inductionHypothesis knows areEnds later with ⟨knows', sameLength, kept, found⟩
          refine ⟨knows', sameLength, kept, ?_⟩
          intro other member
          rcases List.mem_cons.mp member with rfl | isLater
          · exact kept _ (isKnown ▸ Option.some_ne_none done)
          · exact found other isLater
      | none =>
          simp only [isKnown] at areEnds
          cases isEnd : chainEnd nodes known (nodes.length + 1) [] start with
          | error error =>
              rw [isEnd] at areEnds
              cases areEnds
          | ok walk =>
              rcases walk with ⟨last, passed⟩
              simp only [isEnd] at areEnds
              rcases chainEnd_ok knows List.nodup_nil nofun (Nat.lt_add_left _ (Nat.lt_succ_self _))
                isEnd with ⟨⟨length, chain⟩, _, passedEnds, isPassed⟩
              have areNoted : forall id, id ∈ last :: passed -> Ends nodes id last := by
                intro id member
                rcases List.mem_cons.mp member with rfl | member
                · exact ⟨0, .stop chain.ends⟩
                · exact (passedEnds id member).resolve_left List.not_mem_nil
              have sameLength := length_noteEnd last (last :: passed) known
              rcases inductionHypothesis (noteEnd_knowsEnds knows areNoted) areEnds
                (fun other member => sameLength ▸ later other member) with
                ⟨knows', sameLength', kept, found⟩
              refine ⟨knows', sameLength'.trans sameLength, ?_, ?_⟩
              · intro id there
                apply kept id
                by_cases inside : id < known.length
                · exact noteEnd_keeps inside (Or.inr there)
                · rw [List.getElem?_eq_none (Nat.le_of_not_lt inside)] at there
                  exact absurd rfl there
              · intro other member
                rcases List.mem_cons.mp member with rfl | isLater
                · exact kept _ (noteEnd_keeps (inRange _ member) (Or.inl (isPassed isKnown)))
                · exact found other isLater

end Walk

/-- Each node is replaced by the end of the chain that starts at it. -/
theorem targets_ok {nodes : List (Clause L PatternProgram NodeId)} {ends : List NodeId}
    (areTargets : targets nodes = .ok ends) {id : NodeId} (inRange : id < nodes.length) :
    exists length last, length ≤ nodes.length + 1 ∧ ends[id]? = some last ∧
      Chain nodes length id last := by
  rw [targets] at areTargets
  cases areEnds : chainEnds nodes (List.range nodes.length) (List.replicate nodes.length none) with
  | error error =>
      rw [areEnds] at areTargets
      cases areTargets
  | ok known =>
      rw [areEnds] at areTargets
      cases areTargets
      have knowsNothing : KnowsEnds nodes (List.replicate nodes.length none) := by
        intro id last isKnown
        rw [List.getElem?_replicate] at isKnown
        split at isKnown
        · cases isKnown
        · cases isKnown
      rcases chainEnds_ok knowsNothing areEnds (by simp) with ⟨knows, _, _, found⟩
      rcases Option.ne_none_iff_exists'.mp (found id (List.mem_range.mpr inRange)) with
        ⟨last, isKnown⟩
      rcases knows id last isKnown with ⟨length, chain⟩
      refine ⟨length, last, Nat.le_succ_of_le chain.length_le, ?_, chain⟩
      rw [Option.join_eq_some_iff] at isKnown
      rw [List.getElem?_mapIdx, isKnown]
      rfl

end Grammar

/-! ## Built grammars -/

namespace GrammarBuilder

/-- The first rule with a name. -/
def definition? (builder : GrammarBuilder L) (name : String) : Option (Definition L) :=
  builder.definitions.find? (·.name == name)

/-- The expression that so many references lead to from another. -/
inductive Leads (builder : GrammarBuilder L) : Nat -> Expr L -> Expr L -> Prop where
  | here {expr : Expr L} : expr.clause.isReference = false -> Leads builder 0 expr expr
  | follow {length : Nat} {expr last : Expr L} {name : String} {expected : ValueType L.Kind}
      {target : Option (Expr L)} {definition : Definition L} :
      expr.clause = .reference name expected target ->
      builder.definition? name = some definition ->
      Leads builder length definition.parser.expr last -> Leads builder (length + 1) expr last

/-- How the nodes of a grammar are those of the expressions of its rules. -/
structure Resolution (builder : GrammarBuilder L) (grammar : Grammar L)
    (node : Expr L -> NodeId) (longest : Nat) : Prop where
  clause : forall expr, builder.Contains expr -> expr.clause.isReference = false ->
    exists compiled clause, expr.clause.compiled? = some compiled ∧
      grammar.nodes[node expr]? = some clause ∧
      compiled.Corresponds Eq (fun child id => node child = id) clause
  reference : forall expr name expected target, builder.Contains expr ->
    expr.clause = .reference name expected target ->
    exists definition, builder.definition? name = some definition ∧
      definition.type = expected ∧ node expr = node definition.parser.expr
  leads : forall expr, builder.Contains expr ->
    exists length last, length ≤ longest ∧ builder.Leads length expr last
  injective : forall first second, builder.Contains first -> builder.Contains second ->
    first.clause.isReference = false -> second.clause.isReference = false ->
    node first = node second -> first = second
  rule : forall definition, definition ∈ builder.definitions ->
    grammar.rule? definition.name =
      some ⟨definition.name, definition.type, node definition.parser.expr⟩

theorem mem_of_definition? {builder : GrammarBuilder L} {name : String}
    {definition : Definition L} (found : builder.definition? name = some definition) :
    definition ∈ builder.definitions :=
  List.mem_of_find?_eq_some found

theorem Leads.operator {builder : GrammarBuilder L} {length : Nat} {expr last : Expr L}
    (leads : builder.Leads length expr last) : last.clause.isReference = false := by
  induction leads with
  | here isOperator => exact isOperator
  | follow _ _ _ inductionHypothesis => exact inductionHypothesis

theorem Leads.contains {builder : GrammarBuilder L} {length : Nat} {expr last : Expr L}
    (leads : builder.Leads length expr last) (contained : builder.Contains expr) :
    builder.Contains last := by
  induction leads with
  | here _ => exact contained
  | follow _ found _ inductionHypothesis =>
      exact inductionHypothesis (contains_root (mem_of_definition? found))

theorem Resolution.node_leads {builder : GrammarBuilder L} {grammar : Grammar L}
    {node : Expr L -> NodeId} {longest : Nat}
    (resolution : builder.Resolution grammar node longest) {length : Nat}
    {expr last : Expr L} (leads : builder.Leads length expr last)
    (contained : builder.Contains expr) : node expr = node last := by
  induction leads with
  | here _ => rfl
  | @follow _ expr _ name expected target definition isReference found _ inductionHypothesis =>
      rcases resolution.reference expr name expected target contained isReference with
        ⟨definition', found', _, sameNode⟩
      rw [found] at found'
      cases found'
      rw [sameNode]
      exact inductionHypothesis (contains_root (mem_of_definition? found))

/-- The node of an operator is the operator on the nodes of the operands. -/
theorem Resolution.nodes_eq {builder : GrammarBuilder L} {grammar : Grammar L}
    {node : Expr L -> NodeId} {longest : Nat}
    (resolution : builder.Resolution grammar node longest) {expr : Expr L}
    (contained : builder.Contains expr) (isOperator : expr.clause.isReference = false)
    {compiled : Clause L PatternProgram (Expr L)}
    (isCompiled : expr.clause.compiled? = some compiled) :
    grammar.nodes[node expr]? = some (compiled.mapOperands node) := by
  rcases resolution.clause expr contained isOperator with
    ⟨compiled', clause, isCompiled', found, corresponds⟩
  rw [isCompiled] at isCompiled'
  cases isCompiled'
  rw [found, corresponds.eq_mapOperands]
  rw [Clause.isReference_compiled isCompiled, isOperator]

theorem duplicate?_none {seen names : List String} (none : duplicate? seen names = none) :
    names.Nodup ∧ forall name, name ∈ names -> name ∉ seen := by
  induction names generalizing seen with
  | nil =>
      refine ⟨List.nodup_nil, ?_⟩
      intro name member
      cases member
  | cons name rest inductionHypothesis =>
      rw [duplicate?] at none
      by_cases again : name ∈ seen
      · rw [if_pos again] at none
        cases none
      · rw [if_neg again] at none
        rcases inductionHypothesis none with ⟨different, fresh⟩
        refine ⟨List.nodup_cons.mpr ⟨?_, different⟩, ?_⟩
        · intro member
          exact fresh name member (List.mem_cons_self ..)
        · intro other member
          rcases List.mem_cons.mp member with own | later
          · rw [own]
            exact again
          · intro old
            exact fresh other later (List.mem_cons_of_mem _ old)

/-- Names are different, so a rule is found under its own. -/
theorem definition?_of_mem {builder : GrammarBuilder L}
    (different : (builder.definitions.map fun definition => definition.name).Nodup)
    {definition : Definition L} (member : definition ∈ builder.definitions) :
    builder.definition? definition.name = some definition := by
  rw [definition?]
  generalize builder.definitions = definitions at different member
  induction definitions with
  | nil => cases member
  | cons first rest inductionHypothesis =>
      rw [List.map_cons, List.nodup_cons] at different
      rcases List.mem_cons.mp member with own | later
      · rw [own, List.find?_cons, beq_self_eq_true]
      · have other : first.name ≠ definition.name := by
          intro same
          apply different.1
          rw [same]
          exact List.mem_map_of_mem later
        rw [List.find?_cons, beq_false_of_ne other]
        exact inductionHypothesis different.2 later

/-- Rules with the names of definitions are found where these are. -/
theorem find?_rule {state : LoweringState L} {definitions : List (Definition L)}
    {rules : List (Rule L)} (lowered : List.Forall₂ (Lowered state) definitions rules)
    (name : String) :
    Option.Rel (Lowered state) (definitions.find? (·.name == name))
      (rules.find? (·.name == name)) := by
  induction lowered with
  | nil => exact .none
  | @cons definition rule definitions rules first _ inductionHypothesis =>
      rw [List.find?_cons, List.find?_cons, first.name]
      cases definition.name == name with
      | true => exact .some first
      | false => exact inductionHypothesis

theorem duplicate?_of_nodup {seen names : List String} (different : names.Nodup)
    (fresh : forall name, name ∈ names -> name ∉ seen) : duplicate? seen names = none := by
  induction names generalizing seen with
  | nil => rfl
  | cons name rest inductionHypothesis =>
      rcases List.nodup_cons.mp different with ⟨once, different⟩
      rw [duplicate?, if_neg (fresh name (List.mem_cons_self ..))]
      apply inductionHypothesis different
      intro other member again
      rcases List.mem_cons.mp again with rfl | older
      · exact once member
      · exact fresh other (List.mem_cons_of_mem _ member) older

/-- Once the rules are lowered, building is to resolve their references. -/
theorem build_of_yields {builder : GrammarBuilder L}
    (different : (builder.definitions.map fun definition => definition.name).Nodup)
    {cache : PatternCache} {rules : List (Rule L)} {state : LoweringState L}
    (yields : (lowerRules builder.definitions).Yields (Lowering.start cache) rules state) :
    builder.build cache = (resolve ⟨state.nodes, rules⟩, state.cache) := by
  rw [build, duplicate?_of_nodup different fun _ _ => List.not_mem_nil]
  dsimp only
  rw [show (lowerRules builder.definitions).run.run (Lowering.start cache) = (.ok rules, state) from
    yields]

/-- Once the ends of all references are known, it remains to check the clauses that loop. -/
theorem resolve_of_targets {lowered : Grammar L} {bound : List (Clause L PatternProgram NodeId)}
    {targets : List NodeId} (isBound : Grammar.bindAll lowered.rules lowered.nodes = .ok bound)
    (areTargets : Grammar.targets bound = .ok targets) :
    resolve lowered =
      ((Grammar.redirect targets ⟨bound, lowered.rules⟩).validate
        (Grammar.redirect targets ⟨bound, lowered.rules⟩).nodes
        (Nullability.unknown (Grammar.redirect targets ⟨bound, lowered.rules⟩).nodeCount)).map
        (BuiltGrammar.mk (Grammar.redirect targets ⟨bound, lowered.rules⟩)) := by
  rw [resolve, isBound]
  dsimp only
  rw [areTargets]
  dsimp only
  generalize Grammar.redirect targets ⟨bound, lowered.rules⟩ = grammar
  cases grammar.validate grammar.nodes (Nullability.unknown grammar.nodeCount) <;> rfl

section Alone

variable {type : ValueType L.Kind} {parser : Parser L type} {cache : PatternCache}
  {root : NodeId} {state : LoweringState L}
  (isLowered : (Lowering.expr parser.expr).Yields (Lowering.start cache) root state)
  (name : String)

include isLowered

/-- A parser that is a grammar of its own is lowered, and what it has been lowered to is
resolved. -/
theorem build_of_lowered :
    (empty.rule name parser).build cache =
      (resolve ⟨state.nodes, [⟨name, type, root⟩]⟩, state.cache) := by
  have areRules : (lowerRules [⟨name, type, parser⟩]).Yields (Lowering.start cache)
      [⟨name, type, root⟩] state := by
    rw [lowerRules]
    exact Lowering.yields_bind.mpr ⟨root, state, isLowered, rfl⟩
  have different : [name].Nodup := List.nodup_cons.mpr ⟨List.not_mem_nil, List.nodup_nil⟩
  exact @build_of_yields _ (empty.rule name parser) different _ _ _ areRules

/-- It is accepted if its references can be replaced and its clauses that loop consume. -/
theorem exists_known_of_lowered {bound : List (Clause L PatternProgram NodeId)}
    {targets : List NodeId} {grammar : Grammar L}
    (isBound : Grammar.bindAll [⟨name, type, root⟩] state.nodes = .ok bound)
    (areTargets : Grammar.targets bound = .ok targets)
    (isGrammar : Grammar.redirect targets ⟨bound, [⟨name, type, root⟩]⟩ = grammar)
    (valid : (grammar.validate grammar.nodes (Nullability.unknown grammar.nodeCount)).isOk = true) :
    exists known, (empty.rule name parser).build cache = (.ok ⟨grammar, known⟩, state.cache) := by
  rw [build_of_lowered isLowered, resolve_of_targets isBound areTargets, isGrammar]
  cases validated : grammar.validate grammar.nodes (Nullability.unknown grammar.nodeCount) with
  | error error =>
      rw [validated] at valid
      cases valid
  | ok known => exact ⟨known, rfl⟩

end Alone

/-- What happens when a grammar is built. -/
theorem build_accepted {builder : GrammarBuilder L} {cache after : PatternCache}
    {built : BuiltGrammar L} (accepted : builder.build cache = (.ok built, after)) :
    (builder.definitions.map fun definition => definition.name).Nodup ∧
    exists rules state, (lowerRules builder.definitions).Yields (Lowering.start cache) rules state ∧
      after = state.cache ∧
      exists bound targets, Grammar.bindAll rules state.nodes = .ok bound ∧
        Grammar.targets bound = .ok targets ∧
        built.grammar = Grammar.redirect targets ⟨bound, rules⟩ := by
  rw [build] at accepted
  cases duplicate : duplicate? [] (builder.definitions.map (·.name)) with
  | some name =>
      rw [duplicate] at accepted
      cases accepted
  | none =>
      rw [duplicate] at accepted
      refine ⟨(duplicate?_none duplicate).1, ?_⟩
      cases lowering : (lowerRules builder.definitions).run.run (Lowering.start cache) with
      | mk outcome state =>
          simp only [lowering] at accepted
          cases outcome with
          | error error => cases accepted
          | ok rules =>
              refine ⟨rules, state, lowering, (congrArg Prod.snd accepted).symm, ?_⟩
              have resolved : resolve ⟨state.nodes, rules⟩ = .ok built := congrArg Prod.fst accepted
              rw [resolve] at resolved
              cases isBound : Grammar.bindAll rules state.nodes with
              | error error =>
                  simp only [isBound] at resolved
                  cases resolved
              | ok bound =>
                  simp only [isBound] at resolved
                  cases areTargets : Grammar.targets bound with
                  | error error =>
                      simp only [areTargets] at resolved
                      cases resolved
                  | ok targets =>
                      simp only [areTargets] at resolved
                      refine ⟨bound, targets, rfl, areTargets, ?_⟩
                      split at resolved
                      · cases resolved
                      · cases resolved
                        rfl

namespace LoweredRules

variable {builder : GrammarBuilder L} {state : LoweringState L} {rules : List (Rule L)}
  {bound : List (Clause L PatternProgram NodeId)}

/-- An expression is held by the node that it has been placed at, which has
been bound. -/
theorem bound_of_places (lowered : builder.LoweredRules state rules)
    (coherent : Coherent builder.Contains) (isBound : Grammar.bindAll rules state.nodes = .ok bound)
    {expr : Expr L} (contained : builder.Contains expr) {id : NodeId}
    (places : state.Places expr id) :
    exists compiled clause clause', expr.clause.compiled? = some compiled ∧
      compiled.Corresponds Eq state.Places clause ∧ Grammar.bind rules clause = .ok clause' ∧
      bound[id]? = some clause' := by
  rcases lowered.represents.holds_of_places coherent contained places with
    ⟨compiled, clause, isCompiled, found, corresponds⟩
  have related := Grammar.bindAll_ok isBound
  rcases List.getElem?_eq_some_iff.mp found with ⟨inRange, rfl⟩
  have inBound : id < bound.length := by rwa [<- related.length_eq]
  exact ⟨compiled, state.nodes[id], bound[id], isCompiled, corresponds,
    related.get inRange inBound, List.getElem?_eq_getElem inBound⟩

/-- A reference is bound to the root of the rule of its name. -/
theorem bound_reference (lowered : builder.LoweredRules state rules)
    (coherent : Coherent builder.Contains) (isBound : Grammar.bindAll rules state.nodes = .ok bound)
    {expr : Expr L} (contained : builder.Contains expr) {name : String}
    {expected : ValueType L.Kind} {reference : Option (Expr L)}
    (isReference : expr.clause = .reference name expected reference) {id : NodeId}
    (places : state.Places expr id) :
    exists definition root, builder.definition? name = some definition ∧
      definition.type = expected ∧ state.Places definition.parser.expr root ∧
      bound[id]? = some (.reference name expected (some root)) := by
  rcases lowered.bound_of_places coherent isBound contained places with
    ⟨compiled, clause, clause', isCompiled, corresponds, isBound, found⟩
  rw [isReference] at isCompiled
  cases isCompiled
  cases corresponds with
  | @reference _ _ _ unbound =>
      rcases Grammar.bind_ok isBound with ⟨noReference, _⟩ | ⟨_, _, _, rule, same, isRule, sameType, rfl⟩
      · cases noReference
      · cases same
        have related := find?_rule lowered.rules name
        rw [isRule] at related
        cases isDefinition : builder.definitions.find? (·.name == name) with
        | none =>
            rw [isDefinition] at related
            cases related
        | some definition =>
            rw [isDefinition] at related
            cases related with
            | some lowered =>
                exact ⟨definition, rule.root, isDefinition, lowered.type.symm.trans sameType,
                  lowered.root, found⟩

end LoweredRules

/-- The parts of a grammar that is built from coherent expressions. -/
structure Assembly (builder : GrammarBuilder L) (state : LoweringState L) (rules : List (Rule L))
    (bound : List (Clause L PatternProgram NodeId)) (targets : List NodeId) : Prop where
  lowered : builder.LoweredRules state rules
  coherent : Coherent builder.Contains
  different : (builder.definitions.map fun definition => definition.name).Nodup
  isBound : Grammar.bindAll rules state.nodes = .ok bound
  areTargets : Grammar.targets bound = .ok targets

namespace Assembly

variable {builder : GrammarBuilder L} {state : LoweringState L} {rules : List (Rule L)}
  {bound : List (Clause L PatternProgram NodeId)} {targets : List NodeId}

/-- What a number is replaced by. -/
def target (targets : List NodeId) (id : NodeId) : NodeId :=
  (targets[id]?).getD id

/-- The node of an expression: what its own node is replaced by. -/
def node (state : LoweringState L) (targets : List NodeId) (expr : Expr L) : NodeId :=
  target targets ((state.placedAt? expr.key).getD 0)

theorem node_of_places {expr : Expr L} {id : NodeId} (places : state.Places expr id) :
    node state targets expr = target targets id := by
  have placed : state.placedAt? expr.key = some id := places
  rw [node, placed, Option.getD_some]

/-- An expression is held by the node that it has been placed at, which has
been bound and has a chain. -/
theorem held (parts : builder.Assembly state rules bound targets) {expr : Expr L}
    (contained : builder.Contains expr) {id : NodeId} (places : state.Places expr id) :
    exists compiled clause clause' length last, expr.clause.compiled? = some compiled ∧
      compiled.Corresponds Eq state.Places clause ∧ Grammar.bind rules clause = .ok clause' ∧
      bound[id]? = some clause' ∧ length ≤ bound.length + 1 ∧
      target targets id = last ∧ Grammar.Chain bound length id last := by
  rcases parts.lowered.bound_of_places parts.coherent parts.isBound contained places with
    ⟨compiled, clause, clause', isCompiled, corresponds, isBound, found⟩
  rcases Grammar.targets_ok parts.areTargets (List.getElem?_eq_some_iff.mp found).1 with
    ⟨length, last, short, isTarget, chain⟩
  refine ⟨compiled, clause, clause', length, last, isCompiled, corresponds, isBound, found, short,
    ?_, chain⟩
  rw [target, isTarget, Option.getD_some]

/-- An expression that is no reference keeps the node it was placed at. -/
theorem kept (parts : builder.Assembly state rules bound targets) {expr : Expr L}
    (contained : builder.Contains expr) (isOperator : expr.clause.isReference = false)
    {id : NodeId} (places : state.Places expr id) :
    exists compiled clause, expr.clause.compiled? = some compiled ∧
      compiled.Corresponds Eq state.Places clause ∧ bound[id]? = some clause ∧
      node state targets expr = id := by
  rcases parts.held contained places with
    ⟨compiled, clause, clause', length, last, isCompiled, corresponds, isBound, found, _,
      isTarget, chain⟩
  have noReference : clause.isReference = false := by
    rw [<- corresponds.isReference_eq, Clause.isReference_compiled isCompiled, isOperator]
  rcases Grammar.bind_ok isBound with ⟨_, rfl⟩ | ⟨_, _, _, _, rfl, _⟩
  · refine ⟨compiled, clause', isCompiled, corresponds, found, ?_⟩
    have ends : Grammar.EndsChain bound id := by
      intro name expected reference isReference
      rw [found] at isReference
      cases isReference
      cases noReference
    rw [node_of_places places, isTarget]
    exact (chain.unique (.stop ends)).2
  · cases noReference

/-- A reference leads to the rule of its name. -/
theorem followed (parts : builder.Assembly state rules bound targets) {expr : Expr L}
    (contained : builder.Contains expr) {name : String} {expected : ValueType L.Kind}
    {reference : Option (Expr L)} (isReference : expr.clause = .reference name expected reference)
    {id : NodeId} (places : state.Places expr id) :
    exists definition root, builder.definition? name = some definition ∧
      definition.type = expected ∧ state.Places definition.parser.expr root ∧
      bound[id]? = some (.reference name expected (some root)) :=
  parts.lowered.bound_reference parts.coherent parts.isBound contained isReference places

/-- Chains of nodes are chains of expressions. -/
theorem leads_of_chain (parts : builder.Assembly state rules bound targets) {length : Nat}
    {id last : NodeId} (chain : Grammar.Chain bound length id last) {expr : Expr L}
    (contained : builder.Contains expr) (places : state.Places expr id) :
    exists final, builder.Leads length expr final := by
  induction chain generalizing expr with
  | @stop id ends =>
      cases isReference : expr.clause.isReference with
      | false => exact ⟨expr, .here isReference⟩
      | true =>
          rcases Clause.eq_reference_of_isReference isReference with ⟨name, expected, _, isClause⟩
          rcases parts.followed contained isClause places with ⟨_, root, _, _, _, found⟩
          exact absurd found (ends name expected (some root))
  | @step length id target last name expected found _ inductionHypothesis =>
      cases isReference : expr.clause.isReference with
      | false =>
          rcases parts.kept contained isReference places with
            ⟨compiled, clause, isCompiled, corresponds, found', _⟩
          rw [found'] at found
          cases found
          have same := corresponds.isReference_eq
          rw [Clause.isReference_compiled isCompiled, isReference] at same
          cases same
      | true =>
          rcases Clause.eq_reference_of_isReference isReference with ⟨name', _, _, isClause⟩
          rcases parts.followed contained isClause places with
            ⟨definition, root, isDefinition, _, rootPlaces, found'⟩
          rw [found'] at found
          cases found
          rcases inductionHypothesis (contains_root (mem_of_definition? isDefinition)) rootPlaces
            with ⟨final, leads⟩
          exact ⟨final, .follow isClause isDefinition leads⟩

theorem resolution (parts : builder.Assembly state rules bound targets) :
    builder.Resolution (Grammar.redirect targets ⟨bound, rules⟩) (node state targets)
      (bound.length + 1) where
  clause := by
    intro expr contained isOperator
    rcases parts.lowered.placed expr contained with ⟨id, places⟩
    rcases parts.kept contained isOperator places with
      ⟨compiled, clause, isCompiled, corresponds, found, isNode⟩
    refine ⟨compiled, clause.redirect (target targets), isCompiled, ?_, ?_⟩
    · rw [isNode]
      exact List.getElem?_map.trans (congrArg _ found)
    · exact .redirect (corresponds.imp fun _ _ _ childPlaces => node_of_places childPlaces)
  reference := by
    intro expr name expected reference contained isClause
    rcases parts.lowered.placed expr contained with ⟨id, places⟩
    rcases parts.followed contained isClause places with
      ⟨definition, root, isDefinition, sameType, rootPlaces, found⟩
    refine ⟨definition, isDefinition, sameType, ?_⟩
    rcases parts.held contained places with ⟨_, _, _, _, last, _, _, _, _, _, isLast, chain⟩
    rcases parts.held (contains_root (mem_of_definition? isDefinition)) rootPlaces with
      ⟨_, _, _, _, last', _, _, _, _, _, isLast', chain'⟩
    rw [node_of_places places, node_of_places rootPlaces, isLast, isLast']
    exact (chain.unique (.step found chain')).2
  leads := by
    intro expr contained
    rcases parts.lowered.placed expr contained with ⟨id, places⟩
    rcases parts.held contained places with ⟨_, _, _, length, last, _, _, _, _, short, _, chain⟩
    rcases parts.leads_of_chain chain contained places with ⟨final, leads⟩
    exact ⟨length, final, short, leads⟩
  injective := by
    intro first second firstContained secondContained firstOperator secondOperator sameNode
    rcases parts.lowered.placed first firstContained with ⟨id, places⟩
    rcases parts.lowered.placed second secondContained with ⟨id', places'⟩
    rcases parts.kept firstContained firstOperator places with ⟨_, _, _, _, _, isNode⟩
    rcases parts.kept secondContained secondOperator places' with ⟨_, _, _, _, _, isNode'⟩
    rw [isNode, isNode'] at sameNode
    subst sameNode
    exact parts.coherent first second firstContained secondContained
      (parts.lowered.represents.distinct _ _ id places places')
  rule := by
    intro definition member
    have related := find?_rule parts.lowered.rules definition.name
    have own : builder.definitions.find? (·.name == definition.name) = some definition :=
      definition?_of_mem parts.different member
    rw [own] at related
    cases isRule : rules.find? (·.name == definition.name) with
    | none =>
        rw [isRule] at related
        cases related
    | some rule =>
        rw [isRule] at related
        cases related with
        | some lowered =>
            rw [node_of_places lowered.root, <- lowered.name, <- lowered.type]
            rw [<- lowered.name] at isRule
            exact List.find?_map.trans (congrArg _ isRule)

/-- The rules are those of the definitions, each at the node of its expression. -/
theorem rules_eq (parts : builder.Assembly state rules bound targets) :
    (Grammar.redirect targets ⟨bound, rules⟩).rules = builder.definitions.map fun definition =>
      ⟨definition.name, definition.type, node state targets definition.parser.expr⟩ := by
  change (rules.map fun rule => { rule with root := target targets rule.root }) = _
  have lowered := parts.lowered.rules
  generalize builder.definitions = definitions at lowered
  clear parts
  induction lowered with
  | nil => rfl
  | @cons definition rule definitions rules first _ inductionHypothesis =>
      rw [List.map_cons, List.map_cons, inductionHypothesis, node_of_places first.root, first.name,
        first.type]

end Assembly

/-- A grammar that is built from coherent expressions is put together from its
parts. -/
theorem build_assembled {builder : GrammarBuilder L} {cache after : PatternCache}
    {built : BuiltGrammar L} (sound : cache.Sound) (coherent : Coherent builder.Contains)
    (accepted : builder.build cache = (.ok built, after)) :
    exists state rules bound targets,
      (lowerRules builder.definitions).Yields (Lowering.start cache) rules state ∧
        builder.Assembly state rules bound targets ∧
        built.grammar = Grammar.redirect targets ⟨bound, rules⟩ := by
  rcases build_accepted accepted with
    ⟨different, rules, state, yields, _, bound, targets, isBound, areTargets, isGrammar⟩
  exact ⟨state, rules, bound, targets, yields,
    ⟨loweredRules_of_yields coherent sound yields, coherent, different, isBound, areTargets⟩,
    isGrammar⟩

/-- A grammar that is built from coherent expressions has a node for each. -/
theorem build_resolves {builder : GrammarBuilder L} {cache after : PatternCache}
    {built : BuiltGrammar L} (sound : cache.Sound) (coherent : Coherent builder.Contains)
    (accepted : builder.build cache = (.ok built, after)) :
    exists node longest, builder.Resolution built.grammar node longest := by
  rcases build_assembled sound coherent accepted with
    ⟨state, rules, bound, targets, _, parts, isGrammar⟩
  rw [isGrammar]
  exact ⟨_, _, parts.resolution⟩

/-- The rules of a built grammar have the names of the definitions. -/
theorem build_ruleNames {builder : GrammarBuilder L} {cache after : PatternCache}
    {built : BuiltGrammar L} (sound : cache.Sound) (coherent : Coherent builder.Contains)
    (accepted : builder.build cache = (.ok built, after)) :
    built.grammar.ruleNames = builder.definitions.map fun definition => definition.name := by
  rcases build_assembled sound coherent accepted with
    ⟨state, rules, bound, targets, _, parts, isGrammar⟩
  rw [Grammar.ruleNames, isGrammar, parts.rules_eq, List.map_map]
  rfl

end GrammarBuilder
end SeedGrammar
